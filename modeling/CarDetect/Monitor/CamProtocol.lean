import Mathlib.Data.Set.Insert
import Mathlib.Logic.Function.Basic

/-!
# The protocol that keeps two tables of cameras alike

A server and one client, with the messages between them in two queues. Names and conversations are
of any type. `Consistent` is what holds in every state that the steps of `CamStep` reach from a new
connection: the removals among them happen only while no message in flight announces or registers
the camera. `Consistent.agree` says that the tables are alike when the queues are empty.
-/

namespace CarDetect.Monitor

/-- A message of the client. -/
inductive Up (Id Conv : Type) where
  | setup
  | register (table : Id → Option Conv)

/-- A message of the server. -/
inductive Down (Id : Type) where
  | answer (ids : Set Id)
  | addCam (id : Id)
  | delCam (id : Id)

/-- The server's cameras and sessions, the client's cameras, and the messages in flight, the oldest
first. -/
structure Tables (Id Conv : Type) where
  cams : Set Id
  sessions : Id → Option Conv
  camMap : Id → Option Conv
  up : List (Up Id Conv)
  down : List (Down Id)

section Protocol

variable {Id Conv : Type}

/-- The sessions when all messages of the client have been handled. -/
def upView (sessions : Id → Option Conv) (up : List (Up Id Conv)) : Id → Option Conv :=
  up.foldl (fun view message =>
    match message with
    | .setup => view
    | .register table => fun id => (table id).or (view id)) sessions

/-- A message of the client registers the camera. -/
def Registers (up : List (Up Id Conv)) (id : Id) : Prop :=
  ∃ table, .register table ∈ up ∧ table id ≠ none

/-- A message of the server announces the camera. -/
def Announced (down : List (Down Id)) (id : Id) : Prop :=
  (∃ ids, .answer ids ∈ down ∧ id ∈ ids) ∨ .addCam id ∈ down

namespace Tables

/-- No message in flight announces or registers the camera. -/
def Quiet (tables : Tables Id Conv) (id : Id) : Prop :=
  ¬ Registers tables.up id ∧ ¬ Announced tables.down id

/-- A new connection. -/
def connected (cams : Set Id) : Tables Id Conv :=
  ⟨cams, fun _ => none, fun _ => none, [.setup], []⟩

variable [DecidableEq Id]

/-- What can happen next. Of removals, only those of cameras that no message in flight names. -/
inductive CamStep : Tables Id Conv → Tables Id Conv → Prop where
  | answerSetup (tables rest) (hup : tables.up = .setup :: rest) :
      CamStep tables { tables with up := rest, down := tables.down ++ [.answer tables.cams] }
  | register (tables table rest) (hup : tables.up = .register table :: rest) :
      CamStep tables
        { tables with up := rest, sessions := fun id => (table id).or (tables.sessions id) }
  | readAnswer (tables ids rest camMap) (hdown : tables.down = .answer ids :: rest)
      (hstored : ∀ id ∈ ids, camMap id ≠ none)
      (hkept : ∀ id, id ∉ ids → camMap id = tables.camMap id) :
      CamStep tables
        { tables with camMap := camMap, down := rest, up := tables.up ++ [.register camMap] }
  | readEmpty (tables rest) (hdown : tables.down = .answer ∅ :: rest) :
      CamStep tables { tables with down := rest }
  | readAdd (tables id conv rest) (hdown : tables.down = .addCam id :: rest) :
      CamStep tables { tables with
        camMap := Function.update tables.camMap id (some conv)
        down := rest
        up := tables.up ++ [.register (Function.update (fun _ => none) id (some conv))] }
  | readDel (tables id rest) (hdown : tables.down = .delCam id :: rest) :
      CamStep tables
        { tables with camMap := Function.update tables.camMap id none, down := rest }
  | addKnown (tables id) (hknown : tables.sessions id ≠ none) :
      CamStep tables { tables with cams := insert id tables.cams }
  | addNew (tables id) (hnew : tables.sessions id = none) :
      CamStep tables
        { tables with cams := insert id tables.cams, down := tables.down ++ [.addCam id] }
  | removeKnown (tables id) (hquiet : tables.Quiet id) (hknown : tables.sessions id ≠ none) :
      CamStep tables { tables with
        cams := tables.cams \ {id}
        sessions := Function.update tables.sessions id none
        down := tables.down ++ [.delCam id] }
  | removeUnknown (tables id) (hquiet : tables.Quiet id) (hunknown : tables.sessions id = none) :
      CamStep tables { tables with cams := tables.cams \ {id} }

end Tables

/-! ## The invariant -/

/-- Every camera of the server is on its way to both tables, every other on its way out of them, and
the client's table is the server's up to a removal in flight. Until the client has read the answer
to SETUP nothing is removed from its table. -/
structure Consistent (tables : Tables Id Conv) : Prop where
  present : ∀ id ∈ tables.cams, .setup ∈ tables.up ∨
    upView tables.sessions tables.up id ≠ none ∨ Announced tables.down id
  absent : ∀ id, id ∉ tables.cams → upView tables.sessions tables.up id = none ∧
    ¬ Announced tables.down id ∧ (tables.camMap id = none ∨ .delCam id ∈ tables.down)
  alike : ∀ id, tables.camMap id = upView tables.sessions tables.up id ∨
    .delCam id ∈ tables.down ∧ upView tables.sessions tables.up id = none
  removal : ∀ before id after, tables.down = before ++ .delCam id :: after →
    upView tables.sessions tables.up id = none ∧ ¬ Announced before id
  asked : .setup ∈ tables.up → (∃ rest, tables.up = .setup :: rest ∧ .setup ∉ rest) ∧
    (∀ id, tables.sessions id = none) ∧ (∀ id, .delCam id ∉ tables.down) ∧
    ∀ ids, .answer ids ∉ tables.down
  answered : ∀ before ids after, tables.down = before ++ .answer ids :: after →
    (∀ id, .delCam id ∉ tables.down) ∧ (∀ other, .answer other ∉ after) ∧
    ∀ id, upView tables.sessions tables.up id ≠ none ∨ tables.camMap id ≠ none ∨
      Announced before id → id ∈ ids

section Views

variable {sessions : Id → Option Conv} {up : List (Up Id Conv)} {down later : List (Down Id)}
  {table : Id → Option Conv} {id : Id}

@[simp] theorem view_nil : upView sessions ([] : List (Up Id Conv)) = sessions := rfl

@[simp] theorem view_setup (rest : List (Up Id Conv)) :
    upView sessions (.setup :: rest) = upView sessions rest := rfl

@[simp] theorem view_register (rest : List (Up Id Conv)) :
    upView sessions (.register table :: rest) =
      upView (fun id => (table id).or (sessions id)) rest := rfl

@[simp] theorem view_snoc (id : Id) :
    upView sessions (up ++ [.register table]) id = (table id).or (upView sessions up id) := by
  rw [upView, List.foldl_append]
  rfl

/-- The view after one more ADDCAM. -/
theorem view_add [DecidableEq Id] (sessions : Id → Option Conv) (up : List (Up Id Conv)) (id : Id)
    (conv : Conv) :
    upView sessions (up ++ [.register (Function.update (fun _ => none) id (some conv))]) =
      Function.update (upView sessions up) id (some conv) := by
  funext other
  rw [view_snoc]
  by_cases hne : other = id
  · rw [hne, Function.update_self, Function.update_self]
    rfl
  · rw [Function.update_of_ne hne, Function.update_of_ne hne]
    rfl

/-- Nothing is registered under a name when the server has no session for it and no message does. -/
theorem view_none_iff :
    upView sessions up id = none ↔ sessions id = none ∧ ¬ Registers up id := by
  induction up generalizing sessions with
  | nil => simp [Registers]
  | cons message rest ih =>
      cases message with
      | setup =>
          rw [view_setup, ih]
          simp [Registers]
      | register table =>
          rw [view_register, ih, Option.or_eq_none_iff]
          constructor
          · rintro ⟨⟨htable, hsessions⟩, hrest⟩
            refine ⟨hsessions, ?_⟩
            rintro ⟨other, hother, hne⟩
            rcases List.mem_cons.1 hother with heq | hother
            · cases heq
              exact hne htable
            · exact hrest ⟨other, hother, hne⟩
          · rintro ⟨hsessions, hnone⟩
            refine ⟨⟨?_, hsessions⟩, ?_⟩
            · by_contra htable
              exact hnone ⟨table, List.mem_cons_self, htable⟩
            · rintro ⟨other, hother, hne⟩
              exact hnone ⟨other, List.mem_cons_of_mem _ hother, hne⟩

/-- A change of one name leaves the others alone. -/
theorem view_update [DecidableEq Id] {other : Id} (hne : other ≠ id) (value : Option Conv) :
    upView (Function.update sessions id value) up other = upView sessions up other := by
  induction up generalizing sessions value with
  | nil => exact Function.update_of_ne hne _ _
  | cons message rest ih =>
      cases message with
      | setup => exact ih value
      | register table =>
          have hsame : (fun other => (table other).or (Function.update sessions id value other)) =
              Function.update (fun other => (table other).or (sessions other)) id
                ((table id).or value) := by
            funext name
            by_cases hname : name = id
            · rw [hname, Function.update_self, Function.update_self]
            · rw [Function.update_of_ne hname, Function.update_of_ne hname]
          rw [view_register, view_register, hsame, ih]

theorem announced_append :
    Announced (down ++ later) id ↔ Announced down id ∨ Announced later id := by
  simp only [Announced, List.mem_append]
  constructor
  · rintro (⟨ids, hmem | hmem, hid⟩ | hmem | hmem)
    · exact .inl (.inl ⟨ids, hmem, hid⟩)
    · exact .inr (.inl ⟨ids, hmem, hid⟩)
    · exact .inl (.inr hmem)
    · exact .inr (.inr hmem)
  · rintro ((⟨ids, hmem, hid⟩ | hmem) | ⟨ids, hmem, hid⟩ | hmem)
    · exact .inl ⟨ids, .inl hmem, hid⟩
    · exact .inr (.inl hmem)
    · exact .inl ⟨ids, .inr hmem, hid⟩
    · exact .inr (.inr hmem)

@[simp] theorem announced_nil : ¬ Announced ([] : List (Down Id)) id := by
  simp [Announced]

@[simp] theorem announced_answer {ids : Set Id} :
    Announced (.answer ids :: down) id ↔ id ∈ ids ∨ Announced down id := by
  simp only [Announced, List.mem_cons, reduceCtorEq, false_or, Down.answer.injEq]
  constructor
  · rintro (⟨other, rfl | hmem, hid⟩ | hmem)
    · exact .inl hid
    · exact .inr (.inl ⟨other, hmem, hid⟩)
    · exact .inr (.inr hmem)
  · rintro (hid | ⟨other, hmem, hid⟩ | hmem)
    · exact .inl ⟨ids, .inl rfl, hid⟩
    · exact .inl ⟨other, .inr hmem, hid⟩
    · exact .inr hmem

@[simp] theorem announced_add {other : Id} :
    Announced (.addCam other :: down) id ↔ id = other ∨ Announced down id := by
  simp only [Announced, List.mem_cons, reduceCtorEq, false_or, Down.addCam.injEq]
  exact or_left_comm

@[simp] theorem announced_del {other : Id} :
    Announced (.delCam other :: down) id ↔ Announced down id := by
  simp [Announced]

theorem mem_of_split {message : Down Id} {before after : List (Down Id)}
    (h : down = before ++ message :: after) : message ∈ down := by
  rw [h]
  exact List.mem_append_right _ List.mem_cons_self

/-- A message in a queue that has grown by one is the new one or stood in the queue. -/
theorem split_snoc {last message : Down Id} {before after : List (Down Id)}
    (h : down ++ [last] = before ++ message :: after) :
    after = [] ∧ down = before ∧ last = message ∨
      ∃ rest, after = rest ++ [last] ∧ down = before ++ message :: rest := by
  rcases List.eq_nil_or_concat after with rfl | ⟨rest, final, rfl⟩
  · obtain ⟨hbefore, hlast⟩ := List.append_inj' h rfl
    cases hlast
    exact .inl ⟨rfl, hbefore, rfl⟩
  · rw [List.concat_eq_append, ← List.cons_append, ← List.append_assoc] at h
    obtain ⟨hbefore, hlast⟩ := List.append_inj' h rfl
    cases hlast
    exact .inr ⟨rest, List.concat_eq_append, hbefore⟩

end Views

namespace Consistent

open Tables

variable {tables : Tables Id Conv}

/-- A message behind the one that is read next. -/
theorem split_behind {down rest before after : List (Down Id)} {first message : Down Id}
    (hdown : down = first :: rest) (hsplit : rest = before ++ message :: after) :
    down = (first :: before) ++ message :: after := by
  rw [hdown, hsplit]
  rfl

/-- Nothing is removed from the client's table before it has read the answer to SETUP. -/
theorem no_removal (h : Consistent tables)
    (hunanswered : .setup ∈ tables.up ∨ ∃ ids, .answer ids ∈ tables.down) (id : Id) :
    .delCam id ∉ tables.down := by
  rcases hunanswered with hsetup | ⟨ids, hanswer⟩
  · exact (h.asked hsetup).2.2.1 id
  · obtain ⟨before, after, hsplit⟩ := List.append_of_mem hanswer
    exact (h.answered before ids after hsplit).1 id

/-- The server answers SETUP. -/
theorem answerSetup (h : Consistent tables) {rest : List (Up Id Conv)}
    (hup : tables.up = .setup :: rest) :
    Consistent { tables with up := rest, down := tables.down ++ [.answer tables.cams] } := by
  have hsetup : .setup ∈ tables.up := by simp [hup]
  obtain ⟨⟨other, hother, hone⟩, hnone, hdel, hanswer⟩ := h.asked hsetup
  obtain rfl : rest = other := (List.cons.inj (hup.symm.trans hother)).2
  have hview : upView tables.sessions rest = upView tables.sessions tables.up := by
    rw [hup, view_setup]
  have hdel' : ∀ id, .delCam id ∉ tables.down ++ [.answer tables.cams] := by
    intro id hmem
    rcases List.mem_append.1 hmem with hmem | hmem
    · exact hdel id hmem
    · simp at hmem
  constructor
  · intro id hid
    exact .inr (.inr (announced_append.2 (.inr (by simpa using hid))))
  · intro id hid
    obtain ⟨hnoview, hquiet, hcam⟩ := h.absent id hid
    refine ⟨hview ▸ hnoview, fun hannounced => ?_, .inl (hcam.resolve_right (hdel id))⟩
    rcases announced_append.1 hannounced with hold | hnew
    · exact hquiet hold
    · exact hid (by simpa using hnew)
  · intro id
    simp only
    rw [hview]
    exact .inl ((h.alike id).resolve_right fun hor => hdel id hor.1)
  · intro before id after hsplit
    exact absurd (mem_of_split hsplit) (hdel' id)
  · intro hagain
    exact absurd hagain hone
  · intro before ids after hsplit
    rcases split_snoc hsplit with ⟨rfl, rfl, heq⟩ | ⟨between, rfl, hdown⟩
    · cases heq
      refine ⟨hdel', by simp, fun id hnamed => ?_⟩
      by_contra hid
      obtain ⟨hnoview, hquiet, hcam⟩ := h.absent id hid
      rcases hnamed with hne | hne | hannounced
      · exact hne (hview ▸ hnoview)
      · exact hne (hcam.resolve_right (hdel id))
      · exact hquiet hannounced
    · exact absurd (mem_of_split hdown) (hanswer ids)

/-- The server handles a MESSAGE or an ADDCAM. -/
theorem register (h : Consistent tables) {table : Id → Option Conv} {rest : List (Up Id Conv)}
    (hup : tables.up = .register table :: rest) :
    Consistent { tables with
      up := rest, sessions := fun id => (table id).or (tables.sessions id) } := by
  have hview : upView (fun id => (table id).or (tables.sessions id)) rest =
      upView tables.sessions tables.up := by
    rw [hup, view_register]
  have hsetup : .setup ∉ rest := by
    intro hmem
    obtain ⟨⟨other, hother, -⟩, -⟩ := h.asked (hup ▸ List.mem_cons_of_mem _ hmem)
    cases hup.symm.trans hother
  constructor
  · intro id hid
    simp only
    rw [hview]
    refine (h.present id hid).imp_left fun hmem => ?_
    rw [hup] at hmem
    exact (List.mem_cons.1 hmem).resolve_left (by simp)
  · intro id hid
    simp only
    rw [hview]
    exact h.absent id hid
  · intro id
    simp only
    rw [hview]
    exact h.alike id
  · intro before id after hsplit
    simp only
    rw [hview]
    exact h.removal before id after hsplit
  · intro hmem
    exact absurd hmem hsetup
  · intro before ids after hsplit
    simp only
    rw [hview]
    exact h.answered before ids after hsplit

/-- The client reads an answer that names cameras, and sends its whole table. -/
theorem readAnswer (h : Consistent tables) {ids : Set Id} {rest : List (Down Id)}
    {camMap : Id → Option Conv} (hdown : tables.down = .answer ids :: rest)
    (hstored : ∀ id ∈ ids, camMap id ≠ none)
    (hkept : ∀ id, id ∉ ids → camMap id = tables.camMap id) :
    Consistent
      { tables with camMap := camMap, down := rest, up := tables.up ++ [.register camMap] } := by
  obtain ⟨hdel, hone, hnamed⟩ := h.answered [] ids rest hdown
  have hdel' : ∀ id, .delCam id ∉ rest := fun id hmem =>
    hdel id (hdown ▸ List.mem_cons_of_mem _ hmem)
  have hsetup : .setup ∉ tables.up := fun hmem =>
    (h.asked hmem).2.2.2 ids (hdown ▸ List.mem_cons_self)
  -- a camera that the answer does not name is in neither table
  have hother : ∀ id, id ∉ ids → upView tables.sessions tables.up id = none ∧
      tables.camMap id = none := by
    intro id hid
    exact ⟨not_not.1 fun hne => hid (hnamed id (.inl hne)),
      not_not.1 fun hne => hid (hnamed id (.inr (.inl hne)))⟩
  have hview : ∀ id, upView tables.sessions (tables.up ++ [.register camMap]) id = camMap id := by
    intro id
    rw [view_snoc]
    by_cases hid : id ∈ ids
    · obtain ⟨conv, hconv⟩ := Option.ne_none_iff_exists'.1 (hstored id hid)
      rw [hconv]
      rfl
    · rw [hkept id hid, (hother id hid).1, (hother id hid).2]
      rfl
  constructor
  · intro id hid
    right
    show upView _ (tables.up ++ _) id ≠ none ∨ Announced rest id
    rw [hview]
    rcases h.present id hid with hmem | hne | hannounced
    · exact absurd hmem hsetup
    · exact .inl (hstored id (hnamed id (.inl hne)))
    · rw [hdown, announced_answer] at hannounced
      exact hannounced.imp_left (hstored id)
  · intro id hid
    obtain ⟨-, hquiet, -⟩ := h.absent id hid
    rw [hdown, announced_answer, not_or] at hquiet
    have hnone : camMap id = none := (hkept id hquiet.1).trans (hother id hquiet.1).2
    exact ⟨(hview id).trans hnone, hquiet.2, .inl hnone⟩
  · intro id
    exact .inl (hview id).symm
  · intro before id after hsplit
    exact absurd (mem_of_split hsplit) (hdel' id)
  · intro hmem
    rcases List.mem_append.1 hmem with hmem | hmem
    · exact absurd hmem hsetup
    · simp at hmem
  · intro before other after hsplit
    exact absurd (mem_of_split hsplit) (hone other)

/-- The client reads an answer that names no camera. -/
theorem readEmpty (h : Consistent tables) {rest : List (Down Id)}
    (hdown : tables.down = .answer ∅ :: rest) : Consistent { tables with down := rest } := by
  obtain ⟨hdel, hone, hnamed⟩ := h.answered [] ∅ rest hdown
  have hdel' : ∀ id, .delCam id ∉ rest := fun id hmem =>
    hdel id (hdown ▸ List.mem_cons_of_mem _ hmem)
  have hnone : ∀ id, upView tables.sessions tables.up id = none ∧ tables.camMap id = none :=
    fun id => ⟨not_not.1 fun hne => hnamed id (.inl hne),
      not_not.1 fun hne => hnamed id (.inr (.inl hne))⟩
  constructor
  · intro id hid
    refine (h.present id hid).imp_right fun hor => hor.imp_right fun hannounced => ?_
    rw [hdown, announced_answer] at hannounced
    exact hannounced.resolve_left (by simp)
  · intro id hid
    obtain ⟨hnoview, hquiet, -⟩ := h.absent id hid
    rw [hdown, announced_answer, not_or] at hquiet
    exact ⟨hnoview, hquiet.2, .inl (hnone id).2⟩
  · intro id
    exact .inl ((hnone id).2.trans (hnone id).1.symm)
  · intro before id after hsplit
    exact absurd (mem_of_split hsplit) (hdel' id)
  · intro hmem
    exact absurd (hdown ▸ List.mem_cons_self) ((h.asked hmem).2.2.2 ∅)
  · intro before other after hsplit
    exact absurd (mem_of_split hsplit) (hone other)

/-- The server adds a camera for which it has a session. -/
theorem addKnown (h : Consistent tables) {id : Id} (hknown : tables.sessions id ≠ none) :
    Consistent { tables with cams := insert id tables.cams } := by
  have hview : upView tables.sessions tables.up id ≠ none := fun hnone =>
    hknown (view_none_iff.1 hnone).1
  refine ⟨fun other hother => ?_, fun other hother => h.absent other fun hold =>
    hother (Set.mem_insert_of_mem _ hold), h.alike, h.removal, h.asked, h.answered⟩
  rcases Set.mem_insert_iff.1 hother with rfl | hold
  · exact .inr (.inl hview)
  · exact h.present other hold

/-- The server adds a camera and announces it. -/
theorem addNew (h : Consistent tables) (id : Id) :
    Consistent
      { tables with cams := insert id tables.cams, down := tables.down ++ [.addCam id] } := by
  have hdel : ∀ other, .delCam other ∈ tables.down ++ [.addCam id] → .delCam other ∈ tables.down :=
    fun other hmem => (List.mem_append.1 hmem).resolve_right (by simp)
  constructor
  · intro other hother
    rcases Set.mem_insert_iff.1 hother with rfl | hold
    · exact .inr (.inr (announced_append.2 (.inr (by simp))))
    · exact (h.present other hold).imp_right fun hor => hor.imp_right fun hnew =>
        announced_append.2 (.inl hnew)
  · intro other hother
    rw [Set.mem_insert_iff, not_or] at hother
    obtain ⟨hnoview, hquiet, hcam⟩ := h.absent other hother.2
    refine ⟨hnoview, fun hnew => ?_, hcam.imp_right (List.mem_append_left _)⟩
    rcases announced_append.1 hnew with hold | hlast
    · exact hquiet hold
    · exact hother.1 (by simpa using hlast)
  · intro other
    exact (h.alike other).imp_right fun hor => ⟨List.mem_append_left _ hor.1, hor.2⟩
  · intro before other after hsplit
    rcases split_snoc hsplit with ⟨-, -, heq⟩ | ⟨between, -, hdown⟩
    · cases heq
    · exact h.removal before other between hdown
  · intro hsetup
    obtain ⟨hfirst, hnone, hnodel, hanswer⟩ := h.asked hsetup
    exact ⟨hfirst, hnone, fun other hmem => hnodel other (hdel other hmem), fun ids hmem =>
      hanswer ids ((List.mem_append.1 hmem).resolve_right (by simp))⟩
  · intro before ids after hsplit
    rcases split_snoc hsplit with ⟨-, -, heq⟩ | ⟨between, rfl, hdown⟩
    · cases heq
    · obtain ⟨hnodel, hone, hall⟩ := h.answered before ids between hdown
      exact ⟨fun other hmem => hnodel other (hdel other hmem), fun other hmem =>
        hone other ((List.mem_append.1 hmem).resolve_right (by simp)), hall⟩

/-- A new connection is consistent. -/
theorem connected (cams : Set Id) : Consistent (Tables.connected cams : Tables Id Conv) := by
  constructor
  · intro id _
    exact .inl List.mem_cons_self
  · intro id _
    exact ⟨rfl, by simp [Tables.connected], .inl rfl⟩
  · intro id
    exact .inl rfl
  · intro before id after hsplit
    exact absurd (mem_of_split hsplit) (by simp [Tables.connected])
  · intro _
    exact ⟨⟨[], rfl, by simp⟩, fun _ => rfl, by simp [Tables.connected], by simp [Tables.connected]⟩
  · intro before ids after hsplit
    exact absurd (mem_of_split hsplit) (by simp [Tables.connected])

/-- When no message is in flight, the three tables have the same cameras and the two sides the same
conversations. -/
theorem agree (h : Consistent tables) (hup : tables.up = []) (hdown : tables.down = []) (id : Id) :
    (tables.sessions id ≠ none ↔ id ∈ tables.cams) ∧ tables.camMap id = tables.sessions id := by
  obtain ⟨hpresent, habsent, halike, -, -, -⟩ := h
  rw [hup, hdown] at hpresent habsent
  refine ⟨⟨fun hne => ?_, fun hid => ?_⟩, ?_⟩
  · by_contra hid
    exact hne (habsent id hid).1
  · rcases hpresent id hid with hmem | hne | hannounced
    · simp at hmem
    · exact hne
    · exact absurd hannounced announced_nil
  · have hsame := halike id
    rw [hup, hdown] at hsame
    exact hsame.resolve_right (by simp)

variable [DecidableEq Id]

/-- The client reads an ADDCAM, and answers it. -/
theorem readAdd (h : Consistent tables) {id : Id} {rest : List (Down Id)} (conv : Conv)
    (hdown : tables.down = .addCam id :: rest) :
    Consistent { tables with
      camMap := Function.update tables.camMap id (some conv)
      down := rest
      up := tables.up ++ [.register (Function.update (fun _ => none) id (some conv))] } := by
  have hview := view_add tables.sessions tables.up id conv
  have hnamed : id ∈ tables.cams := by
    by_contra hid
    exact (h.absent id hid).2.1 (by simp [hdown])
  have hannounced : ∀ other, other ≠ id → Announced tables.down other → Announced rest other := by
    intro other hne hold
    rw [hdown, announced_add] at hold
    exact hold.resolve_left hne
  have hdel : ∀ other, .delCam other ∈ tables.down → .delCam other ∈ rest := by
    intro other hmem
    rw [hdown] at hmem
    exact (List.mem_cons.1 hmem).resolve_left (by simp)
  have hrest : ∀ message ∈ rest, message ∈ tables.down := by
    intro message hmem
    rw [hdown]
    exact List.mem_cons_of_mem _ hmem
  have hsetup : .setup ∈ tables.up ++ [.register (Function.update (fun _ => none) id (some conv))] →
      .setup ∈ tables.up := fun hmem => (List.mem_append.1 hmem).resolve_right (by simp)
  constructor
  · intro other hother
    simp only [hview]
    by_cases hne : other = id
    · rw [hne, Function.update_self]
      exact .inr (.inl (by simp))
    · rw [Function.update_of_ne hne]
      rcases h.present other hother with hmem | hnoview | hold
      · exact .inl (List.mem_append_left _ hmem)
      · exact .inr (.inl hnoview)
      · exact .inr (.inr (hannounced other hne hold))
  · intro other hother
    have hne : other ≠ id := by
      rintro rfl
      exact hother hnamed
    obtain ⟨hnoview, hquiet, hcam⟩ := h.absent other hother
    simp only [hview, Function.update_of_ne hne]
    refine ⟨hnoview, fun hnew => hquiet ?_, hcam.imp_right (hdel other)⟩
    rw [hdown, announced_add]
    exact .inr hnew
  · -- both tables get the new conversation
    intro other
    simp only [hview]
    by_cases hne : other = id
    · rw [hne, Function.update_self, Function.update_self]
      exact .inl rfl
    · rw [Function.update_of_ne hne, Function.update_of_ne hne]
      exact (h.alike other).imp_right fun hgone => ⟨hdel other hgone.1, hgone.2⟩
  · intro before other after hsplit
    obtain ⟨hnoview, hquiet⟩ :=
      h.removal (.addCam id :: before) other after (split_behind hdown hsplit)
    rw [announced_add, not_or] at hquiet
    simp only [hview, Function.update_of_ne hquiet.1]
    exact ⟨hnoview, hquiet.2⟩
  · intro hmem
    obtain ⟨⟨first, hfirst, hone⟩, hnone, hnodel, hanswer⟩ := h.asked (hsetup hmem)
    refine ⟨⟨first ++ [.register (Function.update (fun _ => none) id (some conv))], ?_, ?_⟩, hnone,
      fun other hold => hnodel other (hrest _ hold), fun ids hold => hanswer ids (hrest _ hold)⟩
    · rw [hfirst]
      rfl
    · intro hagain
      exact hone ((List.mem_append.1 hagain).resolve_right (by simp))
  · intro before ids after hsplit
    obtain ⟨hnodel, hone, hall⟩ :=
      h.answered (.addCam id :: before) ids after (split_behind hdown hsplit)
    refine ⟨fun other hold => hnodel other (hrest _ hold), hone, fun other hnames => ?_⟩
    by_cases hne : other = id
    · -- the answer was written after the ADDCAM, so it lists the camera
      exact hall other (.inr (.inr (announced_add.2 (.inl hne))))
    · simp only [hview, Function.update_of_ne hne] at hnames
      exact hall other (hnames.imp_right fun hor => hor.imp_right fun hold =>
        announced_add.2 (.inr hold))

/-- The client reads a DELCAM. -/
theorem readDel (h : Consistent tables) {id : Id} {rest : List (Down Id)}
    (hdown : tables.down = .delCam id :: rest) :
    Consistent { tables with camMap := Function.update tables.camMap id none, down := rest } := by
  have hgone := (h.removal [] id rest hdown).1
  have hmem : .delCam id ∈ tables.down := by simp [hdown]
  have hannounced : ∀ other, Announced tables.down other ↔ Announced rest other := by
    intro other
    rw [hdown, announced_del]
  have hdel : ∀ other, other ≠ id → .delCam other ∈ tables.down → .delCam other ∈ rest := by
    intro other hne hold
    rw [hdown] at hold
    exact (List.mem_cons.1 hold).resolve_left fun heq => hne (Down.delCam.inj heq)
  constructor
  · intro other hother
    exact (h.present other hother).imp_right fun hor => hor.imp_right (hannounced other).1
  · intro other hother
    obtain ⟨hnoview, hquiet, hcam⟩ := h.absent other hother
    refine ⟨hnoview, fun hnew => hquiet ((hannounced other).2 hnew), ?_⟩
    by_cases hne : other = id
    · exact .inl (by simp only [hne, Function.update_self])
    · simp only [Function.update_of_ne hne]
      exact hcam.imp_right (hdel other hne)
  · intro other
    by_cases hne : other = id
    · rw [hne]
      exact .inl (by simp only [Function.update_self, hgone])
    · simp only [Function.update_of_ne hne]
      exact (h.alike other).imp_right fun hor => ⟨hdel other hne hor.1, hor.2⟩
  · intro before other after hsplit
    obtain ⟨hnoview, hquiet⟩ :=
      h.removal (.delCam id :: before) other after (split_behind hdown hsplit)
    exact ⟨hnoview, fun hold => hquiet (announced_del.2 hold)⟩
  · intro hsetup
    exact absurd hmem (h.no_removal (.inl hsetup) id)
  · intro before ids after hsplit
    refine absurd hmem (h.no_removal (.inr ⟨ids, ?_⟩) id)
    rw [hdown]
    exact List.mem_cons_of_mem _ (mem_of_split hsplit)

/-- The server removes a camera for which it has a session. -/
theorem removeKnown (h : Consistent tables) {id : Id} (hquiet : tables.Quiet id)
    (hknown : tables.sessions id ≠ none) :
    Consistent { tables with
      cams := tables.cams \ {id}
      sessions := Function.update tables.sessions id none
      down := tables.down ++ [.delCam id] } := by
  have hself : upView (Function.update tables.sessions id none) tables.up id = none :=
    view_none_iff.2 ⟨Function.update_self _ _ _, hquiet.1⟩
  have hview : ∀ other, other ≠ id →
      upView (Function.update tables.sessions id none) tables.up other =
      upView tables.sessions tables.up other := fun other hne => view_update hne none
  have hannounced : ∀ other, Announced (tables.down ++ [.delCam id]) other ↔
      Announced tables.down other := by
    intro other
    rw [announced_append, announced_del]
    simp
  -- the answer to SETUP would name the camera
  have hanswered : ∀ ids, .answer ids ∉ tables.down := by
    intro ids hmem
    obtain ⟨before, after, hsplit⟩ := List.append_of_mem hmem
    refine hquiet.2 (.inl ⟨ids, hmem, (h.answered before ids after hsplit).2.2 id (.inl ?_)⟩)
    exact fun hnone => hknown (view_none_iff.1 hnone).1
  constructor
  · intro other hother
    have hne : other ≠ id := fun heq => hother.2 (by simp [heq])
    simp only [hview other hne, hannounced other]
    exact h.present other hother.1
  · intro other hother
    by_cases hne : other = id
    · rw [hne]
      exact ⟨hself, fun hnew => hquiet.2 ((hannounced id).1 hnew), .inr (by simp)⟩
    · obtain ⟨hnoview, hnone, hcam⟩ := h.absent other fun hold => hother ⟨hold, by simpa using hne⟩
      exact ⟨(hview other hne).trans hnoview, fun hnew => hnone ((hannounced other).1 hnew),
        hcam.imp_right (List.mem_append_left _)⟩
  · intro other
    by_cases hne : other = id
    · rw [hne]
      exact .inr ⟨by simp, hself⟩
    · simp only [hview other hne]
      exact (h.alike other).imp_right fun hor => ⟨List.mem_append_left _ hor.1, hor.2⟩
  · intro before other after hsplit
    rcases split_snoc hsplit with ⟨-, rfl, heq⟩ | ⟨between, -, hdown⟩
    · cases heq
      exact ⟨hself, hquiet.2⟩
    · obtain ⟨hnoview, hnone⟩ := h.removal before other between hdown
      by_cases hne : other = id
      · rw [hne] at hnone ⊢
        exact ⟨hself, hnone⟩
      · exact ⟨(hview other hne).trans hnoview, hnone⟩
  · intro hsetup
    exact absurd ((h.asked hsetup).2.1 id) hknown
  · intro before ids after hsplit
    refine absurd ?_ (hanswered ids)
    exact (List.mem_append.1 (mem_of_split hsplit)).resolve_right (by simp)

/-- The server removes a camera for which it has no session. -/
theorem removeUnknown (h : Consistent tables) {id : Id} (hquiet : tables.Quiet id)
    (hunknown : tables.sessions id = none) :
    Consistent { tables with cams := tables.cams \ {id} } := by
  have hself : upView tables.sessions tables.up id = none := view_none_iff.2 ⟨hunknown, hquiet.1⟩
  refine ⟨fun other hother => h.present other hother.1, fun other hother => ?_, h.alike, h.removal,
    h.asked, h.answered⟩
  by_cases hne : other = id
  · rw [hne]
    refine ⟨hself, hquiet.2, (h.alike id).imp (fun heq => ?_) fun hor => hor.1⟩
    exact heq.trans hself
  · exact h.absent other fun hold => hother ⟨hold, by simpa using hne⟩

/-- Every step keeps the tables consistent. -/
theorem step {next : Tables Id Conv} (h : Consistent tables) (hstep : CamStep tables next) :
    Consistent next := by
  cases hstep with
  | answerSetup rest hup => exact h.answerSetup hup
  | register table rest hup => exact h.register hup
  | readAnswer ids rest camMap hdown hstored hkept => exact h.readAnswer hdown hstored hkept
  | readEmpty rest hdown => exact h.readEmpty hdown
  | readAdd id conv rest hdown => exact h.readAdd conv hdown
  | readDel id rest hdown => exact h.readDel hdown
  | addKnown id hknown => exact h.addKnown hknown
  | addNew id hnew => exact h.addNew id
  | removeKnown id hquiet hknown => exact h.removeKnown hquiet hknown
  | removeUnknown id hquiet hunknown => exact h.removeUnknown hquiet hunknown

end Consistent

end Protocol

end CarDetect.Monitor

import Mathlib.Data.Set.Insert
import Mathlib.Logic.Relation

/-!
# A sliding window over a network that loses, repeats and reorders

One direction of a reliable link. The sender numbers its items 0, 1, 2, … and keeps every item
until it is acknowledged. The receiver keeps what arrives inside of its window and takes the items
in the order of their numbers. Packets in flight are never removed, so each of them may arrive any
number of times, in any order, or never. A packet carries as its stamp how many items were numbered
when it was sent, and only fresh packets are received: those since whose sending at most `life`
items have been numbered.

`inv_steps` is the induction rule. The invariant says that no acknowledged item is missing at the
receiver, and it bounds how far every number that is compared lies behind the last one, which is
what an implementation with numbers modulo a power of two needs.
-/

namespace SlidingWindow

/-- How many items the sender keeps at most, how far ahead of the next item the receiver keeps
others, and how many items are numbered at most while a packet is in flight. -/
structure Sizes where
  window : ℕ
  room : ℕ
  life : ℕ

/-- The state of a direction: the numbered items, the numbers not yet acknowledged, the next number
to take, the numbers kept ahead of it, the numbers to acknowledge, how many items were numbered at
the last reply, and the packets in flight with their stamps: the numbers sent, the bounds below
which everything is acknowledged, and the numbers acknowledged on their own. -/
structure Link (α : Type*) where
  items : List α
  pending : Set ℕ
  next : ℕ
  held : Set ℕ
  acks : Set ℕ
  mark : ℕ
  data : Set (ℕ × ℕ)
  bounds : Set (ℕ × ℕ)
  singles : Set (ℕ × ℕ)

variable {α : Type*} {sizes : Sizes}

namespace Link

/-- How many items have been numbered. -/
def count (link : Link α) : ℕ := link.items.length

/-- Before the first step. -/
def start : Link α := ⟨[], ∅, 0, ∅, ∅, 0, ∅, ∅, ∅⟩

/-- A stamp of a packet that is not too old to be received. -/
def Fresh (sizes : Sizes) (link : Link α) (stamp : ℕ) : Prop :=
  link.count ≤ stamp + sizes.life

/-- The receiver has taken the item or keeps it. -/
def Arrived (link : Link α) (number : ℕ) : Prop :=
  number < link.next ∨ number ∈ link.held

/-- The next item gets its number. -/
def number (link : Link α) (item : α) : Link α :=
  { link with items := link.items ++ [item], pending := insert link.count link.pending }

/-- An item is sent, or sent again. -/
def transmit (link : Link α) (number : ℕ) : Link α :=
  { link with data := insert (number, link.count) link.data }

/-- An item arrives that has arrived before. -/
def note (link : Link α) (number : ℕ) : Link α :=
  { link with acks := insert number link.acks }

/-- An item arrives inside of the window. -/
def accept (link : Link α) (number : ℕ) : Link α :=
  { link with held := insert number link.held, acks := insert number link.acks }

/-- The next item is taken. -/
def take (link : Link α) : Link α :=
  { link with next := link.next + 1, held := link.held \ {link.next} }

/-- The receiver sends the acknowledgements it owes. -/
def reply (link : Link α) : Link α :=
  { link with
    acks := ∅
    mark := link.count
    bounds := insert (link.next, link.count) link.bounds
    singles := link.singles ∪ {packet | packet.1 ∈ link.acks ∧ packet.2 = link.count} }

/-- Everything below a bound is acknowledged. -/
def confirmBelow (link : Link α) (bound : ℕ) : Link α :=
  { link with pending := {number | number ∈ link.pending ∧ bound ≤ number} }

/-- One item is acknowledged. -/
def confirm (link : Link α) (number : ℕ) : Link α :=
  { link with pending := link.pending \ {number} }

end Link

/-- The steps of both ends and of the network between them. -/
inductive Step (sizes : Sizes) : Link α → Link α → Prop
  | number (link : Link α) (item : α) (hpos : 0 < sizes.window)
      (hroom : ∀ number ∈ link.pending, link.count < number + sizes.window) :
      Step sizes link (link.number item)
  | transmit (link : Link α) (number : ℕ) (hpending : number ∈ link.pending) :
      Step sizes link (link.transmit number)
  | note (link : Link α) (number stamp : ℕ) (hdata : (number, stamp) ∈ link.data)
      (hfresh : link.Fresh sizes stamp) (harrived : link.Arrived number) :
      Step sizes link (link.note number)
  | accept (link : Link α) (number stamp : ℕ) (hdata : (number, stamp) ∈ link.data)
      (hfresh : link.Fresh sizes stamp) (hlow : link.next ≤ number)
      (hhigh : number < link.next + sizes.room) : Step sizes link (link.accept number)
  | take (link : Link α) (hheld : link.next ∈ link.held) : Step sizes link link.take
  | reply (link : Link α) : Step sizes link link.reply
  | confirmBelow (link : Link α) (bound stamp : ℕ) (hbounds : (bound, stamp) ∈ link.bounds)
      (hfresh : link.Fresh sizes stamp) : Step sizes link (link.confirmBelow bound)
  | confirm (link : Link α) (number stamp : ℕ) (hsingles : (number, stamp) ∈ link.singles)
      (hfresh : link.Fresh sizes stamp) : Step sizes link (link.confirm number)

/-- Any number of steps. -/
abbrev Steps (sizes : Sizes) : Link α → Link α → Prop :=
  Relation.ReflTransGen (Step sizes)

/-- What every reachable state satisfies. -/
structure Inv (sizes : Sizes) (link : Link α) : Prop where
  pending_lt : ∀ number ∈ link.pending, number < link.count
  pending_near : ∀ number ∈ link.pending, link.count ≤ number + sizes.window
  unmarked : ∀ number, link.mark ≤ number → number < link.count → number ∈ link.pending
  mark_le : link.mark ≤ link.count
  arrived : ∀ number, number < link.count → number ∈ link.pending ∨ link.Arrived number
  held_ge : ∀ number ∈ link.held, link.next ≤ number
  held_lt : ∀ number ∈ link.held, number < link.count
  held_near : ∀ number ∈ link.held, number < link.next + sizes.room
  next_le : link.next ≤ link.count
  data : ∀ number stamp, (number, stamp) ∈ link.data →
    number < link.count ∧ stamp ≤ number + sizes.window
  acks_arrived : ∀ number ∈ link.acks, link.Arrived number
  acks_near : ∀ number ∈ link.acks, link.mark ≤ number + sizes.window + sizes.life
  bounds : ∀ bound stamp, (bound, stamp) ∈ link.bounds →
    bound ≤ link.next ∧ bound ≤ link.mark ∧ stamp ≤ bound + sizes.window + sizes.room
  singles : ∀ number stamp, (number, stamp) ∈ link.singles →
    link.Arrived number ∧ number < link.mark ∧ stamp ≤ number + 2 * sizes.window + sizes.life

theorem inv_start : Inv sizes (Link.start : Link α) := by
  constructor <;> simp [Link.start, Link.count]

section Bounds

variable {link : Link α} {number bound stamp : ℕ}

/-- Whatever arrived is numbered. -/
theorem arrived_lt (hinv : Inv sizes link) (h : link.Arrived number) : number < link.count := by
  rcases h with h | h
  · exact Nat.lt_of_lt_of_le h hinv.next_le
  · exact hinv.held_lt _ h

/-- The sender is at most a window ahead of the last reply. -/
theorem mark_near (hinv : Inv sizes link) : link.count ≤ link.mark + sizes.window := by
  rcases Nat.lt_or_ge link.mark link.count with hlt | hge
  · exact hinv.pending_near _ (hinv.unmarked _ (Nat.le_refl _) hlt)
  · omega

/-- The sender is at most its own window and the receiver's ahead of the next item. -/
theorem next_near (hinv : Inv sizes link) :
    link.count ≤ link.next + sizes.window + sizes.room := by
  by_contra hfar
  -- the last number that the receiver has no room for is unacknowledged, and too far behind
  have hpending : link.next + sizes.room ∈ link.pending := by
    rcases hinv.arrived (link.next + sizes.room) (by omega) with h | h | h
    · exact h
    · omega
    · exact absurd (hinv.held_near _ h) (Nat.lt_irrefl _)
  have hnear := hinv.pending_near _ hpending
  omega

theorem data_near (hinv : Inv sizes link) (hdata : (number, stamp) ∈ link.data)
    (hfresh : link.Fresh sizes stamp) : link.count ≤ number + sizes.window + sizes.life := by
  have hstamp := (hinv.data _ _ hdata).2
  unfold Link.Fresh at hfresh
  omega

theorem bounds_near (hinv : Inv sizes link) (hbounds : (bound, stamp) ∈ link.bounds)
    (hfresh : link.Fresh sizes stamp) :
    link.count ≤ bound + sizes.window + sizes.room + sizes.life := by
  have hstamp := (hinv.bounds _ _ hbounds).2.2
  unfold Link.Fresh at hfresh
  omega

theorem singles_near (hinv : Inv sizes link) (hsingles : (number, stamp) ∈ link.singles)
    (hfresh : link.Fresh sizes stamp) :
    link.count ≤ number + 2 * sizes.window + 2 * sizes.life := by
  have hstamp := (hinv.singles _ _ hsingles).2.2
  unfold Link.Fresh at hfresh
  omega

end Bounds

section Steps

variable {link after : Link α} {number bound stamp : ℕ}

theorem inv_number {item : α} (hinv : Inv sizes link) (hpos : 0 < sizes.window)
    (hroom : ∀ number ∈ link.pending, link.count < number + sizes.window) :
    Inv sizes (link.number item) := by
  have hcount : (link.number item).count = link.count + 1 := by
    simp [Link.count, Link.number]
  have hmem (k : ℕ) : k ∈ (link.number item).pending ↔ k = link.count ∨ k ∈ link.pending :=
    Set.mem_insert_iff
  have hmark := hinv.mark_le
  have hnext := hinv.next_le
  refine { hinv with
    pending_lt := ?_, pending_near := ?_, unmarked := ?_, mark_le := ?_, arrived := ?_,
    held_lt := ?_, next_le := ?_, data := ?_ }
  · intro k hk
    rcases (hmem k).1 hk with rfl | hk
    · omega
    · have := hinv.pending_lt k hk
      omega
  · intro k hk
    rcases (hmem k).1 hk with rfl | hk
    · omega
    · have := hroom k hk
      omega
  · intro k hlow hhigh
    rw [hmem]
    rcases Nat.lt_or_ge k link.count with hlt | hge
    · exact Or.inr (hinv.unmarked k hlow hlt)
    · exact Or.inl (by omega)
  · show link.mark ≤ _
    omega
  · intro k hk
    rw [hmem]
    rcases Nat.lt_or_ge k link.count with hlt | hge
    · exact (hinv.arrived k hlt).imp Or.inr id
    · exact Or.inl (Or.inl (by omega))
  · intro k hk
    have := hinv.held_lt k hk
    omega
  · show link.next ≤ _
    omega
  · intro k s hks
    have := hinv.data k s hks
    omega

theorem inv_transmit (hinv : Inv sizes link) (hpending : number ∈ link.pending) :
    Inv sizes (link.transmit number) := by
  refine { hinv with data := ?_ }
  intro k s hks
  rcases Set.mem_insert_iff.1 hks with h | h
  · cases h
    exact ⟨hinv.pending_lt _ hpending, hinv.pending_near _ hpending⟩
  · exact hinv.data k s h

theorem inv_note (hinv : Inv sizes link) (hdata : (number, stamp) ∈ link.data)
    (hfresh : link.Fresh sizes stamp) (harrived : link.Arrived number) :
    Inv sizes (link.note number) := by
  have hnear := data_near hinv hdata hfresh
  have hmark := hinv.mark_le
  refine { hinv with acks_arrived := ?_, acks_near := ?_ }
  · intro k hk
    rcases Set.mem_insert_iff.1 hk with rfl | hk
    · exact harrived
    · exact hinv.acks_arrived k hk
  · intro k hk
    rcases Set.mem_insert_iff.1 hk with rfl | hk
    · show link.mark ≤ _
      omega
    · exact hinv.acks_near k hk

theorem arrived_accept {k : ℕ} (h : link.Arrived k) : (link.accept number).Arrived k :=
  h.imp id Or.inr

theorem inv_accept (hinv : Inv sizes link) (hdata : (number, stamp) ∈ link.data)
    (hfresh : link.Fresh sizes stamp) (hlow : link.next ≤ number)
    (hhigh : number < link.next + sizes.room) : Inv sizes (link.accept number) := by
  have hnear := data_near hinv hdata hfresh
  have hmark := hinv.mark_le
  refine { hinv with
    arrived := ?_, held_ge := ?_, held_lt := ?_, held_near := ?_, acks_arrived := ?_,
    acks_near := ?_, singles := ?_ }
  · intro k hk
    exact (hinv.arrived k hk).imp id arrived_accept
  · intro k hk
    rcases Set.mem_insert_iff.1 hk with rfl | hk
    · exact hlow
    · exact hinv.held_ge k hk
  · intro k hk
    rcases Set.mem_insert_iff.1 hk with rfl | hk
    · exact (hinv.data _ _ hdata).1
    · exact hinv.held_lt k hk
  · intro k hk
    rcases Set.mem_insert_iff.1 hk with rfl | hk
    · exact hhigh
    · exact hinv.held_near k hk
  · intro k hk
    rcases Set.mem_insert_iff.1 hk with rfl | hk
    · exact Or.inr (Set.mem_insert _ _)
    · exact arrived_accept (hinv.acks_arrived k hk)
  · intro k hk
    rcases Set.mem_insert_iff.1 hk with rfl | hk
    · show link.mark ≤ _
      omega
    · exact hinv.acks_near k hk
  · intro k s hks
    obtain ⟨harrived, hrest⟩ := hinv.singles k s hks
    exact ⟨arrived_accept harrived, hrest⟩

/-- Taking an item makes nothing arrive or vanish. -/
theorem arrived_take (hheld : link.next ∈ link.held) {k : ℕ} :
    link.take.Arrived k ↔ link.Arrived k := by
  simp only [Link.Arrived, Link.take, Set.mem_sdiff, Set.mem_singleton_iff]
  constructor
  · rintro (h | h)
    · rcases Nat.lt_succ_iff_lt_or_eq.1 h with h | rfl
      · exact Or.inl h
      · exact Or.inr hheld
    · exact Or.inr h.1
  · rintro (h | h)
    · exact Or.inl (Nat.lt_succ_of_lt h)
    · by_cases hk : k = link.next
      · exact Or.inl (by omega)
      · exact Or.inr ⟨h, hk⟩

theorem inv_take (hinv : Inv sizes link) (hheld : link.next ∈ link.held) :
    Inv sizes link.take := by
  have hlt := hinv.held_lt _ hheld
  have hmem {k : ℕ} (hk : k ∈ link.take.held) : k ∈ link.held ∧ k ≠ link.next := hk
  refine { hinv with
    arrived := ?_, held_ge := ?_, held_lt := ?_, held_near := ?_, next_le := ?_,
    acks_arrived := ?_, bounds := ?_, singles := ?_ }
  · intro k hk
    exact (hinv.arrived k hk).imp id (arrived_take hheld).2
  · intro k hk
    obtain ⟨hk, hne⟩ := hmem hk
    have := hinv.held_ge k hk
    show link.next + 1 ≤ k
    omega
  · intro k hk
    exact hinv.held_lt k (hmem hk).1
  · intro k hk
    have := hinv.held_near k (hmem hk).1
    show k < link.next + 1 + sizes.room
    omega
  · show link.next + 1 ≤ link.count
    omega
  · intro k hk
    exact (arrived_take hheld).2 (hinv.acks_arrived k hk)
  · intro b s hbs
    obtain ⟨hle, hrest⟩ := hinv.bounds b s hbs
    exact ⟨Nat.le_succ_of_le hle, hrest⟩
  · intro k s hks
    obtain ⟨harrived, hrest⟩ := hinv.singles k s hks
    exact ⟨(arrived_take hheld).2 harrived, hrest⟩

theorem inv_reply (hinv : Inv sizes link) : Inv sizes link.reply := by
  have hmark := hinv.mark_le
  have hnear := mark_near hinv
  refine { hinv with
    unmarked := ?_, mark_le := ?_, acks_arrived := ?_, acks_near := ?_, bounds := ?_,
    singles := ?_ }
  · intro k hlow hhigh
    exact absurd hhigh (Nat.not_lt.2 hlow)
  · exact Nat.le_refl _
  · intro k hk
    cases hk
  · intro k hk
    cases hk
  · intro b s hbs
    rcases Set.mem_insert_iff.1 hbs with h | h
    · cases h
      exact ⟨Nat.le_refl _, hinv.next_le, next_near hinv⟩
    · obtain ⟨hnext, hold, hstamp⟩ := hinv.bounds b s h
      exact ⟨hnext, Nat.le_trans hold hmark, hstamp⟩
  · intro k s hks
    rcases hks with h | h
    · obtain ⟨harrived, hold, hstamp⟩ := hinv.singles k s h
      exact ⟨harrived, Nat.lt_of_lt_of_le hold hmark, hstamp⟩
    · obtain ⟨hack, rfl⟩ : k ∈ link.acks ∧ s = link.count := h
      have harrived := hinv.acks_arrived k hack
      have hold := hinv.acks_near k hack
      exact ⟨harrived, arrived_lt hinv harrived, by omega⟩

/-- Acknowledgements of items that arrived, and were numbered before the last reply, are safe. -/
theorem inv_acknowledge {pending : Set ℕ} (hinv : Inv sizes link)
    (hsub : pending ⊆ link.pending)
    (hgone : ∀ k ∈ link.pending, k ∉ pending → link.Arrived k ∧ k < link.mark) :
    Inv sizes { link with pending := pending } := by
  refine { hinv with pending_lt := ?_, pending_near := ?_, unmarked := ?_, arrived := ?_ }
  · intro k hk
    exact hinv.pending_lt k (hsub hk)
  · intro k hk
    exact hinv.pending_near k (hsub hk)
  · intro k hlow hhigh
    by_contra hk
    exact absurd (hgone k (hinv.unmarked k hlow hhigh) hk).2 (Nat.not_lt.2 hlow)
  · intro k hk
    rcases hinv.arrived k hk with hpending | harrived
    · by_cases hkept : k ∈ pending
      · exact Or.inl hkept
      · exact Or.inr (hgone k hpending hkept).1
    · exact Or.inr harrived

theorem inv_confirmBelow (hinv : Inv sizes link) (hbounds : (bound, stamp) ∈ link.bounds) :
    Inv sizes (link.confirmBelow bound) := by
  obtain ⟨hnext, hmark, -⟩ := hinv.bounds _ _ hbounds
  refine inv_acknowledge hinv (fun k hk => hk.1) fun k hk hgone => ?_
  have hlt : k < bound := by
    by_contra hge
    exact hgone ⟨hk, Nat.not_lt.1 hge⟩
  exact ⟨Or.inl (Nat.lt_of_lt_of_le hlt hnext), Nat.lt_of_lt_of_le hlt hmark⟩

theorem inv_confirm (hinv : Inv sizes link) (hsingles : (number, stamp) ∈ link.singles) :
    Inv sizes (link.confirm number) := by
  obtain ⟨harrived, hmark, -⟩ := hinv.singles _ _ hsingles
  refine inv_acknowledge hinv (fun k hk => hk.1) fun k hk hgone => ?_
  have heq : k = number := by
    by_contra hne
    exact hgone ⟨hk, hne⟩
  rw [heq]
  exact ⟨harrived, hmark⟩

/-- Every step keeps the invariant. -/
theorem inv_step (hinv : Inv sizes link) (h : Step sizes link after) : Inv sizes after := by
  cases h with
  | number item hpos hroom => exact inv_number hinv hpos hroom
  | transmit number hpending => exact inv_transmit hinv hpending
  | note number stamp hdata hfresh harrived => exact inv_note hinv hdata hfresh harrived
  | accept number stamp hdata hfresh hlow hhigh => exact inv_accept hinv hdata hfresh hlow hhigh
  | take hheld => exact inv_take hinv hheld
  | reply => exact inv_reply hinv
  | confirmBelow bound stamp hbounds hfresh => exact inv_confirmBelow hinv hbounds
  | confirm number stamp hsingles hfresh => exact inv_confirm hinv hsingles

/-- The induction rule for runs. -/
theorem inv_steps (hinv : Inv sizes link) (h : Steps sizes link after) : Inv sizes after := by
  induction h with
  | refl => exact hinv
  | tail _ hstep ih => exact inv_step ih hstep

/-- When nothing waits for its acknowledgement, everything has arrived. -/
theorem all_arrived (hinv : Inv sizes link) (hempty : link.pending = ∅) {k : ℕ}
    (hk : k < link.count) : link.Arrived k := by
  rcases hinv.arrived k hk with h | h
  · rw [hempty] at h
    cases h
  · exact h

end Steps

/-! ## The steps of each end -/

section Ends

variable {link middle after : Link α}

/-- What only grows: the items, and the packets in flight. -/
structure Grows (link after : Link α) : Prop where
  items : link.items <+: after.items
  data : link.data ⊆ after.data
  bounds : link.bounds ⊆ after.bounds
  singles : link.singles ⊆ after.singles

theorem grows_refl (link : Link α) : Grows link link :=
  ⟨List.prefix_rfl, subset_rfl, subset_rfl, subset_rfl⟩

theorem grows_trans (hfirst : Grows link middle) (hrest : Grows middle after) :
    Grows link after where
  items := hfirst.items.trans hrest.items
  data := hfirst.data.trans hrest.data
  bounds := hfirst.bounds.trans hrest.bounds
  singles := hfirst.singles.trans hrest.singles

theorem grows_step (h : Step sizes link after) : Grows link after := by
  cases h with
  | number item hpos hroom => exact { grows_refl link with items := List.prefix_append _ _ }
  | transmit number hpending => exact { grows_refl link with data := Set.subset_insert _ _ }
  | reply =>
      exact { grows_refl link with
        bounds := Set.subset_insert _ _, singles := Set.subset_union_left }
  | note | accept | take | confirmBelow | confirm => exact { grows_refl link with }

theorem grows_steps (h : Steps sizes link after) : Grows link after := by
  induction h with
  | refl => exact grows_refl link
  | tail _ hstep ih => exact grows_trans ih (grows_step hstep)

/-- Steps of the sender, which leave the receiver alone. -/
structure Sending (sizes : Sizes) (link after : Link α) : Prop where
  steps : Steps sizes link after
  next : after.next = link.next
  held : after.held = link.held
  acks : after.acks = link.acks

/-- Steps of the receiver, which leave the sender alone. -/
structure Receiving (sizes : Sizes) (link after : Link α) : Prop where
  steps : Steps sizes link after
  items : after.items = link.items
  pending : after.pending = link.pending

theorem sending_refl (link : Link α) : Sending sizes link link :=
  ⟨Relation.ReflTransGen.refl, rfl, rfl, rfl⟩

theorem sending_trans (hfirst : Sending sizes link middle) (hrest : Sending sizes middle after) :
    Sending sizes link after where
  steps := hfirst.steps.trans hrest.steps
  next := hrest.next.trans hfirst.next
  held := hrest.held.trans hfirst.held
  acks := hrest.acks.trans hfirst.acks

theorem receiving_refl (link : Link α) : Receiving sizes link link :=
  ⟨Relation.ReflTransGen.refl, rfl, rfl⟩

theorem receiving_trans (hfirst : Receiving sizes link middle)
    (hrest : Receiving sizes middle after) : Receiving sizes link after where
  steps := hfirst.steps.trans hrest.steps
  items := hrest.items.trans hfirst.items
  pending := hrest.pending.trans hfirst.pending

end Ends

end SlidingWindow

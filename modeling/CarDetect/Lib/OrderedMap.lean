import Mathlib.Tactic.Linarith

/-!
# Maps ordered by key, and runs of consecutive 16-bit keys

`toList_insert_of_lt` appends an entry whose key is past every other, and `toList_insert_perm` and
`toList_erase_perm` say which entries a map has after an insertion or an erasure, and
`get_foldl_insert` what it holds after several insertions. `takeWhile_eq_filter_iff` says when a
scan of entries may stop at the first one past its bound. `seqRun first n` is the list of `n` keys
counting up from `first` modulo 2^16, and `seqRun_fits` says that such a list is ordered only when
it does not pass 65535.
-/

namespace OrderedMap

open Std

section Insert

variable {κ α : Type} [Ord κ] [TransOrd κ] {map : TreeMap κ α compare} {key : κ} {value : α}

/-- The entries of a map are determined by their set and their order. -/
theorem toList_eq_of_perm {entries : List (κ × α)} (hperm : map.toList.Perm entries)
    (hsorted : entries.Pairwise fun a b => compare a.1 b.1 = .lt) : map.toList = entries := by
  refine hperm.eq_of_pairwise ?_ TreeMap.ordered_keys_toList hsorted
  intro a b _ _ hab hba
  have hgt := OrientedCmp.gt_of_lt hab
  rw [hba] at hgt
  cases hgt

open Classical in
/-- Inserting past the last key appends the entry. -/
theorem toList_insert_of_lt [LawfulEqOrd κ] (h : ∀ entry ∈ map.toList, compare entry.1 key = .lt) :
    (map.insert key value).toList = map.toList ++ [(key, value)] := by
  have hkeep : map.toList.filter (fun entry => decide (¬(key == entry.1) = true)) = map.toList := by
    refine List.filter_eq_self.2 fun entry hentry => ?_
    have hlt := h entry hentry
    have hne : key ≠ entry.1 := by
      rintro rfl
      rw [ReflOrd.compare_self] at hlt
      cases hlt
    simpa using hne
  have hperm := TreeMap.toList_insert_perm (t := map) (k := key) (v := value)
  rw [hkeep] at hperm
  refine toList_eq_of_perm (hperm.trans (List.perm_append_singleton _ _).symm) ?_
  refine List.pairwise_append.2 ⟨TreeMap.ordered_keys_toList, List.pairwise_singleton _ _, ?_⟩
  intro entry hentry last hlast
  cases List.mem_singleton.1 hlast
  exact h entry hentry

end Insert

section Entries

variable {κ α : Type} [Ord κ] [TransOrd κ] [LawfulEqOrd κ] {map : TreeMap κ α compare} {key : κ}
  {value old : α}

/-- The entries of a map are distinct. -/
theorem nodup_toList (map : TreeMap κ α compare) : map.toList.Nodup := by
  refine TreeMap.distinct_keys_toList.imp fun hne heq => hne ?_
  rw [heq, LawfulEqOrd.compare_eq_iff_eq]

/-- Two maps with the same values have the same entries. -/
theorem toList_perm {other : TreeMap κ α compare} {entries : List (κ × α)}
    (hnodup : entries.Nodup) (h : ∀ entry, entry ∈ entries ↔ other[entry.1]? = some entry.2) :
    other.toList.Perm entries := by
  rw [List.perm_ext_iff_of_nodup (nodup_toList other) hnodup]
  intro entry
  rw [h entry]
  exact TreeMap.mem_toList_iff_getElem?_eq_some

/-- An erased entry and the entries that are left. -/
theorem toList_erase_perm (h : map[key]? = some value) :
    map.toList.Perm ((key, value) :: (map.erase key).toList) := by
  refine toList_perm (List.nodup_cons.2 ⟨fun hmem => ?_, nodup_toList _⟩) fun entry => ?_
  · rw [TreeMap.mem_toList_iff_getElem?_eq_some, TreeMap.getElem?_erase_self] at hmem
    cases hmem
  · rw [List.mem_cons, TreeMap.mem_toList_iff_getElem?_eq_some, TreeMap.getElem?_erase]
    by_cases heq : key = entry.1
    · rw [if_pos (LawfulEqOrd.compare_eq_iff_eq.2 heq), ← heq, h]
      constructor
      · rintro (rfl | hnone)
        · rfl
        · cases hnone
      · intro hvalue
        cases hvalue
        exact .inl (Prod.ext heq.symm rfl)
    · rw [if_neg (fun hsame => heq (LawfulEqOrd.compare_eq_iff_eq.1 hsame))]
      refine ⟨fun hor => hor.resolve_left ?_, .inr⟩
      rintro rfl
      exact heq rfl

/-- A replaced entry and the entries that are left. -/
theorem toList_insert_perm (map : TreeMap κ α compare) (key : κ) (value : α) :
    (map.insert key value).toList.Perm ((key, value) :: (map.erase key).toList) := by
  have hself : (map.insert key value)[key]? = some value := TreeMap.getElem?_insert_self
  have herased := toList_erase_perm hself
  refine herased.trans (List.Perm.cons _ (toList_perm (nodup_toList _) fun entry => ?_))
  rw [TreeMap.mem_toList_iff_getElem?_eq_some, TreeMap.getElem?_erase, TreeMap.getElem?_erase,
    TreeMap.getElem?_insert]
  split <;> rfl

/-- A new entry and the old ones. -/
theorem toList_insert_new (h : map[key]? = none) (value : α) :
    (map.insert key value).toList.Perm ((key, value) :: map.toList) := by
  refine (toList_insert_perm map key value).trans (List.Perm.cons _ ?_)
  refine toList_perm (nodup_toList _) fun entry => ?_
  rw [TreeMap.mem_toList_iff_getElem?_eq_some, TreeMap.getElem?_erase]
  split
  · rename_i heq
    rw [← LawfulEqOrd.compare_eq_iff_eq.1 heq, h]
  · rfl

/-- A list made from the entries, when only one of them contributes to it. -/
theorem flatMap_of_get {β : Type} {f : κ × α → List β} (h : map[key]? = some value)
    (hothers : ∀ entry, entry.1 ≠ key → f entry = []) : map.toList.flatMap f = f (key, value) := by
  obtain ⟨before, after, hsplit⟩ :=
    List.append_of_mem (TreeMap.mem_toList_iff_getElem?_eq_some.2 h : (key, value) ∈ map.toList)
  have hdistinct := TreeMap.distinct_keys_toList (t := map)
  rw [hsplit, List.pairwise_append, List.pairwise_cons] at hdistinct
  obtain ⟨-, ⟨hafter, -⟩, hbefore⟩ := hdistinct
  have hne : ∀ entry ∈ before ++ after, entry.1 ≠ key := by
    intro entry hentry heq
    rcases List.mem_append.1 hentry with hentry | hentry
    · exact hbefore entry hentry (key, value) List.mem_cons_self
        (LawfulEqOrd.compare_eq_iff_eq.2 heq)
    · exact hafter entry hentry (LawfulEqOrd.compare_eq_iff_eq.2 heq.symm)
  have hnil : ∀ entries : List (κ × α), (∀ entry ∈ entries, entry.1 ≠ key) →
      entries.flatMap f = [] := fun entries hall =>
    List.flatMap_eq_nil_iff.2 fun entry hentry => hothers entry (hall entry hentry)
  rw [hsplit, List.flatMap_append, List.flatMap_cons,
    hnil before fun entry hentry => hne entry (List.mem_append_left _ hentry),
    hnil after fun entry hentry => hne entry (List.mem_append_right _ hentry), List.append_nil,
    List.nil_append]

/-- Entries with distinct keys, inserted one after another. -/
theorem get_foldl_insert {entries : List (κ × α)} (hdistinct : (entries.map Prod.fst).Nodup)
    (map : TreeMap κ α compare) :
    (entries.foldl (fun map entry => map.insert entry.1 entry.2) map)[key]? = some value ↔
      (key, value) ∈ entries ∨ key ∉ entries.map Prod.fst ∧ map[key]? = some value := by
  induction entries generalizing map with
  | nil => simp
  | cons entry rest ih =>
      obtain ⟨hnew, hrest⟩ := List.nodup_cons.1 hdistinct
      rw [List.foldl_cons, ih hrest, TreeMap.getElem?_insert, List.mem_cons, List.map_cons,
        List.mem_cons]
      by_cases hkey : entry.1 = key
      · rw [if_pos (LawfulEqOrd.compare_eq_iff_eq.2 hkey)]
        rw [hkey] at hnew
        constructor
        · rintro (hmem | ⟨-, hvalue⟩)
          · exact absurd (List.mem_map_of_mem hmem) hnew
          · exact .inl (.inl (Prod.ext hkey.symm (Option.some.inj hvalue).symm))
        · rintro ((rfl | hmem) | ⟨hother, -⟩)
          · exact .inr ⟨hnew, rfl⟩
          · exact absurd (List.mem_map_of_mem hmem) hnew
          · exact absurd (.inl hkey.symm) hother
      · rw [if_neg (fun hsame => hkey (LawfulEqOrd.compare_eq_iff_eq.1 hsame))]
        have hpair : (key, value) ≠ entry := fun heq => hkey (by rw [← heq])
        simp only [hpair, false_or, Ne.symm hkey]

/-- What a map holds after an insertion that leaves an entry which exists. -/
theorem get_insertIfNew {other : κ} {entry : α} :
    (map.insertIfNew key value)[other]? = some entry ↔
      map[other]? = some entry ∨ key = other ∧ map[key]? = none ∧ value = entry := by
  simp only [TreeMap.getElem?_insertIfNew, LawfulEqOrd.compare_eq_iff_eq]
  by_cases heq : key = other
  · subst heq
    cases hget : map[key]? <;> simp [TreeMap.mem_iff_isSome_getElem?, hget]
  · simp [heq]

/-- Entries erased one after another. -/
theorem get_foldl_erase {β : Type} (entries : List (κ × β)) (map : TreeMap κ α compare) :
    (entries.foldl (fun map entry => map.erase entry.1) map)[key]? = some value ↔
      key ∉ entries.map Prod.fst ∧ map[key]? = some value := by
  induction entries generalizing map with
  | nil => simp
  | cons entry rest ih =>
      rw [List.foldl_cons, ih, TreeMap.getElem?_erase, List.map_cons, List.mem_cons]
      by_cases hkey : entry.1 = key
      · rw [if_pos (LawfulEqOrd.compare_eq_iff_eq.2 hkey)]
        simp [hkey]
      · rw [if_neg (fun hsame => hkey (LawfulEqOrd.compare_eq_iff_eq.1 hsame))]
        simp [Ne.symm hkey]

/-- A relation that holds along the entries holds between the values of any two keys in order. -/
theorem pairwise_toList_iff {r : κ × α → κ × α → Prop} :
    map.toList.Pairwise r ↔ ∀ a b : κ × α, map[a.1]? = some a.2 → map[b.1]? = some b.2 →
      compare a.1 b.1 = .lt → r a b := by
  constructor
  · intro h a b ha hb hlt
    have hamem : a ∈ map.toList := TreeMap.mem_toList_iff_getElem?_eq_some.2 ha
    have hbmem : b ∈ map.toList := TreeMap.mem_toList_iff_getElem?_eq_some.2 hb
    obtain ⟨i, hi, rfl⟩ := List.getElem_of_mem hamem
    obtain ⟨j, hj, rfl⟩ := List.getElem_of_mem hbmem
    rcases Nat.lt_trichotomy i j with hij | rfl | hji
    · exact List.pairwise_iff_getElem.1 h i j hi hj hij
    · rw [ReflOrd.compare_self] at hlt
      cases hlt
    · have hgt := List.pairwise_iff_getElem.1 TreeMap.ordered_keys_toList j i hj hi hji
      rw [OrientedCmp.gt_of_lt hlt] at hgt
      cases hgt
  · intro h
    refine TreeMap.ordered_keys_toList.imp_of_mem fun ha hb hlt => ?_
    exact h _ _ (TreeMap.mem_toList_iff_getElem?_eq_some.1 ha)
      (TreeMap.mem_toList_iff_getElem?_eq_some.1 hb) hlt

end Entries

/-! ## Scans up to a bound -/

section Scan

variable {α β : Type} [LE β] [Std.IsPreorder β] [DecidableLE β] (rank : α → β)

/-- A scan that stops at the first entry past a bound finds all entries within it, for every bound,
exactly when the entries come in the order of their ranks. -/
theorem takeWhile_eq_filter_iff {entries : List α} :
    (∀ bound, entries.takeWhile (fun entry => decide (rank entry ≤ bound)) =
      entries.filter fun entry => decide (rank entry ≤ bound)) ↔
      entries.Pairwise fun a b => rank a ≤ rank b := by
  induction entries with
  | nil => simp
  | cons first rest ih =>
      rw [List.pairwise_cons, ← ih]
      constructor
      · intro h
        refine ⟨fun entry hentry => ?_, fun bound => ?_⟩
        · by_contra hlater
          have hmem : entry ∈
              (first :: rest).filter fun other => decide (rank other ≤ rank entry) :=
            List.mem_filter.2 ⟨List.mem_cons_of_mem _ hentry, decide_eq_true (Std.le_refl _)⟩
          rw [← h, List.takeWhile_cons_of_neg (by simpa using hlater)] at hmem
          cases hmem
        · have hbound := h bound
          by_cases hfirst : rank first ≤ bound
          · rw [List.takeWhile_cons_of_pos (by simpa using hfirst),
              List.filter_cons_of_pos (by simpa using hfirst)] at hbound
            exact (List.cons.inj hbound).2
          · rw [List.takeWhile_cons_of_neg (by simpa using hfirst),
              List.filter_cons_of_neg (by simpa using hfirst)] at hbound
            rw [← hbound]
            cases rest with
            | nil => rfl
            | cons second rest =>
                have hsecond := List.filter_eq_nil_iff.1 hbound.symm second List.mem_cons_self
                exact List.takeWhile_cons_of_neg hsecond
      · rintro ⟨hle, hrest⟩ bound
        by_cases hfirst : rank first ≤ bound
        · rw [List.takeWhile_cons_of_pos (by simpa using hfirst),
            List.filter_cons_of_pos (by simpa using hfirst), hrest]
        · rw [List.takeWhile_cons_of_neg (by simpa using hfirst), eq_comm, List.filter_eq_nil_iff]
          intro entry hentry hwithin
          rcases List.mem_cons.1 hentry with rfl | hentry
          · exact hfirst (of_decide_eq_true hwithin)
          · exact hfirst (Std.le_trans (hle entry hentry) (of_decide_eq_true hwithin))

end Scan

/-! ## Consecutive keys -/

/-- `n` consecutive 16-bit keys starting at `first`, wrapping at 2^16. -/
def seqRun (first : UInt16) : Nat → List UInt16
  | 0 => []
  | n + 1 => first :: seqRun (first + 1) n

@[simp] theorem length_seqRun (first : UInt16) (n : Nat) : (seqRun first n).length = n := by
  induction n generalizing first with
  | zero => rfl
  | succ n ih => simp [seqRun, ih]

/-- The successor of a key below 65535. -/
theorem toNat_succ {key : UInt16} (h : key.toNat < 65535) : (key + 1).toNat = key.toNat + 1 := by
  rw [UInt16.toNat_add]
  simp
  omega

/-- Counting further from a key that does not pass 65535. -/
theorem toNat_add_ofNat {key : UInt16} {n : Nat} (h : key.toNat + n < 65536) :
    (key + UInt16.ofNat n).toNat = key.toNat + n := by
  rw [UInt16.toNat_add, UInt16.toNat_ofNat']
  omega

/-- One more step of counting. -/
theorem add_ofNat_succ (key : UInt16) (n : Nat) :
    key + UInt16.ofNat n + 1 = key + UInt16.ofNat (n + 1) := by
  apply UInt16.toNat_inj.1
  simp only [UInt16.toNat_add, UInt16.toNat_ofNat', UInt16.toNat_one]
  omega

/-- Counting `n` from the successor is counting `n + 1` from the key. -/
theorem succ_add_ofNat (key : UInt16) (n : Nat) :
    key + 1 + UInt16.ofNat n = key + UInt16.ofNat (n + 1) := by
  apply UInt16.toNat_inj.1
  simp only [UInt16.toNat_add, UInt16.toNat_ofNat', UInt16.toNat_one]
  omega

/-- A strictly increasing run of consecutive keys ends at 65535 at the latest. -/
theorem seqRun_fits {first : UInt16} {n : Nat}
    (h : (seqRun first n).Pairwise fun a b => compare a b = .lt) :
    first.toNat + n ≤ 65536 := by
  induction n generalizing first with
  | zero => have := first.toNat_lt; omega
  | succ n ih =>
      cases n with
      | zero => have := first.toNat_lt; omega
      | succ n =>
          obtain ⟨hfirst, hrest⟩ := List.pairwise_cons.1 h
          have hlt := hfirst (first + 1) (by simp [seqRun])
          rw [compare_eq_lt, UInt16.lt_iff_toNat_lt, UInt16.toNat_add] at hlt
          have hfits := ih hrest
          have hbound := first.toNat_lt
          simp only [UInt16.toNat_one] at hlt
          rw [toNat_succ (by omega)] at hfits
          omega

end OrderedMap

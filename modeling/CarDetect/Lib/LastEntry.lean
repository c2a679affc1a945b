import Mathlib.Data.List.Induction

/-!
# The last entry with a name

Entries are read one after another, and each gives a name a value or nothing. `lastOf` is the value
that a name has in the end. `last_of_cases` says where it comes from, and `agree_iff` when two ways
of reading the entries give every name the same value: they need to agree on an entry only when
its name is not given again later.
-/

namespace LastEntry

variable {α κ ν : Type} [DecidableEq κ]

/-- The value of a name after one more entry. -/
def nextOf (read : α → Option (κ × ν)) (name : κ) (found : Option ν) (entry : α) : Option ν :=
  match read entry with
  | some field => if field.1 = name then some field.2 else found
  | none => found

/-- The value that the last entry with this name gives it. -/
def lastOf (read : α → Option (κ × ν)) (name : κ) (entries : List α) : Option ν :=
  entries.foldl (nextOf read name) none

variable {read other : α → Option (κ × ν)} {name : κ} {value : ν} {entry : α}
  {entries before after : List α}

/-- The name of an entry. -/
def nameOf (read : α → Option (κ × ν)) (entry : α) : Option κ :=
  (read entry).map Prod.fst

theorem last_of_snoc (entries : List α) (entry : α) :
    lastOf read name (entries ++ [entry]) = nextOf read name (lastOf read name entries) entry := by
  rw [lastOf, List.foldl_append]
  rfl

/-- An entry with another name, or without one, does not matter. -/
theorem next_of_skip (found : Option ν) (h : nameOf read entry ≠ some name) :
    nextOf read name found entry = found := by
  unfold nextOf
  cases hread : read entry with
  | none => rfl
  | some field =>
      have hname : field.1 ≠ name := by
        simpa [nameOf, hread] using h
      exact if_neg hname

theorem next_of_entry (found : Option ν) (h : read entry = some (name, value)) :
    nextOf read name found entry = some value := by
  unfold nextOf
  rw [h]
  exact if_pos rfl

/-- The entry after which the name is not given again. -/
theorem last_of_entry (h : read entry = some (name, value))
    (hafter : ∀ later ∈ after, nameOf read later ≠ some name) :
    lastOf read name (before ++ entry :: after) = some value := by
  induction after using List.reverseRecOn with
  | nil =>
      rw [last_of_snoc, next_of_entry _ h]
  | append_singleton after last ih =>
      obtain ⟨hafter, hlast⟩ := List.forall_mem_append.1 hafter
      have hsplit :
          before ++ entry :: (after ++ [last]) = (before ++ entry :: after) ++ [last] := by
        simp
      rw [hsplit, last_of_snoc, next_of_skip _ (hlast last (List.mem_singleton_self last))]
      exact ih hafter

/-- A name has no value and no entry, or it has the value of the last of its entries. -/
theorem last_of_cases (read : α → Option (κ × ν)) (name : κ) (entries : List α) :
    lastOf read name entries = none ∧ (∀ entry ∈ entries, nameOf read entry ≠ some name) ∨
      ∃ before entry after value, entries = before ++ entry :: after ∧
        read entry = some (name, value) ∧ (∀ later ∈ after, nameOf read later ≠ some name) ∧
        lastOf read name entries = some value := by
  induction entries using List.reverseRecOn with
  | nil => exact .inl ⟨rfl, by simp⟩
  | append_singleton entries last ih =>
      by_cases hlast : nameOf read last = some name
      · obtain ⟨field, hread, rfl⟩ := Option.map_eq_some_iff.1 hlast
        refine .inr ⟨entries, last, [], field.2, rfl, hread, by simp, ?_⟩
        exact last_of_entry hread (by simp)
      · rw [last_of_snoc, next_of_skip _ hlast]
        rcases ih with ⟨hnone, hnames⟩ | ⟨before, entry, after, value, rfl, hread, hafter, hvalue⟩
        · refine .inl ⟨hnone, List.forall_mem_append.2 ⟨hnames, ?_⟩⟩
          simpa using hlast
        · refine .inr ⟨before, entry, after ++ [last], value, by simp, hread, ?_, hvalue⟩
          refine List.forall_mem_append.2 ⟨hafter, ?_⟩
          simpa using hlast

/-- Two readings that find the same names give every name the same value exactly when they agree
on each entry whose name is not given again. -/
theorem agree_iff (hnames : ∀ entry, nameOf other entry = nameOf read entry) :
    (∀ name, lastOf other name entries = lastOf read name entries) ↔
      ∀ before entry after name value, entries = before ++ entry :: after →
        read entry = some (name, value) → (∀ later ∈ after, nameOf read later ≠ some name) →
        other entry = some (name, value) := by
  constructor
  · rintro h before entry after name value rfl hread hafter
    obtain ⟨field, hother, hname⟩ : ∃ field, other entry = some field ∧ field.1 = name := by
      have hname := hnames entry
      simp only [nameOf, hread, Option.map_some] at hname
      exact Option.map_eq_some_iff.1 hname
    have hvalue := h name
    have hsame : other entry = some (name, field.2) := by
      rw [hother, ← hname]
    have hrest : ∀ later ∈ after, nameOf other later ≠ some name := fun later hlater => by
      rw [hnames]
      exact hafter later hlater
    rw [last_of_entry hread hafter, last_of_entry hsame hrest] at hvalue
    rw [hsame, Option.some.inj hvalue]
  · intro h name
    rcases last_of_cases read name entries with
      ⟨hnone, hfree⟩ | ⟨before, entry, after, value, rfl, hread, hafter, hvalue⟩
    · rcases last_of_cases other name entries with
        ⟨hother, -⟩ | ⟨before, entry, after, value, rfl, hother, -⟩
      · rw [hnone, hother]
      · refine absurd ?_ (hfree entry (by simp))
        rw [← hnames, nameOf, hother]
        rfl
    · rw [hvalue]
      refine last_of_entry (h before entry after name value rfl hread hafter) fun later hlater => ?_
      rw [hnames]
      exact hafter later hlater

end LastEntry

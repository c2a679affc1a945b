import Mathlib.Data.List.Infix
import Mathlib.Tactic.Linarith

/-!
# Queues served once per arrival

A queue receives batches of work and serves one unit after each batch. `backlog` is its length.
`backlog_eq_zero_iff` says when the queue ends empty: no suffix of the batches brings more units
than it has batches, the initial units counted with the whole list.
-/

namespace ServiceQueue

variable {ι : Type} (weight : ι → Nat)

/-- The length after serving one unit at each arrival, from length `n`. -/
def backlog (n : Nat) : List ι → Nat
  | [] => n
  | arrival :: rest => backlog (n + weight arrival - 1) rest

/-- The units brought by a list of arrivals. -/
def total (arrivals : List ι) : Nat :=
  (arrivals.map weight).sum

@[simp] theorem total_nil : total weight [] = 0 := rfl

@[simp] theorem total_cons (arrival : ι) (rest : List ι) :
    total weight (arrival :: rest) = weight arrival + total weight rest := by
  simp [total]

/-- The queue ends empty exactly when service keeps up with every suffix of the arrivals. -/
theorem backlog_eq_zero_iff (n : Nat) (arrivals : List ι) :
    backlog weight n arrivals = 0 ↔
      n + total weight arrivals ≤ arrivals.length ∧
        ∀ suffix, suffix <:+ arrivals → total weight suffix ≤ suffix.length := by
  induction arrivals generalizing n with
  | nil =>
      simp only [backlog, total_nil, List.length_nil, List.suffix_nil]
      constructor
      · rintro rfl
        exact ⟨by simp, by rintro suffix rfl; simp⟩
      · rintro ⟨hzero, -⟩
        omega
  | cons arrival rest ih =>
      rw [backlog, ih]
      simp only [total_cons, List.length_cons]
      constructor
      · rintro ⟨hall, hsuffix⟩
        refine ⟨by omega, fun suffix hmem => ?_⟩
        rcases List.suffix_cons_iff.1 hmem with rfl | hmem
        · simp only [total_cons, List.length_cons]
          omega
        · exact hsuffix suffix hmem
      · rintro ⟨hall, hsuffix⟩
        have hrest := hsuffix rest (List.suffix_cons _ _)
        exact ⟨by omega, fun suffix hmem => hsuffix suffix (hmem.trans (List.suffix_cons _ _))⟩

end ServiceQueue

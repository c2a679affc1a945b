import Mathlib.Logic.Basic

/-!
# Counted loops

`forUpTo body n` runs `body 0`, …, `body (n - 1)` one after another, until one of them fails.
`for_up_to_invariant` is the rule for total correctness and `for_up_to_error` the one for a loop
that one of its rounds ends.
-/

namespace CountedLoop

universe u v

variable {σ : Type u} {ε : Type v}

/-- `for (i = 0; i < n; i++)` -/
def forUpTo (body : Nat → σ → Except ε σ) : Nat → σ → Except ε σ
  | 0, state => .ok state
  | n + 1, state =>
      match forUpTo body n state with
      | .error fault => .error fault
      | .ok next => body n next

variable {body : Nat → σ → Except ε σ} {n : Nat} {state : σ}

/-- A loop whose rounds succeed and take the invariant on to the next count. -/
theorem for_up_to_invariant (inv : Nat → σ → Prop)
    (hbody : ∀ i < n, ∀ state, inv i state → ∃ next, body i state = .ok next ∧ inv (i + 1) next)
    (hinit : inv 0 state) : ∃ final, forUpTo body n state = .ok final ∧ inv n final := by
  induction n with
  | zero => exact ⟨state, rfl, hinit⟩
  | succ n ih =>
      obtain ⟨middle, hrun, hmiddle⟩ := ih fun i hi => hbody i (Nat.lt_succ_of_lt hi)
      obtain ⟨final, hlast, hfinal⟩ := hbody n (Nat.lt_succ_self n) middle hmiddle
      refine ⟨final, ?_, hfinal⟩
      rw [forUpTo, hrun]
      exact hlast

/-- A loop with a round that fails in every state. -/
theorem for_up_to_error {i : Nat} (hi : i < n)
    (hbody : ∀ state, ∃ fault, body i state = .error fault) :
    ∃ fault, forUpTo body n state = .error fault := by
  induction n with
  | zero => exact absurd hi (Nat.not_lt_zero i)
  | succ n ih =>
      rw [forUpTo]
      cases hrun : forUpTo body n state with
      | error fault => exact ⟨fault, rfl⟩
      | ok middle =>
          rcases Nat.eq_or_lt_of_le (Nat.le_of_lt_succ hi) with rfl | hlt
          · exact hbody middle
          · obtain ⟨fault, hfault⟩ := ih hlt
            rw [hfault] at hrun
            cases hrun

end CountedLoop

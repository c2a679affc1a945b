import Mathlib.Logic.Basic

/-!
# Runs of deterministic machines with outputs and faults

A machine is a step function from a state and an input to a next state and a list of outputs,
or to a fault that ends the run. `run` executes a list of inputs and concatenates the outputs.
`run_append_ok` and `run_append_inv` join and cut runs at any point, and `run_invariant` is the
induction rule for invariants together with guarantees on every output; `run_guarded` is the rule
for invariants that only the steps of some states keep. `run_filter` is an
unwinding theorem: inputs of other owners that are skipped do not show in one owner's outputs.
-/

namespace Machine

universe u v w x

variable {σ : Type u} {ι : Type v} {ο : Type w} {ε : Type x}

/-- The fault of a system of processes that take turns: the process whose turn it is cannot take a
step. -/
inductive Suspended where
  | suspended
deriving DecidableEq, Repr

/-- A step function: the next state together with the outputs of the step, or a fault. -/
abbrev Step (σ : Type u) (ι : Type v) (ο : Type w) (ε : Type x) :=
  σ → ι → Except ε (σ × List ο)

/-- Execute the inputs in order, concatenating the outputs. The first fault ends the run. -/
def run (step : Step σ ι ο ε) : σ → List ι → Except ε (σ × List ο)
  | state, [] => .ok (state, [])
  | state, input :: rest =>
      match step state input with
      | .error fault => .error fault
      | .ok (following, out) =>
          match run step following rest with
          | .error fault => .error fault
          | .ok (final, outs) => .ok (final, out ++ outs)

variable {step : Step σ ι ο ε} {state middle final : σ} {inputs rest : List ι}
  {out outs : List ο}

@[simp] theorem run_nil : run step state [] = .ok (state, []) := rfl

/-- The first input's successful step followed by the run of the remaining inputs. -/
theorem run_cons_ok {input : ι} (hstep : step state input = .ok (middle, out))
    (hrest : run step middle rest = .ok (final, outs)) :
    run step state (input :: rest) = .ok (final, out ++ outs) := by
  simp [run, hstep, hrest]

/-- A successful run of a nonempty list starts with a successful step. -/
theorem run_cons_inv {input : ι} {result : σ × List ο}
    (h : run step state (input :: rest) = .ok result) :
    ∃ middle out outs, step state input = .ok (middle, out) ∧
      run step middle rest = .ok (result.1, outs) ∧ result.2 = out ++ outs := by
  simp only [run] at h
  split at h
  · cases h
  · rename_i middle out hstep
    split at h
    · cases h
    · rename_i final outs hrest
      cases h
      exact ⟨middle, out, outs, hstep, hrest, rfl⟩

/-- Running two input lists one after the other runs their concatenation. -/
theorem run_append_ok (hfirst : run step state inputs = .ok (middle, out))
    (hsecond : run step middle rest = .ok (final, outs)) :
    run step state (inputs ++ rest) = .ok (final, out ++ outs) := by
  induction inputs generalizing state out with
  | nil =>
      cases hfirst
      simpa using hsecond
  | cons input inputs ih =>
      obtain ⟨following, first, later, hstep, hrun, heq⟩ := run_cons_inv hfirst
      simp only at heq
      rw [heq, List.append_assoc]
      exact run_cons_ok hstep (ih hrun)

/-- A successful run of a concatenation is a run of each part. -/
theorem run_append_inv {result : σ × List ο} (h : run step state (inputs ++ rest) = .ok result) :
    ∃ middle out outs, run step state inputs = .ok (middle, out) ∧
      run step middle rest = .ok (result.1, outs) ∧ result.2 = out ++ outs := by
  induction inputs generalizing state result with
  | nil => exact ⟨state, [], result.2, rfl, by simpa using h, rfl⟩
  | cons input inputs ih =>
      obtain ⟨following, first, later, hstep, hrun, heq⟩ := run_cons_inv h
      obtain ⟨middle, out, outs, hfirst, hsecond, hout⟩ := ih hrun
      refine ⟨middle, first ++ out, outs, run_cons_ok hstep hfirst, hsecond, ?_⟩
      simp only at hout
      rw [heq, hout, List.append_assoc]

/-- A run whose final state is known. -/
theorem of_map_fst {result : Except ε (σ × List ο)} (h : result.map Prod.fst = .ok final) :
    ∃ outs, result = .ok (final, outs) := by
  cases result with
  | error fault => cases h
  | ok pair =>
      cases h
      exact ⟨pair.2, rfl⟩

/-- A mapped result is successful when the result is. -/
theorem exists_map_ok {α β : Type} {result : Except ε α} {f : α → β} :
    (∃ value, result.map f = .ok value) ↔ ∃ value, result = .ok value := by
  cases result <;> simp [Except.map]

/-- The state after the first input leads to the last. -/
theorem map_fst_run_cons {input : ι} :
    (run step state (input :: inputs)).map Prod.fst =
      ((step state input).map Prod.fst).bind fun next => (run step next inputs).map Prod.fst := by
  simp only [run]
  cases step state input with
  | error fault => rfl
  | ok result =>
      simp only [Except.map, Except.bind]
      cases run step result.1 inputs <;> rfl

/-- Machines that differ in their outputs only reach the same states. -/
theorem map_fst_run {τ : Type*} {other : Step σ ι τ ε}
    (hsame : ∀ state input, (step state input).map Prod.fst = (other state input).map Prod.fst) :
    (run step state inputs).map Prod.fst = (run other state inputs).map Prod.fst := by
  induction inputs generalizing state with
  | nil => rfl
  | cons input inputs ih =>
      rw [map_fst_run_cons, map_fst_run_cons, hsame]
      simp only [ih]

/-- A run that faults does so at one of its inputs, after a successful run of the inputs before. -/
theorem run_error_inv {fault : ε} (h : run step state inputs = .error fault) :
    ∃ past input rest middle out, inputs = past ++ input :: rest ∧
      run step state past = .ok (middle, out) ∧ step middle input = .error fault := by
  induction inputs generalizing state with
  | nil => cases h
  | cons first inputs ih =>
      cases hfirst : step state first with
      | error other =>
          rw [run, hfirst] at h
          cases h
          exact ⟨[], first, inputs, state, [], rfl, rfl, hfirst⟩
      | ok result =>
          obtain ⟨following, out⟩ := result
          have hrest : run step following inputs = .error fault := by
            simp only [run, hfirst] at h
            split at h
            · rename_i other hother
              cases h
              exact hother
            · cases h
          obtain ⟨past, input, rest, middle, later, heq, hpast, hstep⟩ := ih hrest
          exact ⟨first :: past, input, rest, middle, out ++ later, by rw [heq]; rfl,
            run_cons_ok hfirst hpast, hstep⟩

/-- A run whose steps cannot fault does not fault. -/
theorem run_total (admissible : ι → Prop)
    (hstep : ∀ state input, admissible input → ∃ result, step state input = .ok result)
    (hinputs : ∀ input ∈ inputs, admissible input) :
    ∃ result, run step state inputs = .ok result := by
  induction inputs generalizing state with
  | nil => exact ⟨_, rfl⟩
  | cons input inputs ih =>
      obtain ⟨hinput, hrest⟩ := List.forall_mem_cons.1 hinputs
      obtain ⟨⟨following, out⟩, hfirst⟩ := hstep state input hinput
      have hlater : ∃ result, run step following inputs = .ok result := ih hrest
      obtain ⟨⟨final, outs⟩, hrun⟩ := hlater
      exact ⟨_, run_cons_ok hfirst hrun⟩

/-- The induction rule for runs: when every step on an admissible input preserves `inv` and emits
only outputs satisfying `good`, so does every run on admissible inputs. -/
theorem run_invariant (inv : σ → Prop) (good : ο → Prop) (admissible : ι → Prop)
    (hpreserves : ∀ state input following out, inv state → admissible input →
      step state input = .ok (following, out) → inv following ∧ ∀ o ∈ out, good o)
    (hinit : inv state) (hinputs : ∀ input ∈ inputs, admissible input)
    (h : run step state inputs = .ok (final, outs)) :
    inv final ∧ ∀ o ∈ outs, good o := by
  induction inputs generalizing state outs with
  | nil =>
      cases h
      exact ⟨hinit, by simp⟩
  | cons input inputs ih =>
      obtain ⟨following, first, later, hstep, hrun, heq⟩ := run_cons_inv h
      obtain ⟨hfollowing, hfirst⟩ := hpreserves state input following first hinit
        (hinputs input List.mem_cons_self) hstep
      obtain ⟨hfinal, hlater⟩ := ih hfollowing
        (fun i hi => hinputs i (List.mem_cons_of_mem _ hi)) hrun
      refine ⟨hfinal, fun o ho => ?_⟩
      simp only at heq
      subst heq
      rcases List.mem_append.1 ho with ho | ho
      · exact hfirst o ho
      · exact hlater o ho

/-- The induction rule for invariants that speak of the inputs and outputs so far. -/
theorem run_history (inv : List ι → List ο → σ → Prop) (admissible : ι → Prop)
    (hpreserves : ∀ past trace state input following out, inv past trace state →
      admissible input → step state input = .ok (following, out) →
      inv (past ++ [input]) (trace ++ out) following)
    (hinit : inv [] [] state) (hinputs : ∀ input ∈ inputs, admissible input)
    (h : run step state inputs = .ok (final, outs)) : inv inputs outs final := by
  have hfrom : ∀ {past : List ι} {trace : List ο} {state : σ} {inputs : List ι} {outs : List ο},
      inv past trace state → (∀ input ∈ inputs, admissible input) →
      run step state inputs = .ok (final, outs) → inv (past ++ inputs) (trace ++ outs) final := by
    intro past trace state inputs outs hstart hinputs h
    induction inputs generalizing past trace state outs with
    | nil =>
        cases h
        simpa using hstart
    | cons input inputs ih =>
        obtain ⟨following, first, later, hstep, hrun, heq⟩ := run_cons_inv h
        obtain ⟨hinput, hrest⟩ := List.forall_mem_cons.1 hinputs
        have hlater := ih (hpreserves _ _ _ _ _ _ hstart hinput hstep) hrest hrun
        simp only at heq
        rw [heq]
        simpa only [List.append_assoc, List.singleton_append] using hlater
  simpa only [List.nil_append] using hfrom hinit hinputs h

/-! ## Guarded runs -/

/-- Along the run from `state`, every input comes in a state in which `guard` admits it. -/
def Guarded (step : Step σ ι ο ε) (guard : σ → ι → Prop) : σ → List ι → Prop
  | _, [] => True
  | state, input :: rest => guard state input ∧
      ∀ following out, step state input = .ok (following, out) → Guarded step guard following rest

/-- A guarded step and the guarded inputs after it. -/
theorem guarded_cons {guard : σ → ι → Prop} {input : ι} (hguard : guard state input)
    (hstep : step state input = .ok (middle, out)) (hrest : Guarded step guard middle inputs) :
    Guarded step guard state (input :: inputs) := by
  refine ⟨hguard, fun following later hagain => ?_⟩
  rw [hstep] at hagain
  cases hagain
  exact hrest

/-- Inputs that are admitted in every state. -/
theorem guarded_of_forall {guard : σ → ι → Prop}
    (h : ∀ state, ∀ input ∈ inputs, guard state input) : Guarded step guard state inputs := by
  induction inputs generalizing state with
  | nil => trivial
  | cons input inputs ih =>
      refine ⟨h state input List.mem_cons_self, fun following out _ => ih ?_⟩
      intro later other hother
      exact h later other (List.mem_cons_of_mem _ hother)

/-- Inputs that two guards admit. -/
theorem guarded_and {guard other : σ → ι → Prop} (h : Guarded step guard state inputs)
    (hother : Guarded step other state inputs) :
    Guarded step (fun state input => guard state input ∧ other state input) state inputs := by
  induction inputs generalizing state with
  | nil => trivial
  | cons input inputs ih =>
      exact ⟨⟨h.1, hother.1⟩, fun following out hstep =>
        ih (h.2 following out hstep) (hother.2 following out hstep)⟩

/-- A guard tested along the run. -/
def guardedBy (step : Step σ ι ο ε) (check : σ → ι → Bool) : σ → List ι → Bool
  | _, [] => true
  | state, input :: rest => check state input &&
      match step state input with
      | .error _ => true
      | .ok (following, _) => guardedBy step check following rest

theorem guarded_of_check {guard : σ → ι → Prop} {check : σ → ι → Bool}
    (hcheck : ∀ state input, check state input = true → guard state input)
    (h : guardedBy step check state inputs = true) : Guarded step guard state inputs := by
  induction inputs generalizing state with
  | nil => trivial
  | cons input inputs ih =>
      rw [guardedBy, Bool.and_eq_true] at h
      obtain ⟨hinput, hrest⟩ := h
      refine ⟨hcheck _ _ hinput, fun following out hstep => ih ?_⟩
      simpa only [hstep] using hrest

/-- The induction rule for invariants that speak of the outputs so far and that a step keeps when it
is guarded. -/
theorem run_guarded_history {guard : σ → ι → Prop} (inv : List ο → σ → Prop)
    (hpreserves : ∀ trace state input following out, inv trace state → guard state input →
      step state input = .ok (following, out) → inv (trace ++ out) following)
    (trace : List ο) (hinit : inv trace state) (hguarded : Guarded step guard state inputs)
    (h : run step state inputs = .ok (final, outs)) : inv (trace ++ outs) final := by
  induction inputs generalizing state trace outs with
  | nil =>
      cases h
      simpa using hinit
  | cons input inputs ih =>
      obtain ⟨hinput, hrest⟩ := hguarded
      obtain ⟨following, first, later, hstep, hrun, heq⟩ := run_cons_inv h
      simp only at heq
      rw [heq, ← List.append_assoc]
      exact ih _ (hpreserves _ _ _ _ _ hinit hinput hstep) (hrest _ _ hstep) hrun

/-- The induction rule for invariants that a step keeps when it is guarded. -/
theorem run_guarded {guard : σ → ι → Prop} (inv : σ → Prop)
    (hpreserves : ∀ state input following out, inv state → guard state input →
      step state input = .ok (following, out) → inv following)
    (hinit : inv state) (hguarded : Guarded step guard state inputs)
    (h : run step state inputs = .ok (final, outs)) : inv final :=
  run_guarded_history (fun _ => inv) (fun _ => hpreserves) [] hinit hguarded h

/-- What the invariant and the guard admit is admitted along the whole run. -/
theorem guarded_of_invariant {guard other : σ → ι → Prop} (inv : σ → Prop)
    (hpreserves : ∀ state input following out, inv state → guard state input →
      step state input = .ok (following, out) → inv following)
    (hother : ∀ state input, inv state → guard state input → other state input)
    (hinit : inv state) (hguarded : Guarded step guard state inputs) :
    Guarded step other state inputs := by
  induction inputs generalizing state with
  | nil => trivial
  | cons input inputs ih =>
      refine ⟨hother _ _ hinit hguarded.1, fun following out hstep => ?_⟩
      exact ih (hpreserves _ _ _ _ hinit hguarded.1 hstep) (hguarded.2 _ _ hstep)

/-- The result of a run after `trace` reaches a state that satisfies `inv`, or is a fault that is
not `bad`. -/
def Fine (inv : List ο → σ → Prop) (bad : ε → Prop) (trace : List ο) :
    Except ε (σ × List ο) → Prop
  | .error fault => ¬ bad fault
  | .ok (reached, outs) => inv (trace ++ outs) reached

section Fine

variable {guard : σ → ι → Prop} {inv : List ο → σ → Prop} {bad : ε → Prop} {trace : List ο}

theorem fine_nil : Fine inv bad trace (run step state []) ↔ inv trace state := by
  simp [Fine]

theorem fine_cons_ok {input : ι} (hstep : step state input = .ok (middle, out)) :
    Fine inv bad trace (run step state (input :: inputs)) ↔
      Fine inv bad (trace ++ out) (run step middle inputs) := by
  simp only [run, hstep]
  cases run step middle inputs <;> simp [Fine]

theorem fine_cons_error {input : ι} {fault : ε} (hstep : step state input = .error fault) :
    Fine inv bad trace (run step state (input :: inputs)) ↔ ¬ bad fault := by
  simp [run, hstep, Fine]

/-- When a step on an admissible input is good exactly when it is guarded, and a guarded step keeps
the invariant on which this rests, a run on such inputs is good at every prefix exactly when it is
guarded. -/
theorem guarded_iff_good (admissible : ι → Prop) {good : List ο → σ → Prop}
    (hgood : ∀ trace state, inv trace state → good trace state)
    (hstep : ∀ trace state input, inv trace state → admissible input →
      (Fine good bad trace (step state input) ↔ guard state input))
    (hkeep : ∀ trace state input, inv trace state → admissible input → guard state input →
      Fine inv bad trace (step state input))
    (hinputs : ∀ input ∈ inputs, admissible input) (hinit : inv trace state) :
    Guarded step guard state inputs ↔
      ∀ past, past <+: inputs → Fine good bad trace (run step state past) := by
  induction inputs generalizing state trace with
  | nil =>
      refine iff_of_true trivial fun past hpast => ?_
      rw [List.prefix_nil.1 hpast]
      exact fine_nil.2 (hgood _ _ hinit)
  | cons input inputs ih =>
      obtain ⟨hinput, hlater⟩ := List.forall_mem_cons.1 hinputs
      have hsplit : (∀ past, past <+: input :: inputs → Fine good bad trace (run step state past)) ↔
          ∀ rest, rest <+: inputs → Fine good bad trace (run step state (input :: rest)) := by
        refine ⟨fun h rest hrest => h _ (List.cons_prefix_cons.2 ⟨rfl, hrest⟩), ?_⟩
        intro h past hpast
        rcases List.prefix_cons_iff.1 hpast with rfl | ⟨rest, rfl, hrest⟩
        · exact fine_nil.2 (hgood _ _ hinit)
        · exact h rest hrest
      have hiff := hstep trace state input hinit hinput
      have hnext := hkeep trace state input hinit hinput
      rw [hsplit, Guarded]
      cases hfirst : step state input with
      | error fault =>
          simp only [fine_cons_error hfirst, reduceCtorEq, false_implies, implies_true, and_true]
          rw [hfirst] at hiff
          rw [← hiff]
          exact ⟨fun h _ _ => h, fun h => h [] List.nil_prefix⟩
      | ok result =>
          obtain ⟨middle, out⟩ := result
          rw [hfirst] at hiff hnext
          simp only [fine_cons_ok hfirst, Except.ok.injEq, Prod.mk.injEq, and_imp]
          constructor
          · rintro ⟨hguard, hrest⟩
            exact (ih hlater (hnext hguard)).1 (hrest middle out rfl rfl)
          · intro h
            have hmiddle : good (trace ++ out) middle := fine_nil.1 (h [] List.nil_prefix)
            have hguard : guard state input := hiff.1 hmiddle
            refine ⟨hguard, ?_⟩
            rintro following later rfl rfl
            exact (ih hlater (hnext hguard)).2 h

/-- A property that the invariant gives and that gives what is to be shown. -/
structure Between (inv goal good : List ο → σ → Prop) : Prop where
  low : ∀ trace state, inv trace state → good trace state
  high : ∀ trace state, good trace state → goal trace state

/-- When the verdict on a step is the same for the invariant and for what is to be shown, a run has
what is to be shown at every prefix exactly when it is guarded. -/
theorem guarded_iff_between (admissible : ι → Prop) {goal : List ο → σ → Prop}
    (hgoal : ∀ trace state, inv trace state → goal trace state)
    (hstep : ∀ good, Between inv goal good → ∀ trace state input, inv trace state →
      admissible input → (Fine good bad trace (step state input) ↔ guard state input))
    (hinputs : ∀ input ∈ inputs, admissible input) (hinit : inv trace state) :
    Guarded step guard state inputs ↔
      ∀ past, past <+: inputs → Fine goal bad trace (run step state past) :=
  guarded_iff_good admissible hgoal (hstep goal ⟨hgoal, fun _ _ h => h⟩)
    (fun trace state input hinv hinput =>
      (hstep inv ⟨fun _ _ h => h, hgoal⟩ trace state input hinv hinput).2) hinputs hinit

/-- When a step on an admissible input is fine exactly when it is guarded, so is a run on such
inputs, at every prefix. -/
theorem guarded_iff_of (admissible : ι → Prop)
    (hstep : ∀ trace state input, inv trace state → admissible input →
      (Fine inv bad trace (step state input) ↔ guard state input))
    (hinputs : ∀ input ∈ inputs, admissible input) (hinit : inv trace state) :
    Guarded step guard state inputs ↔
      ∀ past, past <+: inputs → Fine inv bad trace (run step state past) :=
  guarded_iff_good admissible (fun _ _ h => h) hstep
    (fun trace state input hinv hinput => (hstep trace state input hinv hinput).2) hinputs hinit

/-- When a step is fine exactly when it is guarded, so is a run, at every prefix of its inputs. -/
theorem guarded_iff (hstep : ∀ trace state input, inv trace state →
      (Fine inv bad trace (step state input) ↔ guard state input)) (hinit : inv trace state) :
    Guarded step guard state inputs ↔
      ∀ past, past <+: inputs → Fine inv bad trace (run step state past) :=
  guarded_iff_of (fun _ => True) (fun trace state input hinv _ => hstep trace state input hinv)
    (fun _ _ => trivial) hinit

end Fine

/-! ## Owners of inputs and outputs -/

section Owners

variable {mine : ι → Prop} {owned : ο → Prop} [DecidablePred mine] [DecidablePred owned]

/-- Along the run from `state`, an input that is not ours changes nothing and emits nothing, or
none of our inputs follow it. -/
def Skips (step : Step σ ι ο ε) (mine : ι → Prop) : σ → List ι → Prop
  | _, [] => True
  | state, input :: rest =>
      (mine input ∨ step state input = .ok (state, []) ∨ ∀ later ∈ rest, ¬ mine later) ∧
        ∀ following out, step state input = .ok (following, out) → Skips step mine following rest

omit [DecidablePred mine] in
/-- A run on inputs that are not ours emits nothing of ours. -/
theorem run_unowned
    (houtputs : ∀ state input following out, step state input = .ok (following, out) →
      ∀ o ∈ out, owned o → mine input)
    (hinputs : ∀ input ∈ inputs, ¬ mine input)
    (h : run step state inputs = .ok (final, outs)) : outs.filter (fun o => owned o) = [] := by
  have hgood := (run_invariant (fun _ => True) (fun o => ¬ owned o)
    (fun input => ¬ mine input) (fun state input following out _ hinput hstep =>
      ⟨trivial, fun o ho howned => hinput (houtputs _ _ _ _ hstep o ho howned)⟩)
    trivial hinputs h).2
  rw [List.filter_eq_nil_iff]
  simpa using hgood

/-- The run on our inputs alone emits our outputs of the whole run. -/
theorem run_filter (owned : ο → Prop) [DecidablePred owned]
    (houtputs : ∀ state input following out, step state input = .ok (following, out) →
      ∀ o ∈ out, owned o ↔ mine input)
    (hskips : Skips step mine state inputs) (h : run step state inputs = .ok (final, outs)) :
    ∃ alone, run step state (inputs.filter fun input => mine input) =
      .ok (alone, outs.filter fun o => owned o) := by
  induction inputs generalizing state outs with
  | nil =>
      cases h
      exact ⟨_, rfl⟩
  | cons input rest ih =>
      obtain ⟨hskip, hfollowing⟩ := hskips
      obtain ⟨following, out, later, hstep, hrun, heq⟩ := run_cons_inv h
      simp only at heq hrun
      obtain ⟨alone, halone⟩ := ih (hfollowing following out hstep) hrun
      by_cases hmine : mine input
      · have hall : out.filter (fun o => owned o) = out := by
          rw [List.filter_eq_self]
          exact fun o ho => decide_eq_true ((houtputs _ _ _ _ hstep o ho).2 hmine)
        refine ⟨alone, ?_⟩
        rw [heq, List.filter_append, hall, List.filter_cons_of_pos (by simpa using hmine)]
        exact run_cons_ok hstep halone
      · rw [List.filter_cons_of_neg (by simpa using hmine)]
        rcases hskip with hskip | hskip | hskip
        · exact absurd hskip hmine
        · rw [hstep] at hskip
          cases hskip
          exact ⟨alone, by rw [heq]; exact halone⟩
        · have hnone : rest.filter (fun input => mine input) = [] := by
            rw [List.filter_eq_nil_iff]
            simpa using hskip
          have hout : outs.filter (fun o => owned o) = [] :=
            run_unowned (fun state input following out hstep o ho =>
              (houtputs state input following out hstep o ho).1)
              (List.forall_mem_cons.2 ⟨hmine, hskip⟩) h
          rw [hnone, hout]
          exact ⟨state, rfl⟩

end Owners

end Machine

import CarDetect.Lib.Machine
import Mathlib.Tactic.Linarith

/-!
# Driving KCP in the camera's main loop

The loop of `main` in `camera/rtsp_client.c` that calls `ikcp_update` when its time has come and
computes the timeout of `select`. `iclock` counts milliseconds modulo 2^32, and the loop compares
its readings as plain unsigned numbers. `driven_iff` says in which runs the loop updates whenever
the scheduled time has come in the order of the counter, and never waits for more than 10 ms.
-/

namespace CarDetect.Camera

/-- The last reading of the clock, and `next_kcp_update_time`. -/
structure KcpLoop where
  currentMs : UInt32
  nextKcpUpdateTime : UInt32
deriving DecidableEq, Repr

/-- What an iteration reads: how far the clock has advanced since the last reading, and how far
ahead of the reading the time is that `ikcp_check` returns, if it is called. -/
structure Tick where
  advance : UInt32
  ahead : UInt32
deriving DecidableEq, Repr

/-- An iteration: the scheduled time at its beginning, the reading, whether `ikcp_update` is called,
and the timeout of `select`. -/
structure KcpRound where
  scheduled : UInt32
  currentMs : UInt32
  updated : Bool
  tvSec : Nat
  tvUsec : Nat
deriving DecidableEq, Repr

namespace KcpLoop

/-- Before the loop. -/
def start (iclock : UInt32) : KcpLoop := ⟨iclock, iclock⟩

/-- `wait_ms`. A `long` has 64 bits. -/
def waitMs (currentMs nextKcpUpdateTime : UInt32) : Nat :=
  if nextKcpUpdateTime > currentMs then min (nextKcpUpdateTime - currentMs).toNat 1000 else 1

/-- An iteration up to the call of `select`. -/
def iterate (loop : KcpLoop) (tick : Tick) : Except Empty (KcpLoop × List KcpRound) :=
  let currentMs := loop.currentMs + tick.advance
  let updated := decide (currentMs ≥ loop.nextKcpUpdateTime)
  let nextKcpUpdateTime := if updated then currentMs + tick.ahead else loop.nextKcpUpdateTime
  let waitMs := waitMs currentMs nextKcpUpdateTime
  .ok (⟨currentMs, nextKcpUpdateTime⟩,
    [⟨loop.nextKcpUpdateTime, currentMs, updated, waitMs / 1000, waitMs % 1000 * 1000⟩])

end KcpLoop

/-- The clock advances by less than 2^31 ms, and `ikcp_check` returns a time 0 to 10 ms ahead. -/
def Tick.Regular (tick : Tick) : Prop :=
  tick.advance.toNat < 2 ^ 31 ∧ tick.ahead.toNat ≤ 10

instance (tick : Tick) : Decidable tick.Regular := inferInstanceAs (Decidable (_ ∧ _))

/-- A reading at or past a time, in the order of the counter. -/
def AtOrPast (currentMs time : UInt32) : Prop := (currentMs - time).toNat < 2 ^ 31

instance (currentMs time : UInt32) : Decidable (AtOrPast currentMs time) :=
  inferInstanceAs (Decidable (_ < _))

/-- An iteration whose reading is at or past the scheduled time updates, and its timeout is between
1 ms and 10 ms. -/
structure KcpRound.Driven (round : KcpRound) : Prop where
  updates : AtOrPast round.currentMs round.scheduled → round.updated = true
  least : 1000 ≤ round.tvSec * 1000000 + round.tvUsec
  most : round.tvSec * 1000000 + round.tvUsec ≤ 10000

/-- The counter does not wrap around between the scheduled time and a reading at or past it. -/
def SameTurn (loop : KcpLoop) (tick : Tick) : Prop :=
  let late := (loop.currentMs + tick.advance - loop.nextKcpUpdateTime).toNat
  late < 2 ^ 31 → loop.nextKcpUpdateTime.toNat + late < 2 ^ 32

instance (loop : KcpLoop) (tick : Tick) : Decidable (SameTurn loop tick) :=
  inferInstanceAs (Decidable (_ → _))

/-- The scheduled time is at most 10 ms ahead of the last reading. -/
def KcpLoop.Near (loop : KcpLoop) : Prop :=
  (loop.nextKcpUpdateTime - loop.currentMs).toNat ≤ 10

namespace KcpLoop

section Iteration

variable {loop : KcpLoop} {tick : Tick} {currentMs next ahead : UInt32}

theorem toNat_sub_wrap (a b : UInt32) :
    (a - b).toNat = (2 ^ 32 - b.toNat + a.toNat) % 2 ^ 32 :=
  UInt32.toNat_sub a b

/-- The schedule after an update. -/
theorem near_updated (currentMs : UInt32) (h : ahead.toNat ≤ 10) :
    (currentMs + ahead - currentMs).toNat ≤ 10 := by
  rw [UInt32.add_comm, UInt32.add_sub_cancel]
  exact h

theorem wait_pos : 1 ≤ waitMs currentMs next := by
  unfold waitMs
  split
  · rename_i hlt
    rw [gt_iff_lt, UInt32.lt_iff_toNat_lt] at hlt
    have hsub := toNat_sub_wrap next currentMs
    have hnext := next.toNat_lt
    omega
  · exact Nat.le_refl 1

theorem wait_le (h : (next - currentMs).toNat ≤ 10) : waitMs currentMs next ≤ 10 := by
  unfold waitMs
  split <;> omega

/-- A reading that is not at or past the scheduled time is at most 10 ms before it. -/
theorem near_before (hnear : loop.Near) (hregular : tick.Regular)
    (h : ¬ AtOrPast (loop.currentMs + tick.advance) loop.nextKcpUpdateTime) :
    (loop.nextKcpUpdateTime - (loop.currentMs + tick.advance)).toNat ≤ 10 := by
  obtain ⟨hadvance, -⟩ := hregular
  have hsum : (loop.currentMs + tick.advance).toNat =
      (loop.currentMs.toNat + tick.advance.toNat) % 2 ^ 32 := UInt32.toNat_add _ _
  have hlate := toNat_sub_wrap (loop.currentMs + tick.advance) loop.nextKcpUpdateTime
  have hearly := toNat_sub_wrap loop.nextKcpUpdateTime (loop.currentMs + tick.advance)
  have hahead := toNat_sub_wrap loop.nextKcpUpdateTime loop.currentMs
  have hcurrent := loop.currentMs.toNat_lt
  have hnext := loop.nextKcpUpdateTime.toNat_lt
  rw [Near] at hnear
  rw [AtOrPast] at h
  omega

/-- The timeout in seconds and microseconds. -/
theorem driven_of_wait {round : KcpRound} {wait : Nat}
    (hupdates : AtOrPast round.currentMs round.scheduled → round.updated = true)
    (hsec : round.tvSec = wait / 1000) (husec : round.tvUsec = wait % 1000 * 1000)
    (hpos : 1 ≤ wait) (hle : wait ≤ 10) : round.Driven := by
  refine ⟨hupdates, ?_, ?_⟩
  · rw [hsec, husec]
    omega
  · rw [hsec, husec]
    omega

/-- The iterations so far, and a schedule on which the next ones rest. -/
structure OnTime (rounds : List KcpRound) (loop : KcpLoop) : Prop where
  driven : ∀ round ∈ rounds, round.Driven
  near : loop.Near

/-- All iterations so far are driven. -/
def AllDriven (rounds : List KcpRound) (_ : KcpLoop) : Prop := ∀ round ∈ rounds, round.Driven

variable {rounds : List KcpRound} {good : List KcpRound → KcpLoop → Prop}

theorem iterate_iff (hgood : Machine.Between OnTime AllDriven good) (h : OnTime rounds loop)
    (hregular : tick.Regular) :
    Machine.Fine good (fun _ => False) rounds (loop.iterate tick) ↔ SameTurn loop tick := by
  have hlate := toNat_sub_wrap (loop.currentMs + tick.advance) loop.nextKcpUpdateTime
  have hcurrent := (loop.currentMs + tick.advance).toNat_lt
  have hnext := loop.nextKcpUpdateTime.toNat_lt
  by_cases hplain : loop.currentMs + tick.advance ≥ loop.nextKcpUpdateTime
  · -- the plain comparison lets it update
    have hahead := near_updated (loop.currentMs + tick.advance) hregular.2
    have hle := UInt32.le_iff_toNat_le.1 hplain
    refine iff_of_true ?_ fun hpast => ?_
    · simp only [iterate, Machine.Fine, decide_eq_true hplain, if_true]
      refine hgood.low _ _ ⟨?_, hahead⟩
      rw [List.forall_mem_append, List.forall_mem_singleton]
      exact ⟨h.driven, driven_of_wait (fun _ => rfl) rfl rfl wait_pos (wait_le hahead)⟩
    · show loop.nextKcpUpdateTime.toNat + _ < 2 ^ 32
      omega
  · have hlt : (loop.currentMs + tick.advance).toNat < loop.nextKcpUpdateTime.toNat :=
      UInt32.lt_iff_toNat_lt.1 (UInt32.not_le.1 hplain)
    by_cases hpast : AtOrPast (loop.currentMs + tick.advance) loop.nextKcpUpdateTime
    · -- the reading has wrapped around and the schedule has not
      refine iff_of_false ?_ fun hsame => ?_
      · simp only [iterate, Machine.Fine, decide_eq_false hplain]
        intro hfine
        have hdriven := hgood.high _ _ hfine _
          (List.mem_append_right _ (List.mem_singleton_self _))
        cases hdriven.updates hpast
      · have hbound := hsame hpast
        omega
    · have hahead := near_before h.near hregular hpast
      refine iff_of_true ?_ fun hagain => absurd hagain hpast
      simp only [iterate, Machine.Fine, decide_eq_false hplain]
      refine hgood.low _ _ ⟨?_, hahead⟩
      rw [List.forall_mem_append, List.forall_mem_singleton]
      exact ⟨h.driven,
        driven_of_wait (fun hagain => absurd hagain hpast) rfl rfl wait_pos (wait_le hahead)⟩

end Iteration

/-- The loop updates whenever the scheduled time has come, and waits for 1 ms to 10 ms, exactly when
the counter never wraps around between the scheduled time and the reading. -/
theorem driven_iff (iclock : UInt32) (ticks : List Tick) (hregular : ∀ tick ∈ ticks, tick.Regular) :
    Machine.Guarded iterate SameTurn (start iclock) ticks ↔
      ∀ past, past <+: ticks → ∀ final rounds,
        Machine.run iterate (start iclock) past = .ok (final, rounds) →
          ∀ round ∈ rounds, round.Driven := by
  have hnear : (start iclock).Near := by
    show (iclock - iclock).toNat ≤ 10
    rw [UInt32.sub_self]
    exact Nat.zero_le 10
  have hstart : OnTime [] (start iclock) := ⟨List.forall_mem_nil _, hnear⟩
  rw [Machine.guarded_iff_between Tick.Regular (fun _ _ h => h.driven)
    (fun _ hgood _ _ _ h hregular => iterate_iff hgood h hregular) hregular hstart]
  refine forall₂_congr fun past _ => ?_
  cases hrun : Machine.run iterate (start iclock) past with
  | error fault => cases fault
  | ok result =>
      obtain ⟨final, rounds⟩ := result
      constructor
      · intro hfine other others heq
        cases heq
        exact hfine
      · intro h
        exact h final rounds rfl

/-- The first update, one on time, and one that the wrap of the counter makes 5 ms early. -/
def throughWrap : List Tick := [⟨0, 10⟩, ⟨10, 10⟩, ⟨5, 10⟩]

theorem driven_through_wrap : ∃ final rounds,
    Machine.run iterate (start 4294967276) throughWrap = .ok (final, rounds) ∧
      ∀ round ∈ rounds, round.Driven := by
  have hregular : ∀ tick ∈ throughWrap, tick.Regular := by decide
  have hsame : Machine.Guarded iterate SameTurn (start 4294967276) throughWrap :=
    Machine.guarded_of_check (fun _ _ => of_decide_eq_true)
      (rfl : Machine.guardedBy iterate (fun loop tick => decide (SameTurn loop tick))
        (start 4294967276) throughWrap = true)
  exact ⟨_, _, rfl, (driven_iff 4294967276 throughWrap hregular).1 hsame throughWrap
    List.prefix_rfl _ _ rfl⟩

/-- The counter wraps around between the scheduled time and the next reading: the loop does not
update and waits for a second. -/
theorem driven_fails_wrap : ¬ ∀ (iclock : UInt32) (ticks : List Tick),
    (∀ tick ∈ ticks, tick.Regular) → ∀ final rounds,
      Machine.run iterate (start iclock) ticks = .ok (final, rounds) →
        ∀ round ∈ rounds, round.Driven := by
  intro hclaim
  have hregular : ∀ tick ∈ [(⟨0, 5⟩ : Tick), ⟨20, 0⟩], tick.Regular := by decide
  have hdriven : KcpRound.Driven ⟨4294967291, 10, false, 1, 0⟩ :=
    hclaim 4294967286 [⟨0, 5⟩, ⟨20, 0⟩] hregular _ _ rfl _
      (List.mem_cons_of_mem _ (List.mem_singleton_self _))
  cases hdriven.updates (by decide)

end KcpLoop

end CarDetect.Camera

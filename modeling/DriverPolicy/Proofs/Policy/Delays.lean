import DriverPolicy.Expression.Literal
import DriverPolicy.Policy.Schedule
import DriverPolicy.Proofs.Policy.Acceptance
import Mathlib.Algebra.Order.Ring.Int
import Mathlib.Data.List.Induction
import Mathlib.Data.Nat.Find
import Mathlib.Logic.Function.Iterate

/-!
# The delays of schedules

A doubling schedule shows its delay capped and doubles it only as long as it is below the cap, so
what it keeps and what it shows part ways at the last doubling. The delays that it shows are the
first one times the powers of two, up to the cap; what it keeps stays below twice the cap.

In a session schedules of one policy are started and advanced in any order. Where a schedule stands
depends on nothing but the number of delays that it has given itself.
-/

namespace DriverPolicy

namespace Schedule

/-- The schedule after a number of delays. -/
def after (schedule : Schedule) (n : Nat) : Schedule := advance^[n] schedule

/-- The delay of a number, the first one being that of zero. -/
def delayAt (schedule : Schedule) (n : Nat) : Int := (schedule.after n).current

/-- A schedule goes on where it stands. -/
theorem after_after (schedule : Schedule) (m n : Nat) :
    (schedule.after m).after n = schedule.after (m + n) := by
  rw [after, after, after, Nat.add_comm, Function.iterate_add_apply]

/-- The delays that follow are the later ones. -/
theorem delayAt_after (schedule : Schedule) (m : Nat) :
    (schedule.after m).delayAt = fun n => schedule.delayAt (m + n) := by
  funext n
  rw [delayAt, delayAt, after_after]

/-- The next delays are those of the first numbers. -/
theorem take_eq (schedule : Schedule) (n : Nat) :
    schedule.take n = ((List.range n).map schedule.delayAt, schedule.after n) := by
  induction n generalizing schedule with
  | zero => rfl
  | succ n ih =>
    rw [take, ih, List.range_succ_eq_map, List.map_cons, List.map_map]
    rfl

/-- Where a doubling schedule stands after a number of delays. -/
structure Doubled (base cap : Int) (n : Nat) (schedule : Schedule) : Prop where
  /-- The cap stays. -/
  cap_eq : schedule.cap = some cap
  /-- What is shown is the first delay times a power of two, capped. -/
  shown : min schedule.delay cap = min (base * 2 ^ n) cap
  /-- What is kept is less than twice the cap. -/
  delay_lt : schedule.delay < 2 * cap

/-- A positive delay that is doubled again and again is positive. -/
theorem doubling_pos {base : Int} (hbase : 0 < base) (n : Nat) : 0 < base * 2 ^ n :=
  Int.mul_pos hbase (Int.pow_pos (by decide))

/-- One power of two more is one doubling more. -/
theorem doubling_succ (base : Int) (n : Nat) : base * 2 ^ (n + 1) = 2 * (base * 2 ^ n) := by
  rw [pow_succ, ← mul_assoc, mul_comm]

/-- A positive delay that is doubled more often is not less. -/
theorem doubling_mono {base : Int} (hbase : 0 < base) {m n : Nat} (h : m ≤ n) :
    base * 2 ^ m ≤ base * 2 ^ n :=
  Int.mul_le_mul_of_nonneg_left (pow_le_pow_right₀ (by decide) h) hbase.le

/-- One more delay doubles what is shown, up to the cap. -/
theorem Doubled.advance {base cap : Int} {n : Nat} {schedule : Schedule} (hbase : 0 < base)
    (h : Doubled base cap n schedule) : Doubled base cap (n + 1) schedule.advance := by
  obtain ⟨hcap, hshown, hlt⟩ := h
  have hpositive := doubling_pos hbase n
  have hdouble := doubling_succ base n
  simp only [Schedule.advance, hcap]
  split
  · next hbelow =>
    have hkept : schedule.delay = base * 2 ^ n := by omega
    refine ⟨rfl, ?_, ?_⟩
    · rw [hdouble, hkept]
    · change 2 * schedule.delay < 2 * cap
      omega
  · next hreached =>
    refine ⟨hcap, ?_, hlt⟩
    rw [hdouble]
    omega

/-- A doubling schedule that starts below or at its cap stands where it should. -/
theorem doubled_after {base cap : Int} (hbase : 0 < base) (hcap : base ≤ cap) (n : Nat) :
    Doubled base cap n (after ⟨base, some cap⟩ n) := by
  induction n with
  | zero => exact ⟨rfl, by rw [pow_zero, mul_one]; rfl, by change base < 2 * cap; omega⟩
  | succ n ih =>
    rw [after, Function.iterate_succ_apply']
    exact ih.advance hbase

/-- A schedule without a cap stays as it is. -/
theorem after_uncapped (delay : Int) (n : Nat) : after ⟨delay, none⟩ n = ⟨delay, none⟩ :=
  Function.iterate_fixed rfl n

/-- The delays of a doubling schedule. -/
theorem delayAt_doubling {base cap : Int} (hbase : 0 < base) (hcap : base ≤ cap) (n : Nat) :
    delayAt ⟨base, some cap⟩ n = min (base * 2 ^ n) cap := by
  obtain ⟨hsame, hshown, -⟩ := doubled_after hbase hcap n
  rw [delayAt, current, hsame]
  exact hshown

/-- The delays of a doubling schedule never decrease. -/
theorem delayAt_doubling_mono {base cap : Int} (hbase : 0 < base) (hcap : base ≤ cap) {m n : Nat}
    (h : m ≤ n) : delayAt ⟨base, some cap⟩ m ≤ delayAt ⟨base, some cap⟩ n := by
  have hgrows := doubling_mono hbase h
  rw [delayAt_doubling hbase hcap, delayAt_doubling hbase hcap]
  omega

/-- A doubling schedule reaches its cap and stays there. -/
theorem exists_delayAt_eq_cap_iff {base cap : Int} (hbase : 0 < base) (hcap : base ≤ cap) :
    ∃ reached, ∀ n, delayAt ⟨base, some cap⟩ n = cap ↔ reached ≤ n := by
  have hexists : ∃ n, cap ≤ base * 2 ^ n := by
    refine ⟨cap.toNat, ?_⟩
    calc cap = cap.toNat := (Int.toNat_of_nonneg (by omega)).symm
      _ ≤ 2 ^ cap.toNat := by exact_mod_cast Nat.lt_two_pow_self.le
      _ ≤ base * 2 ^ cap.toNat := le_mul_of_one_le_left (Int.pow_nonneg (by decide)) hbase
  refine ⟨Nat.find hexists, fun n => ?_⟩
  rw [delayAt_doubling hbase hcap, min_eq_right_iff, Nat.find_le_iff]
  constructor
  · exact fun h => ⟨n, le_rfl, h⟩
  · rintro ⟨m, hm, h⟩
    exact h.trans (doubling_mono hbase hm)

end Schedule

/-- What can be done with schedules of one policy: to start a new one, or to ask one of them, by its
number, for its next delays. -/
inductive ScheduleStep where
  | start
  | draw (number count : Nat)
deriving DecidableEq

/-- Schedules of one policy, the first one first, and the delays that were drawn from them, with the
number of the schedule, in the order in which they were drawn. -/
structure ScheduleSession where
  /-- The schedules. -/
  schedules : List Schedule
  /-- The delays. -/
  drawn : List (Nat × List Int)

namespace ScheduleSession

/-- The session after a step, where new schedules are as given. A schedule that was not started
gives nothing. -/
def advance (fresh : Schedule) (session : ScheduleSession) : ScheduleStep → ScheduleSession
  | .start => { session with schedules := session.schedules ++ [fresh] }
  | .draw number count =>
    match session.schedules[number]? with
    | some schedule =>
      let (delays, later) := schedule.take count
      ⟨session.schedules.set number later, session.drawn ++ [(number, delays)]⟩
    | none => session

/-- The session after steps that begin without schedules. -/
def after (fresh : Schedule) (steps : List ScheduleStep) : ScheduleSession :=
  steps.foldl (advance fresh) ⟨[], []⟩

/-- The delays that a schedule has given, in order. -/
def delaysOf (session : ScheduleSession) (number : Nat) : List Int :=
  (session.drawn.filter (·.1 = number)).flatMap Prod.snd

variable {fresh schedule : Schedule} {session : ScheduleSession}

/-- The last step comes after the others. -/
theorem after_concat (fresh : Schedule) (steps : List ScheduleStep) (step : ScheduleStep) :
    after fresh (steps ++ [step]) = (after fresh steps).advance fresh step :=
  List.foldl_concat ..

/-- A schedule that was started gives its next delays and goes on from there. -/
theorem advance_draw {number : Nat} (h : session.schedules[number]? = some schedule)
    (count : Nat) : session.advance fresh (.draw number count) =
      ⟨session.schedules.set number (schedule.after count),
        session.drawn ++ [(number, (List.range count).map schedule.delayAt)]⟩ := by
  simp only [advance, h, schedule.take_eq]

/-- Each schedule stands where its own delays have brought it. -/
structure InStep (fresh : Schedule) (session : ScheduleSession) : Prop where
  /-- A schedule stands as far from its start as it has given delays. -/
  stands : ∀ (number : Nat) (schedule : Schedule), session.schedules[number]? = some schedule →
    schedule = fresh.after (session.delaysOf number).length
  /-- A schedule has given the first delays of a new one. -/
  given : ∀ number, session.delaysOf number =
    (List.range (session.delaysOf number).length).map fresh.delayAt
  /-- A schedule that was not started has given none. -/
  unstarted : ∀ number, session.schedules.length ≤ number → session.delaysOf number = []

/-- What one more draw adds to the delays of a schedule. -/
theorem delaysOf_draw {number : Nat} (h : session.schedules[number]? = some schedule)
    (count other : Nat) : (session.advance fresh (.draw number count)).delaysOf other =
      if number = other then session.delaysOf other ++ (List.range count).map schedule.delayAt
      else session.delaysOf other := by
  rw [advance_draw h, delaysOf, List.filter_append, List.flatMap_append, delaysOf]
  split
  · next heq => simp [heq]
  · next hne => simp [hne]

/-- A new schedule, which has given no delays, is in step. -/
theorem InStep.start (h : InStep fresh session) : InStep fresh (session.advance fresh .start) := by
  refine ⟨fun number schedule hschedule => ?_, h.given, fun number hnumber => ?_⟩
  · change (session.schedules ++ [fresh])[number]? = some schedule at hschedule
    rw [List.getElem?_append] at hschedule
    split at hschedule
    · exact h.stands number schedule hschedule
    · next hnew =>
      obtain ⟨-, rfl⟩ := List.getElem?_eq_some_iff.mp hschedule
      change _ = fresh.after (session.delaysOf number).length
      rw [h.unstarted number (Nat.le_of_not_lt hnew), List.getElem_singleton]
      rfl
  · change (session.schedules ++ [fresh]).length ≤ number at hnumber
    rw [List.length_append] at hnumber
    exact h.unstarted number (Nat.le_of_add_right_le hnumber)

/-- A schedule that gives delays goes on as far, and the others stay where they are. -/
theorem InStep.draw (h : InStep fresh session) {number : Nat}
    (hdrawn : session.schedules[number]? = some schedule) (count : Nat) :
    InStep fresh (session.advance fresh (.draw number count)) := by
  have hstands := h.stands number schedule hdrawn
  -- in each part the schedule that was asked and any other one are told apart
  refine ⟨fun other found hfound => ?_, fun other => ?_, fun other hother => ?_⟩
  · rw [advance_draw hdrawn, List.getElem?_set] at hfound
    rw [delaysOf_draw hdrawn]
    split
    · next heq =>
      subst heq
      rw [if_pos rfl] at hfound
      split at hfound
      · rw [← Option.some.inj hfound, hstands, Schedule.after_after, List.length_append,
          List.length_map, List.length_range]
      · contradiction
    · next hne =>
      rw [if_neg hne] at hfound
      exact h.stands other found hfound
  · rw [delaysOf_draw hdrawn]
    split
    · next heq =>
      subst heq
      rw [List.length_append, List.length_map, List.length_range, List.range_add,
        List.map_append, ← h.given, List.map_map, hstands, Schedule.delayAt_after]
      rfl
    · exact h.given other
  · rw [advance_draw hdrawn, List.length_set] at hother
    have hne : number ≠ other := by
      rintro rfl
      exact Nat.not_lt.mpr hother (List.getElem?_eq_some_iff.mp hdrawn).1
    rw [delaysOf_draw hdrawn, if_neg hne]
    exact h.unstarted other hother

/-- Schedules stay in step. -/
theorem InStep.advance (h : InStep fresh session) (step : ScheduleStep) :
    InStep fresh (session.advance fresh step) := by
  cases step with
  | start => exact h.start
  | draw number count =>
    cases hdrawn : session.schedules[number]? with
    | none =>
      rw [ScheduleSession.advance, hdrawn]
      exact h
    | some schedule => exact h.draw hdrawn count

/-- Schedules are in step after any steps. -/
theorem inStep_after (fresh : Schedule) (steps : List ScheduleStep) :
    InStep fresh (after fresh steps) := by
  induction steps using List.reverseRecOn with
  | nil => exact ⟨fun _ _ h => (nomatch h), fun _ => rfl, fun _ _ => rfl⟩
  | append_singleton steps step ih =>
    rw [after_concat]
    exact ih.advance step

/-- There are as many schedules as were started. -/
theorem length_schedules_after (fresh : Schedule) (steps : List ScheduleStep) :
    (after fresh steps).schedules.length = steps.count .start := by
  induction steps using List.reverseRecOn with
  | nil => rfl
  | append_singleton steps step ih =>
    rw [after_concat, List.count_append, ← ih]
    cases step with
    | start => exact List.length_append
    | draw number count =>
      rw [List.count_singleton, if_neg (by simp), Nat.add_zero]
      cases hdrawn : (after fresh steps).schedules[number]? with
      | none => rw [advance, hdrawn]
      | some schedule => rw [advance_draw hdrawn, List.length_set]

/-- A schedule that was started gives the delays that follow those which it has given. -/
theorem drawn_after_draw {steps : List ScheduleStep} {number : Nat}
    (h : number < steps.count .start) (count : Nat) :
    (after fresh (steps ++ [.draw number count])).drawn = (after fresh steps).drawn ++
      [(number, (List.range count).map fun i =>
        fresh.delayAt (((after fresh steps).delaysOf number).length + i))] := by
  rw [← length_schedules_after fresh] at h
  have hstarted := List.getElem?_eq_getElem h
  have hstands := (inStep_after fresh steps).stands number _ hstarted
  rw [after_concat, advance_draw hstarted, hstands, Schedule.delayAt_after]

/-- Each delay of a policy with doubling delays is the first one times a power of two, as far as the
greatest allows. So the delays never decrease, are 64-bit numbers if the greatest is one, and reach
it at some time and stay there, while what a schedule keeps is always less than twice the greatest.
A policy with one delay has no other. When schedules of one policy are started and asked for delays
in any order, each gives the delays of the policy from the first one on: what it gives next depends
on how many it has given itself. -/
theorem schedule_session :
    (∀ base max policy, Policy.newExponential base max = .ok policy →
      ∃ fresh, policy.schedule? = some fresh ∧
        (∀ n, fresh.delayAt n = min (base * 2 ^ n) max) ∧
        (∀ m n, m ≤ n → fresh.delayAt m ≤ fresh.delayAt n) ∧
        (∀ n, fresh.delayAt n ≤ max ∧ (max ≤ longRange.2 →
          longRange.1 ≤ fresh.delayAt n ∧ fresh.delayAt n ≤ longRange.2)) ∧
        (∃ reached, ∀ n, fresh.delayAt n = max ↔ reached ≤ n) ∧
        ∀ n, (fresh.after n).delay < 2 * max) ∧
    (∀ delay policy, Policy.newConstant delay = .ok policy →
      ∃ fresh, policy.schedule? = some fresh ∧ ∀ n, fresh.delayAt n = delay) ∧
    ∀ policy fresh, Policy.schedule? policy = some fresh →
      (∀ count, fresh.take count = ((List.range count).map fresh.delayAt, fresh.after count)) ∧
      ∀ (steps : List ScheduleStep) (number : Nat), number < steps.count .start →
        (after fresh steps).delaysOf number =
          (List.range ((after fresh steps).delaysOf number).length).map fresh.delayAt ∧
        ∀ count, (after fresh (steps ++ [.draw number count])).drawn =
          (after fresh steps).drawn ++ [(number, (List.range count).map fun i =>
            fresh.delayAt (((after fresh steps).delaysOf number).length + i))] := by
  refine ⟨fun base max policy h => ?_, fun delay policy h => ?_, fun policy fresh _ =>
    ⟨fresh.take_eq, fun steps number hstarted =>
      ⟨(inStep_after fresh steps).given number, drawn_after_draw hstarted⟩⟩⟩
  · obtain ⟨hbase, hmax, rfl⟩ := Policy.newExponential_eq_ok_iff.mp h
    have hdelay := Schedule.delayAt_doubling hbase hmax
    refine ⟨⟨base, some max⟩, rfl, hdelay,
      fun m n hle => Schedule.delayAt_doubling_mono hbase hmax hle, fun n => ?_,
      Schedule.exists_delayAt_eq_cap_iff hbase hmax,
      fun n => (Schedule.doubled_after hbase hmax n).delay_lt⟩
    have hpositive := Schedule.doubling_pos hbase n
    simp only [hdelay, longRange]
    omega
  · obtain ⟨-, rfl⟩ := Policy.newConstant_eq_ok_iff.mp h
    refine ⟨⟨delay, none⟩, rfl, fun n => ?_⟩
    rw [Schedule.delayAt, Schedule.after_uncapped]
    rfl

/-- Two schedules with delays from 10 to 100, the second one started when the first has given two
delays. -/
theorem schedule_session_interleaved :
    ∃ policy fresh, Policy.newExponential 10 100 = .ok policy ∧ policy.schedule? = some fresh ∧
      fresh.delayAt 4 = 100 ∧
      (after fresh [.start, .draw 0 2, .start, .draw 1 1, .draw 0 3]).drawn =
        [(0, [10, 20]), (1, [10]), (0, [40, 80, 100])] := by
  have haccepted : Policy.newExponential 10 100 = .ok (.exponentialReconnection 10 100) := rfl
  obtain ⟨fresh, hfresh, hdelay, -⟩ := schedule_session.1 10 100 _ haccepted
  have hdrawn := ((schedule_session.2.2 _ fresh hfresh).2
    [.start, .draw 0 2, .start, .draw 1 1] 0 (by decide)).2 3
  refine ⟨_, fresh, haccepted, hfresh, hdelay 4, hdrawn.trans ?_⟩
  obtain rfl := Option.some.inj hfresh
  decide

end ScheduleSession

end DriverPolicy

import DriverPolicy.Policy.Basic

/-!
# Reconnection schedules

A reconnection policy gives a schedule: the delays before successive attempts, in
milliseconds, without end. A schedule remembers where it is; schedules of one policy do not
know of each other.
-/

namespace DriverPolicy

/-- A schedule in progress: the delay to come, before capping, and the cap if there is one. -/
structure Schedule where
  /-- The delay to come, before it is capped. -/
  delay : Int
  /-- The cap of a doubling schedule; a schedule without one stays as it is. -/
  cap : Option Int
deriving DecidableEq, Repr

namespace Schedule

/-- The next delay. -/
def current (schedule : Schedule) : Int :=
  match schedule.cap with
  | some cap => min schedule.delay cap
  | none => schedule.delay

/-- The schedule after its next delay: a delay below the cap is doubled. -/
def advance (schedule : Schedule) : Schedule :=
  match schedule.cap with
  | some cap =>
    if schedule.delay < cap then { schedule with delay := 2 * schedule.delay } else schedule
  | none => schedule

/-- The next `n` delays and the schedule after them. -/
def take : Nat → Schedule → List Int × Schedule
  | 0, schedule => ([], schedule)
  | n + 1, schedule =>
    let (delays, after) := take n schedule.advance
    (schedule.current :: delays, after)

/-- The greatest number of delays that can be asked for. -/
def greatestCount : Int := 9223372036854775807

/-- The next `count` delays and the schedule after them; none if so many cannot be asked for. -/
def take? (count : Int) (schedule : Schedule) : Option (List Int × Schedule) :=
  if 0 ≤ count && count ≤ greatestCount then some (schedule.take count.toNat) else none

end Schedule

/-- A new schedule of a reconnection policy. -/
def Policy.schedule? : Policy → Option Schedule
  | constantReconnection delay => some ⟨delay, none⟩
  | exponentialReconnection base max => some ⟨base, some max⟩
  | _ => none

end DriverPolicy

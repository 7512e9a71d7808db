import Freshdock.Foundation.Text

/-!
# Cron expressions

Five fields, each a set of values kept as a bit mask, and the search for the next minute whose
local fields match. When day of month and day of week are both restricted a day matches if
either does.

**Time.** An instant is a number of nanoseconds since the Unix epoch. A time zone gives the
offset of every instant, and turns a local time back into an instant where it resolves to a single
one.
-/

set_option autoImplicit false

namespace Freshdock.Cron

open Text

abbrev Instant : Type := Int

def nanosPerSecond : Int := 1000000000
def nanosPerMinute : Int := 60 * nanosPerSecond
def nanosPerHour : Int := 60 * nanosPerMinute
def nanosPerDay : Int := 24 * nanosPerHour

/-- A mapping from instants to offsets from UTC, with gaps and folds, and what a local time
resolves to. A time that is shown once need not resolve: the first second after a fold does not. -/
structure Zone where
  offset : Instant → Int
  /-- The single instant that a local time resolves to. -/
  fromLocal : Int → Option Instant
  /-- A time that resolves is shown at no other instant. -/
  fromLocal_only : ∀ shown t, fromLocal shown = some t → ∀ t', t' + offset t' = shown → t' = t
  /-- With one offset at all instants, every time resolves. -/
  fromLocal_fixed : (∀ t t', offset t = offset t') → ∀ t, fromLocal (t + offset t) = some t

/-- Coordinated universal time. -/
def Zone.utc : Zone where
  offset _ := 0
  fromLocal shown := some shown
  fromLocal_only shown t h t' ht' := by
    obtain rfl := Option.some.inj h
    rwa [Int.add_zero] at ht'
  fromLocal_fixed _ t := congrArg some (Int.add_zero t)

/-- What a clock in the zone shows. -/
def Zone.local (zone : Zone) (t : Instant) : Int := t + zone.offset t

/-! ## The calendar -/

/-- Month and day of a day, counted from 1970-01-01, in the proleptic Gregorian calendar. The
year of this computation starts in March, so that the leap day is its last. -/
def monthAndDay (days : Int) : Nat × Nat :=
  let shifted := days + 719468
  let dayOfEra := shifted % 146097
  let yearOfEra := (dayOfEra - dayOfEra / 1460 + dayOfEra / 36524 - dayOfEra / 146096) / 365
  let dayOfYear := dayOfEra - (365 * yearOfEra + yearOfEra / 4 - yearOfEra / 100)
  let monthIndex := (5 * dayOfYear + 2) / 153
  let dayOfMonth := dayOfYear - (153 * monthIndex + 2) / 5 + 1
  let month := if monthIndex < 10 then monthIndex + 3 else monthIndex - 9
  (month.toNat, dayOfMonth.toNat)

/-- Days since Sunday; 1970-01-01 was a Thursday. -/
def daysFromSunday (days : Int) : Nat := ((days + 4) % 7).toNat

/-! ## Expressions -/

inductive CronError where
  | fieldCount (count : Nat)
  | badToken (field token : String)
  | outOfRange (field : String) (value min max : Nat)
  | invertedRange (field : String) (start stop : Nat)
  | zeroStep (field : String)
  deriving DecidableEq, Repr

def CronError.message : CronError → String
  | .fieldCount count => "expected 5 space-separated fields, got " ++ toString count
  | .badToken field token => "invalid token `" ++ token ++ "` in " ++ field ++ " field"
  | .outOfRange field value min max =>
      "value " ++ toString value ++ " out of range " ++ toString min ++ "..=" ++ toString max ++
        " in " ++ field ++ " field"
  | .invertedRange field start stop =>
      "range start " ++ toString start ++ " is greater than end " ++ toString stop ++ " in " ++
        field ++ " field"
  | .zeroStep field => "step must be greater than zero in " ++ field ++ " field"

/-- The values of one field, and whether it was a bare `*`. -/
structure FieldSet where
  mask : BitVec 64
  star : Bool
  deriving DecidableEq, Repr

def FieldSet.contains (set : FieldSet) (value : Nat) : Bool :=
  value < 64 && set.mask.getLsbD value

def parseValue (token : String) (min max : Nat) (field : String) : Except CronError Nat :=
  match parseU32 token with
  | none => .error (.badToken field token)
  | some v => if v < min || max < v then .error (.outOfRange field v min max) else .ok v

/-- A part's range and its step, 1 when it has none. -/
def parseStep (part field : String) : Except CronError (String × Nat) :=
  match splitOnce part '/' with
  | none => .ok (part, 1)
  | some (range, step) =>
      match parseU32 step with
      | none => .error (.badToken field part)
      | some step => if step = 0 then .error (.zeroStep field) else .ok (range, step)

/-- The first and last value of a range. A single value with a step runs to the maximum. -/
def parseRange (range : String) (step min max : Nat) (field : String) :
    Except CronError (Nat × Nat) :=
  if range = "*" then .ok (min, max)
  else
    match splitOnce range '-' with
    | some (a, b) => do
        let a ← parseValue a min max field
        let b ← parseValue b min max field
        if b < a then .error (.invertedRange field a b) else .ok (a, b)
    | none => do
        let v ← parseValue range min max field
        .ok (if step = 1 then (v, v) else (v, max))

/-- Set every `step`-th bit from `i` to `stop`. The counter is a 32-bit word; the rounds are
more than a field has values. -/
def setBits (step stop : Nat) : Nat → Nat → BitVec 64 → BitVec 64
  | 0, _, mask => mask
  | rounds + 1, i, mask =>
      if i ≤ stop then setBits step stop rounds ((i + step) % 2 ^ 32) (mask ||| (1#64 <<< i))
      else mask

def addPart (min max : Nat) (field : String) (mask : BitVec 64) (part : String) :
    Except CronError (BitVec 64) := do
  let (range, step) ← parseStep part field
  let (start, stop) ← parseRange range step min max field
  .ok (setBits step stop 64 start mask)

def FieldSet.parse (text : String) (min max : Nat) (field : String) :
    Except CronError FieldSet := do
  let mask ← (split text ',').foldlM (addPart min max field) 0#64
  .ok { mask, star := text == "*" }

structure CronExpr where
  minute : FieldSet
  hour : FieldSet
  dom : FieldSet
  month : FieldSet
  dow : FieldSet
  deriving DecidableEq, Repr

def CronExpr.parse (text : String) : Except CronError CronExpr :=
  match splitWhitespace text with
  | [minute, hour, dom, month, dow] => do
      let minute ← FieldSet.parse minute 0 59 "minute"
      let hour ← FieldSet.parse hour 0 23 "hour"
      let dom ← FieldSet.parse dom 1 31 "day-of-month"
      let month ← FieldSet.parse month 1 12 "month"
      let dow ← FieldSet.parse dow 0 6 "day-of-week"
      .ok { minute, hour, dom, month, dow }
  | fields => .error (.fieldCount fields.length)

/-- Do these local fields match? -/
def CronExpr.matches (e : CronExpr) (minute hour dom month dow : Nat) : Bool :=
  e.minute.contains minute && e.hour.contains hour && e.month.contains month &&
    (if !e.dom.star && !e.dow.star then e.dom.contains dom || e.dow.contains dow
    else e.dom.contains dom && e.dow.contains dow)

/-- Does a clock that shows `shown` match? -/
def CronExpr.matchesLocal (e : CronExpr) (shown : Int) : Bool :=
  let days := shown / nanosPerDay
  let date := monthAndDay days
  e.matches (shown / nanosPerMinute % 60).toNat (shown / nanosPerHour % 24).toNat date.2 date.1
    (daysFromSunday days)

/-- How many minutes the search for the next match steps through. -/
def maxStepMinutes : Nat := 4 * 366 * 24 * 60

/-- The first match among the next `steps` minutes from `t`. -/
def CronExpr.search (e : CronExpr) (zone : Zone) : Nat → Instant → Option Instant
  | 0, _ => none
  | steps + 1, t =>
      if e.matchesLocal (zone.local t) then some t else e.search zone steps (t + nanosPerMinute)

/-- The instant with its seconds, then its nanoseconds, set to zero on the local clock; either
fails when the result does not resolve to a single instant. -/
def floorToMinute (zone : Zone) (t : Instant) : Option Instant :=
  let shown := zone.local t
  match zone.fromLocal (shown - shown / nanosPerSecond % 60 * nanosPerSecond) with
  | none => none
  | some t =>
      let shown := zone.local t
      zone.fromLocal (shown - shown % nanosPerSecond)

/-- The first matching minute after an instant, within the horizon. -/
def CronExpr.nextAfter (e : CronExpr) (zone : Zone) (after : Instant) : Option Instant :=
  match floorToMinute zone after with
  | none => none
  | some t => e.search zone maxStepMinutes (t + nanosPerMinute)

end Freshdock.Cron

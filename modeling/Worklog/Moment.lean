import Worklog.Calendar

namespace Worklog

/-- Microseconds in a second, a minute and a day. -/
def secondMicros : Nat := 1000000

def minuteMicros : Nat := 60 * secondMicros

def dayMicros : Nat := 1440 * minuteMicros

/-- Microseconds in the years 1 to 9999. -/
def calendarMicros : Nat := 3652059 * dayMicros

/-- Microseconds east of UTC, less than a day. -/
structure Offset where
  micros : Int
  within_day : -(dayMicros : Int) < micros ∧ micros < dayMicros
  deriving DecidableEq

/-- Universal time. -/
def Offset.utc : Offset := ⟨0, by decide⟩

/-- The reading of a wall clock, counted in microseconds from the start of year 1. An *aware* moment has an
    offset from universal time and denotes an instant; a *naive* one only has its reading. Offsets are fixed:
    a clock whose offset changes with the date, two readings of which would be compared as they stand, is not
    modelled. -/
structure Moment where
  wall : Nat
  offset : Option Offset
  wall_lt : wall < calendarMicros
  deriving DecidableEq

/-- A point of universal time in the years 1 to 9999, in microseconds from their start. -/
structure Instant where
  micros : Nat
  micros_lt : micros < calendarMicros
  deriving DecidableEq

/-- What can go wrong with the kinds and the range of moments. -/
inductive ClockFault where
  /-- An aware moment met a naive one. -/
  | mixed
  /-- A naive moment was to be stored as universal time. -/
  | naive
  /-- The result falls outside the years 1 to 9999. -/
  | outOfRange
  deriving DecidableEq, Repr

namespace Moment

/-- The moment carries an offset. -/
def isAware (m : Moment) : Bool := m.offset.isSome

/-- Microseconds that the offset adds to universal time; naive moments count as they read. -/
def offsetMicros (m : Moment) : Int :=
  match m.offset with
  | some o => o.micros
  | none => 0

/-- The count that orders moments of one kind. For aware moments it is universal time, which may
    lie up to a day outside the calendar. -/
def instant (m : Moment) : Int := m.wall - m.offsetMicros

/-- Two moments that can be ordered. -/
def sameKind (a b : Moment) : Bool := a.isAware == b.isAware

/-- Whether `a` comes before `b`. -/
def before (a b : Moment) : Except ClockFault Bool :=
  if a.sameKind b then .ok (decide (a.instant < b.instant)) else .error .mixed

/-- Microseconds from `b` to `a`. -/
def since (a b : Moment) : Except ClockFault Int :=
  if a.sameKind b then .ok (a.instant - b.instant) else .error .mixed

/-- Equality never fails: moments of different kinds are simply different. -/
def same (a b : Moment) : Bool := a.sameKind b && a.instant == b.instant

/-- The earlier moment, the first of two equal ones. -/
def earliest (a b : Moment) : Except ClockFault Moment := do
  return if ← b.before a then b else a

/-- The later moment, the first of two equal ones. -/
def latest (a b : Moment) : Except ClockFault Moment := do
  return if ← a.before b then b else a

/-- The moment `micros` later on the same clock. -/
def shift (m : Moment) (micros : Int) : Except ClockFault Moment :=
  if h : 0 ≤ m.wall + micros ∧ (m.wall + micros).toNat < calendarMicros then
    .ok ⟨(m.wall + micros).toNat, m.offset, h.2⟩
  else .error .outOfRange

end Moment

namespace Instant

/-- The instant at a count of microseconds, if the calendar reaches it. -/
def ofMicros (micros : Int) : Except ClockFault Instant :=
  if h : 0 ≤ micros ∧ micros.toNat < calendarMicros then .ok ⟨micros.toNat, h.2⟩
  else .error .outOfRange

/-- The instant that an aware moment denotes. -/
def ofMoment (m : Moment) : Except ClockFault Instant :=
  if m.isAware then ofMicros m.instant else .error .naive

/-- The instant as a moment of universal time. -/
def toMoment (i : Instant) : Moment := ⟨i.micros, some Offset.utc, i.micros_lt⟩

/-- The instant as the naive reading of a clock set to universal time. -/
def toReading (i : Instant) : Moment := ⟨i.micros, none, i.micros_lt⟩

end Instant

/-- The moment as universal time; a naive reading is taken to be universal time already. -/
def Moment.toUtc (m : Moment) : Except ClockFault Moment :=
  if m.isAware then Instant.toMoment <$> Instant.ofMicros m.instant
  else .ok ⟨m.wall, some Offset.utc, m.wall_lt⟩

end Worklog

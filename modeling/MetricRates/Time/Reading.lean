import MetricRates.Text.Blank
import MetricRates.Number.Decimal
import MetricRates.Number.Binary64
import MetricRates.Time.Timestamp

/-!
# Reading times

A time text is a number of nanoseconds, an RFC 3339 instant, a date with a time
of day that is taken as UTC, or a date that stands for its midnight.  The first
form that fits decides; the instant must then lie in the range of timestamps.
-/

namespace MetricRates.Time

open MetricRates.Text MetricRates.Number

/-! ## Parts of a time text -/

/-- Read at least `least` and at most `most` digits as a number. -/
def readNumber? (least most : Nat) (cs : List Char) : Option (Nat × List Char) :=
  let digits := (cs.take most).takeWhile Char.isDigit
  if digits.length < least then none
  else some (digitsValue digits, cs.drop digits.length)

/-- Read one given character. -/
def readChar? (wanted : Char) : List Char → Option (List Char)
  | c :: rest => if c = wanted then some rest else none
  | [] => none

/-- Read a fraction of a second as nanoseconds: a point and one or more digits,
of which the first nine count.  Without a point the fraction is zero. -/
def readFraction? : List Char → Option (Nat × List Char)
  | '.' :: rest => do
      let digits := (rest.take 9).takeWhile Char.isDigit
      let (value, after) ← readNumber? 1 9 rest
      some (value * Nat.pow 10 (9 - digits.length), after.dropWhile Char.isDigit)
  | cs => some (0, cs)

/-- A time of day as read, possibly in a leap second. -/
structure TimeOfDay where
  hour : Nat
  minute : Nat
  second : Nat
  nanos : Nat
  deriving DecidableEq, Repr

/-- Whether a time of day can occur; second 60 is a leap second. -/
def TimeOfDay.exists? (time : TimeOfDay) : Bool :=
  time.hour ≤ 23 && time.minute ≤ 59 && time.second ≤ 60

/-- The nanoseconds since the start of 1970 of a date and time in UTC, if both
exist. -/
def instant? (date : Date) (time : TimeOfDay) : Option Int :=
  if date.exists? && time.exists? then
    some ((date.dayNumber * 86400 + time.hour * 3600 + time.minute * 60 + time.second) *
      1000000000 + time.nanos)
  else
    none

/-- The start of a day. -/
def midnight : TimeOfDay := ⟨0, 0, 0, 0⟩

/-! ## RFC 3339 -/

/-- Read an offset from UTC in minutes: `Z`, or a sign, hours and minutes. -/
def readOffset? : List Char → Option (Int × List Char)
  | [] => none
  | mark :: rest =>
      if mark = 'Z' ∨ mark = 'z' then some (0, rest)
      else if mark = '+' ∨ mark = '-' ∨ mark = '\u2212' then do
        let (hours, rest) ← readNumber? 2 2 rest
        let rest ← readChar? ':' rest
        let (minutes, rest) ← readNumber? 2 2 rest
        if 23 < hours ∨ 59 < minutes then none
        let size : Int := hours * 60 + minutes
        some (if mark = '+' then size else -size, rest)
      else
        none

/-- Read an RFC 3339 date and time as nanoseconds since the start of 1970. -/
def readInstant? (cs : List Char) : Option Int := do
  let (year, cs) ← readNumber? 4 4 cs
  let cs ← readChar? '-' cs
  let (month, cs) ← readNumber? 2 2 cs
  let cs ← readChar? '-' cs
  let (day, cs) ← readNumber? 2 2 cs
  let cs ←
    match cs with
    | mark :: rest => if mark = 'T' ∨ mark = 't' ∨ mark = ' ' then some rest else none
    | [] => none
  let (hour, cs) ← readNumber? 2 2 cs
  let cs ← readChar? ':' cs
  let (minute, cs) ← readNumber? 2 2 cs
  let cs ← readChar? ':' cs
  let (second, cs) ← readNumber? 2 2 cs
  let (nanos, cs) ← readFraction? cs
  let (offset, cs) ← readOffset? cs
  if !cs.isEmpty then none
  let utc ← instant? ⟨year, month, day⟩ ⟨hour, minute, second, nanos⟩
  some (utc - offset * 60000000000)

/-! ## Dates and times without offset -/

/-- Read a number of at most `most` digits after blank characters. -/
def readLooseNumber? (most : Nat) (cs : List Char) : Option (Nat × List Char) :=
  readNumber? 1 most (trimStart cs)

/-- Read a year after blank characters: up to four digits, or a sign and any
number of digits. -/
def readYear? (cs : List Char) : Option (Int × List Char) :=
  match trimStart cs with
  | '-' :: rest => (readNumber? 1 rest.length rest).map fun (n, rest) => (-(n : Int), rest)
  | '+' :: rest => (readNumber? 1 rest.length rest).map fun (n, rest) => ((n : Int), rest)
  | cs => (readNumber? 1 4 cs).map fun (n, rest) => ((n : Int), rest)

/-- Read a date with loosely written numbers. -/
def readDate? (cs : List Char) : Option (Date × List Char) := do
  let (year, cs) ← readYear? cs
  let cs ← readChar? '-' cs
  let (month, cs) ← readLooseNumber? 2 cs
  let cs ← readChar? '-' cs
  let (day, cs) ← readLooseNumber? 2 cs
  some (⟨year, month, day⟩, cs)

/-- Read a time of day with loosely written numbers. -/
def readTimeOfDay? (cs : List Char) : Option (TimeOfDay × List Char) := do
  let (hour, cs) ← readLooseNumber? 2 cs
  let cs ← readChar? ':' cs
  let (minute, cs) ← readLooseNumber? 2 cs
  let cs ← readChar? ':' cs
  let (second, cs) ← readLooseNumber? 2 cs
  let (nanos, cs) ← readFraction? cs
  some (⟨hour, minute, second, nanos⟩, cs)

/-- Read a date and a time of day, parted by a `T` or by any blank
characters. -/
def readDateTime? (cs : List Char) : Option Int := do
  let (date, cs) ← readDate? cs
  let cs :=
    match cs with
    | 'T' :: rest => rest
    | _ => cs
  let (time, cs) ← readTimeOfDay? cs
  if !cs.isEmpty then none
  instant? date time

/-- Read a date as its midnight. -/
def readMidnight? (cs : List Char) : Option Int := do
  let (date, cs) ← readDate? cs
  if !cs.isEmpty then none
  instant? date midnight

/-! ## All forms -/

/-- The size from which a fractional number of nanoseconds is refused. -/
def maxFractionalNanos : Float := 9.2e18

/-- The whole nanoseconds nearest to a floating point number, if it is small
enough. -/
def nanosOfFloat? (x : Float) : Option Int :=
  if x.isFinite && x.abs < maxFractionalNanos then roundToInt? x else none

/-- Read a time text without blank ends. -/
def readTrimmedTime? (cs : List Char) : Option Timestamp :=
  match readInt cs with
  | .ok nanos => Timestamp.ofNanos? nanos
  | .error _ =>
    match readFloat? cs with
    | some x => (nanosOfFloat? x).bind Timestamp.ofNanos?
    | none =>
      ((readInstant? cs).or ((readDateTime? cs).or (readMidnight? cs))).bind
        Timestamp.ofNanos?

/-- Read a time text; blank ends do not count. -/
def Timestamp.ofText? (text : String) : Option Timestamp :=
  readTrimmedTime? (trimChars text.toList)

end MetricRates.Time

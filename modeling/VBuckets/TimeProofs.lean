import VBuckets.ByteStringProofs
import VBuckets.DomainProofs
import Mathlib.Algebra.Group.Int.Defs
import Mathlib.Algebra.Group.Nat.Defs
import Mathlib.Data.Int.Basic

/-! # Instants and their texts

    The parts of `time` in use: an instant in UTC is its number of nanoseconds since the
    Unix epoch, a duration is an `int64` of nanoseconds.  Calendar dates are those of
    the proleptic Gregorian calendar. -/

namespace Time

open ByteString

abbrev Instant := Int

def nanosecondsPerSecond : Int := 1000000000

/-! ## The calendar -/

/-- Days from the epoch to a date; years start in March, so that the leap day is the
    last one. -/
def daysFromCivil (year month day : Int) : Int :=
  let y := if month ≤ 2 then year - 1 else year
  let era := y.fdiv 400
  let yearOfEra := y - era * 400
  let monthFromMarch := if month ≤ 2 then month + 9 else month - 3
  let dayOfYear := (153 * monthFromMarch + 2) / 5 + day - 1
  let dayOfEra := yearOfEra * 365 + yearOfEra / 4 - yearOfEra / 100 + dayOfYear
  era * 146097 + dayOfEra - 719468

/-- The date of a day, counted from the epoch: year, month and day.  The year starts in
    March here, so that a leap day is its last. -/
def civilFromDays (days : Int) : Int × Int × Int :=
  let z := days + 719468
  let era := z.fdiv 146097
  let dayOfEra := z - era * 146097
  let yearOfEra :=
    (dayOfEra - dayOfEra / 1460 + dayOfEra / 36524 - dayOfEra / 146096) / 365
  let dayOfYear := dayOfEra - (365 * yearOfEra + yearOfEra / 4 - yearOfEra / 100)
  let monthFromMarch := (5 * dayOfYear + 2) / 153
  let day := dayOfYear - (153 * monthFromMarch + 2) / 5 + 1
  let month := if monthFromMarch < 10 then monthFromMarch + 3 else monthFromMarch - 9
  let year := yearOfEra + era * 400 + if month ≤ 2 then 1 else 0
  (year, month, day)

def isLeap (year : Int) : Bool :=
  year % 4 == 0 && (year % 100 != 0 || year % 400 == 0)

/-- `daysIn`. -/
def daysIn (month year : Int) : Int :=
  if month = 2 then if isLeap year then 29 else 28
  else if month = 4 ∨ month = 6 ∨ month = 9 ∨ month = 11 then 30
  else 31

/-! ## Reading -/

/-- Two digits; the hour may have one, but then nothing can follow it. -/
def getnum : Bytes → Option (Int × Bytes)
  | a :: b :: s =>
      if isDigitASCII a && isDigitASCII b then some (Domain.decimal [a, b], s) else none
  | _ => none

/-- One literal byte. -/
def skip (c : UInt8) : Bytes → Option Bytes
  | b :: s => if b = c then some s else none
  | [] => none

/-- A fraction of a second that the layout does not ask for; digits beyond the ninth
    are dropped. -/
def fraction (s : Bytes) : Int × Bytes :=
  match s with
  | c :: d :: rest =>
      if (c == 46 || c == 44) && isDigitASCII d then
        let digits := (d :: rest).takeWhile isDigitASCII
        let kept := digits.take 9
        ((Domain.decimal kept : Int) * 10 ^ (9 - kept.length),
          (d :: rest).dropWhile isDigitASCII)
      else (0, s)
  | _ => (0, s)

/-- `time.Parse("20060102T150405Z", s)`.  The parser also takes a fraction after the
    seconds, although the layout has none. -/
def parseAmzDate (s : Bytes) : Option Instant := do
  guard (4 ≤ s.length && (s.take 4).all isDigitASCII)
  let year : Int := Domain.decimal (s.take 4)
  let (month, s) ← getnum (s.drop 4)
  guard (1 ≤ month && month ≤ 12)
  let (day, s) ← getnum s
  let s ← skip 84 s
  let (hour, s) ← getnum s
  guard (hour < 24)
  let (minute, s) ← getnum s
  guard (minute < 60)
  let (second, s) ← getnum s
  guard (second < 60)
  let (nanosecond, s) := fraction s
  let s ← skip 90 s
  guard (s = [])
  guard (1 ≤ day && day ≤ daysIn month year)
  some ((((daysFromCivil year month day * 24 + hour) * 60 + minute) * 60 + second) *
    nanosecondsPerSecond + nanosecond)

/-- `time.Parse("20060102", s)`. -/
def parseDate (s : Bytes) : Option Instant := do
  guard (4 ≤ s.length && (s.take 4).all isDigitASCII)
  let year : Int := Domain.decimal (s.take 4)
  let (month, s) ← getnum (s.drop 4)
  guard (1 ≤ month && month ≤ 12)
  let (day, s) ← getnum s
  guard (s = [])
  guard (1 ≤ day && day ≤ daysIn month year)
  some (daysFromCivil year month day * 86400 * nanosecondsPerSecond)

/-- `getnum` where the layout fixes no width: one digit or two. -/
def getnumShort : Bytes → Option (Int × Bytes)
  | a :: b :: s =>
      if isDigitASCII a then
        if isDigitASCII b then some (Domain.decimal [a, b], s)
        else some (Domain.decimal [a], b :: s)
      else none
  | [a] => if isDigitASCII a then some (Domain.decimal [a], []) else none
  | [] => none

/-- What `2006-01-02T15:04:05` reads: the day, the second of the day, the nanoseconds of a
    fraction, and the rest. -/
def readDateTime (s : Bytes) : Option (Int × Int × Int × Bytes) := do
  guard (4 ≤ s.length && (s.take 4).all isDigitASCII)
  let year : Int := Domain.decimal (s.take 4)
  let s ← skip 45 (s.drop 4)
  let (month, s) ← getnum s
  guard (1 ≤ month && month ≤ 12)
  let s ← skip 45 s
  let (day, s) ← getnum s
  let s ← skip 84 s
  let (hour, s) ← getnumShort s
  guard (hour < 24)
  let s ← skip 58 s
  let (minute, s) ← getnum s
  guard (minute < 60)
  let s ← skip 58 s
  let (second, s) ← getnum s
  guard (second < 60)
  let (nanosecond, s) := fraction s
  guard (1 ≤ day && day ≤ daysIn month year)
  some (daysFromCivil year month day, (hour * 60 + minute) * 60 + second, nanosecond, s)

/-- What `Z07:00` reads: the offset in seconds, and the rest. -/
def readZone : Bytes → Option (Int × Bytes)
  | 90 :: s => some (0, s)
  | sign :: a :: b :: 58 :: c :: d :: s => do
      let (hour, _) ← getnum [a, b]
      let (minute, _) ← getnum [c, d]
      guard (hour ≤ 24 && minute ≤ 60)
      let offset := (hour * 60 + minute) * 60
      if sign = 43 then some (offset, s) else if sign = 45 then some (-offset, s) else none
  | _ => none

/-- `time.Parse(time.RFC3339, s)`. -/
def parseRFC3339 (s : Bytes) : Option Instant := do
  let (days, second, nanosecond, s) ← readDateTime s
  let (offset, s) ← readZone s
  guard (s = [])
  some ((days * 86400 + second - offset) * nanosecondsPerSecond + nanosecond)

/-- `time.Parse("2006-01-02T15:04:05Z", s)`. -/
def parseZulu (s : Bytes) : Option Instant := do
  let (days, second, nanosecond, s) ← readDateTime s
  let s ← skip 90 s
  guard (s = [])
  some ((days * 86400 + second) * nanosecondsPerSecond + nanosecond)

/-- `time.Unix(seconds, 0)`; the seconds are counted from the year 1 in an `int64`, which
    wraps. -/
def ofUnix (seconds : Int) : Instant :=
  ((seconds + 62135596800 + 2 ^ 63) % 2 ^ 64 - 2 ^ 63 - 62135596800) * nanosecondsPerSecond

/-! ## Writing -/

/-- The decimal text of an integer. -/
def formatInt (n : Int) : Bytes := ascii (toString n)

/-- A non-negative number with leading zeros up to a width. -/
def padded (width n : Nat) : Bytes :=
  let digits := ascii (toString n)
  List.replicate (width - digits.length) 48 ++ digits

/-- `Unix`. -/
def unix (t : Instant) : Int := t.fdiv nanosecondsPerSecond

/-- `Format("20060102")` in UTC. -/
def formatDate (t : Instant) : Bytes :=
  let (year, month, day) := civilFromDays ((unix t).fdiv 86400)
  (if year < 0 then [45] else []) ++ padded 4 year.natAbs ++ padded 2 month.toNat ++
    padded 2 day.toNat

/-- `Format("20060102T150405Z")` in UTC. -/
def formatAmzDate (t : Instant) : Bytes :=
  let seconds := unix t
  let rest := (seconds - seconds.fdiv 86400 * 86400).toNat
  formatDate t ++ [84] ++ padded 2 (rest / 3600) ++ padded 2 (rest / 60 % 60) ++
    padded 2 (rest % 60) ++ [90]

/-- `Format(time.RFC3339)` in UTC. -/
def formatRFC3339 (t : Instant) : Bytes :=
  let seconds := unix t
  let days := seconds.fdiv 86400
  let rest := (seconds - days * 86400).toNat
  let (year, month, day) := civilFromDays days
  (if year < 0 then [45] else []) ++ padded 4 year.natAbs ++ [45] ++ padded 2 month.toNat ++
    [45] ++ padded 2 day.toNat ++ [84] ++ padded 2 (rest / 3600) ++ [58] ++
    padded 2 (rest / 60 % 60) ++ [58] ++ padded 2 (rest % 60) ++ [90]

/-! ## Durations -/

def minDuration : Int := -(2 ^ 63)

def maxDuration : Int := 2 ^ 63 - 1

/-- The difference, saturated at the ends of `int64`. -/
def sub (t u : Instant) : Int := max minDuration (min maxDuration (t - u))

/-- `-d` on `int64`: the least duration is its own negation. -/
def neg (d : Int) : Int := if d = minDuration then minDuration else -d

/-- `Milliseconds`. -/
def milliseconds (d : Int) : Int := d.tdiv 1000000

end Time

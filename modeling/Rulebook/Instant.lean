/-
  Points in time and spans of time.

  An `Instant` is a wall-clock reading of the proleptic Gregorian calendar together with the offset
  of its clock from universal time; two instants are ordered by universal time.  A span is a whole
  number of microseconds.  Texts of both are here: the ISO form, the form in sentences, and the form
  in listings of data.
-/
import Rulebook.Number.Decimal

namespace Rulebook

/-- A wall-clock reading, in microseconds since the start of 1970, and the offset of the clock from
    universal time, in microseconds. -/
structure Instant where
  wall : Int
  offset : Int
  deriving DecidableEq, Repr

namespace Instant

/-! ## The calendar -/

/-- The number of days from the start of 1970 to a day of the Gregorian calendar. -/
def dayNumber (year month day : Int) : Int :=
  let y := if month ≤ 2 then year - 1 else year
  let era := y.fdiv 400
  let yearOfEra := y - era * 400
  let dayOfYear := (153 * (month + (if 2 < month then -3 else 9)) + 2) / 5 + day - 1
  let dayOfEra := yearOfEra * 365 + yearOfEra / 4 - yearOfEra / 100 + dayOfYear
  era * 146097 + dayOfEra - 719468

/-- The year, month and day of a day number. -/
def civil (days : Int) : Int × Int × Int :=
  let z := days + 719468
  let era := z.fdiv 146097
  let dayOfEra := z - era * 146097
  let yearOfEra := (dayOfEra - dayOfEra / 1460 + dayOfEra / 36524 - dayOfEra / 146096) / 365
  let dayOfYear := dayOfEra - (365 * yearOfEra + yearOfEra / 4 - yearOfEra / 100)
  let shifted := (5 * dayOfYear + 2) / 153
  let day := dayOfYear - (153 * shifted + 2) / 5 + 1
  let month := if shifted < 10 then shifted + 3 else shifted - 9
  let year := yearOfEra + era * 400 + (if month ≤ 2 then 1 else 0)
  (year, month, day)

def microsPerSecond : Int := 1000000
def microsPerDay : Int := 86400 * microsPerSecond

/-- The instant in universal time, in microseconds since the start of 1970. -/
def universal (t : Instant) : Int := t.wall - t.offset

/-- The seconds since the start of 1970 in universal time. -/
def epochSeconds (t : Instant) : Float :=
  (Binary64.ofRatio (t.universal < 0) t.universal.natAbs 1000000).getD 0.0

/-- The fields of a wall clock: year, month, day, hour, minute, second, microsecond. -/
structure Fields where
  year : Int
  month : Int
  day : Int
  hour : Nat
  minute : Nat
  second : Nat
  micro : Nat

def fields (t : Instant) : Fields :=
  let days := t.wall.fdiv microsPerDay
  let (year, month, day) := civil days
  let rest := (t.wall - days * microsPerDay).toNat
  { year, month, day
    hour := rest / 3600000000
    minute := rest / 60000000 % 60
    second := rest / 1000000 % 60
    micro := rest % 1000000 }

/-- Whether a wall clock reading lies in the years 1 to 9999. -/
def inRange (wall : Int) : Bool :=
  dayNumber 1 1 1 * microsPerDay ≤ wall && wall < dayNumber 10000 1 1 * microsPerDay

/-! ## Texts -/

/-- A number with zeros in front, at least `width` digits. -/
def padded (width : Nat) (n : Nat) : String :=
  let s := toString n
  Decimal.zeros (width - s.length) ++ s

/-- The fraction of a second, with its point, unless it is zero. -/
def fractionText (micro : Nat) : String :=
  if micro = 0 then "" else "." ++ padded 6 micro

/-- An offset from universal time. -/
def offsetText (offset : Int) : String :=
  let n := offset.natAbs
  let seconds := n / 1000000 % 60
  let micro := n % 1000000
  (if offset < 0 then "-" else "+") ++ padded 2 (n / 3600000000) ++ ":" ++
    padded 2 (n / 60000000 % 60) ++
    (if seconds = 0 ∧ micro = 0 then "" else ":" ++ padded 2 seconds ++ fractionText micro)

/-- The ISO form with a given separator between date and time. -/
def isoWith (separator : String) (t : Instant) : String :=
  let f := t.fields
  padded 4 f.year.toNat ++ "-" ++ padded 2 f.month.toNat ++ "-" ++ padded 2 f.day.toNat ++
    separator ++ padded 2 f.hour ++ ":" ++ padded 2 f.minute ++ ":" ++ padded 2 f.second ++
    fractionText f.micro ++ offsetText t.offset

/-- The ISO form. -/
def iso (t : Instant) : String := isoWith "T" t

/-- The form in sentences. -/
def text (t : Instant) : String := isoWith " " t

end Instant

namespace Duration

/-- A span in whole days (rounded down) and the seconds and microseconds left over. -/
def split (micros : Int) : Int × Nat × Nat :=
  let days := micros.fdiv Instant.microsPerDay
  let rest := (micros - days * Instant.microsPerDay).toNat
  (days, rest / 1000000, rest % 1000000)

/-- A span in sentences. -/
def text (micros : Int) : String :=
  let (days, seconds, micro) := split micros
  let day :=
    if days = 0 then ""
    else toString days ++ (if days.natAbs = 1 then " day, " else " days, ")
  day ++ toString (seconds / 3600) ++ ":" ++ Instant.padded 2 (seconds / 60 % 60) ++ ":" ++
    Instant.padded 2 (seconds % 60) ++ Instant.fractionText micro

/-- A span in listings of data. -/
def listing (micros : Int) : String :=
  let (days, seconds, micro) := split micros
  let part (name : String) (isZero : Bool) (text : String) : List String :=
    if isZero then [] else [name ++ "=" ++ text]
  let parts := part "days" (days = 0) (toString days) ++
    part "seconds" (seconds = 0) (toString seconds) ++
    part "microseconds" (micro = 0) (toString micro)
  "datetime.timedelta(" ++
    (if parts.isEmpty then "0" else String.intercalate ", " parts) ++ ")"

/-- The most days that a span may have, either way. -/
def maxDays : Int := 999999999

/-- Whether a span has an allowed number of days. -/
def inRange (micros : Int) : Bool :=
  (split micros).1.natAbs ≤ maxDays

end Duration

namespace Instant

/-- An instant in listings of data. -/
def listing (t : Instant) : String :=
  let f := t.fields
  let clock :=
    if f.micro ≠ 0 then [f.hour, f.minute, f.second, f.micro]
    else if f.second ≠ 0 then [f.hour, f.minute, f.second]
    else [f.hour, f.minute]
  let zone :=
    if t.offset = 0 then "datetime.timezone.utc"
    else "datetime.timezone(" ++ Duration.listing t.offset ++ ")"
  "datetime.datetime(" ++
    String.intercalate ", " ([f.year, f.month, f.day].map toString ++ clock.map toString) ++
    ", tzinfo=" ++ zone ++ ")"

/-! ## Reading -/

/-- A number of exactly `width` digits, and what follows it. -/
def number? (width : Nat) (cs : List Char) : Option (Nat × List Char) :=
  let ds := cs.take width
  if ds.length = width ∧ ds.all Char.isDigit then
    some (ds.foldl (fun n d => 10 * n + (d.toNat - '0'.toNat)) 0, cs.drop width)
  else none

/-- A fraction of a second after its point, in microseconds. -/
def fraction? (cs : List Char) : Nat × List Char :=
  let ds := cs.takeWhile Char.isDigit
  let six := (ds ++ List.replicate 6 '0').take 6
  (six.foldl (fun n d => 10 * n + (d.toNat - '0'.toNat)) 0, cs.drop ds.length)

/-- A time of day in microseconds, with minutes and with or without seconds. -/
def clock? (cs : List Char) : Option (Nat × List Char) := do
  let (h, cs) ← number? 2 cs
  match cs with
  | ':' :: cs =>
    let (m, cs) ← number? 2 cs
    match cs with
    | ':' :: cs =>
      let (s, cs) ← number? 2 cs
      match cs with
      | '.' :: cs =>
        let (f, cs) := fraction? cs
        some (((h * 60 + m) * 60 + s) * 1000000 + f, cs)
      | _ => some (((h * 60 + m) * 60 + s) * 1000000, cs)
    | _ => some ((h * 60 + m) * 60000000, cs)
  | _ => some (h * 3600000000, cs)

/-- Reads the ISO form; a text without an offset is in universal time. -/
def ofIso? (s : String) : Option Instant := do
  let (year, cs) ← number? 4 s.toList
  let (month, cs) ← number? 2 (cs.drop 1)
  let (day, cs) ← number? 2 (cs.drop 1)
  let date := dayNumber year month day * microsPerDay
  match cs with
  | [] => some ⟨date, 0⟩
  | _ :: cs =>
    let (time, cs) ← clock? cs
    let wall := date + time
    match cs with
    | '+' :: cs => let (o, _) ← clock? cs; some ⟨wall, o⟩
    | '-' :: cs => let (o, _) ← clock? cs; some ⟨wall, -(o : Int)⟩
    | _ => some ⟨wall, 0⟩

end Instant

end Rulebook

import FlowShape.Text.Blank

/-!
# Timestamps

An instant in universal time, down to nanoseconds. Timestamps are read from a relaxed form of the
notation of internet timestamps, and written with the fewest of 0, 3, 6 and 9 decimals that are
exact.
-/

namespace FlowShape

/-- A date of the Gregorian calendar. -/
structure Date where
  year : Int
  month : Nat
  day : Nat
  deriving DecidableEq

namespace Date

def isLeap (year : Int) : Bool := year % 4 == 0 && (year % 100 != 0 || year % 400 == 0)

def daysIn (year : Int) (month : Nat) : Nat :=
  if month = 2 then if isLeap year then 29 else 28
  else if month = 4 ∨ month = 6 ∨ month = 9 ∨ month = 11 then 30
  else 31

/-- The years of the calendar that are in use. -/
def isUsable (year : Int) : Bool := -262143 ≤ year && year ≤ 262142

/-- A date that exists. -/
def ofParts? (year : Int) (month day : Nat) : Option Date :=
  if isUsable year ∧ 1 ≤ month ∧ month ≤ 12 ∧ 1 ≤ day ∧ day ≤ daysIn year month then
    some ⟨year, month, day⟩
  else none

/-- Days since the first of January 1970. Years are taken to start in March here, which puts the
leap day last. -/
def toDays (d : Date) : Int :=
  let year := if d.month ≤ 2 then d.year - 1 else d.year
  let era := year / 400
  let yearOfEra := year % 400
  let month : Int := if d.month ≤ 2 then d.month + 9 else d.month - 3
  let dayOfYear := (153 * month + 2) / 5 + d.day - 1
  let dayOfEra := yearOfEra * 365 + yearOfEra / 4 - yearOfEra / 100 + dayOfYear
  era * 146097 + dayOfEra - 719468

/-- The date a number of days after the first of January 1970. -/
def ofDays (days : Int) : Date :=
  let shifted := days + 719468
  let era := shifted / 146097
  let dayOfEra := shifted % 146097
  let yearOfEra :=
    (dayOfEra - dayOfEra / 1460 + dayOfEra / 36524 - dayOfEra / 146096) / 365
  let dayOfYear := dayOfEra - (365 * yearOfEra + yearOfEra / 4 - yearOfEra / 100)
  let month := (5 * dayOfYear + 2) / 153
  let day := dayOfYear - (153 * month + 2) / 5 + 1
  let year := yearOfEra + era * 400
  if month < 10 then ⟨year, (month + 3).toNat, day.toNat⟩
  else ⟨year + 1, (month - 9).toNat, day.toNat⟩

end Date

/-- An instant: days since the first of January 1970, seconds of the day and nanoseconds of the
second. In a leap second the nanoseconds run on past `10 ^ 9`. -/
structure Timestamp where
  day : Int
  second : Nat
  nano : Nat
  deriving DecidableEq

namespace Timestamp

/-- Local time at an offset, in seconds, from universal time. -/
def ofLocal? (date : Date) (second nano : Nat) (offset : Int) : Option Timestamp :=
  let total := date.toDays * 86400 + second - offset
  let day := total / 86400
  if Date.isUsable (Date.ofDays day).year then some ⟨day, (total % 86400).toNat, nano⟩ else none

/-- The instant a number of nanoseconds after the start of 1970. -/
def ofNanoseconds (n : Int) : Timestamp :=
  let seconds := n / 1000000000
  ⟨seconds / 86400, (seconds % 86400).toNat, (n % 1000000000).toNat⟩

/-! ## Writing -/

/-- A number with at least `width` digits. -/
def padded (width n : Nat) : String :=
  let digits := Nat.toDigits 10 n
  String.ofList (List.replicate (width - digits.length) '0' ++ digits)

/-- A year has four digits, and a sign if that is not enough. -/
def yearText (year : Int) : String :=
  if 0 ≤ year ∧ year ≤ 9999 then padded 4 year.toNat
  else (if year < 0 then "-" else "+") ++ padded 4 year.natAbs

def fractionText (nano : Nat) : String :=
  if nano = 0 then ""
  else if nano % 1000000 = 0 then "." ++ padded 3 (nano / 1000000)
  else if nano % 1000 = 0 then "." ++ padded 6 (nano / 1000)
  else "." ++ padded 9 nano

def text (t : Timestamp) : String :=
  let date := Date.ofDays t.day
  yearText date.year ++ "-" ++ padded 2 date.month ++ "-" ++ padded 2 date.day ++ "T" ++
    padded 2 (t.second / 3600) ++ ":" ++ padded 2 (t.second / 60 % 60) ++ ":" ++
    padded 2 (t.second % 60 + t.nano / 1000000000) ++ fractionText (t.nano % 1000000000) ++ "Z"

/-! ## Reading -/

/-- Reads from the front of a text. -/
abbrev Scan := StateT (List Char) Option

namespace Scan

def blanks : Scan Unit := modify Text.trimStart

/-- One character that is allowed. -/
def oneOf (allowed : List Char) : Scan Char := do
  match ← get with
  | c :: cs => if c ∈ allowed then set cs; return c else failure
  | [] => failure

/-- Whether the next character is the given one, which is then taken. -/
def skips (c : Char) : Scan Bool := do
  match ← get with
  | d :: cs => if c = d then set cs; return true else return false
  | [] => return false

def valueOf (digits : List Char) : Nat :=
  digits.foldl (fun n c => 10 * n + (c.toNat - '0'.toNat)) 0

/-- At least one digit, and as many as there are up to a limit. -/
def digits (limit : Option Nat) : Scan (List Char) := do
  let run := (← get).takeWhile Char.isDigit
  let taken := match limit with
    | some n => run.take n
    | none => run
  if taken.isEmpty then failure
  modify (·.drop taken.length)
  return taken

/-- A number of one or two digits, after any blanks. -/
def pair : Scan Nat := do
  blanks
  return valueOf (← digits (some 2))

/-- A sign lifts the limit of four digits. -/
def year : Scan Int := do
  blanks
  if ← skips '-' then return -(valueOf (← digits none) : Int)
  else if ← skips '+' then return valueOf (← digits none)
  else return valueOf (← digits (some 4))

def separator (c : Char) : Scan Unit := do
  blanks
  let _ ← oneOf [c]

def date : Scan Date := do
  let y ← year
  separator '-'
  let m ← pair
  separator '-'
  let d ← pair
  Date.ofParts? y m d

/-- Decimals of a second. Those past the ninth are dropped. -/
def fraction : Scan Nat := do
  if ← skips '.' then
    let taken ← digits (some 9)
    modify (·.dropWhile Char.isDigit)
    return valueOf taken * Nat.pow 10 (9 - taken.length)
  else return 0

/-- A time of day as seconds and nanoseconds. The second 60 is a leap second. -/
def time : Scan (Nat × Nat) := do
  let h ← pair
  separator ':'
  let m ← pair
  separator ':'
  let s ← pair
  let nano ← fraction
  blanks
  if 23 < h ∨ 59 < m ∨ 60 < s then failure
  else if s = 60 then return (h * 3600 + m * 60 + 59, 1000000000 + nano)
  else return (h * 3600 + m * 60 + s, nano)

def twoDigits : Scan Nat := do
  let ds ← digits (some 2)
  if ds.length = 2 then return valueOf ds else failure

/-- The offset from universal time in seconds: `Z`, `UTC`, or a sign with hours and minutes. -/
def offset : Scan Int := do
  let rest ← get
  if (rest.take 3).map Char.toUpper = ['U', 'T', 'C'] then
    set (rest.drop 3)
    return 0
  else if (rest.take 1).map Char.toUpper = ['Z'] then
    set (rest.drop 1)
    return 0
  else
    let sign ← oneOf ['+', '-', '−']
    let h ← twoDigits
    modify (·.dropWhile fun c => c == ':' || Text.isBlank c)
    let m ← twoDigits
    if 59 < m ∨ 23 < h then failure
    let seconds : Int := h * 3600 + m * 60
    return if sign = '+' then seconds else -seconds

def timestamp : Scan Timestamp := do
  let d ← date
  let _ ← oneOf ['t', 'T', ' ']
  let (second, nano) ← time
  let offset ← offset
  blanks
  if !(← get).isEmpty then failure
  ofLocal? d second nano offset

end Scan

/-- Reads a timestamp. -/
def ofText? (text : String) : Option Timestamp :=
  (Scan.timestamp.run text.toList).map (·.1)

end Timestamp

end FlowShape

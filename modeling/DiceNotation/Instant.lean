import DiceNotation.Text.Blank
/-!
# Instants

A point in time is kept as its date and its time of day in coordinated universal time. It is
written as RFC 3339 has it, with the letter `Z` and as many digits of the second's fraction as are
needed, in steps of three.

Reading is a little freer than writing. Between date and time may stand `T`, `t` or one blank;
blanks may stand before each number and around each sign; a number may lack its leading zeros;
further digits of the fraction are dropped. The offset is `Z`, `UTC` in any case, or hours and
minutes with a sign. A sixtieth second, which a leap second is, is read and written as such.
-/

namespace DiceNotation

namespace Calendar

/-- Whether a year of the Gregorian calendar has a leap day. -/
def isLeap (year : Int) : Bool := year % 4 = 0 && (year % 100 != 0 || year % 400 = 0)

/-- How many days a month has. -/
def daysIn (year : Int) (month : Nat) : Nat :=
  if month = 2 then if isLeap year then 29 else 28
  else if month = 4 ∨ month = 6 ∨ month = 9 ∨ month = 11 then 30
  else 31

/-- A date: year, month and day. -/
abbrev Date := Int × Nat × Nat

/-- The next day. -/
def tomorrow : Date → Date
  | (year, month, day) =>
    if day < daysIn year month then (year, month, day + 1)
    else if month < 12 then (year, month + 1, 1)
    else (year + 1, 1, 1)

/-- The day before. -/
def yesterday : Date → Date
  | (year, month, day) =>
    if 1 < day then (year, month, day - 1)
    else if 1 < month then (year, month - 1, daysIn year (month - 1))
    else (year - 1, 12, 31)

end Calendar

/-- A point in time. -/
structure Instant where
  /-- The year, counted so that the year before the year 1 is the year 0. -/
  year : Int
  /-- The month, from 1. -/
  month : Nat
  /-- The day of the month, from 1. -/
  day : Nat
  /-- The hour of the day. -/
  hour : Nat
  /-- The minute of the hour. -/
  minute : Nat
  /-- The second of the minute. -/
  second : Nat
  /-- The nanosecond of the second. -/
  nanosecond : Nat
  /-- The year is one that is dealt with. -/
  year_mem : -262143 ≤ year ∧ year ≤ 262142
  /-- There is such a day. -/
  date_mem : (1 ≤ month ∧ month ≤ 12) ∧ 1 ≤ day ∧ day ≤ Calendar.daysIn year month
  /-- There is such a time of day. -/
  time_mem : hour < 24 ∧ minute < 60 ∧ second ≤ 60 ∧ nanosecond < 1000000000
  deriving DecidableEq

namespace Instant

/-- The instant of a date and a time of day, if there is one. -/
def of? (date : Calendar.Date) (hour minute second nanosecond : Nat) : Option Instant :=
  if hy : -262143 ≤ date.1 ∧ date.1 ≤ 262142 then
    if hd : (1 ≤ date.2.1 ∧ date.2.1 ≤ 12) ∧
        1 ≤ date.2.2 ∧ date.2.2 ≤ Calendar.daysIn date.1 date.2.1 then
      if ht : hour < 24 ∧ minute < 60 ∧ second ≤ 60 ∧ nanosecond < 1000000000 then
        some ⟨date.1, date.2.1, date.2.2, hour, minute, second, nanosecond, hy, hd, ht⟩
      else none
    else none
  else none

/-- The first instant of the year 1970. -/
def epoch : Instant := ⟨1970, 1, 1, 0, 0, 0, 0, by decide, by decide, by decide⟩

/-! ## Writing -/

/-- The last `width` decimal digits of a number. -/
def decimals : Nat → Nat → List Char
  | 0, _ => []
  | width + 1, n => decimals width (n / 10) ++ [Nat.digitChar (n % 10)]

/-- At least four digits, with a sign where the year is not of four digits. -/
def yearText (year : Int) : List Char :=
  if 0 ≤ year ∧ year ≤ 9999 then decimals 4 year.toNat
  else
    let digits := Nat.toDigits 10 year.natAbs
    (if year < 0 then '-' else '+') :: List.replicate (4 - digits.length) '0' ++ digits

/-- The point and the digits of a fraction of a second. -/
def fractionText (nanosecond : Nat) : List Char :=
  if nanosecond = 0 then []
  else if nanosecond % 1000000 = 0 then '.' :: decimals 3 (nanosecond / 1000000)
  else if nanosecond % 1000 = 0 then '.' :: decimals 6 (nanosecond / 1000)
  else '.' :: decimals 9 nanosecond

/-- The text of an instant, such as `2022-01-02T03:04:05.500Z`. -/
def text (t : Instant) : String :=
  String.ofList (yearText t.year ++ '-' :: decimals 2 t.month ++ '-' :: decimals 2 t.day ++
    'T' :: decimals 2 t.hour ++ ':' :: decimals 2 t.minute ++ ':' :: decimals 2 t.second ++
    fractionText t.nanosecond ++ ['Z'])

/-! ## Reading -/

/-- Reads a number of one up to `most` digits, and gives what follows it. -/
def number? (most : Nat) (cs : List Char) : Option (Nat × List Char) :=
  let digits := (cs.take most).takeWhile Char.isDigit
  if digits.isEmpty then none
  else some (Nat.ofDigitChars 10 digits 0, cs.drop digits.length)

/-- Text without the blanks before it. -/
def skipBlanks (cs : List Char) : List Char := cs.dropWhile Text.isBlank

/-- Reads one character, after blanks. -/
def mark? (c : Char) (cs : List Char) : Option (List Char) :=
  match skipBlanks cs with
  | first :: rest => if first = c then some rest else none
  | [] => none

/-- Reads a year: four digits at most, or any number of them after a sign. -/
def year? (cs : List Char) : Option (Int × List Char) :=
  match skipBlanks cs with
  | '-' :: rest => (number? rest.length rest).map fun (n, more) => (-n, more)
  | '+' :: rest => (number? rest.length rest).map fun (n, more) => (n, more)
  | digits => (number? 4 digits).map fun (n, more) => (n, more)

/-- Reads a date. -/
def date? (cs : List Char) : Option (Calendar.Date × List Char) := do
  let (year, cs) ← year? cs
  let cs ← mark? '-' cs
  let (month, cs) ← number? 2 (skipBlanks cs)
  let cs ← mark? '-' cs
  let (day, cs) ← number? 2 (skipBlanks cs)
  some ((year, month, day), cs)

/-- Reads a fraction of a second, in nanoseconds. -/
def fraction? : List Char → Option (Nat × List Char)
  | '.' :: cs =>
    (number? 9 cs).map fun (n, more) =>
      (n * Nat.pow 10 (9 - (cs.length - more.length)), more.dropWhile Char.isDigit)
  | cs => some (0, cs)

/-- Reads hours and minutes, with colons or blanks between them or nothing at all, in minutes. -/
def hoursAndMinutes? (cs : List Char) : Option (Nat × List Char) :=
  match cs with
  | a :: b :: rest =>
    match rest.dropWhile fun c => c = ':' ∨ Text.isBlank c with
    | c :: d :: more =>
      if a.isDigit && b.isDigit && c.isDigit && d.isDigit then
        let hours := Nat.ofDigitChars 10 [a, b] 0
        let minutes := Nat.ofDigitChars 10 [c, d] 0
        if hours < 24 ∧ minutes < 60 then some (60 * hours + minutes, more) else none
      else none
    | _ => none
  | _ => none

/-- Reads the offset from universal time, in minutes. -/
def offset? (cs : List Char) : Option (Int × List Char) :=
  match skipBlanks cs with
  | '+' :: rest => (hoursAndMinutes? rest).map fun (n, more) => (n, more)
  | '-' :: rest => (hoursAndMinutes? rest).map fun (n, more) => (-n, more)
  | '\u2212' :: rest => (hoursAndMinutes? rest).map fun (n, more) => (-n, more)
  | c :: rest =>
    if c.toLower = 'z' then some (0, rest)
    else if (c :: rest.take 2).map Char.toLower = ['u', 't', 'c'] then some (0, rest.drop 2)
    else none
  | [] => none

/-- The instant at which clocks that are `offset` minutes ahead show this date and time. -/
def shifted? (date : Calendar.Date) (hour minute second nanosecond : Nat) (offset : Int) :
    Option Instant :=
  let minutes : Int := 60 * hour + minute - offset
  let date :=
    if minutes < 0 then Calendar.yesterday date
    else if 1440 ≤ minutes then Calendar.tomorrow date
    else date
  let minutes := (minutes % 1440).toNat
  of? date (minutes / 60) (minutes % 60) second nanosecond

/-- Reads an instant. -/
def ofText? (s : String) : Option Instant := do
  let (date, cs) ← date? s.toList
  let cs ← match cs with
    | c :: rest => if c = 'T' ∨ c = 't' ∨ c = ' ' then some rest else none
    | [] => none
  let (hour, cs) ← number? 2 (skipBlanks cs)
  let cs ← mark? ':' cs
  let (minute, cs) ← number? 2 (skipBlanks cs)
  let cs ← mark? ':' cs
  let (second, cs) ← number? 2 (skipBlanks cs)
  let (nanosecond, cs) ← fraction? cs
  let (offset, cs) ← offset? cs
  let _ ← of? date hour minute second nanosecond
  if (skipBlanks cs).isEmpty then shifted? date hour minute second nanosecond offset else none

end Instant

end DiceNotation

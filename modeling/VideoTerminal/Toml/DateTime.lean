import VideoTerminal.Text.Numeral

/-!
# Dates and times

A date of the calendar, a time of the day, or both with or without a distance from universal
time.  They are read into canonical text: a capital `T` between date and time, a capital `Z` for
universal time, and at most nine places of a second, none of them a zero at the end.
-/

namespace VideoTerminal.Toml

/-- Reads exactly `n` decimal digits. -/
def fixedDigits? (n : Nat) (cs : List Char) : Option (Nat × List Char) :=
  let ds := cs.take n
  if ds.length = n then
    (Numeral.ofDigits? Numeral.decimalDigit? 10 9999 ds).map fun v => (v, cs.drop n)
  else none

/-- Drops a character that must be there. -/
def expect? (c : Char) : List Char → Option (List Char)
  | d :: cs => if d = c then some cs else none
  | [] => none

/-- Whether a year has a leap day. -/
def isLeapYear (year : Nat) : Bool := year % 4 == 0 && (year % 100 != 0 || year % 400 == 0)

/-- The number of days in a month. -/
def daysInMonth (year month : Nat) : Nat :=
  match month with
  | 2 => if isLeapYear year then 29 else 28
  | 4 | 6 | 9 | 11 => 30
  | _ => 31

/-- Reads a date. -/
def date? (cs : List Char) : Option (List Char × List Char) := do
  let (year, rest) ← fixedDigits? 4 cs
  let rest ← expect? '-' rest
  let (month, rest) ← fixedDigits? 2 rest
  let rest ← expect? '-' rest
  let (day, rest) ← fixedDigits? 2 rest
  if 1 ≤ month ∧ month ≤ 12 ∧ 1 ≤ day ∧ day ≤ daysInMonth year month then
    some (cs.take 10, rest)
  else none

/-- The places of a second that count. -/
def secondPlaces (ds : List Char) : List Char :=
  match ((ds.take 9).reverse.dropWhile (· == '0')).reverse with
  | [] => []
  | places => '.' :: places

/-- Reads a time of the day.  A minute may have a leap second. -/
def time? (cs : List Char) : Option (List Char × List Char) := do
  let (hour, rest) ← fixedDigits? 2 cs
  let rest ← expect? ':' rest
  let (minute, rest) ← fixedDigits? 2 rest
  let rest ← expect? ':' rest
  let (second, rest) ← fixedDigits? 2 rest
  if hour ≤ 23 ∧ minute ≤ 59 ∧ second ≤ 60 then
    match rest with
    | '.' :: fraction =>
        let (ds, afterFraction) := fraction.span fun c => (Numeral.decimalDigit? c).isSome
        if ds.isEmpty then some (cs.take 8, rest)
        else some (cs.take 8 ++ secondPlaces ds, afterFraction)
    | _ => some (cs.take 8, rest)
  else none

/-- Reads a distance from universal time, which may be missing. -/
def offset (cs : List Char) : List Char × List Char :=
  match cs with
  | 'Z' :: rest | 'z' :: rest => (['Z'], rest)
  | c :: body =>
      let read := do
        let (hour, rest) ← fixedDigits? 2 body
        let rest ← expect? ':' rest
        let (minute, rest) ← fixedDigits? 2 rest
        if (c = '+' ∨ c = '-') ∧ hour ≤ 23 ∧ minute ≤ 59 then
          let direction := if hour = 0 ∧ minute = 0 then '+' else c
          some (direction :: body.take 5, rest)
        else none
      read.getD ([], cs)
  | [] => ([], [])

/-- Reads a time of the day and a distance from universal time behind a date. -/
def timeOfDate? : List Char → Option (List Char × List Char)
  | c :: cs =>
      if c = 'T' ∨ c = 't' ∨ c = ' ' then
        (time? cs).map fun (time, rest) =>
          let (distance, rest) := offset rest
          ('T' :: time ++ distance, rest)
      else none
  | [] => none

/-- Reads a date, a time or both. -/
def dateTime? (cs : List Char) : Option (String × List Char) :=
  match date? cs with
  | some (date, rest) =>
      let (time, rest) := (timeOfDate? rest).getD ([], rest)
      some (String.ofList (date ++ time), rest)
  | none => (time? cs).map fun (time, rest) => (String.ofList time, rest)

end VideoTerminal.Toml

import Orator.Json.Reader

/-! Dates and times in TOML: a date, a time of day, or both with or without an offset from universal time. -/

namespace Orator.Toml

open Json (natOfDigits)

/-- A number of exactly `count` digits in front. -/
def fixed? (count : Nat) (text : List Char) : Option (Nat × List Char) :=
  let digits := text.take count
  if digits.length = count && digits.all Char.isDigit then some (natOfDigits digits, text.drop count) else none

def after? (c : Char) : List Char → Option (List Char)
  | d :: rest => if c = d then some rest else none
  | [] => none

def isLeapYear (year : Nat) : Bool :=
  year % 4 = 0 && (year % 100 ≠ 0 || year % 400 = 0)

def daysIn (year month : Nat) : Nat :=
  if month = 2 then (if isLeapYear year then 29 else 28)
  else if month = 4 || month = 6 || month = 9 || month = 11 then 30
  else 31

/-- The text behind a date of the calendar. -/
def date? (text : List Char) : Option (List Char) := do
  let (year, rest) ← fixed? 4 text
  let (month, rest) ← fixed? 2 (← after? '-' rest)
  let (day, rest) ← fixed? 2 (← after? '-' rest)
  if 1 ≤ month && month ≤ 12 && 1 ≤ day && day ≤ daysIn year month then some rest else none

/-- The text behind seconds with or without a fraction. A minute may have a leap second. -/
def seconds? (text : List Char) : Option (List Char) := do
  let (second, rest) ← fixed? 2 text
  if 60 < second then none
  match rest with
  | '.' :: rest => (Json.digits? rest).map (·.2)
  | _ => some rest

/-- The text behind a time of day. Seconds may be left out. -/
def time? (text : List Char) : Option (List Char) := do
  let (hour, rest) ← fixed? 2 text
  let (minute, rest) ← fixed? 2 (← after? ':' rest)
  if 23 < hour || 59 < minute then none
  match rest with
  | ':' :: rest => seconds? rest
  | _ => some rest

/-- Whether a text is nothing or an offset. -/
def isOffset : List Char → Bool
  | [] | ['Z'] | ['z'] => true
  | c :: rest =>
    (c = '+' || c = '-') &&
      match (do
        let (hour, rest) ← fixed? 2 rest
        let (minute, rest) ← fixed? 2 (← after? ':' rest)
        if 23 < hour || 59 < minute then none
        some rest) with
      | some [] => true
      | _ => false

/-- Whether a text is a date, a time, or both with a mark between them. -/
def isMoment (text : List Char) : Bool :=
  match date? text with
  | some [] => true
  | some (mark :: rest) =>
    (mark = 'T' || mark = 't' || mark = ' ') &&
      match time? rest with
      | some offset => isOffset offset
      | none => false
  | none => time? text = some []

end Orator.Toml

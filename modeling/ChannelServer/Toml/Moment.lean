import ChannelServer.Toml.Number

/-!
# Dates and times

A date, a time of day, or a date and a time with or without an offset from universal time. Every
part has a fixed number of digits and its range; the days of a month follow the calendar, leap years
included, and a minute may have a leap second.
-/

namespace ChannelServer.Toml

open ChannelServer.Config (Tree)

/-- Reads a number of exactly so many digits within a range. -/
def part? (width low high : Nat) (input : List Char) : Option (Nat × List Char) := do
  let digits ← (input.take width).mapM (digit? 10)
  let value := valueOf 10 digits
  if digits.length = width ∧ low ≤ value ∧ value ≤ high then some (value, input.drop width)
  else none

/-- Reads one character. -/
def mark? (c : Char) : List Char → Option (List Char)
  | d :: rest => if d = c then some rest else none
  | [] => none

/-- The number of days of a month. -/
def daysIn (year month : Nat) : Nat :=
  if month = 2 then
    if year % 4 = 0 ∧ (year % 100 ≠ 0 ∨ year % 400 = 0) then 29 else 28
  else if month = 4 ∨ month = 6 ∨ month = 9 ∨ month = 11 then 30
  else 31

/-- Reads a date. -/
def date? (input : List Char) : Option (List Char) := do
  let (year, rest) ← part? 4 0 9999 input
  let (month, rest) ← part? 2 1 12 (← mark? '-' rest)
  let (_, rest) ← part? 2 1 (daysIn year month) (← mark? '-' rest)
  return rest

/-- Reads the fraction of a second that may follow. -/
def optionalSecondFraction (input : List Char) : List Char :=
  match input with
  | '.' :: c :: rest => if c.isDigit then rest.dropWhile Char.isDigit else input
  | _ => input

/-- Reads a time of day. -/
def time? (input : List Char) : Option (List Char) := do
  let (_, rest) ← part? 2 0 23 input
  let (_, rest) ← part? 2 0 59 (← mark? ':' rest)
  let (_, rest) ← part? 2 0 60 (← mark? ':' rest)
  return optionalSecondFraction rest

/-- Reads an offset from universal time. -/
def offset? : List Char → Option (List Char)
  | 'Z' :: rest => some rest
  | 'z' :: rest => some rest
  | c :: rest =>
    if c = '+' ∨ c = '-' then do
      let (_, rest) ← part? 2 0 23 rest
      let (_, rest) ← part? 2 0 59 (← mark? ':' rest)
      return rest
    else none
  | [] => none

/-- Reads the time that may follow a date, and the offset that may follow both. -/
def optionalTime (input : List Char) : List Char :=
  match input with
  | c :: rest =>
    if c = 'T' ∨ c = 't' ∨ c = ' ' then
      match time? rest with
      | some rest => (offset? rest).getD rest
      | none => input
    else input
  | [] => input

/-- Reads a date, a time, or both. -/
def moment? (input : List Char) : Option (Tree × List Char) :=
  match date? input with
  | some rest => some (.moment, optionalTime rest)
  | none => (time? input).map (.moment, ·)

end ChannelServer.Toml

import ChannelServer.Config.Tree
import ChannelServer.Toml.Quoted

/-!
# Numbers

Integers have a sign and digits, or a radix and digits, and 64 bits. Digits may be set apart by
single underscores. A decimal number has no needless zero in front. A number with a fraction or an
exponent must not be beyond the range of a double, unless it is negative; "infinite" and "not a
number" can be written as such.
-/

namespace ChannelServer.Toml

open ChannelServer.Config (Tree)

/-! ## Digits
-/

/-- The value of a digit in a radix. -/
def digit? (radix : Nat) (c : Char) : Option Nat :=
  (hexDigit? c).filter (· < radix)

/-- Reads digits that follow other digits. An underscore has a digit on both sides. -/
def moreDigits? (radix : Nat) : List Char → Option (List Nat × List Char)
  | [] => some ([], [])
  | '_' :: c :: rest => do
    let digit ← digit? radix c
    let (digits, rest) ← moreDigits? radix rest
    return (digit :: digits, rest)
  | c :: rest =>
    match digit? radix c with
    | some digit => do
      let (digits, rest) ← moreDigits? radix rest
      return (digit :: digits, rest)
    | none => if c = '_' then none else some ([], c :: rest)

/-- Reads at least one digit. -/
def digits? (radix : Nat) : List Char → Option (List Nat × List Char)
  | [] => none
  | c :: rest => do
    let digit ← digit? radix c
    let (digits, rest) ← moreDigits? radix rest
    return (digit :: digits, rest)

/-- The number that digits write. -/
def valueOf (radix : Nat) (digits : List Nat) : Nat :=
  digits.foldl (fun value digit => value * radix + digit) 0

/-- Reads a sign, and whether it is a minus. -/
def sign : List Char → Bool × List Char
  | '+' :: rest => (false, rest)
  | '-' :: rest => (true, rest)
  | input => (false, input)

/-- Reads the digits of a decimal number. After a leading zero there are no more. -/
def decimalDigits? : List Char → Option (List Nat × List Char)
  | '0' :: rest => some ([0], rest)
  | input => digits? 10 input

/-! ## Integers -/

/-- An integer of 64 bits. -/
def integerTree? (value : Int) : Option Tree :=
  if -9223372036854775808 ≤ value ∧ value ≤ 9223372036854775807 then some (.integer value)
  else none

/-- Reads the digits of an integer with a radix. -/
def radixInteger? (radix : Nat) (input : List Char) : Option (Tree × List Char) := do
  let (digits, rest) ← digits? radix input
  return (← integerTree? (valueOf radix digits), rest)

/-- Reads an integer. -/
def integer? : List Char → Option (Tree × List Char)
  | '0' :: 'x' :: rest => radixInteger? 16 rest
  | '0' :: 'o' :: rest => radixInteger? 8 rest
  | '0' :: 'b' :: rest => radixInteger? 2 rest
  | input => do
    let (negative, rest) := sign input
    let (digits, rest) ← decimalDigits? rest
    let value : Int := valueOf 10 digits
    return (← integerTree? (if negative then -value else value), rest)

/-! ## Fractions -/

/-- The least number that a double cannot hold: half a unit beyond the largest double. -/
def doubleRange : Nat := Nat.pow 2 1024 - Nat.pow 2 970

/-- The number `digits · 10 ^ exponent` is too large for a double. Powers are computed only where
the number of digits does not settle it. -/
def beyondDouble (digits : List Nat) (exponent : Int) : Bool :=
  let significant := digits.dropWhile (· = 0)
  let magnitude : Int := significant.length + exponent
  if significant.isEmpty || magnitude ≤ 308 then false
  else if 310 ≤ magnitude then true
  else
    let value := valueOf 10 significant
    match exponent with
    | .ofNat e => doubleRange ≤ value * Nat.pow 10 e
    | .negSucc e => doubleRange * Nat.pow 10 (e + 1) ≤ value

/-- Reads an exponent after its letter. -/
def exponent? (input : List Char) : Option (Int × List Char) := do
  let (negative, rest) := sign input
  let (digits, rest) ← digits? 10 rest
  let value : Int := valueOf 10 digits
  return (if negative then -value else value, rest)

/-- Reads the exponent that may follow a fraction. -/
def optionalExponent? : List Char → Option (Int × List Char)
  | 'e' :: rest => exponent? rest
  | 'E' :: rest => exponent? rest
  | input => some (0, input)

/-- A finite number with a fraction or an exponent. -/
def fractionTree? (negative : Bool) (digits : List Nat) (exponent : Int) : Option Tree :=
  if !negative && beyondDouble digits exponent then none else some .fraction

/-- Reads a number with a fraction or an exponent. -/
def fraction? (input : List Char) : Option (Tree × List Char) := do
  let (negative, rest) := sign input
  match rest with
  | 'i' :: 'n' :: 'f' :: rest => return (.fraction, rest)
  | 'n' :: 'a' :: 'n' :: rest => return (.fraction, rest)
  | _ =>
    let (whole, rest) ← decimalDigits? rest
    match rest with
    | '.' :: rest =>
      let (part, rest) ← digits? 10 rest
      let (exponent, rest) ← optionalExponent? rest
      return (← fractionTree? negative (whole ++ part) (exponent - part.length), rest)
    | 'e' :: rest | 'E' :: rest =>
      let (exponent, rest) ← exponent? rest
      return (← fractionTree? negative whole exponent, rest)
    | _ => none

end ChannelServer.Toml

import ChannelServer.Text.Percent

/-!
# Names of files that carry parameters

A database is opened under the name of a file. A name that begins with `file:` is a URI: after the
scheme may come an authority, then the path, then parameters, and what follows a `#` says nothing.
Any other name is the path as it stands.

Nobody but this machine can have the file, so the authority is empty or `localhost`. A NUL ends the
path, the name or the value in which it is written, for none of them can hold one.
-/

namespace ChannelServer

/-- The path of a file, and the parameters that say how it is to be opened. -/
structure FileUri where
  path : List UInt8
  parameters : List (List UInt8 × List UInt8) := []
  /-- The name is nothing but the path. -/
  isBare : Bool := false
deriving DecidableEq, Repr

namespace FileUri

/-- What follows the authority, if the authority is one that can be. -/
def afterAuthority? (rest : List UInt8) : Option (List UInt8) :=
  if (Text.bytes "//").isPrefixOf rest then
    let place := rest.drop 2
    if Text.before '/' place = [] ∨ Text.before '/' place = Text.bytes "localhost" then
      some (place.drop (Text.before '/' place).length)
    else none
  else some rest

/-- Reads a part of a URI. -/
def readPart (part : List UInt8) : List UInt8 :=
  Text.beforeNul (Text.percentDecode part)

/-- Reads a parameter. -/
def readParameter (piece : List UInt8) : List UInt8 × List UInt8 :=
  let (name, value) := Text.parameter piece
  (readPart name, readPart value)

/-- The parameters of a query. Those without a name are left out. -/
def readParameters (query : List UInt8) : List (List UInt8 × List UInt8) :=
  ((Text.pieces '&' query).map readParameter).filter (·.1 ≠ [])

/-- The file that a name names. -/
def ofName? (name : List UInt8) : Option FileUri :=
  if (Text.bytes "file:").isPrefixOf name then do
    let rest ← afterAuthority? (name.drop 5)
    let rest := Text.before '#' rest
    return {
      path := readPart (Text.before '?' rest)
      parameters := readParameters ((Text.after? '?' rest).getD []) }
  else some { path := name, isBare := true }

/-- The first value of a parameter. -/
def first? (name : String) (uri : FileUri) : Option (List UInt8) :=
  uri.parameters.lookup (Text.bytes name)

/-- The last value of a parameter. -/
def last? (name : String) (uri : FileUri) : Option (List UInt8) :=
  uri.parameters.reverse.lookup (Text.bytes name)

/-- The number that the digits at the front of a value write in a base. One that needs more than 31
bits counts as zero. -/
def leadingNumber (base : Nat) (value : List UInt8) : Nat :=
  let digits := (value.map fun b => (Text.hexValue? b).map UInt8.toNat).takeWhile
    fun digit => digit.any (· < base)
  let number := digits.foldl (fun number digit => number * base + digit.getD 0) 0
  if number < Nat.pow 2 31 then number else 0

/-- A value that is a number: hexadecimal after `0x`, else decimal. -/
def number? : List UInt8 → Option Nat
  | 0x30 :: x :: digit :: rest =>
    if x ∈ [0x58, 0x78] && (Text.hexValue? digit).isSome then
      some (leadingNumber 16 (digit :: rest))
    else some (leadingNumber 10 (x :: digit :: rest))
  | b :: rest =>
    if 0x30 ≤ b && b ≤ 0x39 then some (leadingNumber 10 (b :: rest)) else none
  | [] => none

/-- A value switches something on. Of a number the last byte decides, and of words those that agree
do. -/
def isOn (value : List UInt8) : Bool :=
  match number? value with
  | some number => number % 256 ≠ 0
  | none => ((Text.ofBytes? value).map String.toLower).any (· ∈ ["on", "yes", "true"])

/-- A parameter is given and switches something on. -/
def flag (name : String) (uri : FileUri) : Bool :=
  (uri.first? name).any isOn

end FileUri

end ChannelServer

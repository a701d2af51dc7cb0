import ChannelServer.Text.Utf8

/-!
# Bytes written in percent

A URL is taken apart at characters such as `/`, `?` and `&`. A byte that would be taken for one of
them is written as a percent sign and two hexadecimal digits. The parts are found first and the
percent signs read second, so that a byte in percent never separates anything.

Everything here works on bytes, since what stands in percent need not be text.
-/

namespace ChannelServer.Text

/-- The value of a hexadecimal digit. -/
def hexValue? (b : UInt8) : Option UInt8 :=
  if 0x30 ≤ b && b ≤ 0x39 then some (b - 0x30)
  else if 0x41 ≤ b && b ≤ 0x46 then some (b - 0x37)
  else if 0x61 ≤ b && b ≤ 0x66 then some (b - 0x57)
  else none

/-- Replaces a percent sign and two hexadecimal digits by the byte they write. Other percent signs
stay. -/
def percentDecode : List UInt8 → List UInt8
  | 0x25 :: high :: low :: rest =>
    match hexValue? high, hexValue? low with
    | some h, some l => (h * 16 + l) :: percentDecode rest
    | _, _ => 0x25 :: percentDecode (high :: low :: rest)
  | b :: rest => b :: percentDecode rest
  | [] => []
termination_by bytes => bytes.length

/-- The bytes before the first NUL. -/
def beforeNul (bytes : List UInt8) : List UInt8 :=
  bytes.takeWhile (· ≠ 0)

/-- The bytes before a character. -/
def before (c : Char) (bytes : List UInt8) : List UInt8 :=
  bytes.takeWhile (· ≠ c.toUInt8)

/-- The bytes after the first occurrence of a character, if there is one. -/
def after? (c : Char) (bytes : List UInt8) : Option (List UInt8) :=
  (bytes.dropWhile (· ≠ c.toUInt8)).tail?

/-- The parts between the occurrences of a character. -/
def pieces (c : Char) : List UInt8 → List (List UInt8)
  | [] => [[]]
  | b :: rest =>
    if b = c.toUInt8 then [] :: pieces c rest
    else
      match pieces c rest with
      | [] => [[b]]
      | piece :: more => (b :: piece) :: more

/-- The name and the value of a parameter, still in percent. One without a value has an empty one. -/
def parameter (piece : List UInt8) : List UInt8 × List UInt8 :=
  (before '=' piece, (after? '=' piece).getD [])

/-- The text that bytes are, if they are one. -/
def ofBytes? (bytes : List UInt8) : Option String :=
  (decode bytes).toOption

end ChannelServer.Text

/-!
# UTF-8 text

Text travels as bytes. Reading it back is all or nothing, and a refusal says where the text stops
being well formed: the number of bytes that could still be read, and how many bytes after them
cannot begin or continue a character. A text that merely ends inside a character is told apart from
one that holds a wrong byte.

The check itself is the one of `String`, so that reading what was written gives the text back; the
scan below only locates the first fault.
-/

namespace ChannelServer.Text

/-- The bytes of a text. -/
def bytes (text : String) : List UInt8 :=
  text.toByteArray.data.toList

/-- Where and how bytes stop being well-formed UTF-8. -/
inductive Utf8Fault where
  /-- After `start` good bytes come `count` bytes that no character can begin with. -/
  | invalid (start count : Nat)
  /-- After `start` good bytes the text ends inside a character. -/
  | incomplete (start : Nat)
deriving DecidableEq, Repr

/-- The wording of a fault. -/
def Utf8Fault.message : Utf8Fault → String
  | invalid start count => s!"invalid utf-8 sequence of {count} bytes from index {start}"
  | incomplete start => s!"incomplete utf-8 byte sequence from index {start}"

/-- The number of bytes that a leading byte announces and the range of the byte after it. `none`
for a byte that leads no character. -/
def leader (b : UInt8) : Option (Nat × UInt8 × UInt8) :=
  if b < 0x80 then some (1, 0, 0)
  else if b < 0xC2 then none
  else if b < 0xE0 then some (2, 0x80, 0xBF)
  else if b = 0xE0 then some (3, 0xA0, 0xBF)
  else if b = 0xED then some (3, 0x80, 0x9F)
  else if b < 0xF0 then some (3, 0x80, 0xBF)
  else if b = 0xF0 then some (4, 0x90, 0xBF)
  else if b < 0xF4 then some (4, 0x80, 0xBF)
  else if b = 0xF4 then some (4, 0x80, 0x8F)
  else none

/-- A byte that continues a character. -/
def isContinuation (b : UInt8) : Bool := 0x80 ≤ b && b ≤ 0xBF

/-- Follows a character that has `seen` bytes so far and wants `missing` more. -/
def followCharacter (start seen : Nat) : Nat → List UInt8 → Option Utf8Fault
  | 0, _ => none
  | _ + 1, [] => some (.incomplete start)
  | missing + 1, b :: rest =>
    if isContinuation b then followCharacter start (seen + 1) missing rest
    else some (.invalid start seen)

/-- The fault of the character at the head of the bytes. -/
def headFault (start : Nat) : List UInt8 → Option Utf8Fault
  | [] => none
  | b :: rest =>
    match leader b with
    | none => some (.invalid start 1)
    | some (1, _, _) => none
    | some (width, low, high) =>
      match rest with
      | [] => some (.incomplete start)
      | second :: more =>
        if low ≤ second && second ≤ high then followCharacter start 2 (width - 2) more
        else some (.invalid start 1)

/-- The number of bytes of the character that a byte leads. -/
def width (b : UInt8) : Nat :=
  (leader b).elim 1 (·.1)

/-- The first fault of the bytes. `start` counts the bytes already read and `inside` those still to
come that belong to the character read last. -/
def firstFault (start : Nat) : Nat → List UInt8 → Option Utf8Fault
  | _, [] => none
  | inside + 1, _ :: rest => firstFault (start + 1) inside rest
  | 0, b :: rest =>
    match headFault start (b :: rest) with
    | some fault => some fault
    | none => firstFault (start + 1) (width b - 1) rest

/-- Reads bytes as text. -/
def decode (input : List UInt8) : Except Utf8Fault String :=
  match String.fromUTF8? input.toByteArray with
  | some text => .ok text
  | none => .error ((firstFault 0 0 input).getD (.invalid 0 1))

end ChannelServer.Text

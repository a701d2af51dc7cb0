import ChannelServer.Channel.Metadata
import ChannelServer.Wire.BigEndian

/-!
# Channels on the wire

A channel travels as a header of sixteen bytes and three texts, each ended by a NUL byte. It names
its parent by a raw id that need not belong to any channel; only the registry decides that.

Reading leaves the bytes after the channel to the caller. Each text has to leave room for the
terminators of the texts after it, and the message of a refusal tells how much room there was.
-/

namespace ChannelServer.Wire

/-- A channel as it travels. -/
structure Entry where
  id : ChannelId
  parent : Option ChannelId
  info : Metadata
deriving DecidableEq, Repr

/-! ## The header -/

/-- The fixed part of a channel. -/
structure Header where
  id : UInt32
  flags : UInt16
  codec : UInt16
  parent : UInt32
  sortOrder : UInt16
  capacity : UInt16
deriving DecidableEq, Repr

namespace Header

/-- The number of bytes of a header. -/
def size : Nat := 16

/-- The bytes of a header. -/
def encode (header : Header) : List UInt8 :=
  word32 header.id ++ word16 header.flags ++ word16 header.codec ++ word32 header.parent ++
    word16 header.sortOrder ++ word16 header.capacity

/-- Reads a header and leaves the bytes after it. -/
def decode? : List UInt8 → Option (Header × List UInt8)
  | i₃ :: i₂ :: i₁ :: i₀ :: f₁ :: f₀ :: c₁ :: c₀ :: p₃ :: p₂ :: p₁ :: p₀ :: s₁ :: s₀ :: m₁ :: m₀ ::
      rest =>
    some ({ id := joinWord32 i₃ i₂ i₁ i₀
            flags := joinWord16 f₁ f₀
            codec := joinWord16 c₁ c₀
            parent := joinWord32 p₃ p₂ p₁ p₀
            sortOrder := joinWord16 s₁ s₀
            capacity := joinWord16 m₁ m₀ }, rest)
  | _ => none

end Header

/-! ## Texts -/

/-- The bytes of a text and its terminator. -/
def encodeText (text : String) : List UInt8 :=
  Text.bytes text ++ [0]

/-- Reads a text and leaves the bytes after its terminator. The last `reserve` bytes of the input
are out of its reach. -/
def decodeText (field : Field) (reserve : Nat) (input : List UInt8) :
    Except Fault (String × List UInt8) :=
  let window := input.take (input.length - reserve)
  let content := window.takeWhile (· != 0)
  if content.length = window.length then
    .error (.badInput (.unterminated field window.length))
  else
    match Text.decode content with
    | .ok text => .ok (text, input.drop (content.length + 1))
    | .error fault => .error (.badInput (.notUtf8 field fault))

/-! ## Channels -/

/-- The number of bytes of a channel on the wire. -/
def encodedSize (info : Metadata) : Nat :=
  Header.size + (info.name.utf8ByteSize + 1) + (info.topic.utf8ByteSize + 1) +
    (info.description.utf8ByteSize + 1)

/-- The least number of bytes of a channel: a header and three terminators. -/
def minimumSize : Nat := Header.size + 3

namespace Entry

/-- The header of a channel. The reserved id says that there is no parent. -/
def header (entry : Entry) : Header where
  id := entry.id.value
  flags := entry.info.flags.bits
  codec := entry.info.codec.number
  parent := (entry.parent.getD .reserved).value
  sortOrder := entry.info.sortOrder
  capacity := entry.info.capacity.toWord

/-- The bytes of a channel. -/
def encode (entry : Entry) : List UInt8 :=
  entry.header.encode ++ encodeText entry.info.name ++ encodeText entry.info.topic ++
    encodeText entry.info.description

/-- The channel that a header and three texts make up. -/
def ofParts (header : Header) (name topic description : String) : Entry where
  id := ⟨header.id⟩
  parent := if header.parent = ChannelId.reserved.value then none else some ⟨header.parent⟩
  info :=
    { name, topic, description
      flags := ⟨header.flags⟩
      codec := .ofNumber header.codec
      sortOrder := header.sortOrder
      capacity := .ofWord header.capacity ⟨header.flags⟩ }

/-- Reads a channel and leaves the bytes after it. -/
def decode (input : List UInt8) : Except Fault (Entry × List UInt8) := do
  let tooShort := .badInput (.channelTooShort input.length minimumSize)
  if input.length < minimumSize then throw tooShort
  match Header.decode? input with
  | none => throw tooShort
  | some (header, texts) =>
    let (name, rest) ← decodeText .name 2 texts
    let (topic, rest) ← decodeText .topic 1 rest
    let (description, rest) ← decodeText .description 0 rest
    return (ofParts header name topic description, rest)

/-- Reads bytes that hold one channel and nothing else. -/
def decodeWhole (input : List UInt8) : Except Fault Entry := do
  let (entry, rest) ← decode input
  if rest.isEmpty then return entry
  else throw (.badInput (.trailing rest.length entry.id))

end Entry

end ChannelServer.Wire

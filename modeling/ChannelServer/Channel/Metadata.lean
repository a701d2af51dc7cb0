import ChannelServer.Channel.Capacity
import ChannelServer.Channel.Codec
import ChannelServer.Fault

/-!
# Channel metadata

What a channel says about itself, without its id and without its place in the tree. Metadata is
checked where it enters the registry: its texts hold no NUL byte, because the wire ends a text with
one, and it is unbounded only together with the default flag, because the wire can say so only
there.
-/

namespace ChannelServer

/-- The metadata of a channel. -/
structure Metadata where
  name : String
  topic : String
  description : String
  flags : Flags
  codec : Codec
  sortOrder : UInt16
  capacity : Capacity
deriving DecidableEq, Repr

namespace Metadata

/-- The metadata of a new channel of which nothing is said. -/
def preset : Metadata where
  name := "Channel name"
  topic := "Channel topic"
  description := "Channel description"
  flags := .none
  codec := .speex19_5
  sortOrder := 0
  capacity := .limited 16

instance : Inhabited Metadata := ⟨preset⟩

/-- One of the three texts. -/
def text (info : Metadata) : Field → String
  | .name => info.name
  | .topic => info.topic
  | .description => info.description

/-- Replaces one of the three texts. -/
def setText (info : Metadata) : Field → String → Metadata
  | .name, text => { info with name := text }
  | .topic, text => { info with topic := text }
  | .description, text => { info with description := text }

/-- A text without a NUL byte. -/
def Writable (text : String) : Prop := 0 ∉ Text.bytes text

instance (text : String) : Decidable (Writable text) :=
  inferInstanceAs (Decidable (0 ∉ Text.bytes text))

/-- The first field whose text holds a NUL byte. -/
def unwritable? (info : Metadata) : Option Field :=
  [Field.name, .topic, .description].find? fun field => ¬ Writable (info.text field)

/-- Refuses texts with a NUL byte, in the order of the fields, and then an unbounded capacity
without the default flag. -/
def check (info : Metadata) : Except Fault Unit :=
  match info.unwritable? with
  | some field => .error (.badArgument (.nulInField field))
  | none =>
    if info.capacity = .unbounded ∧ ¬ info.flags.has .default then
      .error (.badArgument .unboundedCapacity)
    else .ok ()

end Metadata

end ChannelServer

import ChannelServer.Database.FileUri

/-!
# URLs of databases

A URL names a database. After its scheme, which may be missing, comes the name of a file in
percent, or the word for a database in memory; parameters may follow. A parameter that is not
known, or that has a value it cannot have, makes the URL useless.

The name is that of a file with or without parameters of its own. A URL that asks for a kind of
storage, or says that the file never changes, sets these parameters itself, and then its name is
nothing but a path.
-/

namespace ChannelServer

/-- What a URL says about a database. -/
structure DatabaseUrl where
  /-- The name of the file. It is empty for the database in memory. -/
  name : List UInt8 := []
  inMemory : Bool := false
  /-- Others may share what is in memory. -/
  shared : Bool := false
  /-- Nothing may be written. -/
  readOnly : Bool := false
  /-- The file never changes. -/
  frozen : Bool := false
  /-- The kind of storage. -/
  storage : Option (List UInt8) := none
deriving DecidableEq, Repr

namespace DatabaseUrl

/-- The URL of the database in memory that needs no settings. -/
def memory : String := "sqlite::memory:"

/-- Drops bytes from the front of others as often as they stand there. -/
def dropAll (front : List UInt8) : (budget : Nat) → List UInt8 → List UInt8
  | 0, bytes => bytes
  | budget + 1, bytes =>
    if front.isPrefixOf bytes then dropAll front budget (bytes.drop front.length) else bytes

/-- What follows the scheme of a URL. -/
def afterScheme (url : List UInt8) : List UInt8 :=
  let rest := dropAll (Text.bytes "sqlite://") url.length url
  dropAll (Text.bytes "sqlite:") rest.length rest

/-- Reads the name or the value of a parameter. A plus sign stands for a blank. -/
def readPart (part : List UInt8) : List UInt8 :=
  Text.percentDecode (part.map fun b => if b = '+'.toUInt8 then ' '.toUInt8 else b)

/-- Takes a parameter into account. -/
def accept? (url : DatabaseUrl) : List UInt8 × List UInt8 → Option DatabaseUrl
  | (name, value) =>
    match Text.ofBytes? name, Text.ofBytes? value with
    | some "mode", some "ro" => some { url with readOnly := true }
    | some "mode", some "rw" => some url
    | some "mode", some "rwc" => some url
    | some "mode", some "memory" => some { url with inMemory := true, shared := true }
    | some "cache", some "private" => some { url with shared := false }
    | some "cache", some "shared" => some { url with shared := true }
    | some "immutable", some "true" => some { url with frozen := true }
    | some "immutable", some "1" => some { url with frozen := true }
    | some "immutable", some "false" => some { url with frozen := false }
    | some "immutable", some "0" => some { url with frozen := false }
    | some "vfs", _ => some { url with storage := some value }
    | _, _ => none

/-- Reads a parameter. -/
def readParameter (piece : List UInt8) : List UInt8 × List UInt8 :=
  let (name, value) := Text.parameter piece
  (readPart name, readPart value)

/-- The parameters of a query. Between two separators there may be none. -/
def readParameters (query : List UInt8) : List (List UInt8 × List UInt8) :=
  ((Text.pieces '&' query).filter (· ≠ [])).map readParameter

/-- What a URL says without its parameters. -/
def ofName? (name : List UInt8) : Option DatabaseUrl :=
  if name = Text.bytes ":memory:" then some { inMemory := true }
  else
    let name := Text.percentDecode name
    if (Text.ofBytes? name).isSome then some { name } else none

/-- Reads a URL. -/
def ofText? (text : String) : Option DatabaseUrl := do
  let rest := afterScheme (Text.bytes text)
  let url ← ofName? (Text.before '?' rest)
  (readParameters ((Text.after? '?' rest).getD [])).foldlM accept? url

/-- The parameters that a URL sets for its file. -/
def ownParameters (url : DatabaseUrl) : List (List UInt8 × List UInt8) :=
  (if url.frozen then [(Text.bytes "immutable", Text.bytes "true")] else []) ++
    url.storage.toList.map fun storage => (Text.bytes "vfs", Text.beforeNul storage)

/-- The file of a URL. A name that is read as a name cannot hold a NUL; as a mere path it ends
there. -/
def file? (url : DatabaseUrl) : Option FileUri :=
  match url.ownParameters with
  | [] => if 0 ∈ url.name then none else FileUri.ofName? url.name
  | parameters => some { path := Text.beforeNul url.name, parameters }

end DatabaseUrl

end ChannelServer

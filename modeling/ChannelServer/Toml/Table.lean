import ChannelServer.Config.Tree
import ChannelServer.Toml.Key

/-!
# Tables

A document builds its tables statement by statement, and a table may be opened only once: by a
header, by a dotted key, or as a value. What is allowed later depends on how a table came into
being, so it is kept with the table until the document is complete.

- A table on the way of a header exists without having been opened; its own header may still come.
- A table on the way of a dotted key belongs to dotted keys alone.
- A value is never extended.
-/

namespace ChannelServer.Toml

open ChannelServer.Config (Tree)

/-- A part of a document under construction. -/
inductive Node where
  | value (tree : Tree)
  /-- A table. `open` says that no header has opened it yet, `dotted` that a dotted key made it. -/
  | table (isOpen dotted : Bool) (fields : List (String × Node))
  /-- Tables under one header, last first. -/
  | tables (last : List (String × Node)) (earlier : List (List (String × Node)))
deriving Inhabited

/-- A table under construction. -/
structure Table where
  isOpen : Bool
  dotted : Bool
  fields : List (String × Node)

namespace Table

/-- The table of a document, and the content of a new header. -/
def new : Table := ⟨false, false, []⟩

/-- The table as part of another. -/
def node (table : Table) : Node := .table table.isOpen table.dotted table.fields

/-- The part of a table under a name. -/
def get? (table : Table) (name : String) : Option Node :=
  table.fields.lookup name

/-- Takes the part under a name away. -/
def erase (table : Table) (name : String) : Table :=
  { table with fields := table.fields.filter (·.1 ≠ name) }

/-- Puts a part under a name, in place of what was there. -/
def put (table : Table) (name : String) (node : Node) : Table :=
  { table with fields := (table.erase name).fields ++ [(name, node)] }

/-- Changes the table at the end of a path. Tables on the way are made where they are missing. Of
tables under one header the last is meant. A dotted key does not enter a table with a header. -/
def change (dotted : Bool) (edit : Table → Option Table) (table : Table) :
    List String → Option Table
  | [] => edit table
  | name :: path => do
    match (table.get? name).getD (.table true dotted []) with
    | .value _ => none
    | .table isOpen isDotted fields =>
      if dotted && !isOpen then none
      else
        let inner ← change dotted edit ⟨isOpen, isDotted, fields⟩ path
        return table.put name inner.node
    | .tables last earlier =>
      let inner ← change dotted edit ⟨false, false, last⟩ path
      return table.put name (.tables inner.fields earlier)

/-- Adds a value under a key. A dotted key adds it to a table of dotted keys, a plain one to any
other table. -/
def addValue (key : Key) (tree : Tree) (table : Table) : Option Table :=
  table.change true (fun inner =>
    if inner.dotted = key.path.isEmpty then none
    else if (inner.get? key.last).isSome then none
    else some (inner.put key.last (.value tree))) key.path

/-- What a header finds under its name: the fields that are there already. -/
def headerContent? (table : Table) (name : String) : Option (List (String × Node)) :=
  match table.get? name with
  | none => some []
  | some (.table isOpen dotted fields) => if isOpen && !dotted then some fields else none
  | some _ => none

end Table

/-! ## From tables to data -/

mutual

/-- The data of a part. -/
def Node.tree : Node → Tree
  | .value tree => tree
  | .table _ _ fields => .record (fieldTrees fields)
  | .tables last earlier => .list (recordTrees earlier [.record (fieldTrees last)])

/-- The data of the parts of a table. -/
def fieldTrees : List (String × Node) → List (String × Tree)
  | [] => []
  | (name, node) :: fields => (name, node.tree) :: fieldTrees fields

/-- The data of tables, last first, in front of that of the tables after them. -/
def recordTrees : List (List (String × Node)) → List Tree → List Tree
  | [], trees => trees
  | fields :: earlier, trees => recordTrees earlier (.record (fieldTrees fields) :: trees)

end

end ChannelServer.Toml

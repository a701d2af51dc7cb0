import ChannelServer.Toml.Value

/-!
# Documents

A document is a sequence of statements, one to a line: pairs, which go into the table opened last,
and headers, which open a table or one more table of a list. The table of a header stands aside
until the next header comes and then takes its place in the document.
-/

namespace ChannelServer.Toml

open ChannelServer.Config (Tree)

/-- Where the table opened last belongs. -/
inductive Place where
  /-- It is the document itself. -/
  | root
  | single (key : Key)
  | repeated (key : Key)

/-- A document under construction: what is complete, and the table opened last. -/
structure Draft where
  root : Table := .new
  current : Table := .new
  place : Place := .root

namespace Draft

/-- One more table for the tables under a name. -/
def push (name : String) (fields : List (String × Node)) (table : Table) : Option Table :=
  match table.get? name with
  | none => some (table.put name (.tables fields []))
  | some (.tables last earlier) => some (table.put name (.tables fields (last :: earlier)))
  | some _ => none

/-- Puts the table opened last into its place. -/
def settle? (draft : Draft) : Option Table :=
  match draft.place with
  | .root => some draft.current
  | .single key =>
    draft.root.change false (fun table =>
      (table.headerContent? key.last).map fun _ => table.put key.last draft.current.node) key.path
  | .repeated key =>
    draft.root.change false (push key.last draft.current.fields) key.path

/-- Opens the table of a header. -/
def openTable? (key : Key) (draft : Draft) : Option Draft := do
  let root ← draft.settle?
  let content ← contentAt? key root
  let root ← root.change false (fun table => some (table.erase key.last)) key.path
  return { root, current := { Table.new with fields := content }, place := .single key }
where
  /-- The fields that the header finds. -/
  contentAt? (key : Key) (table : Table) : Option (List (String × Node)) :=
    descend key.last table key.path
  /-- Follows a path to the table in which the header stands. -/
  descend (last : String) (table : Table) : List String → Option (List (String × Node))
    | [] => table.headerContent? last
    | name :: path =>
      match (table.get? name).getD (.table true false []) with
      | .value _ => none
      | .table isOpen dotted fields => descend last ⟨isOpen, dotted, fields⟩ path
      | .tables fields _ => descend last ⟨false, false, fields⟩ path

/-- The header of one more table fits: what stands under its name are such tables, or nothing. -/
def repeatable (name : String) (table : Table) : Option Table :=
  match table.get? name with
  | none | some (.tables ..) => some table
  | some _ => none

/-- Opens one more table under a header. -/
def openRepeated? (key : Key) (draft : Draft) : Option Draft := do
  let root ← draft.settle?
  let root ← root.change false (repeatable key.last) key.path
  return { root, current := .new, place := .repeated key }

/-- Adds a pair to the table opened last. -/
def addPair? (key : Key) (tree : Tree) (draft : Draft) : Option Draft := do
  return { draft with current := ← draft.current.addValue key tree }

end Draft

/-- Reads a statement that is not blank, and its line end. -/
def statement? (draft : Draft) (input : List Char) : Option (Draft × List Char) :=
  match input with
  | '[' :: '[' :: rest => do
    let (key, rest) ← key? rest
    let rest ← takeLineEnd? (← mark? ']' (← mark? ']' rest))
    return (← draft.openRepeated? key, rest)
  | '[' :: rest => do
    let (key, rest) ← key? rest
    let rest ← takeLineEnd? (← mark? ']' rest)
    return (← draft.openTable? key, rest)
  | _ => do
    let ((key, tree), rest) ← pair? value? input
    let rest ← takeLineEnd? rest
    return (← draft.addPair? key tree, rest)

/-- Reads the statements of a document. `budget` bounds their number. -/
def statements? (draft : Draft) : (budget : Nat) → List Char → Option Draft
  | 0, _ => none
  | budget + 1, input =>
    match skipBlank input with
    | [] => some draft
    | '#' :: rest => do statements? draft budget (← takeLineEnd? ('#' :: rest))
    | start =>
      match takeNewline? start with
      | some rest => statements? draft budget rest
      | none => do
        let (draft, rest) ← statement? draft start
        statements? draft budget rest

/-- The data of a document, unless it is malformed. A byte order mark in front is skipped. -/
def document? (text : String) : Option Tree := do
  let input := text.toList
  let input := if input.head? = some '\ufeff' then input.tail else input
  let draft ← statements? {} (input.length + 1) input
  return (← draft.settle?).node.tree

end ChannelServer.Toml

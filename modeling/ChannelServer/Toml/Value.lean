import ChannelServer.Toml.Moment
import ChannelServer.Toml.Table

/-!
# Values

Texts, numbers, truth values, moments, lists and inline tables. Lists may stretch over lines and end
in a comma; inline tables may do neither. Lists and inline tables nest to a limited depth.
-/

namespace ChannelServer.Toml

open ChannelServer.Config (Tree)

/-- Reads a value of one part. -/
def scalar? (input : List Char) : Option (Tree × List Char) :=
  match input with
  | '"' :: _ | '\'' :: _ => (text? input).map fun (text, rest) => (.text text, rest)
  | 't' :: 'r' :: 'u' :: 'e' :: rest => some (.truth true, rest)
  | 'f' :: 'a' :: 'l' :: 's' :: 'e' :: rest => some (.truth false, rest)
  | _ => (moment? input).or ((fraction? input).or (integer? input))

/-- Reads the items of a list after its bracket. `budget` bounds the number of items. -/
def listItems? (value : List Char → Option (Tree × List Char)) (items : List Tree) :
    (budget : Nat) → List Char → Option (List Tree × List Char)
  | 0, _ => none
  | budget + 1, input => do
    match ← skipGap false input with
    | ']' :: rest => return (items.reverse, rest)
    | start =>
      let (item, rest) ← value start
      match ← skipGap false rest with
      | ',' :: rest => listItems? value (item :: items) budget rest
      | ']' :: rest => return ((item :: items).reverse, rest)
      | _ => none

/-- Reads a key, an equals sign and a value. -/
def pair? (value : List Char → Option (Tree × List Char)) (input : List Char) :
    Option ((Key × Tree) × List Char) := do
  let (key, rest) ← key? input
  let (tree, rest) ← value (skipBlank (← mark? '=' rest))
  return ((key, tree), rest)

/-- Reads the pairs of an inline table. `budget` bounds the number of pairs. -/
def inlinePairs? (value : List Char → Option (Tree × List Char)) (table : Table) :
    (budget : Nat) → List Char → Option (Table × List Char)
  | 0, _ => none
  | budget + 1, input => do
    let ((key, tree), rest) ← pair? value input
    let table ← table.addValue key tree
    match skipBlank rest with
    | ',' :: rest => inlinePairs? value table budget rest
    | '}' :: rest => return (table, rest)
    | _ => none

/-- Reads an inline table after its brace. -/
def inlineTable? (value : List Char → Option (Tree × List Char)) (input : List Char) :
    Option (Tree × List Char) :=
  match skipBlank input with
  | '}' :: rest => some (.record [], rest)
  | start => do
    let (table, rest) ← inlinePairs? value .new (start.length + 1) start
    return (table.node.tree, rest)

/-- Reads a value that nests at most so deep. -/
def nested? : (depth : Nat) → List Char → Option (Tree × List Char)
  | 0, '[' :: _ => none
  | 0, '{' :: _ => none
  | depth + 1, '[' :: rest => do
    let (items, rest) ← listItems? (nested? depth) [] (rest.length + 1) rest
    return (.list items, rest)
  | depth + 1, '{' :: rest => inlineTable? (nested? depth) rest
  | _, input => scalar? input

/-- Reads a value. -/
def value? (input : List Char) : Option (Tree × List Char) :=
  nested? (depthLimit - 1) input

end ChannelServer.Toml

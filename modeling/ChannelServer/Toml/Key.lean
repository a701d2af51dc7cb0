import ChannelServer.Toml.Quoted

/-!
# Keys

A key is one or more parts with dots between them, each a bare word or a text on one line. Blanks
may stand around every part.
-/

namespace ChannelServer.Toml

/-- A character of a bare word. -/
def isBare (c : Char) : Bool := c.isAlphanum || c == '-' || c == '_'

/-- The number of levels that neither keys nor values reach. -/
def depthLimit : Nat := 80

/-- Reads one part of a key. -/
def keyPart? (input : List Char) : Option (String × List Char) :=
  match lineText? input with
  | some part => some part
  | none =>
    let word := input.takeWhile isBare
    if word.isEmpty then none else some (String.ofList word, input.dropWhile isBare)

/-- Reads the parts of a key, at most so many. -/
def keyParts? : Nat → List Char → Option (List String × List Char)
  | 0, _ => none
  | limit + 1, input => do
    let (part, rest) ← keyPart? (skipBlank input)
    match skipBlank rest with
    | '.' :: rest =>
      let (parts, rest) ← keyParts? limit rest
      return (part :: parts, rest)
    | rest => return ([part], rest)

/-- A key: the parts before the last, and the last. -/
structure Key where
  path : List String
  last : String

/-- Reads a key. -/
def key? (input : List Char) : Option (Key × List Char) := do
  let (parts, rest) ← keyParts? (depthLimit - 1) input
  return (⟨parts.dropLast, ← parts.getLast?⟩, rest)

end ChannelServer.Toml

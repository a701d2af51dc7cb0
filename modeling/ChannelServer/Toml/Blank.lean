/-!
# Blanks, comments and line ends

What stands between the parts of a TOML document. Readers of this folder take a list of characters
and leave the rest of it; `none` means that the document is malformed.

A line ends with a line feed, alone or after a carriage return; a carriage return on its own is
malformed everywhere. Control characters other than the tab are malformed in comments and texts.
-/

namespace ChannelServer.Toml

/-- A space or a tab. -/
def isBlank (c : Char) : Bool := c == ' ' || c == '\t'

/-- A character that may stand in a comment or a text as it is. -/
def isPrintable (c : Char) : Bool := c == '\t' || (' ' ≤ c && c != '\x7f')

/-- Skips spaces and tabs. -/
def skipBlank (input : List Char) : List Char := input.dropWhile isBlank

/-- Takes a line end. -/
def takeNewline? : List Char → Option (List Char)
  | '\n' :: rest => some rest
  | '\r' :: '\n' :: rest => some rest
  | _ => none

/-- Skips a comment up to the end of its line. -/
def skipComment : List Char → List Char
  | '#' :: rest => rest.dropWhile isPrintable
  | input => input

/-- Takes what may follow a statement: blanks, a comment, and the end of the line or the document. -/
def takeLineEnd? (input : List Char) : Option (List Char) :=
  match skipComment (skipBlank input) with
  | [] => some []
  | rest => takeNewline? rest

/-- Skips blanks, line ends and comments, which is what may stand between the items of a list. -/
def skipGap (inComment : Bool) : List Char → Option (List Char)
  | [] => if inComment then none else some []
  | '\n' :: rest => skipGap false rest
  | '\r' :: '\n' :: rest => skipGap false rest
  | c :: rest =>
    if inComment then
      if isPrintable c then skipGap true rest else none
    else if isBlank c then skipGap false rest
    else if c = '#' then skipGap true rest
    else some (c :: rest)

end ChannelServer.Toml

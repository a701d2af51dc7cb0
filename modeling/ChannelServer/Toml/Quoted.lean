import ChannelServer.Toml.Blank

/-!
# Quoted texts

Texts come in four forms: basic ones between double quotes, where a backslash escapes, and literal
ones between single quotes, where nothing does; each on one line or, between three quotes, over
many. A text over many lines drops a line end that follows its opening, keeps every other line end
as a line feed, and may end in up to two quotes of its own.
-/

namespace ChannelServer.Toml

/-- The value of a hexadecimal digit. -/
def hexDigit? (c : Char) : Option Nat :=
  if '0' ≤ c ∧ c ≤ '9' then some (c.toNat - '0'.toNat)
  else if 'a' ≤ c ∧ c ≤ 'f' then some (c.toNat - 'a'.toNat + 10)
  else if 'A' ≤ c ∧ c ≤ 'F' then some (c.toNat - 'A'.toNat + 10)
  else none

/-- The character of a code point in hexadecimal digits. Surrogates are no characters. -/
def codePoint? (digits : List Char) : Option Char := do
  let code ← digits.foldlM (fun code c => (hexDigit? c).map (code * 16 + ·)) 0
  if code.isValidChar then some (Char.ofNat code) else none

/-- The character that a one-letter escape stands for. -/
def shortEscape? : Char → Option Char
  | 'b' => some '\x08'
  | 't' => some '\t'
  | 'n' => some '\n'
  | 'f' => some '\x0c'
  | 'r' => some '\r'
  | '"' => some '"'
  | '\\' => some '\\'
  | _ => none

/-- What has been read of a text, last character first, and the rest of the input. -/
def finish (read rest : List Char) : Option (String × List Char) :=
  some (String.ofList read.reverse, rest)

/-- Reads a basic text after its opening quote. -/
def basicBody (read : List Char) : List Char → Option (String × List Char)
  | [] => none
  | '"' :: rest => finish read rest
  | '\\' :: 'u' :: a :: b :: c :: d :: rest => do
    basicBody ((← codePoint? [a, b, c, d]) :: read) rest
  | '\\' :: 'U' :: a :: b :: c :: d :: e :: f :: g :: h :: rest => do
    basicBody ((← codePoint? [a, b, c, d, e, f, g, h]) :: read) rest
  | '\\' :: c :: rest => do basicBody ((← shortEscape? c) :: read) rest
  | c :: rest => if isPrintable c && c != '\\' then basicBody (c :: read) rest else none

/-- Reads a literal text after its opening quote. -/
def literalBody (read : List Char) : List Char → Option (String × List Char)
  | [] => none
  | '\'' :: rest => finish read rest
  | c :: rest => if isPrintable c then literalBody (c :: read) rest else none

/-- A backslash before these characters continues the line: only blanks stand before the line
end. -/
def continuesLine (input : List Char) : Bool :=
  (takeNewline? (skipBlank input)).isSome

/-- Reads a basic text over many lines after its opening. While `skipping`, blanks and line ends
after a continued line are dropped. -/
def basicLines (skipping : Bool) (read : List Char) : List Char → Option (String × List Char)
  | [] => none
  | '"' :: '"' :: '"' :: '"' :: '"' :: rest => finish ('"' :: '"' :: read) rest
  | '"' :: '"' :: '"' :: '"' :: rest => finish ('"' :: read) rest
  | '"' :: '"' :: '"' :: rest => finish read rest
  | '\r' :: '\n' :: rest =>
    if skipping then basicLines true read rest else basicLines false ('\n' :: read) rest
  | '\n' :: rest =>
    if skipping then basicLines true read rest else basicLines false ('\n' :: read) rest
  | '\\' :: 'u' :: a :: b :: c :: d :: rest => do
    basicLines false ((← codePoint? [a, b, c, d]) :: read) rest
  | '\\' :: 'U' :: a :: b :: c :: d :: e :: f :: g :: h :: rest => do
    basicLines false ((← codePoint? [a, b, c, d, e, f, g, h]) :: read) rest
  | '\\' :: c :: rest =>
    if continuesLine (c :: rest) then basicLines true read (c :: rest)
    else do basicLines false ((← shortEscape? c) :: read) rest
  | c :: rest =>
    if skipping && isBlank c then basicLines true read rest
    else if isPrintable c && c != '\\' then basicLines false (c :: read) rest
    else none

/-- Reads a literal text over many lines after its opening. -/
def literalLines (read : List Char) : List Char → Option (String × List Char)
  | [] => none
  | '\'' :: '\'' :: '\'' :: '\'' :: '\'' :: rest => finish ('\'' :: '\'' :: read) rest
  | '\'' :: '\'' :: '\'' :: '\'' :: rest => finish ('\'' :: read) rest
  | '\'' :: '\'' :: '\'' :: rest => finish read rest
  | '\r' :: '\n' :: rest => literalLines ('\n' :: read) rest
  | '\n' :: rest => literalLines ('\n' :: read) rest
  | c :: rest => if isPrintable c then literalLines (c :: read) rest else none

/-- Drops the line end that follows the opening of a text over many lines. -/
def dropFirstNewline (input : List Char) : List Char :=
  (takeNewline? input).getD input

/-- Reads a text on one line. -/
def lineText? : List Char → Option (String × List Char)
  | '"' :: rest => basicBody [] rest
  | '\'' :: rest => literalBody [] rest
  | _ => none

/-- Reads a text of any form. -/
def text? : List Char → Option (String × List Char)
  | '"' :: '"' :: '"' :: rest => basicLines false [] (dropFirstNewline rest)
  | '\'' :: '\'' :: '\'' :: rest => literalLines [] (dropFirstNewline rest)
  | input => lineText? input

end ChannelServer.Toml

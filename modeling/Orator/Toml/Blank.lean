/-! What separates the parts of a TOML document: blanks, line ends and comments. A reader takes a text and
    gives back the text behind what it read. -/

namespace Orator.Toml

def isBlank (c : Char) : Bool :=
  c = ' ' || c = '\t'

def skipBlanks (text : List Char) : List Char :=
  text.dropWhile isBlank

/-- Whether a character may stand in a comment or, unescaped, in a string: no control character but a tab. -/
def isPlain (c : Char) : Bool :=
  c = '\t' || (0x20 ≤ c.toNat && c.toNat ≠ 0x7F)

/-- The text behind a line end. A carriage return is one only before a line feed. -/
def lineEnd? : List Char → Option (List Char)
  | '\n' :: rest => some rest
  | '\r' :: '\n' :: rest => some rest
  | _ => none

/-- Skips a comment, if one begins here, up to the end of its line. -/
def skipComment : List Char → List Char
  | '#' :: rest => rest.dropWhile isPlain
  | text => text

/-- Skips what may stand behind an expression, with the end of its line. -/
def finishLine? (text : List Char) : Option (List Char) :=
  match skipComment (skipBlanks text) with
  | [] => some []
  | rest => lineEnd? rest

/-- Skips blanks, comments and line ends; the flag tells whether a comment has begun before. -/
def skipFrom (inComment : Bool) : List Char → List Char
  | '\n' :: rest => skipFrom false rest
  | '\r' :: '\n' :: rest => skipFrom false rest
  | c :: rest =>
    if inComment && isPlain c then skipFrom true rest
    else if !inComment && isBlank c then skipFrom false rest
    else if !inComment && c = '#' then skipFrom true rest
    else c :: rest
  | [] => []

/-- Skips all blanks, comments and line ends in front, as between the elements of an array. -/
def skipSpace (text : List Char) : List Char :=
  skipFrom false text

end Orator.Toml

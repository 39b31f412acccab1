import Orator.Json.Reader
import Orator.Toml.Blank

/-! The four kinds of TOML string. Readers begin behind the opening quotes. -/

namespace Orator.Toml

open Json (natOfHex?)

/-! ### Escapes -/

/-- The character behind a backslash that stands for another one. -/
def unescape? : Char → Option Char
  | '"' => some '"'
  | '\\' => some '\\'
  | 'b' => some '\x08'
  | 'e' => some '\x1b'
  | 'f' => some '\x0c'
  | 'n' => some '\n'
  | 'r' => some '\r'
  | 't' => some '\t'
  | _ => none

/-- The character whose code point hexadecimal digits write; surrogates are none. -/
def charOfHex? (digits : List Char) : Option Char :=
  (natOfHex? digits).bind fun code => if code.isValidChar then some (Char.ofNat code) else none

/-- Puts a character, if there is one, in front of a string that has been read. -/
def prepend? (c : Option Char) (read : Option (List Char × List Char)) : Option (List Char × List Char) :=
  match c, read with
  | some c, some (body, rest) => some (c :: body, rest)
  | _, _ => none

/-! ### On one line -/

def literal? (text : List Char) : Option (List Char × List Char) :=
  let isBody (c : Char) : Bool := isPlain c && c ≠ '\''
  match text.dropWhile isBody with
  | '\'' :: rest => some (text.takeWhile isBody, rest)
  | _ => none

def basic? : List Char → Option (List Char × List Char)
  | [] => none
  | '"' :: rest => some ([], rest)
  | '\\' :: 'x' :: a :: b :: rest => prepend? (charOfHex? [a, b]) (basic? rest)
  | '\\' :: 'u' :: a :: b :: c :: d :: rest => prepend? (charOfHex? [a, b, c, d]) (basic? rest)
  | '\\' :: 'U' :: a :: b :: c :: d :: e :: f :: g :: h :: rest =>
    prepend? (charOfHex? [a, b, c, d, e, f, g, h]) (basic? rest)
  | '\\' :: c :: rest => prepend? (unescape? c) (basic? rest)
  | c :: rest => if isPlain c && c ≠ '\\' then prepend? (some c) (basic? rest) else none

/-! ### On several lines -/

/-- A line end right behind the opening quotes is no part of the string. -/
def dropFirstLineEnd (text : List Char) : List Char :=
  (lineEnd? text).getD text

/-- The closing quotes, if three or more stand here. One or two more belong to the string. -/
def closing? (quote : Char) (text : List Char) : Option (List Char × List Char) :=
  let count := min 5 (text.takeWhile (· = quote)).length
  if count < 3 then none else some (List.replicate (count - 3) quote, text.drop count)

/-- A string in three single quotes, behind a first line end. Line ends are kept as they are. -/
def linesLiteral? : List Char → Option (List Char × List Char)
  | [] => none
  | '\r' :: '\n' :: rest => prepend? (some '\r') (prepend? (some '\n') (linesLiteral? rest))
  | c :: rest =>
    match closing? '\'' (c :: rest) with
    | some closed => some closed
    | none => if c = '\n' || isPlain c then prepend? (some c) (linesLiteral? rest) else none

def multilineLiteral? (text : List Char) : Option (List Char × List Char) :=
  linesLiteral? (dropFirstLineEnd text)

/-- Whether a backslash before `text` ends its line. -/
def endsLine (text : List Char) : Bool :=
  (lineEnd? (skipBlanks text)).isSome

/-- A string in three double quotes, behind a first line end. Line ends are kept as they are, except that a
    backslash at the end of a line takes with it all blanks and line ends that follow; the flag tells
    whether one has just been met. -/
def linesBasic? (joining : Bool) : List Char → Option (List Char × List Char)
  | [] => none
  | '\r' :: '\n' :: rest =>
    if joining then linesBasic? true rest
    else prepend? (some '\r') (prepend? (some '\n') (linesBasic? false rest))
  | '\\' :: 'x' :: a :: b :: rest => prepend? (charOfHex? [a, b]) (linesBasic? false rest)
  | '\\' :: 'u' :: a :: b :: c :: d :: rest => prepend? (charOfHex? [a, b, c, d]) (linesBasic? false rest)
  | '\\' :: 'U' :: a :: b :: c :: d :: e :: f :: g :: h :: rest =>
    prepend? (charOfHex? [a, b, c, d, e, f, g, h]) (linesBasic? false rest)
  | '\\' :: c :: rest =>
    if endsLine (c :: rest) then linesBasic? true (c :: rest)
    else prepend? (unescape? c) (linesBasic? false rest)
  | c :: rest =>
    match closing? '"' (c :: rest) with
    | some closed => some closed
    | none =>
      if joining && (c = '\n' || isBlank c) then linesBasic? true rest
      else if c = '\n' || isPlain c && c ≠ '\\' then prepend? (some c) (linesBasic? false rest)
      else none

def multilineBasic? (text : List Char) : Option (List Char × List Char) :=
  linesBasic? false (dropFirstLineEnd text)

/-! ### Any of them -/

/-- A string of any kind, if one begins here. -/
def quoted? : List Char → Option (List Char × List Char)
  | '"' :: '"' :: '"' :: rest => multilineBasic? rest
  | '\'' :: '\'' :: '\'' :: rest => multilineLiteral? rest
  | '"' :: rest => basic? rest
  | '\'' :: rest => literal? rest
  | _ => none

end Orator.Toml

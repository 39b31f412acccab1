import Orator.Json.Value

/-! Reading JSON. Each reader takes a text and gives back what it read and the text behind it. -/

namespace Orator.Json

/-! ### Blanks and numbers -/

def isBlank (c : Char) : Bool :=
  c = ' ' || c = '\t' || c = '\n' || c = '\r'

def skipBlanks (text : List Char) : List Char :=
  text.dropWhile isBlank

/-- The digits in front, at least one. -/
def digits? (text : List Char) : Option (List Char × List Char) :=
  let digits := text.takeWhile Char.isDigit
  if digits.isEmpty then none else some (digits, text.dropWhile Char.isDigit)

def natOfDigits (digits : List Char) : Nat :=
  digits.foldl (fun n c => 10 * n + (c.toNat - '0'.toNat)) 0

/-- Digits without a zero in front of others. -/
def whole? (text : List Char) : Option (Nat × List Char) :=
  match digits? text with
  | some ('0' :: _ :: _, _) | none => none
  | some (digits, rest) => some (natOfDigits digits, rest)

/-- Skips a fraction, if one begins here; it must have digits. -/
def skipFraction? : List Char → Option (Bool × List Char)
  | '.' :: rest => (digits? rest).map fun (_, rest) => (true, rest)
  | rest => some (false, rest)

/-- Skips an exponent, if one begins here; it must have digits. -/
def skipExponent? : List Char → Option (Bool × List Char)
  | c :: rest =>
    if c = 'e' || c = 'E' then
      let unsigned := match rest with
        | '+' :: rest | '-' :: rest => rest
        | _ => rest
      (digits? unsigned).map fun (_, rest) => (true, rest)
    else some (false, c :: rest)
  | [] => some (false, [])

def number? (text : List Char) : Option (Value × List Char) := do
  let (negative, text) := match text with
    | '-' :: rest => (true, rest)
    | _ => (false, text)
  let (n, rest) ← whole? text
  let (fraction, rest) ← skipFraction? rest
  let (exponent, rest) ← skipExponent? rest
  let integer : Int := if negative then -n else n
  let plain := !fraction && !exponent && !(negative && n = 0)
  some (.number (if plain then some integer else none), rest)

/-! ### Strings -/

def hexDigit? (c : Char) : Option Nat :=
  if c.isDigit then some (c.toNat - '0'.toNat)
  else if 'a' ≤ c && c ≤ 'f' then some (c.toNat - 'a'.toNat + 10)
  else if 'A' ≤ c && c ≤ 'F' then some (c.toNat - 'A'.toNat + 10)
  else none

def natOfHex? (digits : List Char) : Option Nat :=
  digits.foldlM (fun n c => (hexDigit? c).map (16 * n + ·)) 0

/-- What a character of a string literal stands for: all of a character, or one unit of the two that an
    escape needs for a character beyond the first plane. -/
inductive Piece where
  | char (c : Char)
  | high (unit : Nat)
  | low (unit : Nat)

def Piece.ofUnit (unit : Nat) : Piece :=
  if 0xD800 ≤ unit && unit < 0xDC00 then .high unit
  else if 0xDC00 ≤ unit && unit < 0xE000 then .low unit
  else .char (Char.ofNat unit)

/-- The character behind a backslash that stands for another one. -/
def unescape? : Char → Option Char
  | '"' => some '"'
  | '\\' => some '\\'
  | '/' => some '/'
  | 'b' => some '\x08'
  | 'f' => some '\x0c'
  | 'n' => some '\n'
  | 'r' => some '\r'
  | 't' => some '\t'
  | _ => none

/-- The pieces up to the closing quote. Control characters must be escaped. -/
def pieces? : List Char → Option (List Piece × List Char)
  | '"' :: rest => some ([], rest)
  | '\\' :: 'u' :: a :: b :: c :: d :: rest => do
    let unit ← natOfHex? [a, b, c, d]
    let (pieces, rest) ← pieces? rest
    some (.ofUnit unit :: pieces, rest)
  | '\\' :: c :: rest => do
    let c ← unescape? c
    let (pieces, rest) ← pieces? rest
    some (.char c :: pieces, rest)
  | c :: rest =>
    if c.toNat < 0x20 then none
    else do
      let (pieces, rest) ← pieces? rest
      some (.char c :: pieces, rest)
  | [] => none

/-- The text of the pieces; none if a surrogate has no partner. -/
def joinPieces? : List Piece → Option (List Char)
  | [] => some []
  | .char c :: rest => (joinPieces? rest).map (c :: ·)
  | .high h :: .low l :: rest =>
    (joinPieces? rest).map (Char.ofNat (0x10000 + (h - 0xD800) * 0x400 + (l - 0xDC00)) :: ·)
  | .high _ :: _ | .low _ :: _ => none

/-- A string whose opening quote has been read. -/
def string? (text : List Char) : Option (Option String × List Char) :=
  (pieces? text).map fun (pieces, rest) => ((joinPieces? pieces).map String.ofList, rest)

/-! ### Values -/

/-- The text behind a word that `text` must begin with. -/
def word? : List Char → List Char → Option (List Char)
  | [], text => some text
  | c :: word, d :: text => if c = d then word? word text else none
  | _ :: _, [] => none

mutual

/-- A value behind blanks. Each level of nesting takes one from the first argument. -/
def value? : Nat → List Char → Option (Value × List Char)
  | 0, _ => none
  | fuel + 1, text =>
    match skipBlanks text with
    | '{' :: rest =>
      match skipBlanks rest with
      | '}' :: rest => some (.object [], rest)
      | rest => (members? fuel rest).map fun (members, rest) => (.object members, rest)
    | '[' :: rest =>
      match skipBlanks rest with
      | ']' :: rest => some (.array [], rest)
      | rest => (elements? fuel rest).map fun (elements, rest) => (.array elements, rest)
    | '"' :: rest => (string? rest).map fun (text, rest) => (.string text, rest)
    | 't' :: rest => (word? ['r', 'u', 'e'] rest).map fun rest => (.bool true, rest)
    | 'f' :: rest => (word? ['a', 'l', 's', 'e'] rest).map fun rest => (.bool false, rest)
    | 'n' :: rest => (word? ['u', 'l', 'l'] rest).map fun rest => (.null, rest)
    | text => number? text

/-- At least one element, up to the closing bracket. -/
def elements? : Nat → List Char → Option (List Value × List Char)
  | 0, _ => none
  | fuel + 1, text =>
    match value? fuel text with
    | none => none
    | some (element, rest) =>
      match skipBlanks rest with
      | ',' :: rest => (elements? fuel rest).map fun (elements, rest) => (element :: elements, rest)
      | ']' :: rest => some ([element], rest)
      | _ => none

/-- At least one member, up to the closing brace. -/
def members? : Nat → List Char → Option (List (Option String × Value) × List Char)
  | 0, _ => none
  | fuel + 1, text =>
    match skipBlanks text with
    | '"' :: rest =>
      match string? rest with
      | none => none
      | some (key, rest) =>
        match skipBlanks rest with
        | ':' :: rest =>
          match value? fuel rest with
          | none => none
          | some (value, rest) =>
            match skipBlanks rest with
            | ',' :: rest => (members? fuel rest).map fun (members, rest) => ((key, value) :: members, rest)
            | '}' :: rest => some ([(key, value)], rest)
            | _ => none
        | _ => none
    | _ => none

end

/-- The value that a text writes, with nothing but blanks around it. -/
def parse? (text : String) : Option Value :=
  let chars := text.toList
  match value? (chars.length + 1) chars with
  | some (value, rest) => if (skipBlanks rest).isEmpty then some value else none
  | none => none

end Orator.Json

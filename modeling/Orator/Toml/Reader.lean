import Orator.Toml.Moment
import Orator.Toml.Number
import Orator.Toml.Quoted
import Orator.Toml.Table

/-! Reading TOML documents. A document is read statement by statement, and each statement at once takes its
    place in the tables. -/

namespace Orator.Toml

/-! ### Keys -/

def isBare (c : Char) : Bool :=
  c.isAlphanum || c = '-' || c = '_'

/-- One key: bare, or a string on one line. -/
def simpleKey? : List Char → Option (String × List Char)
  | '"' :: rest => (basic? rest).map fun (key, rest) => (String.ofList key, rest)
  | '\'' :: rest => (literal? rest).map fun (key, rest) => (String.ofList key, rest)
  | text =>
    let key := text.takeWhile isBare
    if key.isEmpty then none else some (String.ofList key, text.dropWhile isBare)

/-- How many keys may be joined by points, and how deep arrays and tables in braces may be nested. -/
def maxDepth : Nat := 80

/-- Keys with points between them, and the blanks behind the last. The first argument bounds their number. -/
def keysUpTo? : Nat → List Char → Option (List String × List Char)
  | 0, _ => none
  | fuel + 1, text => do
    let (key, rest) ← simpleKey? (skipBlanks text)
    match skipBlanks rest with
    | '.' :: rest =>
      let (keys, rest) ← keysUpTo? fuel rest
      some (key :: keys, rest)
    | rest => some ([key], rest)

def keys? (text : List Char) : Option (List String × List Char) :=
  keysUpTo? maxDepth text

/-! ### Values -/

/-- The characters of words, numbers, dates and times. -/
def isWord (c : Char) : Bool :=
  c.isAlphanum || c = '+' || c = '-' || c = '_' || c = '.' || c = ':'

/-- What a word stands for. -/
def ofWord? (word : List Char) : Option Value :=
  if word = ['t', 'r', 'u', 'e'] then some (.boolean true)
  else if word = ['f', 'a', 'l', 's', 'e'] then some (.boolean false)
  else
    match integer? word with
    | some n => some (.integer n)
    | none =>
      if isFloat word then some .float
      else if isMoment word then some .moment
      else none

/-- A word, or a date and a time with one blank between them. -/
def word? (text : List Char) : Option (Value × List Char) :=
  let word := text.takeWhile isWord
  let rest := text.dropWhile isWord
  match date? word, rest with
  | some [], ' ' :: c :: more =>
    if c.isDigit then
      let time := (c :: more).takeWhile isWord
      (ofWord? (word ++ ' ' :: time)).map fun value => (value, (c :: more).dropWhile isWord)
    else (ofWord? word).map fun value => (value, rest)
  | _, _ => (ofWord? word).map fun value => (value, rest)

mutual

/-- A value. The first argument bounds the steps, the second how much deeper values may be nested. -/
def value? : Nat → Nat → List Char → Option (Value × List Char)
  | 0, _, _ => none
  | fuel + 1, depth, text =>
    match text with
    | '[' :: rest =>
      match depth with
      | 0 => none
      | depth + 1 => (elements? fuel depth rest).map fun (elements, rest) => (.array elements, rest)
    | '{' :: rest =>
      match depth with
      | 0 => none
      | depth + 1 =>
        (members? fuel depth [] rest).map fun (entries, rest) => (.inlineTable entries, rest)
    | _ =>
      match quoted? text with
      | some (body, rest) => some (.string (String.ofList body), rest)
      | none => word? text

/-- The elements of an array up to its closing bracket. A comma may follow the last one. -/
def elements? : Nat → Nat → List Char → Option (List Value × List Char)
  | 0, _, _ => none
  | fuel + 1, depth, text =>
    match skipSpace text with
    | ']' :: rest => some ([], rest)
    | rest =>
      match value? fuel depth rest with
      | none => none
      | some (element, rest) =>
        match skipSpace rest with
        | ',' :: rest => (elements? fuel depth rest).map fun (elements, rest) => (element :: elements, rest)
        | ']' :: rest => some ([element], rest)
        | _ => none

/-- The entries of a table in braces up to its closing brace. A comma may follow the last one. -/
def members? : Nat → Nat → Entries → List Char → Option (Entries × List Char)
  | 0, _, _, _ => none
  | fuel + 1, depth, entries, text =>
    match skipSpace text with
    | '}' :: rest => some (entries, rest)
    | rest =>
      match keys? rest with
      | none => none
      | some (path, rest) =>
        match skipSpace rest with
        | '=' :: rest =>
          match value? fuel depth (skipSpace rest) with
          | none => none
          | some (value, rest) =>
            match entries.assign value path with
            | none => none
            | some entries =>
              match skipSpace rest with
              | ',' :: rest => members? fuel depth entries rest
              | '}' :: rest => some (entries, rest)
              | _ => none
        | _ => none

end

/-! ### Statements -/

/-- What has been read so far: all tables, and the path of the one that is being filled. -/
structure Document where
  root : Entries := []
  current : List String := []

/-- The path in a header that ends with `close`. -/
def header? (close : List Char) (text : List Char) : Option (List String × List Char) :=
  match keys? text with
  | some (path, rest) => (Json.word? close rest).map fun rest => (path, rest)
  | none => none

/-- Changes the tables where the path of a header leads. -/
def Document.openAt? (d : Document) (change : String → Entries → Option Entries) (path : List String) :
    Option Document := do
  let key ← path.getLast?
  let root ← d.root.within (change key) path.dropLast
  some { root, current := path }

/-- One statement, behind blanks: a header or a key with its value. The first argument bounds the steps that
    the value takes. -/
def Document.statement? (fuel : Nat) (d : Document) (text : List Char) : Option (Document × List Char) :=
  match text with
  | '[' :: '[' :: rest => do
    let (path, rest) ← header? [']', ']'] rest
    some (← d.openAt? (fun key entries => entries.addTable key) path, rest)
  | '[' :: rest => do
    let (path, rest) ← header? [']'] rest
    some (← d.openAt? (fun key entries => entries.openTable key) path, rest)
  | _ =>
    match keys? text with
    | some (path, '=' :: rest) => do
      let (value, rest) ← value? fuel maxDepth (skipBlanks rest)
      let root ← d.root.within (·.assign value path) d.current
      some ({ d with root }, rest)
    | _ => none

/-- All statements up to the end. The first argument bounds the number of characters. -/
def Document.readUpTo? : Nat → Document → List Char → Option Document
  | 0, _, _ => none
  | fuel + 1, d, text =>
    match skipSpace text with
    | [] => some d
    | rest => do
      let (d, rest) ← d.statement? (fuel + 1) rest
      readUpTo? fuel d (← finishLine? rest)

/-- The entries of a whole document; a byte order mark may stand in front. -/
def parse? (text : String) : Option Entries :=
  let chars := match text.toList with
    | '\uFEFF' :: rest => rest
    | chars => chars
  (Document.readUpTo? (chars.length + 1) {} chars).map (·.root)

end Orator.Toml

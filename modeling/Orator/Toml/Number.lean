import Orator.Json.Reader

/-! Numbers in TOML: integers of up to 128 bits in four bases, and floats. Single underscores may part
    digits. -/

namespace Orator.Toml

open Json (natOfDigits hexDigit?)

/-- The digits of a group that may be parted by underscores; there must be one on each side of each. -/
def ungroup? : List Char → Option (List Char)
  | [] => none
  | ['_'] => none
  | [c] => some [c]
  | '_' :: _ => none
  | c :: '_' :: rest => (ungroup? rest).map (c :: ·)
  | c :: rest => (ungroup? rest).map (c :: ·)

/-- The number that digits write in a base, all of them below it. -/
def natInBase? (base : Nat) (digits : List Char) : Option Nat := do
  let digits ← ungroup? digits
  digits.foldlM (fun n c => do
    let digit ← hexDigit? c
    if digit < base then some (base * n + digit) else none) 0

/-- A decimal number without a needless zero in front. -/
def decimal? (digits : List Char) : Option Nat :=
  match digits with
  | '0' :: _ :: _ => none
  | _ => natInBase? 10 digits

/-- The sign in front, if there is one, and what stands behind it. -/
def splitSign : List Char → Option Bool × List Char
  | '+' :: rest => (some false, rest)
  | '-' :: rest => (some true, rest)
  | text => (none, text)

/-- Integers fit 128 bits: with a sign bit if they are negative, else without. -/
def isStorable (n : Int) : Bool :=
  -(Nat.pow 2 127 : Int) ≤ n && n < (Nat.pow 2 128 : Int)

/-- The integer that a text writes. Only decimal numbers have a sign. -/
def integer? (text : List Char) : Option Int := do
  let (sign, digits) := splitSign text
  let magnitude ← match digits with
    | '0' :: 'x' :: digits => if sign.isNone then natInBase? 16 digits else none
    | '0' :: 'o' :: digits => if sign.isNone then natInBase? 8 digits else none
    | '0' :: 'b' :: digits => if sign.isNone then natInBase? 2 digits else none
    | digits => decimal? digits
  let n : Int := if sign = some true then -magnitude else magnitude
  if isStorable n then some n else none

/-! ### Floats -/

/-- Whether a decimal number, the digits times a power of ten, rounds to a double that is finite. -/
def isFinite (digits : Nat) (exponent : Int) : Bool :=
  let limit := (Nat.pow 2 54 - 1) * Nat.pow 2 970
  let places : Int := (Nat.toDigits 10 digits).length + exponent
  if digits = 0 || places < 300 then true
  else if 310 < places then false
  else digits * Nat.pow 10 exponent.toNat < limit * Nat.pow 10 (-exponent).toNat

/-- The digits of a fraction, if `text` has one, and what stands behind it. -/
def fraction? : List Char → Option (List Char × List Char)
  | '.' :: rest =>
    let isBody (c : Char) : Bool := c.isDigit || c = '_'
    match ungroup? (rest.takeWhile isBody) with
    | some digits => some (digits, rest.dropWhile isBody)
    | none => none
  | text => some ([], text)

/-- The exponent, if `text` is one; zero, if it is empty. -/
def exponent? : List Char → Option Int
  | [] => some 0
  | c :: rest =>
    if c = 'e' || c = 'E' then
      let (sign, digits) := splitSign rest
      (natInBase? 10 digits).map fun n => if sign = some true then -(n : Int) else n
    else none

/-- Whether a text writes a float that is finite, an infinity, or no number. A finite one has a fraction or
    an exponent. -/
def isFloat (text : List Char) : Bool :=
  let (_, unsigned) := splitSign text
  unsigned == ['i', 'n', 'f'] || unsigned == ['n', 'a', 'n'] ||
    let isBody (c : Char) : Bool := c.isDigit || c = '_'
    let whole := unsigned.takeWhile isBody
    let rest := unsigned.dropWhile isBody
    !rest.isEmpty && match decimal? whole, fraction? rest with
    | some n, some (digits, rest) =>
      match exponent? rest with
      | some e => isFinite (n * Nat.pow 10 digits.length + natOfDigits digits) (e - digits.length)
      | none => false
    | _, _ => false

end Orator.Toml

/-! JSON values as far as records are made of them. -/

namespace Orator.Json

inductive Value where
  | null
  | bool (b : Bool)
  /-- The integer that is written; none for a number with a fraction, an exponent, or a minus before zero. -/
  | number (n : Option Int)
  /-- The text that is written; none if an escape leaves half of a surrogate pair in it. -/
  | string (text : Option String)
  | array (elements : List Value)
  /-- Members in their order; a key may occur again. -/
  | object (members : List (Option String × Value))

end Orator.Json

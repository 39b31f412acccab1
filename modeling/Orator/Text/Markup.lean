import Orator.Text.Cut

/-! Removing markup from prose: tags are dropped, then the five predefined entities are decoded once. -/

namespace Orator.Text

/-! ### Tags -/

/-- Drops every tag: a '<' with all up to the nearest '>' behind it, whatever stands between. A '<' with
    no '>' behind it is text. -/
def removeTags : List Char → List Char
  | [] => []
  | c :: rest =>
    if c = '<' then
      match h : cutFirst? '>' rest with
      | some (_, after) =>
        have : after.length ≤ rest.length := Nat.le_of_lt (length_of_cutFirst? h)
        removeTags after
      | none => c :: rest
    else c :: removeTags rest
termination_by text => text.length

/-! ### Entities -/

/-- The characters that markup can only write by name. -/
inductive Entity where
  | lt | gt | amp | quot | apos
deriving DecidableEq, Repr

namespace Entity

def all : List Entity := [lt, gt, amp, quot, apos]

def char : Entity → Char
  | lt => '<'
  | gt => '>'
  | amp => '&'
  | quot => '"'
  | apos => '\''

def name : Entity → List Char
  | lt => ['l', 't']
  | gt => ['g', 't']
  | amp => ['a', 'm', 'p']
  | quot => ['q', 'u', 'o', 't']
  | apos => ['a', 'p', 'o', 's']

def written (e : Entity) : List Char :=
  '&' :: e.name ++ [';']

/-- The entity that `text` begins with, and what stands behind it. -/
def split? (text : List Char) : Option (Entity × List Char) :=
  (all.find? (·.written.isPrefixOf text)).map fun e => (e, text.drop e.written.length)

theorem length_of_split? {text after : List Char} {e : Entity} (h : split? text = some (e, after)) :
    after.length < text.length := by
  obtain ⟨e, found, heq⟩ := Option.map_eq_some_iff.mp h
  cases heq
  have opens := List.find?_some found
  have := (List.isPrefixOf_iff_prefix.mp opens).length_le
  simp [written] at this ⊢
  omega

end Entity

/-- Writes each entity as its character. What an entity stands for is not looked at again. -/
def decodeEntities : List Char → List Char
  | [] => []
  | c :: rest =>
    match h : Entity.split? (c :: rest) with
    | some (e, after) =>
      have : after.length ≤ rest.length := Nat.le_of_lt_succ (Entity.length_of_split? h)
      e.char :: decodeEntities after
    | none => c :: decodeEntities rest
termination_by text => text.length

/-! ### Prose -/

/-- The text to be read aloud: what is left of `text` without its markup. -/
def stripMarkup (text : List Char) : List Char :=
  decodeEntities (removeTags text)

end Orator.Text

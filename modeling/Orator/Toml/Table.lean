/-! TOML tables and the rules by which they grow: no key is written twice, and a table that is once
    complete stays as it is. -/

namespace Orator.Toml

inductive Origin where
  /-- A header opened it. -/
  | header
  /-- The header of a table inside it did; its own may still come. -/
  | implied
  /-- A dotted key opened it or has led through it. -/
  | dotted
deriving DecidableEq

mutual

inductive Value where
  | string (text : String)
  | integer (n : Int)
  | float
  | boolean (b : Bool)
  | moment
  | array (elements : List Value)
  /-- Written in braces, so nothing can be added. -/
  | inlineTable (entries : List (String × Node))

/-- What a key of a table stands for. -/
inductive Node where
  | value (v : Value)
  | table (origin : Origin) (entries : List (String × Node))
  /-- Tables under one key, the latest first. -/
  | tables (latest : List (String × Node)) (earlier : Nat)

end

abbrev Entries := List (String × Node)

/-- Puts a node under a key that is there already, or adds it at the end. -/
def Entries.put (key : String) (node : Node) : Entries → Entries
  | [] => [(key, node)]
  | (other, old) :: rest => if other = key then (key, node) :: rest else (other, old) :: Entries.put key node rest

/-! ### Growing a table -/

/-- Changes the table that a header's path leads to. Tables on the way that are not there are implied; of
    several tables under one key the latest is meant. -/
def Entries.within (change : Entries → Option Entries) : List String → Entries → Option Entries
  | [], entries => change entries
  | key :: path, entries =>
    match entries.lookup key with
    | none => (Entries.within change path []).map fun inner => entries.put key (.table .implied inner)
    | some (.table origin inner) =>
      (Entries.within change path inner).map fun inner => entries.put key (.table origin inner)
    | some (.tables latest earlier) =>
      (Entries.within change path latest).map fun latest => entries.put key (.tables latest earlier)
    | some (.value _) => none

/-- Adds a value under a dotted key. No table on the way may have a header of its own, except that the key
    may lead through one of several tables under one key. -/
def Entries.assign (value : Value) : List String → Entries → Option Entries
  | [], _ => none
  | [key], entries =>
    match entries.lookup key with
    | none => some (entries.put key (.value value))
    | some _ => none
  | key :: path, entries =>
    match entries.lookup key with
    | none => (Entries.assign value path []).map fun inner => entries.put key (.table .dotted inner)
    | some (.table origin inner) =>
      if origin = .header then none
      else (Entries.assign value path inner).map fun inner => entries.put key (.table .dotted inner)
    | some (.tables latest earlier) =>
      if path.length = 1 then none
      else (Entries.assign value path latest).map fun latest => entries.put key (.tables latest earlier)
    | some (.value _) => none

/-- Opens the table of a header; it must not have been opened or written to before. -/
def Entries.openTable (key : String) (entries : Entries) : Option Entries :=
  match entries.lookup key with
  | none => some (entries.put key (.table .header []))
  | some (.table .implied inner) => some (entries.put key (.table .header inner))
  | some _ => none

/-- Begins another table under a key that stands for several. -/
def Entries.addTable (key : String) (entries : Entries) : Option Entries :=
  match entries.lookup key with
  | none => some (entries.put key (.tables [] 0))
  | some (.tables _ earlier) => some (entries.put key (.tables [] (earlier + 1)))
  | some _ => none

end Orator.Toml

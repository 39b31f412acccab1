/-! A file tree as far as this program looks at one: which paths are directories, and what files hold. -/

namespace Orator

inductive FileNode where
  | directory
  | file (contents : List UInt8)
deriving DecidableEq, Repr

inductive FileFault where
  | notFound | notDirectory | isDirectory | nameTooLong | holdsNul | notText
deriving DecidableEq, Repr

def FileFault.message : FileFault → String
  | notFound => "No such file or directory (os error 2)"
  | notDirectory => "Not a directory (os error 20)"
  | isDirectory => "Is a directory (os error 21)"
  | nameTooLong => "File name too long (os error 36)"
  | holdsNul => "file name contained an unexpected NUL byte"
  | notText => "stream did not contain valid UTF-8"

/-- All nodes below the root by the names that lead to them, and the names that lead to the directory in
    which relative paths start. -/
structure FileTree where
  nodes : List (List String × FileNode)
  working : List String := []

namespace FileTree

def node? (t : FileTree) (names : List String) : Option FileNode :=
  if names.isEmpty then some .directory else t.nodes.lookup names

/-- Lengths in bytes up to which a name and a whole path can be looked up. -/
def maxName : Nat := 255
def maxPath : Nat := 4095

/-- One name looked up in the place reached so far, which must be a directory. -/
def enter (t : FileTree) (place : List String) (name : String) : Except FileFault (List String) :=
  match t.node? place with
  | some .directory =>
    if name = "" ∨ name = "." then .ok place
    else if name = ".." then .ok place.dropLast
    else if maxName < name.utf8ByteSize then .error .nameTooLong
    else if (t.node? (place ++ [name])).isSome then .ok (place ++ [name])
    else .error .notFound
  | some (.file _) => .error .notDirectory
  | none => .error .notFound

def resolve (t : FileTree) (path : String) : Except FileFault FileNode := do
  if path.toList.contains '\x00' then throw .holdsNul
  if path.isEmpty then throw .notFound
  if maxPath < path.utf8ByteSize then throw .nameTooLong
  let start := if path.startsWith "/" then [] else t.working
  let place ← (path.splitOn "/").foldlM t.enter start
  match t.node? place with
  | some node => pure node
  | none => throw .notFound

def isDirectory (t : FileTree) (path : String) : Bool :=
  match t.resolve path with
  | .ok .directory => true
  | _ => false

def read (t : FileTree) (path : String) : Except FileFault (List UInt8) := do
  match ← t.resolve path with
  | .file contents => pure contents
  | .directory => throw .isDirectory

end FileTree

/-- The text that bytes hold, if they are UTF-8 throughout. -/
def textOfBytes (bytes : List UInt8) : Except FileFault String :=
  match String.fromUTF8? bytes.toByteArray with
  | some text => .ok text
  | none => .error .notText

end Orator

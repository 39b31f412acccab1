import Orator.Audio.Host

/-! A host that follows a script and keeps count of the pushes. -/

namespace Orator.Rehearsal

structure HostScript where
  initSucceeds : Bool := true
  stopRequested : Bool := false
  /-- Pushes wait in the host until it is opened. -/
  holdPushes : Bool := false
  /-- The first push that is refused, counted from zero, and how many are: all that follow, if none is given. -/
  refuseFrom : Option Nat := none
  refuseCount : Option Nat := none
  crashAt : Option Nat := none
deriving DecidableEq, Repr

structure HostState where
  script : HostScript := {}
  stopRequested : Bool := script.stopRequested
  /-- A push has come to where pushes wait; it stays true. -/
  reached : Bool := false
  opened : Bool := false
  /-- Refuses every push, unless the script says which pushes are refused. -/
  refusing : Bool := false
  pushes : Nat := 0
deriving DecidableEq, Repr

namespace HostState

def refuses (h : HostState) : Bool :=
  match h.script.refuseFrom with
  | none => h.refusing
  | some first => first ≤ h.pushes && h.script.refuseCount.all (h.pushes < first + ·)

/-- The verdict on the next push; `none` while it is held back. A push that is refused does not wait, but it
    can crash all the same. -/
def verdict? (h : HostState) : Option Verdict :=
  let crashes := h.script.crashAt = some h.pushes
  if h.refuses then some (if crashes then .crashed false else .refused)
  else if h.script.holdPushes && !h.opened then none
  else some (if crashes then .crashed true else .accepted)

def receive (h : HostState) : HostState :=
  { h with reached := h.reached || (h.script.holdPushes && !h.refuses) }

def finish (h : HostState) : HostState :=
  { h.receive with pushes := h.pushes + 1 }

end HostState

end Orator.Rehearsal

import Orator.Proofs.Dispatcher.Answer
import Orator.Proofs.Pipeline.Utterance

/-! One utterance of an engine whose conduct is known beforehand. The conduct is a finite tree: after each callback
    the engine goes on by what the callback answered, until it returns or crashes. All else is left to the
    schedule, which ends when the outcome is known. -/

namespace Orator

namespace Dispatcher

open Pipeline (Limits)

/-- What an engine does in a call to speak. -/
inductive Conduct where
  | returns (success : Bool)
  | crashes
  /-- It calls back with a buffer, and may have cancelled on its own. What it does next depends on whether it is
      asked to abort. -/
  | calls (buffer : List Sample) (engineCancelled : Bool) (next : Bool → Conduct)

/-- The conduct of an engine that hands over these buffers in turn until it is asked to abort; what it returns may
    depend on that. -/
def Conduct.reads (success : Bool → Bool) : List (List Sample) → Conduct
  | [] => .returns (success false)
  | buffer :: left =>
    .calls buffer false fun abort => if abort then .returns (success true) else reads success left

/-- The next step of an engine. -/
def Conduct.label : Conduct → Label
  | .returns success => .spoke success
  | .crashes => .crash
  | .calls buffer engineCancelled _ => .call buffer engineCancelled

/-- What it does after that, by what the callback answers. -/
def Conduct.next : Conduct → Bool → Conduct
  | .calls _ _ next => next
  | conduct => fun _ => conduct

/-- Whether the engine takes the step. -/
def Label.ofEngine : Label → Bool
  | .call .. | .spoke _ | .crash => true
  | _ => false

theorem Conduct.label_ofEngine (conduct : Conduct) : conduct.label.ofEngine = true := by
  cases conduct <;> rfl

/-- A dispatcher, and what its engine does next, by what the callback answers. -/
structure Recital where
  state : State
  next : Bool → Conduct

namespace Recital

/-- What the engine does now. -/
def conduct (r : Recital) : Conduct :=
  r.next r.state.pipe.refusing

def step (house : House) (limits : Limits) (label : Label) (r : Recital) : Option Recital :=
  if label.ofEngine then
    if label = r.conduct.label then
      (Dispatcher.step house limits label r.state).map fun state => { state, next := r.conduct.next }
    else none
  else (Dispatcher.step house limits label r.state).map fun state => { r with state }

/-- The state after a schedule all of whose steps are taken before the outcome is known; `none` if one of them
    cannot be taken. -/
def run (house : House) (limits : Limits) : List Label → Recital → Option Recital
  | [], r => some r
  | label :: labels, r => if r.state.busy then (step house limits label r).bind (run house limits labels) else none

/-- A step of the dispatcher, with what it leaves of the conduct. -/
structure Moved (house : House) (limits : Limits) (r : Recital) (label : Label) (t : Recital) : Prop where
  moved : Dispatcher.Moved house limits r.state label t.state
  own : label.ofEngine = true → label = r.conduct.label ∧ t.next = r.conduct.next
  other : label.ofEngine = false → t.next = r.next

section
variable {house : House} {limits : Limits} {r t : Recital} {label : Label} {labels : List Label}

theorem step_inv (h : step house limits label r = some t) : Moved house limits r label t := by
  unfold step at h
  by_cases engine : label.ofEngine = true
  · rw [if_pos engine] at h
    by_cases own : label = r.conduct.label
    · rw [if_pos own] at h
      obtain ⟨state, hs, rfl⟩ := Option.map_eq_some_iff.mp h
      exact ⟨Dispatcher.step_inv hs, fun _ => ⟨own, rfl⟩, fun other => absurd engine (by simp [other])⟩
    · rw [if_neg own] at h
      cases h
  · rw [if_neg engine] at h
    obtain ⟨state, hs, rfl⟩ := Option.map_eq_some_iff.mp h
    exact ⟨Dispatcher.step_inv hs, fun own => absurd own engine, fun _ => rfl⟩

theorem run_cons (h : run house limits (label :: labels) r = some t) :
    r.state.busy = true ∧ ∃ u, Moved house limits r label u ∧ run house limits labels u = some t := by
  unfold run at h
  split at h
  · obtain ⟨u, hu, h⟩ := Option.bind_eq_some_iff.mp h
    exact ⟨‹_›, u, step_inv hu, h⟩
  · cases h

/-- What each step of an utterance keeps, the whole schedule keeps. -/
theorem run_keeps {P : Recital → Prop}
    (keeps : ∀ label ∈ labels, ∀ {r t}, r.state.busy = true → Moved house limits r label t → P r → P t)
    (h : run house limits labels r = some t) (hr : P r) : P t := by
  induction labels generalizing r with
  | nil =>
    cases h
    exact hr
  | cons label labels ih =>
    obtain ⟨busy, u, moved, h⟩ := run_cons h
    exact ih (fun l hl => keeps l (List.mem_cons_of_mem _ hl)) h (keeps label List.mem_cons_self busy moved hr)

end

end Recital

/-- The engine of the house that starts. -/
def remaining : Engine where
  number := 0
  name := "espeak"
  sampleRate := 22050

theorem alan_accepted : ∃ s, run halfHouse (.ofSizes 2 0) [.take (.speak alan), .control, .control] {} = some s ∧
    s.control = .clearing remaining alan := by
  have there : (run halfHouse (.ofSizes 2 0) [.take (.speak alan), .control, .control] {}).map (·.control) =
      some (.clearing remaining alan) := by decide +kernel
  exact Option.map_eq_some_iff.mp there

end Dispatcher

end Orator

import Orator.Proofs.Pipeline.Chunks

/-! One utterance of an engine that keeps to the contract of the callback: it hands over its buffers in turn
    with an empty one behind the last, and once the callback asks it to abort it hands over nothing more.
    Every step is one of the pipeline's own; others may raise the flag, or tell the host something, at any
    time. -/

namespace Orator.Pipeline

/-- Whether the callback has come back with the wish that the engine abort. -/
def State.refusing (s : State) : Bool :=
  match s.producer with
  | .returned abort => abort
  | _ => false

structure Utterance where
  pipe : State
  /-- The buffers that the engine has not handed over yet. -/
  left : List (List Sample)
deriving DecidableEq

namespace Utterance

/-- The beginning of an utterance, whatever was before it: the channel is open to the engine, the delivery
    loop runs, and the callback does not. -/
def start (rate : UInt32) (buffers : List (List Sample)) (s : State) : Utterance where
  pipe := { (s.beginUtterance rate).startDelivery with producer := .idle }
  left := buffers ++ [[]]

inductive Label where
  /-- The engine hands over its next buffer; it may have cancelled on its own. -/
  | hand (engineCancelled : Bool)
  /-- The callback takes a step; should it ask, this is whether the host wants playback to stop. -/
  | produce (stopRequested : Bool)
  /-- The delivery loop takes a step; should it push, this is the host's verdict. -/
  | deliver (verdict : Verdict)
  /-- Someone raises the cancellation flag. -/
  | raise
  /-- Someone else tells the host something. -/
  | tell (event : HostEvent)
  /-- The engine has nothing more to hand over, or was asked to abort, and returns; this closes the channel. -/
  | leave
deriving DecidableEq, Repr

def withPipe (u : Utterance) (pipe : Option State) : Option Utterance :=
  pipe.map fun pipe => { u with pipe }

def step (limits : Limits) : Label → Utterance → Option Utterance
  | .hand engineCancelled, u =>
    match u.left with
    | [] => none
    | buffer :: left =>
      if u.pipe.route.isSome && !u.pipe.refusing then
        { u with left }.withPipe (Pipeline.step limits (.call buffer engineCancelled) u.pipe)
      else none
  | .produce stopRequested, u => u.withPipe (Pipeline.step limits (.produce stopRequested) u.pipe)
  | .deliver verdict, u => u.withPipe (Pipeline.step limits (.deliver verdict) u.pipe)
  | .raise, u => u.withPipe (Pipeline.step limits .raise u.pipe)
  | .tell event, u => if event.ofDelivery then none else some { u with pipe := u.pipe.tell event }
  | .leave, u =>
    if u.pipe.route.isSome && u.pipe.resting && (u.left.isEmpty || u.pipe.refusing) then
      some { u with pipe := { u.pipe.endUtterance with producer := .idle } }
    else none

/-- The utterance after a whole schedule; `none` if one of its steps cannot be taken. -/
def run (limits : Limits) : List Label → Utterance → Option Utterance
  | [], u => some u
  | label :: labels, u => (step limits label u).bind (run limits labels)

inductive Moved (limits : Limits) (u : Utterance) : Label → Utterance → Prop where
  | handed {buffer left engineCancelled} (next : u.left = buffer :: left) (speaks : u.pipe.route.isSome = true)
    (rests : u.pipe.resting = true) (willing : u.pipe.refusing = false) :
    Moved limits u (.hand engineCancelled)
      { pipe := { u.pipe with producer := .entered buffer engineCancelled }, left }
  | produced {stopRequested pipe} (h : Produced limits stopRequested u.pipe pipe) :
    Moved limits u (.produce stopRequested) { u with pipe }
  | delivered {verdict pipe} (h : Delivered limits verdict u.pipe pipe) :
    Moved limits u (.deliver verdict) { u with pipe }
  | raised : Moved limits u .raise { u with pipe := { u.pipe with flag := true } }
  | told {event} (other : event.ofDelivery = false) :
    Moved limits u (.tell event) { u with pipe := u.pipe.tell event }
  | parted (speaks : u.pipe.route.isSome = true) (rests : u.pipe.resting = true)
    (done : u.left = [] ∨ u.pipe.refusing = true) :
    Moved limits u .leave { u with pipe := { u.pipe.endUtterance with producer := .idle } }

theorem withPipe_inv {u v : Utterance} {pipe : Option State} (h : u.withPipe pipe = some v) :
    ∃ p, pipe = some p ∧ v = { u with pipe := p } := by
  obtain ⟨p, hp, rfl⟩ := Option.map_eq_some_iff.mp h
  exact ⟨p, hp, rfl⟩

theorem step_inv {limits : Limits} {label : Label} {u v : Utterance} (h : step limits label u = some v) :
    Moved limits u label v := by
  cases label with
  | hand engineCancelled =>
    simp only [step] at h
    split at h
    · cases h
    · split at h
      · rename_i buffer left hleft hcond
        obtain ⟨p, hp, rfl⟩ := withPipe_inv h
        simp only [Bool.and_eq_true, Bool.not_eq_true'] at hcond
        simp only [Pipeline.step] at hp
        split at hp <;> cases hp
        exact .handed hleft hcond.1 ‹_› hcond.2
      · cases h
  | produce stopRequested =>
    obtain ⟨p, hp, rfl⟩ := withPipe_inv h
    exact .produced (produce_inv hp)
  | deliver verdict =>
    obtain ⟨p, hp, rfl⟩ := withPipe_inv h
    exact .delivered (deliver_inv hp)
  | raise =>
    obtain ⟨p, hp, rfl⟩ := withPipe_inv h
    cases hp
    exact .raised
  | tell event =>
    simp only [step] at h
    split at h <;> cases h
    exact .told (by simpa using ‹¬event.ofDelivery = true›)
  | leave =>
    simp only [step] at h
    split at h <;> cases h
    rename_i hcond
    simp only [Bool.and_eq_true, Bool.or_eq_true, List.isEmpty_iff] at hcond
    exact .parted hcond.1.1 hcond.1.2 hcond.2

/-- What each step of a schedule keeps, the whole schedule keeps. -/
theorem run_keeps {limits : Limits} {P : Utterance → Prop} {labels : List Label} {u v : Utterance}
    (keeps : ∀ label ∈ labels, ∀ {u v}, Moved limits u label v → P u → P v)
    (h : run limits labels u = some v) (hu : P u) : P v := by
  induction labels generalizing u with
  | nil =>
    cases h
    exact hu
  | cons label labels ih =>
    obtain ⟨w, hw, h⟩ := Option.bind_eq_some_iff.mp h
    exact ih (fun l hl => keeps l (List.mem_cons_of_mem _ hl)) h (keeps label List.mem_cons_self (step_inv hw) hu)

end Utterance

end Orator.Pipeline

import Orator.Proofs.Dispatcher.Exclusive
import Orator.Proofs.Dispatcher.Resolve

/-! The engine that a request has settled on is the live one, from then on until it has spoken: nobody switches
    or stops engines in that time. -/

namespace Orator

namespace Dispatcher

open Pipeline (Limits)
open Session (Sound Steps)

/-- The engine that the task has settled on. -/
def Control.engine? : Control → Option Engine
  | .clearing engine _ | .opening engine _ | .spawning engine _ => some engine
  | _ => none

/-- The engine that the speaker may call, or is inside of. -/
def Speaker.engine? : Speaker → Option Engine
  | .spawned engine _ | .speaking engine => some engine
  | _ => none

structure Staffed (s : State) : Prop where
  sound : s.session.Sound
  chosen : ∀ engine, s.control.engine? = some engine → s.session.engine? = some engine
  manned : ∀ engine, s.speaker.engine? = some engine → s.session.engine? = some engine

theorem start_staffed {h : History} (rests : h.Solo none) : Staffed { session := { history := h } } where
  sound := Session.start_sound rests
  chosen := nofun
  manned := nofun

section
variable {house : House} {limits : Limits} {s t : State} {label : Label}

theorem enter_engine? (task : Task) : task.enter.engine? = none := by
  cases task <;> rfl

theorem proceed_engine? (task : Task) (outcome : Option Outcome) : (task.proceed outcome).engine? = none := by
  cases task <;> rfl

theorem resolve_steps (house : House) (request : Request) (s : Session) :
    ∃ calls, Steps (fun dial => some (request.prosody.wish dial)) s calls (resolve house request s).2 := by
  have voices : ∃ calls, Steps (fun dial => some (request.prosody.wish dial)) s calls (voiceFor house request s) := by
    unfold voiceFor
    cases request.prosody.voice with
    | none => exact ⟨[], .refl⟩
    | some voice => exact Session.selectVoice_steps _ house voice s
  obtain ⟨first, hf⟩ := voices
  obtain ⟨starts, hd⟩ :=
    Session.selectDefault_steps (fun dial => some (request.prosody.wish dial)) house (voiceFor house request s)
  rw [resolve_eq]
  rcases h : (voiceFor house request s).selectDefault house with ⟨fault | _, t⟩
  · rw [h] at hd
    exact ⟨_, hf.trans hd⟩
  · rw [h] at hd
    obtain ⟨params, hp⟩ := Session.applyParams_steps house request.prosody t
    refine ⟨params ++ (starts ++ first), (hf.trans hd).trans ?_⟩
    dsimp only
    split <;> exact hp

theorem resolve_ok {request : Request} {engine : Engine} {s t : Session}
    (h : resolve house request s = (.ok engine, t)) : t.engine? = some engine := by
  have := resolve_resolved house request s
  rw [h] at this
  cases this with
  | found choice live => exact Session.engine?_of_live live

/-- A step that changes the session only changes it while nobody speaks. -/
theorem Staffed.renewed {session : Session} {control : Control} (sound : session.Sound)
    (absent : s.speaker = .absent)
    (chosen : ∀ engine, control.engine? = some engine → session.engine? = some engine) :
    Staffed { s with session, control } where
  sound := sound
  chosen := chosen
  manned engine here := by
    dsimp only at here
    rw [absent] at here
    cases here

/-- All other steps leave it as it is, or speak with the engine that is chosen. -/
theorem Staffed.rest (hs : Staffed s) (session : t.session = s.session)
    (chosen : ∀ engine, t.control.engine? = some engine → s.control.engine? = some engine)
    (manned : ∀ engine, t.speaker.engine? = some engine →
      s.speaker.engine? = some engine ∨ s.control.engine? = some engine) : Staffed t where
  sound := session ▸ hs.sound
  chosen engine here := by
    rw [session]
    exact hs.chosen engine (chosen engine here)
  manned engine here := by
    rw [session]
    exact (manned engine here).elim (hs.manned engine) (hs.chosen engine)

theorem Staffed.recorded {call : Call} {speaker : Speaker} {pipe : Pipeline.State} {engine : Engine} (hs : Staffed s)
    (here : s.speaker.engine? = some engine)
    (solo : s.session.history.Solo (some engine) → History.Solo (call :: s.session.history) (some engine))
    (other : ∀ engine setting accepted, call ≠ .set engine setting accepted)
    (there : ∀ engine, speaker.engine? = some engine → s.speaker.engine? = some engine) :
    Staffed { s.record call with pipe, speaker } where
  sound := by
    have live := hs.manned engine here
    refine hs.sound.record ?_ other
    rw [live]
    exact solo (live ▸ hs.sound.solo)
  chosen := hs.chosen
  manned other speaks := hs.manned other (there other speaks)

theorem moved_staffed (h : Moved house limits s label t) (he : Exclusive s) (hs : Staffed s) : Staffed t := by
  have absent {control : Control} (here : s.control = control) (working : control.working = true)
      (attends : control.attends = false) : s.speaker = .absent :=
    he.speaker_absent (here ▸ working) (here ▸ attends)
  cases h with
  | @took task here => exact hs.rest rfl (by simp [enter_engine?]) fun _ => Or.inl
  | reported here => exact hs.rest rfl nofun fun _ => Or.inl
  | @wentOn task here alone => exact hs.rest rfl (by simp [proceed_engine?]) fun _ => Or.inl
  | @collected task outcome here done => exact hs.rest rfl (by simp [proceed_engine?]) fun _ => Or.inl
  | @unresolved request fault session here result =>
    obtain ⟨calls, steps⟩ := resolve_steps house request s.session
    rw [result] at steps
    exact .renewed (steps.sound hs.sound) (absent here rfl rfl) nofun
  | @resolved request engine session here result =>
    obtain ⟨calls, steps⟩ := resolve_steps house request s.session
    rw [result] at steps
    refine .renewed (steps.sound hs.sound) (absent here rfl rfl) ?_
    rintro _ ⟨⟩
    exact resolve_ok result
  | @unswitched displayName fault session here result =>
    obtain ⟨calls, steps⟩ := Session.selectVoice_steps (fun _ => none) house displayName s.session
    rw [result] at steps
    exact .renewed (steps.sound hs.sound) (absent here rfl rfl) nofun
  | @switched displayName session here result =>
    obtain ⟨calls, steps⟩ := Session.selectVoice_steps (fun _ => none) house displayName s.session
    rw [result] at steps
    exact .renewed (steps.sound hs.sound) (absent here rfl rfl) nofun
  | stopped here =>
    obtain ⟨calls, steps⟩ := Session.stop_steps (fun _ => none) s.session
    exact .renewed (steps.sound hs.sound) (absent here rfl rfl) nofun
  | cleared here => exact hs.rest rfl (by simp [here, Control.engine?]) fun _ => Or.inl
  | opened here => exact hs.rest rfl (by simp [here, Control.engine?]) fun _ => Or.inl
  | spawned here =>
    refine hs.rest rfl nofun ?_
    rintro _ ⟨⟩
    exact Or.inr (by rw [here]; rfl)
  | attended here => exact hs.rest rfl nofun fun _ => Or.inl
  | released here => exact hs.rest rfl nofun fun _ => Or.inl
  | skipped here => exact hs.rest rfl (fun _ => id) nofun
  | began here uttered =>
    refine hs.recorded (by rw [here]; rfl) (fun solo => .called solo rfl) nofun ?_
    rintro _ ⟨⟩
    rw [here]
    rfl
  | spoke here rests => exact hs.recorded (by rw [here]; rfl) .returned nofun nofun
  | crashed here rests => exact hs.rest rfl (fun _ => id) nofun
  | left here => exact hs.rest rfl (fun _ => id) nofun
  | concluded here done => exact hs.rest rfl (fun _ => id) nofun
  | _ => exact hs.rest rfl (fun _ => id) fun _ => Or.inl

end

end Dispatcher

end Orator

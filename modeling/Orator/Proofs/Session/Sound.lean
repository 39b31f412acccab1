import Orator.Proofs.Session.Step

/-! What a session says of itself is what can be read off the calls it made: which instance runs, which settings
    that instance has accepted last, and which voice it was sent. Every step keeps this. -/

namespace Orator

def Call.accepts (engine : Engine) (dial : Dial) (call : Call) : Bool :=
  (call.accepted? engine dial).isSome

section
variable {call : Call} {engine : Engine} {dial : Dial}

theorem Call.on_of_accepted (h : call.accepted? engine dial ≠ none) : call.on? = some engine := by
  unfold accepted? at h
  split at h
  · split at h
    · exact congrArg some ‹_ ∧ _›.1
    · exact absurd rfl h
  · exact absurd rfl h

theorem Call.on_of_sent (h : call.sent? engine ≠ none) : call.on? = some engine := by
  unfold sent? at h
  split at h
  · split at h
    · exact congrArg some ‹_›
    · exact absurd rfl h
  · exact absurd rfl h

theorem Call.accepted?_of_voice (other : Engine) (native : String) (accepted : Bool) :
    (Call.set other (.voice native) accepted).accepted? engine dial = none := by
  cases accepted
  · rfl
  · simp [accepted?, Setting.dial?]

theorem Call.accepted?_self (wish : Wish) :
    (Call.set engine wish.setting true).accepted? engine wish.dial = some wish.setting := by
  simp [accepted?]

theorem Call.accepted?_of_ne {wish : Wish} (other : wish.dial ≠ dial) (accepted : Bool) :
    (Call.set engine wish.setting accepted).accepted? engine dial = none := by
  cases accepted
  · rfl
  · simp [accepted?, other]

theorem Call.sent?_of_wish (wish : Wish) (accepted : Bool) :
    (Call.set engine wish.setting accepted).sent? engine = none := by
  cases wish <;> rfl

end

namespace History
variable {h : History} {live : Option Engine} {engine : Engine}

/-- Of an instance that was never started there is nothing to find. -/
theorem Solo.findSome?_of_not_began {α : Type} {f : Call → Option α} (hs : Solo h live) (new : ¬Began engine h)
    (only : ∀ call, f call ≠ none → call.on? = some engine) : h.findSome? f = none := by
  rw [List.findSome?_eq_none_iff]
  intro call hm
  cases hf : f call with
  | none => rfl
  | some value => exact absurd (hs.began_of_on hm (only call (by simp [hf]))) new

theorem effective_cons_of_none {call : Call} {dial : Dial} (hn : call.accepted? engine dial = none) :
    effective engine dial (call :: h) = h.effective engine dial := by
  rw [effective, List.findSome?_cons, hn]
  rfl

theorem effective_cons_of_some {call : Call} {dial : Dial} {setting : Setting}
    (hn : call.accepted? engine dial = some setting) : effective engine dial (call :: h) = some setting := by
  rw [effective, List.findSome?_cons, hn]

theorem lastVoice_cons_of_none {call : Call} (hn : call.sent? engine = none) :
    lastVoice engine (call :: h) = h.lastVoice engine := by
  rw [lastVoice, List.findSome?_cons, hn]
  rfl

end History

namespace Session

/-! ### Soundness -/

/-- What a session says of itself agrees with what the library and its engines have been asked. -/
structure Sound (s : Session) : Prop where
  solo : s.history.Solo s.engine?
  /-- Without an engine nothing is remembered. -/
  dark : s.active = none → s.applied = {}
  /-- What is remembered of a dial is what the live engine accepted last. -/
  heeded : ∀ active, s.active = some active → ∀ dial,
    s.history.effective active.engine dial = (s.applied.memory dial).map Wish.setting
  voiced : ∀ active, s.active = some active → s.history.lastVoice active.engine = active.voice

theorem start_sound {h : History} (rests : h.Solo none) : Sound { history := h } where
  solo := rests
  dark := fun _ => rfl
  heeded := nofun
  voiced := nofun

section
variable {house : House} {asks : Dial → Option Wish} {s t : Session} {call : Call} {calls : List Call}

theorem engine?_of_dark (dark : s.active = none) : s.engine? = none := by
  rw [engine?, dark]
  rfl

theorem engine?_of_live {active : Active} (live : s.active = some active) : s.engine? = some active.engine := by
  rw [engine?, live]
  rfl

theorem Step.sound (h : Step asks s call t) (hs : Sound s) : Sound t := by
  obtain ⟨solo, dark, heeded, voiced⟩ := hs
  cases h with
  | failed out =>
    rw [engine?_of_dark out] at solo
    refine ⟨?_, dark, ?_, ?_⟩
    · simp only [engine?, out, Option.map_none]
      exact .failed solo
    · simp [out]
    · simp [out]
  | @launched engine out new =>
    rw [engine?_of_dark out] at solo
    have never := solo.not_began new
    refine ⟨.started solo new, nofun, ?_, ?_⟩
    · rintro active ⟨⟩ dial
      rw [Applied.memory_empty, History.effective_cons_of_none rfl]
      exact solo.findSome?_of_not_began never fun _ => Call.on_of_accepted
    · rintro active ⟨⟩
      rw [History.lastVoice_cons_of_none rfl]
      exact solo.findSome?_of_not_began never fun _ => Call.on_of_sent
  | stopped live =>
    rw [engine?_of_live live] at solo
    exact ⟨.stopped solo, fun _ => rfl, nofun, nofun⟩
  | @voiced active native accepted live =>
    rw [engine?_of_live live] at solo
    refine ⟨.called solo rfl, nofun, ?_, ?_⟩
    · rintro _ ⟨⟩ dial
      rw [History.effective_cons_of_none (Call.accepted?_of_voice _ _ _)]
      exact heeded active live dial
    · rintro _ ⟨⟩
      simp [History.lastVoice, Call.sent?]
  | @told active wish accepted live asked =>
    have same {other : Active} (ho : s.active = some other) : other = active := by
      rw [live] at ho
      exact (Option.some.inj ho).symm
    refine ⟨?_, ?_, ?_, ?_⟩
    · rw [engine?_of_live live] at solo
      simp only [engine?, live, Option.map_some]
      exact .called solo rfl
    · intro out
      rw [live] at out
      cases out
    · intro other ho dial
      obtain rfl := same ho
      have before := heeded other live dial
      cases accepted with
      | false =>
        rw [History.effective_cons_of_none rfl]
        exact before
      | true =>
        by_cases own : wish.dial = dial
        · subst own
          rw [History.effective_cons_of_some (Call.accepted?_self wish)]
          simp
        · rw [History.effective_cons_of_none (Call.accepted?_of_ne own _)]
          simpa [Applied.memory_note_of_ne _ own] using before
    · intro other ho
      obtain rfl := same ho
      rw [History.lastVoice_cons_of_none (Call.sent?_of_wish _ _)]
      exact voiced other live

/-- A call that tells the engine neither a setting nor a voice changes nothing of this. -/
theorem Sound.record (hs : Sound s) (solo : History.Solo (call :: s.history) s.engine?)
    (other : ∀ engine setting accepted, call ≠ .set engine setting accepted) :
    Sound { s with history := call :: s.history } := by
  have silent (engine : Engine) (dial : Dial) : call.accepted? engine dial = none ∧ call.sent? engine = none := by
    cases call with
    | set => exact absurd rfl (other _ _ _)
    | _ => exact ⟨rfl, rfl⟩
  refine ⟨solo, hs.dark, ?_, ?_⟩
  · intro active live dial
    rw [History.effective_cons_of_none (silent _ _).1]
    exact hs.heeded active live dial
  · intro active live
    rw [History.lastVoice_cons_of_none (silent _ .speed).2]
    exact hs.voiced active live

theorem Steps.sound (h : Steps asks s calls t) (hs : Sound s) : Sound t := by
  induction h with
  | refl => exact hs
  | snoc rest h ih => exact h.sound ih

end

end Session

end Orator

import Orator.Proofs.Service.Run

/-! One utterance at a time, whatever its clients ask of the service and however its utterances end. -/

namespace Orator

namespace Dispatcher
variable {house : House} {limits : Pipeline.Limits} {s t : State} {label : Label} {past : List Deed}

/-- While the engine speaks, no other call reaches it, nor any other engine. -/
theorem moved_history (h : Moved house limits s label t) (hs : Exclusive s) {engine : Engine}
    (here : s.speaker = .speaking engine) :
    t.session.history = s.session.history ∨
      ∃ success, t.session.history = .spoke engine success :: s.session.history := by
  have idle (there : s.control.attends = false) : s.control.working = false :=
    hs.not_working (by simp [here]) there
  cases h with
  | unresolved at_ =>
    rw [at_] at idle
    cases idle rfl
  | resolved at_ =>
    rw [at_] at idle
    cases idle rfl
  | unswitched at_ =>
    rw [at_] at idle
    cases idle rfl
  | switched at_ =>
    rw [at_] at idle
    cases idle rfl
  | stopped at_ =>
    rw [at_] at idle
    cases idle rfl
  | began spawned =>
    rw [here] at spawned
    cases spawned
  | @spoke other success speaks =>
    rw [here] at speaks
    cases speaks
    exact Or.inr ⟨success, rfl⟩
  | _ => exact Or.inl rfl

end Dispatcher

namespace Service

open Dispatcher (AllEnded Apart Exclusive Tallied)

section
variable {setup : Setup} {s t : State} {label : Label} {past : List Deed}

theorem stirred_exclusive (h : Stirred setup s.dispatcher label t.dispatcher) (hs : Exclusive s.dispatcher) :
    Exclusive t.dispatcher := by
  generalize t.dispatcher = d at h
  cases h with
  | moved _ _ h => exact Dispatcher.moved_exclusive h hs
  | rested => exact hs
  | _ => exact hs.piped rfl rfl rfl rfl

theorem stirred_tallied (h : Stirred setup s.dispatcher label t.dispatcher) (hs : Exclusive s.dispatcher)
    (ht : Tallied past s.dispatcher) : Tallied (past ++ deeds label s) t.dispatcher := by
  unfold deeds
  generalize t.dispatcher = d at h
  cases h with
  | moved own _ h =>
    rw [own]
    exact Dispatcher.moved_tallied h hs ht
  | told _ own =>
    rw [own]
    exact ht.rest rfl rfl rfl rfl rfl rfl
  | raised own =>
    rcases own with rfl | rfl <;> exact ht.rest rfl rfl rfl rfl rfl rfl
  | rested own =>
    rw [own]
    exact ht.rest rfl rfl rfl rfl rfl rfl

theorem deeds_apart (hs : Exclusive s.dispatcher) (ht : Tallied past s.dispatcher) (ha : Apart past) :
    Apart (past ++ deeds label s) := by
  unfold deeds
  cases label.inner? with
  | some inner => exact Dispatcher.deeds_apart hs ht ha
  | none =>
    rw [List.append_nil]
    exact ha

/-- What holds in every state that a loaded service can reach. -/
theorem run_orderly {history : History} {labels : List Label} (h : run setup labels (start history) = some s) :
    Exclusive s.dispatcher ∧ Tallied (journal setup labels (start history)) s.dispatcher ∧
      Apart (journal setup labels (start history)) := by
  refine run_keeps (P := fun past d => Exclusive d ∧ Tallied past d ∧ Apart past) [] ?_ h ?_
  · rintro s t label past hst ⟨he, ht, ha⟩
    exact ⟨stirred_exclusive hst he, stirred_tallied hst he ht, deeds_apart he ht ha⟩
  · exact ⟨Dispatcher.start_exclusive _, Dispatcher.start_tallied _, by simp [Apart]⟩

theorem stirred_history (h : Stirred setup s.dispatcher label t.dispatcher) (hs : Exclusive s.dispatcher)
    {engine : Engine} (here : s.dispatcher.speaker = .speaking engine) :
    t.dispatcher.session.history = s.dispatcher.session.history ∨
      ∃ success, t.dispatcher.session.history = .spoke engine success :: s.dispatcher.session.history := by
  generalize t.dispatcher = d at h
  cases h with
  | moved _ _ h => exact Dispatcher.moved_history h hs here
  | _ => exact Or.inl rfl

end

/-- However clients call a loaded service, and however its utterances end: there is never more than one
    speaker and one delivery loop; a channel is opened only when those before it are closed and their workers
    have ended; and while an engine speaks, no engine is called until it is back. -/
theorem one_at_a_time {config : Config} {library : Library} {program : List String}
    {isDirectory : String → Bool} {setup : Setup} {s₀ s : State} {history : History} {labels : List Label}
    (loaded : load config library program isDirectory = (.ok (setup, s₀), history))
    (h : run setup labels s₀ = some s) :
    ((journal setup labels s₀).count .speakerEnded ≤ (journal setup labels s₀).count .speakerBegan ∧
      (journal setup labels s₀).count .speakerBegan ≤ (journal setup labels s₀).count .speakerEnded + 1) ∧
    ((journal setup labels s₀).count .deliveryEnded ≤ (journal setup labels s₀).count .deliveryBegan ∧
      (journal setup labels s₀).count .deliveryBegan ≤ (journal setup labels s₀).count .deliveryEnded + 1) ∧
    (∀ before after, journal setup labels s₀ = before ++ .opened :: after → AllEnded before) ∧
    ∀ engine, s.dispatcher.speaker = .speaking engine → ∀ label t, step setup label s = some t →
      t.dispatcher.session.history = s.dispatcher.session.history ∨
        ∃ success, t.dispatcher.session.history = .spoke engine success :: s.dispatcher.session.history := by
  obtain rfl := load_start loaded
  obtain ⟨he, ht, ha⟩ := run_orderly h
  -- What has begun is what has ended and what is running, which is one or none.
  have hsp := ht.speaker
  have hdl := ht.delivery
  have h₁ := Bool.toNat_le s.dispatcher.speaker.running
  have h₂ := Bool.toNat_le s.dispatcher.pipe.delivery.running
  refine ⟨⟨by omega, by omega⟩, ⟨by omega, by omega⟩, ha, ?_⟩
  intro engine here label t hst
  exact stirred_history (step_inv hst) he here

/-- A request for a single letter, accepted and under way, while a second one waits for it. -/
def twoRequests : List Label :=
  [.call (.speak { payload := [104] }), .grant (.speak { payload := [104] })] ++
    List.replicate 6 (.inner .control) ++
    [.inner .release, .inner .speak, .call (.speak { payload := [105] }), .grant (.speak { payload := [105] })]

theorem one_at_a_time_twoRequests :
    ∃ setup s₀ s history engine,
      load { libraryDir := some "/lib" } plainLibrary [] (fun _ => true) = (.ok (setup, s₀), history) ∧
      run setup twoRequests s₀ = some s ∧
      (journal setup twoRequests s₀).count .speakerBegan ≤ (journal setup twoRequests s₀).count .speakerEnded + 1 ∧
      s.dispatcher.speaker = .speaking engine ∧
      ∀ label t, step setup label s = some t →
        t.dispatcher.session.history = s.dispatcher.session.history ∨
          ∃ success, t.dispatcher.session.history = .spoke engine success :: s.dispatcher.session.history := by
  have hr : (serve { libraryDir := some "/lib" } plainLibrary [] (fun _ => true) twoRequests).map
      (·.2.dispatcher.speaker) = some (.speaking { number := 1, name := "espeak", sampleRate := 22050 }) := by
    decide +kernel
  obtain ⟨⟨setup, s⟩, hs, here⟩ := Option.map_eq_some_iff.mp hr
  obtain ⟨s₀, history, loaded, h⟩ := serve_inv hs
  obtain ⟨⟨-, speakers⟩, -, -, quiet⟩ := one_at_a_time loaded h
  exact ⟨setup, s₀, s, history, _, loaded, h, speakers, here, quiet _ here⟩

end Service

end Orator

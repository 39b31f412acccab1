import Orator.Proofs.Pipeline.Offered
import Orator.Proofs.Service.Cancellation

/-! How soon a cancellation is heard. The delivery loop looks at the flag when it takes a buffer out of the channel,
    and not again until it has pushed the last chunk of it. So whoever raises the flag, and whatever the engine does,
    the host is still given what is left of that one buffer, and nothing else. -/

namespace Orator

/-- The frames that were pushed, whatever the host made of them. -/
def pushed (events : List HostEvent) : List Frame :=
  accepted (offered events)

namespace Pipeline

/-- What the loop has not pushed yet of the buffer in its hands, once it has looked at the flag. -/
def Delivery.rest? : Delivery → Option Frame
  | .announcing rate samples | .pushing rate samples => some { rate, samples }
  | _ => none

section
variable {limits : Limits} {s t : State} {delivery : Delivery}

theorem length_cut (limits : Limits) (rate : UInt32) (samples : List Sample) :
    (limits.cut rate samples).length = (samples.length + limits.chunkSize - 1) / limits.chunkSize := by
  have chunk := limits.chunkSize_pos
  induction h : samples.length using Nat.strongRecOn generalizing samples with
  | _ n ih =>
    subst h
    by_cases hs : samples = []
    · rw [hs, cut_nil]
      exact (Nat.div_eq_of_lt (by simp; omega)).symm
    · have some := List.length_pos_iff.mpr hs
      rw [cut_of_ne_nil hs, List.length_cons, ih _ (drop_chunkSize_lt hs) _ rfl, List.length_drop,
        show samples.length + limits.chunkSize - 1 = samples.length - 1 + limits.chunkSize by omega,
        Nat.add_div_right _ chunk]
      congr 1
      rcases Nat.lt_or_ge samples.length limits.chunkSize with short | long
      · rw [Nat.div_eq_of_lt (by omega), Nat.div_eq_of_lt (by omega)]
      · congr 1
        omega

/-- The loop announces nothing that is empty. -/
def Delivery.Solid (delivery : Delivery) : Prop :=
  ∀ rest, delivery.rest? = some rest → rest.samples ≠ []

theorem solid_ofSamples (rate : UInt32) (samples : List Sample) : (Delivery.ofSamples rate samples).Solid := by
  cases samples with
  | nil => nofun
  | cons sample samples =>
    rintro _ ⟨⟩
    nofun

theorem Delivered.solid {verdict : Verdict} (h : Delivered limits verdict s t) (hs : s.delivery.Solid) :
    t.delivery.Solid := by
  cases h with
  | opened | accepted => exact solid_ofSamples _ _
  | announced here =>
    rw [here] at hs
    exact hs
  | _ => nofun

theorem accepted_due (solid : delivery.Solid) : accepted (delivery.due limits true) =
    (delivery.rest?.map fun rest => limits.cut rest.rate rest.samples).getD [] := by
  cases delivery with
  | announcing rate samples | pushing rate samples =>
    have whole : limits.cut rate samples =
        limits.chunk rate samples :: limits.cut rate (samples.drop limits.chunkSize) := cut_of_ne_nil (solid _ rfl)
    exact (congrArg (limits.chunk rate samples :: ·) (accepted_played _)).trans whole.symm
  | _ => rfl

/-- With the flag up, the loop only goes on with what is in its hands. -/
theorem Delivered.due_of_up {verdict : Verdict} (h : Delivered limits verdict s t) (up : s.flag = true) :
    ∃ news, t.heard = news.reverse ++ s.heard ∧
      offered news ++ t.delivery.due limits true <+: s.delivery.due limits true := by
  have first := Utterance.delivered_offered (u := { pipe := s, left := [] }) h
  simpa [Utterance.ahead, up, h.flag_mono up] using first

end

end Pipeline

namespace Dispatcher

open Pipeline (Limits)

theorem moved_due {house : House} {limits : Limits} {s t : State} {label : Label} (h : Moved house limits s label t)
    (up : s.pipe.flag = true) : ∃ news, t.pipe.heard = news.reverse ++ s.pipe.heard ∧
      offered news ++ t.pipe.delivery.due limits true <+: s.pipe.delivery.due limits true := by
  cases h with
  | opened | attended => exact ⟨[], rfl, List.nil_prefix⟩
  | produced h =>
    rw [h.frame.1]
    rcases h.heard with same | ⟨-, -, stopped⟩
    · exact ⟨[], same, List.prefix_refl _⟩
    · exact ⟨[.stop], stopped, List.prefix_refl _⟩
  | delivered h => exact h.due_of_up up
  | _ => exact ⟨[], rfl, List.prefix_refl _⟩

theorem moved_solid {house : House} {limits : Limits} {s t : State} {label : Label} (h : Moved house limits s label t)
    (hs : s.pipe.delivery.Solid) : t.pipe.delivery.Solid := by
  cases h with
  | opened | attended => nofun
  | produced h =>
    rw [h.frame.1]
    exact hs
  | delivered h => exact h.solid hs
  | _ => exact hs

end Dispatcher

namespace Service

open Dispatcher (Exclusive)

section
variable {setup : Setup} {s t : State} {label : Label} {labels : List Label}

theorem stirred_due (h : Stirred setup s.dispatcher label t.dispatcher) (up : s.dispatcher.pipe.flag = true) :
    ∃ news, t.dispatcher.pipe.heard = news.reverse ++ s.dispatcher.pipe.heard ∧
      offered news ++ t.dispatcher.pipe.delivery.due setup.limits true <+:
        s.dispatcher.pipe.delivery.due setup.limits true := by
  generalize t.dispatcher = d at h
  cases h with
  | moved _ _ h => exact Dispatcher.moved_due h up
  | told event _ other => exact ⟨[event], rfl, by rw [offered, List.filter_cons_of_neg (by simp [other])]; rfl⟩
  | raised | rested => exact ⟨[], rfl, List.prefix_refl _⟩

/-- From when the flag is up to the end of the utterance. -/
theorem runUnderway_due (h : runUnderway setup labels s = some t) (hs : Exclusive s.dispatcher)
    (up : s.dispatcher.pipe.flag = true) :
    ∃ told, t.dispatcher.pipe.heard = told.reverse ++ s.dispatcher.pipe.heard ∧
      offered told ++ t.dispatcher.pipe.delivery.due setup.limits true <+:
        s.dispatcher.pipe.delivery.due setup.limits true := by
  induction labels generalizing s with
  | nil =>
    cases h
    exact ⟨[], rfl, List.prefix_refl _⟩
  | cons label labels ih =>
    obtain ⟨under, u, hu, h⟩ := runUnderway_cons h
    have moved := step_inv hu
    obtain ⟨news, heard, first⟩ := stirred_due moved up
    obtain ⟨told, more, rest⟩ := ih h (stirred_exclusive moved hs) (stirred_flag moved hs under up)
    refine ⟨news ++ told, ?_, ?_⟩
    · rw [more, heard, List.reverse_append, List.append_assoc]
    · rw [offered_append, List.append_assoc]
      exact ((List.prefix_append_right_inj _).mpr rest).trans first

theorem run_solid {history : History} (h : run setup labels (start history) = some s) :
    s.dispatcher.pipe.delivery.Solid := by
  refine run_keeps (P := fun _ d => d.pipe.delivery.Solid) [] ?_ h nofun
  intro s t label _ moved hs
  generalize t.dispatcher = d at moved
  cases moved with
  | moved _ _ h => exact Dispatcher.moved_solid h hs
  | _ => exact hs

/-- When the flag has been raised, all that is pushed until the end of the utterance is what the delivery loop had
    left of the buffer in its hands, chunk by chunk and from the first on: nothing if there was none, and no more
    chunks than those samples make. -/
theorem cancelled_within_buffer {config : Config} {library : Library} {program : List String}
    {isDirectory : String → Bool} {s₀ : State} {history : History} {later : List Label}
    (loaded : load config library program isDirectory = (.ok (setup, s₀), history))
    (h : run setup labels s₀ = some s) (up : s.dispatcher.pipe.flag = true)
    (hr : runUnderway setup later s = some t) :
    ∃ told : List HostEvent, t.dispatcher.pipe.heard = told.reverse ++ s.dispatcher.pipe.heard ∧
      (s.dispatcher.pipe.delivery.rest? = none → pushed told = []) ∧
      ∀ rest, s.dispatcher.pipe.delivery.rest? = some rest →
        pushed told <+: setup.limits.cut rest.rate rest.samples ∧
        (pushed told).length ≤ (rest.samples.length + setup.limits.chunkSize - 1) / setup.limits.chunkSize := by
  obtain rfl := load_start loaded
  obtain ⟨hs, -, -⟩ := run_orderly h
  obtain ⟨told, heard, first⟩ := runUnderway_due hr hs up
  have bound := accepted_mono ((List.prefix_append _ _).trans first)
  rw [Pipeline.accepted_due (run_solid h)] at bound
  refine ⟨told, heard, fun none => ?_, fun rest some => ?_⟩
  · rw [none] at bound
    exact List.prefix_nil.mp bound
  · rw [some] at bound
    refine ⟨bound, ?_⟩
    rw [← Pipeline.length_cut setup.limits rest.rate]
    exact bound.length_le

end

/-- A request is accepted, the first of three samples has been pushed, each in a chunk of its own, and someone
    cancels. -/
def cancelledInBuffer : List Label := List.flatten [
  [.call (.speak { payload := [104] }), .grant (.speak { payload := [104] })],
  List.replicate 6 (.inner .control),
  [.inner .release, .inner .speak],
  .inner (.call [1, 2, 3] false) :: List.replicate 5 (.inner (.produce false)),
  List.replicate 4 (.inner (.deliver .accepted)),
  [.cancel]]

theorem cancelled_within_buffer_threeChunks :
    ∃ setup s₀ s t history, ∃ told : List HostEvent,
      load { libraryDir := some "/lib", audioChunkSize := 1 } plainLibrary [] (fun _ => true) =
        (.ok (setup, s₀), history) ∧
      run setup cancelledInBuffer s₀ = some s ∧ s.dispatcher.pipe.flag = true ∧
      runUnderway setup (List.replicate 4 (.inner (.deliver .accepted))) s = some t ∧
      t.dispatcher.pipe.heard = told.reverse ++ s.dispatcher.pipe.heard ∧
      pushed told <+: setup.limits.cut 22050 [2, 3] := by
  have hr : (serve { libraryDir := some "/lib", audioChunkSize := 1 } plainLibrary [] (fun _ => true)
      cancelledInBuffer).bind (fun (setup, s) =>
        (runUnderway setup (List.replicate 4 (.inner (.deliver .accepted))) s).map fun t =>
          (s.dispatcher.pipe.flag, s.dispatcher.pipe.delivery)) =
      some (true, .announcing 22050 [2, 3]) := by
    decide +kernel
  obtain ⟨⟨setup, s⟩, hs, hr⟩ := Option.bind_eq_some_iff.mp hr
  obtain ⟨t, ht, hf⟩ := Option.map_eq_some_iff.mp hr
  obtain ⟨s₀, history, loaded, h⟩ := serve_inv hs
  obtain ⟨up, delivery⟩ := Prod.mk.inj hf
  obtain ⟨told, heard, -, first⟩ := cancelled_within_buffer loaded h up ht
  exact ⟨setup, s₀, s, t, history, told, loaded, h, up, ht, heard, (first _ (by rw [delivery]; rfl)).1⟩

/-- Two more pushes begin after the flag has been raised. -/
theorem pushes_outlast_cancel :
    ∃ setup s₀ s t history, ∃ told : List HostEvent,
      load { libraryDir := some "/lib", audioChunkSize := 1 } plainLibrary [] (fun _ => true) =
        (.ok (setup, s₀), history) ∧
      run setup cancelledInBuffer s₀ = some s ∧ s.dispatcher.underway = true ∧ s.dispatcher.pipe.flag = true ∧
      runUnderway setup (List.replicate 4 (.inner (.deliver .accepted))) s = some t ∧
      t.dispatcher.pipe.heard = told.reverse ++ s.dispatcher.pipe.heard ∧ (pushed told).length = 2 := by
  have hr : (serve { libraryDir := some "/lib", audioChunkSize := 1 } plainLibrary [] (fun _ => true)
      cancelledInBuffer).bind (fun (setup, s) =>
        (runUnderway setup (List.replicate 4 (.inner (.deliver .accepted))) s).map fun t =>
          (s.dispatcher.underway, s.dispatcher.pipe.flag, decide (t.dispatcher.pipe.heard =
            .push { rate := 22050, samples := [3] } .accepted :: .beforePlay ::
              .push { rate := 22050, samples := [2] } .accepted :: .beforePlay :: s.dispatcher.pipe.heard))) =
      some (true, true, true) := by
    decide +kernel
  obtain ⟨⟨setup, s⟩, hs, hr⟩ := Option.bind_eq_some_iff.mp hr
  obtain ⟨t, ht, hf⟩ := Option.map_eq_some_iff.mp hr
  obtain ⟨s₀, history, loaded, h⟩ := serve_inv hs
  obtain ⟨under, hf⟩ := Prod.mk.inj hf
  obtain ⟨up, heard⟩ := Prod.mk.inj hf
  exact ⟨setup, s₀, s, t, history, [.beforePlay, .push { rate := 22050, samples := [2] } .accepted, .beforePlay,
    .push { rate := 22050, samples := [3] } .accepted], loaded, h, under, up, ht, of_decide_eq_true heard, rfl⟩

end Service

end Orator

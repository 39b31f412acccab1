import Orator.Proofs.Service.Chronicle
import Orator.Proofs.Service.Release

/-! What the host hears from the load of the service to its close. Stops and pauses can fall anywhere in it; all else
    comes in order. -/

namespace Orator

namespace Service

open Dispatcher (Moved Exclusive Parted Rendition Rendered Unfinished)

section
variable {setup : Setup} {s t : State} {label : Label} {labels : List Label} {last : Bool} {past : List Note}

/-! ### The end of the run -/

/-- After the last call there is nobody left to tell the host anything, and then it is told to terminate. -/
structure Departing (s : State) : Prop where
  stopping : s.stage ≠ .serving → s.stopping = 0
  alone : s.stage ≠ .serving → Parted s.dispatcher → s.dispatcher.watcher = .absent
  within : s.stage ≠ .closed → .terminate ∉ s.dispatcher.pipe.heard
  ended : s.stage = .closed → ∃ before, s.dispatcher.pipe.heard = .terminate :: before ∧ .terminate ∉ before

theorem departing_of_serving (serving : s.stage = .serving) (within : .terminate ∉ s.dispatcher.pipe.heard) :
    Departing s where
  stopping left := absurd serving left
  alone left := absurd serving left
  within _ := within
  ended closed := by
    rw [serving] at closed
    cases closed

theorem step_within (h : step setup label s = some t) (other : label ≠ .terminate)
    (within : .terminate ∉ s.dispatcher.pipe.heard) : .terminate ∉ t.dispatcher.pipe.heard := by
  obtain ⟨more, heard, tells⟩ := step_tells h
  rw [heard, List.mem_append, List.mem_reverse, not_or]
  refine ⟨fun there => ?_, within⟩
  have own := tells _ there
  cases label with
  | terminate => exact other rfl
  | call task => cases task <;> cases own
  | _ => cases own

theorem Parted.idle {d : Dispatcher.State} (parted : Parted d) :
    d.control.spawns = false ∧ d.control.attends = false := by
  rcases parted.1 with here | here <;> (rw [here]; exact ⟨rfl, rfl⟩)

theorem quiet_of_parted {d : Dispatcher.State} (he : Exclusive d) (parted : Parted d) (alone : d.watcher = .absent) :
    d.Quiet := by
  have speaker : d.speaker = .absent := by
    rcases he.minded with absent | attends | awaits
    · exact absent
    · rw [(Parted.idle parted).2] at attends
      cases attends
    · rw [alone] at awaits
      cases awaits
  refine ⟨speaker, alone, ?_, he.producer_idle (by simp [speaker])⟩
  cases runs : d.pipe.delivery.running
  · rfl
  · obtain ⟨kind, watched⟩ := he.watched runs
    rw [alone] at watched
    cases watched

section
variable {inner : Dispatcher.Label} {d d' : Dispatcher.State}

theorem moved_alone (h : Moved setup.house setup.limits d inner d') (attends : d.control.attends = false)
    (alone : d.watcher = .absent) : d'.watcher = .absent := by
  cases h with
  | collected => rfl
  | attended here =>
    rw [here] at attends
    cases attends
  | counted here | forgone here | concluded here =>
    rw [alone] at here
    cases here
  | _ => exact alone

theorem moved_departing (h : Moved setup.house setup.limits d inner d') (he : Exclusive d)
    (granted : ∀ task, inner ≠ .take task) (parting : Dispatcher.Parting d)
    (alone : Parted d → d.watcher = .absent) (parted : Parted d') : d'.watcher = .absent := by
  rcases parting with waits | releases | here
  · cases h with
    | took => exact absurd rfl (granted _)
    | collected => rfl
    | wentOn here =>
      rw [waits] at here
      cases here
      rcases parted.1 with there | there <;> cases there
    | reported here | unresolved here | resolved here | unswitched here | switched here | stopped here
    | cleared here | opened here | spawned here | attended here | released here =>
      rw [waits] at here
      cases here
    | _ => rcases parted.1 with there | there <;> cases waits.symm.trans there
  · exact moved_alone h (by rw [releases]; rfl) (he.alone (by rw [releases]; rfl))
  · exact moved_alone h (Parted.idle here).2 (alone here)

theorem moved_silent (h : Moved setup.house setup.limits d inner d') (quiet : d.Quiet) :
    d'.pipe.heard = d.pipe.heard := by
  have nobody := quiet.nobody h
  obtain ⟨more, heard, told⟩ := Dispatcher.moved_told h
  obtain rfl : more = [] := by
    refine List.eq_nil_iff_forall_not_mem.mpr fun event there => ?_
    rcases told event there with ⟨-, stopRequested, rfl⟩ | ⟨-, verdict, rfl⟩ <;> cases nobody
  exact heard

end

theorem step_departing (h : step setup label s = some t) (he : Exclusive s.dispatcher) (hl : Leaving s)
    (hs : Departing s) : Departing t := by
  have within := step_within h
  cases stepped h with
  | refused serving | initialized serving | asked serving | called serving | stopped serving | paused serving
  | cancelled serving =>
    exact departing_of_serving serving (within Label.noConfusion (hs.within (by simp [serving])))
  | granted waits =>
    by_cases serving : s.stage = .serving
    · exact departing_of_serving serving (within Label.noConfusion (hs.within (by simp [serving])))
    · rw [hl.nobody serving] at waits
      cases waits
  | silenced pending =>
    by_cases serving : s.stage = .serving
    · exact departing_of_serving serving (within Label.noConfusion (hs.within (by simp [serving])))
    · have := hs.stopping serving
      omega
  | moved own moved =>
    have granted := not_take_of_internal own
    refine ⟨hs.stopping, fun left => moved_departing moved he granted (hl.parting left) (hs.alone left),
      fun open_ => within Label.noConfusion (hs.within open_), fun closed => ?_⟩
    have left : s.stage ≠ .serving := by
      rw [show s.stage = .closed from closed]
      exact Stage.noConfusion
    have parted := hl.parted closed
    rw [show _ = s.dispatcher.pipe.heard from moved_silent moved (quiet_of_parted he parted (hs.alone left parted))]
    exact hs.ended closed
  | closed serving _ silenced moved =>
    refine ⟨fun _ => silenced, fun _ parted => ?_,
      fun _ => within Label.noConfusion (hs.within (by simp [serving])), Stage.noConfusion⟩
    cases moved with
    | took => rcases parted.1 with there | there <;> cases there
  | terminated closing =>
    have left : s.stage ≠ .serving := by simp [closing]
    refine ⟨fun _ => hs.stopping left, fun _ parted => hs.alone left parted, fun open_ => absurd rfl open_, fun _ => ?_⟩
    exact ⟨_, rfl, hs.within (by simp [closing])⟩

/-! ### The run as a whole -/

/-- What holds of a run so far and of what is noted of it. -/
structure Chronicled (last : Bool) (past : List Note) (s : State) : Prop where
  exclusive : Exclusive s.dispatcher
  leaving : Leaving s
  departing : Departing s
  rendered : Rendered last s.dispatcher (past.filter Note.ofUtterance)
  heard : past.filterMap Note.event? = s.dispatcher.pipe.heard.reverse
  prompted : .told .beforeSynth ∉ past
  announced : Announced past
  owing : Owing past s

theorem start_chronicled (history : History) : Chronicled false [] (start history) where
  exclusive := Dispatcher.start_exclusive _
  leaving := leaving_of_serving rfl
  departing := departing_of_serving rfl nofun
  rendered := Unfinished.rendered (.none rfl rfl rfl)
  heard := rfl
  prompted := nofun
  announced := by simp [Announced]
  owing := by simp [Owing, owed, start, holds]

theorem step_chronicled (h : step setup label s = some t) (fairly : label.fair last = true) (hs : Chronicled last past s) :
    Chronicled (label.last last) (past ++ notes label s.dispatcher t.dispatcher) t := by
  obtain ⟨announced, owing⟩ := step_owing h hs.announced hs.owing
  refine ⟨stirred_exclusive (step_inv h) hs.exclusive, step_leaving h hs.leaving,
    step_departing h hs.exclusive hs.leaving hs.departing, step_rendered h hs.exclusive fairly hs.rendered,
    step_heard h hs.heard, ?_, announced, owing⟩
  exact fun there => (List.mem_append.mp there).elim hs.prompted (step_unprompted h)

end

/-- From the load of the service to its close, the host is told all there is in the chronicle of the run. It is told
    once of each call to speak, and an utterance begins after a call for its request that no earlier utterance came
    of. Utterances come one after the other, each as a phrase from the beginning of its delivery to its end; nothing is
    heard of sound icons and spelled words. The last event of all is the only one to terminate. -/
theorem protocol_upheld {config : Config} {library : Library} {program : List String} {isDirectory : String → Bool}
    {setup : Setup} {s₀ s : State} {history : History} {labels : List Label}
    (loaded : load config library program isDirectory = (.ok (setup, s₀), history))
    (h : run setup labels s₀ = some s) (closed : s.stage = .closed) (fairly : fair false labels = true) :
    let past := chronicle setup labels s₀
    past.filterMap Note.event? = s.dispatcher.pipe.heard.reverse ∧
    (past.filterMap Note.asked? = labels.filterMap Label.request? ∧ .told .beforeSynth ∉ past) ∧
    (∀ before request after, past = before ++ .opened request :: after →
      before.count (.opened request) < before.count (.asked request)) ∧
    (∃ renditions : List Rendition, past.filter Note.ofUtterance = renditions.flatMap Rendition.notes ∧
      ∀ r ∈ renditions, Phrase r.events ∧
        (∀ before after, r.events = before ++ .notifyEnd :: after → after = []) ∧
        (r.request.kind = .soundIcon ∨ r.request.kind = .spell → r.events = [])) ∧
    ∃ before, s.dispatcher.pipe.heard.reverse = before ++ [.terminate] ∧ .terminate ∉ before := by
  obtain rfl := load_start loaded
  obtain ⟨last, told⟩ := run_chronicle step_chronicled h fairly (start_chronicled history)
  rw [List.nil_append] at told
  refine ⟨told.heard, ⟨chronicle_asked h, told.prompted⟩, told.announced, ?_, ?_⟩
  · obtain ⟨renditions, current, whole, proper, unfinished⟩ := told.rendered
    have parted := told.leaving.parted closed
    have left : s.stage ≠ .serving := by simp [closed]
    have quiet := quiet_of_parted told.exclusive parted (told.departing.alone left parted)
    obtain rfl : current = [] := by
      cases unfinished with
      | none => rfl
      | opened here =>
        have idle := (Parted.idle parted).1
        rw [here] at idle
        cases idle
      | attending here =>
        have idle := (Parted.idle parted).2
        rw [here] at idle
        cases idle
      | delivering runs =>
        rw [quiet.delivery] at runs
        cases runs
    refine ⟨renditions, by rw [whole, List.append_nil], fun r hr => ⟨(proper r hr).1, ?_, ?_⟩⟩
    · intro before after split
      have phrase := (proper r hr).1
      rw [split] at phrase
      exact phrase.notifyEnd_last
    · intro silent
      refine (proper r hr).2 ?_
      rcases silent with kind | kind <;> simp [Request.speech?, kind]
  · obtain ⟨before, heard, within⟩ := told.departing.ended closed
    exact ⟨before.reverse, by rw [heard, List.reverse_cons], by simpa using within⟩

/-- A request for a single letter, which the engine utters with two samples; then the service is closed. -/
def oneUtterance : List Label := List.flatten [
  [.call (.speak { payload := [104] }), .grant (.speak { payload := [104] })],
  .replicate 6 (.inner .control), [.inner .release, .inner .speak, .inner (.call [1, 2] false)],
  .replicate 5 (.inner (.produce false)), .replicate 4 (.inner (.deliver .accepted)), [.inner (.call [] false)],
  .replicate 5 (.inner (.produce false)), [.inner (.spoke true), .inner .speak],
  .replicate 6 (.inner (.deliver .accepted)), .replicate 2 (.inner .watch),
  [.close, .inner .control, .inner .control, .inner .release, .terminate]]

theorem protocol_upheld_oneUtterance : ∃ setup s₀ s history,
    load { libraryDir := some "/lib" } plainLibrary [] (fun _ => true) = (.ok (setup, s₀), history) ∧
      run setup oneUtterance s₀ = some s ∧ s.stage = .closed ∧ fair false oneUtterance = true ∧
      (chronicle setup oneUtterance s₀).filterMap Note.event? = [.beforeSynth, .beforePlay,
        .push { rate := 22050, samples := [1, 2] } .accepted, .beforePlay, .notifyEnd, .terminate] ∧
      (chronicle setup oneUtterance s₀).filterMap Note.asked? = [{ payload := [104] }] ∧
      ∃ renditions : List Rendition,
        (chronicle setup oneUtterance s₀).filter Note.ofUtterance = renditions.flatMap Rendition.notes ∧
        ∀ r ∈ renditions, Phrase r.events := by
  have hr : (serve { libraryDir := some "/lib" } plainLibrary [] (fun _ => true) oneUtterance).map
      (fun served => (served.2.stage, served.2.dispatcher.pipe.heard.reverse)) =
      some (.closed, [.beforeSynth, .beforePlay, .push { rate := 22050, samples := [1, 2] } .accepted, .beforePlay,
        .notifyEnd, .terminate]) := by
    decide +kernel
  obtain ⟨⟨setup, s⟩, hs, there⟩ := Option.map_eq_some_iff.mp hr
  obtain ⟨closed, heard⟩ := Prod.mk.inj there
  obtain ⟨s₀, history, loaded, h⟩ := serve_inv hs
  have fairly : fair false oneUtterance = true := by decide +kernel
  obtain ⟨told, ⟨asked, -⟩, -, ⟨renditions, whole, proper⟩, -⟩ := protocol_upheld loaded h closed fairly
  exact ⟨setup, s₀, s, history, loaded, h, closed, fairly, told.trans heard, asked.trans (by decide +kernel),
    renditions, whole, fun r hr => (proper r hr).1⟩

end Service

end Orator

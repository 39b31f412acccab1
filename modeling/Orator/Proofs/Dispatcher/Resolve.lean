import Orator.Dispatcher
import Orator.Proofs.Session.Memory

/-! How a request gets its engine. `Choice` is the rule: the engine of the voice that is named, if it is live or
    starts; else the one that is live; else the first that starts in the default order. -/

namespace Orator

def Call.failure (name : String) : Call := .start name true none

def Call.refused : Call → Bool
  | .set _ _ accepted => !accepted
  | _ => false

/-- The stop calls it takes until no engine runs. -/
def Session.stops (s : Session) : List Call :=
  s.active.toList.map fun active => .stop active.engine

/-- What is said when no engine starts: all that were found, in order. -/
def House.tried (house : House) : String :=
  if house.catalog.engines = [] then "no engines discovered" else ", ".intercalate house.catalog.engines

/-- The voice that a request names, if there is such a voice. -/
def Request.voice? (house : House) (request : Request) : Option VoiceEntry :=
  request.prosody.voice.bind house.catalog.find?

namespace Dispatcher

/-- The calls after which a request finds no engine live: none, if none was and no voice is known; or those with
    which the engine of its voice failed to take the place of another. -/
inductive Darkened (house : House) (voice? : Option VoiceEntry) (s : Session) : List Call → Prop where
  | unnamed (unnamed : voice? = none) (dark : s.active = none) : Darkened house voice? s []
  | failed {entry} (named : voice? = some entry) (other : s.engineName ≠ some entry.engineName)
    (fails : house.offers entry.engineName s.stop.history = none) :
    Darkened house voice? s (s.stops ++ [.failure entry.engineName])

/-- The first of these engines that starts, if any does, and the calls it takes to find it. -/
inductive Search (house : House) : List String → History → List Call → Option Engine → Prop where
  | exhausted {h} : Search house [] h [] none
  | failed {name names h calls found} (fails : house.offers name h = none)
    (rest : Search house names (.failure name :: h) calls found) :
    Search house (name :: names) h (.failure name :: calls) found
  | started {name names h engine} (starts : house.offers name h = some engine) :
    Search house (name :: names) h [.start engine.name true (some engine)] (some engine)

/-- With which engine a request is spoken, and the calls it takes to get there, the oldest first. -/
inductive Choice (house : House) (voice? : Option VoiceEntry) (s : Session) : List Call → Option Active → Prop where
  /-- The engine of the voice is live, and the voice is the last it was sent. -/
  | spared {entry active} (named : voice? = some entry) (live : s.active = some active)
    (own : active.engine.name = entry.engineName) (sent : active.voice = some entry.native) :
    Choice house voice? s [] (some active)
  /-- The engine is live, and is sent the voice. -/
  | revoiced {entry active} (named : voice? = some entry) (live : s.active = some active)
    (own : active.engine.name = entry.engineName) (other : active.voice ≠ some entry.native) (accepted : Bool) :
    Choice house voice? s [.set active.engine (.voice entry.native) accepted]
      (some { active with voice := some entry.native })
  /-- It is not, but starts. -/
  | started {entry engine} (named : voice? = some entry) (other : s.engineName ≠ some entry.engineName)
    (starts : house.offers entry.engineName s.stop.history = some engine) (accepted : Bool) :
    Choice house voice? s
      (s.stops ++ [.start engine.name true (some engine), .set engine (.voice entry.native) accepted])
      (some { engine, voice := some entry.native })
  /-- No voice is known; the live engine keeps its own. -/
  | kept {active} (unnamed : voice? = none) (live : s.active = some active) : Choice house voice? s [] (some active)
  /-- No engine is live; the first is taken that starts in the default order, and it is sent no voice. -/
  | searched {before calls found} (dark : Darkened house voice? s before)
    (search : Search house house.candidates (before.reverse ++ s.history) calls found) :
    Choice house voice? s (before ++ calls) (found.map fun engine => { engine })

section
variable {house : House} {s t : Session} {request : Request} {entry : VoiceEntry}

theorem stop_history (s : Session) : s.stop.history = s.stops ++ s.history := by
  cases live : s.active with
  | none => simp [Session.stop, Session.stops, live]
  | some active => simp [Session.stop, Session.stops, live]

theorem stops_reverse (s : Session) : s.stops.reverse = s.stops := by
  cases live : s.active <;> simp [Session.stops, live]

/-! ### The engine of the voice -/

theorem selectVoice_of_unknown {voice : String} (unknown : house.catalog.find? voice = none) (s : Session) :
    s.selectVoice house voice = (.error (.unknownVoice voice), s) := by
  simp only [Session.selectVoice, unknown]

theorem selectVoice_of_live {voice : String} (found : house.catalog.find? voice = some entry)
    (live : s.engineName = some entry.engineName) :
    s.selectVoice house voice = (.ok (), s.sendVoice house entry.native) := by
  simp only [Session.selectVoice, found, Session.start_of_live live]

theorem selectVoice_of_failed {voice : String} (found : house.catalog.find? voice = some entry)
    (other : s.engineName ≠ some entry.engineName) (fails : house.offers entry.engineName s.stop.history = none) :
    ∃ fault, house.library.start s.stop.history house.libDir entry.engineName true = .error fault ∧
      s.selectVoice house voice = (.error (.engineStart entry.engineName fault),
        { s.stop with history := .failure entry.engineName :: s.stop.history }) := by
  obtain ⟨fault, answer, h⟩ := Session.launch_of_failed fails
  refine ⟨fault, answer, ?_⟩
  simp only [Session.selectVoice, found, Session.start_of_other other, h]
  rfl

theorem selectVoice_of_started {voice : String} {engine : Engine} (found : house.catalog.find? voice = some entry)
    (other : s.engineName ≠ some entry.engineName)
    (starts : house.offers entry.engineName s.stop.history = some engine) :
    ∃ accepted, s.selectVoice house voice =
      (.ok (), {
        active := some { engine, voice := some entry.native }
        history := .set engine (.voice entry.native) accepted ::
          .start engine.name true (some engine) :: s.stop.history }) := by
  obtain ⟨-, -, h⟩ := Session.launch_of_started starts
  simp only [Session.selectVoice, found, Session.start_of_other other, h]
  rw [Session.sendVoice_of_other rfl (by simp)]
  exact ⟨_, rfl⟩

/-! ### The default order -/

/-- What is left after these calls of a search: the engine that it found, or what was there before. -/
def searched (calls : List Call) (found : Option Engine) (s : Session) : Session :=
  match found with
  | some engine => { active := some { engine }, history := calls.reverse ++ s.history }
  | none => { s with history := calls.reverse ++ s.history }

theorem searched_history (calls : List Call) (found : Option Engine) (s : Session) :
    (searched calls found s).history = calls.reverse ++ s.history := by
  cases found <;> rfl

theorem searched_active (dark : s.active = none) (calls : List Call) (found : Option Engine) :
    (searched calls found s).active = found.map fun engine => { engine } := by
  cases found with
  | none => exact dark
  | some engine => rfl

theorem searched_cons (call : Call) (calls : List Call) (found : Option Engine) (s : Session) :
    searched calls found { s with history := call :: s.history } = searched (call :: calls) found s := by
  cases found <;> simp [searched]

/-- Without a live engine the default order is searched, and what it finds is live without a voice. -/
theorem startFirst_search (house : House) (dark : s.active = none) (names : List String) :
    ∃ calls found, Search house names s.history calls found ∧
      Session.startFirst house names s = (found.isSome, searched calls found s) := by
  induction names generalizing s with
  | nil => exact ⟨[], none, .exhausted, rfl⟩
  | cons name names ih =>
    have start : s.start house name = s.launch house name := by
      rw [Session.start_of_other (by simp [Session.engineName, dark]), Session.stop_of_dark dark]
    cases offer : house.offers name s.history with
    | none =>
      obtain ⟨fault, -, h⟩ := Session.launch_of_failed offer
      obtain ⟨calls, found, search, out⟩ := ih (s := { s with history := .failure name :: s.history }) dark
      refine ⟨_, found, .failed offer search, ?_⟩
      rw [searched_cons] at out
      simp only [Session.startFirst, start, h]
      exact out
    | some engine =>
      obtain ⟨-, -, h⟩ := Session.launch_of_started offer
      refine ⟨_, some engine, .started offer, ?_⟩
      simp only [Session.startFirst, start, h]
      rfl

theorem selectDefault_of_live {active : Active} (live : s.active = some active) :
    s.selectDefault house = (.ok (), s) := by
  simp [Session.selectDefault, Session.live, live]

/-- The answer to a search: it is a fault that none was found, and all engines are named. -/
def searchResult (house : House) (found : Option Engine) : Except Fault Unit :=
  if found.isSome then .ok () else .error (.noEngine house.tried)

theorem selectDefault_search (house : House) (dark : s.active = none) :
    ∃ calls found, Search house house.candidates s.history calls found ∧
      s.selectDefault house = (searchResult house found, searched calls found s) := by
  have out : s.live = false := by simp [Session.live, dark]
  obtain ⟨calls, found, search, h⟩ := startFirst_search house dark house.candidates
  refine ⟨calls, found, search, ?_⟩
  cases found <;> simp [Session.selectDefault, out, h, searchResult, House.tried]

/-- What is passed on of the parameters goes to the live engine; if it refuses nothing of that, it is set as they
    ask. -/
theorem applyParams_calls (house : House) (p : Prosody) {active : Active} (live : s.active = some active) :
    ∃ params, (s.applyParams house p).active = some active ∧ (s.applyParams house p).history = params ++ s.history ∧
      (∀ call ∈ params, ∃ dial accepted, call = .set active.engine (p.wish dial).setting accepted) ∧
      ((∀ call ∈ params, call.refused = false) →
        ∀ dial, (s.applyParams house p).applied.memory dial = some (p.wish dial)) := by
  obtain ⟨accepts, ha, hh, hr⟩ := Session.pass_all (by decide) live (Session.applyParams_eq house p s)
  refine ⟨_, ha, hh, ?_, ?_⟩
  · intro call hm
    obtain ⟨dial, -, rfl⟩ := List.mem_map.mp (List.mem_reverse.mp hm)
    exact ⟨dial, accepts dial, rfl⟩
  · intro obeyed dial
    have all : dial ∈ Dial.all := by cases dial <;> decide
    rw [hr]
    cases due : s.due p dial with
    | false => simpa [due] using Session.due_eq_false.mp due
    | true =>
      have hm := List.mem_map_of_mem (f := fun dial => Call.set active.engine (p.wish dial).setting (accepts dial))
        (List.mem_filter.mpr ⟨all, due⟩)
      have accepted : accepts dial = true := by
        simpa [Call.refused] using obeyed _ (List.mem_reverse.mpr hm)
      simp [all, accepted]

/-! ### Both together -/

/-- The session once the voice of a request has been seen to. -/
def voiceFor (house : House) (request : Request) (s : Session) : Session :=
  match request.prosody.voice with
  | some voice => (s.selectVoice house voice).2
  | none => s

theorem voiceFor_unnamed (unnamed : request.voice? house = none) : voiceFor house request s = s := by
  unfold voiceFor
  unfold Request.voice? at unnamed
  cases hv : request.prosody.voice with
  | none => rfl
  | some voice =>
    have unknown : house.catalog.find? voice = none := by simpa [hv] using unnamed
    exact congrArg Prod.snd (selectVoice_of_unknown unknown s)

theorem voiceFor_named (named : request.voice? house = some entry) :
    ∃ voice, house.catalog.find? voice = some entry ∧
      voiceFor house request s = (s.selectVoice house voice).2 := by
  obtain ⟨voice, hv, found⟩ := Option.bind_eq_some_iff.mp named
  exact ⟨voice, found, by simp [voiceFor, hv]⟩

theorem resolve_eq (house : House) (request : Request) (s : Session) :
    resolve house request s =
      match (voiceFor house request s).selectDefault house with
      | (.error fault, t) => (.error (.notReady fault.message), t)
      | (.ok (), t) =>
        match (t.applyParams house request.prosody).active with
        | some active => (.ok active.engine, t.applyParams house request.prosody)
        | none => (.error (.notReady "no engine set"), t.applyParams house request.prosody) := rfl

/-- What comes of a request, by the rule: it goes on with an engine, whose settings are then seen to, or it is
    refused. -/
inductive Resolved (house : House) (request : Request) (s : Session) : Except Fault Engine → Session → Prop where
  | found {calls params active t} (choice : Choice house (request.voice? house) s calls (some active))
    (live : t.active = some active) (history : t.history = params ++ (calls.reverse ++ s.history))
    (settings : ∀ call ∈ params, ∃ dial accepted,
      call = .set active.engine (request.prosody.wish dial).setting accepted)
    (obeyed : (∀ call ∈ params, call.refused = false) → ∀ dial,
      t.applied.memory dial = some (request.prosody.wish dial)) :
    Resolved house request s (.ok active.engine) t
  | refused {calls reason t} (choice : Choice house (request.voice? house) s calls none)
    (dark : t.active = none) (history : t.history = calls.reverse ++ s.history) :
    Resolved house request s (.error (.notReady reason)) t

/-- With an engine ready, a request goes on with that engine. -/
theorem resolve_of_ready {calls : List Call} {active : Active}
    (choice : Choice house (request.voice? house) s calls (some active))
    (ready : (voiceFor house request s).selectDefault house = (.ok (), t)) (live : t.active = some active)
    (history : t.history = calls.reverse ++ s.history) :
    Resolved house request s (resolve house request s).1 (resolve house request s).2 := by
  obtain ⟨params, ha, hh, settings, obeyed⟩ := applyParams_calls house request.prosody live
  rw [resolve_eq, ready]
  simp only [ha]
  exact .found choice ha (history ▸ hh) settings obeyed

theorem resolve_of_live {calls : List Call} {active : Active}
    (choice : Choice house (request.voice? house) s calls (some active))
    (live : (voiceFor house request s).active = some active)
    (history : (voiceFor house request s).history = calls.reverse ++ s.history) :
    Resolved house request s (resolve house request s).1 (resolve house request s).2 :=
  resolve_of_ready choice (selectDefault_of_live live) live history

theorem resolve_of_dark {before : List Call} (darkened : Darkened house (request.voice? house) s before)
    (dark : (voiceFor house request s).active = none)
    (history : (voiceFor house request s).history = before.reverse ++ s.history) :
    Resolved house request s (resolve house request s).1 (resolve house request s).2 := by
  obtain ⟨calls, found, search, h⟩ := selectDefault_search house dark
  have live := searched_active dark calls found
  have calls_eq : (searched calls found (voiceFor house request s)).history =
      (before ++ calls).reverse ++ s.history := by
    rw [searched_history, history, List.reverse_append, List.append_assoc]
  rw [history] at search
  have choice := Choice.searched darkened search
  cases found with
  | some engine => exact resolve_of_ready choice h live calls_eq
  | none =>
    rw [resolve_eq, h]
    exact .refused choice live calls_eq

theorem resolve_resolved (house : House) (request : Request) (s : Session) :
    Resolved house request s (resolve house request s).1 (resolve house request s).2 := by
  cases named : request.voice? house with
  | none =>
    have same := voiceFor_unnamed (s := s) named
    cases live : s.active with
    | some active =>
      refine resolve_of_live (.kept named live) ?_ ?_
      · rw [same, live]
      · rw [same]
        rfl
    | none =>
      refine resolve_of_dark (.unnamed named live) ?_ ?_
      · rw [same, live]
      · rw [same]
        rfl
  | some entry =>
    obtain ⟨voice, found, hv⟩ := voiceFor_named (s := s) named
    by_cases own : s.engineName = some entry.engineName
    · obtain ⟨active, live, name⟩ := Option.map_eq_some_iff.mp own
      rw [selectVoice_of_live found own] at hv
      by_cases sent : active.voice = some entry.native
      · rw [Session.sendVoice_of_sent live sent] at hv
        refine resolve_of_live (.spared named live name sent) ?_ ?_
        · rw [hv, live]
        · rw [hv]
          rfl
      · rw [Session.sendVoice_of_other live sent] at hv
        refine resolve_of_live (.revoiced named live name sent
          (house.library.accepts s.history active.engine (.voice entry.native))) ?_ ?_
        · rw [hv]
        · rw [hv]
          rfl
    · cases offer : house.offers entry.engineName s.stop.history with
      | none =>
        obtain ⟨fault, -, h⟩ := selectVoice_of_failed found own offer
        rw [h] at hv
        refine resolve_of_dark (.failed named own offer) ?_ ?_
        · rw [hv]
          exact Session.stop_active s
        · rw [hv, stop_history]
          simp [stops_reverse]
      | some engine =>
        obtain ⟨accepted, h⟩ := selectVoice_of_started found own offer
        rw [h] at hv
        refine resolve_of_live (.started named own offer accepted) ?_ ?_
        · rw [hv]
        · rw [hv, stop_history]
          simp [stops_reverse]

end

end Dispatcher

/-- A library of which one engine starts, and takes whatever it is told. -/
def loneLibrary (engines : List String) (name : String) (sampleRate : UInt32) : Library where
  engines := fun _ _ => engines
  start := fun _ libDir other _ => if other = name then .ok sampleRate else .error (.notFound other libDir)
  voices := fun _ _ => []
  accepts := fun _ _ _ => true

end Orator

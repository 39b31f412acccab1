import Orator.Proofs.Dispatcher.Resolve

/-! Selecting a voice does no more than it takes. An engine of another name is stopped, the engine of the voice is
    started unless it is live, and it is sent the voice unless that is what it was sent last. If the start fails, no
    engine is left and nothing is remembered. Once a voice is selected, nothing but another voice or a stop makes a
    session start, stop or revoice an engine. -/

namespace Orator

/-- The entry is the first of the catalog with that display name. -/
def Catalog.First (c : Catalog) (displayName : String) (entry : VoiceEntry) : Prop :=
  entry.displayName = displayName ∧
    ∃ before after, c.voices = before ++ entry :: after ∧ ∀ other ∈ before, other.displayName ≠ displayName

theorem Catalog.find?_eq_some_iff {c : Catalog} {displayName : String} {entry : VoiceEntry} :
    c.find? displayName = some entry ↔ c.First displayName entry := by
  simp [find?, First, List.find?_eq_some_iff_append]

theorem Catalog.find?_eq_none_iff {c : Catalog} {displayName : String} :
    c.find? displayName = none ↔ ∀ entry ∈ c.voices, entry.displayName ≠ displayName := by
  simp [find?]

namespace Session
variable {house : House} {entry : VoiceEntry} {displayName name : String} {s t u : Session} {r : Except Fault Unit}

/-! ### What it takes -/

/-- A live engine of another name is stopped. -/
def stopsFor (name : String) (s : Session) : List Call :=
  if s.engineName = some name then [] else s.stops

/-- The engine is started unless it was live; this is what the library came up with. -/
def startsFor (name : String) (engine : Option Engine) (s : Session) : List Call :=
  if s.engineName = some name then [] else [.start name true engine]

/-- The engine is sent the voice if it has just been started, or if it was sent another voice last, or none. -/
def voicesFor (name native : String) (accepted : Bool) (engine : Engine) (s : Session) : List Call :=
  if s.engineName = some name ∧ s.history.lastVoice engine = some native then []
  else [.set engine (.voice native) accepted]

theorem stopsFor_of_other (other : s.engineName ≠ some name) : s.stopsFor name = s.stops := if_neg other

theorem stop_eq (hs : Sound s) : s.stop = { history := s.stops ++ s.history } := by
  cases live : s.active with
  | some active =>
    rw [stop_of_live live]
    simp [stops, live]
  | none =>
    rw [stop_of_dark live]
    rcases s with ⟨active, applied, history⟩
    obtain rfl : active = none := live
    obtain rfl : applied = {} := hs.dark rfl
    rfl

/-- The engine is not live, and the library refuses to start it. -/
def Barred (house : House) (name : String) (s : Session) (cause : EngineFault) : Prop :=
  s.engineName ≠ some name ∧
    house.library.start (s.stopsFor name ++ s.history) house.libDir name true = .error cause

/-- What becomes of a session when the voice of an entry is selected. -/
structure Switched (house : House) (entry : VoiceEntry) (s : Session) (r : Except Fault Unit) (t : Session) :
    Prop where
  /-- All that was called, the oldest first. The voice is sent to the engine that is live in the end, if one is. -/
  calls : ∃ accepted, t.history =
    (s.stopsFor entry.engineName ++ s.startsFor entry.engineName t.engine? ++
      t.engine?.toList.flatMap fun engine => s.voicesFor entry.engineName entry.native accepted engine).reverse ++
      s.history
  /-- Without its engine the session is left with none, and remembers nothing. -/
  failed : ∀ cause, Barred house entry.engineName s cause →
    r = .error (.engineStart entry.engineName cause) ∧ t.live = false ∧ t.sampleRate = 0 ∧ t.voice = none ∧
      t.applied = {}
  settled : (∀ cause, ¬Barred house entry.engineName s cause) →
    r = .ok () ∧ t.engineName = some entry.engineName ∧ t.voice = some entry.native ∧
      ∃ engine, t.engine? = some engine ∧ t.sampleRate = engine.sampleRate ∧ History.Began engine t.history
  /-- An engine that was live stays the same instance with what it has been told. -/
  kept : s.engineName = some entry.engineName → t.engine? = s.engine? ∧ t.applied = s.applied

theorem switched_of_sent {active : Active} (hs : Sound s) (here : s.active = some active)
    (own : active.engine.name = entry.engineName) (sent : active.voice = some entry.native) :
    Switched house entry s (.ok ()) s := by
  have live : s.engineName = some entry.engineName := by simp [engineName, here, own]
  have last : s.history.lastVoice active.engine = some entry.native := (hs.voiced active here).trans sent
  have runs : History.Began active.engine s.history := (engine?_of_live here ▸ hs.solo).began
  refine ⟨⟨true, ?_⟩, fun _ barred => absurd live barred.1, fun _ => ?_, fun _ => ⟨rfl, rfl⟩⟩
  · rw [engine?_of_live here]
    simp [stopsFor, startsFor, voicesFor, live, last]
  · have told : s.voice = some entry.native := by simp [voice, here, sent]
    exact ⟨rfl, live, told, active.engine, engine?_of_live here, by simp [sampleRate, here], runs⟩

theorem switched_of_unsent {active : Active} (hs : Sound s) (here : s.active = some active)
    (own : active.engine.name = entry.engineName) (unsent : active.voice ≠ some entry.native) :
    Switched house entry s (.ok ()) (s.sendVoice house entry.native) := by
  have live : s.engineName = some entry.engineName := by simp [engineName, here, own]
  have last : s.history.lastVoice active.engine ≠ some entry.native := hs.voiced active here ▸ unsent
  have runs : History.Began active.engine s.history := (engine?_of_live here ▸ hs.solo).began
  rw [sendVoice_of_other here unsent]
  generalize house.library.accepts s.history active.engine (.voice entry.native) = accepted
  refine ⟨⟨accepted, ?_⟩, fun _ barred => absurd live barred.1, fun _ => ?_, fun _ => ?_⟩
  · simp [stopsFor, startsFor, voicesFor, live, engine?, last]
  · exact ⟨rfl, congrArg some own, rfl, active.engine, rfl, rfl, runs.cons _⟩
  · exact ⟨(engine?_of_live here).symm, rfl⟩

theorem switched_of_barred {cause : EngineFault} (barred : Barred house entry.engineName s cause) :
    Switched house entry s (.error (.engineStart entry.engineName cause))
      { history := .failure entry.engineName :: (s.stops ++ s.history) } := by
  obtain ⟨other, fails⟩ := barred
  refine ⟨⟨true, ?_⟩, fun cause' barred => ?_, fun open_ => ?_, fun live => absurd live other⟩
  · simp [stopsFor, startsFor, other, Dispatcher.stops_reverse, engine?, Call.failure]
  · obtain rfl : cause' = cause := by
      have := barred.2.symm.trans fails
      cases this
      rfl
    exact ⟨rfl, rfl, rfl, rfl, rfl⟩
  · exact absurd ⟨other, fails⟩ (open_ cause)

theorem switched_of_started {engine : Engine} (other : s.engineName ≠ some entry.engineName)
    (starts : house.offers entry.engineName (s.stops ++ s.history) = some engine) (accepted : Bool) :
    Switched house entry s (.ok ()) {
      active := some { engine, voice := some entry.native }
      history := .set engine (.voice entry.native) accepted :: .start engine.name true (some engine) ::
        (s.stops ++ s.history) } := by
  obtain ⟨rate, answer, rfl⟩ := House.start_of_offered starts
  refine ⟨⟨accepted, ?_⟩, fun cause barred => ?_, fun _ => ?_, fun live => absurd live other⟩
  · simp [stopsFor, startsFor, voicesFor, other, Dispatcher.stops_reverse, engine?]
  · have refused := barred.2
    rw [stopsFor_of_other other, answer] at refused
    cases refused
  · exact ⟨rfl, rfl, rfl, _, rfl, rfl, entry.engineName, true, by simp⟩

theorem selectVoice_switched (hs : Sound s) (found : house.catalog.find? displayName = some entry)
    (selects : s.selectVoice house displayName = (r, t)) : Switched house entry s r t := by
  by_cases live : s.engineName = some entry.engineName
  · obtain ⟨active, here, own⟩ := Option.map_eq_some_iff.mp live
    rw [Dispatcher.selectVoice_of_live found live] at selects
    cases selects
    by_cases sent : active.voice = some entry.native
    · rw [sendVoice_of_sent here sent]
      exact switched_of_sent hs here own sent
    · exact switched_of_unsent hs here own sent
  · cases offer : house.offers entry.engineName s.stop.history with
    | none =>
      obtain ⟨cause, answer, fails⟩ := Dispatcher.selectVoice_of_failed found live offer
      rw [fails, stop_eq hs] at selects
      rw [stop_eq hs] at answer
      cases selects
      exact switched_of_barred ⟨live, by rw [stopsFor_of_other live, answer]⟩
    | some engine =>
      obtain ⟨accepted, starts⟩ := Dispatcher.selectVoice_of_started found live offer
      rw [starts, stop_eq hs] at selects
      rw [stop_eq hs] at offer
      cases selects
      exact switched_of_started live offer accepted

theorem Switched.known (h : Switched house entry s r t) (displayName : String) :
    r ≠ .error (.unknownVoice displayName) := by
  by_cases barred : ∃ cause, Barred house entry.engineName s cause
  · obtain ⟨cause, barred⟩ := barred
    rw [(h.failed cause barred).1]
    exact nofun
  · rw [(h.settled (not_exists.mp barred)).1]
    exact nofun

/-! ### What follows a selection -/

/-- The engine of the entry is live and was sent its voice last. -/
structure Seated (entry : VoiceEntry) (active : Active) (s : Session) : Prop where
  here : s.active = some active
  own : active.engine.name = entry.engineName
  sent : active.voice = some entry.native

theorem Switched.seated (h : Switched house entry s (.ok ()) t) : ∃ active, Seated entry active t := by
  obtain ⟨-, live, told, -⟩ := h.settled fun cause barred => nomatch (h.failed cause barred).1
  obtain ⟨active, here, own⟩ := Option.map_eq_some_iff.mp live
  exact ⟨active, here, own, by simpa [voice, here] using told⟩

/-- Whether the operation is one of those that have no business with voices, or asks for this one. -/
def Op.keeps (displayName : String) : Op → Bool
  | selectVoice other => other == displayName
  | selectDefault | params _ | wish _ => true
  | stop => false

section
variable {active : Active}

theorem Seated.again (h : Seated entry active s) (found : house.catalog.find? displayName = some entry) :
    s.selectVoice house displayName = (.ok (), s) := by
  have live : s.engineName = some entry.engineName := by simp [engineName, h.here, h.own]
  rw [Dispatcher.selectVoice_of_live found live, sendVoice_of_sent h.here h.sent]

theorem Seated.run (h : Seated entry active s) (found : house.catalog.find? displayName = some entry) {op : Op}
    (keeps : op.keeps displayName = true) :
    Seated entry active (op.run house s) ∧ ∃ calls, (op.run house s).history = calls ++ s.history ∧
      ∀ call ∈ calls, ∃ wish accepted, call = .set active.engine (Wish.setting wish) accepted := by
  cases op with
  | selectVoice other =>
    obtain rfl : other = displayName := by simpa [Op.keeps] using keeps
    simp only [Op.run, h.again found]
    exact ⟨h, [], rfl, nofun⟩
  | selectDefault =>
    simp only [Op.run, Dispatcher.selectDefault_of_live h.here]
    exact ⟨h, [], rfl, nofun⟩
  | params p =>
    obtain ⟨calls, here, made, settings, -⟩ := Dispatcher.applyParams_calls house p h.here
    refine ⟨⟨here, h.own, h.sent⟩, calls, made, fun call hm => ?_⟩
    obtain ⟨dial, accepted, rfl⟩ := settings call hm
    exact ⟨p.wish dial, accepted, rfl⟩
  | wish wish =>
    simp only [Op.run, heed_of_live h.here]
    refine ⟨⟨h.here, h.own, h.sent⟩, [_], rfl, fun call hm => ?_⟩
    exact ⟨wish, _, List.mem_singleton.mp hm⟩
  | stop => cases keeps

theorem Seated.operate (h : Seated entry active s) (found : house.catalog.find? displayName = some entry)
    {ops : List Op} (keep : ∀ op ∈ ops, op.keeps displayName = true) :
    Seated entry active (operate house ops s) ∧ ∃ calls, (operate house ops s).history = calls ++ s.history ∧
      ∀ call ∈ calls, ∃ wish accepted, call = .set active.engine (Wish.setting wish) accepted := by
  induction ops generalizing s with
  | nil => exact ⟨h, [], rfl, nofun⟩
  | cons op ops ih =>
    obtain ⟨next, first, grown, tuned⟩ := h.run found (keep op List.mem_cons_self)
    obtain ⟨last, later, more, tunes⟩ := ih next fun op hm => keep op (List.mem_cons_of_mem _ hm)
    refine ⟨last, later ++ first, ?_, fun call hm => (List.mem_append.mp hm).elim (tunes call) (tuned call)⟩
    rw [List.append_assoc, ← grown]
    exact more

end

/-- A name is unknown exactly if no voice has it; then nothing is called and nothing changes. Otherwise the session
    switches to the first voice of that name, with no more calls than it takes. Once this has succeeded, requests for
    the same voice or for any engine, and parameters, change neither engine nor voice and call nothing but setters. -/
theorem selection_exact {h : History} {ops : List Op} (rests : h.Solo none)
    (ran : operate house ops { history := h } = s) (selects : s.selectVoice house displayName = (r, t)) :
    (r = .error (.unknownVoice displayName) ↔ ∀ entry ∈ house.catalog.voices, entry.displayName ≠ displayName) ∧
    (r = .error (.unknownVoice displayName) → t = s) ∧
    ∀ entry, house.catalog.First displayName entry → Switched house entry s r t ∧
      (r = .ok () → ∀ more u, (∀ op ∈ more, Op.keeps displayName op = true) → operate house more t = u →
        u.active = t.active ∧
        (∃ calls, u.history = calls ++ t.history ∧ ∀ call ∈ calls, ∃ engine wish accepted,
          t.engine? = some engine ∧ call = .set engine (Wish.setting wish) accepted) ∧
        u.selectVoice house displayName = (.ok (), u) ∧ u.selectDefault house = (.ok (), u)) := by
  have hs : Sound s := ran ▸ operate_sound house ops (start_sound rests)
  have unknown (refused : r = .error (.unknownVoice displayName)) : house.catalog.find? displayName = none := by
    cases found : house.catalog.find? displayName with
    | none => rfl
    | some entry => exact absurd refused ((selectVoice_switched hs found selects).known displayName)
  refine ⟨⟨fun refused => Catalog.find?_eq_none_iff.mp (unknown refused), fun absent => ?_⟩, fun refused => ?_,
    fun entry first => ?_⟩
  · rw [Dispatcher.selectVoice_of_unknown (Catalog.find?_eq_none_iff.mpr absent)] at selects
    exact (congrArg Prod.fst selects).symm
  · rw [Dispatcher.selectVoice_of_unknown (unknown refused)] at selects
    exact (congrArg Prod.snd selects).symm
  · have found := Catalog.find?_eq_some_iff.mpr first
    have switched := selectVoice_switched hs found selects
    refine ⟨switched, ?_⟩
    rintro rfl more u keep rfl
    obtain ⟨active, seated⟩ := switched.seated
    obtain ⟨still, calls, grown, tuned⟩ := seated.operate found keep
    refine ⟨still.here.trans seated.here.symm, ⟨calls, grown, fun call made => ?_⟩, still.again found,
      Dispatcher.selectDefault_of_live still.here⟩
    obtain ⟨wish, accepted, rfl⟩ := tuned call made
    exact ⟨active.engine, wish, accepted, engine?_of_live seated.here, rfl⟩

def readyVoice : VoiceEntry := ⟨"espeak a", "en", "null"⟩

def absentVoice : VoiceEntry := ⟨"flite b", "en", "null"⟩

/-- Two engines with a voice each, of which one does not start. -/
def twoVoices : House where
  library := loneLibrary ["espeak", "flite"] "espeak" 22050
  libDir := "/lib"
  catalog := ⟨["espeak", "flite"], [readyVoice, absentVoice]⟩
  preferred := "espeak"

/-- The engine that was live is given up for one that does not start. -/
theorem selection_exact_absentEngine : ∃ s t, operate twoVoices [.selectVoice "espeak a"] {} = s ∧
    s.live = true ∧ twoVoices.catalog.First "flite b" absentVoice ∧
    s.selectVoice twoVoices "flite b" = (.error (.engineStart "flite" (.notFound "flite" "/lib")), t) ∧
    t.live = false ∧ t.applied = {} := by
  have first : twoVoices.catalog.First "flite b" absentVoice := ⟨rfl, [readyVoice], [], rfl, by decide⟩
  have name : absentVoice.engineName = "flite" := by decide +kernel
  have barred : Barred twoVoices absentVoice.engineName (operate twoVoices [.selectVoice "espeak a"] {})
      (.notFound "flite" "/lib") := by
    rw [name]
    exact ⟨by decide +kernel, rfl⟩
  obtain ⟨-, -, switches⟩ := selection_exact .nil rfl rfl
  obtain ⟨switched, -⟩ := switches absentVoice first
  obtain ⟨refused, dark, -, -, forgotten⟩ := switched.failed _ barred
  rw [name] at refused
  exact ⟨_, _, rfl, by decide +kernel, first, Prod.ext refused rfl, dark, forgotten⟩

end Session

end Orator

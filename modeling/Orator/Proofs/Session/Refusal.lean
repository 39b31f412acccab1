import Orator.Proofs.Session.Switching

/-! A voice counts as selected once it has been sent, whether or not the engine took it. So an engine that is not in
    the voice that is selected is sent that voice, unless it has just refused it: then it is not asked again, though it
    would be asked again for a rate, a pitch or a punctuation. -/

namespace Orator

/-- The voice that the call sent to the engine, and whether the engine took it. -/
def Call.tried? (engine : Engine) : Call → Option (String × Bool)
  | .set other (.voice native) accepted => if other = engine then some (native, accepted) else none
  | _ => none

theorem Call.sent?_eq (engine : Engine) (call : Call) : call.sent? engine = (call.tried? engine).map Prod.fst := by
  cases call with
  | set other setting accepted =>
    cases setting with
    | voice native => by_cases own : other = engine <;> simp [sent?, tried?, own]
    | _ => rfl
  | _ => rfl

namespace History
variable {h : History} {engine : Engine} {native : String}

/-- The voices that the engine was sent, the latest first, each with its answer. -/
def tries (engine : Engine) (h : History) : List (String × Bool) := h.filterMap (·.tried? engine)

/-- The voice that the engine took last. -/
def takenVoice (engine : Engine) (h : History) : Option String := ((h.tries engine).find? (·.2)).map Prod.fst

theorem lastVoice_eq (engine : Engine) (h : History) :
    h.lastVoice engine = (h.tries engine).head?.map Prod.fst := by
  rw [tries, List.head?_filterMap, List.map_findSome?]
  exact congrArg (List.findSome? · h) (funext fun call => call.sent?_eq engine)

theorem tries_cons (engine : Engine) (native : String) (accepted : Bool) (h : History) :
    tries engine (.set engine (.voice native) accepted :: h) = (native, accepted) :: h.tries engine := by
  simp [tries, Call.tried?]

theorem takenVoice_cons (engine : Engine) (native : String) (accepted : Bool) (h : History) :
    takenVoice engine (.set engine (.voice native) accepted :: h) =
      if accepted then some native else h.takenVoice engine := by
  rw [takenVoice, tries_cons]
  cases accepted <;> rfl

/-- An engine that was sent a voice last and is not in it has refused it. -/
theorem refused_of_untaken (sent : h.lastVoice engine = some native) (untaken : h.takenVoice engine ≠ some native) :
    (h.tries engine).head? = some (native, false) := by
  rw [lastVoice_eq] at sent
  obtain ⟨⟨voice, accepted⟩, last, rfl⟩ := Option.map_eq_some_iff.mp sent
  cases accepted with
  | false => exact last
  | true =>
    obtain ⟨earlier, tries_eq⟩ := List.head?_eq_some_iff.mp last
    exact absurd (by simp [takenVoice, tries_eq]) untaken

end History

namespace Session
variable {house : House} {entry : VoiceEntry} {displayName : String} {s t : Session} {r : Except Fault Unit}

/-- With the engine of a voice live, but not in it, selecting the voice sends it to the engine, which takes it or stays
    in the one it took before; unless it was sent this voice last, and refused it: then nothing is called. -/
theorem voice_sent_unless_refused {h : History} {ops : List Op} {active : Active} (rests : h.Solo none)
    (ran : operate house ops { history := h } = s) (first : house.catalog.First displayName entry)
    (here : s.active = some active) (own : active.engine.name = entry.engineName)
    (untaken : s.history.takenVoice active.engine ≠ some entry.native)
    (selects : s.selectVoice house displayName = (r, t)) :
    r = .ok () ∧ t.engine? = some active.engine ∧
    if (s.history.tries active.engine).head? = some (entry.native, false) then t = s
    else ∃ accepted, t.history = .set active.engine (.voice entry.native) accepted :: s.history ∧
      t.history.takenVoice active.engine =
        if accepted then some entry.native else s.history.takenVoice active.engine := by
  have hs : Sound s := ran ▸ operate_sound house ops (start_sound rests)
  have live : s.engineName = some entry.engineName := by simp [engineName, here, own]
  have last := hs.voiced active here
  rw [Dispatcher.selectVoice_of_live (Catalog.find?_eq_some_iff.mpr first) live] at selects
  by_cases sent : active.voice = some entry.native
  · rw [sendVoice_of_sent here sent] at selects
    cases selects
    rw [if_pos (History.refused_of_untaken (last.trans sent) untaken)]
    exact ⟨rfl, engine?_of_live here, rfl⟩
  · rw [sendVoice_of_other here sent] at selects
    cases selects
    refine ⟨rfl, rfl, ?_⟩
    rw [if_neg]
    · exact ⟨_, rfl, History.takenVoice_cons _ _ _ _⟩
    · intro refused
      rw [History.lastVoice_eq, refused] at last
      exact sent last.symm

def harshVoice : VoiceEntry := ⟨"espeak harsh", "en", "null"⟩

def mildVoice : VoiceEntry := ⟨"espeak mild", "en", "null"⟩

/-- A library whose engine refuses the first voice that it is sent, and takes all others. -/
def coyHouse : House where
  library := {
    engines := fun _ _ => ["espeak"]
    start := fun _ _ _ _ => .ok 22050
    voices := fun _ _ => ["harsh,en", "mild,en"]
    accepts := fun h _ _ => h.any Call.refused }
  libDir := "/lib"
  catalog := ⟨["espeak"], [harshVoice, mildVoice]⟩
  preferred := "espeak"

/-- What becomes of a session there, once a voice has been selected and refused. -/
def snubbed : Session := operate coyHouse [.selectVoice "espeak harsh"] {}

def snubber : Active := { engine := ⟨0, "espeak", 22050⟩, voice := some "harsh,en" }

theorem snubbed_active : snubbed.active = some snubber := by decide +kernel

/-- Another voice is sent, and taken. -/
theorem voice_sent_unless_refused_otherVoice : ∃ t accepted,
    snubbed.active = some snubber ∧ snubbed.history.takenVoice snubber.engine ≠ some mildVoice.native ∧
    snubbed.selectVoice coyHouse "espeak mild" = (.ok (), t) ∧
    t.history = .set snubber.engine (.voice mildVoice.native) accepted :: snubbed.history := by
  have first : coyHouse.catalog.First "espeak mild" mildVoice := ⟨rfl, [harshVoice], [], rfl, by decide⟩
  have untaken : snubbed.history.takenVoice snubber.engine ≠ some mildVoice.native := by decide +kernel
  obtain ⟨done, -, sent⟩ :=
    voice_sent_unless_refused .nil rfl first snubbed_active (by decide +kernel) untaken rfl
  rw [if_neg (by decide +kernel)] at sent
  obtain ⟨accepted, calls, -⟩ := sent
  exact ⟨_, accepted, snubbed_active, untaken, Prod.ext done rfl, calls⟩

/-- The same voice is not sent once more, though the engine is not in it and would take it now. -/
theorem refused_voice_forgotten :
    snubbed.active = some snubber ∧ coyHouse.catalog.First "espeak harsh" harshVoice ∧
    snubber.engine.name = harshVoice.engineName ∧
    snubbed.history.takenVoice snubber.engine ≠ some harshVoice.native ∧
    coyHouse.library.accepts snubbed.history snubber.engine (.voice harshVoice.native) = true ∧
    snubbed.selectVoice coyHouse "espeak harsh" = (.ok (), snubbed) := by
  have first : coyHouse.catalog.First "espeak harsh" harshVoice := ⟨rfl, [], [mildVoice], rfl, nofun⟩
  have seated : Seated harshVoice snubber snubbed := ⟨snubbed_active, by decide +kernel, by decide +kernel⟩
  refine ⟨seated.here, first, seated.own, by decide +kernel, by decide +kernel, ?_⟩
  exact seated.again (Catalog.find?_eq_some_iff.mpr first)

end Session

end Orator

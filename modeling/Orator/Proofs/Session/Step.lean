import Orator.Proofs.Session.Instances
import Orator.Session

/-! What a session does, one call at a time. Every operation is a sequence of `Step`s; what each of them keeps,
    all operations keep. -/

namespace Orator

/-! ### What the host wishes for -/

/-- The three kinds of settings that a session remembers. -/
inductive Dial where
  | speed | pitch | punctuation
deriving DecidableEq, Repr

/-- The order in which they are passed on. -/
def Dial.all : List Dial := [.speed, .pitch, .punctuation]

def Setting.dial? : Setting → Option Dial
  | .voice _ => none
  | .speed _ => some .speed
  | .pitch _ => some .pitch
  | .punctuation _ => some .punctuation

/-- A value for one of them, as the host puts it. -/
inductive Wish where
  | rate (value : Int32)
  | pitch (value : Int32)
  | punctuation (mode : PunctuationMode)
deriving DecidableEq, Repr

namespace Wish

def dial : Wish → Dial
  | rate _ => .speed
  | pitch _ => .pitch
  | punctuation _ => .punctuation

/-- The same value as it is put to an engine. -/
def setting : Wish → Setting
  | rate value => .speed (speedOfRate value)
  | pitch value => .pitch (factorOfPitch value)
  | punctuation mode => .punctuation mode.level

@[simp] theorem dial_setting (w : Wish) : w.setting.dial? = some w.dial := by
  cases w <;> rfl

end Wish

def Prosody.wish (p : Prosody) : Dial → Wish
  | .speed => .rate p.rate
  | .pitch => .pitch p.pitch
  | .punctuation => .punctuation p.punctuation

@[simp] theorem Prosody.dial_wish (p : Prosody) (dial : Dial) : (p.wish dial).dial = dial := by
  cases dial <;> rfl

namespace Applied

/-- What is remembered of a dial. -/
def memory (a : Applied) : Dial → Option Wish
  | .speed => a.rate.map .rate
  | .pitch => a.pitch.map .pitch
  | .punctuation => a.punctuation.map .punctuation

def note (a : Applied) : Wish → Applied
  | .rate value => { a with rate := some value }
  | .pitch value => { a with pitch := some value }
  | .punctuation mode => { a with punctuation := some mode }

theorem memory_empty (dial : Dial) : ({} : Applied).memory dial = none := by
  cases dial <;> rfl

@[simp] theorem memory_note_self (a : Applied) (w : Wish) : (a.note w).memory w.dial = some w := by
  cases w <;> rfl

theorem memory_note_of_ne (a : Applied) {w : Wish} {dial : Dial} (other : w.dial ≠ dial) :
    (a.note w).memory dial = a.memory dial := by
  cases w <;> cases dial <;> first | rfl | exact absurd rfl other

end Applied

/-! ### What an engine has accepted, and what it was sent -/

/-- The setting, if the call made the engine accept one of that dial. -/
def Call.accepted? (engine : Engine) (dial : Dial) : Call → Option Setting
  | .set other setting true => if other = engine ∧ setting.dial? = some dial then some setting else none
  | _ => none

/-- The voice, if the call sent one to the engine. -/
def Call.sent? (engine : Engine) : Call → Option String
  | .set other (.voice native) _ => if other = engine then some native else none
  | _ => none

namespace History

/-- The setting of that dial which the engine accepted last. -/
def effective (engine : Engine) (dial : Dial) (h : History) : Option Setting :=
  h.findSome? (·.accepted? engine dial)

/-- The voice that the engine was sent last, whether or not it accepted it. -/
def lastVoice (engine : Engine) (h : History) : Option String :=
  h.findSome? (·.sent? engine)

end History

/-- The instance that the library comes up with if it is asked for the engine after these calls. -/
def House.offers (house : House) (name : String) (h : History) : Option Engine :=
  (house.library.launch house.libDir name true h).1.toOption

theorem House.start_of_failed {house : House} {name : String} {h : History} (fails : house.offers name h = none) :
    ∃ fault, house.library.start h house.libDir name true = .error fault := by
  unfold offers Library.launch at fails
  cases answer : house.library.start h house.libDir name true with
  | error fault => exact ⟨fault, rfl⟩
  | ok rate =>
    rw [answer] at fails
    cases fails

theorem House.start_of_offered {house : House} {name : String} {h : History} {engine : Engine}
    (starts : house.offers name h = some engine) :
    ∃ rate, house.library.start h house.libDir name true = .ok rate ∧
      engine = { number := h.started, name, sampleRate := rate } := by
  unfold offers Library.launch at starts
  cases answer : house.library.start h house.libDir name true with
  | error fault =>
    rw [answer] at starts
    cases starts
  | ok rate =>
    rw [answer] at starts
    exact ⟨rate, rfl, (Option.some.inj starts).symm⟩

namespace Session

def engine? (s : Session) : Option Engine :=
  s.active.map (·.engine)

/-! ### Steps -/

/-- One call of an operation that may wish for the values `asks`, and what it makes of the session. -/
inductive Step (asks : Dial → Option Wish) (s : Session) : Call → Session → Prop where
  | failed {name} (dark : s.active = none) :
    Step asks s (.start name true none) { s with history := .start name true none :: s.history }
  | launched {engine} (dark : s.active = none) (new : engine.number = s.history.started) :
    Step asks s (.start engine.name true (some engine))
      { active := some { engine }, history := .start engine.name true (some engine) :: s.history }
  | stopped {active} (live : s.active = some active) :
    Step asks s (.stop active.engine) { history := .stop active.engine :: s.history }
  | voiced {active native accepted} (live : s.active = some active) :
    Step asks s (.set active.engine (.voice native) accepted)
      { s with
        active := some { active with voice := some native }
        history := .set active.engine (.voice native) accepted :: s.history }
  | told {active wish accepted} (live : s.active = some active) (asked : asks wish.dial = some wish) :
    Step asks s (.set active.engine wish.setting accepted)
      { s with
        applied := if accepted then s.applied.note wish else s.applied
        history := .set active.engine wish.setting accepted :: s.history }

/-- The calls of an operation, the latest first. -/
inductive Steps (asks : Dial → Option Wish) (s : Session) : List Call → Session → Prop where
  | refl : Steps asks s [] s
  | snoc {calls call t u} (rest : Steps asks s calls t) (h : Step asks t call u) : Steps asks s (call :: calls) u

section
variable {house : House} {asks : Dial → Option Wish} {s t u : Session} {call : Call} {calls more : List Call}

theorem Step.history (h : Step asks s call t) : t.history = call :: s.history := by
  cases h <;> rfl

theorem Steps.history (h : Steps asks s calls t) : t.history = calls ++ s.history := by
  induction h with
  | refl => rfl
  | snoc rest h ih => rw [h.history, ih, List.cons_append]

theorem Steps.single (h : Step asks s call t) : Steps asks s [call] t := .snoc .refl h

theorem Steps.trans (h₁ : Steps asks s calls t) (h₂ : Steps asks t more u) : Steps asks s (more ++ calls) u := by
  induction h₂ with
  | refl => exact h₁
  | snoc rest h ih => exact .snoc ih h

/-! ### Every operation is a sequence of steps -/

theorem stop_of_dark (dark : s.active = none) : s.stop = s := by
  simp [stop, dark]

theorem stop_of_live {active : Active} (live : s.active = some active) :
    s.stop = { history := .stop active.engine :: s.history } := by
  simp [stop, live]

theorem stop_active (s : Session) : s.stop.active = none := by
  cases h : s.active with
  | none => rw [stop_of_dark h, h]
  | some active => rw [stop_of_live h]

theorem stop_steps (asks : Dial → Option Wish) (s : Session) : ∃ calls, Steps asks s calls s.stop := by
  cases h : s.active with
  | none =>
    rw [stop_of_dark h]
    exact ⟨[], .refl⟩
  | some active =>
    rw [stop_of_live h]
    exact ⟨_, .single (.stopped h)⟩

theorem launch_of_failed {name : String} (fails : house.offers name s.history = none) :
    ∃ fault, house.library.start s.history house.libDir name true = .error fault ∧
      s.launch house name =
        (.error (.engineStart name fault), { s with history := .start name true none :: s.history }) := by
  obtain ⟨fault, answer⟩ := House.start_of_failed fails
  exact ⟨fault, answer, by simp [launch, Library.launch, answer]⟩

theorem launch_of_started {name : String} {engine : Engine} (starts : house.offers name s.history = some engine) :
    engine.name = name ∧ engine.number = s.history.started ∧ s.launch house name =
      (.ok (), { active := some { engine }, history := .start engine.name true (some engine) :: s.history }) := by
  obtain ⟨rate, answer, rfl⟩ := House.start_of_offered starts
  exact ⟨rfl, rfl, by simp [launch, Library.launch, answer]⟩

theorem launch_steps (asks : Dial → Option Wish) (house : House) (name : String) (dark : s.active = none) :
    ∃ calls, Steps asks s calls (s.launch house name).2 := by
  cases offer : house.offers name s.history with
  | none =>
    obtain ⟨fault, -, h⟩ := launch_of_failed offer
    rw [h]
    exact ⟨_, .single (.failed dark)⟩
  | some engine =>
    obtain ⟨-, new, h⟩ := launch_of_started offer
    rw [h]
    exact ⟨_, .single (.launched dark new)⟩

theorem start_of_live {name : String} (live : s.engineName = some name) : s.start house name = (.ok (), s) := by
  obtain ⟨active, ha, hn⟩ := Option.map_eq_some_iff.mp live
  simp [start, ha, hn]

theorem start_of_other {name : String} (other : s.engineName ≠ some name) :
    s.start house name = s.stop.launch house name := by
  unfold start
  cases h : s.active with
  | none => rw [stop_of_dark h]
  | some active =>
    have : active.engine.name ≠ name := by
      intro same
      exact other (by simp [engineName, h, same])
    simp [this]

theorem start_steps (asks : Dial → Option Wish) (house : House) (name : String) (s : Session) :
    ∃ calls, Steps asks s calls (s.start house name).2 := by
  by_cases live : s.engineName = some name
  · rw [start_of_live live]
    exact ⟨[], .refl⟩
  · rw [start_of_other live]
    obtain ⟨stops, hs⟩ := stop_steps asks s
    obtain ⟨starts, hl⟩ := launch_steps asks house name (stop_active s)
    exact ⟨_, hs.trans hl⟩

theorem sendVoice_of_dark {native : String} (dark : s.active = none) : s.sendVoice house native = s := by
  simp [sendVoice, dark]

theorem sendVoice_of_sent {active : Active} {native : String} (live : s.active = some active)
    (sent : active.voice = some native) : s.sendVoice house native = s := by
  simp [sendVoice, live, sent]

theorem sendVoice_of_other {active : Active} {native : String} (live : s.active = some active)
    (other : active.voice ≠ some native) :
    s.sendVoice house native =
      { s with
        active := some { active with voice := some native }
        history := .set active.engine (.voice native)
          (house.library.accepts s.history active.engine (.voice native)) :: s.history } := by
  simp [sendVoice, live, other, Library.apply]

theorem sendVoice_steps (asks : Dial → Option Wish) (house : House) (native : String) (s : Session) :
    ∃ calls, Steps asks s calls (s.sendVoice house native) := by
  cases live : s.active with
  | none =>
    rw [sendVoice_of_dark live]
    exact ⟨[], .refl⟩
  | some active =>
    by_cases sent : active.voice = some native
    · rw [sendVoice_of_sent live sent]
      exact ⟨[], .refl⟩
    · rw [sendVoice_of_other live sent]
      exact ⟨_, .single (.voiced live)⟩

theorem selectVoice_steps (asks : Dial → Option Wish) (house : House) (displayName : String) (s : Session) :
    ∃ calls, Steps asks s calls (s.selectVoice house displayName).2 := by
  unfold selectVoice
  cases house.catalog.find? displayName with
  | none => exact ⟨[], .refl⟩
  | some entry =>
    obtain ⟨starts, hs⟩ := start_steps asks house entry.engineName s
    rcases h : s.start house entry.engineName with ⟨fault | _, t⟩
    · rw [h] at hs
      exact ⟨starts, by simpa only [h] using hs⟩
    · rw [h] at hs
      obtain ⟨voices, hv⟩ := sendVoice_steps asks house entry.native t
      exact ⟨voices ++ starts, by simpa only [h] using hs.trans hv⟩

theorem startFirst_steps (asks : Dial → Option Wish) (house : House) (names : List String) (s : Session) :
    ∃ calls, Steps asks s calls (startFirst house names s).2 := by
  induction names generalizing s with
  | nil => exact ⟨[], .refl⟩
  | cons name names ih =>
    obtain ⟨starts, hs⟩ := start_steps asks house name s
    rcases h : s.start house name with ⟨fault | _, t⟩
    · rw [h] at hs
      obtain ⟨others, ho⟩ := ih t
      exact ⟨others ++ starts, by simpa only [startFirst, h] using hs.trans ho⟩
    · rw [h] at hs
      exact ⟨starts, by simpa only [startFirst, h] using hs⟩

theorem selectDefault_steps (asks : Dial → Option Wish) (house : House) (s : Session) :
    ∃ calls, Steps asks s calls (s.selectDefault house).2 := by
  unfold selectDefault
  split
  · exact ⟨[], .refl⟩
  · obtain ⟨starts, hs⟩ := startFirst_steps asks house house.candidates s
    rcases h : startFirst house house.candidates s with ⟨_ | _, t⟩
    all_goals
      rw [h] at hs
      exact ⟨starts, hs⟩

/-! ### Parameters -/

/-- Tells the live engine of a wish, and remembers it if it is accepted. -/
def heed (house : House) (s : Session) : Wish → Bool × Session
  | .rate value => s.applyRate house value
  | .pitch value => s.applyPitch house value
  | .punctuation mode => s.applyPunctuation house mode

theorem heed_of_dark (dark : s.active = none) (wish : Wish) : s.heed house wish = (false, s) := by
  cases wish <;> simp [heed, applyRate, applyPitch, applyPunctuation, tell, dark]

theorem heed_of_live {active : Active} (live : s.active = some active) (wish : Wish) :
    s.heed house wish =
      (house.library.accepts s.history active.engine wish.setting,
        { s with
          applied := if house.library.accepts s.history active.engine wish.setting then s.applied.note wish else s.applied
          history := .set active.engine wish.setting
            (house.library.accepts s.history active.engine wish.setting) :: s.history }) := by
  cases wish with
  | rate value =>
    cases h : house.library.accepts s.history active.engine (.speed (speedOfRate value)) <;>
      simp [heed, applyRate, tell, live, Library.apply, Wish.setting, Applied.note, h]
  | pitch value =>
    cases h : house.library.accepts s.history active.engine (.pitch (factorOfPitch value)) <;>
      simp [heed, applyPitch, tell, live, Library.apply, Wish.setting, Applied.note, h]
  | punctuation mode =>
    cases h : house.library.accepts s.history active.engine (.punctuation mode.level) <;>
      simp [heed, applyPunctuation, tell, live, Library.apply, Wish.setting, Applied.note, h]

/-- Passes a wish on unless it is the value last accepted. -/
def pass (house : House) (wish : Wish) (s : Session) : Session :=
  if s.applied.memory wish.dial = some wish then s else (s.heed house wish).2

theorem applyParams_eq (house : House) (p : Prosody) (s : Session) :
    s.applyParams house p = Dial.all.foldl (fun s dial => s.pass house (p.wish dial)) s := by
  simp [applyParams, Dial.all, pass, heed, Applied.memory, Prosody.wish, Wish.dial]

theorem heed_steps (asks : Dial → Option Wish) (house : House) {wish : Wish}
    (asked : asks wish.dial = some wish) (s : Session) :
    ∃ calls, Steps asks s calls (s.heed house wish).2 := by
  cases live : s.active with
  | none =>
    rw [heed_of_dark live]
    exact ⟨[], .refl⟩
  | some active =>
    rw [heed_of_live live]
    exact ⟨_, .single (.told live asked)⟩

theorem pass_steps (asks : Dial → Option Wish) (house : House) {wish : Wish}
    (asked : asks wish.dial = some wish) (s : Session) :
    ∃ calls, Steps asks s calls (s.pass house wish) := by
  unfold pass
  split
  · exact ⟨[], .refl⟩
  · exact heed_steps asks house asked s

theorem applyParams_steps (house : House) (p : Prosody) (s : Session) :
    ∃ calls, Steps (fun dial => some (p.wish dial)) s calls (s.applyParams house p) := by
  rw [applyParams_eq]
  generalize Dial.all = dials
  induction dials generalizing s with
  | nil => exact ⟨[], .refl⟩
  | cons dial dials ih =>
    have asked : some (p.wish (p.wish dial).dial) = some (p.wish dial) := by rw [Prosody.dial_wish]
    obtain ⟨first, hf⟩ := pass_steps (fun dial => some (p.wish dial)) house asked s
    obtain ⟨others, ho⟩ := ih (s.pass house (p.wish dial))
    exact ⟨_, hf.trans ho⟩

end

end Session

end Orator

import Orator.Proofs.Dispatcher.Performance
import Orator.Proofs.Service.Release

/-! Whatever came before a request, it does not show: with the same answers from its engine, the same request is
    spoken by the same engine in the same way, and the host hears the same. -/

namespace Orator.Service

open Dispatcher (Cue Ended Exclusive Outcome Proceeds Staffed)
open Pipeline (Limits Stats)

/-- Whether nothing in the step disturbs an utterance: nobody cancels, refuses or crashes. -/
def Label.gentle : Label → Bool
  | .stop | .cancel => false
  | .inner label => label.gentle
  | _ => true

/-- The state after a schedule all of whose steps are taken while one task, or its utterance, keeps the threads
    busy. -/
def runBusy (setup : Setup) : List Label → State → Option State
  | [], s => some s
  | label :: labels, s => if s.dispatcher.busy then (step setup label s).bind (runBusy setup labels) else none

def Label.buffer? (label : Label) : Option (List Sample) :=
  label.inner?.bind Dispatcher.Label.buffer?

def Label.returned? (label : Label) : Option Bool :=
  label.inner?.bind Dispatcher.Label.returned?

def handed (labels : List Label) : List (List Sample) :=
  labels.filterMap Label.buffer?

def returned (labels : List Label) : List Bool :=
  labels.filterMap Label.returned?

/-- From its turn to its outcome, a request for a voice has nothing in its way: the engine starts if it is asked to
    and refuses no setting, the host takes all it is given, and nobody crashes, cancels or wants a stop. -/
structure Unhindered (setup : Setup) (request : Request) (entry : VoiceEntry) (s : State) (labels : List Label)
    (t : State) : Prop where
  turn : s.dispatcher.control = .resolving request
  ran : (step setup (.inner .control) s).bind (runBusy setup labels) = some t
  concluded : t.dispatcher.watcher.outcome?.isSome = true
  gentle : ∀ label ∈ labels, label.gentle = true
  willing : ∀ call ∈ s.dispatcher.session.history.since t.dispatcher.session.history,
    call ≠ .failure entry.engineName ∧ call.refused = false

/-- What there is to observe of an utterance: how engines were called to speak, what the host heard of it, and its
    outcome. -/
structure Observed (s t : State) (performances : List Performance) (played : List HostEvent) (outcome : Outcome) :
    Prop where
  performances : t.dispatcher.session.history.performances = performances ++ s.dispatcher.session.history.performances
  played : t.dispatcher.pipe.Played s.dispatcher.pipe.heard played
  outcome : t.dispatcher.watcher = .finished outcome

section
variable {setup : Setup} {cue : Cue} {buffers : List (List Sample)} {results : List Bool}
variable {s t : State} {label : Label} {labels : List Label}

theorem stirred_proceeds (h : Stirred setup s.dispatcher label t.dispatcher) (gentle : label.gentle = true)
    (he : Exclusive s.dispatcher) (busy : s.dispatcher.busy = true)
    (hp : Proceeds setup.limits cue buffers results s.dispatcher) :
    Proceeds setup.limits cue (label.buffer?.toList ++ buffers) (label.returned?.toList ++ results) t.dispatcher := by
  unfold Label.buffer? Label.returned?
  generalize t.dispatcher = d at h
  cases h with
  | @moved inner _ own never h =>
    have calm : inner.gentle = true := by
      cases label <;> cases own <;> first | rfl | exact gentle
    rw [own]
    exact Dispatcher.moved_proceeds h never calm he busy hp
  | told event own other =>
    rw [own]
    exact hp.tell other he busy
  | raised own =>
    rcases own with rfl | rfl <;> cases gentle
  | rested own =>
    rw [own]
    exact hp

theorem stirred_grows (h : Stirred setup s.dispatcher label t.dispatcher) :
    s.dispatcher.session.history <:+ t.dispatcher.session.history := by
  generalize t.dispatcher = d at h
  cases h with
  | moved _ _ h => exact Dispatcher.moved_grows h
  | _ => exact List.suffix_refl _

theorem runBusy_proceeds (h : runBusy setup labels s = some t) (gentle : ∀ label ∈ labels, label.gentle = true)
    (he : Exclusive s.dispatcher) (hp : Proceeds setup.limits cue buffers results s.dispatcher) :
    Exclusive t.dispatcher ∧
      Proceeds setup.limits cue ((handed labels).reverse ++ buffers)
        ((returned labels).reverse ++ results) t.dispatcher := by
  induction labels generalizing s buffers results with
  | nil =>
    cases h
    exact ⟨he, hp⟩
  | cons label labels ih =>
    unfold runBusy at h
    split at h
    · obtain ⟨u, hu, h⟩ := Option.bind_eq_some_iff.mp h
      have stirred := step_inv hu
      have next := stirred_proceeds stirred (gentle label List.mem_cons_self) he ‹_› hp
      obtain ⟨he, hp⟩ := ih h (fun l hl => gentle l (List.mem_cons_of_mem _ hl)) (stirred_exclusive stirred he) next
      refine ⟨he, ?_⟩
      have buffers_eq : (handed (label :: labels)).reverse ++ buffers =
          (handed labels).reverse ++ (label.buffer?.toList ++ buffers) := by
        cases hb : label.buffer? <;> simp [handed, hb]
      have results_eq : (returned (label :: labels)).reverse ++ results =
          (returned labels).reverse ++ (label.returned?.toList ++ results) := by
        cases hb : label.returned? <;> simp [returned, hb]
      rw [buffers_eq, results_eq]
      exact hp
    · cases h

theorem runBusy_grows (h : runBusy setup labels s = some t) :
    s.dispatcher.session.history <:+ t.dispatcher.session.history := by
  induction labels generalizing s with
  | nil =>
    cases h
    exact List.suffix_refl _
  | cons label labels ih =>
    unfold runBusy at h
    split at h
    · obtain ⟨u, hu, h⟩ := Option.bind_eq_some_iff.mp h
      exact (stirred_grows (step_inv hu)).trans (ih h)
    · cases h

theorem since_subset {before middle after : History} (h₁ : before <:+ middle) (h₂ : middle <:+ after) {call : Call}
    (hm : call ∈ before.since middle) : call ∈ before.since after := by
  obtain ⟨calls, rfl⟩ := h₁
  obtain ⟨more, rfl⟩ := h₂
  rw [History.since_append] at hm
  rw [← List.append_assoc, History.since_append]
  exact List.mem_reverse.mpr (List.mem_append_right _ (List.mem_reverse.mp hm))

/-- An unhindered request is spoken by the engine of its voice as it asks, the host hears what this engine hands
    over, and the outcome tells of it. -/
theorem Unhindered.observed {request : Request} {entry : VoiceEntry} (hu : Unhindered setup request entry s labels t)
    (he : Exclusive s.dispatcher) (hs : Staffed s.dispatcher) (named : request.voice? setup.house = some entry) :
    ∃ cue result history, Ended cue (returned labels).reverse result history ∧
      Observed s t (request.speech?.map (request.performance entry)).toList
        (setup.limits.rendered t.dispatcher.session.sampleRate (handed labels))
        (.of request.kind { (setup.limits.rendered t.dispatcher.session.sampleRate (handed labels)).foldl
          Stats.hear {} with aborted := false } result) := by
  obtain ⟨turn, ran, concluded, gentle, willing⟩ := hu
  obtain ⟨outcome, concluded⟩ := Dispatcher.Watcher.finished_of_outcome concluded
  obtain ⟨r, hr, ran⟩ := Option.bind_eq_some_iff.mp ran
  have stirred := step_inv hr
  have first : Dispatcher.control setup.house s.dispatcher = some r.dispatcher := by
    simp only [step, internal, if_true] at hr
    obtain ⟨d, hd, rfl⟩ := Option.map_eq_some_iff.mp hr
    exact hd
  -- The first step gives the request its engine; from there on the engine alone decides what is heard.
  obtain ⟨engine, ready, same, asked⟩ := Dispatcher.ready_of_resolving turn hs.sound named first fun call hm =>
    willing call (since_subset (stirred_grows stirred) (runBusy_grows ran) hm)
  obtain ⟨he, proceeds⟩ := runBusy_proceeds ran gentle (stirred_exclusive stirred he) (.ready ready)
  have performed := proceeds.performed_of_finished he concluded
  obtain ⟨result, ended, finished⟩ := performed.concluded
  have rate : t.dispatcher.session.sampleRate = engine.sampleRate := by
    obtain ⟨active, live, own⟩ := Option.map_eq_some_iff.mp performed.live
    simp [Session.sampleRate, live, own]
  have played := performed.played
  simp only [List.append_nil, List.reverse_reverse] at played ended finished
  rw [rate]
  refine ⟨_, result, _, ended, ?_, played, finished⟩
  rw [ended.performances]
  dsimp only
  rw [same, ← funext asked]

end

/-- Take two histories of one loaded service, each up to the turn of the same request for a voice that is known.
    If both times the request has nothing in its way, and its engine has the same sample rate, hands over the same
    buffers and returns the same, then both times the engine of that voice speaks, with that voice and set as the
    request asks, the host hears the same, and the outcome is the same. -/
theorem no_leak {config : Config} {library : Library} {program : List String} {isDirectory : String → Bool}
    {setup : Setup} {s₀ s₁ s₂ t₁ t₂ : State} {history : History}
    {past₁ past₂ labels₁ labels₂ : List Label}
    {request : Request} {entry : VoiceEntry}
    (loaded : load config library program isDirectory = (.ok (setup, s₀), history))
    (reached₁ : run setup past₁ s₀ = some s₁) (reached₂ : run setup past₂ s₀ = some s₂)
    (named : request.voice? setup.house = some entry)
    (free₁ : Unhindered setup request entry s₁ labels₁ t₁)
    (free₂ : Unhindered setup request entry s₂ labels₂ t₂)
    (rate : t₁.dispatcher.session.sampleRate = t₂.dispatcher.session.sampleRate)
    (buffers : handed labels₁ = handed labels₂) (results : returned labels₁ = returned labels₂) :
    ∃ played outcome,
      Observed s₁ t₁ (request.speech?.map (request.performance entry)).toList played outcome ∧
      Observed s₂ t₂ (request.speech?.map (request.performance entry)).toList played outcome := by
  have rests := load_solo config library program isDirectory
  rw [loaded] at rests
  obtain rfl := load_start loaded
  obtain ⟨he₁, hs₁⟩ := run_staffed rests reached₁
  obtain ⟨he₂, hs₂⟩ := run_staffed rests reached₂
  obtain ⟨cue₁, result₁, history₁, ended₁, observed₁⟩ := free₁.observed he₁ hs₁ named
  obtain ⟨cue₂, result₂, history₂, ended₂, observed₂⟩ := free₂.observed he₂ hs₂ named
  rw [results] at ended₁
  obtain rfl := ended₁.unique ended₂
  rw [rate, buffers] at observed₁
  exact ⟨_, _, observed₁, observed₂⟩

/-- A request for the voice of the plain library, -/
def hello : Request := { payload := [104], prosody := { voice := some "espeak English", rate := 20 } }

def english : VoiceEntry := { displayName := "espeak English", language := "en", variant := "null" }

/-- and its utterance, from the engine to the outcome. -/
def aloud : List Label :=
  List.flatten [.replicate 4 (.inner .control), [.inner .release, .inner .speak],
    [.inner (.call [1, 2, 3] false)], .replicate 5 (.inner (.produce false)), .replicate 4 (.inner (.deliver .accepted)),
    [.inner (.call [] false)], .replicate 5 (.inner (.produce false)), .replicate 4 (.inner (.deliver .accepted)),
    [.inner (.spoke true), .inner .speak], .replicate 2 (.inner (.deliver .accepted)), .replicate 2 (.inner .watch)]

/-- Its turn comes at once, -/
def fresh : List Label :=
  [.call (.speak hello), .grant (.speak hello), .inner .control]

/-- or after another request that is cancelled while the engine speaks. -/
def afterCancel : List Label :=
  List.flatten [[.call (.speak { payload := [105] }), .grant (.speak { payload := [105] })],
    .replicate 6 (.inner .control), [.inner .release, .inner .speak, .cancel, .inner (.call [7] false)],
    .replicate 3 (.inner (.produce false)), [.inner (.spoke false), .inner .speak],
    .replicate 2 (.inner (.deliver .accepted)), .replicate 2 (.inner .watch), fresh]

/-- Runs the request after this past, and says what there is to say of the way. -/
def trial (past : List Label) : Option (Dispatcher.Control × Bool × Bool × UInt32 × Option VoiceEntry) :=
  (serve { libraryDir := some "/lib" } plainLibrary [] (fun _ => true) past).bind fun (setup, s) =>
    ((step setup (.inner .control) s).bind (runBusy setup aloud)).map fun t =>
      (s.dispatcher.control, t.dispatcher.watcher.outcome?.isSome,
        (s.dispatcher.session.history.since t.dispatcher.session.history).all fun call =>
          call != .failure english.engineName && !call.refused,
        t.dispatcher.session.sampleRate, hello.voice? setup.house)

theorem unhindered_of_trial (past : List Label)
    (h : trial past = some (.resolving hello, true, true, 22050, some english)) :
    ∃ setup s₀ history s t,
      load { libraryDir := some "/lib" } plainLibrary [] (fun _ => true) = (.ok (setup, s₀), history) ∧
      run setup past s₀ = some s ∧ hello.voice? setup.house = some english ∧
      Unhindered setup hello english s aloud t ∧ t.dispatcher.session.sampleRate = 22050 := by
  obtain ⟨⟨setup, s⟩, served, h⟩ := Option.bind_eq_some_iff.mp h
  obtain ⟨t, ran, h⟩ := Option.map_eq_some_iff.mp h
  obtain ⟨s₀, history, loaded, reached⟩ := serve_inv served
  simp only [Prod.mk.injEq] at h
  obtain ⟨turn, concluded, willing, rate, named⟩ := h
  refine ⟨setup, s₀, history, s, t, loaded, reached, named, ⟨turn, ran, concluded, by decide, ?_⟩, rate⟩
  intro call hm
  simpa using List.all_eq_true.mp willing call hm

theorem no_leak_afterCancel :
    ∃ setup s₀ s₁ s₂ t₁ t₂ history played outcome,
      load { libraryDir := some "/lib" } plainLibrary [] (fun _ => true) = (.ok (setup, s₀), history) ∧
      run setup fresh s₀ = some s₁ ∧ run setup afterCancel s₀ = some s₂ ∧
      Observed s₁ t₁ (hello.speech?.map (hello.performance english)).toList played outcome ∧
      Observed s₂ t₂ (hello.speech?.map (hello.performance english)).toList played outcome := by
  obtain ⟨setup, s₀, history, s₁, t₁, loaded, reached₁, named, free₁, rate₁⟩ :=
    unhindered_of_trial fresh (by decide +kernel)
  obtain ⟨_, _, _, s₂, t₂, loaded₂, reached₂, -, free₂, rate₂⟩ :=
    unhindered_of_trial afterCancel (by decide +kernel)
  rw [loaded] at loaded₂
  cases loaded₂
  obtain ⟨played, outcome, observed₁, observed₂⟩ :=
    no_leak loaded reached₁ reached₂ named free₁ free₂ (rate₁.trans rate₂.symm) rfl rfl
  exact ⟨setup, s₀, s₁, s₂, t₁, t₂, history, played, outcome, loaded, reached₁, reached₂,
    observed₁, observed₂⟩

end Orator.Service

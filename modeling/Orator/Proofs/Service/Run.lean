import Orator.Proofs.Dispatcher.Deeds
import Orator.Proofs.Pipeline.Chunks
import Orator.Service

/-! What a step of the service does to its dispatcher, and what the dispatcher's threads have done in a whole
    run. What each step keeps, every run keeps. -/

namespace Orator.Service

open Dispatcher (Task Moved)

/-- A service that has just been loaded, after these calls to the library. -/
def start (history : History) : State where
  dispatcher := { session := { history } }

/-- The dispatcher's step in a step of the service. -/
def Label.inner? : Label → Option Dispatcher.Label
  | .inner label => some label
  | .grant task => some (.take task)
  | .close => some (.take .close)
  | _ => none

def deeds (label : Label) (s : State) : List Deed :=
  match label.inner? with
  | some inner => Dispatcher.deeds inner s.dispatcher
  | none => []

/-- What has been done in a run, in order. -/
def journal (setup : Setup) : List Label → State → List Deed
  | [], _ => []
  | label :: labels, s =>
    deeds label s ++
      match step setup label s with
      | some t => journal setup labels t
      | none => []

/-- What a step of the service can do, and when. -/
inductive Stepped (setup : Setup) (s : State) : Label → State → Prop where
  | refused {success} (serving : s.stage = .serving) (bare : setup.house.catalog.voices.isEmpty = true) :
    Stepped setup s (.init success) s
  | initialized {success} (serving : s.stage = .serving) (voiced : ¬setup.house.catalog.voices.isEmpty = true) :
    Stepped setup s (.init success) (s.tell (.init setup.config.audioQueueMaxSize))
  | asked {request} (serving : s.stage = .serving) :
    Stepped setup s (.call (.speak request)) { s.tell .beforeSynth with waiting := s.waiting ++ [.speak request] }
  | called {task} (serving : s.stage = .serving) (client : callable task = true)
    (other : ∀ request, task ≠ .speak request) :
    Stepped setup s (.call task) { s with waiting := s.waiting ++ [task] }
  | granted {task d} (waits : task ∈ s.waiting) (h : Moved setup.house setup.limits s.dispatcher (.take task) d) :
    Stepped setup s (.grant task) { s with dispatcher := d, waiting := s.waiting.erase task }
  | moved {inner d} (own : internal inner = true) (h : Moved setup.house setup.limits s.dispatcher inner d) :
    Stepped setup s (.inner inner) { s with dispatcher := d }
  | stopped (serving : s.stage = .serving) : Stepped setup s .stop { s.raise with stopping := s.stopping + 1 }
  | silenced (pending : 0 < s.stopping) : Stepped setup s .silence { s.tell .stop with stopping := s.stopping - 1 }
  | paused (serving : s.stage = .serving) : Stepped setup s .pause (s.tell .pause)
  | cancelled (serving : s.stage = .serving) : Stepped setup s .cancel s.raise
  | closed {d} (serving : s.stage = .serving) (nobody : s.waiting = []) (silenced : s.stopping = 0)
    (h : Moved setup.house setup.limits s.dispatcher (.take .close) d) :
    Stepped setup s .close { s with dispatcher := d, stage := .closing }
  | terminated (closing : s.stage = .closing) (free : s.dispatcher.control = .free) :
    Stepped setup s .terminate { s.tell .terminate with stage := .closed }

/-- What a step of the service can do to its dispatcher. -/
inductive Stirred (setup : Setup) (d : Dispatcher.State) (label : Label) : Dispatcher.State → Prop where
  | moved {inner d'} (own : label.inner? = some inner) (never : inner ≠ .clear)
    (h : Moved setup.house setup.limits d inner d') : Stirred setup d label d'
  | told (event : HostEvent) (own : label.inner? = none) (other : event.ofDelivery = false) :
    Stirred setup d label { d with pipe := d.pipe.tell event }
  | raised (own : label = .stop ∨ label = .cancel) :
    Stirred setup d label { d with pipe := { d.pipe with flag := true } }
  | rested (own : label.inner? = none) : Stirred setup d label d

section
variable {setup : Setup} {s t : State} {label : Label}

theorem load_start {config : Config} {library : Library} {program : List String} {isDirectory : String → Bool}
    {history : History} (h : load config library program isDirectory = (.ok (setup, s), history)) :
    s = start history := by
  unfold load at h
  split at h
  · cases h
  · split at h
    · cases h
    · split at h <;> cases h
      rfl

theorem stepped (h : step setup label s = some t) : Stepped setup s label t := by
  cases label with
  | init success =>
    simp only [step] at h
    split at h <;> cases h
    unfold init
    split
    · exact .refused ‹_› ‹_›
    · cases success <;> exact .initialized ‹_› ‹_›
  | call task =>
    simp only [step] at h
    split at h <;> cases h
    rename_i guard
    obtain ⟨serving, client⟩ : s.stage = .serving ∧ callable task = true := by simpa using guard
    cases task with
    | speak => exact .asked serving
    | _ => exact .called serving client (by rintro _ ⟨⟩)
  | grant task =>
    simp only [step] at h
    split at h
    · obtain ⟨d, hd, rfl⟩ := Option.map_eq_some_iff.mp h
      exact .granted ‹_› (Dispatcher.step_inv hd)
    · cases h
  | inner label =>
    simp only [step] at h
    split at h
    · obtain ⟨d, hd, rfl⟩ := Option.map_eq_some_iff.mp h
      exact .moved ‹_› (Dispatcher.step_inv hd)
    · cases h
  | stop =>
    simp only [step] at h
    split at h <;> cases h
    exact .stopped ‹_›
  | silence =>
    simp only [step] at h
    split at h <;> cases h
    exact .silenced ‹_›
  | pause =>
    simp only [step] at h
    split at h <;> cases h
    exact .paused ‹_›
  | cancel =>
    simp only [step] at h
    split at h <;> cases h
    exact .cancelled ‹_›
  | close =>
    simp only [step] at h
    split at h
    · rename_i guard
      obtain ⟨d, hd, rfl⟩ := Option.map_eq_some_iff.mp h
      obtain ⟨⟨serving, nobody⟩, silenced⟩ : (s.stage = .serving ∧ s.waiting = []) ∧ s.stopping = 0 := by
        simpa using guard
      exact .closed serving nobody silenced (Dispatcher.step_inv hd)
    · cases h
  | terminate =>
    simp only [step] at h
    split at h <;> cases h
    rename_i guard
    obtain ⟨closing, free⟩ : s.stage = .closing ∧ s.dispatcher.control = .free := by simpa using guard
    exact .terminated closing free

/-- Nobody takes the dispatcher from within. -/
theorem not_take_of_internal {inner : Dispatcher.Label} (own : internal inner = true) (task : Task) :
    inner ≠ .take task := by
  rintro rfl
  cases own

theorem step_inv (h : step setup label s = some t) : Stirred setup s.dispatcher label t.dispatcher := by
  cases stepped h with
  | refused | called => exact .rested rfl
  | initialized | asked | silenced | paused | terminated => exact .told _ rfl rfl
  | stopped => exact .raised (Or.inl rfl)
  | cancelled => exact .raised (Or.inr rfl)
  | granted _ moved | closed _ _ _ moved => exact .moved rfl Dispatcher.Label.noConfusion moved
  | moved own moved =>
    refine .moved rfl ?_ moved
    rintro rfl
    cases own

theorem journal_cons {labels : List Label} (h : step setup label s = some t) :
    journal setup (label :: labels) s = deeds label s ++ journal setup labels t := by
  simp only [journal, h]

theorem run_keeps {P : List Deed → Dispatcher.State → Prop} {labels : List Label} (past : List Deed)
    (keeps : ∀ {s t : State} {label past}, Stirred setup s.dispatcher label t.dispatcher → P past s.dispatcher →
      P (past ++ deeds label s) t.dispatcher)
    (h : run setup labels s = some t) (hs : P past s.dispatcher) :
    P (past ++ journal setup labels s) t.dispatcher := by
  induction labels generalizing s past with
  | nil =>
    cases h
    rw [journal, List.append_nil]
    exact hs
  | cons label labels ih =>
    obtain ⟨u, hu, h⟩ := Option.bind_eq_some_iff.mp h
    rw [journal_cons hu, ← List.append_assoc]
    exact ih _ h (keeps (step_inv hu) hs)

def serve (config : Config) (library : Library) (program : List String) (isDirectory : String → Bool)
    (labels : List Label) : Option (Setup × State) :=
  match load config library program isDirectory with
  | (.ok (setup, s), _) => (run setup labels s).map (setup, ·)
  | (.error _, _) => none

theorem serve_inv {config : Config} {library : Library} {program : List String} {isDirectory : String → Bool}
    {labels : List Label} (h : serve config library program isDirectory labels = some (setup, t)) :
    ∃ s history, load config library program isDirectory = (.ok (setup, s), history) ∧
      run setup labels s = some t := by
  unfold serve at h
  split at h
  · obtain ⟨u, hu, h⟩ := Option.map_eq_some_iff.mp h
    cases h
    exact ⟨_, _, ‹_›, hu⟩
  · cases h

/-- A library with one engine, which has one voice and takes whatever it is told. -/
def plainLibrary : Library where
  engines _ _ := ["espeak"]
  start _ _ _ _ := .ok 22050
  voices _ _ := ["English,en"]
  accepts _ _ _ := true

end

end Orator.Service

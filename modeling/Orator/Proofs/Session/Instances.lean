import Orator.Engine

/-! The instances of engines, as far as the calls to the library tell of them. In a `Solo` history no two
    instances ever ran at a time, and each was only called while it ran; from this it follows that it was
    stopped once, unless it runs still. -/

namespace Orator

/-- The instance that a call is made on, if it is one that must be running for it. -/
def Call.on? : Call → Option Engine
  | .listVoices engine | .set engine _ _ | .speak engine _ => some engine
  | .listEngines _ | .start .. | .spoke .. | .stop _ => none

namespace History

/-- The instances that have been started and not stopped since, the latest first. -/
def running : History → List Engine
  | [] => []
  | .start _ _ (some engine) :: h => engine :: running h
  | .stop engine :: h => (running h).erase engine
  | _ :: h => running h

def Began (engine : Engine) (h : History) : Prop :=
  ∃ name withCallback, .start name withCallback (some engine) ∈ h

/-- Whether every instance that was started has been stopped, each with one call. -/
def Released (h : History) : Prop :=
  ∀ engine, Began engine h → h.count (.stop engine) = 1

/-- What a history shows of its instances, at every moment of it. -/
structure Orderly (h : History) : Prop where
  /-- Of all instances of all engines, at most one is started and not yet stopped. -/
  alone : ∀ before, before <:+ h → (running before).length ≤ 1
  /-- None is called before its start or after its stop. -/
  inTime : ∀ after call before engine, h = after ++ call :: before → call.on? = some engine →
    engine ∈ running before ∧ .stop engine ∉ before
  /-- None is stopped twice. -/
  once : ∀ engine, h.count (.stop engine) ≤ 1

/-- In this history one instance ran at a time, and `live` is the one that runs at its end. -/
inductive Solo : History → Option Engine → Prop where
  | nil : Solo [] none
  | listed {h libDir} (rest : Solo h none) : Solo (.listEngines libDir :: h) none
  | failed {h name withCallback} (rest : Solo h none) : Solo (.start name withCallback none :: h) none
  | started {h engine withCallback} (rest : Solo h none) (new : engine.number = h.started) :
    Solo (.start engine.name withCallback (some engine) :: h) (some engine)
  | called {h call engine} (rest : Solo h (some engine)) (on : call.on? = some engine) :
    Solo (call :: h) (some engine)
  | returned {h engine success} (rest : Solo h (some engine)) : Solo (.spoke engine success :: h) (some engine)
  | stopped {h engine} (rest : Solo h (some engine)) : Solo (.stop engine :: h) none

/-! ### Who has been started, and how often stopped -/

section
variable {h before after : History} {live : Option Engine} {engine : Engine} {call : Call}

theorem began_of_cons (hb : Began engine (call :: h))
    (other : ∀ name withCallback, call ≠ .start name withCallback (some engine)) : Began engine h := by
  obtain ⟨name, withCallback, hm⟩ := hb
  rcases List.mem_cons.mp hm with rfl | hm
  · exact absurd rfl (other _ _)
  · exact ⟨name, withCallback, hm⟩

theorem Began.cons (hb : Began engine h) (call : Call) : Began engine (call :: h) := by
  obtain ⟨name, withCallback, hm⟩ := hb
  exact ⟨name, withCallback, List.mem_cons_of_mem _ hm⟩

theorem on_ne_start (on : call.on? = some engine) (name : String) (withCallback : Bool) (other : Engine) :
    call ≠ .start name withCallback (some other) := by
  rintro rfl
  cases on

theorem running_of_on (on : call.on? = some engine) : running (call :: h) = running h := by
  cases call <;> first | rfl | cases on

theorem count_stop_of_on (on : call.on? = some engine) (other : Engine) :
    (call :: h).count (.stop other) = h.count (.stop other) := by
  refine List.count_cons_of_ne ?_
  rintro rfl
  cases on

theorem started_le (call : Call) : h.started ≤ History.started (call :: h) := by
  unfold History.started
  rw [List.countP_cons]
  exact Nat.le_add_right _ _

namespace Solo

theorem tail (hs : Solo (call :: h) live) : ∃ earlier, Solo h earlier := by
  cases hs <;> exact ⟨_, ‹_›⟩

theorem suffix (hs : Solo h live) (hb : before <:+ h) : ∃ earlier, Solo before earlier := by
  obtain ⟨after, rfl⟩ := hb
  induction after generalizing live with
  | nil => exact ⟨live, hs⟩
  | cons call after ih =>
    obtain ⟨earlier, hs⟩ := hs.tail
    exact ih hs

theorem running_eq (hs : Solo h live) : running h = live.toList := by
  induction hs with
  | nil => rfl
  | listed rest ih | failed rest ih => exact ih
  | started rest new ih => exact congrArg _ ih
  | called rest on ih => exact (running_of_on on).trans ih
  | returned rest ih => exact ih
  | stopped rest ih =>
    rw [running, ih]
    simp

/-- A number is given once. -/
theorem number_lt (hs : Solo h live) (hb : Began engine h) : engine.number < h.started := by
  induction hs with
  | nil =>
    obtain ⟨_, _, hm⟩ := hb
    cases hm
  | @started h other withCallback rest new ih =>
    have grown : History.started (.start other.name withCallback (some other) :: h) = h.started + 1 := by
      simp [History.started]
    rw [grown]
    by_cases same : engine = other
    · rw [same, new]
      exact Nat.lt_succ_self _
    · have hb : Began engine h := began_of_cons hb (by rintro _ _ ⟨⟩; exact same rfl)
      exact Nat.lt_succ_of_lt (ih hb)
  | listed rest ih | failed rest ih | returned rest ih | stopped rest ih =>
    exact Nat.lt_of_lt_of_le (ih (began_of_cons hb nofun)) (started_le _)
  | called rest on ih =>
    have hb := began_of_cons hb fun _ _ => on_ne_start on _ _ _
    exact Nat.lt_of_lt_of_le (ih hb) (started_le _)

theorem not_began (hs : Solo h live) (new : engine.number = h.started) : ¬Began engine h := by
  intro hb
  have := hs.number_lt hb
  omega

theorem began (hs : Solo h (some engine)) : Began engine h := by
  generalize hl : some engine = live at hs
  induction hs with
  | nil | listed | failed | stopped => cases hl
  | started =>
    cases hl
    exact ⟨_, _, List.mem_cons_self⟩
  | called rest on ih | returned rest ih => exact (ih hl).cons _

/-- Only what runs is called. -/
theorem of_on (hs : Solo (call :: h) live) (on : call.on? = some engine) : Solo h (some engine) := by
  cases hs with
  | called rest there =>
    rw [on] at there
    exact there ▸ rest
  | _ => cases on

theorem began_of_on (hs : Solo h live) (hm : call ∈ h) (on : call.on? = some engine) : Began engine h := by
  obtain ⟨after, before, rfl⟩ := List.append_of_mem hm
  obtain ⟨earlier, hs⟩ := hs.suffix ⟨after, rfl⟩
  obtain ⟨name, withCallback, hm⟩ := (hs.of_on on).began
  exact ⟨name, withCallback, List.mem_append_right _ (List.mem_cons_of_mem _ hm)⟩

theorem count_stop_of_not_began (hs : Solo h live) (hb : ¬Began engine h) : h.count (.stop engine) = 0 := by
  have older {call : Call} {h : History} (hb : ¬Began engine (call :: h)) : ¬Began engine h := fun earlier =>
    hb (earlier.cons call)
  induction hs with
  | nil => rfl
  | listed rest ih | failed rest ih | started rest new ih | returned rest ih =>
    rw [List.count_cons_of_ne (by simp)]
    exact ih (older hb)
  | called rest on ih =>
    rw [count_stop_of_on on]
    exact ih (older hb)
  | @stopped h other rest ih =>
    have ne : other ≠ engine := by
      rintro rfl
      exact older hb rest.began
    rw [List.count_cons_of_ne (by simpa using ne)]
    exact ih (older hb)

/-- An instance that was started either runs or has been stopped, once. -/
theorem count_stop (hs : Solo h live) (hb : Began engine h) :
    h.count (.stop engine) + live.toList.count engine = 1 := by
  induction hs with
  | nil =>
    obtain ⟨_, _, hm⟩ := hb
    cases hm
  | listed rest ih | failed rest ih =>
    rw [List.count_cons_of_ne (by simp)]
    exact ih (began_of_cons hb nofun)
  | @started h other withCallback rest new ih =>
    rw [List.count_cons_of_ne (by simp)]
    by_cases same : other = engine
    · rw [rest.count_stop_of_not_began (same ▸ rest.not_began new)]
      simp [same]
    · have hb : Began engine h := began_of_cons hb (by rintro _ _ ⟨⟩; exact same rfl)
      simpa [same] using ih hb
  | called rest on ih =>
    rw [count_stop_of_on on]
    exact ih (began_of_cons hb fun _ _ => on_ne_start on _ _ _)
  | returned rest ih =>
    rw [List.count_cons_of_ne (by simp)]
    exact ih (began_of_cons hb nofun)
  | @stopped h other rest ih =>
    have := ih (began_of_cons hb nofun)
    by_cases same : other = engine
    · subst same
      simpa using this
    · rw [List.count_cons_of_ne (by simpa using same)]
      simpa [same] using this

theorem orderly (hs : Solo h live) : Orderly h where
  alone before hb := by
    obtain ⟨earlier, hs⟩ := hs.suffix hb
    rw [hs.running_eq]
    cases earlier <;> simp
  inTime after call before engine hh on := by
    obtain ⟨earlier, hs⟩ := hs.suffix ⟨after, hh.symm⟩
    have runs := hs.of_on on
    refine ⟨by simp [runs.running_eq], ?_⟩
    have := runs.count_stop runs.began
    refine List.count_eq_zero.mp ?_
    simpa using this
  once engine := by
    by_cases hb : Began engine h
    · have := hs.count_stop hb
      omega
    · rw [hs.count_stop_of_not_began hb]
      exact Nat.zero_le _

theorem released (hs : Solo h none) : Released h := fun _ hb => hs.count_stop hb

end Solo

end

end History

end Orator

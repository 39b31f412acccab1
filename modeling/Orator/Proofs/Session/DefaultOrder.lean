import Orator.Proofs.Dispatcher.Resolve

/-! Without a live engine the default order is gone through: the preferred engine once, if it was found, then all
    others as they were found. The first that starts is kept and no other is asked after it; if none starts, all
    have been asked, and nothing has changed but the record of it. -/

namespace Orator

/-- The calls with which these engines failed to start in turn, the latest first. -/
def Call.failures (names : List String) : History := (names.map Call.failure).reverse

theorem Call.failures_cons (name : String) (names : List String) (h : History) :
    Call.failures (name :: names) ++ h = Call.failures names ++ Call.failure name :: h := by
  simp [failures]

namespace House
variable {house : House} {name : String} {names : List String} {h : History}

/-! ### The order -/

/-- The preferred engine, if it was found, and then all others in the order in which they were found. -/
def defaultOrder (house : House) : List String :=
  (if house.preferred ∈ house.catalog.engines then [house.preferred] else []) ++
    house.catalog.engines.filter (· != house.preferred)

theorem candidates_eq (house : House) : house.candidates = house.defaultOrder := by
  rw [candidates, defaultOrder]
  congr 1
  cases first : house.catalog.engines.find? (· == house.preferred) with
  | some name =>
    have own := List.find?_some first
    obtain rfl : name = house.preferred := beq_iff_eq.mp own
    rw [if_pos (List.mem_of_find?_eq_some first)]
    rfl
  | none =>
    rw [if_neg]
    · rfl
    · intro found
      exact List.find?_eq_none.mp first _ found (beq_self_eq_true _)

/-- Every engine that was found has its turn, and no other. -/
theorem mem_defaultOrder : name ∈ house.defaultOrder ↔ name ∈ house.catalog.engines := by
  unfold defaultOrder
  by_cases own : name = house.preferred
  · subst own
    by_cases found : house.preferred ∈ house.catalog.engines <;> simp [found]
  · by_cases found : house.preferred ∈ house.catalog.engines <;> simp [found, own]

/-! ### Failing in turn -/

/-- Each of these engines fails to start when those before it have failed. -/
def AllFail (house : House) (names : List String) (h : History) : Prop :=
  ∀ before name, before ++ [name] <+: names →
    ∃ fault, house.library.start (Call.failures before ++ h) house.libDir name true = .error fault

theorem allFail_nil : house.AllFail [] h := by
  intro before name first
  simp at first

theorem allFail_cons {fault : EngineFault} (fails : house.library.start h house.libDir name true = .error fault)
    (others : house.AllFail names (Call.failure name :: h)) : house.AllFail (name :: names) h := by
  intro before last inside
  cases before with
  | nil =>
    obtain ⟨rfl, -⟩ := List.cons_prefix_cons.mp inside
    exact ⟨fault, fails⟩
  | cons first before =>
    obtain ⟨rfl, later⟩ := List.cons_prefix_cons.mp inside
    rw [Call.failures_cons]
    exact others before last later

end House

/-! ### Searching -/

namespace Dispatcher.Search
variable {house : House} {names : List String} {h : History} {calls : List Call}

theorem asks {found : Option Engine} (search : Search house names h calls found) {call : Call} (made : call ∈ calls) :
    ∃ name ∈ names, ∃ answer, call = .start name true answer := by
  induction search with
  | exhausted => cases made
  | @failed name names h calls found fails rest ih =>
    rcases List.mem_cons.mp made with rfl | made
    · exact ⟨name, List.mem_cons_self, none, rfl⟩
    · obtain ⟨other, there, asked⟩ := ih made
      exact ⟨other, List.mem_cons_of_mem _ there, asked⟩
  | @started name names h engine starts =>
    obtain ⟨rate, -, rfl⟩ := House.start_of_offered starts
    exact ⟨name, List.mem_cons_self, _, List.mem_singleton.mp made⟩

/-- In a search that finds nothing all engines fail. -/
theorem allFail (search : Search house names h calls none) :
    house.AllFail names h ∧ calls = names.map Call.failure := by
  generalize none_ : none = found at search
  induction search with
  | exhausted => exact ⟨House.allFail_nil, rfl⟩
  | failed fails rest ih =>
    obtain ⟨fault, fails⟩ := House.start_of_failed fails
    obtain ⟨all, rfl⟩ := ih none_
    exact ⟨House.allFail_cons fails all, rfl⟩
  | started => cases none_

/-- A search ends with the first engine that starts; those before it have failed. -/
theorem first {engine : Engine} (search : Search house names h calls (some engine)) :
    ∃ before, before ++ [engine.name] <+: names ∧ house.AllFail before h ∧
      house.library.start (Call.failures before ++ h) house.libDir engine.name true = .ok engine.sampleRate ∧
      calls = before.map Call.failure ++ [.start engine.name true (some engine)] := by
  generalize some_ : some engine = found at search
  induction search with
  | exhausted => cases some_
  | @failed name names h calls found fails rest ih =>
    obtain ⟨fault, fails⟩ := House.start_of_failed fails
    obtain ⟨before, inside, others, starts, rfl⟩ := ih some_
    refine ⟨name :: before, List.cons_prefix_cons.mpr ⟨rfl, inside⟩, House.allFail_cons fails others, ?_, rfl⟩
    rw [Call.failures_cons]
    exact starts
  | started starts =>
    cases some_
    obtain ⟨rate, answer, rfl⟩ := House.start_of_offered starts
    exact ⟨[], by simp, House.allFail_nil, answer, rfl⟩

end Dispatcher.Search

namespace Session
variable {house : House} {s t : Session} {r : Except Fault Unit}

/-- What is left when no engine has started: the error names all that were found, and they have all been asked. -/
structure Exhausted (house : House) (s : Session) (r : Except Fault Unit) (t : Session) : Prop where
  refused : r = .error (.noEngine house.tried)
  unchanged : t = { s with history := Call.failures house.defaultOrder ++ s.history }
  asked : ∀ name ∈ house.catalog.engines, .failure name ∈ Call.failures house.defaultOrder

/-- What is left when an engine has started, after those before it in the order had failed. -/
structure Found (house : House) (s : Session) (before : List String) (name : String) (r : Except Fault Unit)
    (t : Session) : Prop where
  done : r = .ok ()
  next : before ++ [name] <+: house.defaultOrder
  fails : house.AllFail before s.history
  starts : house.library.start (Call.failures before ++ s.history) house.libDir name true = .ok t.sampleRate
  live : t.engineName = some name
  silent : t.voice = none
  forgotten : t.applied = {}
  calls : t.history = .start name true t.engine? :: (Call.failures before ++ s.history)

theorem selectDefault_exhausted {calls : List Call}
    (search : Dispatcher.Search house house.defaultOrder s.history calls none) :
    Exhausted house s (Dispatcher.searchResult house none) (Dispatcher.searched calls none s) := by
  obtain ⟨-, rfl⟩ := search.allFail
  refine ⟨rfl, rfl, fun name listed => ?_⟩
  exact List.mem_reverse.mpr (List.mem_map_of_mem (House.mem_defaultOrder.mpr listed))

theorem selectDefault_found {calls : List Call} {engine : Engine}
    (search : Dispatcher.Search house house.defaultOrder s.history calls (some engine)) :
    ∃ before, Found house s before engine.name (Dispatcher.searchResult house (some engine))
      (Dispatcher.searched calls (some engine) s) := by
  obtain ⟨before, next, fails, starts, rfl⟩ := search.first
  refine ⟨before, rfl, next, fails, starts, rfl, rfl, rfl, ?_⟩
  simp [Call.failures, Dispatcher.searched, engine?]

/-- Of an engine that is found not all fail. -/
theorem Found.not_allFail {before : List String} {name : String} (h : Found house s before name r t) :
    ¬house.AllFail house.defaultOrder s.history := by
  intro all
  obtain ⟨fault, fails⟩ := all before name h.next
  rw [h.starts] at fails
  cases fails

/-- A live engine is left alone. Without one, the engines are asked in the default order up to the first that starts,
    which is live then and knows no voice and no parameters; none is asked that was not found. The search fails exactly
    when each engine fails in its turn; then the session is as it was, but for the calls. -/
theorem default_in_order (selects : s.selectDefault house = (r, t)) :
    (s.live = true → r = .ok () ∧ t = s) ∧
    (s.live = false →
      ((∃ fault, r = .error fault) ↔ house.AllFail house.defaultOrder s.history) ∧
      (Exhausted house s r t ∧ t.live = false ∨ ∃ before name, Found house s before name r t) ∧
      ∃ calls, t.history = calls ++ s.history ∧
        ∀ call ∈ calls, ∃ name ∈ house.catalog.engines, ∃ answer, call = .start name true answer) := by
  refine ⟨fun live => ?_, fun out => ?_⟩
  · rw [selectDefault, if_pos live] at selects
    cases selects
    exact ⟨rfl, rfl⟩
  · have dark : s.active = none := by simpa [live] using out
    obtain ⟨calls, found, search, result⟩ := Dispatcher.selectDefault_search house dark
    rw [House.candidates_eq] at search
    rw [result] at selects
    cases selects
    refine ⟨?_, ?_, calls.reverse, Dispatcher.searched_history _ _ _, fun call made => ?_⟩
    · cases found with
      | none => exact ⟨fun _ => search.allFail.1, fun _ => ⟨_, rfl⟩⟩
      | some engine =>
        obtain ⟨before, some_⟩ := selectDefault_found search
        refine ⟨?_, fun all => absurd all some_.not_allFail⟩
        rintro ⟨fault, failed⟩
        cases failed
    · cases found with
      | none => exact Or.inl ⟨selectDefault_exhausted search, out⟩
      | some engine =>
        obtain ⟨before, some_⟩ := selectDefault_found search
        exact Or.inr ⟨before, engine.name, some_⟩
    · obtain ⟨name, there, asked⟩ := search.asks (List.mem_reverse.mp made)
      exact ⟨name, House.mem_defaultOrder.mp there, asked⟩

/-- One engine starts; the preferred one is listed twice, and behind another. -/
def reluctantHouse : House where
  library := loneLibrary ["flite", "espeak", "espeak", "festival", "pico"] "festival" 16000
  libDir := "/lib"
  catalog := ⟨["flite", "espeak", "espeak", "festival", "pico"], []⟩
  preferred := "espeak"

theorem default_in_order_thirdStarts :
    ∃ t, ({} : Session).selectDefault reluctantHouse = (.ok (), t) ∧ ({} : Session).live = false ∧
      t.history = [.start "festival" true t.engine?, .failure "flite", .failure "espeak"] ∧ t.sampleRate = 16000 ∧
      ¬reluctantHouse.AllFail reluctantHouse.defaultOrder [] := by
  have selects : ({} : Session).selectDefault reluctantHouse = (.ok (), _) := rfl
  obtain ⟨-, dark⟩ := default_in_order selects
  obtain ⟨fails_iff, -, -⟩ := dark rfl
  refine ⟨_, selects, rfl, rfl, rfl, fun all => ?_⟩
  obtain ⟨fault, failed⟩ := fails_iff.mpr all
  cases failed

end Session

end Orator

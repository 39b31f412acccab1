import Orator.Proofs.Dispatcher.Rendition
import Orator.Proofs.Service.OneAtATime

/-! All that the host is told in a run, with a note of which request it is told of. Utterances come one after the
    other, and each comes after a call of its own. -/

namespace Orator

namespace Service

open Dispatcher (Moved Exclusive Rendered noted)
open Pipeline (news)

/-- The request of a call to speak. -/
def Label.request? : Label → Option Request
  | .call (.speak request) => some request
  | _ => none

def notes (label : Label) (s t : Dispatcher.State) : List Note :=
  match label with
  | .call (.speak request) => [.asked request]
  | .inner label => noted label s t
  | _ => (news s.pipe t.pipe).map Note.told

/-- What is noted of a run, in order. -/
def chronicle (setup : Setup) : List Label → State → List Note
  | [], _ => []
  | label :: labels, s =>
    match step setup label s with
    | some t => notes label s.dispatcher t.dispatcher ++ chronicle setup labels t
    | none => []

/-! ### What is asked of engines and of the host -/

def Label.fair (last : Bool) (label : Label) : Bool :=
  (label.inner?.map (·.fair last)).getD true

def Label.last (last : Bool) (label : Label) : Bool :=
  (label.inner?.map (·.last last)).getD last

/-- Whether in a run the host comes back from each push, and each engine hands over an empty buffer last of all. -/
def fair (last : Bool) : List Label → Bool
  | [] => true
  | label :: labels => label.fair last && fair (label.last last) labels

section
variable {setup : Setup} {s t : State} {label : Label} {labels : List Label} {last : Bool} {past : List Note}

theorem chronicle_cons (h : step setup label s = some t) :
    chronicle setup (label :: labels) s = notes label s.dispatcher t.dispatcher ++ chronicle setup labels t := by
  simp only [chronicle, h]

/-- What each fair step keeps, a fair run keeps. -/
theorem run_chronicle {P : Bool → List Note → State → Prop}
    (keeps : ∀ {last past s t label}, step setup label s = some t → label.fair last = true → P last past s →
      P (label.last last) (past ++ notes label s.dispatcher t.dispatcher) t)
    (h : run setup labels s = some t) (fairly : fair last labels = true) (hs : P last past s) :
    ∃ last', P last' (past ++ chronicle setup labels s) t := by
  induction labels generalizing s last past with
  | nil =>
    cases h
    rw [chronicle, List.append_nil]
    exact ⟨last, hs⟩
  | cons label labels ih =>
    obtain ⟨u, hu, h⟩ := Option.bind_eq_some_iff.mp h
    obtain ⟨now, later⟩ := Bool.and_eq_true_iff.mp fairly
    rw [chronicle_cons hu, ← List.append_assoc]
    exact ih h later (keeps hu now hs)

/-! ### Utterances -/

theorem notes_of_inner {inner : Dispatcher.Label} {d d' : Dispatcher.State} (own : label.inner? = some inner) :
    notes label d d' = noted inner d d' := by
  cases label with
  | grant task | inner label | close =>
    cases own
    rfl
  | _ => cases own

theorem notes_of_outer {d d' : Dispatcher.State} (own : label.inner? = none)
    (hushed : (news d.pipe d'.pipe).filter HostEvent.ofDelivery = []) :
    (notes label d d').filter Note.ofUtterance = [] := by
  have told : ((news d.pipe d'.pipe).map Note.told).filter Note.ofUtterance = [] := by
    rw [Dispatcher.filter_told, hushed]
    rfl
  cases label with
  | call task =>
    cases task with
    | speak request => rfl
    | _ => exact told
  | inner => cases own
  | _ => exact told

theorem step_rendered (h : step setup label s = some t) (he : Exclusive s.dispatcher)
    (fairly : label.fair last = true) (hs : Rendered last s.dispatcher (past.filter Note.ofUtterance)) :
    Rendered (label.last last) t.dispatcher
      ((past ++ notes label s.dispatcher t.dispatcher).filter Note.ofUtterance) := by
  have stirred := step_inv h
  rw [List.filter_append]
  generalize t.dispatcher = d at stirred ⊢
  cases stirred with
  | @moved inner _ own never moved =>
    rw [Label.fair, own] at fairly
    rw [notes_of_inner own, Label.last, own]
    exact Dispatcher.moved_rendered moved he never fairly hs
  | told event own other =>
    rw [notes_of_outer own, List.append_nil, Label.last, own]
    · exact hs.rest rfl rfl rfl id (.refl _)
    · rw [@Pipeline.news_of_heard _ _ [event] rfl]
      simp [other]
  | raised own =>
    have own : label.inner? = none := by rcases own with rfl | rfl <;> rfl
    rw [notes_of_outer own, List.append_nil, Label.last, own]
    · exact hs.rest rfl rfl rfl (fun _ => rfl) (.refl _)
    · rw [Pipeline.news_of_same]
      · rfl
      · rfl
  | rested own =>
    rw [notes_of_outer own, List.append_nil, Label.last, own]
    · exact hs
    · rw [Pipeline.news_of_same rfl]
      rfl

/-! ### Announcements -/

/-- Which events a step can tell the host. -/
def Label.tells : Label → HostEvent → Bool
  | .init _, .init _ | .call (.speak _), .beforeSynth | .silence, .stop | .pause, .pause | .terminate, .terminate => true
  | .inner _, event => event.ofDelivery || event = .stop
  | _, _ => false

theorem step_tells (h : step setup label s = some t) : ∃ more : List HostEvent,
    t.dispatcher.pipe.heard = more.reverse ++ s.dispatcher.pipe.heard ∧ ∀ event ∈ more, label.tells event = true := by
  have one {event : HostEvent} (tells : label.tells event = true) : ∀ other ∈ [event], label.tells other = true :=
    List.forall_mem_singleton.mpr tells
  cases stepped h with
  | initialized | asked | silenced | paused | terminated => exact ⟨[_], rfl, one rfl⟩
  | refused | called | stopped | cancelled => exact ⟨[], rfl, List.forall_mem_nil _⟩
  | granted _ moved | closed _ _ _ moved =>
    cases moved with
    | took => exact ⟨[], rfl, List.forall_mem_nil _⟩
  | moved _ moved =>
    obtain ⟨more, heard, told⟩ := Dispatcher.moved_told moved
    refine ⟨more, heard, fun event there => ?_⟩
    rcases told event there with ⟨rfl, -⟩ | ⟨ofDelivery, -⟩
    · rfl
    · simp [Label.tells, ofDelivery]

theorem notes_asked (label : Label) (d d' : Dispatcher.State) :
    (notes label d d').filterMap Note.asked? = label.request?.toList := by
  have told := Dispatcher.asked_told (news d.pipe d'.pipe)
  cases label with
  | call task =>
    cases task with
    | speak request => rfl
    | _ => exact told
  | inner label => exact Dispatcher.noted_asked label d d'
  | _ => exact told

theorem chronicle_asked (h : run setup labels s = some t) :
    (chronicle setup labels s).filterMap Note.asked? = labels.filterMap Label.request? := by
  induction labels generalizing s with
  | nil => rfl
  | cons label labels ih =>
    obtain ⟨u, hu, h⟩ := Option.bind_eq_some_iff.mp h
    rw [chronicle_cons hu, List.filterMap_append, notes_asked, ih h]
    cases here : label.request? <;> simp [here]

theorem notes_event (h : step setup label s = some t) :
    (notes label s.dispatcher t.dispatcher).filterMap Note.event? = news s.dispatcher.pipe t.dispatcher.pipe := by
  have told := Dispatcher.event_told (news s.dispatcher.pipe t.dispatcher.pipe)
  cases stepped h with
  | asked => exact (@Pipeline.news_of_heard _ _ [.beforeSynth] rfl).symm
  | @called task _ _ other =>
    cases task with
    | speak request => exact absurd rfl (other request)
    | _ => exact told
  | moved => exact Dispatcher.noted_event _ s.dispatcher _
  | _ => exact told

theorem step_heard (h : step setup label s = some t) (hs : past.filterMap Note.event? = s.dispatcher.pipe.heard.reverse) :
    (past ++ notes label s.dispatcher t.dispatcher).filterMap Note.event? = t.dispatcher.pipe.heard.reverse := by
  obtain ⟨more, heard, -⟩ := step_tells h
  rw [List.filterMap_append, hs, notes_event h, Pipeline.news_of_heard heard, heard]
  simp

/-- No announcement goes without its call. -/
theorem step_unprompted (h : step setup label s = some t) :
    .told .beforeSynth ∉ notes label s.dispatcher t.dispatcher := by
  intro there
  obtain ⟨more, heard, tells⟩ := step_tells h
  have told : HostEvent.beforeSynth ∈ (notes label s.dispatcher t.dispatcher).filterMap Note.event? :=
    List.mem_filterMap.mpr ⟨_, there, rfl⟩
  rw [notes_event h, Pipeline.news_of_heard heard] at told
  have own := tells _ told
  cases label with
  | call task =>
    cases task with
    | speak request => cases List.mem_singleton.mp there
    | _ => cases own
  | _ => cases own

/-! ### Requests before their utterances -/

/-- The request that the task who holds the dispatcher may still come to speak. -/
def holds (request : Request) : Dispatcher.Control → Bool
  | .waiting (.speak other) | .resolving other | .clearing _ other | .opening _ other => other = request
  | _ => false

/-- An utterance has not begun before one more call for its request was announced than there were utterances of it. -/
def Announced (past : List Note) : Prop :=
  ∀ before request after, past = before ++ .opened request :: after →
    before.count (.opened request) < before.count (.asked request)

/-- How many of the calls for the request have not come to an utterance yet, and may. -/
def owed (request : Request) (s : State) : Nat :=
  s.waiting.count (.speak request) + (holds request s.dispatcher.control).toNat

/-- No utterance goes without a call of its own. -/
def Owing (past : List Note) (s : State) : Prop :=
  ∀ request, past.count (.opened request) + owed request s ≤ past.count (.asked request)

theorem split_append {α : Type} {past more before after : List α} {x : α} (h : past ++ more = before ++ x :: after) :
    (∃ rest, past = before ++ x :: rest) ∨ ∃ rest, before = past ++ rest ∧ more = rest ++ x :: after := by
  rcases List.append_eq_append_iff.mp h with ⟨rest, hb, hm⟩ | ⟨rest, hp, hm⟩
  · exact Or.inr ⟨rest, hb, hm⟩
  · cases rest with
    | nil => exact Or.inr ⟨[], by simpa using hp.symm, hm.symm⟩
    | cons y rest =>
      obtain ⟨rfl, rfl⟩ := List.cons.inj hm
      exact Or.inl ⟨rest, hp⟩

theorem Announced.append {more : List Note} (hs : Announced past) (none : ∀ request, .opened request ∉ more) :
    Announced (past ++ more) := by
  intro before request after h
  rcases split_append h with ⟨rest, hp⟩ | ⟨rest, -, hm⟩
  · exact hs before request rest hp
  · exact absurd (by simp [hm]) (none request)

theorem Announced.opened {request : Request} (hs : Announced past)
    (due : past.count (.opened request) < past.count (.asked request)) : Announced (past ++ [.opened request]) := by
  intro before other after h
  rcases split_append h with ⟨rest, hp⟩ | ⟨rest, hb, hm⟩
  · exact hs before other rest hp
  · obtain ⟨rfl, same, -⟩ : rest = [] ∧ Note.opened request = .opened other ∧ after = [] := by
      cases rest <;> simp_all
    cases same
    rw [hb, List.append_nil]
    exact due

theorem Owing.rest {more : List Note} (hs : Owing past s) (none : ∀ request, .opened request ∉ more)
    (owes : ∀ request, owed request t ≤ owed request s) : Owing (past ++ more) t := by
  intro request
  have before := hs request
  have now := owes request
  rw [List.count_append, List.count_append, List.count_eq_zero_of_not_mem (none request)]
  omega

theorem owed_le {request : Request} (waiting : t.waiting = s.waiting)
    (control : holds request t.dispatcher.control = true → holds request s.dispatcher.control = true) :
    owed request t ≤ owed request s := by
  rw [owed, owed, waiting]
  refine Nat.add_le_add_left ?_ _
  cases here : holds request t.dispatcher.control with
  | false => exact Nat.zero_le _
  | true => exact (control here) ▸ Nat.le_refl _

theorem opened_notMem_told (events : List HostEvent) (request : Request) :
    .opened request ∉ events.map Note.told := by
  simp

/-- A task is granted what it waited for. -/
theorem owed_granted {task : Dispatcher.Task} {d : Dispatcher.State} (request : Request) (waits : task ∈ s.waiting)
    (free : s.dispatcher.control = .free) (entered : d.control = task.enter) :
    owed request { s with dispatcher := d, waiting := s.waiting.erase task } ≤ owed request s := by
  simp only [owed, free, entered, List.count_erase]
  by_cases own : task = .speak request
  · subst own
    have := List.count_pos_iff.mpr waits
    simp [Dispatcher.Task.enter, holds]
    omega
  · have idle : holds request task.enter = false := by
      cases task with
      | speak other => simpa [holds, Dispatcher.Task.enter] using own
      | _ => rfl
    simp [own, idle]

/-- Nobody but a task that is granted comes to hold a request. -/
theorem moved_holds {request : Request} {inner : Dispatcher.Label} {d d' : Dispatcher.State}
    (h : Moved setup.house setup.limits d inner d') (granted : ∀ task, inner ≠ .take task)
    (there : holds request d'.control = true) : holds request d.control = true := by
  cases h with
  | took => exact absurd rfl (granted _)
  | @wentOn task here | @collected task outcome here =>
    rw [here]
    cases task with
    | speak other => exact there
    | _ => cases there
  | resolved here | cleared here =>
    rw [here]
    exact there
  | reported | unresolved | unswitched | switched | stopped | opened | spawned | attended | released => cases there
  | _ => exact there

/-- The channel is opened for a request that is held. -/
theorem moved_owing {engine : Engine} {request : Request} {d : Dispatcher.State}
    (h : Moved setup.house setup.limits s.dispatcher .control d) (here : s.dispatcher.control = .opening engine request)
    (ha : Announced past) (hs : Owing past s) :
    Announced (past ++ noted .control s.dispatcher d) ∧
      Owing (past ++ noted .control s.dispatcher d) { s with dispatcher := d } := by
  obtain rfl := h.of_opening here
  rw [Dispatcher.noted_of_opening here]
  · refine ⟨ha.opened ?_, fun other => ?_⟩
    · have before := hs request
      simp [owed, here, holds] at before
      omega
    · have before := hs other
      simp only [owed, here, holds, List.count_append, List.count_singleton] at before ⊢
      by_cases own : request = other
      · subst own
        simp at before ⊢
        omega
      · simpa [own] using before
  · rfl

theorem step_owing (h : step setup label s = some t) (ha : Announced past) (hs : Owing past s) :
    Announced (past ++ notes label s.dispatcher t.dispatcher) ∧
      Owing (past ++ notes label s.dispatcher t.dispatcher) t := by
  have told {events : List HostEvent} (owes : ∀ request, owed request t ≤ owed request s) :
      Announced (past ++ events.map .told) ∧ Owing (past ++ events.map .told) t :=
    ⟨ha.append (opened_notMem_told _), hs.rest (opened_notMem_told _) owes⟩
  cases stepped h with
  | @asked request =>
    refine ⟨ha.append (by simp [notes]), fun other => ?_⟩
    have before := hs other
    simp only [notes, owed, State.tell, List.count_append, List.count_singleton] at before ⊢
    by_cases own : request = other
    · subst own
      simp
      omega
    · simpa [own] using before
  | @called task _ _ other =>
    cases task with
    | speak request => exact absurd rfl (other request)
    | _ => exact told fun request => by simp [owed]
  | granted waits moved =>
    cases moved with
    | took here => exact told fun request => owed_granted request waits here rfl
  | @moved inner d own moved =>
    by_cases opens : inner = .control ∧ ∃ engine request, s.dispatcher.control = .opening engine request
    · obtain ⟨rfl, engine, request, here⟩ := opens
      exact moved_owing moved here ha hs
    · have none (request : Request) : .opened request ∉ noted inner s.dispatcher d := by
        intro there
        obtain ⟨control, engine, here⟩ := Dispatcher.opening_of_noted there
        exact opens ⟨control, engine, request, here⟩
      have granted := not_take_of_internal own
      exact ⟨ha.append none, hs.rest none fun request => owed_le rfl (moved_holds moved granted)⟩
  | closed _ _ _ moved =>
    cases moved with
    | took => exact told fun _ => owed_le rfl Bool.noConfusion
  | _ => exact told fun _ => Nat.le_refl _

end

end Service

end Orator

import Orator.Proofs.Dispatcher.Answer
import Orator.Proofs.Dispatcher.Phrase

/-! Utterances come to the host one after the other, each as a phrase from its beginning to its end. -/

namespace Orator

/-- What can be noted of a run for those who want to know what the host hears of which request. -/
inductive Note where
  /-- A client calls to have a request spoken, and the host is told so. -/
  | asked (request : Request)
  /-- The channel of an accepted request is opened. -/
  | opened (request : Request)
  /-- The delivery of the request begins, and ends. -/
  | began | ended
  /-- The host is told anything else. -/
  | told (event : HostEvent)
deriving DecidableEq, Repr

namespace Note

def event? : Note → Option HostEvent
  | asked _ => some .beforeSynth
  | told event => some event
  | _ => none

def asked? : Note → Option Request
  | asked request => some request
  | _ => none

def ofUtterance : Note → Bool
  | asked _ => false
  | told event => event.ofDelivery
  | _ => true

end Note

namespace Dispatcher

open Pipeline (Limits news)

/-- What is noted of a step of the dispatcher. -/
def noted (label : Label) (s t : State) : List Note :=
  let told := (news s.pipe t.pipe).map Note.told
  match label with
  | .control =>
    match s.control with
    | .opening _ request => .opened request :: told
    | .attending _ => .began :: told
    | _ => told
  | .deliver _ => if t.pipe.delivery.running then told else told ++ [.ended]
  | _ => told

/-- One utterance with what the host heard of it. -/
structure Rendition where
  request : Request
  events : List HostEvent

namespace Rendition

def notes (r : Rendition) : List Note :=
  .opened r.request :: .began :: (r.events.map .told ++ [.ended])

/-- The host heard a phrase, and nothing of a request that has nothing to utter. -/
def Proper (r : Rendition) : Prop :=
  Phrase r.events ∧ (r.request.speech? = none → r.events = [])

end Rendition

/-- What is noted so far of the utterance under way. -/
inductive Unfinished (last : Bool) (s : State) : List Note → Prop where
  | none (spawns : s.control.spawns = false) (attends : s.control.attends = false)
    (rests : s.pipe.delivery.running = false) : Unfinished last s []
  | opened {engine request} (here : s.control = .spawning engine request) (empty : s.pipe.flight = []) :
    Unfinished last s [.opened request]
  | attending {request} (here : s.control = .attending request) (uttering : Uttering request [] last s) :
    Unfinished last s [.opened request]
  | delivering {request said} (runs : s.pipe.delivery.running = true) (uttering : Uttering request said last s) :
    Unfinished last s (.opened request :: .began :: said.map .told)

/-- All utterances but the one under way are told from their beginnings to their ends, one after the other. -/
def Rendered (last : Bool) (s : State) (past : List Note) : Prop :=
  ∃ (renditions : List Rendition) (current : List Note), past = renditions.flatMap Rendition.notes ++ current ∧
    (∀ r ∈ renditions, r.Proper) ∧ Unfinished last s current

section
variable {house : House} {limits : Limits} {s t : State} {label : Label}
  {last : Bool} {past current : List Note} {request : Request}

theorem Unfinished.rendered (h : Unfinished last s current) : Rendered last s current :=
  ⟨[], current, rfl, nofun, h⟩

theorem Rendered.after {renditions : List Rendition} (h : Rendered last s past) (before : ∀ r ∈ renditions, r.Proper) :
    Rendered last s (renditions.flatMap Rendition.notes ++ past) := by
  obtain ⟨more, current, rfl, proper, unfinished⟩ := h
  refine ⟨renditions ++ more, current, by simp, ?_, unfinished⟩
  exact List.forall_mem_append.mpr ⟨before, proper⟩

/-- Whoever leaves the utterance alone leaves what is told of it. -/
theorem Rendered.rest (hs : Rendered last s past) (control : t.control = s.control) (speaker : t.speaker = s.speaker)
    (delivery : t.pipe.delivery = s.pipe.delivery) (flag : s.pipe.flag = true → t.pipe.flag = true)
    (flight : t.pipe.flight.Sublist s.pipe.flight) : Rendered last t past := by
  obtain ⟨renditions, current, rfl, proper, unfinished⟩ := hs
  refine ⟨renditions, current, rfl, proper, ?_⟩
  cases unfinished with
  | none spawns attends rests => exact .none (control ▸ spawns) (control ▸ attends) (delivery ▸ rests)
  | opened here empty => exact .opened (control ▸ here) (List.sublist_nil.mp (empty ▸ flight))
  | attending here uttering =>
    exact .attending (control ▸ here) (uttering.rest (Or.inl ⟨speaker, rfl⟩) delivery flag flight)
  | delivering runs uttering =>
    exact .delivering (delivery ▸ runs) (uttering.rest (Or.inl ⟨speaker, rfl⟩) delivery flag flight)

/-- The utterance under way comes to its end. -/
theorem Rendition.Proper.rendered {r : Rendition} (proper : r.Proper) (idle : s.control.working = false)
    (rests : s.pipe.delivery.running = false) : Rendered last s r.notes := by
  obtain ⟨spawns, attends⟩ : s.control.spawns = false ∧ s.control.attends = false := by
    cases here : s.control <;> first | exact ⟨rfl, rfl⟩ | (rw [here] at idle; cases idle)
  refine ⟨[r], [], by simp, ?_, .none spawns attends rests⟩
  simpa using proper

/-! ### What a step tells of an utterance -/

theorem event_told (events : List HostEvent) : (events.map Note.told).filterMap Note.event? = events := by
  rw [List.filterMap_map]
  exact List.filterMap_some

theorem asked_told (events : List HostEvent) : (events.map Note.told).filterMap Note.asked? = [] := by
  rw [List.filterMap_map]
  exact List.filterMap_eq_nil_iff.mpr fun _ _ => rfl

theorem filter_told (events : List HostEvent) :
    (events.map Note.told).filter Note.ofUtterance = (events.filter HostEvent.ofDelivery).map .told :=
  List.filter_map

/-- Only the delivery loop tells anything of an utterance. -/
theorem moved_hushed (h : Moved house limits s label t) (other : ∀ verdict, label ≠ .deliver verdict) :
    (news s.pipe t.pipe).filter HostEvent.ofDelivery = [] := by
  obtain ⟨more, heard, told⟩ := moved_told h
  rw [Pipeline.news_of_heard heard]
  refine List.filter_eq_nil_iff.mpr fun event there => ?_
  rcases told event there with ⟨rfl, -⟩ | ⟨-, verdict, own⟩
  · exact Bool.false_ne_true
  · exact absurd own (other verdict)

theorem moved_delivery (h : Moved house limits s label t) (other : ∀ verdict, label ≠ .deliver verdict)
    (stays : label = .control → s.control.working = false) : t.pipe.delivery = s.pipe.delivery := by
  cases h with
  | produced h => exact h.frame.1
  | delivered => exact absurd rfl (other _)
  | opened here | attended here =>
    have idle := stays rfl
    rw [here] at idle
    cases idle
  | _ => rfl

theorem noted_of_other (h : Moved house limits s label t) (other : ∀ verdict, label ≠ .deliver verdict)
    (opening : ∀ engine request, label = .control → s.control ≠ .opening engine request)
    (attending : ∀ request, label = .control → s.control ≠ .attending request) :
    (noted label s t).filter Note.ofUtterance = [] := by
  have told : noted label s t = (news s.pipe t.pipe).map Note.told := by
    unfold noted
    cases label with
    | control =>
      cases here : s.control with
      | opening engine request => exact absurd here (opening engine request rfl)
      | attending request => exact absurd here (attending request rfl)
      | _ => rfl
    | deliver verdict => exact absurd rfl (other verdict)
    | _ => rfl
  rw [told, filter_told, moved_hushed h other]
  rfl

theorem noted_event (label : Label) (s t : State) :
    (noted label s t).filterMap Note.event? = news s.pipe t.pipe := by
  have told := event_told (news s.pipe t.pipe)
  unfold noted
  cases label with
  | control => cases s.control <;> exact told
  | deliver verdict => cases t.pipe.delivery.running <;> simp [told, Note.event?]
  | _ => exact told

theorem noted_asked (label : Label) (s t : State) : (noted label s t).filterMap Note.asked? = [] := by
  have told := asked_told (news s.pipe t.pipe)
  unfold noted
  cases label with
  | control => cases s.control <;> exact told
  | deliver verdict => cases t.pipe.delivery.running <;> simp [told, Note.asked?]
  | _ => exact told

theorem opening_of_noted (there : .opened request ∈ noted label s t) :
    label = .control ∧ ∃ engine, s.control = .opening engine request := by
  have told : .opened request ∉ (news s.pipe t.pipe).map Note.told := by simp
  unfold noted at there
  cases label with
  | control =>
    cases here : s.control with
    | opening engine other =>
      rw [here] at there
      rcases List.mem_cons.mp there with same | there
      · cases same
        exact ⟨rfl, engine, rfl⟩
      · exact absurd there told
    | attending other =>
      rw [here] at there
      exact absurd ((List.mem_cons.mp there).resolve_left nofun) told
    | _ =>
      rw [here] at there
      exact absurd there told
  | deliver verdict => cases runs : t.pipe.delivery.running <;> simp [runs] at there
  | _ => exact absurd there told

theorem noted_of_opening {engine : Engine} (here : s.control = .opening engine request)
    (heard : t.pipe.heard = s.pipe.heard) : noted .control s t = [.opened request] := by
  simp [noted, here, Pipeline.news_of_same heard]

theorem noted_of_attending (here : s.control = .attending request) (heard : t.pipe.heard = s.pipe.heard) :
    noted .control s t = [.began] := by
  simp [noted, here, Pipeline.news_of_same heard]

theorem noted_of_deliver (verdict : Verdict) :
    (noted (.deliver verdict) s t).filter Note.ofUtterance =
      ((news s.pipe t.pipe).filter HostEvent.ofDelivery).map .told ++
        if t.pipe.delivery.running then [] else [.ended] := by
  unfold noted
  cases t.pipe.delivery.running <;> simp [filter_told, Note.ofUtterance]

/-! ### What a step adds to the utterance under way -/

theorem not_deliver_of_rests (h : Moved house limits s label t) (rests : s.pipe.delivery.running = false)
    (verdict : Verdict) : label ≠ .deliver verdict := by
  rintro rfl
  cases h with
  | delivered h =>
    have runs := h.runs
    rw [rests] at runs
    cases runs

theorem moved_none (h : Moved house limits s label t) (he : Exclusive s) (spawns : s.control.spawns = false)
    (attends : s.control.attends = false) (rests : s.pipe.delivery.running = false) :
    Rendered (label.last last) t ((noted label s t).filter Note.ofUtterance) := by
  have other := not_deliver_of_rests h rests
  by_cases opens : label = .control ∧ ∃ engine request, s.control = .opening engine request
  · obtain ⟨rfl, engine, request, here⟩ := opens
    obtain ⟨-, -, -, producer⟩ := he.quiet (by rw [here]; rfl) (by rw [here]; rfl)
    obtain rfl := h.of_opening here
    rw [noted_of_opening here]
    · refine Unfinished.rendered (.opened rfl ?_)
      simp [Pipeline.State.flight, Pipeline.State.beginUtterance, producer, Pipeline.Delivery.hand,
        Pipeline.Producer.hand]
    · rfl
  · rw [noted_of_other h other (fun engine request own here => opens ⟨own, engine, request, here⟩)
      (fun request _ here => by rw [here] at attends; cases attends)]
    obtain ⟨spawns', attends', rests'⟩ : t.control.spawns = false ∧ t.control.attends = false ∧
        t.pipe.delivery.running = false := by
      cases h with
      | took => exact ⟨(enter_idle _).2.1, (enter_idle _).2.2, rests⟩
      | wentOn | collected =>
        exact ⟨(proceed_idle _ _).1, (proceed_idle _ _).2, rests⟩
      | reported | unresolved | resolved | unswitched | switched | stopped | cleared | released => exact ⟨rfl, rfl, rests⟩
      | opened here => exact absurd ⟨rfl, _, _, here⟩ opens
      | spawned here =>
        rw [here] at spawns
        cases spawns
      | attended here =>
        rw [here] at attends
        cases attends
      | produced h => exact ⟨spawns, attends, h.frame.1 ▸ rests⟩
      | delivered => exact absurd rfl (other _)
      | _ => exact ⟨spawns, attends, rests⟩
    exact (Unfinished.none spawns' attends' rests').rendered

theorem moved_opened (h : Moved house limits s label t) (he : Exclusive s) (never : label ≠ .clear)
    {engine : Engine} (here : s.control = .spawning engine request) (empty : s.pipe.flight = []) :
    Rendered (label.last last) t ([.opened request] ++ (noted label s t).filter Note.ofUtterance) := by
  have nobody := (he.quiet (by rw [here]; rfl) (by rw [here]; rfl)).nobody h
  have fresh := (he.fresh (by rw [here]; rfl)).2
  rw [noted_of_other h (by rintro _ rfl; cases nobody) (by simp [here]) (by simp [here]), List.append_nil]
  cases h with
  | @spawned engine request' here' =>
    obtain ⟨rfl, rfl⟩ : engine = _ ∧ request' = request := by simpa [here'] using here
    refine Unfinished.rendered (.attending rfl ⟨?_, ?_, ?_, ?_, fun _ => ⟨rfl, empty, nofun⟩⟩)
    · intro other said there
      injection there with _ same
      exact same.symm
    · rw [Pipeline.Saying, fresh]
      exact ⟨[], rfl⟩
    · rw [Pipeline.State.EndsLast, empty]
      exact .nil
    · rw [empty]
      simp
  | took here' | reported here' | wentOn here' | collected here' | unresolved here' | resolved here'
  | unswitched here' | switched here' | stopped here' | cleared here' | opened here' | attended here'
  | released here' =>
    rw [here] at here'
    cases here'
  | raised => exact Unfinished.rendered (.opened here empty)
  | lowered => exact absurd rfl never
  | _ => cases nobody

theorem moved_attending (h : Moved house limits s label t) (he : Exclusive s) (never : label ≠ .clear)
    (fair : label.fair last = true) (here : s.control = .attending request) (hu : Uttering request [] last s) :
    Rendered (label.last last) t ([.opened request] ++ (noted label s t).filter Note.ofUtterance) := by
  have rests := he.delivery_idle (by rw [here]; rfl)
  have other := not_deliver_of_rests h rests
  by_cases attends : label = .control
  · subst attends
    cases h with
    | @attended request' here' =>
      obtain rfl : request' = request := by simpa [here'] using here
      have flight : (s.pipe.startDelivery).flight.Sublist s.pipe.flight :=
        Pipeline.flight_shrinks (List.nil_sublist _) (.refl _) (.refl _)
      rw [noted_of_attending here]
      · refine Unfinished.rendered (@Unfinished.delivering _ _ _ [] rfl ?_)
        refine ⟨hu.own, Or.inl ⟨[], rfl⟩, hu.order.sublist flight, ?_, ?_⟩
        · exact fun ends => hu.known (ends.imp_left fun there => flight.subset there)
        · intro none
          obtain ⟨-, empty, quiet⟩ := hu.silent none
          exact ⟨rfl, List.sublist_nil.mp (empty ▸ flight), quiet⟩
      · rfl
    | reported here' | wentOn here' | collected here' | unresolved here' | resolved here' | unswitched here'
    | switched here' | stopped here' | cleared here' | opened here' | spawned here' =>
      rw [here] at here'
      cases here'
  · have uttering := moved_uttering h never fair (fun own => absurd own attends) hu
    rw [moved_hushed h other, List.append_nil] at uttering
    rw [noted_of_other h other (fun _ _ own => absurd own attends) (fun _ own => absurd own attends), List.append_nil]
    refine Unfinished.rendered (.attending ?_ uttering)
    cases h with
    | took here' | released here' =>
      rw [here] at here'
      cases here'
    | reported | wentOn | collected | unresolved | resolved | unswitched | switched | stopped | cleared | opened
    | spawned | attended => exact absurd rfl attends
    | _ => exact here

theorem moved_delivering (h : Moved house limits s label t) (he : Exclusive s) (never : label ≠ .clear)
    (fair : label.fair last = true) {said : List HostEvent} (runs : s.pipe.delivery.running = true)
    (hu : Uttering request said last s) :
    Rendered (label.last last) t
      (.opened request :: .began :: said.map .told ++ (noted label s t).filter Note.ofUtterance) := by
  obtain ⟨kind, waits⟩ := he.watched runs
  have idle := he.not_working_of_awaiting (by rw [waits]; rfl)
  have uttering := moved_uttering h never fair (fun _ => idle) hu
  by_cases delivers : ∃ verdict, label = .deliver verdict
  · obtain ⟨verdict, rfl⟩ := delivers
    rw [noted_of_deliver]
    generalize (news s.pipe t.pipe).filter HostEvent.ofDelivery = more at uttering ⊢
    cases h with
    | @delivered _ pipe h =>
      cases runs' : pipe.delivery.running with
      | true =>
        have same : .opened request :: .began :: said.map .told ++ (more.map .told ++ []) =
            (.opened request :: .began :: (said ++ more).map .told : List Note) := by simp
        exact same ▸ (Unfinished.delivering runs' uttering).rendered
      | false =>
        have returns (taken : Bool) : verdict ≠ .crashed taken := by
          rintro rfl
          cases fair
        have proper : Rendition.Proper ⟨request, said ++ more⟩ :=
          ⟨uttering.saying.phrase (Pipeline.delivered_muted h returns runs'), fun none => (uttering.silent none).1⟩
        have same : .opened request :: .began :: said.map .told ++ (more.map .told ++ [.ended]) =
            Rendition.notes ⟨request, said ++ more⟩ := by simp [Rendition.notes]
        exact same ▸ proper.rendered idle runs'
  · have other (verdict : Verdict) : label ≠ .deliver verdict := fun own => delivers ⟨verdict, own⟩
    rw [moved_hushed h other, List.append_nil] at uttering
    rw [noted_of_other h other, List.append_nil]
    · exact (Unfinished.delivering (moved_delivery h other (fun _ => idle) ▸ runs) uttering).rendered
    · rintro engine request - here
      rw [here] at idle
      cases idle
    · rintro request - here
      rw [here] at idle
      cases idle

theorem moved_rendered (h : Moved house limits s label t) (he : Exclusive s) (never : label ≠ .clear)
    (fair : label.fair last = true) (hs : Rendered last s past) :
    Rendered (label.last last) t (past ++ (noted label s t).filter Note.ofUtterance) := by
  obtain ⟨renditions, current, rfl, proper, unfinished⟩ := hs
  rw [List.append_assoc]
  refine Rendered.after ?_ proper
  cases unfinished with
  | none spawns attends rests => exact moved_none h he spawns attends rests
  | opened here empty => exact moved_opened h he never here empty
  | attending here uttering => exact moved_attending h he never fair here uttering
  | delivering runs uttering => exact moved_delivering h he never fair runs uttering

end

end Dispatcher

end Orator

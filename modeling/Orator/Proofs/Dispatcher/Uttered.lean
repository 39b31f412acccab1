import Orator.Proofs.Dispatcher.Progress
import Orator.Proofs.Text.Lossy

/-! What an engine is given to utter: all the text of a request, and once. What is damaged in the payload costs nothing
    of what is not. -/

namespace Orator

theorem toUTF8_bytes (word : String) : word.toUTF8.data.toList = word.toList.flatMap String.utf8EncodeChar := by
  rw [String.toUTF8, ← String.utf8Encode_toList, List.utf8Encode, List.toList_data_toByteArray]

namespace Request

variable {request : Request} {word : String} {before after : List UInt8}

theorem text_around (nonempty : word ≠ "") (payload : request.payload = before ++ word.toUTF8.data.toList ++ after) :
    request.text = text { payload := before } ++ word ++ text { payload := after } := by
  have kept := Text.decodeLossy_around before after (mt String.toList_eq_nil_iff.mp nonempty)
  rw [text, payload, toUTF8_bytes, kept, String.ofList_append, String.ofList_append, String.ofList_toList]
  rfl

theorem text_word (word : String) : text { payload := word.toUTF8.data.toList } = word := by
  rw [text, toUTF8_bytes, Text.decodeLossy_word, String.ofList_toList]

end Request

def Call.uttered? : Call → Option (Engine × Speech)
  | .speak engine speech => some (engine, speech)
  | _ => none

/-- What engines have been given to utter, the latest first. -/
def History.uttered (h : History) : List (Engine × Speech) :=
  h.filterMap Call.uttered?

@[simp] theorem uttered_speak (engine : Engine) (speech : Speech) (h : History) :
    History.uttered (.speak engine speech :: h) = (engine, speech) :: h.uttered := rfl

@[simp] theorem uttered_spoke (engine : Engine) (success : Bool) (h : History) :
    History.uttered (.spoke engine success :: h) = h.uttered := rfl

namespace Dispatcher

open Pipeline (Limits)

/-- Whether the speaker is past the call to the engine, or has found that there is nothing to utter. -/
def State.voiced (s : State) : Bool :=
  match s.speaker with
  | .absent => !s.control.working
  | .spawned .. => false
  | _ => true

/-- Since the request went on with this engine, that engine was given what the request says, once it was its turn, and
    none was given anything else. -/
def Uttered (engine : Engine) (request : Request) (before : History) (s : State) : Prop :=
  s.session.history.uttered =
    (if s.voiced then (request.speech?.map (engine, ·)).toList else []) ++ before.uttered

section
variable {house : House} {limits : Limits} {s t : State} {label : Label} {labels : List Label}
variable {engine : Engine} {request : Request} {before : History}

theorem voiced_congr (speaker : t.speaker = s.speaker) (works : t.control.working = s.control.working) :
    t.voiced = s.voiced := by
  rw [State.voiced, State.voiced, speaker, works]

theorem voiced_of_present (speaker : t.speaker = s.speaker) (present : s.speaker ≠ .absent) : t.voiced = s.voiced := by
  unfold State.voiced
  rw [speaker]
  cases here : s.speaker <;> first | rfl | exact absurd here present

theorem Uttered.rest (hs : Uttered engine request before s) (voiced : t.voiced = s.voiced)
    (session : t.session = s.session) : Uttered engine request before t := by
  unfold Uttered
  rw [voiced, session]
  exact hs

theorem moved_uttered (h : Moved house limits s label t) (busy : s.busy = true) (hi : InHand engine request before s)
    (hs : Uttered engine request before s) : Uttered engine request before t := by
  obtain ⟨he, hm, hp, -⟩ := hi
  cases h with
  | @took task here => exact hs.rest (voiced_congr rfl (by rw [here, (enter_idle task).1]; rfl)) rfl
  | reported here | released here | cleared here | opened here =>
    exact hs.rest (voiced_congr rfl (by rw [here]; rfl)) rfl
  | wentOn here done | collected here done =>
    rw [he.not_busy (by rw [here]; rfl) (by rw [done]; rfl)] at busy
    cases busy
  | unresolved here | resolved here | unswitched here | switched here | stopped here =>
    have place := hp.place.resolve_right (by simp [here, Control.working])
    rw [here] at place
    simp [Control.path] at place
  | spawned here =>
    have absent := he.speaker_absent (by rw [here]; rfl) (by rw [here]; rfl)
    exact hs.rest (by simp [State.voiced, absent, here, Control.working]) rfl
  | attended here => exact hs.rest (voiced_of_present rfl (hm.attended (by rw [here]; rfl))) rfl
  | skipped here silent =>
    obtain ⟨rfl, rfl⟩ := hp.spawned _ _ here
    simpa [Uttered, State.voiced, here, silent] using hs
  | began here uttered =>
    obtain ⟨rfl, rfl⟩ := hp.spawned _ _ here
    simpa [Uttered, State.voiced, State.record, here, uttered] using hs
  | left here | crashed here => exact hs.rest (by simp [State.voiced, here]) rfl
  | spoke here => simpa [Uttered, State.voiced, State.record, here] using hs
  | concluded here done =>
    have idle := he.not_working_of_awaiting (by rw [here]; rfl)
    exact hs.rest (by simp [State.voiced, done, idle]) rfl
  | called | produced | delivered | counted | forgone | raised | lowered => exact hs.rest (voiced_congr rfl rfl) rfl

theorem runBusy_uttered (h : runBusy house limits labels s = some t) (hi : InHand engine request before s)
    (hs : Uttered engine request before s) : Uttered engine request before t := by
  refine (runBusy_keeps (P := fun s => InHand engine request before s ∧ Uttered engine request before s) ?_ h
    ⟨hi, hs⟩).2
  rintro label s t moved busy ⟨hi, hs⟩
  exact ⟨moved_inHand moved busy hi, moved_uttered moved busy hi hs⟩

theorem voiced_of_ended (ended : s.busy = false) : s.voiced = true := by
  simp only [State.busy, State.underway, Bool.or_eq_false_iff] at ended
  obtain ⟨idle, ⟨⟨⟨-, -⟩, speaker⟩, -⟩, -⟩ := ended
  cases here : s.speaker <;> simp_all [State.voiced, Speaker.running]

theorem uttered_of_accepted (accepted : s.control = .clearing engine request) (he : Exclusive s) :
    Uttered engine request s.session.history s := by
  have absent := he.speaker_absent (by rw [accepted]; rfl) (by rw [accepted]; rfl)
  simp [Uttered, State.voiced, absent, accepted, Control.working]

end

/-- Damaged UTF-8 is decoded with one replacement for each maximal run that is no character; so no text takes harm from
    what is damaged before and behind it, and a text alone is decoded as it is. And the engine that a key is given to
    is called once to speak, with all of that. -/
theorem damage_costs_nothing (word : String) (before after : List UInt8) :
    (∀ bytes out, Text.Decoded bytes out ↔ Text.decodeLossy bytes = out) ∧
    Request.text { payload := word.toUTF8.data.toList } = word ∧
    ∀ request : Request, word ≠ "" → request.payload = before ++ word.toUTF8.data.toList ++ after →
      request.text = Request.text { payload := before } ++ word ++ Request.text { payload := after } ∧
      ∀ house chunkSize capacity history past labels s t engine, request.kind = .key →
        run house (.ofSizes chunkSize capacity) past { session := { history } } = some s →
        s.control = .clearing engine request →
        runBusy house (.ofSizes chunkSize capacity) labels s = some t →
        ∃ said, t.session.history.uttered = said ++ s.session.history.uttered ∧
          (said = [] ∨ said = [(engine, .prose (Request.text { payload := before } ++ word ++
            Request.text { payload := after }))]) ∧
          (t.busy = false → said ≠ []) := by
  refine ⟨fun _ _ => Text.decoded_iff, Request.text_word word, fun request nonempty payload => ?_⟩
  have whole := request.text_around nonempty payload
  refine ⟨whole, fun house chunkSize capacity history past labels s t engine key reached accepted h => ?_⟩
  have start : Exclusive s ∧ Manned s := by
    refine run_keeps (P := fun s => Exclusive s ∧ Manned s) ?_ reached ⟨start_exclusive _, start_manned _⟩
    rintro label - s t moved ⟨he, hs⟩
    exact ⟨moved_exclusive moved he, moved_manned moved he hs⟩
  obtain ⟨he, hm⟩ := start
  have hs := runBusy_uttered h (inHand_of_accepted accepted he hm) (uttered_of_accepted accepted he)
  refine ⟨_, hs, ?_, fun ended => ?_⟩
  · rw [Request.speech?, key, whole]
    cases t.voiced
    · exact Or.inl rfl
    · exact Or.inr rfl
  · rw [Request.speech?, key, voiced_of_ended ended]
    exact List.cons_ne_nil _ _

/-- A key whose name stands among bytes that are no UTF-8: the start of a character that does not come, and behind it
    two bytes that begin none. -/
def damagedKey : Request where
  payload := [0xE1, 0x80] ++ "né".toUTF8.data.toList ++ [0x80, 0xFF]
  kind := .key
  prosody := { voice := some "flite Alan" }

/-- Its engine hands over nothing but the end. -/
def saidOnce : List Label := List.flatten [
  [.control, .control, .control, .control, .speak],
  .call [] false :: List.replicate 5 (.produce false),
  [.spoke true, .speak], List.replicate 6 (.deliver .accepted), [.watch, .watch]]

theorem damage_costs_nothing_damagedKey : ∃ s t,
    run halfHouse (.ofSizes 2 1) [.take (.speak damagedKey), .control, .control] {} = some s ∧
    runBusy halfHouse (.ofSizes 2 1) saidOnce s = some t ∧
    t.session.history.uttered = (remaining, .prose "\uFFFDné\uFFFD\uFFFD") :: s.session.history.uttered := by
  have there : (run halfHouse (.ofSizes 2 1) [.take (.speak damagedKey), .control, .control] {}).map (·.control) =
      some (.clearing remaining damagedKey) := by decide +kernel
  obtain ⟨s, hs, accepted⟩ := Option.map_eq_some_iff.mp there
  have ended : ((run halfHouse (.ofSizes 2 1) [.take (.speak damagedKey), .control, .control] {}).bind fun s =>
      runBusy halfHouse (.ofSizes 2 1) saidOnce s).map (·.busy) = some false := by decide +kernel
  rw [hs, Option.bind_some] at ended
  obtain ⟨t, ht, idle⟩ := Option.map_eq_some_iff.mp ended
  obtain ⟨-, -, kept⟩ := damage_costs_nothing "né" [0xE1, 0x80] [0x80, 0xFF]
  obtain ⟨-, uttered⟩ := kept damagedKey (by decide) rfl
  obtain ⟨said, whole, once, some⟩ := uttered _ _ _ _ _ _ _ _ _ rfl hs accepted ht
  have text : Request.text { payload := [0xE1, 0x80] } ++ "né" ++ Request.text { payload := [0x80, 0xFF] } =
      "\uFFFDné\uFFFD\uFFFD" := by decide +kernel
  refine ⟨s, t, hs, ht, ?_⟩
  rw [whole, once.resolve_left (some idle), text]
  rfl

end Dispatcher

end Orator

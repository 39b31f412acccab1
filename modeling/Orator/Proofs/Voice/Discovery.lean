import Mathlib.Data.List.Forall2
import Orator.Proofs.Voice.Codec
import Orator.Voice.Discovery

/-! Discovery puts one question after the other to a library that it knows nothing about. What the library answers
    is written down engine by engine; the calls made and the voices found are read off those answers. -/

namespace Orator

/-- How the library answered when one engine was tried. -/
structure Hearing where
  name : String
  /-- The engine with the voices that it listed, if it started. -/
  heard : Option (Engine × List String)
deriving DecidableEq, Repr

/-- A voice with a language as one engine wrote it. -/
structure Offer where
  engine : String
  native : String
deriving DecidableEq, Repr

/-- The entry is made of the engine's name and of what stands before and behind the last comma. -/
def Offer.Gives (offer : Offer) (entry : VoiceEntry) : Prop :=
  ∃ voice : NativeVoice, offer.native = voice.written ∧ ',' ∉ voice.language.toList ∧
    entry = .ofVoice offer.engine voice

namespace Hearing

/-- The calls that trying the engine takes, the earliest first. An engine that started is stopped once its voices
    are listed. -/
def calls (x : Hearing) : List Call :=
  match x.heard with
  | none => [.start x.name false none]
  | some (engine, _) => [.start x.name false (some engine), .listVoices engine, .stop engine]

/-- The voices as the engine wrote them; none if it did not start. -/
def natives (x : Hearing) : List String :=
  match x.heard with
  | none => []
  | some (_, natives) => natives

/-- What the engine listed with a comma in it. -/
def offers (x : Hearing) : List Offer :=
  (x.natives.filter (',' ∈ ·.toList)).map ({ engine := x.name, native := · })

def voices (x : Hearing) : List NativeVoice :=
  x.natives.filterMap NativeVoice.parse?

def entries (x : Hearing) : List VoiceEntry :=
  x.voices.map (VoiceEntry.ofVoice x.name)

end Hearing

namespace Library

/-- What the library answers to a start without a callback, and the engine when it is asked for its voices. -/
def hearing (lib : Library) (libDir name : String) (h : History) : Hearing where
  name
  heard :=
    match lib.start h libDir name false with
    | .error _ => none
    | .ok sampleRate =>
      let engine := { number := h.started, name, sampleRate : Engine }
      some (engine, lib.voices (.start name false (some engine) :: h) engine)

/-- The same for one engine after the other, each asked after all calls for those before it. -/
def hearings (lib : Library) (libDir : String) : List String → History → List Hearing
  | [], _ => []
  | name :: names, h =>
    let first := lib.hearing libDir name h
    first :: lib.hearings libDir names (first.calls.reverse ++ h)

/-- The same for all engines that the library lists, which it is asked for first. -/
def surveyed (lib : Library) (libDir : String) (h : History) : List Hearing :=
  lib.hearings libDir (lib.engines h libDir) (.listEngines libDir :: h)

/-- What all engines of the directory offer. -/
def offered (lib : Library) (libDir : String) (h : History) : List Offer :=
  (lib.surveyed libDir h).flatMap Hearing.offers

end Library

section
variable (lib : Library) (libDir : String)

/-! ### What is asked -/

theorem audition_eq (name : String) (h : History) : lib.audition libDir name h =
    ((lib.hearing libDir name h).entries, (lib.hearing libDir name h).calls.reverse ++ h) := by
  unfold Library.audition Library.launch Library.hearing
  cases lib.start h libDir name false <;> rfl

theorem auditions_eq (names : List String) (h : History) : lib.auditions libDir names h =
    ((lib.hearings libDir names h).flatMap Hearing.entries,
      ((lib.hearings libDir names h).flatMap Hearing.calls).reverse ++ h) := by
  induction names generalizing h with
  | nil => rfl
  | cons name names ih => simp [Library.auditions, Library.hearings, audition_eq, ih]

theorem hearings_name (names : List String) (h : History) :
    (lib.hearings libDir names h).map Hearing.name = names := by
  induction names generalizing h with
  | nil => rfl
  | cons name names ih => simp [Library.hearings, Library.hearing, ih]

theorem surveyed_name (h : History) : (lib.surveyed libDir h).map Hearing.name = lib.engines h libDir :=
  hearings_name lib libDir _ _

/-! ### What is found -/

theorem Hearing.offers_entries (x : Hearing) : List.Forall₂ Offer.Gives x.offers x.entries := by
  unfold offers entries voices
  induction x.natives with
  | nil => exact .nil
  | cons native natives ih =>
    cases found : NativeVoice.parse? native with
    | none =>
      have bare : ',' ∉ native.toList := by
        rw [← NativeVoice.parse?_isSome_iff, found]
        exact Bool.false_ne_true
      simpa [bare, found] using ih
    | some voice =>
      have comma : ',' ∈ native.toList := NativeVoice.parse?_isSome_iff.mp (found ▸ rfl)
      obtain ⟨written, plain⟩ := NativeVoice.parse?_eq_some_iff.mp found
      have gives : Offer.Gives ⟨x.name, native⟩ (.ofVoice x.name voice) := ⟨voice, written, plain, rfl⟩
      simpa [comma, found] using ⟨gives, by simpa using ih⟩

theorem offers_entries (xs : List Hearing) :
    List.Forall₂ Offer.Gives (xs.flatMap Hearing.offers) (xs.flatMap Hearing.entries) := by
  induction xs with
  | nil => exact .nil
  | cons x xs ih => exact List.rel_append x.offers_entries ih

theorem discover_existing (h : History) :
    Catalog.discover lib libDir true h =
      let hearings := lib.surveyed libDir h
      let voices := hearings.flatMap Hearing.entries
      (if voices = [] then .error (.discovery ("no usable voices among " ++
          toString (lib.engines h libDir).length ++ " engine(s)") libDir)
        else .ok { engines := lib.engines h libDir, voices },
      (hearings.flatMap Hearing.calls).reverse ++ .listEngines libDir :: h) := by
  rw [Catalog.discover, if_pos rfl]
  dsimp only [Library.survey, Library.surveyed]
  rw [auditions_eq]
  simp only [List.isEmpty_iff]
  split <;> rfl

theorem discover_ok {dirExists : Bool} {h : History} {catalog : Catalog}
    (found : (Catalog.discover lib libDir dirExists h).1 = .ok catalog) :
    catalog = { engines := lib.engines h libDir
                voices := (lib.surveyed libDir h).flatMap Hearing.entries } := by
  cases dirExists with
  | false => cases found
  | true =>
    rw [discover_existing] at found
    dsimp only at found
    split at found
    · cases found
    · exact (Except.ok.inj found).symm

/-! ### What is stopped -/

theorem started_le (name : String) (h : History) :
    h.started ≤ History.started ((lib.hearing libDir name h).calls.reverse ++ h) := by
  simp [History.started, List.countP_append]

theorem mem_hearings {names : List String} {h : History} {x : Hearing} (hx : x ∈ lib.hearings libDir names h) :
    ∃ name, ∃ later : History, h.started ≤ later.started ∧ x = lib.hearing libDir name later := by
  induction names generalizing h with
  | nil => cases hx
  | cons name names ih =>
    rcases List.mem_cons.mp hx with rfl | hx
    · exact ⟨name, h, Nat.le_refl _, rfl⟩
    · obtain ⟨other, later, grown, rfl⟩ := ih hx
      exact ⟨other, later, Nat.le_trans (started_le lib libDir name h) grown, rfl⟩

section
variable {name : String} {h : History} {engine : Engine}

/-- The number of an engine is the count of the starts before its own. -/
theorem started_hearing (heard : (lib.hearing libDir name h).heard.map (·.1) = some engine) :
    engine.name = name ∧ engine.number = h.started ∧
      History.started ((lib.hearing libDir name h).calls.reverse ++ h) = h.started + 1 := by
  unfold Library.hearing at heard ⊢
  cases start : lib.start h libDir name false with
  | error fault => simp [start] at heard
  | ok sampleRate =>
    simp only [start, Option.map_some, Option.some.injEq] at heard
    subst heard
    exact ⟨rfl, rfl, by simp [Hearing.calls, History.started]⟩

theorem count_stop_hearing (name : String) (h : History) (engine : Engine) :
    (lib.hearing libDir name h).calls.count (.stop engine) =
      if (lib.hearing libDir name h).heard.map (·.1) = some engine then 1 else 0 := by
  unfold Library.hearing
  cases lib.start h libDir name false with
  | error fault => rfl
  | ok sampleRate => simp [Hearing.calls, List.count_cons]

end

theorem count_stop_hearings_of_lt {engine : Engine} (names : List String) {h : History}
    (earlier : engine.number < h.started) :
    ((lib.hearings libDir names h).flatMap Hearing.calls).count (.stop engine) = 0 := by
  induction names generalizing h with
  | nil => rfl
  | cons name names ih =>
    have later := ih (Nat.lt_of_lt_of_le earlier (started_le lib libDir name h))
    have other : (lib.hearing libDir name h).heard.map (·.1) ≠ some engine := fun heard =>
      absurd (started_hearing lib libDir heard).2.1 (Nat.ne_of_lt earlier)
    simp [Library.hearings, count_stop_hearing, other, later]

theorem count_stop_hearings {names : List String} {h : History} {x : Hearing} {engine : Engine}
    (hx : x ∈ lib.hearings libDir names h) (heard : x.heard.map (·.1) = some engine) :
    ((lib.hearings libDir names h).flatMap Hearing.calls).count (.stop engine) = 1 := by
  induction names generalizing h with
  | nil => cases hx
  | cons name names ih =>
    rw [Library.hearings, List.flatMap_cons, List.count_append, count_stop_hearing]
    rcases List.mem_cons.mp hx with rfl | hx
    · obtain ⟨-, number, after⟩ := started_hearing lib libDir heard
      rw [if_pos heard, count_stop_hearings_of_lt]
      rw [number, after]
      exact Nat.lt_succ_self _
    · have other : (lib.hearing libDir name h).heard.map (·.1) ≠ some engine := by
        intro mine
        obtain ⟨-, number, after⟩ := started_hearing lib libDir mine
        obtain ⟨other, later, grown, rfl⟩ := mem_hearings lib libDir hx
        have greater := (started_hearing lib libDir heard).2.1
        omega
      rw [if_neg other, ih hx]

/-! ### All of it -/

/-- Without a directory no call is made, not even for its engines. In a directory the engines are listed first and
    tried one after the other then, and the voices are all that those wrote with a comma, in that order and one entry
    for each. An engine that started is stopped once, before the next one is tried. It is a fault if there is no such
    voice. -/
theorem discover_exact (h : History) :
    Catalog.discover lib libDir false h = (.error (.discovery "library directory does not exist" libDir), h) ∧
    let hearings := lib.surveyed libDir h
    let calls := hearings.flatMap Hearing.calls
    hearings.map Hearing.name = lib.engines h libDir ∧
    (∀ x ∈ hearings, ∀ engine natives, x.heard = some (engine, natives) →
      engine.name = x.name ∧ calls.count (.stop engine) = 1) ∧
    ∃ voices, List.Forall₂ Offer.Gives (lib.offered libDir h) voices ∧
      Catalog.discover lib libDir true h =
        (if voices = [] then .error (.discovery ("no usable voices among " ++
            toString (lib.engines h libDir).length ++ " engine(s)") libDir)
          else .ok { engines := lib.engines h libDir, voices },
        calls.reverse ++ .listEngines libDir :: h) := by
  refine ⟨rfl, surveyed_name lib libDir h, ?_, _, offers_entries _, discover_existing lib libDir h⟩
  intro x hx engine natives heard
  have started : x.heard.map (·.1) = some engine := by rw [heard, Option.map_some]
  refine ⟨?_, count_stop_hearings lib libDir hx started⟩
  obtain ⟨name, later, -, rfl⟩ := mem_hearings lib libDir hx
  exact (started_hearing lib libDir started).1

end

end Orator

import Orator.Proofs.Dispatcher.Resolve
import Orator.Proofs.Voice.Discovery

/-! A voice that discovery found can be selected under the name it was given there, and is then sent to the engine
    that listed it, with its name as it was and its language as the host sees it. -/

namespace Orator

/-! ### What discovery found -/

/-- The entry in some place of a catalog is made of the voice that was offered in that place. -/
theorem discover_offered {lib : Library} {libDir : String} {dirExists : Bool} {h : History} {catalog : Catalog}
    (found : (Catalog.discover lib libDir dirExists h).1 = .ok catalog) {i : Nat} {entry : VoiceEntry}
    (there : catalog.voices[i]? = some entry) :
    ∃ offer, (lib.offered libDir h)[i]? = some offer ∧ offer.Gives entry := by
  obtain rfl := discover_ok lib libDir found
  have gives := offers_entries (lib.surveyed libDir h)
  obtain ⟨hi, rfl⟩ := List.getElem?_eq_some_iff.mp there
  have hi' : i < (lib.offered libDir h).length := gives.length_eq ▸ hi
  exact ⟨_, List.getElem?_eq_getElem hi', gives.get hi' hi⟩

theorem engine_of_offered {lib : Library} {libDir : String} {h : History} {offer : Offer}
    (there : offer ∈ lib.offered libDir h) : offer.engine ∈ lib.engines h libDir := by
  obtain ⟨x, hx, mine⟩ := List.mem_flatMap.mp there
  obtain ⟨native, -, rfl⟩ := List.mem_map.mp mine
  rw [← surveyed_name lib libDir h]
  exact List.mem_map_of_mem hx

/-! ### What is selected -/

namespace Session

/-- Whatever was live, the engine of the entry is live after it, with the entry's voice. -/
theorem selectVoice_of_find {house : House} {name : String} {entry : VoiceEntry} {s : Session}
    (found : house.catalog.find? name = some entry)
    (ready : s.engineName = some entry.engineName ∨ (house.offers entry.engineName s.stop.history).isSome = true) :
    ∃ t, s.selectVoice house name = (.ok (), t) ∧ t.engineName = some entry.engineName ∧
      t.voice = some entry.native := by
  by_cases live : s.engineName = some entry.engineName
  · refine ⟨_, Dispatcher.selectVoice_of_live found live, ?_⟩
    obtain ⟨active, here, own⟩ := Option.map_eq_some_iff.mp live
    by_cases sent : active.voice = some entry.native
    · rw [sendVoice_of_sent here sent]
      exact ⟨live, by rw [voice, here, Option.bind_some, sent]⟩
    · rw [sendVoice_of_other here sent]
      exact ⟨congrArg some own, rfl⟩
  · obtain ⟨engine, starts⟩ := Option.isSome_iff_exists.mp (ready.resolve_left live)
    obtain ⟨own, -, -⟩ := launch_of_started starts
    obtain ⟨accepted, selects⟩ := Dispatcher.selectVoice_of_started found live starts
    exact ⟨_, selects, congrArg some own, rfl⟩

/-- In a catalog of engines without spaces in their names, each entry tells which engine listed it and under which
    name. Unless an earlier entry has the same display name, the entry can be selected whenever its engine is live or
    starts; that engine is live then, and has been sent the voice as it listed it, its region in capitals. What it is
    sent is read back as that name and language, and the entry made of those is the same. -/
theorem selected_as_listed {house : House} {dirExists : Bool} {h : History} {i : Nat} {entry : VoiceEntry}
    (found : (Catalog.discover house.library house.libDir dirExists h).1 = .ok house.catalog)
    (spaceless : ∀ name ∈ house.library.engines h house.libDir, ' ' ∉ name.toList)
    (there : house.catalog.voices[i]? = some entry)
    (first : house.catalog.find? entry.displayName = some entry) :
    ∃ offer name language normalized, (house.library.offered house.libDir h)[i]? = some offer ∧
      offer.native = name ++ "," ++ language ∧ ',' ∉ language.toList ∧ Capitalized language normalized ∧
      entry.engineName = offer.engine ∧ entry.voiceName = name ∧
      NativeVoice.parse? (name ++ "," ++ normalized) = some { name, language := normalized } ∧
      VoiceEntry.ofVoice offer.engine { name, language := normalized } = entry ∧
      ∀ s : Session,
        (s.engineName = some offer.engine ∨ (house.offers offer.engine s.stop.history).isSome = true) →
        ∃ t, s.selectVoice house entry.displayName = (.ok (), t) ∧ t.engineName = some offer.engine ∧
          t.voice = some (name ++ "," ++ normalized) := by
  obtain ⟨offer, offered, voice, written, plain, rfl⟩ := discover_offered found there
  have bare := spaceless _ (engine_of_offered (List.mem_of_getElem? offered))
  have engine := VoiceEntry.engineName_ofVoice bare voice
  refine ⟨offer, voice.name, voice.language, normalizeLanguage voice.language, offered, written, plain,
    normalizeLanguage_capitalized _, engine, VoiceEntry.voiceName_ofVoice bare voice,
    NativeVoice.parse?_written_normalized plain, VoiceEntry.ofVoice_normalized _ voice, ?_⟩
  intro s ready
  rw [← engine] at ready
  obtain ⟨t, selects, live, sent⟩ := selectVoice_of_find first ready
  exact ⟨t, selects, live.trans (congrArg some engine), sent.trans (congrArg some (VoiceEntry.native_ofVoice bare voice))⟩

/-- An engine that lists a name without a language and one with all that could be taken for a separator. -/
def queerLibrary : Library where
  engines := fun _ _ => ["espeak"]
  start := fun _ _ _ _ => .ok 22050
  voices := fun _ _ => ["plain", "Ö-Ton, 2. Wahl,de-at-x"]
  accepts := fun _ _ _ => true

def queerHouse : House where
  library := queerLibrary
  libDir := "/lib"
  catalog := ⟨["espeak"], [⟨"espeak Ö-Ton, 2. Wahl", "de-AT-X", "null"⟩]⟩
  preferred := "espeak"

theorem selected_as_listed_queer :
    (Catalog.discover queerLibrary "/lib" true []).1 = .ok queerHouse.catalog ∧
      queerLibrary.offered "/lib" [] = [⟨"espeak", "Ö-Ton, 2. Wahl,de-at-x"⟩] ∧
      ∃ t, ({} : Session).selectVoice queerHouse "espeak Ö-Ton, 2. Wahl" = (.ok (), t) ∧
        t.engineName = some "espeak" ∧ t.voice = some "Ö-Ton, 2. Wahl,de-AT-X" := by
  have found : (Catalog.discover queerLibrary "/lib" true []).1 = .ok queerHouse.catalog := by decide +kernel
  have offered : queerLibrary.offered "/lib" [] = [⟨"espeak", "Ö-Ton, 2. Wahl,de-at-x"⟩] := by decide +kernel
  have spaceless : ∀ name ∈ queerHouse.library.engines [] queerHouse.libDir, ' ' ∉ name.toList := by decide +kernel
  obtain ⟨offer, name, language, normalized, there, written, absent, capitalized, -, -, -, -, selects⟩ :=
    @selected_as_listed queerHouse true [] 0 _ found spaceless rfl (by decide +kernel)
  obtain rfl : offer = ⟨"espeak", "Ö-Ton, 2. Wahl,de-at-x"⟩ := by simpa [queerHouse, offered] using there.symm
  have parts : NativeVoice.parse? "Ö-Ton, 2. Wahl,de-at-x" = some ⟨"Ö-Ton, 2. Wahl", "de-at-x"⟩ := by decide +kernel
  obtain ⟨rfl, rfl⟩ : "Ö-Ton, 2. Wahl" = name ∧ "de-at-x" = language := by
    have read := (@NativeVoice.parse?_eq_some_iff _ ⟨name, language⟩).mpr ⟨written, absent⟩
    simpa [parts] using read
  obtain ⟨t, selected, live, sent⟩ := selects {} (Or.inr rfl)
  refine ⟨found, offered, t, selected, live, ?_⟩
  rw [sent, ← capitalized.eq]
  decide +kernel

end Session

end Orator

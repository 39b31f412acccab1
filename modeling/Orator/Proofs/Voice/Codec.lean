import Orator.Proofs.Text.Uppercase
import Orator.Voice.Entry

/-! A voice is written in two ways: to its engine with a comma before its language, and to the host with a space
    behind its engine. Each way back gives what was written, whatever stands in the voice's name, since a language
    holds no comma and the name of an engine no space. -/

namespace Orator

/-! ### As engines write it -/

namespace NativeVoice

theorem toList_written (v : NativeVoice) : v.written.toList = v.name.toList ++ ',' :: v.language.toList := by
  simp [written]

theorem parse?_eq_some_iff {text : String} {v : NativeVoice} :
    parse? text = some v ↔ text = v.written ∧ ',' ∉ v.language.toList := by
  constructor
  · intro h
    obtain ⟨⟨name, language⟩, cut, rfl⟩ := Option.map_eq_some_iff.mp h
    obtain ⟨absent, whole⟩ := Text.cutLast?_eq_some_iff.mp cut
    refine ⟨String.toList_inj.mp ?_, by simpa using absent⟩
    rw [toList_written, whole]
    simp
  · rintro ⟨rfl, absent⟩
    have cut := @Text.cutLast?_append ',' v.name.toList _ absent
    simp [parse?, toList_written, cut]

theorem parse?_isSome_iff {text : String} : (parse? text).isSome = true ↔ ',' ∈ text.toList := by
  rw [parse?, Option.isSome_map, Option.isSome_iff_ne_none, ne_eq, Text.cutLast?_eq_none_iff, Decidable.not_not]

end NativeVoice

/-! ### Languages -/

theorem normalizeLanguage_of_hyphen {primary region : String} (first : '-' ∉ primary.toList) :
    normalizeLanguage (primary ++ "-" ++ region) = primary ++ "-" ++ String.ofList (Text.uppercase region.toList) := by
  have cut := @Text.cutFirst?_append '-' _ region.toList first
  refine String.toList_inj.mp ?_
  simp [normalizeLanguage, cut]

theorem normalizeLanguage_of_plain {language : String} (plain : '-' ∉ language.toList) :
    normalizeLanguage language = language := by
  rw [normalizeLanguage, Text.cutFirst?_eq_none_iff.mpr plain]

/-- The second is the first with all behind its first hyphen in capitals. -/
inductive Capitalized : String → String → Prop where
  | plain {language} (plain : '-' ∉ language.toList) : Capitalized language language
  | hyphened {primary region} (first : '-' ∉ primary.toList) :
    Capitalized (primary ++ "-" ++ region) (primary ++ "-" ++ String.ofList (Text.uppercase region.toList))

theorem normalizeLanguage_capitalized (language : String) : Capitalized language (normalizeLanguage language) := by
  by_cases hyphen : '-' ∈ language.toList
  · obtain ⟨primary, region, whole, first⟩ := List.eq_append_cons_of_mem hyphen
    have first' : '-' ∉ (String.ofList primary).toList := by simpa using first
    have parts : language = String.ofList primary ++ "-" ++ String.ofList region := by
      refine String.toList_inj.mp ?_
      rw [whole]
      simp
    rw [parts, normalizeLanguage_of_hyphen first']
    exact .hyphened first'
  · rw [normalizeLanguage_of_plain hyphen]
    exact .plain hyphen

theorem Capitalized.eq {language normalized : String} (h : Capitalized language normalized) :
    normalizeLanguage language = normalized := by
  cases h with
  | plain plain => exact normalizeLanguage_of_plain plain
  | hyphened first => exact normalizeLanguage_of_hyphen first

theorem Capitalized.again {language normalized : String} (h : Capitalized language normalized) :
    Capitalized normalized normalized := by
  cases h with
  | plain plain => exact .plain plain
  | @hyphened primary region first =>
    have again := @Capitalized.hyphened primary (String.ofList (Text.uppercase region.toList)) first
    rwa [String.toList_ofList, Text.uppercase_uppercase] at again

theorem normalizeLanguage_normalizeLanguage (language : String) :
    normalizeLanguage (normalizeLanguage language) = normalizeLanguage language :=
  (normalizeLanguage_capitalized language).again.eq

theorem comma_mem_of_normalizeLanguage {language : String} (h : ',' ∈ (normalizeLanguage language).toList) :
    ',' ∈ language.toList := by
  generalize hn : normalizeLanguage language = normalized at h
  cases hn ▸ normalizeLanguage_capitalized language with
  | plain => exact h
  | hyphened =>
    simp only [String.toList_append, String.toList_ofList, List.mem_append] at h ⊢
    exact h.imp_right Text.comma_mem_of_mem_uppercase

/-- The voice with its language as the host sees it. -/
def NativeVoice.normalized (v : NativeVoice) : NativeVoice :=
  { v with language := normalizeLanguage v.language }

theorem NativeVoice.parse?_written_normalized {v : NativeVoice} (absent : ',' ∉ v.language.toList) :
    parse? v.normalized.written = some v.normalized :=
  parse?_eq_some_iff.mpr ⟨rfl, fun h => absent (comma_mem_of_normalizeLanguage h)⟩

/-! ### As the host sees it -/

namespace VoiceEntry
variable {engine : String} {voice : NativeVoice}

theorem cut_displayName (spaceless : ' ' ∉ engine.toList) (voice : NativeVoice) :
    Text.cutFirst? ' ' (ofVoice engine voice).displayName.toList = some (engine.toList, voice.name.toList) := by
  have whole : (ofVoice engine voice).displayName.toList = engine.toList ++ ' ' :: voice.name.toList := by
    simp [ofVoice]
  rw [whole, Text.cutFirst?_append spaceless]

theorem engineName_ofVoice (spaceless : ' ' ∉ engine.toList) (voice : NativeVoice) :
    (ofVoice engine voice).engineName = engine := by
  simp [engineName, cut_displayName spaceless]

theorem voiceName_ofVoice (spaceless : ' ' ∉ engine.toList) (voice : NativeVoice) :
    (ofVoice engine voice).voiceName = voice.name := by
  simp [voiceName, cut_displayName spaceless]

theorem native_ofVoice (spaceless : ' ' ∉ engine.toList) (voice : NativeVoice) :
    (ofVoice engine voice).native = voice.normalized.written := by
  rw [native, voiceName_ofVoice spaceless]
  rfl

theorem ofVoice_normalized (engine : String) (voice : NativeVoice) :
    ofVoice engine voice.normalized = ofVoice engine voice := by
  simp [ofVoice, NativeVoice.normalized, normalizeLanguage_normalizeLanguage]

theorem displayName_inj {other : String} {voice otherVoice : NativeVoice} (spaceless : ' ' ∉ engine.toList)
    (otherSpaceless : ' ' ∉ other.toList) :
    (ofVoice engine voice).displayName = (ofVoice other otherVoice).displayName ↔
      engine = other ∧ voice.name = otherVoice.name := by
  constructor
  · intro same
    have cut := cut_displayName spaceless voice
    rw [same, cut_displayName otherSpaceless, Option.some.injEq, Prod.mk.injEq] at cut
    exact ⟨(String.toList_inj.mp cut.1).symm, (String.toList_inj.mp cut.2).symm⟩
  · rintro ⟨rfl, same⟩
    simp [ofVoice, same]

end VoiceEntry

end Orator

import Mathlib.Data.List.Nodup
import Orator.Proofs.Voice.Discovery

/-! The display name of a voice leaves its language out. So it tells engines apart, and the names of one engine, but
    not two voices that an engine lists under one name. -/

namespace Orator

section
variable {lib : Library} {libDir : String} {h : History} {dirExists : Bool} {catalog : Catalog}

/-! ### Names of one engine -/

theorem Hearing.displayName_entries (x : Hearing) :
    x.entries.map VoiceEntry.displayName = (x.voices.map NativeVoice.name).map (x.name ++ " " ++ ·) := by
  simp [entries, VoiceEntry.ofVoice]

theorem Hearing.nodup_displayName (x : Hearing) :
    (x.entries.map VoiceEntry.displayName).Nodup ↔ (x.voices.map NativeVoice.name).Nodup := by
  rw [x.displayName_entries]
  refine List.nodup_map_iff fun name other same => ?_
  exact String.toList_inj.mp (by simpa using congrArg String.toList same)

/-! ### Names of several engines -/

theorem nodup_displayNames {xs : List Hearing} (distinct : (xs.map Hearing.name).Nodup)
    (spaceless : ∀ x ∈ xs, ' ' ∉ x.name.toList) :
    ((xs.flatMap Hearing.entries).map VoiceEntry.displayName).Nodup ↔
      ∀ x ∈ xs, (x.voices.map NativeVoice.name).Nodup := by
  have apart : xs.Pairwise fun x y =>
      List.Disjoint (x.entries.map VoiceEntry.displayName) (y.entries.map VoiceEntry.displayName) := by
    refine (List.pairwise_map.mp distinct).imp_of_mem fun {x y} hx hy other name mine yours => ?_
    simp only [Hearing.entries, List.map_map, List.mem_map, Function.comp_apply] at mine yours
    obtain ⟨voice, -, rfl⟩ := mine
    obtain ⟨otherVoice, -, same⟩ := yours
    exact other ((VoiceEntry.displayName_inj (spaceless y hy) (spaceless x hx)).mp same).1.symm
  rw [List.map_flatMap, List.nodup_flatMap]
  simp only [Hearing.nodup_displayName]
  exact and_iff_left apart

theorem Catalog.find?_displayName (c : Catalog) :
    (∀ e ∈ c.voices, c.find? e.displayName = some e) ↔
      ∀ e ∈ c.voices, ∀ e' ∈ c.voices, e.displayName = e'.displayName → e = e' := by
  constructor
  · intro finds e he e' he' same
    have mine := finds e he
    rw [same, finds e' he'] at mine
    exact (Option.some.inj mine).symm
  · intro unique e he
    cases found : c.find? e.displayName with
    | none => exact absurd (List.find?_eq_none.mp found e he) (by simp)
    | some e' =>
      have same : e'.displayName = e.displayName := by simpa using List.find?_some found
      rw [unique e' (List.mem_of_find?_eq_some found) e he same]

theorem unique_displayNames {xs : List Hearing} (distinct : (xs.map Hearing.name).Nodup)
    (spaceless : ∀ x ∈ xs, ' ' ∉ x.name.toList) :
    (∀ e ∈ xs.flatMap Hearing.entries, ∀ e' ∈ xs.flatMap Hearing.entries, e.displayName = e'.displayName → e = e') ↔
      ∀ x ∈ xs, ∀ v ∈ x.voices, ∀ w ∈ x.voices, v.name = w.name →
        normalizeLanguage v.language = normalizeLanguage w.language := by
  constructor
  · intro unique x hx v hv w hw same
    have made : ∀ u ∈ x.voices, VoiceEntry.ofVoice x.name u ∈ xs.flatMap Hearing.entries := fun u hu =>
      List.mem_flatMap.mpr ⟨x, hx, List.mem_map_of_mem hu⟩
    have names := (VoiceEntry.displayName_inj (spaceless x hx) (spaceless x hx)).mpr ⟨rfl, same⟩
    exact congrArg VoiceEntry.language (unique _ (made v hv) _ (made w hw) names)
  · intro unique e he e' he' same
    obtain ⟨x, hx, mine⟩ := List.mem_flatMap.mp he
    obtain ⟨y, hy, yours⟩ := List.mem_flatMap.mp he'
    obtain ⟨v, hv, rfl⟩ := List.mem_map.mp mine
    obtain ⟨w, hw, rfl⟩ := List.mem_map.mp yours
    obtain ⟨engines, names⟩ := (VoiceEntry.displayName_inj (spaceless x hx) (spaceless y hy)).mp same
    obtain rfl := List.inj_on_of_nodup_map distinct hx hy engines
    simp [VoiceEntry.ofVoice, names, unique x hx v hv w hw names]

/-- With names of engines that are distinct and hold no space, display names are distinct if and only if no engine
    lists two voices of one name. Each voice is found under its display name if and only if those that an engine lists
    under one name have one language, as the host sees it. -/
theorem displayName_identifies (found : (Catalog.discover lib libDir dirExists h).1 = .ok catalog)
    (distinct : (lib.engines h libDir).Nodup) (spaceless : ∀ name ∈ lib.engines h libDir, ' ' ∉ name.toList) :
    let hearings := lib.surveyed libDir h
    ((catalog.voices.map VoiceEntry.displayName).Nodup ↔
      ∀ x ∈ hearings, (x.voices.map NativeVoice.name).Nodup) ∧
    ((∀ e ∈ catalog.voices, catalog.find? e.displayName = some e) ↔
      ∀ x ∈ hearings, ∀ v ∈ x.voices, ∀ w ∈ x.voices, v.name = w.name →
        normalizeLanguage v.language = normalizeLanguage w.language) := by
  obtain rfl := discover_ok lib libDir found
  rw [← surveyed_name lib libDir h] at distinct spaceless
  have bare := List.forall_mem_map.mp spaceless
  exact ⟨nodup_displayNames distinct bare, (Catalog.find?_displayName _).trans (unique_displayNames distinct bare)⟩

end

/-- Two engines with a voice of one name. The first may list more. -/
def namesakes (more : List String) : Library where
  engines := fun _ _ => ["espeak", "flite"]
  start := fun _ _ _ _ => .ok 22050
  voices := fun _ engine => if engine.name = "espeak" then "v,en" :: more else ["v,en"]
  accepts := fun _ _ _ => true

theorem displayName_identifies_namesakes : ∃ catalog,
    (Catalog.discover (namesakes ["w,en"]) "/lib" true []).1 = .ok catalog ∧
      catalog.voices.map VoiceEntry.displayName = ["espeak v", "espeak w", "flite v"] ∧
      (catalog.voices.map VoiceEntry.displayName).Nodup ∧
      ∀ e ∈ catalog.voices, catalog.find? e.displayName = some e := by
  have found : (Catalog.discover (namesakes ["w,en"]) "/lib" true []).1 = .ok ⟨["espeak", "flite"],
      [⟨"espeak v", "en", "null"⟩, ⟨"espeak w", "en", "null"⟩, ⟨"flite v", "en", "null"⟩]⟩ := by decide +kernel
  obtain ⟨names, finds⟩ := displayName_identifies found (by decide) (by decide +kernel)
  exact ⟨_, found, rfl, names.mpr (by decide +kernel), finds.mpr (by decide +kernel)⟩

/-- A second language of one voice is never found. -/
theorem displayName_ambiguous : ∃ catalog e,
    (Catalog.discover (namesakes ["v,de"]) "/lib" true []).1 = .ok catalog ∧
      ((namesakes ["v,de"]).engines [] "/lib").Nodup ∧
      (∀ name ∈ (namesakes ["v,de"]).engines [] "/lib", ' ' ∉ name.toList) ∧
      (∀ x ∈ (namesakes ["v,de"]).surveyed "/lib" [], x.natives.Nodup) ∧
      ¬ (catalog.voices.map VoiceEntry.displayName).Nodup ∧
      e ∈ catalog.voices ∧ catalog.find? e.displayName ≠ some e := by
  refine ⟨⟨["espeak", "flite"],
    [⟨"espeak v", "en", "null"⟩, ⟨"espeak v", "de", "null"⟩, ⟨"flite v", "en", "null"⟩]⟩,
    ⟨"espeak v", "de", "null"⟩, ?_⟩
  decide +kernel

end Orator

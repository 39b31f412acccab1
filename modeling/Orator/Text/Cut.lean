/-! Cutting a text in two at one occurrence of a separator. -/

namespace Orator.Text

/-- The text before and the text after the first `sep`. -/
def cutFirst? (sep : Char) (text : List Char) : Option (List Char × List Char) :=
  match text.dropWhile (· != sep) with
  | [] => none
  | _ :: after => some (text.takeWhile (· != sep), after)

/-- The text before and the text after the last `sep`. -/
def cutLast? (sep : Char) (text : List Char) : Option (List Char × List Char) :=
  (cutFirst? sep text.reverse).map fun (after, before) => (before.reverse, after.reverse)

/-! ### What a cut finds -/

theorem length_of_cutFirst? {sep : Char} {text before after : List Char}
    (h : cutFirst? sep text = some (before, after)) : after.length < text.length := by
  unfold cutFirst? at h
  split at h
  · cases h
  · rename_i c rest hdrop
    cases h
    have shorter : (text.dropWhile (· != sep)).length ≤ text.length := (List.dropWhile_suffix _).length_le
    rw [hdrop] at shorter
    exact shorter

theorem bne_of_not_mem {sep : Char} {text : List Char} (h : sep ∉ text) : ∀ c ∈ text, (c != sep) = true := by
  intro c hc
  rw [bne_iff_ne]
  rintro rfl
  exact h hc

theorem cutFirst?_append {sep : Char} {before after : List Char} (h : sep ∉ before) :
    cutFirst? sep (before ++ sep :: after) = some (before, after) := by
  have keep := bne_of_not_mem h
  have drop : (before ++ sep :: after).dropWhile (· != sep) = sep :: after := by
    rw [List.dropWhile_append_of_pos keep]
    simp
  have take : (before ++ sep :: after).takeWhile (· != sep) = before := by
    rw [List.takeWhile_append_of_pos keep]
    simp
  simp [cutFirst?, drop, take]

theorem cutFirst?_eq_none_iff {sep : Char} {text : List Char} : cutFirst? sep text = none ↔ sep ∉ text := by
  constructor
  · intro h hm
    obtain ⟨before, after, rfl, absent⟩ := List.eq_append_cons_of_mem hm
    rw [cutFirst?_append absent] at h
    cases h
  · intro h
    have drop : text.dropWhile (· != sep) = [] := by
      rw [← List.append_nil text, List.dropWhile_append_of_pos (bne_of_not_mem h)]
      rfl
    simp [cutFirst?, drop]

theorem cutFirst?_eq_some_iff {sep : Char} {text before after : List Char} :
    cutFirst? sep text = some (before, after) ↔ sep ∉ before ∧ text = before ++ sep :: after := by
  constructor
  · intro h
    by_cases hm : sep ∈ text
    · obtain ⟨first, rest, rfl, absent⟩ := List.eq_append_cons_of_mem hm
      rw [cutFirst?_append absent] at h
      cases h
      exact ⟨absent, rfl⟩
    · rw [cutFirst?_eq_none_iff.mpr hm] at h
      cases h
  · rintro ⟨absent, rfl⟩
    exact cutFirst?_append absent

theorem cutLast?_append {sep : Char} {before after : List Char} (h : sep ∉ after) :
    cutLast? sep (before ++ sep :: after) = some (before, after) := by
  have := @cutFirst?_append sep after.reverse before.reverse (by simpa using h)
  simp [cutLast?, this]

theorem cutLast?_eq_none_iff {sep : Char} {text : List Char} : cutLast? sep text = none ↔ sep ∉ text := by
  rw [cutLast?, Option.map_eq_none_iff, cutFirst?_eq_none_iff, List.mem_reverse]

theorem cutLast?_eq_some_iff {sep : Char} {text before after : List Char} :
    cutLast? sep text = some (before, after) ↔ sep ∉ after ∧ text = before ++ sep :: after := by
  constructor
  · intro h
    obtain ⟨⟨last, first⟩, cut, same⟩ := Option.map_eq_some_iff.mp h
    obtain ⟨absent, whole⟩ := cutFirst?_eq_some_iff.mp cut
    cases same
    refine ⟨by simpa using absent, ?_⟩
    rw [← List.reverse_reverse text, whole]
    simp
  · rintro ⟨absent, rfl⟩
    exact cutLast?_append absent

end Orator.Text

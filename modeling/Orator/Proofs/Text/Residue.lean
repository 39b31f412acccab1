import Orator.Proofs.Text.Markup

/-! What is left of a text without its markup. No tag is left, whatever brackets the text had, since between the
    '<' that stays and the end of the text no '>' is left either. And a text that has neither tag nor entity is
    left as it is, while any other gets shorter: a match of a rule is longer than what replaces it. -/

namespace Orator.Text

/-! ### What a rule finds, and what it saves -/

namespace Rule

/-- The rule finds something in the text. -/
def Occurs (rule : Rule) (text : List Char) : Prop :=
  ∃ old new, rule.turns old new ∧ old <:+: text

/-- By this measure, which adds up over a text, nothing is replaced by anything as large. -/
structure Shrinks (rule : Rule) (size : List Char → Nat) : Prop where
  append : ∀ a b, size (a ++ b) = size a + size b
  smaller : ∀ {old new}, rule.turns old new → size new < size old

theorem Replaced.eq_of_not_occurs {rule : Rule} {text out : List Char} (h : Replaced rule text out)
    (none : ¬rule.Occurs text) : out = text :=
  h.unique (.refl fun old new turns inside => none ⟨old, new, turns, inside⟩)

section
variable {rule : Rule} {size : List Char → Nat} {text out : List Char}

theorem Replaced.size_le (h : Replaced rule text out) (shrinks : rule.Shrinks size) : size out ≤ size text := by
  induction h with
  | nil => exact Nat.le_refl _
  | hit here _ ih =>
    have := shrinks.smaller here
    rw [shrinks.append, shrinks.append]
    omega
  | @miss c after out _ _ ih =>
    have whole (rest : List Char) : size (c :: rest) = size [c] + size rest := shrinks.append [c] rest
    rw [whole out, whole after]
    exact Nat.add_le_add_left ih _

theorem Replaced.size_lt (h : Replaced rule text out) (shrinks : rule.Shrinks size) (occurs : rule.Occurs text) :
    size out < size text := by
  induction h with
  | nil =>
    obtain ⟨old, new, turns, inside⟩ := occurs
    rw [List.infix_nil.mp inside] at turns
    exact absurd turns rule.nonempty
  | hit here rest =>
    have here := shrinks.smaller here
    have rest := rest.size_le shrinks
    rw [shrinks.append, shrinks.append]
    omega
  | @miss c after out nowhere _ ih =>
    -- What the rule finds does not begin here, so it is in the rest.
    obtain ⟨old, new, turns, inside⟩ := occurs
    have inside := (List.infix_cons_iff.mp inside).resolve_left (nowhere old new turns)
    have whole (rest : List Char) : size (c :: rest) = size [c] + size rest := shrinks.append [c] rest
    rw [whole out, whole after]
    exact Nat.add_lt_add_left (ih ⟨old, new, turns, inside⟩) _

end

end Rule

/-! ### Tags -/

/-- A '<' stands in the text, and a '>' anywhere behind it. -/
def Tagged (text : List Char) : Prop :=
  ['<', '>'].Sublist text

theorem tagged_cons_iff {c : Char} {text : List Char} :
    Tagged (c :: text) ↔ (c = '<' ∧ '>' ∈ text) ∨ Tagged text := by
  unfold Tagged
  rw [List.sublist_cons_iff, or_comm]
  refine or_congr_left ⟨?_, ?_⟩
  · rintro ⟨rest, same, inside⟩
    cases same
    exact ⟨rfl, List.singleton_sublist.mp inside⟩
  · rintro ⟨rfl, close⟩
    exact ⟨['>'], rfl, List.singleton_sublist.mpr close⟩

/-- A tag reaches from its '<' to the first '>' behind it. -/
theorem tagRule_occurs_iff {text : List Char} : tagRule.Occurs text ↔ Tagged text := by
  constructor
  · rintro ⟨_, _, ⟨body, -, rfl, -⟩, inside⟩
    have ends : ['<', '>'].Sublist ('<' :: body ++ ['>']) := (List.sublist_append_right body ['>']).cons_cons '<'
    exact ends.trans inside.sublist
  · intro tagged
    induction text with
    | nil => cases tagged
    | cons c text ih =>
      rcases tagged_cons_iff.mp tagged with ⟨rfl, close⟩ | tagged
      · obtain ⟨body, after, rfl, closed⟩ := List.eq_append_cons_of_mem close
        exact ⟨_, _, tagRule_turns closed, [], after, by simp⟩
      · obtain ⟨old, new, turns, inside⟩ := ih tagged
        exact ⟨old, new, turns, inside.trans (List.suffix_cons c text).isInfix⟩

theorem tagRule_sublist {text out : List Char} (h : tagRule.Replaced text out) : out.Sublist text := by
  induction h with
  | nil => exact List.Sublist.refl _
  | hit here rest ih =>
    obtain ⟨-, -, -, rfl⟩ := here
    exact ih.trans (List.sublist_append_right _ _)
  | miss _ _ ih => exact ih.cons_cons _

/-- No tag arises from what stood before and behind another. -/
theorem tagRule_leaves_none {text out : List Char} (h : tagRule.Replaced text out) : ¬Tagged out := by
  induction h with
  | nil => exact nofun
  | hit here _ ih =>
    obtain ⟨-, -, -, rfl⟩ := here
    exact ih
  | @miss c after out nowhere rest ih =>
    intro tagged
    rcases tagged_cons_iff.mp tagged with ⟨rfl, close⟩ | tagged
    · -- The '>' was there before, so this '<' began a tag.
      obtain ⟨body, more, rfl, closed⟩ := List.eq_append_cons_of_mem ((tagRule_sublist rest).subset close)
      exact nowhere _ _ (tagRule_turns closed) ⟨more, by simp⟩
    · exact ih tagged

theorem not_tagged_removeTags (text : List Char) : ¬Tagged (removeTags text) :=
  tagRule_leaves_none (removeTags_replaced text)

theorem removeTags_of_not_tagged {text : List Char} (plain : ¬Tagged text) : removeTags text = text :=
  (removeTags_replaced text).eq_of_not_occurs fun occurs => plain (tagRule_occurs_iff.mp occurs)

theorem tagRule_shrinks {size : List Char → Nat} (append : ∀ a b, size (a ++ b) = size a + size b)
    (positive : 0 < size ['<']) : tagRule.Shrinks size where
  append := append
  smaller := by
    rintro _ _ ⟨body, -, rfl, rfl⟩
    have empty : size [] = 0 := Nat.left_eq_add.mp (append [] [])
    have whole : size ('<' :: body ++ ['>']) = size ['<'] + size (body ++ ['>']) := append ['<'] _
    omega

/-! ### Entities -/

theorem entityRule_occurs_iff {text : List Char} :
    entityRule.Occurs text ↔ ∃ e : Entity, e.written <:+: text := by
  constructor
  · rintro ⟨_, _, ⟨e, rfl, -⟩, inside⟩
    exact ⟨e, inside⟩
  · rintro ⟨e, inside⟩
    exact ⟨_, _, entityRule_turns e, inside⟩

theorem decodeEntities_of_not_occurs {text : List Char} (plain : ¬entityRule.Occurs text) :
    decodeEntities text = text :=
  (decodeEntities_replaced text).eq_of_not_occurs plain

theorem entityRule_shrinks {size : List Char → Nat} (append : ∀ a b, size (a ++ b) = size a + size b)
    (smaller : ∀ e : Entity, size [e.char] < size e.written) : entityRule.Shrinks size where
  append := append
  smaller := by
    rintro _ _ ⟨e, rfl, rfl⟩
    exact smaller e

/-! ### Both -/

/-- There is markup in the text: a '<' with a '>' anywhere behind it, or one of the five entities. -/
def Marked (text : List Char) : Prop :=
  Tagged text ∨ ∃ entity ∈ ["&lt;", "&gt;", "&amp;", "&quot;", "&apos;"], entity.toList <:+: text

theorem marked_iff {text : List Char} : Marked text ↔ tagRule.Occurs text ∨ entityRule.Occurs text := by
  unfold Marked
  rw [tagRule_occurs_iff, entityRule_occurs_iff]
  refine or_congr_right ⟨?_, ?_⟩
  · rintro ⟨entity, listed, inside⟩
    simp only [List.mem_cons, List.not_mem_nil, or_false] at listed
    rcases listed with rfl | rfl | rfl | rfl | rfl
    · exact ⟨.lt, inside⟩
    · exact ⟨.gt, inside⟩
    · exact ⟨.amp, inside⟩
    · exact ⟨.quot, inside⟩
    · exact ⟨.apos, inside⟩
  · rintro ⟨e, inside⟩
    refine ⟨String.ofList e.written, ?_, by simpa using inside⟩
    cases e <;> decide

theorem stripMarkup_of_not_marked {text : List Char} (plain : ¬Marked text) : stripMarkup text = text := by
  rw [marked_iff, not_or, tagRule_occurs_iff] at plain
  rw [stripMarkup, removeTags_of_not_tagged plain.1, decodeEntities_of_not_occurs plain.2]

theorem stripMarkup_smaller {size : List Char → Nat} (append : ∀ a b, size (a ++ b) = size a + size b)
    (positive : 0 < size ['<']) (smaller : ∀ e : Entity, size [e.char] < size e.written) {text : List Char}
    (marked : Marked text) : size (stripMarkup text) < size text := by
  have tags := tagRule_shrinks append positive
  have entities := entityRule_shrinks append smaller
  have decoded := decodeEntities_replaced (removeTags text)
  by_cases tagged : Tagged text
  · calc size (stripMarkup text)
        ≤ size (removeTags text) := decoded.size_le entities
      _ < size text := (removeTags_replaced text).size_lt tags (tagRule_occurs_iff.mpr tagged)
  · -- With no tag to remove, there is an entity to decode.
    rw [marked_iff, tagRule_occurs_iff] at marked
    have occurs := marked.resolve_left tagged
    rw [removeTags_of_not_tagged tagged] at decoded
    rw [stripMarkup, removeTags_of_not_tagged tagged]
    exact decoded.size_lt entities occurs

theorem length_stripMarkup_lt_iff {text : List Char} :
    (stripMarkup text).length < text.length ↔ Marked text := by
  refine ⟨fun shorter => Classical.byContradiction fun plain => ?_, fun marked => ?_⟩
  · rw [stripMarkup_of_not_marked plain] at shorter
    exact Nat.lt_irrefl _ shorter
  · refine @stripMarkup_smaller List.length (fun _ _ => List.length_append) ?_ ?_ text marked
    · decide
    · intro e
      cases e <;> decide

theorem utf8ByteSize_stripMarkup_lt_iff {text : List Char} :
    (String.ofList (stripMarkup text)).utf8ByteSize < (String.ofList text).utf8ByteSize ↔ Marked text := by
  refine ⟨fun shorter => Classical.byContradiction fun plain => ?_, fun marked => ?_⟩
  · rw [stripMarkup_of_not_marked plain] at shorter
    exact Nat.lt_irrefl _ shorter
  · refine @stripMarkup_smaller (fun text => (String.ofList text).utf8ByteSize) ?_ ?_ ?_ text marked
    · intro a b
      rw [String.ofList_append, String.utf8ByteSize_append]
    · decide
    · intro e
      cases e <;> decide

/-- No tag is left, so that to look for tags again changes nothing. But for the tags and the entities a text stays as
    it is: all of it stays exactly if there is no markup in it, and otherwise it gets shorter, in characters and in
    bytes. -/
theorem markup_removed (text : List Char) :
    ¬Tagged (removeTags text) ∧ removeTags (removeTags text) = removeTags text ∧
      Stripped text (stripMarkup text) ∧ (stripMarkup text = text ↔ ¬Marked text) ∧
      ((stripMarkup text).length < text.length ↔ Marked text) ∧
      ((String.ofList (stripMarkup text)).utf8ByteSize < (String.ofList text).utf8ByteSize ↔ Marked text) := by
  have bare := not_tagged_removeTags text
  refine ⟨bare, removeTags_of_not_tagged bare, stripped_iff.mpr rfl, ⟨fun same marked => ?_,
    stripMarkup_of_not_marked⟩, length_stripMarkup_lt_iff, utf8ByteSize_stripMarkup_lt_iff⟩
  have shorter := length_stripMarkup_lt_iff.mpr marked
  rw [same] at shorter
  exact Nat.lt_irrefl _ shorter

/-- A '>' that closes nothing stays, and so does a '<' with nothing to close it. -/
example : removeTags ['<', 'a', '<', 'b', '>', 'c', '>', 'd', '<', 'e'] = ['c', '>', 'd', '<', 'e'] := by cbv

end Orator.Text

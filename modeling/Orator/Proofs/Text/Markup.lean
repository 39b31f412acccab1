import Orator.Text.Markup

/-! Prose comes back from its markup. Both passes over a text replace the leftmost matches of a rule from left to
    right (`Replaced`), and such a result is the only one; so it is enough to follow a marked-up text through the
    rules. Escaped runs hold nothing that the first rule touches, whatever tags stand between them, and the second
    rule turns each entity back into the character it was written for, which it does not look at again. -/

namespace Orator.Text

/-! ### Replacing from left to right -/

/-- What is replaced, and by what. At most one match begins in any place. -/
structure Rule where
  turns : List Char → List Char → Prop
  nonempty : ∀ {new}, ¬turns [] new
  alone : ∀ {old old' new new' after after'}, turns old new → turns old' new' → old ++ after = old' ++ after' →
    old = old' ∧ new = new'

namespace Rule

/-- The second text is the first with its leftmost matches replaced, each one sought behind the one before. -/
inductive Replaced (rule : Rule) : List Char → List Char → Prop where
  | nil : Replaced rule [] []
  | hit {old new after out} (here : rule.turns old new) (rest : Replaced rule after out) :
    Replaced rule (old ++ after) (new ++ out)
  | miss {c after out} (nowhere : ∀ old new, rule.turns old new → ¬old <+: c :: after)
    (rest : Replaced rule after out) : Replaced rule (c :: after) (c :: out)

theorem Replaced.unique {rule : Rule} {text out out' : List Char} (h : Replaced rule text out)
    (h' : Replaced rule text out') : out = out' := by
  induction h generalizing out' with
  | nil =>
    generalize ht : [] = text at h'
    cases h' with
    | nil => rfl
    | hit here =>
      obtain ⟨rfl, -⟩ := List.append_eq_nil_iff.mp ht.symm
      exact absurd here rule.nonempty
    | miss => cases ht
  | @hit old new after out here rest ih =>
    generalize ht : old ++ after = text at h'
    cases h' with
    | nil =>
      obtain ⟨rfl, -⟩ := List.append_eq_nil_iff.mp ht
      exact absurd here rule.nonempty
    | hit here' rest' =>
      obtain ⟨rfl, rfl⟩ := rule.alone here here' ht
      rw [ih (List.append_cancel_left ht ▸ rest')]
    | miss nowhere => exact absurd ⟨after, ht⟩ (nowhere _ _ here)
  | @miss c after out nowhere rest ih =>
    generalize ht : c :: after = text at h'
    cases h' with
    | nil => cases ht
    | hit here => exact absurd ⟨_, ht.symm⟩ (nowhere _ _ here)
    | miss _ rest' =>
      cases ht
      rw [ih rest']

/-- A text without a match stays as it is. -/
theorem Replaced.refl {rule : Rule} {text : List Char} (none : ∀ old new, rule.turns old new → ¬old <:+: text) :
    Replaced rule text text := by
  induction text with
  | nil => exact .nil
  | cons c text ih =>
    refine .miss (fun old new turns here => none old new turns here.isInfix) (ih fun old new turns inside => ?_)
    exact none old new turns (inside.trans (List.suffix_cons c text).isInfix)

end Rule

/-! ### Tags -/

/-- A tag goes: '<' with all up to the nearest '>'. -/
def tagRule : Rule where
  turns old new := ∃ body, '>' ∉ body ∧ old = '<' :: body ++ ['>'] ∧ new = []
  nonempty := by
    rintro _ ⟨body, -, empty, -⟩
    cases empty
  alone := by
    rintro _ _ _ _ after after' ⟨body, closed, rfl, rfl⟩ ⟨body', closed', rfl, rfl⟩ same
    have cut := @cutFirst?_append '>' body after closed
    have same : body ++ '>' :: after = body' ++ '>' :: after' := by simpa using same
    rw [same, cutFirst?_append closed', Option.some.injEq, Prod.mk.injEq] at cut
    exact ⟨by rw [cut.1], rfl⟩

theorem tagRule_turns {body : List Char} (closed : '>' ∉ body) : tagRule.turns ('<' :: body ++ ['>']) [] :=
  ⟨body, closed, rfl, rfl⟩

theorem removeTags_replaced (text : List Char) : tagRule.Replaced text (removeTags text) := by
  fun_induction removeTags text with
  | case1 => exact .nil
  | case2 rest body after cut _ ih =>
    obtain ⟨closed, rfl⟩ := cutFirst?_eq_some_iff.mp cut
    simpa using Rule.Replaced.hit (tagRule_turns closed) ih
  | case3 rest cut =>
    -- With no '>' to come, nothing in the rest is a tag.
    refine .refl ?_
    rintro _ _ ⟨body, -, rfl, -⟩ inside
    have close : '>' ∈ '<' :: rest := inside.subset (by simp)
    exact cutFirst?_eq_none_iff.mp cut (by simpa using close)
  | case4 c rest plain ih =>
    refine .miss ?_ ih
    rintro _ _ ⟨body, -, rfl, -⟩ here
    exact plain (List.cons_prefix_cons.mp here).1.symm

/-! ### Entities -/

namespace Entity

/-- No entity is written as the beginning of another. -/
theorem eq_of_written_begins (e e' : Entity) : e.written <+: e'.written → e = e' := by
  cases e <;> cases e' <;> decide

theorem eq_of_written_append {e e' : Entity} {after after' : List Char}
    (same : e.written ++ after = e'.written ++ after') : e = e' := by
  have here : e'.written <+: e.written ++ after := ⟨after', same.symm⟩
  rcases List.prefix_or_prefix_of_prefix (List.prefix_append e.written after) here with h | h
  · exact eq_of_written_begins e e' h
  · exact (eq_of_written_begins e' e h).symm

theorem split?_eq_some_iff {text after : List Char} {e : Entity} :
    split? text = some (e, after) ↔ text = e.written ++ after := by
  constructor
  · intro h
    obtain ⟨e, found, heq⟩ := Option.map_eq_some_iff.mp h
    cases heq
    have opens := List.find?_some found
    exact (List.prefix_iff_eq_append.mp (List.isPrefixOf_iff_prefix.mp opens)).symm
  · rintro rfl
    cases e <;> simp [split?, all, written, name]

theorem not_prefix_of_split? {text : List Char} (h : split? text = none) (e : Entity) : ¬e.written <+: text := by
  rintro ⟨after, rfl⟩
  rw [split?_eq_some_iff.mpr rfl] at h
  cases h

end Entity

/-- An entity gives way to its character. -/
def entityRule : Rule where
  turns old new := ∃ e : Entity, old = e.written ∧ new = [e.char]
  nonempty := by
    rintro _ ⟨e, empty, -⟩
    cases empty
  alone := by
    rintro _ _ _ _ after after' ⟨e, rfl, rfl⟩ ⟨e', rfl, rfl⟩ same
    obtain rfl := Entity.eq_of_written_append same
    exact ⟨rfl, rfl⟩

theorem entityRule_turns (e : Entity) : entityRule.turns e.written [e.char] := ⟨e, rfl, rfl⟩

theorem decodeEntities_replaced (text : List Char) : entityRule.Replaced text (decodeEntities text) := by
  fun_induction decodeEntities text with
  | case1 => exact .nil
  | case2 c rest e after split _ ih =>
    rw [Entity.split?_eq_some_iff.mp split]
    exact .hit (entityRule_turns e) ih
  | case3 c rest split ih =>
    refine .miss ?_ ih
    rintro _ _ ⟨e, rfl, -⟩
    exact Entity.not_prefix_of_split? split e

/-- What is left of a text without its markup, by the two rules. -/
def Stripped (text out : List Char) : Prop :=
  ∃ bare, tagRule.Replaced text bare ∧ entityRule.Replaced bare out

theorem stripped_iff {text out : List Char} : Stripped text out ↔ stripMarkup text = out := by
  constructor
  · rintro ⟨bare, tags, entities⟩
    obtain rfl := (removeTags_replaced text).unique tags
    exact (decodeEntities_replaced _).unique entities
  · rintro rfl
    exact ⟨_, removeTags_replaced text, decodeEntities_replaced _⟩

/-! ### Writing markup -/

/-- A character as markup writes it: five have a name, all others stand for themselves. -/
def escapeChar : Char → List Char
  | '&' => ['&', 'a', 'm', 'p', ';']
  | '<' => ['&', 'l', 't', ';']
  | '>' => ['&', 'g', 't', ';']
  | '"' => ['&', 'q', 'u', 'o', 't', ';']
  | '\'' => ['&', 'a', 'p', 'o', 's', ';']
  | c => [c]

def escape (text : List Char) : List Char :=
  text.flatMap escapeChar

theorem escapeChar_entity_or_self (c : Char) :
    (∃ e : Entity, escapeChar c = e.written ∧ c = e.char) ∨ escapeChar c = [c] ∧ c ≠ '&' ∧ c ≠ '<' := by
  unfold escapeChar
  split
  · exact Or.inl ⟨.amp, rfl, rfl⟩
  · exact Or.inl ⟨.lt, rfl, rfl⟩
  · exact Or.inl ⟨.gt, rfl, rfl⟩
  · exact Or.inl ⟨.quot, rfl, rfl⟩
  · exact Or.inl ⟨.apos, rfl, rfl⟩
  · rename_i amp lt _ _ _
    exact Or.inr ⟨rfl, amp, lt⟩

theorem lt_notMem_escape (text : List Char) : '<' ∉ escape text := by
  intro h
  obtain ⟨c, -, hc⟩ := List.mem_flatMap.mp h
  rcases escapeChar_entity_or_self c with ⟨e, written, -⟩ | ⟨self, -, plain⟩
  · rw [written] at hc
    cases e <;> simp [Entity.written, Entity.name] at hc
  · rw [self] at hc
    exact plain (List.mem_singleton.mp hc).symm

/-- A piece of a marked-up text: a run of it, or a tag, which ends with the first '>' in it. -/
inductive Segment where
  | run (text : List Char)
  | tag (body : List Char) (closed : '>' ∉ body)

namespace Segment

def written : Segment → List Char
  | run text => escape text
  | tag body _ => '<' :: body ++ ['>']

def prose : Segment → List Char
  | run text => text
  | tag _ _ => []

end Segment

/-! ### Following it through the rules -/

/-- Where no '<' stands, the first rule finds nothing. -/
theorem tagRule_skips {text after out : List Char} (plain : '<' ∉ text) (rest : tagRule.Replaced after out) :
    tagRule.Replaced (text ++ after) (text ++ out) := by
  induction text with
  | nil => exact rest
  | cons c text ih =>
    refine .miss ?_ (ih fun h => plain (List.mem_cons_of_mem _ h))
    rintro _ _ ⟨body, -, rfl, -⟩ here
    exact plain (List.mem_cons.mpr (Or.inl (List.cons_prefix_cons.mp here).1))

/-- Without its tags a marked-up text is its prose, escaped, also where a tag stood between two runs. -/
theorem tagRule_written (segments : List Segment) :
    tagRule.Replaced (segments.flatMap Segment.written) (escape (segments.flatMap Segment.prose)) := by
  induction segments with
  | nil => exact .nil
  | cons segment segments ih =>
    rw [List.flatMap_cons, List.flatMap_cons]
    cases segment with
    | run text =>
      rw [escape, List.flatMap_append]
      exact tagRule_skips (lt_notMem_escape text) ih
    | tag body closed => exact .hit (tagRule_turns closed) ih

theorem entityRule_escape (text : List Char) : entityRule.Replaced (escape text) text := by
  induction text with
  | nil => exact .nil
  | cons c text ih =>
    rw [escape, List.flatMap_cons]
    rcases escapeChar_entity_or_self c with ⟨e, written, rfl⟩ | ⟨self, amp, -⟩
    · rw [written]
      exact .hit (entityRule_turns e) ih
    · rw [self]
      refine .miss ?_ ih
      rintro _ _ ⟨e, rfl, -⟩ here
      exact amp (List.cons_prefix_cons.mp here).1.symm

theorem stripMarkup_written (segments : List Segment) :
    stripMarkup (segments.flatMap Segment.written) = segments.flatMap Segment.prose :=
  stripped_iff.mp ⟨_, tagRule_written segments, entityRule_escape _⟩

theorem stripMarkup_escape (text : List Char) : stripMarkup (escape text) = text := by
  simpa [Segment.written, Segment.prose] using stripMarkup_written [.run text]

/-- Of escaped runs with any tags between them, only the runs are left, as they were before they were escaped; and
    what is decoded is not decoded again. -/
theorem markup_undone :
    (∀ segments : List Segment, stripMarkup (segments.flatMap Segment.written) = segments.flatMap Segment.prose) ∧
    (∀ text, stripMarkup (escape text) = text) ∧
    ∀ text, stripMarkup (escape (escape text)) = escape text :=
  ⟨stripMarkup_written, stripMarkup_escape, fun text => stripMarkup_escape (escape text)⟩

end Orator.Text

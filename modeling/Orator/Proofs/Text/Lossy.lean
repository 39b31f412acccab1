import Orator.Proofs.Text.Utf8

/-! What damaged UTF-8 decodes to. A run of bytes that comes to nothing ends where no character goes on like that, so
    at the latest where the next one begins: what is damaged never takes anything of what is not. -/

namespace Orator.Text

open String (utf8EncodeChar)

/-- Some character begins with these bytes, or is made of them. -/
def Begins (bytes : List UInt8) : Prop :=
  ∃ c, bytes <+: utf8EncodeChar c

/-- No character stands in front here, and this is the longest run that still begins one, or, if there is none, a
    single byte. -/
structure Broken (bad after : List UInt8) : Prop where
  nonempty : bad ≠ []
  begins : bad.length = 1 ∨ Begins bad
  longest : ∀ b ∈ after.head?, ¬Begins (bad ++ [b])
  none : ∀ c, ¬utf8EncodeChar c <+: bad ++ after

/-- Characters are kept, and what is broken is replaced, each such run by one character. -/
inductive Decoded : List UInt8 → List Char → Prop where
  | nil : Decoded [] []
  | char (c) {after out} (rest : Decoded after out) : Decoded (utf8EncodeChar c ++ after) (c :: out)
  | broken {bad after out} (here : Broken bad after) (rest : Decoded after out) :
    Decoded (bad ++ after) (replacement :: out)

/-! ### The decoder does that -/

section
variable {b : UInt8} {bytes taken bad bad' after after' next : List UInt8} {lead : Lead} {out out' more : List Char}

/-- What reaches beyond a run goes on with what stands behind it. -/
theorem exists_next (inside : bytes <+: taken ++ after) (longer : taken.length < bytes.length) :
    ∃ b ∈ after.head?, ∃ more, bytes = taken ++ b :: more := by
  obtain ⟨more, rfl⟩ := List.prefix_of_prefix_length_le (List.prefix_append taken after) inside (Nat.le_of_lt longer)
  obtain ⟨rest, split⟩ := (List.prefix_append_right_inj taken).mp inside
  cases more with
  | nil => simp at longer
  | cons b more =>
    refine ⟨b, ?_, more, rfl⟩
    rw [← split]
    rfl

theorem Begins.of_prefix {more : List UInt8} (h : Begins more) (inside : bytes <+: more) : Begins bytes := by
  obtain ⟨c, there⟩ := h
  exact ⟨c, inside.trans there⟩

/-- Behind a first byte of several, what begins a character is the beginning of what the byte promises. -/
theorem begins_cons_iff (several : ¬b < 0x80) : Begins (b :: bytes) ↔
    ∃ lead, Lead.of? b = some lead ∧ ∃ more, Fills lead.low lead.high lead.further (bytes ++ more) := by
  constructor
  · rintro ⟨c, more, encoded⟩
    obtain ⟨lead, opens, fills, -⟩ := (encode_eq_cons_iff several).mp encoded.symm
    exact ⟨lead, opens, more, fills⟩
  · rintro ⟨lead, opens, more, fills⟩
    exact ⟨_, more, ((encode_eq_cons_iff several).mpr ⟨lead, opens, fills, rfl⟩).symm⟩

theorem encode_inside {c : Char} (inside : utf8EncodeChar c <+: b :: bytes) :
    ∃ more, utf8EncodeChar c = b :: more ∧ more <+: bytes := by
  obtain ⟨first, more, encoded⟩ := exists_first c
  rw [encoded] at inside
  obtain ⟨rfl, behind⟩ := List.cons_prefix_cons.mp inside
  exact ⟨more, encoded, behind⟩

theorem broken_of_none (several : ¬b < 0x80) (stray : Lead.of? b = none) : Broken [b] after where
  nonempty := nofun
  begins := Or.inl rfl
  longest b' _ begins := by
    obtain ⟨lead, opens, -⟩ := (begins_cons_iff several).mp begins
    rw [stray] at opens
    cases opens
  none c encoded := by
    obtain ⟨more, encoded, -⟩ := encode_inside encoded
    obtain ⟨lead, opens, -⟩ := (encode_eq_cons_iff several).mp encoded
    rw [stray] at opens
    cases opens

theorem broken_of_stuck (several : ¬b < 0x80) (opens : Lead.of? b = some lead)
    (start : ∃ b' more, Fills lead.low lead.high lead.further (taken ++ b' :: more))
    (blocked : ∀ b' ∈ after.head?, ∀ more, ¬Fills lead.low lead.high lead.further (taken ++ b' :: more)) :
    Broken (b :: taken) after := by
  obtain ⟨b', more, fills⟩ := start
  refine ⟨nofun, Or.inr ((begins_cons_iff several).mpr ⟨lead, opens, _, fills⟩), ?_, ?_⟩
  · intro b' hb begins
    rw [List.cons_append, begins_cons_iff several, opens] at begins
    obtain ⟨_, ⟨⟩, more, fills⟩ := begins
    rw [List.append_assoc] at fills
    exact blocked b' hb more fills
  · intro c inside
    obtain ⟨bytes, encoded, inside⟩ := encode_inside inside
    rw [encode_eq_cons_iff several, opens] at encoded
    obtain ⟨_, ⟨⟩, filled, -⟩ := encoded
    -- A whole character takes more bytes than there were before it got stuck.
    have longer : taken.length < bytes.length := by
      have := fills.length
      rw [List.length_append, List.length_cons] at this
      have := filled.length
      omega
    obtain ⟨b', hb, more, rfl⟩ := exists_next inside longer
    exact blocked b' hb more filled

theorem decoded (bytes : List UInt8) : Decoded bytes (decodeLossy bytes) := by
  induction bytes using decodeLossy.induct with
  | case1 =>
    rw [decodeLossy]
    exact .nil
  | case2 b rest single ih =>
    rw [decodeLossy, if_pos single]
    have encoded := (encode_eq_single_iff single).mpr ⟨rfl, rfl⟩
    have char := Decoded.char (Char.ofNat b.toNat) ih
    rwa [encoded] at char
  | case3 b rest several stray ih =>
    rw [decodeLossy, if_neg several, stray]
    exact .broken (broken_of_none several stray) ih
  | case4 b rest several lead opens _ ih =>
    rw [decodeLossy, if_neg several, opens]
    dsimp only
    have read : Continued _ _ _ _ rest (lead.read rest) :=
      continued (opens_of_some opens).bounds.2.1 lead.further lead.share rest
    generalize lead.read rest = result at read ih ⊢
    cases read with
    | @whole bytes after fills =>
      have encoded := (encode_eq_cons_iff several).mpr ⟨lead, opens, fills, rfl⟩
      have char := Decoded.char (Char.ofNat (bytes.foldl point lead.share)) ih
      rwa [encoded] at char
    | stuck start blocked => exact .broken (broken_of_stuck several opens start blocked) ih

theorem Broken.length_le (h : Broken bad after) (h' : Broken bad' after') (same : bad ++ after = bad' ++ after') :
    bad'.length ≤ bad.length := by
  refine Nat.le_of_not_lt fun longer => ?_
  obtain ⟨b, next, more, rfl⟩ := exists_next (same ▸ List.prefix_append bad' after') longer
  -- Being longer than one byte, the other run begins a character, which this one should then have reached.
  have begins : Begins (bad ++ b :: more) := by
    refine h'.begins.resolve_left fun single => h.nonempty ?_
    rw [List.length_append, List.length_cons] at single
    exact List.length_eq_zero_iff.mp (by omega)
  exact h.longest b next (begins.of_prefix ⟨more, by simp⟩)

theorem Broken.unique (h : Broken bad after) (h' : Broken bad' after') (same : bad ++ after = bad' ++ after') :
    bad = bad' ∧ after = after' :=
  List.append_inj same (Nat.le_antisymm (h'.length_le h same.symm) (h.length_le h' same))

theorem Decoded.unique (h : Decoded bytes out) (h' : Decoded bytes out') : out = out' := by
  induction h generalizing out' with
  | nil =>
    generalize none : [] = bytes at h'
    cases h' with
    | nil => rfl
    | char => exact absurd none.symm (by simp)
    | broken here => exact absurd (List.append_eq_nil_iff.mp none.symm).1 here.nonempty
  | @char c after out _ ih =>
    generalize same : utf8EncodeChar c ++ after = bytes at h'
    cases h' with
    | nil => exact absurd same (by simp)
    | char c' rest =>
      obtain ⟨rfl, rfl⟩ := encode_prefix_free same
      rw [ih rest]
    | broken here => exact absurd ⟨after, same⟩ (here.none c)
  | @broken bad after out here _ ih =>
    generalize same : bad ++ after = bytes at h'
    cases h' with
    | nil => exact absurd (List.append_eq_nil_iff.mp same).1 here.nonempty
    | char c => exact absurd ⟨_, same.symm⟩ (here.none c)
    | broken here' rest =>
      obtain ⟨rfl, rfl⟩ := here.unique here' same
      rw [ih rest]

theorem decoded_iff : Decoded bytes out ↔ decodeLossy bytes = out :=
  ⟨fun h => (decoded bytes).unique h, fun h => h ▸ decoded bytes⟩

/-- Two bytes of three are one run; the two of a surrogate are not, since no character begins with them. -/
example : decodeLossy [0xE1, 0x80, 0x41, 0xED, 0xA0] = [replacement, 'A', replacement, replacement] := by cbv

/-! ### What is damaged keeps to itself -/

/-- What goes on behind a byte of a character is a byte that can only stand behind another. -/
theorem trails_of_begins (h : Begins (taken ++ b :: bytes)) (nonempty : taken ≠ []) : Trails b := by
  obtain ⟨first, taken, rfl⟩ := List.exists_cons_of_ne_nil nonempty
  obtain ⟨c, more, encoded⟩ := h
  exact (encode_trails encoded.symm).2 b (by simp)

theorem Broken.append (h : Broken bad after) (leads : ∀ b ∈ next.head?, ¬Trails b) : Broken bad (after ++ next) := by
  refine ⟨h.nonempty, h.begins, ?_, ?_⟩
  · intro b hb begins
    cases after with
    | nil => exact leads b hb (trails_of_begins begins h.nonempty)
    | cons => exact h.longest b hb begins
  · intro c inside
    rw [← List.append_assoc] at inside
    -- A character would have to reach beyond what was there, into what can only begin one.
    by_cases longer : (bad ++ after).length < (utf8EncodeChar c).length
    · obtain ⟨b, hb, more, encoded⟩ := exists_next inside longer
      refine leads b hb (trails_of_begins ⟨c, [], by rw [List.append_nil, encoded]⟩ ?_)
      simp [h.nonempty]
    · exact h.none c (List.prefix_of_prefix_length_le inside (List.prefix_append _ _) (Nat.le_of_not_lt longer))

theorem Decoded.append (h : Decoded bytes out) (leads : ∀ b ∈ next.head?, ¬Trails b) (hn : Decoded next more) :
    Decoded (bytes ++ next) (out ++ more) := by
  induction h with
  | nil => exact hn
  | char c _ ih =>
    rw [List.append_assoc]
    exact .char c ih
  | broken here _ ih =>
    rw [List.append_assoc]
    exact .broken (here.append leads) ih

theorem Decoded.word (word : List Char) (h : Decoded after out) :
    Decoded (word.flatMap utf8EncodeChar ++ after) (word ++ out) := by
  induction word with
  | nil => exact h
  | cons c word ih =>
    rw [List.flatMap_cons, List.append_assoc]
    exact .char c ih

/-- Characters are decoded as they are, whatever stands before and behind them. -/
theorem decodeLossy_around (before after : List UInt8) {word : List Char} (nonempty : word ≠ []) :
    decodeLossy (before ++ word.flatMap utf8EncodeChar ++ after) = decodeLossy before ++ word ++ decodeLossy after := by
  have behind := (decoded after).word word
  have leads : ∀ b ∈ (word.flatMap utf8EncodeChar ++ after).head?, ¬Trails b := by
    obtain ⟨c, word, rfl⟩ := List.exists_cons_of_ne_nil nonempty
    obtain ⟨b, bytes, encoded⟩ := exists_first c
    intro b' hb
    rw [List.flatMap_cons, encoded] at hb
    obtain rfl := Option.some.inj hb
    exact (encode_trails encoded).1
  rw [List.append_assoc, List.append_assoc]
  exact decoded_iff.mp ((decoded before).append leads behind)

theorem decodeLossy_word (word : List Char) : decodeLossy (word.flatMap utf8EncodeChar) = word := by
  have whole := Decoded.nil.word word
  rw [List.append_nil, List.append_nil] at whole
  exact decoded_iff.mp whole

end

end Orator.Text

import Orator.Text.Uppercase

/-! Capitals stay what they are: what a text is in upper case does not change when it is put in upper case once
    more, and no comma comes into it. The tables are compared as sets of codes, each the bits of one number. -/

namespace Orator.Text

/-! ### Sets of codes -/

/-- The codes as the bits of a number. -/
def mask (codes : List Nat) : Nat :=
  codes.foldr (fun code bits => Nat.lor (Nat.shiftLeft 1 code) bits) 0

theorem testBit_mask {codes : List Nat} {code : Nat} (h : code ∈ codes) : (mask codes).testBit code = true := by
  induction codes with
  | nil => cases h
  | cons first codes ih =>
    have split : (mask (first :: codes)).testBit code = ((1 <<< first).testBit code || (mask codes).testBit code) :=
      Nat.testBit_or _ _ _
    rw [split, Bool.or_eq_true]
    rcases List.mem_cons.mp h with rfl | h
    · exact Or.inl (by simp)
    · exact Or.inr (ih h)

theorem disjoint_of_mask {small capitals : List Nat} (h : Nat.land (mask small) (mask capitals) = 0) {code : Nat}
    (capital : code ∈ capitals) : code ∉ small := by
  intro there
  have both : (mask small &&& mask capitals).testBit code = true := by
    rw [Nat.testBit_and, testBit_mask there, testBit_mask capital]
    rfl
  rw [show mask small &&& mask capitals = 0 from h, Nat.zero_testBit] at both
  cases both

/-! ### The tables -/

/-- The codes of the characters in a run. -/
def CaseRun.codes (r : CaseRun) : List Nat :=
  (List.range ((r.last - r.first) / r.step + 1)).map fun i => r.first + r.step * i

/-- The characters that have a capital form of their own. -/
def smallCodes : List Nat :=
  caseExpansions.map (·.1) ++ caseRuns.flatMap CaseRun.codes

/-- The characters in their capital forms. -/
def capitalCodes : List Nat :=
  caseExpansions.flatMap (·.2) ++ caseRuns.flatMap fun r => r.codes.map r.capital

theorem CaseRun.mem_codes {r : CaseRun} {code : Nat} (h : r.contains code = true) : code ∈ r.codes := by
  simp only [contains, Bool.and_eq_true, decide_eq_true_eq, beq_iff_eq] at h
  obtain ⟨⟨first, last⟩, divides⟩ := h
  refine List.mem_map.mpr ⟨(code - r.first) / r.step, List.mem_range.mpr ?_, ?_⟩
  · exact Nat.lt_succ_of_le (Nat.div_le_div_right (Nat.sub_le_sub_right last _))
  · have := Nat.mul_div_cancel' (Nat.dvd_of_mod_eq_zero divides)
    omega

theorem capitalCodes_disjoint {code : Nat} (h : code ∈ capitalCodes) : code ∉ smallCodes :=
  disjoint_of_mask (by decide +kernel) h

theorem capitalCodes_valid {code : Nat} (h : code ∈ capitalCodes) : code.isValidChar ∧ code ≠ ','.toNat := by
  have all : (capitalCodes.all fun code => (Nat.blt code 0xd800 || (Nat.blt 0xdfff code && Nat.blt code 0x110000)) &&
      !Nat.beq code 44) = true := by decide +kernel
  have here := List.all_eq_true.mp all code h
  simp only [Bool.and_eq_true, Bool.or_eq_true, Nat.blt_eq, Bool.not_eq_true'] at here
  obtain ⟨valid, comma⟩ := here
  refine ⟨valid, ?_⟩
  rintro rfl
  cases comma

/-! ### Single characters -/

theorem toNat_ofNat {code : Nat} (valid : code.isValidChar) : (Char.ofNat code).toNat = code := by
  rw [Char.ofNat, dif_pos valid]
  rfl

theorem upper_of_not_small {c : Char} (h : c.toNat ∉ smallCodes) : upper c = [c] := by
  unfold smallCodes at h
  rw [List.mem_append, not_or] at h
  have unlisted : caseExpansions.lookup c.toNat = none := by
    refine List.lookup_eq_none_iff.mpr fun entry hm => ?_
    rw [bne_iff_ne]
    intro same
    exact h.1 (same ▸ List.mem_map_of_mem hm)
  have outside : caseRuns.find? (·.contains c.toNat) = none := by
    refine List.find?_eq_none.mpr fun run hm inside => ?_
    exact h.2 (List.mem_flatMap.mpr ⟨run, hm, CaseRun.mem_codes inside⟩)
  simp only [upper, unlisted, outside]

/-- A character in upper case is itself or made of capitals. -/
theorem mem_upper {c d : Char} (h : d ∈ upper c) : d = c ∧ upper c = [c] ∨ d.toNat ∈ capitalCodes := by
  have capital {code : Nat} (there : code ∈ capitalCodes) : (Char.ofNat code).toNat ∈ capitalCodes := by
    rw [toNat_ofNat (capitalCodes_valid there).1]
    exact there
  unfold upper at h ⊢
  split at h
  · rename_i capitals listed
    obtain ⟨before, after, at_, -⟩ := List.lookup_eq_some_iff.mp listed
    have entry : (c.toNat, capitals) ∈ caseExpansions := at_ ▸ List.mem_append_right _ List.mem_cons_self
    obtain ⟨code, hm, rfl⟩ := List.mem_map.mp h
    exact Or.inr (capital (List.mem_append_left _ (List.mem_flatMap.mpr ⟨_, entry, hm⟩)))
  · split at h
    · rename_i run found
      obtain rfl := List.mem_singleton.mp h
      have inside := List.find?_some found
      refine Or.inr (capital (List.mem_append_right _ (List.mem_flatMap.mpr ⟨run, List.mem_of_find?_eq_some found, ?_⟩)))
      exact List.mem_map_of_mem (CaseRun.mem_codes inside)
    · exact Or.inl ⟨List.mem_singleton.mp h, rfl⟩

theorem upper_of_mem_upper {c d : Char} (h : d ∈ upper c) : upper d = [d] := by
  rcases mem_upper h with ⟨rfl, same⟩ | capital
  · exact same
  · exact upper_of_not_small (capitalCodes_disjoint capital)

theorem eq_comma_of_mem_upper {c : Char} (h : ',' ∈ upper c) : c = ',' := by
  rcases mem_upper h with ⟨same, -⟩ | capital
  · exact same.symm
  · exact absurd rfl (capitalCodes_valid capital).2

/-! ### Texts -/

theorem uppercase_uppercase (text : List Char) : uppercase (uppercase text) = uppercase text := by
  have fixed {letters : List Char} (h : ∀ c ∈ letters, upper c = [c]) : uppercase letters = letters := by
    induction letters with
    | nil => rfl
    | cons c letters ih =>
      rw [uppercase, List.flatMap_cons, h c List.mem_cons_self]
      exact congrArg (c :: ·) (ih fun d hd => h d (List.mem_cons_of_mem _ hd))
  refine fixed fun d hd => ?_
  obtain ⟨c, -, hd⟩ := List.mem_flatMap.mp hd
  exact upper_of_mem_upper hd

theorem comma_mem_of_mem_uppercase {text : List Char} (h : ',' ∈ uppercase text) : ',' ∈ text := by
  obtain ⟨c, hm, hc⟩ := List.mem_flatMap.mp h
  exact eq_comma_of_mem_upper hc ▸ hm

end Orator.Text

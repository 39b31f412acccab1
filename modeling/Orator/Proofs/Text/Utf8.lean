import Orator.Proofs.Text.Uppercase
import Orator.Text.Lossy

/-! How a character is encoded in several bytes, as the decoder sees it: its first byte tells how many follow and bounds
    the one behind it, and whatever keeps to those bounds is the encoding of a character. -/

namespace Orator.Text

/-! ### Bytes behind the first -/

/-- The byte can stand in a character, but never first. -/
def Trails (b : UInt8) : Prop := 0x80 ≤ b ∧ b ≤ 0xBF

/-- These bytes are all that is still missing, of which the first lies between `low` and `high`. -/
inductive Fills : UInt8 → UInt8 → Nat → List UInt8 → Prop where
  | last {low high b} (fits : low ≤ b ∧ b ≤ high) : Fills low high 0 [b]
  | more {low high further b bytes} (fits : low ≤ b ∧ b ≤ high) (rest : Fills 0x80 0xBF further bytes) :
    Fills low high (further + 1) (b :: bytes)

/-- The code point with the six bits that the byte adds to it. -/
def point (acc : Nat) (b : UInt8) : Nat :=
  acc * 64 + (b.toNat - 0x80)

-- Stated by hand, as the equation generated for it runs too deep into the literals.
theorem point_eq (acc : Nat) (b : UInt8) : point acc b = acc * 64 + (b.toNat - 0x80) :=
  Eq.refl _

/-- What reading on can come to: all that was missing is there; or the bytes taken would still be a start, but with
    none of what comes next. -/
inductive Continued (low high : UInt8) (further acc : Nat) : List UInt8 → Option Char × List UInt8 → Prop where
  | whole {bytes after} (fills : Fills low high further bytes) :
    Continued low high further acc (bytes ++ after) (some (Char.ofNat (bytes.foldl point acc)), after)
  | stuck {taken after} (start : ∃ b more, Fills low high further (taken ++ b :: more))
    (blocked : ∀ b ∈ after.head?, ∀ more, ¬Fills low high further (taken ++ b :: more)) :
    Continued low high further acc (taken ++ after) (none, after)

section
variable {low high b : UInt8} {further acc : Nat} {bytes after : List UInt8}

theorem Fills.length (h : Fills low high further bytes) : bytes.length = further + 1 := by
  induction h with
  | last => rfl
  | more _ _ ih => rw [List.length_cons, ih]

theorem Fills.trails (h : Fills low high further bytes) (above : 0x80 ≤ low) (below : high ≤ 0xBF) :
    ∀ b ∈ bytes, Trails b := by
  induction h with
  | last fits =>
    intro b hb
    obtain rfl := List.mem_singleton.mp hb
    exact ⟨UInt8.le_trans above fits.1, UInt8.le_trans fits.2 below⟩
  | more fits _ ih =>
    intro b hb
    rcases List.mem_cons.mp hb with rfl | hb
    · exact ⟨UInt8.le_trans above fits.1, UInt8.le_trans fits.2 below⟩
    · exact ih (UInt8.le_refl _) (UInt8.le_refl _) b hb

/-- Whatever is missing, some bytes fill it. -/
theorem exists_fills (sane : low ≤ high) (further : Nat) : ∃ b more, Fills low high further (b :: more) := by
  induction further generalizing low high with
  | zero => exact ⟨low, [], .last ⟨UInt8.le_refl _, sane⟩⟩
  | succ further ih =>
    obtain ⟨b, more, rest⟩ := ih (by decide : (0x80 : UInt8) ≤ 0xBF)
    exact ⟨low, b :: more, .more ⟨UInt8.le_refl _, sane⟩ rest⟩

theorem continuation_last (fits : low ≤ b ∧ b ≤ high) :
    continuation acc low high 0 (b :: after) = (some (Char.ofNat (point acc b)), after) := by
  rw [point_eq, continuation, if_pos fits]

theorem continuation_more (fits : low ≤ b ∧ b ≤ high) :
    continuation acc low high (further + 1) (b :: bytes) =
      continuation (point acc b) 0x80 0xBF further bytes := by
  rw [point_eq, continuation, if_pos fits]

theorem continuation_unfit (unfit : ¬(low ≤ b ∧ b ≤ high)) :
    continuation acc low high further (b :: bytes) = (none, b :: bytes) := by
  rw [continuation, if_neg unfit]

theorem continued (sane : low ≤ high) (further acc : Nat) (bytes : List UInt8) :
    Continued low high further acc bytes (continuation acc low high further bytes) := by
  induction bytes generalizing low high further acc with
  | nil =>
    rw [continuation]
    exact @Continued.stuck _ _ _ _ [] [] (exists_fills sane further) (by simp)
  | cons b rest ih =>
    by_cases fits : low ≤ b ∧ b ≤ high
    · cases further with
      | zero =>
        have whole := @Continued.whole low high 0 acc [b] rest (.last fits)
        rwa [List.foldl_cons, List.foldl_nil, ← continuation_last fits] at whole
      | succ further =>
        have next := ih (by decide : (0x80 : UInt8) ≤ 0xBF) further (point acc b)
        rw [← continuation_more fits] at next
        generalize continuation acc low high (further + 1) (b :: rest) = result at next
        cases next with
        | @whole bytes after fills =>
          rw [← List.foldl_cons]
          exact @Continued.whole low high (further + 1) acc (b :: bytes) after (.more fits fills)
        | @stuck taken after start blocked =>
          obtain ⟨b', more, start⟩ := start
          refine @Continued.stuck _ _ _ _ (b :: taken) _ ⟨b', more, .more fits start⟩ fun b' hb more fills => ?_
          cases fills with
          | more _ fills => exact blocked b' hb more fills
    · rw [continuation_unfit fits]
      refine @Continued.stuck _ _ _ _ [] _ (exists_fills sane further) fun b' hb more fills => ?_
      obtain rfl := Option.some.inj hb
      cases fills with
      | last fitting => exact fits fitting
      | more fitting => exact fits fitting

end

/-! ### The first byte -/

deriving instance DecidableEq for Lead

theorem byte_eq {b : UInt8} {n : Nat} (h : b.toNat = n) : b = .ofNat n := by
  rw [← h, UInt8.ofNat_toNat]

theorem toNat_byte {n : Nat} (h : n < 256) : (UInt8.ofNat n).toNat = n :=
  UInt8.toNat_ofNat_of_lt' h

/-- The bytes from which a character of several bytes can begin, by how many follow, and what they promise. -/
inductive Opens : UInt8 → Lead → Prop where
  | two {s} (least : 2 ≤ s) (most : s < 32) : Opens (.ofNat (0xC0 + s)) ⟨s, 0x80, 0xBF, 0⟩
  | three {s} (most : s < 16) :
    Opens (.ofNat (0xE0 + s)) ⟨s, if s = 0 then 0xA0 else 0x80, if s = 13 then 0x9F else 0xBF, 1⟩
  | four {s} (most : s < 5) :
    Opens (.ofNat (0xF0 + s)) ⟨s, if s = 0 then 0x90 else 0x80, if s = 4 then 0x8F else 0xBF, 2⟩

theorem Opens.of? {b : UInt8} {lead : Lead} (h : Opens b lead) : Lead.of? b = some lead := by
  cases h with
  | @two s least most =>
    have all : ∀ s < 32, 2 ≤ s → Lead.of? (.ofNat (0xC0 + s)) = some ⟨s, 0x80, 0xBF, 0⟩ := by decide
    exact all s most least
  | @three s most =>
    revert s
    decide
  | @four s most =>
    revert s
    decide

/-- No other byte begins a character of several bytes. -/
theorem of?_range : ∀ n < 256, (Lead.of? (.ofNat n)).isSome = true → 0xC2 ≤ n ∧ n < 0xF5 := by
  decide +kernel

theorem opens_of_some {b : UInt8} {lead : Lead} (h : Lead.of? b = some lead) : Opens b lead := by
  have range := of?_range b.toNat b.toNat_lt (by rw [UInt8.ofNat_toNat, h]; rfl)
  have there : ∃ lead', Opens b lead' := by
    by_cases two : b.toNat < 0xE0
    · obtain ⟨s, hs⟩ := Nat.exists_eq_add_of_le (by omega : 0xC0 ≤ b.toNat)
      rw [byte_eq hs]
      exact ⟨_, .two (by omega) (by omega)⟩
    by_cases three : b.toNat < 0xF0
    · obtain ⟨s, hs⟩ := Nat.exists_eq_add_of_le (by omega : 0xE0 ≤ b.toNat)
      rw [byte_eq hs]
      exact ⟨_, .three (by omega)⟩
    · obtain ⟨s, hs⟩ := Nat.exists_eq_add_of_le (by omega : 0xF0 ≤ b.toNat)
      rw [byte_eq hs]
      exact ⟨_, .four (by omega)⟩
  obtain ⟨lead', there⟩ := there
  rwa [Option.some.inj (h.symm.trans there.of?)]

/-! ### The encoding -/

/-- The byte that adds these six bits. -/
def trail (r : Nat) : UInt8 :=
  .ofNat (0x80 + r)

section
variable {c : Char}

theorem encode_one (h : c.toNat < 0x80) : String.utf8EncodeChar c = [.ofNat c.toNat] := by
  unfold String.utf8EncodeChar
  rw [Char.toNat_val]
  exact if_pos (by omega)

theorem encode_two (least : 0x80 ≤ c.toNat) (most : c.toNat < 0x800) :
    String.utf8EncodeChar c = [.ofNat (0xC0 + c.toNat / 64), trail (c.toNat % 64)] := by
  unfold String.utf8EncodeChar
  rw [Char.toNat_val]
  dsimp only
  rw [if_neg (by omega), if_pos (by omega), Nat.mod_eq_of_lt (by omega : c.toNat / 64 < 32)]
  simp only [trail, Nat.add_comm]

theorem encode_three (least : 0x800 ≤ c.toNat) (most : c.toNat < 0x10000) :
    String.utf8EncodeChar c =
      [.ofNat (0xE0 + c.toNat / 4096), trail (c.toNat / 64 % 64), trail (c.toNat % 64)] := by
  unfold String.utf8EncodeChar
  rw [Char.toNat_val]
  dsimp only
  rw [if_neg (by omega), if_neg (by omega), if_pos (by omega), Nat.mod_eq_of_lt (by omega : c.toNat / 4096 < 16)]
  simp only [trail, Nat.add_comm]

theorem encode_four (least : 0x10000 ≤ c.toNat) :
    String.utf8EncodeChar c = [.ofNat (0xF0 + c.toNat / 262144), trail (c.toNat / 4096 % 64),
      trail (c.toNat / 64 % 64), trail (c.toNat % 64)] := by
  have most : c.toNat < 0x110000 := by
    have := c.valid
    simp only [UInt32.isValidChar, Nat.isValidChar, Char.toNat_val] at this
    omega
  unfold String.utf8EncodeChar
  rw [Char.toNat_val]
  dsimp only
  rw [if_neg (by omega), if_neg (by omega), if_neg (by omega), Nat.mod_eq_of_lt (by omega : c.toNat / 262144 < 8)]
  simp only [trail, Nat.add_comm]

end

/-! ### Whatever fills a lead is a character -/

theorem fits_trail {low high : UInt8} {r : Nat} (h : r < 64) :
    low ≤ trail r ∧ trail r ≤ high ↔ low.toNat ≤ 0x80 + r ∧ 0x80 + r ≤ high.toNat := by
  rw [trail, UInt8.le_iff_toNat_le, UInt8.le_iff_toNat_le, toNat_byte (by omega)]

theorem trails_trail {r : Nat} (h : r < 64) : Trails (trail r) := by
  rw [Trails, fits_trail h]
  simp only [UInt8.reduceToNat]
  omega

theorem Trails.eq_trail {b : UInt8} (h : Trails b) : ∃ r < 64, b = trail r := by
  obtain ⟨least, most⟩ := h
  simp only [UInt8.le_iff_toNat_le, UInt8.reduceToNat] at least most
  obtain ⟨r, hr⟩ := Nat.exists_eq_add_of_le least
  exact ⟨r, by omega, byte_eq hr⟩

theorem point_trail (acc : Nat) {r : Nat} (h : r < 64) : point acc (trail r) = acc * 64 + r := by
  rw [point_eq, trail, toNat_byte (by omega)]
  omega

section
variable {s r q p : Nat} (hr : r < 64) (hq : q < 64) (hp : p < 64)
include hr

theorem encode_point_two (least : 2 ≤ s) (most : s < 32) :
    String.utf8EncodeChar (Char.ofNat (s * 64 + r)) = [.ofNat (0xC0 + s), trail r] := by
  have value : (Char.ofNat (s * 64 + r)).toNat = s * 64 + r := toNat_ofNat (by simp only [Nat.isValidChar]; omega)
  rw [encode_two (by omega) (by omega), value]
  congr <;> omega

include hq

/-- Three bytes are neither for a code point that takes two nor for a surrogate. -/
theorem encode_point_three (most : s < 16) (overlong : s = 0 → 32 ≤ r) (surrogate : s = 13 → r < 32) :
    String.utf8EncodeChar (Char.ofNat ((s * 64 + r) * 64 + q)) = [.ofNat (0xE0 + s), trail r, trail q] := by
  have value : (Char.ofNat ((s * 64 + r) * 64 + q)).toNat = (s * 64 + r) * 64 + q :=
    toNat_ofNat (by simp only [Nat.isValidChar]; omega)
  rw [encode_three (by omega) (by omega), value]
  congr <;> omega

include hp

/-- And four are for none that takes three, and none above the last. -/
theorem encode_point_four (most : s < 5) (overlong : s = 0 → 16 ≤ r) (large : s = 4 → r < 16) :
    String.utf8EncodeChar (Char.ofNat (((s * 64 + r) * 64 + q) * 64 + p)) =
      [.ofNat (0xF0 + s), trail r, trail q, trail p] := by
  have value : (Char.ofNat (((s * 64 + r) * 64 + q) * 64 + p)).toNat = ((s * 64 + r) * 64 + q) * 64 + p :=
    toNat_ofNat (by simp only [Nat.isValidChar]; omega)
  rw [encode_four (by omega), value]
  congr <;> omega

end

section
variable {b : UInt8} {lead : Lead} {bytes : List UInt8}

theorem Opens.bounds (h : Opens b lead) : 0x80 ≤ lead.low ∧ lead.low ≤ lead.high ∧ lead.high ≤ 0xBF := by
  cases h with
  | two => exact (by decide : (0x80 : UInt8) ≤ 0x80 ∧ (0x80 : UInt8) ≤ 0xBF ∧ (0xBF : UInt8) ≤ 0xBF)
  | @three s | @four s =>
    by_cases zero : s = 0
    · subst zero
      decide
    · dsimp only
      rw [if_neg zero]
      split <;> decide

theorem Opens.trails (h : Opens b lead) (fills : Fills lead.low lead.high lead.further bytes) :
    ∀ b ∈ bytes, Trails b :=
  fills.trails h.bounds.1 h.bounds.2.2

theorem encode_of_fills (h : Opens b lead) (fills : Fills lead.low lead.high lead.further bytes) :
    String.utf8EncodeChar (Char.ofNat (bytes.foldl point lead.share)) = b :: bytes := by
  have trails := h.trails fills
  cases h with
  | two least most =>
    cases fills with
    | @last _ _ x =>
    obtain ⟨r, hr, rfl⟩ := (trails x (by simp)).eq_trail
    simp only [List.foldl_cons, List.foldl_nil, point_trail _ hr]
    exact encode_point_two hr least most
  | three most =>
    cases fills with
    | @more _ _ _ x _ fits rest =>
    cases rest with
    | @last _ _ y =>
    obtain ⟨r, hr, rfl⟩ := (trails x (by simp)).eq_trail
    obtain ⟨q, hq, rfl⟩ := (trails y (by simp)).eq_trail
    obtain ⟨least, below⟩ := (fits_trail hr).mp fits
    simp only [List.foldl_cons, List.foldl_nil, point_trail _ hr, point_trail _ hq]
    refine encode_point_three hr hq most (fun zero => ?_) (fun thirteen => ?_)
    · simp only [zero, if_true, UInt8.reduceToNat] at least
      omega
    · simp only [thirteen, if_true, UInt8.reduceToNat] at below
      omega
  | four most =>
    cases fills with
    | @more _ _ _ x _ fits rest =>
    cases rest with
    | @more _ _ _ y _ _ rest =>
    cases rest with
    | @last _ _ z =>
    obtain ⟨r, hr, rfl⟩ := (trails x (by simp)).eq_trail
    obtain ⟨q, hq, rfl⟩ := (trails y (by simp)).eq_trail
    obtain ⟨p, hp, rfl⟩ := (trails z (by simp)).eq_trail
    obtain ⟨least, below⟩ := (fits_trail hr).mp fits
    simp only [List.foldl_cons, List.foldl_nil, point_trail _ hr, point_trail _ hq, point_trail _ hp]
    refine encode_point_four hr hq hp most (fun zero => ?_) (fun four => ?_)
    · simp only [zero, if_true, UInt8.reduceToNat] at least
      omega
    · simp only [four, if_true, UInt8.reduceToNat] at below
      omega

/-- And every character of several bytes comes about like this. -/
theorem exists_opens {c : Char} (several : 0x80 ≤ c.toNat) : ∃ b lead bytes, Opens b lead ∧
    Fills lead.low lead.high lead.further bytes ∧ Char.ofNat (bytes.foldl point lead.share) = c := by
  have valid : c.toNat < 0xD800 ∨ 0xDFFF < c.toNat ∧ c.toNat < 0x110000 := c.valid
  generalize hn : c.toNat = n at several valid
  have sextet (m : Nat) : m % 64 < 64 := Nat.mod_lt _ (by decide)
  have whole {m : Nat} (same : m = n) : Char.ofNat m = c := by rw [same, ← hn, Char.ofNat_toNat]
  by_cases two : n < 0x800
  · refine ⟨_, _, [trail (n % 64)], @Opens.two (n / 64) (by omega) (by omega),
      .last (trails_trail (sextet _)), whole ?_⟩
    simp only [List.foldl_cons, List.foldl_nil, point_trail _ (sextet _)]
    omega
  by_cases three : n < 0x10000
  · refine ⟨_, _, [trail (n / 64 % 64), trail (n % 64)], @Opens.three (n / 4096) (by omega),
      .more ?_ (.last (trails_trail (sextet _))), whole ?_⟩
    · rw [fits_trail (sextet _), apply_ite UInt8.toNat, apply_ite UInt8.toNat]
      simp only [UInt8.reduceToNat]
      constructor <;> split <;> omega
    · simp only [List.foldl_cons, List.foldl_nil, point_trail _ (sextet _)]
      omega
  · refine ⟨_, _, [trail (n / 4096 % 64), trail (n / 64 % 64), trail (n % 64)],
      @Opens.four (n / 262144) (by omega),
      .more ?_ (.more (trails_trail (sextet _)) (.last (trails_trail (sextet _)))), whole ?_⟩
    · rw [fits_trail (sextet _), apply_ite UInt8.toNat, apply_ite UInt8.toNat]
      simp only [UInt8.reduceToNat]
      constructor <;> split <;> omega
    · simp only [List.foldl_cons, List.foldl_nil, point_trail _ (sextet _)]
      omega

/-! ### The first byte of a character -/

theorem exists_first (c : Char) : ∃ b bytes, String.utf8EncodeChar c = b :: bytes :=
  List.exists_cons_of_ne_nil String.utf8EncodeChar_ne_nil

theorem Opens.least (h : Opens b lead) : 0xC2 ≤ b.toNat := by
  cases h with
  | two | three | four =>
    rw [toNat_byte (by omega)]
    omega

theorem single_iff : b < 0x80 ↔ b.toNat < 0x80 :=
  UInt8.lt_iff_toNat_lt

/-- A byte below 0x80 is a character. -/
theorem encode_eq_single_iff {c : Char} (single : b < 0x80) :
    String.utf8EncodeChar c = b :: bytes ↔ c = Char.ofNat b.toNat ∧ bytes = [] := by
  rw [single_iff] at single
  constructor
  · intro encoded
    by_cases several : 0x80 ≤ c.toNat
    · obtain ⟨b', lead, bytes', opens, fills, rfl⟩ := exists_opens several
      rw [encode_of_fills opens fills] at encoded
      obtain ⟨rfl, -⟩ := List.cons.inj encoded
      have := opens.least
      omega
    · rw [encode_one (by omega)] at encoded
      obtain ⟨rfl, rfl⟩ := List.cons.inj encoded
      rw [toNat_byte (by omega), Char.ofNat_toNat]
      exact ⟨rfl, rfl⟩
  · rintro ⟨rfl, rfl⟩
    have value : (Char.ofNat b.toNat).toNat = b.toNat := toNat_ofNat (by simp only [Nat.isValidChar]; omega)
    rw [encode_one (by omega), value, UInt8.ofNat_toNat]

/-- Any other begins one exactly if it is a lead, and what it promises is what follows. -/
theorem encode_eq_cons_iff {c : Char} (several : ¬b < 0x80) : String.utf8EncodeChar c = b :: bytes ↔
    ∃ lead, Lead.of? b = some lead ∧ Fills lead.low lead.high lead.further bytes ∧
      c = Char.ofNat (bytes.foldl point lead.share) := by
  constructor
  · intro encoded
    by_cases large : 0x80 ≤ c.toNat
    · obtain ⟨b', lead, bytes', opens, fills, rfl⟩ := exists_opens large
      rw [encode_of_fills opens fills] at encoded
      obtain ⟨rfl, rfl⟩ := List.cons.inj encoded
      exact ⟨lead, opens.of?, fills, rfl⟩
    · rw [encode_one (by omega)] at encoded
      obtain ⟨rfl, -⟩ := List.cons.inj encoded
      rw [single_iff, toNat_byte (by omega)] at several
      exact absurd (by omega) several
  · rintro ⟨lead, opens, fills, rfl⟩
    exact encode_of_fills (opens_of_some opens) fills

/-- No byte of a character stands both first in one and behind the first in another. -/
theorem encode_trails {c : Char} (encoded : String.utf8EncodeChar c = b :: bytes) :
    ¬Trails b ∧ ∀ b ∈ bytes, Trails b := by
  by_cases single : b < 0x80
  · obtain ⟨-, rfl⟩ := (encode_eq_single_iff single).mp encoded
    exact ⟨fun trails => UInt8.not_le.mpr single trails.1, nofun⟩
  · obtain ⟨lead, opens, fills, -⟩ := (encode_eq_cons_iff single).mp encoded
    have opens := opens_of_some opens
    refine ⟨fun trails => ?_, opens.trails fills⟩
    have least := opens.least
    have most := UInt8.le_iff_toNat_le.mp trails.2
    simp only [UInt8.reduceToNat] at most
    omega

/-- No character is the beginning of another. -/
theorem encode_prefix_free {c c' : Char} {after after' : List UInt8}
    (same : String.utf8EncodeChar c ++ after = String.utf8EncodeChar c' ++ after') : c = c' ∧ after = after' := by
  obtain ⟨b, bytes, encoded⟩ := exists_first c
  obtain ⟨b', bytes', encoded'⟩ := exists_first c'
  rw [encoded, encoded', List.cons_append, List.cons_append] at same
  obtain ⟨rfl, behind⟩ := List.cons.inj same
  by_cases single : b < 0x80
  · obtain ⟨rfl, rfl⟩ := (encode_eq_single_iff single).mp encoded
    obtain ⟨rfl, rfl⟩ := (encode_eq_single_iff single).mp encoded'
    exact ⟨rfl, behind⟩
  · obtain ⟨lead, opens, fills, rfl⟩ := (encode_eq_cons_iff single).mp encoded
    obtain ⟨lead', opens', fills', rfl⟩ := (encode_eq_cons_iff single).mp encoded'
    rw [opens] at opens'
    cases opens'
    obtain ⟨rfl, rfl⟩ := List.append_inj behind (fills.length.trans fills'.length.symm)
    exact ⟨rfl, rfl⟩

end

end Orator.Text

/-! Decoding UTF-8 that may be damaged. Each maximal run of bytes that begins a character but does not
    complete it, and each byte that begins none, is replaced by one U+FFFD; all else is kept. -/

namespace Orator.Text

/-- What the first byte of a sequence of several bytes promises: its own share of the code point, the
    bounds of the byte after it, and how many bytes follow that one. The bounds keep out overlong forms,
    surrogates and code points above U+10FFFF. -/
structure Lead where
  share : Nat
  low : UInt8
  high : UInt8
  further : Nat

/-- The promise of a byte from 0x80 up; `none` if no character begins with it. -/
def Lead.of? (b : UInt8) : Option Lead :=
  if 0xC2 ≤ b ∧ b ≤ 0xDF then some ⟨b.toNat - 0xC0, 0x80, 0xBF, 0⟩
  else if b = 0xE0 then some ⟨0, 0xA0, 0xBF, 1⟩
  else if b = 0xED then some ⟨0xD, 0x80, 0x9F, 1⟩
  else if 0xE1 ≤ b ∧ b ≤ 0xEF then some ⟨b.toNat - 0xE0, 0x80, 0xBF, 1⟩
  else if b = 0xF0 then some ⟨0, 0x90, 0xBF, 2⟩
  else if 0xF1 ≤ b ∧ b ≤ 0xF3 then some ⟨b.toNat - 0xF0, 0x80, 0xBF, 2⟩
  else if b = 0xF4 then some ⟨4, 0x80, 0x8F, 2⟩
  else none

/-- Stands for bytes that are no character. -/
def replacement : Char := '\uFFFD'

/-- Reads the byte that must lie between `low` and `high`, then `further` continuation bytes, onto the
    share `acc` read so far. The bytes behind the character are returned, or, if a byte does not fit, that
    byte and all behind it. -/
def continuation (acc : Nat) (low high : UInt8) (further : Nat) : List UInt8 → Option Char × List UInt8
  | [] => (none, [])
  | b :: rest =>
    if low ≤ b ∧ b ≤ high then
      let acc := acc * 64 + (b.toNat - 0x80)
      match further with
      | 0 => (some (Char.ofNat acc), rest)
      | n + 1 => continuation acc 0x80 0xBF n rest
    else (none, b :: rest)

theorem continuation_length_le {acc : Nat} {low high : UInt8} {further : Nat} {bytes : List UInt8} :
    (continuation acc low high further bytes).2.length ≤ bytes.length := by
  induction bytes generalizing acc low high further with
  | nil => simp [continuation]
  | cons b rest ih =>
    unfold continuation
    split
    · cases further with
      | zero => simp
      | succ n => exact Nat.le_succ_of_le ih
    · simp

/-- The character that the bytes behind its first complete, and what stands behind it. -/
def Lead.read (lead : Lead) (bytes : List UInt8) : Option Char × List UInt8 :=
  continuation lead.share lead.low lead.high lead.further bytes

theorem Lead.length_read_le (lead : Lead) (bytes : List UInt8) :
    (lead.read bytes).2.length ≤ bytes.length :=
  continuation_length_le

def decodeLossy : List UInt8 → List Char
  | [] => []
  | b :: rest =>
    if b < 0x80 then Char.ofNat b.toNat :: decodeLossy rest
    else match Lead.of? b with
      | none => replacement :: decodeLossy rest
      | some lead =>
        have := lead.length_read_le rest
        (lead.read rest).1.getD replacement :: decodeLossy (lead.read rest).2
termination_by bytes => bytes.length

end Orator.Text

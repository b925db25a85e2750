import Mathlib.Algebra.Group.Int.Defs
import Mathlib.Algebra.Group.Nat.Defs
import StageHost.PackedWord
/-
  Two numbers in one word lose nothing.
  A packed word is 2^32 times its upper half, read with its sign, plus its lower half, read
  without (`toInt_pack`). The upper half of any word is its quotient by 2^32, rounded down
  (`toInt_high`), and the lower half its remainder (`toNat_low`): the sign of one half never reaches
  the other. `halves_of_word` says what the three decoders find in a packed word and in any word.
-/
namespace StageHost.PackedWord

/-! ## Words and halves as numbers -/

theorem toInt_word (w : Int64) :
    w.toInt = if w.toUInt64.toNat < 2 ^ 63 then (w.toUInt64.toNat : Int)
      else (w.toUInt64.toNat : Int) - 2 ^ 64 := by
  have hval := BitVec.toInt_eq_toNat_cond w.toBitVec
  rw [Int64.toInt_toBitVec, Int64.toNat_toBitVec] at hval
  rw [hval]
  split <;> split <;> omega

theorem toInt_half (n : Int32) :
    n.toInt = if n.toUInt32.toNat < 2 ^ 31 then (n.toUInt32.toNat : Int)
      else (n.toUInt32.toNat : Int) - 2 ^ 32 := by
  have hval := BitVec.toInt_eq_toNat_cond n.toBitVec
  rw [Int32.toInt_toBitVec, Int32.toNat_toBitVec] at hval
  rw [hval]
  split <;> split <;> omega

/-- Without its sign, a half is a remainder. -/
theorem toNat_half (n : Int32) : (n.toUInt32.toNat : Int) = n.toInt % 2 ^ 32 := by
  have hlt := n.toUInt32.toNat_lt
  rw [toInt_half]
  split <;> omega

/-! ## The halves of a word -/

theorem toInt_high (w : Int64) : (high w).toInt = w.toInt / 2 ^ 32 := by
  have hlt := w.toUInt64.toNat_lt
  have hhigh : (high w).toUInt32.toNat = w.toUInt64.toNat / 2 ^ 32 := by
    unfold high
    rw [UInt32.toUInt32_toInt32, UInt64.toNat_toUInt32, UInt64.toNat_shiftRight,
      Nat.shiftRight_eq_div_pow]
    show w.toUInt64.toNat / 2 ^ 32 % 2 ^ 32 = _
    omega
  rw [toInt_half, toInt_word, hhigh]
  split <;> split <;> omega

theorem toNat_low (w : Int64) : ((low w).toUInt32.toNat : Int) = w.toInt % 2 ^ 32 := by
  have hlow : (low w).toUInt32.toNat = w.toUInt64.toNat % 2 ^ 32 := by
    unfold low
    rw [UInt32.toUInt32_toInt32, UInt64.toNat_toUInt32]
  rw [toInt_word, hlow]
  split <;> omega

/-- The upper half is what a shift brings down that copies the sign. -/
theorem high_eq_toInt32 (w : Int64) : high w = (w >>> 32).toInt32 := by
  have hlt := w.toInt_lt
  have hle := w.le_toInt
  have hshift : (w >>> 32).toInt = w.toInt / 2 ^ 32 := by
    rw [← Int64.toInt_toBitVec, Int64.toBitVec_shiftRight]
    show (w.toBitVec.sshiftRight 32).toInt = _
    rw [BitVec.toInt_sshiftRight, Int64.toInt_toBitVec, Int.shiftRight_eq_div_pow]
    rfl
  rw [← Int32.toInt_inj, toInt_high, Int64.toInt_toInt32, hshift, Int.bmod_def]
  split <;> omega

theorem low_eq_toInt32 (w : Int64) : low w = w.toInt32 := by
  have hlow := toNat_low w
  rw [← Int32.toInt_inj, Int64.toInt_toInt32, toInt_half, Int.bmod_def]
  split <;> split <;> omega

/-! ## Packed words -/

theorem toInt_pack (h l : Int32) :
    (pack h l).toInt = h.toInt * 2 ^ 32 + (l.toUInt32.toNat : Int) := by
  have hh := h.toUInt32.toNat_lt
  have hl := l.toUInt32.toNat_lt
  have hshift : (h.toUInt32.toUInt64 <<< 32).toNat = h.toUInt32.toNat <<< 32 := by
    rw [UInt64.toNat_shiftLeft, UInt32.toNat_toUInt64, Nat.shiftLeft_eq]
    show h.toUInt32.toNat * 2 ^ 32 % 2 ^ 64 = _
    rw [Nat.shiftLeft_eq]
    omega
  have hpack : (pack h l).toUInt64.toNat = h.toUInt32.toNat * 2 ^ 32 + l.toUInt32.toNat := by
    unfold pack
    rw [UInt64.toUInt64_toInt64, UInt64.toNat_or, UInt32.toNat_toUInt64, hshift,
      ← Nat.shiftLeft_add_eq_or_of_lt hl, Nat.shiftLeft_eq]
  rw [toInt_half, toInt_word, hpack]
  split <;> split <;> omega

/-- Shifted up by half a word, a half loses the copies of its sign. -/
theorem shiftLeft_signExtend (x : BitVec 32) :
    x.signExtend 64 <<< (32 : Nat) = x.setWidth 64 <<< (32 : Nat) := by
  apply BitVec.eq_of_getLsbD_eq
  intro i hi
  rw [BitVec.getLsbD_shiftLeft, BitVec.getLsbD_shiftLeft, BitVec.getLsbD_signExtend,
    BitVec.getLsbD_setWidth]
  by_cases h32 : i < 32
  · simp only [h32, decide_true, Bool.not_true, Bool.and_false, Bool.false_and]
  · rw [if_pos (show i - 32 < 32 by omega)]

/-- A word may be packed with the sign of its upper half extended, but not that of the lower. -/
theorem pack_eq_or (h l : Int32) :
    pack h l = h.toInt64 <<< 32 ||| l.toUInt32.toUInt64.toInt64 := by
  have hhigh : h.toUInt32.toUInt64.toBitVec <<< (32 : Nat) =
      h.toInt64.toBitVec <<< (32 : Nat) := by
    rw [Int32.toBitVec_toInt64, shiftLeft_signExtend]
    rfl
  rw [← Int64.toBitVec_inj, Int64.toBitVec_or, Int64.toBitVec_shiftLeft]
  exact congrArg (· ||| l.toUInt32.toUInt64.toBitVec) hhigh

theorem high_pack (h l : Int32) : high (pack h l) = h := by
  have hl := l.toUInt32.toNat_lt
  rw [← Int32.toInt_inj, toInt_high, toInt_pack]
  omega

theorem low_pack (h l : Int32) : low (pack h l) = l := by
  have hl := l.toUInt32.toNat_lt
  have hlow := toNat_low (pack h l)
  rw [toInt_pack] at hlow
  rw [← Int32.toInt_inj, toInt_half, toInt_half,
    show (low (pack h l)).toUInt32.toNat = l.toUInt32.toNat by omega]

theorem pack_high_low (w : Int64) : pack (high w) (low w) = w := by
  rw [← Int64.toInt_inj, toInt_pack, toInt_high, toNat_low]
  omega

/-- What the decoders find in a word. In a packed word each finds the two numbers that were packed,
whatever their signs: a score and a code, the mode of the upper number and a code, or a code and
the lower number without its sign as a time. Any word at all is packed of the two numbers found in
it. The decoders agree on the halves, which are the quotient and the remainder of the word by 2^32
and are the same if the word is shifted with its sign and packed with that of the upper number. -/
theorem halves_of_word :
    (∀ h l : Int32,
      score (pack h l) = (h, l) ∧
      postFilter (pack h l) = (if h = 1 then .override else .noop, l) ∧
      (permit (pack h l)).1 = h ∧ ((permit (pack h l)).2 : Int) = l.toInt % 2 ^ 32 ∧
      (permit (pack h l)).2 < 2 ^ 32 ∧
      pack h l = h.toInt64 <<< 32 ||| l.toUInt32.toUInt64.toInt64) ∧
    ∀ w : Int64,
      pack (score w).1 (score w).2 = w ∧
      (score w).1.toInt = w.toInt / 2 ^ 32 ∧
      ((score w).2.toUInt32.toNat : Int) = w.toInt % 2 ^ 32 ∧
      score w = ((w >>> 32).toInt32, w.toInt32) ∧
      postFilter w = (if (score w).1 = 1 then .override else .noop, (score w).2) ∧
      permit w = ((score w).1, (score w).2.toUInt32.toNat) := by
  refine ⟨fun h l => ?_, fun w => ?_⟩
  · have hhigh := high_pack h l
    have hlow := low_pack h l
    refine ⟨by rw [score, hhigh, hlow], by rw [postFilter, hhigh, hlow]; rfl, hhigh, ?_, ?_,
      pack_eq_or h l⟩
    · rw [permit, hlow]
      exact toNat_half l
    · exact (low (pack h l)).toUInt32.toNat_lt
  · refine ⟨pack_high_low w, toInt_high w, toNat_low w, ?_, rfl, rfl⟩
    rw [score, high_eq_toInt32, low_eq_toInt32]

example : permit (pack (-5) (-1)) = (-5, 4294967295) := by decide

end StageHost.PackedWord

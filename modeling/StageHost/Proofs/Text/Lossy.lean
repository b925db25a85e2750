import Mathlib.Algebra.Group.Nat.Defs
import Mathlib.Tactic.SplitIfs
import StageHost.Proofs.Text.Utf8
/-
  Arbitrary bytes read as text.
  What a begun sequence can end in lies between two bounds, which the bytes after it only bring
  closer to each other (`Pending.Sound.next`). The first-byte table leaves zero, surrogates and
  values above U+10FFFF outside them (`sound_of_lead`). So lossy reading makes a zero character of
  a zero byte only (`zero_of_mem_lossy`), and it makes something of whatever there is to read
  (`lossy_eq_empty`).
-/
namespace StageHost.Utf8

/-- The least value that a begun sequence can end in. -/
def Pending.first (p : Pending) : Nat :=
  (p.bits * 64 + (p.low.toNat - 0x80)) * 64 ^ p.more

/-- The value after the greatest one that a begun sequence can end in. -/
def Pending.past (p : Pending) : Nat :=
  (p.bits * 64 + (p.high.toNat - 0x80) + 1) * 64 ^ p.more

/-- Whether a begun sequence can only end in scalar values other than zero. -/
structure Pending.Sound (p : Pending) : Prop where
  continues : 0x80 ≤ p.low.toNat
  first_pos : 0 < p.first
  scalar : p.past ≤ 0xD800 ∨ 0xE000 ≤ p.first ∧ p.past ≤ 0x110000

theorem sound_of_lead {b : UInt8} {p : Pending} (h : lead b = .opens p) : p.Sound := by
  rw [lead_eq] at h
  split_ifs at h <;> cases h <;> constructor <;>
    simp only [Pending.first, Pending.past, UInt8.reduceToNat] <;> omega

/-- The value of a byte that may come next lies between the bounds. -/
theorem Pending.Sound.next {p : Pending} (hp : p.Sound) {b : UInt8} (hl : p.low ≤ b)
    (hh : b ≤ p.high) {n : Nat} (hn : p.more = n + 1) :
    Pending.Sound ⟨0x80, 0xBF, n, p.bits * 64 + (b.toNat - 0x80)⟩ := by
  obtain ⟨hcont, hpos, hscalar⟩ := hp
  rw [UInt8.le_iff_toNat_le] at hl hh
  have hfirst : p.first ≤ (p.bits * 64 + (b.toNat - 0x80)) * 64 * 64 ^ n := by
    rw [first, hn, Nat.pow_succ', ← Nat.mul_assoc]
    exact Nat.mul_le_mul_right _ (by omega)
  have hpast : ((p.bits * 64 + (b.toNat - 0x80)) * 64 + 64) * 64 ^ n ≤ p.past := by
    rw [past, hn, Nat.pow_succ', ← Nat.mul_assoc]
    exact Nat.mul_le_mul_right _ (by omega)
  constructor <;> simp only [first, past, UInt8.reduceToNat, Nat.reduceSub, Nat.add_zero,
    Nat.add_assoc, Nat.reduceAdd] <;> omega

/-- The last byte of a sound sequence gives a character other than zero. -/
theorem Pending.Sound.last {p : Pending} (hp : p.Sound) {b : UInt8} (hl : p.low ≤ b)
    (hh : b ≤ p.high) (hn : p.more = 0) :
    Char.ofNat (p.bits * 64 + (b.toNat - 0x80)) ≠ '\x00' := by
  obtain ⟨hcont, hpos, hscalar⟩ := hp
  rw [UInt8.le_iff_toNat_le] at hl hh
  rw [first, hn] at hpos hscalar
  rw [past, hn] at hscalar
  have hvalid : (p.bits * 64 + (b.toNat - 0x80)).isValidChar := by
    unfold Nat.isValidChar
    omega
  intro hzero
  have hval : p.bits * 64 + (b.toNat - 0x80) = 0 := by
    rw [← toNat_charOfNat hvalid, hzero]
    rfl
  omega

theorem eq_zero_of_lead {b : UInt8} (h : lead b = .single '\x00') : b = 0 := by
  rw [lead_eq] at h
  split_ifs at h with hlt
  have hvalid : b.toNat.isValidChar := .inl (by omega)
  rw [← UInt8.toNat_inj, ← toNat_charOfNat hvalid, Lead.single.inj h]
  rfl

theorem sound_none : ∀ p ∈ (none : Option Pending), p.Sound := fun _ h => nomatch h

/-- A zero character is read of a zero byte only. -/
theorem zero_of_mem_scan {o : Option Pending} {bytes : List UInt8} (ho : ∀ p ∈ o, p.Sound)
    (h : some '\x00' ∈ scan o bytes) : 0 ∈ bytes := by
  fun_induction scan o bytes with
  | case1 => cases h
  | case2 p => simp at h
  | case3 b bs c hlead ih =>
    obtain rfl | h : '\x00' = c ∨ some '\x00' ∈ scan none bs := by simpa using h
    · exact List.mem_cons.2 (.inl (eq_zero_of_lead hlead).symm)
    · exact List.mem_cons_of_mem _ (ih sound_none h)
  | case4 b bs p hlead ih =>
    exact List.mem_cons_of_mem _ (ih (by simpa using sound_of_lead hlead) h)
  | case5 b bs hlead ih =>
    exact List.mem_cons_of_mem _ (ih sound_none (by simpa using h))
  | case6 p b bs hin bits hmore ih =>
    have hp := ho p rfl
    obtain hc | h : '\x00' = Char.ofNat bits ∨ some '\x00' ∈ scan none bs := by simpa using h
    · exact absurd hc.symm (hp.last hin.1 hin.2 hmore)
    · exact List.mem_cons_of_mem _ (ih sound_none h)
  | case7 p b bs hin bits n hmore ih =>
    have hnext := (ho p rfl).next hin.1 hin.2 hmore
    exact List.mem_cons_of_mem _ (ih (by simpa using hnext) h)
  | case8 p b bs hout c hlead ih =>
    obtain rfl | h : '\x00' = c ∨ some '\x00' ∈ scan none bs := by simpa using h
    · exact List.mem_cons.2 (.inl (eq_zero_of_lead hlead).symm)
    · exact List.mem_cons_of_mem _ (ih sound_none h)
  | case9 p b bs hout p' hlead ih =>
    have h : some '\x00' ∈ scan (some p') bs := by simpa using h
    exact List.mem_cons_of_mem _ (ih (by simpa using sound_of_lead hlead) h)
  | case10 p b bs hout hlead ih =>
    exact List.mem_cons_of_mem _ (ih sound_none (by simpa using h))

/-- Lossy reading makes a zero character of a zero byte only. -/
theorem zero_of_mem_lossy {bytes : List UInt8} (h : '\x00' ∈ (lossy bytes).toList) : 0 ∈ bytes := by
  unfold lossy at h
  rw [String.toList_ofList] at h
  obtain ⟨o, ho, hzero⟩ := List.mem_map.1 h
  obtain rfl : o = some '\x00' := by
    cases o with
    | none => exact absurd hzero (by decide)
    | some c => exact congrArg some hzero
  exact zero_of_mem_scan sound_none ho

/-- A begun sequence is read as something, whatever comes after it. -/
theorem scan_some_ne_nil (p : Pending) (bytes : List UInt8) : scan (some p) bytes ≠ [] := by
  induction bytes generalizing p with
  | nil => exact List.cons_ne_nil _ _
  | cons b bs ih =>
    rw [scan]
    split
    · dsimp only
      split
      · exact List.cons_ne_nil _ _
      · exact ih _
    · split <;> exact List.cons_ne_nil _ _

/-- Lossy reading makes something of every byte. -/
theorem lossy_eq_empty {bytes : List UInt8} : lossy bytes = "" ↔ bytes = [] := by
  constructor
  · intro h
    have hscan : scan none bytes = [] := by
      unfold lossy at h
      simpa using h
    cases bytes with
    | nil => rfl
    | cons b bs =>
      rw [scan] at hscan
      split at hscan
      · cases hscan
      · exact absurd hscan (scan_some_ne_nil _ bs)
      · cases hscan
  · rintro rfl
    rfl

end StageHost.Utf8

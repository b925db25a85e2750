import StageHost.Json.Reader
import StageHost.Proofs.Text.Utf8
/-
  Whole numbers that are written and read back.
  The last digit comes off the end of a numeral (`writeNat_eq`). So a numeral consists of digits,
  has no leading zero, and is worth its number (`numeral_writeNat`). The reader takes all of it
  and no more as long as what follows cannot be part of a number (`Ended`,
  `readLiteral_writeInt`), and the value is the number again if 64 bits hold it (`value_of_fits`).
-/
namespace StageHost.Json

/-- What may follow a value: nothing, a comma or a closing bracket. -/
inductive Ended : List UInt8 → Prop
  | nothing : Ended []
  | mark {b : UInt8} (h : b ∈ [44, 93, 125]) (rest : List UInt8) : Ended (b :: rest)

/-! ## Numerals -/

/-- Whether some bytes are the digits of a number. -/
structure Numeral (n : Nat) (bytes : List UInt8) : Prop where
  digits : ∀ b ∈ bytes, isDigit b
  value : ofDigits bytes = n
  /-- There is a first digit, which is not zero unless it is the only one. -/
  leading : ∃ b rest, bytes = b :: rest ∧ (b = 48 → rest = [])

/-- A digit as it is written. -/
def digit (n : Nat) : UInt8 := UInt8.ofNat (48 + n)

theorem writeNat_eq (n : Nat) :
    writeNat n = (if n < 10 then [] else writeNat (n / 10)) ++ [digit (n % 10)] := by
  have hchar : ∀ d < 10, UInt8.ofNat (Nat.digitChar d).toNat = digit d := by decide
  unfold writeNat
  rw [Nat.toDigits_eq_if (by decide)]
  split
  · rename_i hn
    rw [Nat.mod_eq_of_lt hn, List.map_singleton, hchar n hn]
    rfl
  · rw [List.map_append, List.map_singleton, hchar _ (Nat.mod_lt n (by decide))]

theorem isDigit_digit : ∀ n < 10, isDigit (digit n) := by decide

theorem toNat_digit {n : Nat} (h : n < 10) : (digit n).toNat = 48 + n :=
  Utf8.toNat_ofNat (by omega)

theorem ofDigits_snoc (bytes : List UInt8) {n : Nat} (h : n < 10) :
    ofDigits (bytes ++ [digit n]) = ofDigits bytes * 10 + n := by
  unfold ofDigits
  rw [List.foldl_append, List.foldl_cons, List.foldl_nil, toNat_digit h, Nat.add_sub_cancel_left]

theorem numeral_writeNat (n : Nat) : Numeral n (writeNat n) := by
  induction n using Nat.strongRecOn with
  | ind n ih =>
    have hlast : n % 10 < 10 := Nat.mod_lt n (by decide)
    rw [writeNat_eq]
    by_cases hn : n < 10
    · rw [if_pos hn]
      refine ⟨?_, ?_, digit (n % 10), [], rfl, fun _ => rfl⟩
      · simpa using isDigit_digit _ hlast
      · rw [ofDigits_snoc _ hlast, Nat.mod_eq_of_lt hn]
        exact Nat.zero_add n
    · rw [if_neg hn]
      obtain ⟨hdigits, hvalue, b, rest, hbytes, hzero⟩ := ih (n / 10) (by omega)
      refine ⟨?_, ?_, b, rest ++ [digit (n % 10)], by rw [hbytes]; rfl, fun hb => ?_⟩
      · intro b hb
        obtain hb | rfl : b ∈ writeNat (n / 10) ∨ b = digit (n % 10) := by simpa using hb
        · exact hdigits b hb
        · exact isDigit_digit _ hlast
      · rw [ofDigits_snoc _ hlast, hvalue]
        omega
      · -- the digits before the last one are worth more than nothing
        rw [hbytes, hzero hb, hb] at hvalue
        have hvalue : 0 = n / 10 := hvalue
        omega

/-! ## Reading -/

theorem isDigit_of_ended {b : UInt8} {rest : List UInt8} (h : Ended (b :: rest)) :
    isDigit b = false := by
  cases h with
  | mark h =>
    simp only [List.mem_cons, List.not_mem_nil, or_false] at h
    obtain rfl | rfl | rfl := h <;> rfl

theorem spanDigits_append {digits rest : List UInt8} (h : ∀ b ∈ digits, isDigit b)
    (hrest : Ended rest) : spanDigits (digits ++ rest) = (digits, rest) := by
  have hstop : rest.takeWhile isDigit = [] ∧ rest.dropWhile isDigit = rest := by
    cases rest with
    | nil => exact ⟨rfl, rfl⟩
    | cons b rest =>
      have hb := isDigit_of_ended hrest
      simp [hb]
  unfold spanDigits
  rw [List.takeWhile_append_of_pos h, List.dropWhile_append_of_pos h, hstop.1, hstop.2,
    List.append_nil]

theorem readFraction_of_ended {rest : List UInt8} (h : Ended rest) :
    readFraction rest = some (none, rest) := by
  cases h with
  | nothing => rfl
  | mark h rest =>
    simp only [List.mem_cons, List.not_mem_nil, or_false] at h
    obtain rfl | rfl | rfl := h <;> rfl

theorem readExponent_of_ended {rest : List UInt8} (h : Ended rest) :
    readExponent rest = some (none, rest) := by
  cases h with
  | nothing => rfl
  | mark h rest =>
    simp only [List.mem_cons, List.not_mem_nil, or_false] at h
    rw [readExponent.eq_def]
    obtain rfl | rfl | rfl := h <;> rfl

/-- A sign or none, and what follows. -/
def splitSign : List UInt8 → Bool × List UInt8
  | 45 :: rest => (true, rest)
  | rest => (false, rest)

theorem splitSign_of_isDigit {b : UInt8} (h : isDigit b) (rest : List UInt8) :
    splitSign (b :: rest) = (false, b :: rest) := by
  have hb : b ≠ 45 := by
    rintro rfl
    cases h
  simp [splitSign, hb]

/-- A numeral after its sign is read up to its end. -/
theorem readLiteral_of_sign {n : Nat} {bytes digits rest : List UInt8} {negative : Bool}
    (hsign : splitSign bytes = (negative, digits ++ rest)) (hn : Numeral n digits)
    (h : Ended rest) : readLiteral bytes = some (⟨negative, digits, none, none⟩, rest) := by
  obtain ⟨hdigits, -, b, tail, hbytes, hzero⟩ := hn
  have hspan := spanDigits_append hdigits h
  fun_cases readLiteral bytes with
  | case1 negative' after hsign' rest' hspan' =>
    cases hsign.symm.trans hsign'
    cases hspan.symm.trans hspan'
    cases hbytes
  | case2 negative' after hsign' rest' d ds hspan' =>
    cases hsign.symm.trans hsign'
    cases hspan.symm.trans hspan'
    cases hbytes
    cases hzero rfl
  | case3 negative' after hsign' digits' rest' hspan' =>
    cases hsign.symm.trans hsign'
    cases hspan.symm.trans hspan'
    rw [readFraction_of_ended h]
    simp [readExponent_of_ended h]

theorem readLiteral_writeInt (n : Int) {rest : List UInt8} (h : Ended rest) :
    readLiteral (writeInt n ++ rest) =
      some (⟨decide (n < 0), writeNat n.natAbs, none, none⟩, rest) := by
  have hnumeral := numeral_writeNat n.natAbs
  refine readLiteral_of_sign ?_ hnumeral h
  unfold writeInt
  by_cases hn : n < 0
  · rw [if_pos hn, decide_eq_true hn]
    rfl
  · obtain ⟨b, tail, hbytes, -⟩ := hnumeral.leading
    have hb : isDigit b := hnumeral.digits b (hbytes ▸ List.mem_cons_self)
    rw [if_neg hn, decide_eq_false hn, hbytes]
    exact splitSign_of_isDigit hb _

theorem value_of_fits {n : Int} (h : fits n) :
    (Literal.mk (decide (n < 0)) (writeNat n.natAbs) none none).value = .integer n := by
  have hvalue := (numeral_writeNat n.natAbs).value
  have hsigned : (if decide (n < 0) = true then -(n.natAbs : Int) else n.natAbs) = n := by
    simp only [decide_eq_true_eq]
    split <;> omega
  have hzero : ¬ (decide (n < 0) = true ∧ n.natAbs = 0) := by
    simp only [decide_eq_true_eq]
    omega
  unfold Literal.value
  dsimp only
  rw [hvalue, hsigned, if_pos ⟨rfl, rfl, h, hzero⟩]

/-! ## Bytes -/

theorem bounds_of_isDigit {b : UInt8} (h : isDigit b) : 48 ≤ b.toNat ∧ b.toNat ≤ 57 := by
  have h : 48 ≤ b ∧ b ≤ 57 := by simpa [isDigit] using h
  exact ⟨UInt8.le_iff_toNat_le.1 h.1, UInt8.le_iff_toNat_le.1 h.2⟩

theorem writeInt_eq_cons (n : Int) :
    ∃ b rest, writeInt n = b :: rest ∧ (b = 45 ∨ isDigit b) := by
  obtain ⟨hdigits, -, b, tail, hbytes, -⟩ := numeral_writeNat n.natAbs
  unfold writeInt
  split
  · exact ⟨45, _, rfl, .inl rfl⟩
  · exact ⟨b, tail, hbytes, .inr (hdigits b (hbytes ▸ List.mem_cons_self))⟩

theorem wellFormed_writeInt (n : Int) : Utf8.WellFormed (writeInt n) := by
  have hdigits : ∀ b ∈ writeNat n.natAbs, b.toNat < 0x80 := fun b hb => by
    have hbounds := bounds_of_isDigit ((numeral_writeNat n.natAbs).digits b hb)
    omega
  refine Utf8.wellFormed_of_ascii fun b hb => ?_
  unfold writeInt at hb
  split at hb
  · obtain rfl | hb := List.mem_cons.1 hb
    · decide
    · exact hdigits b hb
  · exact hdigits b hb

end StageHost.Json

import StageHost.Text.Utf8
/-
  Text that is written as UTF-8 and read back.
  The first byte of a character says how many bytes follow, which range the next one is in, and
  which bits it adds itself (`lead_of_two`, `lead_of_three`, `lead_of_four`). So the bytes of a
  character read as that character, whatever comes after them (`scan_encodeChar`), and lossy reading
  loses nothing of a text (`lossy_encode`). A zero byte comes of the zero character only
  (`zero_mem_encode`). Bytes that are put together of texts and ASCII are well formed
  (`WellFormed.append`, `wellFormed_of_ascii`).
-/
namespace StageHost.Utf8

/-! ## First bytes -/

/-- The first-byte table by the values of bytes. -/
theorem lead_eq (b : UInt8) : lead b =
    if b.toNat < 0x80 then .single (Char.ofNat b.toNat)
    else if b.toNat < 0xC2 then .stray
    else if b.toNat < 0xE0 then .opens ⟨0x80, 0xBF, 0, b.toNat - 0xC0⟩
    else if b.toNat = 0xE0 then .opens ⟨0xA0, 0xBF, 1, 0⟩
    else if b.toNat = 0xED then .opens ⟨0x80, 0x9F, 1, 0xD⟩
    else if b.toNat < 0xF0 then .opens ⟨0x80, 0xBF, 1, b.toNat - 0xE0⟩
    else if b.toNat = 0xF0 then .opens ⟨0x90, 0xBF, 2, 0⟩
    else if b.toNat < 0xF4 then .opens ⟨0x80, 0xBF, 2, b.toNat - 0xF0⟩
    else if b.toNat = 0xF4 then .opens ⟨0x80, 0x8F, 2, 4⟩
    else .stray := by
  simp only [lead, UInt8.lt_iff_toNat_lt, ← UInt8.toNat_inj, UInt8.reduceToNat]

theorem lead_of_two {b : UInt8} (hl : 0xC2 ≤ b.toNat) (hh : b.toNat < 0xE0) :
    lead b = .opens ⟨0x80, 0xBF, 0, b.toNat - 0xC0⟩ := by
  rw [lead_eq, if_neg (by omega), if_neg (by omega), if_pos hh]

theorem lead_of_three {b : UInt8} (hl : 0xE0 ≤ b.toNat) (hh : b.toNat < 0xF0) :
    lead b = .opens ⟨if b.toNat = 0xE0 then 0xA0 else 0x80,
      if b.toNat = 0xED then 0x9F else 0xBF, 1, b.toNat - 0xE0⟩ := by
  rw [lead_eq, if_neg (by omega), if_neg (by omega), if_neg (by omega)]
  by_cases h0 : b.toNat = 0xE0
  · simp [h0]
  · by_cases hd : b.toNat = 0xED
    · simp [hd]
    · simp [h0, hd, hh]

theorem lead_of_four {b : UInt8} (hl : 0xF0 ≤ b.toNat) (hh : b.toNat ≤ 0xF4) :
    lead b = .opens ⟨if b.toNat = 0xF0 then 0x90 else 0x80,
      if b.toNat = 0xF4 then 0x8F else 0xBF, 2, b.toNat - 0xF0⟩ := by
  rw [lead_eq, if_neg (by omega), if_neg (by omega), if_neg (by omega), if_neg (by omega),
    if_neg (by omega), if_neg (by omega)]
  by_cases h0 : b.toNat = 0xF0
  · simp [h0]
  · by_cases h4 : b.toNat = 0xF4
    · simp [h4]
    · simp [h0, h4, show b.toNat < 0xF4 by omega]

/-! ## Characters -/

theorem scan_opens {b : UInt8} {p : Pending} (h : lead b = .opens p) (bs : List UInt8) :
    scan none (b :: bs) = scan (some p) bs := by
  rw [scan, h]

/-- The last byte of a character. -/
theorem scan_last {low high b : UInt8} (hl : low ≤ b) (hh : b ≤ high) (bits : Nat)
    (bs : List UInt8) :
    scan (some ⟨low, high, 0, bits⟩) (b :: bs) =
      some (Char.ofNat (bits * 64 + (b.toNat - 0x80))) :: scan none bs := by
  rw [scan, if_pos ⟨hl, hh⟩]

/-- A byte of a character that has more. -/
theorem scan_more {low high b : UInt8} (hl : low ≤ b) (hh : b ≤ high) (more bits : Nat)
    (bs : List UInt8) :
    scan (some ⟨low, high, more + 1, bits⟩) (b :: bs) =
      scan (some ⟨0x80, 0xBF, more, bits * 64 + (b.toNat - 0x80)⟩) bs := by
  rw [scan, if_pos ⟨hl, hh⟩]

theorem toNat_ofNat {n : Nat} (h : n < 256) : (UInt8.ofNat n).toNat = n := by
  simp [Nat.mod_eq_of_lt h]

/-- A byte with six bits of a character, which is in any range that its value is in. -/
theorem toNat_tail (n : Nat) : (UInt8.ofNat (n % 64 + 0x80)).toNat = n % 64 + 0x80 :=
  toNat_ofNat (by omega)

theorem tail_bounds (n : Nat) :
    0x80 ≤ UInt8.ofNat (n % 64 + 0x80) ∧ UInt8.ofNat (n % 64 + 0x80) ≤ 0xBF := by
  rw [UInt8.le_iff_toNat_le, UInt8.le_iff_toNat_le, toNat_tail]
  simp only [UInt8.reduceToNat]
  omega

/-- The bytes of a character read as the character. -/
theorem scan_encodeChar (c : Char) (rest : List UInt8) :
    scan none (String.utf8EncodeChar c ++ rest) = some c :: scan none rest := by
  have hchar : Char.ofNat c.val.toNat = c := Char.ofNat_toNat c
  have hvalid : c.val.toNat < 0xD800 ∨ 0xDFFF < c.val.toNat ∧ c.val.toNat < 0x110000 := c.valid
  obtain ⟨v, hv⟩ : ∃ v, v = c.val.toNat := ⟨_, rfl⟩
  unfold String.utf8EncodeChar
  dsimp only
  rw [← hv] at hchar hvalid ⊢
  split
  · have hb : (UInt8.ofNat v).toNat = v := toNat_ofNat (by omega)
    rw [List.singleton_append, scan, lead_eq, hb, if_pos (by omega), hchar]
  · obtain ⟨hl, hh⟩ := tail_bounds v
    split
    · have hb : (UInt8.ofNat (v / 64 % 0x20 + 0xc0)).toNat = v / 64 + 0xC0 := by
        rw [toNat_ofNat (by omega)]
        omega
      rw [List.cons_append, List.singleton_append,
        scan_opens (lead_of_two (by omega) (by omega)), hb, scan_last hl hh, toNat_tail,
        show (v / 64 + 0xC0 - 0xC0) * 64 + (v % 64 + 0x80 - 0x80) = v by omega, hchar]
    · split
      · have hb : (UInt8.ofNat (v / 4096 % 0x10 + 0xe0)).toNat = v / 4096 + 0xE0 := by
          rw [toNat_ofNat (by omega)]
          omega
        -- no overlong form, no surrogate
        have hlow : (if v / 4096 + 0xE0 = 0xE0 then 0xA0 else 0x80) ≤
            UInt8.ofNat (v / 64 % 64 + 0x80) := by
          rw [UInt8.le_iff_toNat_le, toNat_tail]
          split <;> simp only [UInt8.reduceToNat] <;> omega
        have hhigh : UInt8.ofNat (v / 64 % 64 + 0x80) ≤
            if v / 4096 + 0xE0 = 0xED then 0x9F else 0xBF := by
          rw [UInt8.le_iff_toNat_le, toNat_tail]
          split <;> simp only [UInt8.reduceToNat] <;> omega
        rw [List.cons_append, List.cons_append, List.singleton_append,
          scan_opens (lead_of_three (by omega) (by omega)), hb, scan_more hlow hhigh,
          scan_last hl hh, toNat_tail, toNat_tail,
          show ((v / 4096 + 0xE0 - 0xE0) * 64 + (v / 64 % 64 + 0x80 - 0x80)) * 64 +
            (v % 64 + 0x80 - 0x80) = v by omega, hchar]
      · have hb : (UInt8.ofNat (v / 262144 % 0x08 + 0xf0)).toNat = v / 262144 + 0xF0 := by
          rw [toNat_ofNat (by omega)]
          omega
        -- no overlong form, nothing above U+10FFFF
        have hlow : (if v / 262144 + 0xF0 = 0xF0 then 0x90 else 0x80) ≤
            UInt8.ofNat (v / 4096 % 64 + 0x80) := by
          rw [UInt8.le_iff_toNat_le, toNat_tail]
          split <;> simp only [UInt8.reduceToNat] <;> omega
        have hhigh : UInt8.ofNat (v / 4096 % 64 + 0x80) ≤
            if v / 262144 + 0xF0 = 0xF4 then 0x8F else 0xBF := by
          rw [UInt8.le_iff_toNat_le, toNat_tail]
          split <;> simp only [UInt8.reduceToNat] <;> omega
        obtain ⟨hl2, hh2⟩ := tail_bounds (v / 64)
        rw [List.cons_append, List.cons_append, List.cons_append, List.singleton_append,
          scan_opens (lead_of_four (by omega) (by omega)), hb, scan_more hlow hhigh,
          scan_more hl2 hh2, scan_last hl hh, toNat_tail, toNat_tail, toNat_tail,
          show (((v / 262144 + 0xF0 - 0xF0) * 64 + (v / 4096 % 64 + 0x80 - 0x80)) * 64 +
            (v / 64 % 64 + 0x80 - 0x80)) * 64 + (v % 64 + 0x80 - 0x80) = v by omega, hchar]

/-! ## Texts -/

theorem scan_encode (s : String) : scan none (encode s) = s.toList.map some := by
  unfold encode
  induction s.toList with
  | nil => rfl
  | cons c cs ih => rw [List.flatMap_cons, scan_encodeChar, ih, List.map_cons]

/-- Lossy reading loses nothing of a text. -/
theorem lossy_encode (s : String) : lossy (encode s) = s := by
  unfold lossy
  rw [scan_encode, List.map_map]
  have hid : (fun o : Option Char => o.getD '\uFFFD') ∘ some = id := rfl
  rw [hid, List.map_id, String.ofList_toList]

/-- Strict reading refuses no text. -/
theorem decode?_encode (s : String) : decode? (encode s) = some s := by
  have hread : (s.toList.map some).mapM id = some s.toList := by
    rw [List.mapM_map]
    exact List.mapM_pure.trans (congrArg some (List.map_id _))
  unfold decode?
  rw [scan_encode, hread, Option.map_some, String.ofList_toList]

/-- A zero byte comes of the zero character only. -/
theorem zero_mem_encodeChar {c : Char} : 0 ∈ String.utf8EncodeChar c ↔ c = '\x00' := by
  constructor
  · intro h
    have hzero : ∀ n : Nat, n < 256 → (0 = UInt8.ofNat n ↔ n = 0) := fun n hn => by
      rw [← UInt8.toNat_inj, toNat_ofNat hn]
      simp [eq_comm]
    unfold String.utf8EncodeChar at h
    dsimp only at h
    split at h
    · rw [List.mem_singleton, hzero _ (by omega)] at h
      exact Char.ext (UInt32.toNat_inj.1 h)
    · exfalso
      split at h
      · simp only [List.mem_cons, List.not_mem_nil, or_false] at h
        rw [hzero _ (by omega), hzero _ (by omega)] at h
        omega
      · split at h
        · simp only [List.mem_cons, List.not_mem_nil, or_false] at h
          rw [hzero _ (by omega), hzero _ (by omega), hzero _ (by omega)] at h
          omega
        · simp only [List.mem_cons, List.not_mem_nil, or_false] at h
          rw [hzero _ (by omega), hzero _ (by omega), hzero _ (by omega), hzero _ (by omega)] at h
          omega
  · rintro rfl
    decide

theorem zero_mem_encode {s : String} : 0 ∈ encode s ↔ '\x00' ∈ s.toList := by
  simp only [encode, List.mem_flatMap, zero_mem_encodeChar, exists_eq_right]

theorem encode_eq_nil {s : String} : encode s = [] ↔ s = "" := by
  constructor
  · intro h
    rw [← lossy_encode s, h]
    rfl
  · rintro rfl
    rfl

/-! ## Well-formed bytes -/

/-- Whether some bytes are those of a text. -/
def WellFormed (bytes : List UInt8) : Prop := ∃ s, encode s = bytes

theorem encode_append (s t : String) : encode (s ++ t) = encode s ++ encode t := by
  unfold encode
  rw [String.toList_append, List.flatMap_append]

theorem WellFormed.append {xs ys : List UInt8} (hx : WellFormed xs) (hy : WellFormed ys) :
    WellFormed (xs ++ ys) := by
  obtain ⟨s, rfl⟩ := hx
  obtain ⟨t, rfl⟩ := hy
  exact ⟨s ++ t, encode_append s t⟩

theorem toNat_charOfNat {n : Nat} (h : n.isValidChar) : (Char.ofNat n).toNat = n := by
  unfold Char.ofNat
  rw [dif_pos h]
  rfl

theorem encodeChar_of_ascii {n : Nat} (h : n < 0x80) :
    String.utf8EncodeChar (Char.ofNat n) = [UInt8.ofNat n] := by
  have hval : (Char.ofNat n).val.toNat = n := toNat_charOfNat (.inl (by omega))
  unfold String.utf8EncodeChar
  dsimp only
  rw [hval, if_pos (by omega)]

/-- The bytes of a character that is not ASCII are not either. -/
theorem high_of_mem_encodeChar {c : Char} (hc : 0x80 ≤ c.toNat) {b : UInt8}
    (h : b ∈ String.utf8EncodeChar c) : 0x80 ≤ b.toNat := by
  have hc : 0x80 ≤ c.val.toNat := hc
  unfold String.utf8EncodeChar at h
  dsimp only at h
  rw [if_neg (by omega)] at h
  split at h
  · simp only [List.mem_cons, List.not_mem_nil, or_false] at h
    obtain rfl | rfl := h <;> rw [toNat_ofNat (by omega)] <;> omega
  · split at h
    · simp only [List.mem_cons, List.not_mem_nil, or_false] at h
      obtain rfl | rfl | rfl := h <;> rw [toNat_ofNat (by omega)] <;> omega
    · simp only [List.mem_cons, List.not_mem_nil, or_false] at h
      obtain rfl | rfl | rfl | rfl := h <;> rw [toNat_ofNat (by omega)] <;> omega

theorem wellFormed_of_ascii {bytes : List UInt8} (h : ∀ b ∈ bytes, b.toNat < 0x80) :
    WellFormed bytes := by
  refine ⟨String.ofList (bytes.map fun b => Char.ofNat b.toNat), ?_⟩
  unfold encode
  rw [String.toList_ofList, List.flatMap_map]
  induction bytes with
  | nil => rfl
  | cons b bytes ih =>
    rw [List.flatMap_cons, encodeChar_of_ascii (h b List.mem_cons_self), UInt8.ofNat_toNat,
      ih fun c hc => h c (List.mem_cons_of_mem _ hc), List.singleton_append]

theorem wellFormed_of_all {bytes : List UInt8} (h : bytes.all (·.toNat < 0x80)) :
    WellFormed bytes :=
  wellFormed_of_ascii fun b hb => by simpa using List.all_eq_true.1 h b hb

/-- Well-formed bytes are those of the text that is read of them. -/
theorem WellFormed.encode_lossy {bytes : List UInt8} (h : WellFormed bytes) :
    encode (lossy bytes) = bytes := by
  obtain ⟨s, rfl⟩ := h
  rw [lossy_encode]

end StageHost.Utf8

import Mathlib.Data.List.Basic
import Mathlib.Tactic.SplitIfs
import StageHost.Json.Reader
import StageHost.Proofs.Text.Utf8
/-
  Texts in quotes that are written and read back.
  A byte is escaped in one of three forms (`Escaped`). None of them holds a quote that would end
  the string (`Escaped.rawString`), each is one piece, and the piece gives the byte again
  (`Escaped.pieces?`, `ReadAs.assemble?`). So a text is read as it was written
  (`readString_escape`). Escaping adds ASCII only, and so what is written is a text itself
  (`wellFormed_writeString`).
-/
namespace StageHost.Json

/-- A byte that stands for itself inside quotes. -/
def Plain (b : UInt8) : Prop := b ≠ 34 ∧ b ≠ 92 ∧ ¬ b < 32

/-- The forms in which a byte is escaped: as itself, by a letter, or by its number. -/
inductive Escaped : UInt8 → List UInt8 → Prop
  | plain {b : UInt8} (h : Plain b) : Escaped b [b]
  | letter {b c : UInt8} (hc : c ≠ 117) (h : simpleEscape? c = some b) : Escaped b [92, c]
  | number {b : UInt8} (h : b < 32) :
    Escaped b [92, 117, 48, 48, hexDigit (b.toNat / 16), hexDigit (b.toNat % 16)]

theorem escaped_escapeByte (b : UInt8) : Escaped b (escapeByte b) := by
  unfold escapeByte
  split_ifs with hquote hslash _ _ _ _ _ hcontrol
  iterate 7
    · subst b
      exact .letter (by decide) (by decide)
  · exact .number hcontrol
  · exact .plain ⟨hquote, hslash, hcontrol⟩

theorem plain_hexDigit : ∀ n < 16, Plain (hexDigit n) := by
  unfold Plain
  decide

theorem hexValue?_hexDigit : ∀ n < 16, hexValue? (hexDigit n) = some n := by decide

theorem hexUnit?_byte (b : UInt8) :
    hexUnit? 48 48 (hexDigit (b.toNat / 16)) (hexDigit (b.toNat % 16)) = some b.toNat := by
  have hb : b.toNat < 256 := b.toNat_lt
  have hzero : hexValue? 48 = some 0 := by decide
  have hvalue : b.toNat / 16 * 16 + b.toNat % 16 = b.toNat := by omega
  unfold hexUnit?
  rw [hzero, hexValue?_hexDigit _ (by omega), hexValue?_hexDigit _ (by omega)]
  simp [hvalue]

/-! ## To the closing quote -/

theorem rawString_plain {b : UInt8} (h : Plain b) (tail : List UInt8) :
    rawString (b :: tail) = (rawString tail).map fun p => (b :: p.1, p.2) := by
  obtain ⟨hquote, hslash, hcontrol⟩ := h
  rw [rawString.eq_def]
  dsimp only
  rw [if_neg hquote, if_neg hslash, if_neg hcontrol]

/-- The byte after a backslash may be any. -/
theorem rawString_slash (b : UInt8) (tail : List UInt8) :
    rawString (92 :: b :: tail) = (rawString tail).map fun p => (92 :: b :: p.1, p.2) := by
  simp [rawString]

theorem Escaped.rawString {b : UInt8} {bytes : List UInt8} (h : Escaped b bytes)
    (tail : List UInt8) :
    rawString (bytes ++ tail) = (rawString tail).map fun p => (bytes ++ p.1, p.2) := by
  cases h with
  | plain h => exact rawString_plain h tail
  | letter => exact rawString_slash _ tail
  | number =>
    have hb : b.toNat < 256 := b.toNat_lt
    have hzero : Plain 48 := plain_hexDigit 0 (by decide)
    have hhigh := plain_hexDigit (b.toNat / 16) (by omega)
    have hlow := plain_hexDigit (b.toNat % 16) (by omega)
    simp only [List.cons_append, List.nil_append, rawString_slash, rawString_plain hzero,
      rawString_plain hhigh, rawString_plain hlow, Option.map_map]
    rfl

theorem rawString_escape (bytes rest : List UInt8) :
    rawString (escape bytes ++ 34 :: rest) = some (escape bytes, rest) := by
  unfold escape
  induction bytes with
  | nil =>
    rw [rawString.eq_def]
    rfl
  | cons b bytes ih =>
    rw [List.flatMap_cons, List.append_assoc, (escaped_escapeByte b).rawString, ih]
    rfl

/-! ## Pieces -/

/-- How a byte is read back: as itself, or as the code unit of its number. -/
inductive ReadAs (b : UInt8) : Piece → Prop
  | byte : ReadAs b (.byte b)
  | unit (h : b < 32) : ReadAs b (.unit b.toNat)

theorem Escaped.pieces? {b : UInt8} {bytes : List UInt8} (h : Escaped b bytes) :
    ∃ piece, ReadAs b piece ∧
      ∀ tail, pieces? (bytes ++ tail) = (pieces? tail).map (piece :: ·) := by
  cases h with
  | plain h =>
    refine ⟨.byte b, .byte, fun tail => ?_⟩
    have hslash := h.2.1
    rw [List.singleton_append, Json.pieces?]
    · cases Json.pieces? tail <;> rfl
    all_goals simp [hslash]
  | letter hc h =>
    refine ⟨.byte b, .byte, fun tail => ?_⟩
    rw [List.cons_append, List.singleton_append, Json.pieces?, h]
    · cases Json.pieces? tail <;> rfl
    · simp [hc]
  | number h =>
    refine ⟨.unit b.toNat, .unit h, fun tail => ?_⟩
    simp only [List.cons_append, List.nil_append]
    rw [Json.pieces?, hexUnit?_byte]
    cases Json.pieces? tail <;> rfl

/-- A code unit below the surrogates is a character, whatever piece comes next. -/
theorem assemble?_unit {u : Nat} (h : u < 0xD800) (rest : List Piece) :
    assemble? (.unit u :: rest) =
      (assemble? rest).map (String.utf8EncodeChar (Char.ofNat u) ++ ·) := by
  have hhigh : isHigh u = false := by
    simp [isHigh]
    omega
  have hlow : isLow u = false := by
    simp [isLow]
    omega
  cases rest with
  | nil => simp [assemble?, hhigh, hlow]
  | cons piece rest => cases piece <;> simp [assemble?, hhigh, hlow]

theorem ReadAs.assemble? {b : UInt8} {piece : Piece} (h : ReadAs b piece) (rest : List Piece) :
    assemble? (piece :: rest) = (assemble? rest).map (b :: ·) := by
  cases h with
  | byte => rw [Json.assemble?]
  | unit h =>
    have h : b.toNat < 32 := UInt8.lt_iff_toNat_lt.1 h
    rw [assemble?_unit (by omega), Utf8.encodeChar_of_ascii (by omega), UInt8.ofNat_toNat]
    rfl

theorem exists_pieces_escape (bytes : List UInt8) :
    ∃ pieces, pieces? (escape bytes) = some pieces ∧ assemble? pieces = some bytes := by
  unfold escape
  induction bytes with
  | nil => exact ⟨[], rfl, rfl⟩
  | cons b bytes ih =>
    obtain ⟨pieces, hpieces, hbytes⟩ := ih
    obtain ⟨piece, hread, hpiece⟩ := (escaped_escapeByte b).pieces?
    refine ⟨piece :: pieces, ?_, ?_⟩
    · rw [List.flatMap_cons, hpiece, hpieces]
      rfl
    · rw [hread.assemble?, hbytes]
      rfl

/-- After its opening quote a text is read as it was written. -/
theorem readString_escape (s : String) (rest : List UInt8) :
    readString (escape (Utf8.encode s) ++ 34 :: rest) = some (some s, rest) := by
  obtain ⟨pieces, hpieces, hbytes⟩ := exists_pieces_escape (Utf8.encode s)
  unfold readString
  rw [rawString_escape]
  simp [hpieces, hbytes, Utf8.decode?_encode]

/-! ## Well-formed bytes -/

theorem ascii_hexDigit : ∀ n < 16, (hexDigit n).toNat < 0x80 := by decide

theorem ascii_of_simpleEscape? {b c : UInt8} (h : simpleEscape? c = some b) : c.toNat < 0x80 := by
  unfold simpleEscape? at h
  split_ifs at h with hself
  · obtain rfl | rfl | rfl := hself <;> decide
  iterate 5
    · subst c
      decide

theorem Escaped.ascii {b : UInt8} {bytes : List UInt8} (h : Escaped b bytes)
    (hb : b.toNat < 0x80) : ∀ c ∈ bytes, c.toNat < 0x80 := by
  cases h with
  | plain => simpa using hb
  | letter hc h => simpa using ascii_of_simpleEscape? h
  | number =>
    have hhigh := ascii_hexDigit (b.toNat / 16) (by omega)
    have hlow := ascii_hexDigit (b.toNat % 16) (by omega)
    simp [hhigh, hlow]

theorem escapeByte_of_high {b : UInt8} (h : 0x80 ≤ b.toNat) : escapeByte b = [b] := by
  unfold escapeByte
  split_ifs with _ _ _ _ _ _ _ hcontrol
  iterate 7
    · subst b
      exact absurd h (by decide)
  · have hlow : b.toNat < 32 := UInt8.lt_iff_toNat_lt.1 hcontrol
    omega
  · rfl

theorem wellFormed_escape_char (c : Char) :
    Utf8.WellFormed (escape (String.utf8EncodeChar c)) := by
  by_cases hc : c.toNat < 0x80
  · have hbyte : (UInt8.ofNat c.toNat).toNat = c.toNat := Utf8.toNat_ofNat (by omega)
    have hchar : String.utf8EncodeChar c = [UInt8.ofNat c.toNat] := by
      rw [← Utf8.encodeChar_of_ascii hc, Char.ofNat_toNat]
    have hescaped := escaped_escapeByte (UInt8.ofNat c.toNat)
    rw [hchar, escape, List.flatMap_singleton]
    exact Utf8.wellFormed_of_ascii (hescaped.ascii (by omega))
  · have hself : escape (String.utf8EncodeChar c) = String.utf8EncodeChar c := by
      unfold escape
      rw [List.flatMap_congr fun b hb =>
        escapeByte_of_high (Utf8.high_of_mem_encodeChar (Nat.le_of_not_lt hc) hb)]
      exact List.flatMap_singleton' _
    refine ⟨String.singleton c, ?_⟩
    rw [hself]
    simp [Utf8.encode]

theorem wellFormed_escape (s : String) : Utf8.WellFormed (escape (Utf8.encode s)) := by
  unfold Utf8.encode
  induction s.toList with
  | nil => exact ⟨"", rfl⟩
  | cons c cs ih =>
    rw [escape, List.flatMap_cons, List.flatMap_append]
    exact (wellFormed_escape_char c).append ih

theorem wellFormed_writeString (s : String) : Utf8.WellFormed (writeString s) := by
  have hquote : Utf8.WellFormed [34] := Utf8.wellFormed_of_all (by decide)
  exact (hquote.append (wellFormed_escape s)).append hquote

end StageHost.Json

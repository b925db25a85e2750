import StageHost.Proofs.Text.Lossy
import StageHost.Wire.Strings
/-
  Reading lists of texts.
  A piece without a zero byte ends at the first one after it (`splitAtZero_append`). So texts that
  are each followed by a zero byte are read as they are, but the empty ones are left out
  (`decodeStrings_ended`). A text with zero characters is read as its pieces
  (`decodeStrings_encodeStrings`), and nothing that is read has such a character
  (`clean_of_mem_decodeStrings`). `strings_read_again` says what this makes of texts that are
  written and read, and of bytes that are read, written and read.
-/
namespace StageHost.Wire

theorem splitAtZero_append {piece : List UInt8} (h : 0 ∉ piece) (rest : List UInt8) :
    splitAtZero (piece ++ 0 :: rest) = piece :: splitAtZero rest := by
  induction piece with
  | nil => rfl
  | cons b piece ih =>
    have hb : b ≠ 0 := fun hzero => h (hzero ▸ List.mem_cons_self)
    have hpiece := ih fun hm => h (List.mem_cons_of_mem _ hm)
    rw [List.cons_append, splitAtZero, if_neg hb, hpiece]

/-- Some texts, each followed by a zero byte. -/
def ended (items : List String) : List UInt8 := items.flatMap fun s => Utf8.encode s ++ [0]

theorem splitAtZero_ended {items : List String} (h : ∀ s ∈ items, '\x00' ∉ s.toList) :
    splitAtZero (ended items) = items.map Utf8.encode ++ [[]] := by
  induction items with
  | nil => rfl
  | cons s items ih =>
    have hs : 0 ∉ Utf8.encode s := fun hz => h s List.mem_cons_self (Utf8.zero_mem_encode.1 hz)
    have hcons : ended (s :: items) = Utf8.encode s ++ 0 :: ended items := by simp [ended]
    rw [hcons, splitAtZero_append hs, ih fun t ht => h t (List.mem_cons_of_mem _ ht)]
    rfl

/-- Of texts that are each followed by a zero byte, those that are not empty are read. -/
theorem decodeStrings_ended {items : List String} (h : ∀ s ∈ items, '\x00' ∉ s.toList) :
    decodeStrings (ended items) = items.filter (· ≠ "") := by
  have hempty : (fun s => !(Utf8.encode s).isEmpty) = fun s : String => decide (s ≠ "") := by
    funext s
    rw [Bool.eq_iff_iff]
    simp [Utf8.encode_eq_nil]
  have hread : Utf8.lossy ∘ Utf8.encode = id := funext Utf8.lossy_encode
  unfold decodeStrings
  rw [splitAtZero_ended h, List.filter_append, List.filter_map, List.map_append, List.map_map,
    hread, List.map_id]
  simp [Function.comp_def, hempty]

/-! ## Texts with zero characters -/

/-- The pieces of a text between its zero characters. -/
def pieces (s : String) : List String := (s.toList.splitOn '\x00').map String.ofList

theorem not_mem_of_mem_splitOn {α : Type} [BEq α] [LawfulBEq α] {a : α} {xs piece : List α}
    (h : piece ∈ xs.splitOn a) : a ∉ piece := by
  induction xs generalizing piece with
  | nil => simp_all
  | cons x xs ih =>
    rw [List.splitOn_cons_eq_if_modifyHead] at h
    obtain ⟨first, rest, hsplit⟩ := List.exists_cons_of_ne_nil (List.splitOn_ne_nil a xs)
    rw [hsplit] at h ih
    split at h
    · obtain rfl | h := List.mem_cons.1 h
      · exact List.not_mem_nil
      · exact ih h
    · rename_i hx
      obtain rfl | h := List.mem_cons.1 h
      · rw [List.mem_cons, not_or]
        exact ⟨fun ha => hx (beq_iff_eq.2 ha.symm), ih List.mem_cons_self⟩
      · exact ih (List.mem_cons_of_mem _ h)

/-- No piece holds a zero character. -/
theorem zero_free_of_mem_pieces {s piece : String} (h : piece ∈ pieces s) :
    '\x00' ∉ piece.toList := by
  obtain ⟨cs, hcs, rfl⟩ := List.mem_map.1 h
  rw [String.toList_ofList]
  exact not_mem_of_mem_splitOn hcs

/-- A text without zero characters is its only piece. -/
theorem pieces_of_zero_free {s : String} (h : '\x00' ∉ s.toList) : pieces s = [s] := by
  rw [pieces, List.splitOn_eq_singleton h, List.map_singleton, String.ofList_toList]

/-- A text before a zero byte is as its pieces, each before a zero byte. -/
theorem ended_pieces (s : String) : ended (pieces s) = Utf8.encode s ++ [0] := by
  unfold ended pieces Utf8.encode
  rw [List.flatMap_map]
  simp only [String.toList_ofList]
  induction s.toList with
  | nil => rfl
  | cons c cs ih =>
    rw [List.splitOn_cons_eq_if_modifyHead, List.flatMap_cons]
    by_cases hc : c = '\x00'
    · subst hc
      simp [ih]
      rfl
    · obtain ⟨piece, rest, hsplit⟩ := List.exists_cons_of_ne_nil (List.splitOn_ne_nil '\x00' cs)
      rw [hsplit] at ih ⊢
      simp [hc, ← ih]

/-- An entry is as the pieces of its text; the empty text, whose only piece is empty, has none. -/
theorem encodeStrings_eq_ended (items : List String) :
    encodeStrings items = ended ((items.filter (· ≠ "")).flatMap pieces) := by
  unfold encodeStrings
  induction items with
  | nil => rfl
  | cons s items ih =>
    rw [List.flatMap_cons, ih]
    by_cases hs : s = ""
    · subst hs
      rfl
    · have hentry : stringEntry s = ended (pieces s) := by
        rw [ended_pieces, stringEntry, if_neg (by simpa using hs)]
      rw [hentry, List.filter_cons_of_pos (by simpa using hs), List.flatMap_cons]
      exact List.flatMap_append.symm

theorem flatMap_pieces_filter (items : List String) :
    ((items.filter (· ≠ "")).flatMap pieces).filter (· ≠ "") =
      (items.flatMap pieces).filter (· ≠ "") := by
  induction items with
  | nil => rfl
  | cons s items ih =>
    by_cases hs : s = ""
    · subst hs
      exact ih
    · rw [List.filter_cons_of_pos (by simpa using hs), List.flatMap_cons, List.flatMap_cons,
        List.filter_append, List.filter_append, ih]

/-- Texts written and read again are their pieces that are not empty. -/
theorem decodeStrings_encodeStrings (items : List String) :
    decodeStrings (encodeStrings items) = (items.flatMap pieces).filter (· ≠ "") := by
  have hfree : ∀ s ∈ (items.filter (· ≠ "")).flatMap pieces, '\x00' ∉ s.toList := by
    intro s hs
    obtain ⟨t, -, hs⟩ := List.mem_flatMap.1 hs
    exact zero_free_of_mem_pieces hs
  rw [encodeStrings_eq_ended, decodeStrings_ended hfree, flatMap_pieces_filter]

/-! ## Arbitrary bytes -/

theorem splitAtZero_eq_splitOn (bytes : List UInt8) : splitAtZero bytes = bytes.splitOn 0 := by
  induction bytes with
  | nil => rfl
  | cons b bytes ih =>
    obtain ⟨piece, rest, hsplit⟩ := List.exists_cons_of_ne_nil (List.splitOn_ne_nil 0 bytes)
    rw [splitAtZero, ih, List.splitOn_cons_eq_if_modifyHead, hsplit]
    by_cases hb : b = 0 <;> simp [hb]

/-- Whatever the bytes, no text that is read is empty or holds a zero character. -/
theorem clean_of_mem_decodeStrings {bytes : List UInt8} {s : String}
    (h : s ∈ decodeStrings bytes) : s ≠ "" ∧ '\x00' ∉ s.toList := by
  obtain ⟨piece, hpiece, rfl⟩ := List.mem_map.1 h
  obtain ⟨hpiece, hne⟩ := List.mem_filter.1 hpiece
  rw [splitAtZero_eq_splitOn] at hpiece
  refine ⟨fun hempty => ?_, fun hzero => ?_⟩
  · rw [Utf8.lossy_eq_empty.1 hempty] at hne
    cases hne
  · exact not_mem_of_mem_splitOn hpiece (Utf8.zero_of_mem_lossy hzero)

/-- Texts are read as they were written if none is empty or holds a zero character. -/
theorem decodeStrings_encodeStrings_of_clean {items : List String}
    (h : ∀ s ∈ items, s ≠ "" ∧ '\x00' ∉ s.toList) :
    decodeStrings (encodeStrings items) = items := by
  have hpieces : items.flatMap pieces = items := by
    induction items with
    | nil => rfl
    | cons s items ih =>
      rw [List.flatMap_cons, pieces_of_zero_free (h s List.mem_cons_self).2,
        ih fun t ht => h t (List.mem_cons_of_mem _ ht), List.singleton_append]
  rw [decodeStrings_encodeStrings, hpieces, List.filter_eq_self]
  exact fun s hs => by simpa using (h s hs).1

/-- What becomes of texts that are written and read. Each is cut at its zero characters, and the
empty pieces are left out; so the texts come back as they were exactly if none is empty or holds a
zero character. What is read of any bytes at all is of this kind, and so comes back. -/
theorem strings_read_again :
    (∀ items : List String,
      decodeStrings (encodeStrings items) = (items.flatMap pieces).filter (· ≠ "")) ∧
    (∀ items : List String, decodeStrings (encodeStrings items) = items ↔
      ∀ s ∈ items, s ≠ "" ∧ '\x00' ∉ s.toList) ∧
    ∀ bytes : List UInt8, (∀ s ∈ decodeStrings bytes, s ≠ "" ∧ '\x00' ∉ s.toList) ∧
      decodeStrings (encodeStrings (decodeStrings bytes)) = decodeStrings bytes := by
  refine ⟨decodeStrings_encodeStrings, fun items => ⟨fun h s hs => ?_, fun h => ?_⟩,
    fun bytes => ⟨fun s hs => ?_, ?_⟩⟩
  · rw [← h] at hs
    exact clean_of_mem_decodeStrings hs
  · exact decodeStrings_encodeStrings_of_clean h
  · exact clean_of_mem_decodeStrings hs
  · exact decodeStrings_encodeStrings_of_clean fun s hs => clean_of_mem_decodeStrings hs

end StageHost.Wire

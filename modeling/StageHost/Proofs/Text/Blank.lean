import Mathlib.Data.List.DropRight
import StageHost.Text.Blank
/-
  What trimming keeps.
  A text is white space, its trimmed text, and white space again (`exists_blanks_around`), and more
  white space at either end changes nothing (`trim_between_blanks`). So trimming twice is trimming
  once.
-/
namespace StageHost

/-- Whether a text is white space throughout. -/
def Blank (s : String) : Prop := ∀ c ∈ s.toList, isBlank c

instance (s : String) : Decidable (Blank s) :=
  decidable_of_iff (s.toList.all isBlank = true) List.all_eq_true

theorem toList_trim (s : String) :
    (trim s).toList = (s.toList.dropWhile isBlank).rdropWhile isBlank := by
  unfold trim trimEnd
  rw [String.toList_ofList, String.toList_ofList]
  rfl

theorem rdropWhile_append_of_pos {α : Type} {p : α → Bool} (l : List α) {m : List α}
    (h : ∀ x ∈ m, p x) : (l ++ m).rdropWhile p = l.rdropWhile p := by
  unfold List.rdropWhile
  rw [List.reverse_append, List.dropWhile_append_of_pos]
  intro x hx
  exact h x (List.mem_reverse.1 hx)

/-- White space at the two ends of a text does not count. -/
theorem trim_between_blanks {before after : String} (hb : Blank before) (ha : Blank after)
    (s : String) : trim (before ++ s ++ after) = trim s := by
  rw [← String.toList_inj, toList_trim, toList_trim, String.toList_append, String.toList_append,
    List.append_assoc, List.dropWhile_append_of_pos hb, List.dropWhile_append]
  split
  · -- the text is white space as a whole
    rename_i hempty
    rw [List.isEmpty_iff.1 hempty, List.dropWhile_eq_nil_iff.2 ha]
  · exact rdropWhile_append_of_pos _ ha

/-- Trimming takes nothing but white space from the two ends. -/
theorem exists_blanks_around (s : String) :
    ∃ before after, Blank before ∧ Blank after ∧ s = before ++ trim s ++ after := by
  refine ⟨.ofList (s.toList.takeWhile isBlank),
    .ofList ((s.toList.dropWhile isBlank).rtakeWhile isBlank), ?_, ?_, ?_⟩
  · intro c hc
    rw [String.toList_ofList] at hc
    exact List.mem_takeWhile_imp hc
  · intro c hc
    rw [String.toList_ofList] at hc
    exact List.mem_rtakeWhile_imp hc
  · rw [← String.toList_inj, String.toList_append, String.toList_append, toList_trim,
      String.toList_ofList, String.toList_ofList, List.append_assoc,
      List.rdropWhile_append_rtakeWhile, List.takeWhile_append_dropWhile]

theorem trim_trim (s : String) : trim (trim s) = trim s := by
  obtain ⟨before, after, hb, ha, hs⟩ := exists_blanks_around s
  calc trim (trim s) = trim (before ++ trim s ++ after) := (trim_between_blanks hb ha _).symm
    _ = trim s := by rw [← hs]

end StageHost

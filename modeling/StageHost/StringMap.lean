/-
  Maps from texts to texts, kept in key order.
  `Ordered` says that keys strictly increase, `insertEntry` keeps that, and a `StringMap` carries
  it.
-/
namespace StageHost

/-- Puts an entry at its place in key order; an entry with the same key is replaced. -/
def insertEntry {α : Type} (k : String) (v : α) : List (String × α) → List (String × α)
  | [] => [(k, v)]
  | (k', v') :: rest =>
    if k < k' then (k, v) :: (k', v') :: rest
    else if k = k' then (k, v) :: rest
    else (k', v') :: insertEntry k v rest

/-- Keys strictly increase. -/
def Ordered {α : Type} (entries : List (String × α)) : Prop :=
  entries.Pairwise fun a b => a.1 < b.1

theorem ordered_nil {α : Type} : Ordered ([] : List (String × α)) := List.Pairwise.nil

theorem mem_insertEntry {α : Type} {k : String} {v : α} {entries : List (String × α)}
    {e : String × α} (h : e ∈ insertEntry k v entries) : e = (k, v) ∨ e ∈ entries := by
  induction entries with
  | nil => simpa [insertEntry] using h
  | cons head rest ih =>
    simp only [insertEntry] at h
    split at h
    · simpa using h
    · split at h
      · rcases List.mem_cons.1 h with h | h
        · exact .inl h
        · exact .inr (by simp [h])
      · rcases List.mem_cons.1 h with h | h
        · exact .inr (by simp [h])
        · rcases ih h with h | h
          · exact .inl h
          · exact .inr (by simp [h])

theorem ordered_insertEntry {α : Type} (k : String) (v : α) {entries : List (String × α)}
    (h : Ordered entries) : Ordered (insertEntry k v entries) := by
  induction entries with
  | nil => simp [insertEntry, Ordered]
  | cons head rest ih =>
    obtain ⟨k', v'⟩ := head
    rw [Ordered, List.pairwise_cons] at h
    simp only [insertEntry]
    split
    · rename_i hlt
      refine List.pairwise_cons.2 ⟨?_, List.pairwise_cons.2 h⟩
      intro e he
      rcases List.mem_cons.1 he with rfl | he
      · exact hlt
      · exact String.lt_trans hlt (h.1 e he)
    · split
      · rename_i heq
        subst heq
        exact List.pairwise_cons.2 h
      · rename_i hlt hne
        refine List.pairwise_cons.2 ⟨?_, ih h.2⟩
        intro e he
        rcases mem_insertEntry he with rfl | he
        · refine Std.not_le.1 fun hle => hne ?_
          exact Std.le_antisymm hle (Std.not_lt.1 hlt)
        · exact h.1 e he

/-- A map from texts to texts. -/
structure StringMap where
  entries : List (String × String) := []
  ordered : Ordered entries := by exact ordered_nil
deriving DecidableEq

namespace StringMap

/-- The map without entries. -/
def empty : StringMap := {}

instance : Inhabited StringMap := ⟨empty⟩

/-- Sets the value of a key. -/
def insert (m : StringMap) (k v : String) : StringMap :=
  ⟨insertEntry k v m.entries, ordered_insertEntry k v m.ordered⟩

/-- The map of some entries; of equal keys the last counts. -/
def ofList (entries : List (String × String)) : StringMap :=
  entries.foldl (fun m e => m.insert e.1 e.2) empty

/-- Whether the map has no entry. -/
def isEmpty (m : StringMap) : Bool := m.entries.isEmpty

end StringMap
end StageHost

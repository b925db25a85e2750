import StageHost.Guest.Bridge
import StageHost.Proofs.Wire.Strings
/-
  Log records with keys and values.
  A guest passes keys and values in turn, each followed by a zero byte. The list is read without its
  empty texts, so the values that are empty are gone before pairs are formed
  (`decodeStrings_inTurn`). Every key is paired with its own value exactly if no value but the last
  is empty (`pairs_kept_iff`); a key whose value is missing takes the next key for its value
  (`pairs_kept_of_gap`). `logs_of_inTurn` says what record a guest's call leaves.
-/
namespace StageHost.Bridge

/-- A key with its value, as a text. -/
def keyValue (kv : String × String) : String := kv.1 ++ "=" ++ kv.2

/-- Keys and values in turn. -/
def inTurn (kvs : List (String × String)) : List String := kvs.flatMap fun kv => [kv.1, kv.2]

/-- Keys and values in turn, without the values that are empty. -/
def kept (kvs : List (String × String)) : List String :=
  kvs.flatMap fun kv => if kv.2 = "" then [kv.1] else [kv.1, kv.2]

/-- A key is not empty, and neither it nor its value holds a zero character. -/
structure Passable (kv : String × String) : Prop where
  key_ne : kv.1 ≠ ""
  key_free : '\x00' ∉ kv.1.toList
  value_free : '\x00' ∉ kv.2.toList

theorem kept_cons_of_empty {kv : String × String} (h : kv.2 = "") (kvs : List (String × String)) :
    kept (kv :: kvs) = kv.1 :: kept kvs := by
  simp [kept, h]

theorem kept_cons_of_ne {kv : String × String} (h : kv.2 ≠ "") (kvs : List (String × String)) :
    kept (kv :: kvs) = kv.1 :: kv.2 :: kept kvs := by
  simp [kept, h]

theorem inTurn_filter {kvs : List (String × String)} (h : ∀ kv ∈ kvs, kv.1 ≠ "") :
    (inTurn kvs).filter (· ≠ "") = kept kvs := by
  induction kvs with
  | nil => rfl
  | cons kv kvs ih =>
    have hkey : kv.1 ≠ "" := h kv List.mem_cons_self
    have hrest := ih fun kv' hkv' => h kv' (List.mem_cons_of_mem _ hkv')
    have hcons : inTurn (kv :: kvs) = kv.1 :: kv.2 :: inTurn kvs := rfl
    by_cases hvalue : kv.2 = ""
    · rw [hcons, kept_cons_of_empty hvalue, ← hrest]
      simp [hkey, hvalue]
    · rw [hcons, kept_cons_of_ne hvalue, ← hrest]
      simp [hkey, hvalue]

/-- Of keys and values in turn, the empty values are not read. -/
theorem decodeStrings_inTurn {kvs : List (String × String)} (h : ∀ kv ∈ kvs, Passable kv) :
    Wire.decodeStrings (Wire.ended (inTurn kvs)) = kept kvs := by
  have hfree : ∀ s ∈ inTurn kvs, '\x00' ∉ s.toList := by
    intro s hs
    obtain ⟨kv, hkv, hs⟩ := List.mem_flatMap.1 hs
    obtain rfl | rfl : s = kv.1 ∨ s = kv.2 := by simpa using hs
    · exact (h kv hkv).key_free
    · exact (h kv hkv).value_free
  rw [Wire.decodeStrings_ended hfree]
  exact inTurn_filter fun kv hkv => (h kv hkv).key_ne

/-! ## Pairs -/

theorem pairs_kept_cons {kv : String × String} (h : kv.2 ≠ "") (kvs : List (String × String)) :
    pairs (kept (kv :: kvs)) = keyValue kv :: pairs (kept kvs) := by
  rw [kept_cons_of_ne h, pairs]
  rfl

/-- As long as no value is empty, keys are paired with their values. -/
theorem pairs_kept_append {before : List (String × String)} (h : ∀ kv ∈ before, kv.2 ≠ "")
    (after : List (String × String)) :
    pairs (kept (before ++ after)) = before.map keyValue ++ pairs (kept after) := by
  induction before with
  | nil => rfl
  | cons kv before ih =>
    have hrest := ih fun kv' hkv' => h kv' (List.mem_cons_of_mem _ hkv')
    rw [List.cons_append, pairs_kept_cons (h kv List.mem_cons_self), hrest]
    rfl

/-- A key whose value is empty takes the next key for its value. -/
theorem pairs_kept_gap (key : String) (next : String × String) (after : List (String × String)) :
    pairs (kept ((key, "") :: next :: after)) =
      keyValue (key, next.1) :: pairs ((kept (next :: after)).tail) := by
  rw [kept_cons_of_empty rfl]
  by_cases hnext : next.2 = ""
  · rw [kept_cons_of_empty hnext]
    rfl
  · rw [kept_cons_of_ne hnext]
    rfl

theorem keyValue_ne {key value : String} (h : value ≠ "") :
    keyValue (key, value) ≠ keyValue (key, "") := by
  intro heq
  have hlength := congrArg String.length heq
  simp only [keyValue, String.length_append, String.length_empty] at hlength
  exact h (String.length_eq_zero_iff.1 (by omega))

/-- Every key is paired with its own value exactly if no value but the last is empty. -/
theorem pairs_kept_iff {kvs : List (String × String)} (hkeys : ∀ kv ∈ kvs, kv.1 ≠ "") :
    pairs (kept kvs) = kvs.map keyValue ↔ ∀ kv ∈ kvs.dropLast, kv.2 ≠ "" := by
  induction kvs with
  | nil => simp [kept, pairs]
  | cons kv kvs ih =>
    have hrest := ih fun kv' hkv' => hkeys kv' (List.mem_cons_of_mem _ hkv')
    obtain ⟨key, value⟩ := kv
    cases kvs with
    | nil =>
      by_cases hvalue : value = ""
      · simp [kept, pairs, keyValue, hvalue]
      · simp [kept, pairs, keyValue, hvalue]
    | cons next kvs =>
      rw [List.dropLast_cons_cons, List.forall_mem_cons, ← hrest]
      by_cases hvalue : value = ""
      · -- the text of the first pair holds the next key, and should hold nothing there
        subst hvalue
        have hne : keyValue (key, next.1) ≠ keyValue (key, "") :=
          keyValue_ne (hkeys next (by simp))
        rw [pairs_kept_gap]
        simp [hne]
      · rw [pairs_kept_cons hvalue]
        simp [hvalue]

/-! ## The record -/

/-- A log record that is not below the threshold is kept with pairs of the keys and values that are
not empty. Every key has its own value exactly if no value but the last is empty; at the first such
value the key before it takes the next key for its value. -/
theorem logs_of_inTurn {kvs : List (String × String)} (hkvs : ∀ kv ∈ kvs, Passable kv)
    {level : Int32} {severity : Severity} {h : Host} (henabled : enabled? h level = some severity)
    {m : Memory} {address length kvAddress kvLength : UInt32} {message : List UInt8}
    (hmessage : m.range address length = .ok message)
    (hpassed : m.range kvAddress kvLength = .ok (Wire.ended (inTurn kvs))) :
    logs level address length kvAddress kvLength m h =
      (.ok (), h.note (.logged
        { severity
          moduleName := h.settings.moduleName
          message := Utf8.lossy message
          keyValues := " ".intercalate (pairs (kept kvs)) })) ∧
    (pairs (kept kvs) = kvs.map keyValue ↔ ∀ kv ∈ kvs.dropLast, kv.2 ≠ "") ∧
    ∀ before key next after, kvs = before ++ (key, "") :: next :: after →
      (∀ kv ∈ before, kv.2 ≠ "") →
      pairs (kept kvs) = before.map keyValue ++
        keyValue (key, next.1) :: pairs ((kept (next :: after)).tail) := by
  refine ⟨?_, pairs_kept_iff fun kv hkv => (hkvs kv hkv).key_ne, ?_⟩
  · simp only [logs, henabled, hmessage, hpassed, decodeStrings_inTurn hkvs, keyValues]
  · intro before key next after heq hbefore
    rw [heq, pairs_kept_append hbefore, pairs_kept_gap]

/-- A memory that holds `a`, the empty text, `b` and `c`, each followed by a zero byte, and then the
message `m`. -/
def gappedMemory : Memory :=
  (Memory.zeros Memory.pageSize).write 0 [0x61, 0, 0, 0x62, 0, 0x63, 0, 0x6D]

/-- The key `a` with the empty value and the key `b` with the value `c` become `a` with the value
`b`, and `c` with none. -/
theorem value_of_another_key :
    (logs 1 7 1 0 7 gappedMemory (Host.ofSettings (.named "guest"))).2.transcript =
      [.logged { severity := .info, moduleName := "guest", message := "m", keyValues := "a=b c=" }] ∧
    " ".intercalate ([("a", ""), ("b", "c")].map keyValue) = "a= b=c" := by
  have hpassable : ∀ kv ∈ [("a", ""), ("b", "c")], Passable kv := by
    simp only [List.forall_mem_cons, List.not_mem_nil, false_implies, implies_true, and_true]
    exact ⟨⟨by decide, by decide, by decide⟩, ⟨by decide, by decide, by decide⟩⟩
  have henabled : enabled? (Host.ofSettings (.named "guest")) 1 = some .info := rfl
  have hmessage : gappedMemory.range 7 1 = .ok [0x6D] := rfl
  have hpassed : gappedMemory.range 0 7 =
    .ok (Wire.ended (inTurn [("a", ""), ("b", "c")])) := rfl
  obtain ⟨hlogs, -, hgap⟩ := logs_of_inTurn hpassable henabled hmessage hpassed
  have hpairs := hgap [] "a" ("b", "c") [] rfl (by simp)
  rw [hlogs, hpairs]
  decide

end StageHost.Bridge

import StageHost.Proofs.Json.Numbers
import StageHost.Proofs.Json.Strings
/-
  Values that are written and read back.
  What is unreadable is written as `null`, and a whole number beyond 64 bits is not read as one.
  Values without such parts and without binary numbers are `Exact`. Of these the reader takes what
  was written and stops where it ends, whatever may follow a value (`Reads`); there is a lemma for
  each kind of value, and the induction is on `Exact`. The fuel bounds the bytes that are left.
  Since what is written is well formed, it does not matter whether bytes or a text are read
  (`Exact.read?_write`, `Exact.parse?_text`).
-/
namespace StageHost.Json

/-- Whether nothing in a value is unreadable or a binary number, and every whole number fits into 64
bits. -/
inductive Exact : Json → Prop
  | null : Exact .null
  | bool (b : Bool) : Exact (.bool b)
  | integer {n : Int} (h : fits n) : Exact (.integer n)
  | string (s : String) : Exact (.string s)
  | array {items : List Json} (h : ∀ v ∈ items, Exact v) : Exact (.array items)
  | object {members : List (String × Json)} (h : ∀ m ∈ members, Exact m.2) :
    Exact (.object members)

/-! ## First bytes -/

theorem skipSpace_cons {b : UInt8} (h : isSpace b = false) (rest : List UInt8) :
    skipSpace (b :: rest) = b :: rest := by
  simp [skipSpace, h]

/-- A byte that a value may begin with. -/
structure Starts (b : UInt8) : Prop where
  solid : isSpace b = false
  opens : b ≠ 93

theorem ne_of_numeric {b c : UInt8} (hb : b = 45 ∨ isDigit b) (hc : ¬ (c = 45 ∨ isDigit c)) :
    b ≠ c := fun h => hc (h ▸ hb)

theorem starts_of_numeric {b : UInt8} (h : b = 45 ∨ isDigit b) : Starts b where
  solid := by
    have hne {c : UInt8} (hc : ¬ (c = 45 ∨ isDigit c)) : b ≠ c := ne_of_numeric h hc
    simp [isSpace, hne (c := 32) (by decide), hne (c := 9) (by decide), hne (c := 10) (by decide),
      hne (c := 13) (by decide)]
  opens := ne_of_numeric h (by decide)

theorem Exact.write_eq_cons {v : Json} (h : v.Exact) :
    ∃ b rest, write v = b :: rest ∧ Starts b := by
  cases h with
  | null => exact ⟨110, _, rfl, by decide, by decide⟩
  | bool b =>
    cases b with
    | false => exact ⟨102, _, rfl, by decide, by decide⟩
    | true => exact ⟨116, _, rfl, by decide, by decide⟩
  | @integer n =>
    obtain ⟨b, rest, hwrite, hb⟩ := writeInt_eq_cons n
    rw [write]
    exact ⟨b, rest, hwrite, starts_of_numeric hb⟩
  | string s => exact ⟨34, _, rfl, by decide, by decide⟩
  | @array items => cases items <;> rw [write] <;> exact ⟨91, _, rfl, by decide, by decide⟩
  | @object members =>
    rcases members with _ | ⟨⟨k, v⟩, members⟩ <;> rw [write] <;>
      exact ⟨123, _, rfl, by decide, by decide⟩

/-! ## Values without parts -/

/-- Whether a value is read as it was written, up to its end. -/
def Reads (v : Json) : Prop :=
  ∀ fuel rest, (write v).length ≤ fuel → Ended rest →
    readValue fuel (write v ++ rest) = some (v, rest)

/-- What is written is not empty, so there is some fuel. -/
theorem Exact.reads {v : Json} (h : v.Exact)
    (hread : ∀ fuel rest, (write v).length ≤ fuel + 1 → Ended rest →
      readValue (fuel + 1) (write v ++ rest) = some (v, rest)) : Reads v := by
  intro fuel rest hfuel hrest
  cases fuel with
  | zero =>
    obtain ⟨b, tail, hwrite, -⟩ := h.write_eq_cons
    rw [hwrite] at hfuel
    cases hfuel
  | succ fuel => exact hread fuel rest hfuel hrest

theorem reads_null : Reads .null :=
  Exact.null.reads fun fuel rest _ _ => by
    simp [readValue, write, ascii, skipSpace, isSpace, expect]

theorem reads_bool (b : Bool) : Reads (.bool b) :=
  (Exact.bool b).reads fun fuel rest _ _ => by
    cases b <;> simp [readValue, write, ascii, skipSpace, isSpace, expect]

theorem writeString_append (s : String) (rest : List UInt8) :
    writeString s ++ rest = 34 :: (escape (Utf8.encode s) ++ 34 :: rest) := by
  simp [writeString]

theorem reads_string (s : String) : Reads (.string s) :=
  (Exact.string s).reads fun fuel rest _ _ => by
    rw [write, writeString_append, readValue, skipSpace_cons (by decide)]
    simp [readString_escape]

theorem reads_integer {n : Int} (h : fits n) : Reads (.integer n) :=
  (Exact.integer h).reads fun fuel rest _ hrest => by
    obtain ⟨b, tail, hwrite, hb⟩ := writeInt_eq_cons n
    have hread := readLiteral_writeInt n hrest
    rw [write]
    rw [hwrite, List.cons_append] at hread ⊢
    rw [readValue, skipSpace_cons (starts_of_numeric hb).solid]
    dsimp only
    rw [if_neg (ne_of_numeric hb (by decide)), if_neg (ne_of_numeric hb (by decide)),
      if_neg (ne_of_numeric hb (by decide)), if_neg (ne_of_numeric hb (by decide)),
      if_neg (ne_of_numeric hb (by decide)), if_neg (ne_of_numeric hb (by decide)), hread]
    simp [value_of_fits h]

/-! ## Lists -/

theorem ended_writeItems (items : List Json) (rest : List UInt8) :
    Ended (writeItems items ++ rest) := by
  cases items <;> rw [writeItems] <;> exact .mark (by decide) _

theorem readItems_writeItems {items : List Json} (h : ∀ v ∈ items, Reads v) (fuel : Nat)
    (rest : List UInt8) (hfuel : (writeItems items).length ≤ fuel) :
    readItems fuel (writeItems items ++ rest) = some (items, rest) := by
  induction items generalizing fuel with
  | nil =>
    cases fuel with
    | zero => cases hfuel
    | succ fuel =>
      rw [writeItems, List.singleton_append, readItems, skipSpace_cons (by decide)]
      simp
  | cons v items ih =>
    cases fuel with
    | zero => cases hfuel
    | succ fuel =>
      rw [writeItems, List.cons_append, List.length_cons, List.length_append] at hfuel
      have hvalue := h v List.mem_cons_self fuel (writeItems items ++ rest) (by omega)
        (ended_writeItems items rest)
      have hitems := ih (fun w hw => h w (List.mem_cons_of_mem _ hw)) fuel (by omega)
      rw [writeItems, List.cons_append, List.cons_append, List.append_assoc, readItems,
        skipSpace_cons (by decide)]
      simp [hvalue, hitems]

theorem reads_array {items : List Json} (hexact : ∀ v ∈ items, Exact v)
    (h : ∀ v ∈ items, Reads v) : Reads (.array items) := by
  refine (Exact.array hexact).reads fun fuel rest hfuel hrest => ?_
  cases items with
  | nil => simp [readValue, write, skipSpace, isSpace]
  | cons v items =>
    rw [write, List.cons_append, List.length_cons, List.length_append] at hfuel
    have hvalue := h v List.mem_cons_self fuel (writeItems items ++ rest) (by omega)
      (ended_writeItems items rest)
    have hitems := readItems_writeItems (fun w hw => h w (List.mem_cons_of_mem _ hw)) fuel rest
      (by omega)
    -- the first byte of the first item closes nothing
    obtain ⟨b, tail, hwrite, hb⟩ := (hexact v List.mem_cons_self).write_eq_cons
    rw [hwrite, List.cons_append] at hvalue
    rw [write, List.cons_append, List.cons_append, List.append_assoc, hwrite, List.cons_append,
      readValue, skipSpace_cons (by decide)]
    simp [skipSpace_cons hb.solid, hb.opens, hvalue, hitems]

/-! ## Objects -/

theorem readMember_of_reads {v : Json} (h : Reads v) (k : String) (fuel : Nat)
    {rest : List UInt8} (hfuel : (writeString k ++ 58 :: write v).length ≤ fuel)
    (hrest : Ended rest) :
    readMember fuel (writeString k ++ 58 :: (write v ++ rest)) = some ((some k, v), rest) := by
  cases fuel with
  | zero => cases hfuel
  | succ fuel =>
    rw [List.length_append, List.length_cons] at hfuel
    have hvalue := h fuel rest (by omega) hrest
    rw [writeString_append, readMember, skipSpace_cons (by decide)]
    simp [readString_escape, skipSpace_cons (b := 58) (by decide), hvalue]

theorem ended_writeMembers (members : List (String × Json)) (rest : List UInt8) :
    Ended (writeMembers members ++ rest) := by
  cases members <;> rw [writeMembers] <;> exact .mark (by decide) _

/-- Members with keys that denote texts, as they all do that were written. -/
def keyed (members : List (String × Json)) : List (Option String × Json) :=
  members.map fun m => (some m.1, m.2)

theorem ofMembers_keyed (members : List (String × Json)) :
    ofMembers (keyed members) = .object members := by
  have hkeys : (keyed members).mapM (fun m => m.1.map (·, m.2)) = some members := by
    rw [keyed, List.mapM_map]
    exact List.mapM_pure.trans (congrArg some (List.map_id members))
  rw [ofMembers, hkeys]

theorem readMembers_writeMembers {members : List (String × Json)} (h : ∀ m ∈ members, Reads m.2)
    (fuel : Nat) (rest : List UInt8) (hfuel : (writeMembers members).length ≤ fuel) :
    readMembers fuel (writeMembers members ++ rest) = some (keyed members, rest) := by
  induction members generalizing fuel with
  | nil =>
    cases fuel with
    | zero => cases hfuel
    | succ fuel =>
      rw [writeMembers, List.singleton_append, readMembers, skipSpace_cons (by decide)]
      simp [keyed]
  | cons m members ih =>
    obtain ⟨k, v⟩ := m
    cases fuel with
    | zero => cases hfuel
    | succ fuel =>
      rw [writeMembers, List.cons_append, List.cons_append, List.length_cons,
        List.length_append] at hfuel
      have hv : Reads v := h (k, v) List.mem_cons_self
      have hmember := readMember_of_reads hv k fuel (by omega)
        (ended_writeMembers members rest)
      have hmembers := ih (fun m hm => h m (List.mem_cons_of_mem _ hm)) fuel (by omega)
      rw [writeMembers, readMembers]
      simp only [List.cons_append, List.append_assoc, skipSpace_cons (b := 44) (by decide)]
      simp [hmember, hmembers, keyed]

theorem reads_object {members : List (String × Json)} (hexact : ∀ m ∈ members, Exact m.2)
    (h : ∀ m ∈ members, Reads m.2) : Reads (.object members) := by
  refine (Exact.object hexact).reads fun fuel rest hfuel hrest => ?_
  cases members with
  | nil => simp [readValue, write, skipSpace, isSpace]
  | cons m members =>
    obtain ⟨k, v⟩ := m
    rw [write, List.cons_append, List.cons_append, List.length_cons, List.length_append] at hfuel
    have hv : Reads v := h (k, v) List.mem_cons_self
    have hmember := readMember_of_reads hv k fuel (by omega)
      (ended_writeMembers members rest)
    have hmembers := readMembers_writeMembers (fun m hm => h m (List.mem_cons_of_mem _ hm)) fuel
      rest (by omega)
    have hwhole : ofMembers ((some k, v) :: keyed members) = .object ((k, v) :: members) :=
      ofMembers_keyed ((k, v) :: members)
    rw [writeString_append] at hmember
    rw [write, readValue]
    simp only [List.cons_append, List.append_assoc, writeString_append,
      skipSpace_cons (b := 123) (by decide), skipSpace_cons (b := 34) (by decide)]
    simp [hmember, hmembers, hwhole]

theorem Exact.reads_write {v : Json} (h : v.Exact) : Reads v := by
  induction h with
  | null => exact reads_null
  | bool b => exact reads_bool b
  | integer h => exact reads_integer h
  | string s => exact reads_string s
  | array h ih => exact reads_array h ih
  | object h ih => exact reads_object h ih

/-- What is written of a value is read as the value. -/
theorem Exact.read?_write {v : Json} (h : v.Exact) : read? (write v) = some v := by
  have hread := h.reads_write ((write v).length + 1) [] (Nat.le_succ _) .nothing
  rw [List.append_nil] at hread
  unfold read?
  rw [hread]
  rfl

/-! ## Texts -/

theorem wellFormed_writeItems {items : List Json}
    (h : ∀ v ∈ items, Utf8.WellFormed (write v)) : Utf8.WellFormed (writeItems items) := by
  induction items with
  | nil => exact Utf8.wellFormed_of_all (by decide)
  | cons v items ih =>
    have hcomma : Utf8.WellFormed [44] := Utf8.wellFormed_of_all (by decide)
    have hrest := ih fun w hw => h w (List.mem_cons_of_mem _ hw)
    rw [writeItems]
    exact (hcomma.append (h v List.mem_cons_self)).append hrest

theorem wellFormed_member (k : String) {v : Json} (h : Utf8.WellFormed (write v)) :
    Utf8.WellFormed (writeString k ++ 58 :: write v) := by
  have hcolon : Utf8.WellFormed [58] := Utf8.wellFormed_of_all (by decide)
  exact (wellFormed_writeString k).append (hcolon.append h)

theorem wellFormed_writeMembers {members : List (String × Json)}
    (h : ∀ m ∈ members, Utf8.WellFormed (write m.2)) :
    Utf8.WellFormed (writeMembers members) := by
  induction members with
  | nil => exact Utf8.wellFormed_of_all (by decide)
  | cons m members ih =>
    have hcomma : Utf8.WellFormed [44] := Utf8.wellFormed_of_all (by decide)
    have hmember := wellFormed_member m.1 (h m List.mem_cons_self)
    have hrest := ih fun w hw => h w (List.mem_cons_of_mem _ hw)
    rw [writeMembers]
    exact (hcomma.append hmember).append hrest

theorem Exact.wellFormed_write {v : Json} (h : v.Exact) : Utf8.WellFormed (write v) := by
  induction h with
  | null => exact Utf8.wellFormed_of_all (by decide)
  | bool b => cases b <;> exact Utf8.wellFormed_of_all (by decide)
  | @integer n =>
    rw [write]
    exact wellFormed_writeInt n
  | string s =>
    rw [write]
    exact wellFormed_writeString s
  | @array items h ih =>
    cases items with
    | nil => exact Utf8.wellFormed_of_all (by decide)
    | cons v items =>
      have hopen : Utf8.WellFormed [91] := Utf8.wellFormed_of_all (by decide)
      have hrest := wellFormed_writeItems fun w hw => ih w (List.mem_cons_of_mem _ hw)
      rw [write]
      exact (hopen.append (ih v List.mem_cons_self)).append hrest
  | @object members h ih =>
    cases members with
    | nil => exact Utf8.wellFormed_of_all (by decide)
    | cons m members =>
      have hopen : Utf8.WellFormed [123] := Utf8.wellFormed_of_all (by decide)
      have hmember := wellFormed_member m.1 (ih m List.mem_cons_self)
      have hrest := wellFormed_writeMembers fun w hw => ih w (List.mem_cons_of_mem _ hw)
      rw [write]
      exact (hopen.append hmember).append hrest

/-- The text of a value has the bytes that are written of it. -/
theorem Exact.encode_text {v : Json} (h : v.Exact) : Utf8.encode v.text = write v :=
  h.wellFormed_write.encode_lossy

/-- The text of a value is read as the value. -/
theorem Exact.parse?_text {v : Json} (h : v.Exact) : parse? v.text = some v := by
  rw [parse?, h.encode_text, h.read?_write]

end StageHost.Json

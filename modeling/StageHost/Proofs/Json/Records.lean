import StageHost.Json.Decode
import StageHost.Json.Members
import StageHost.Proofs.Json.Reading
/-
  Values that stand for something of a declared type.
  `Denotes` says that a value is read as it is written, and what it is decoded as. For a record
  the members are matched with the declared fields one by one (`Fills`): a member stands for its
  field, or there is none and the field keeps its default (`Fills.may`). What is written for a
  field that may be absent does one of the two, whichever rule leaves it out (`Stands`). So a type
  of which every value is denoted by its own JSON comes back as it was (`roundTrips_of_denotes`).
-/
namespace StageHost

/-- A key after all others comes last. -/
theorem insertEntry_of_last {α : Type} {k : String} {entries : List (String × α)}
    (h : ∀ e ∈ entries, e.1 < k) (v : α) : insertEntry k v entries = entries ++ [(k, v)] := by
  induction entries with
  | nil => rfl
  | cons e entries ih =>
    have hlt : e.1 < k := h e List.mem_cons_self
    have hne : ¬ k = e.1 := fun heq => String.lt_irrefl k (heq ▸ hlt)
    rw [insertEntry, if_neg (fun hgt => String.lt_irrefl k (String.lt_trans hgt hlt)), if_neg hne,
      ih fun e he => h e (List.mem_cons_of_mem _ he), List.cons_append]

namespace Json

variable {α σ : Type}

/-- Whether a value stands for something: it is exact, and it is decoded as that. -/
structure Denotes (decode : Decoder α) (v : Json) (a : α) : Prop where
  exact : v.Exact
  decoded : decode v = .ok a

/-! ## Single values -/

theorem denotes_string (s : String) : Denotes asString (.string s) s := ⟨.string s, rfl⟩

theorem denotes_bool (b : Bool) : Denotes asBool (.bool b) b := ⟨.bool b, rfl⟩

theorem fits_of_bounds {n : Int} (hl : -9223372036854775808 ≤ n) (hh : n < 18446744073709551616) :
    fits n := by
  have hmin : Int64.minValue.toInt = -9223372036854775808 := by decide
  simp [fits, hmin, hl, UInt64.size, hh]

theorem denotes_integer {low high n : Int} (hl : low ≤ n) (hh : n ≤ high) (hfits : fits n)
    (expected : String) : Denotes (asInteger low high expected) (.integer n) n :=
  ⟨.integer hfits, if_pos ⟨hl, hh⟩⟩

/-- What is decoded may be put into another form. -/
theorem Denotes.map {decode : Decoder α} {v : Json} {a : α} (h : Denotes decode v a) (f : α → σ) :
    Denotes (fun v => f <$> decode v) v (f a) := by
  refine ⟨h.exact, ?_⟩
  rw [h.decoded]
  rfl

theorem denotes_int32 (n : Int32) : Denotes asInt32 (.integer n.toInt) n := by
  have hl := n.minValue_le_toInt
  have hh := n.toInt_le
  have hmin : Int32.minValue.toInt = -2147483648 := by decide
  have hmax : Int32.maxValue.toInt = 2147483647 := by decide
  have hn := (denotes_integer hl hh (fits_of_bounds (by omega) (by omega)) "i32").map Int32.ofInt
  rwa [n.ofInt_toInt] at hn

theorem denotes_int64 (n : Int64) : Denotes asInt64 (.integer n.toInt) n := by
  have hl := n.minValue_le_toInt
  have hh := n.toInt_le
  have hmin : Int64.minValue.toInt = -9223372036854775808 := by decide
  have hmax : Int64.maxValue.toInt = 9223372036854775807 := by decide
  have hn := (denotes_integer hl hh (fits_of_bounds (by omega) (by omega)) "i64").map Int64.ofInt
  rwa [n.ofInt_toInt] at hn

theorem denotes_uint64 (expected : String) (n : UInt64) :
    Denotes (asUInt64 expected) (.ofNat n.toNat) n := by
  have hlt : n.toNat < 18446744073709551616 := n.toNat_lt
  have hmax : (UInt64.size : Int) - 1 = 18446744073709551615 := by decide
  have hnat : Denotes (asInteger 0 (UInt64.size - 1) expected) (.ofNat n.toNat) n.toNat :=
    denotes_integer (by omega) (by omega) (fits_of_bounds (by omega) (by omega)) expected
  have hn := hnat.map fun n => UInt64.ofNat n.toNat
  rwa [Int.toNat_natCast, UInt64.ofNat_toNat] at hn

/-- A value other than `null` stands for something that is there. -/
theorem Denotes.present {decode : Decoder α} {v : Json} {a : α} (h : Denotes decode v a)
    (hv : v ≠ .null) : Denotes (asOption decode) v (some a) := by
  have hsome : asOption decode v = some <$> decode v := by
    cases v with
    | null => exact absurd rfl hv
    | _ => rfl
  refine ⟨h.exact, ?_⟩
  rw [hsome, h.decoded]
  rfl

/-! ## Lists and maps -/

theorem denotes_list {decode : Decoder α} {toJson : α → Json}
    (h : ∀ a, Denotes decode (toJson a) a) (items : List α) :
    Denotes (asList decode) (.array (items.map toJson)) items := by
  constructor
  · refine .array fun v hv => ?_
    obtain ⟨a, -, rfl⟩ := List.mem_map.1 hv
    exact (h a).exact
  · have hdecode : decode ∘ toJson = pure := funext fun a => (h a).decoded
    unfold asList
    dsimp only
    rw [List.mapM_map, hdecode]
    exact List.mapM_pure.trans (congrArg Except.ok (List.map_id items))

/-- Entries in the order of their keys are added as they are. -/
theorem addEntries_ordered {entries : List (String × String)} {m : StringMap}
    (h : Ordered (m.entries ++ entries)) :
    addEntries m (entries.map fun e => (e.1, .string e.2)) = .ok ⟨m.entries ++ entries, h⟩ := by
  induction entries generalizing m with
  | nil => simp [addEntries]
  | cons e entries ih =>
    obtain ⟨k, s⟩ := e
    have hbefore : ∀ e ∈ m.entries, e.1 < k := fun e he =>
      (List.pairwise_append.1 h).2.2 e he (k, s) List.mem_cons_self
    have hinsert : (m.insert k s).entries = m.entries ++ [(k, s)] := insertEntry_of_last hbefore s
    have hcons : addEntries m (((k, s) :: entries).map fun e => (e.1, .string e.2)) =
        addEntries (m.insert k s) (entries.map fun e => (e.1, .string e.2)) := rfl
    have hrest : Ordered ((m.insert k s).entries ++ entries) := by
      rw [hinsert, List.append_assoc]
      exact h
    rw [hcons, ih hrest]
    simp only [hinsert, List.append_assoc, List.singleton_append]

theorem denotes_map (m : StringMap) : Denotes asMap (ofMap m) m := by
  refine ⟨.object fun e he => ?_, addEntries_ordered (m := .empty) m.ordered⟩
  obtain ⟨e, -, rfl⟩ := List.mem_map.1 he
  exact .string e.2

/-! ## Records -/

/-- Whether some members fill a record, field by field: a member stands for each field that must be
present, and where there is none for another field, the field stays as it is. -/
inductive Fills : List (Field σ) → Members → σ → σ → Prop
  | nil (s : σ) : Fills [] [] s s
  | absent {f : Field σ} {fields : List (Field σ)} {members : Members} {s t : σ}
    (hf : f.required = false) (h : Fills fields members s t) : Fills (f :: fields) members s t
  | present {f : Field σ} {fields : List (Field σ)} {members : Members} {v : Json} {s s' t : σ}
    (hv : v.Exact) (hread : f.read v s = .ok s') (h : Fills fields members s' t) :
    Fills (f :: fields) ((f.name, v) :: members) s t

theorem Fills.exact {fields : List (Field σ)} {members : Members} {s t : σ}
    (h : Fills fields members s t) : ∀ m ∈ members, m.2.Exact := by
  induction h with
  | nil => exact fun m hm => nomatch hm
  | absent hf h ih => exact ih
  | present hv hread h ih =>
    intro m hm
    obtain rfl | hm := List.mem_cons.1 hm
    · exact hv
    · exact ih m hm

/-- The members are read field by field. The fields in `before` are done: what was seen is named
after them, and those that must be present were. -/
theorem Fills.readFields {fields : List (Field σ)} {members : Members} {s t : σ}
    (h : Fills fields members s t) (before : List (Field σ)) (seen : List String)
    (hnames : ((before ++ fields).map (·.name)).Nodup)
    (hseen : ∀ name ∈ seen, name ∈ before.map (·.name))
    (hbefore : ∀ f ∈ before, f.required → f.name ∈ seen) :
    ∃ seen', readFields (before ++ fields) members seen s = .ok (seen', t) ∧
      ∀ f ∈ before ++ fields, f.required → f.name ∈ seen' := by
  induction h generalizing before seen with
  | nil s =>
    rw [List.append_nil]
    exact ⟨seen, rfl, hbefore⟩
  | @absent f fields members s t hf h ih =>
    rw [List.append_cons] at hnames ⊢
    refine ih _ _ hnames (fun name hname => ?_) fun g hg hreq => ?_
    · rw [List.map_append]
      exact List.mem_append_left _ (hseen name hname)
    · obtain hg | rfl : g ∈ before ∨ g = f := by simpa using hg
      · exact hbefore g hg hreq
      · rw [hf] at hreq
        cases hreq
  | @present f fields members v s s' t hv hread h ih =>
    have hfresh : f.name ∉ before.map (·.name) := fun hname => by
      rw [List.map_append, List.map_cons] at hnames
      exact (List.nodup_append.1 hnames).2.2 f.name hname f.name List.mem_cons_self rfl
    have hfind : (before ++ f :: fields).find? (·.name == f.name) = some f := by
      have hnone : before.find? (·.name == f.name) = none :=
        List.find?_eq_none.2 fun g hg heq => hfresh (List.mem_map.2 ⟨g, hg, beq_iff_eq.1 heq⟩)
      rw [List.find?_append, hnone, List.find?_cons_of_pos (by simp), Option.none_or]
    have hnew : seen.contains f.name = false := by
      simpa using fun hname => hfresh (hseen f.name hname)
    rw [List.append_cons] at hnames
    obtain ⟨seen', hrest, hall⟩ := ih (before ++ [f]) (f.name :: seen) hnames
      (fun name hname => by
        rw [List.map_append, List.map_singleton]
        obtain rfl | hname := List.mem_cons.1 hname
        · exact List.mem_append_right _ List.mem_cons_self
        · exact List.mem_append_left _ (hseen name hname))
      (fun g hg hreq => by
        obtain hg | rfl : g ∈ before ∨ g = f := by simpa using hg
        · exact List.mem_cons_of_mem _ (hbefore g hg hreq)
        · exact List.mem_cons_self)
    rw [← List.append_cons] at hrest hall
    refine ⟨seen', ?_, hall⟩
    rw [Json.readFields, hfind]
    dsimp only
    rw [hnew, hread]
    exact hrest

/-- Members that fill a record stand for it. The empty list after them lets every member be one
before some others. -/
theorem Fills.denotes {name : String} {fields : List (Field σ)} {members : Members} {blank t : σ}
    (h : Fills fields (members ++ []) blank t) (hnames : (fields.map (·.name)).Nodup) :
    Denotes (asRecord name fields blank) (.object members) t := by
  rw [List.append_nil] at h
  refine ⟨.object h.exact, ?_⟩
  obtain ⟨seen, hread, hall⟩ := h.readFields [] [] hnames (by simp) (by simp)
  have hfound : fields.find? (fun f => f.required && !seen.contains f.name) = none := by
    refine List.find?_eq_none.2 fun f hf hmissing => ?_
    have hmissing : f.required ∧ f.name ∉ seen := by simpa using hmissing
    exact hmissing.2 (hall f hf hmissing.1)
  rw [List.nil_append] at hread
  unfold asRecord
  dsimp only
  rw [hread]
  dsimp only [bind, Except.bind]
  rw [hfound]

/-! ## Fields -/

section Fields

variable {name : String} {decode : Decoder α} {set : α → σ → σ} {fields : List (Field σ)}
  {members : Members} {v : Json} {a : α} {s t : σ}

/-- A member for a field that must be present. -/
theorem Fills.must (hv : Denotes decode v a) (h : Fills fields members (set a s) t) :
    Fills (.must name decode set :: fields) ((name, v) :: members) s t := by
  refine .present (f := .must name decode set) hv.exact ?_ h
  show (do return set (← decode v) s) = _
  rw [hv.decoded]
  rfl

/-- A member for a field that may be absent. -/
theorem Fills.given (hv : Denotes decode v a) (h : Fills fields members (set a s) t) :
    Fills (.may name decode set :: fields) ((name, v) :: members) s t := by
  refine .present (f := .may name decode set) hv.exact ?_ h
  show (do return set (← decode v) s) = _
  rw [hv.decoded]
  rfl

/-- What is written for a field that may be absent: nothing if it holds its default, and else a
member that stands for what it holds. -/
inductive Stands (name : String) (decode : Decoder α) (default a : α) : Members → Prop
  | leftOut (h : a = default) : Stands name decode default a []
  | written {v : Json} (h : Denotes decode v a) : Stands name decode default a [(name, v)]

/-- Leaving a field out where it holds its default and putting the default where it is missing
cancel out. -/
theorem Fills.may {default : α} {member : Members} (hm : Stands name decode default a member)
    (hdefault : set default s = s) (h : Fills fields members (set a s) t) :
    Fills (.may name decode set :: fields) (member ++ members) s t := by
  cases hm with
  | leftOut ha =>
    rw [ha, hdefault] at h
    exact .absent rfl h
  | written hv => exact .given hv h

end Fields

/-! ## Members that are left out -/

section Members

variable (name : String)

theorem stands_unlessBlank (s : String) :
    Stands name asString "" s (unlessBlank name s) := by
  unfold unlessBlank
  split
  · rename_i hempty
    exact .leftOut (String.isEmpty_iff.1 hempty)
  · exact .written (denotes_string s)

theorem stands_unlessNoEntries (m : StringMap) :
    Stands name asMap {} m (unlessNoEntries name m) := by
  unfold unlessNoEntries
  split
  · rename_i hempty
    obtain ⟨entries, hordered⟩ := m
    obtain rfl : entries = [] := List.isEmpty_iff.1 hempty
    exact .leftOut rfl
  · exact .written (denotes_map m)

theorem stands_unlessNoItems {decode : Decoder α} {toJson : α → Json}
    (h : ∀ a, Denotes decode (toJson a) a) (items : List α) :
    Stands name (asList decode) [] items (unlessNoItems name toJson items) := by
  unfold unlessNoItems
  split
  · rename_i hempty
    exact .leftOut (List.isEmpty_iff.1 hempty)
  · exact .written (denotes_list h items)

theorem stands_unlessFalse (b : Bool) : Stands name asBool false b (unlessFalse name b) := by
  cases b with
  | false => exact .leftOut rfl
  | true => exact .written (denotes_bool true)

theorem stands_ifSome {decode : Decoder α} {toJson : α → Json}
    (h : ∀ a, Denotes decode (toJson a) a) (hnull : ∀ a, toJson a ≠ .null) (o : Option α) :
    Stands name (asOption decode) none o (ifSome name toJson o) := by
  cases o with
  | none => exact .leftOut rfl
  | some a => exact .written ((h a).present (hnull a))

end Members

/-- A text that may be absent. -/
theorem Fills.text? {name : String} {fields : List (Field σ)} {members : Members} {s t : σ}
    {o : Option String} {set : Option String → σ → σ} (hdefault : set none s = s)
    (h : Fills fields members (set o s) t) :
    Fills (.may name (asOption asString) set :: fields) (ifSome name .string o ++ members) s t :=
  .may (stands_ifSome name denotes_string (fun _ => nofun) o) hdefault h

/-! ## Types -/

/-- Whether the values of a type come back as they were when their JSON is written and decoded. It
does not matter whether the JSON is taken as bytes or as text. -/
structure RoundTrips (toJson : α → Json) (decode : Decoder α) : Prop where
  bytes : ∀ a, (read? (write (toJson a))).map decode = some (.ok a)
  text : ∀ a, (parse? (toJson a).text).map decode = some (.ok a)
  /-- Different values are written differently. -/
  injective : ∀ a b,
    write (toJson a) = write (toJson b) ∨ (toJson a).text = (toJson b).text → a = b

theorem roundTrips_of_denotes {toJson : α → Json} {decode : Decoder α}
    (h : ∀ a, Denotes decode (toJson a) a) : RoundTrips toJson decode := by
  have hbytes (a : α) : (read? (write (toJson a))).map decode = some (.ok a) := by
    rw [(h a).exact.read?_write, Option.map_some, (h a).decoded]
  have htext (a : α) : (parse? (toJson a).text).map decode = some (.ok a) := by
    rw [(h a).exact.parse?_text, Option.map_some, (h a).decoded]
  refine ⟨hbytes, htext, fun a b hab => ?_⟩
  have hsame : some (Except.ok (ε := DecodeError) a) = some (.ok b) := by
    obtain hab | hab := hab
    · rw [← hbytes a, hab, hbytes b]
    · rw [← htext a, hab, htext b]
  exact Except.ok.inj (Option.some.inj hsame)

end Json
end StageHost

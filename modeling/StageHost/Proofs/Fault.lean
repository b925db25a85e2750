import StageHost.Proofs.Linker
import StageHost.Proofs.Prepare
/-
  What is wrong with imports and exports.
  An import or an export offends in at most one way (`Import.Offends`, `Export.Offends`), and the
  check of a list stops at the first one that does (`checkImports_eq_error`,
  `checkExports_eq_error`). If none does, the namespaces found are just those imported from.
-/
namespace StageHost

/-! ## First faults -/

section

variable {α ε : Type} {O : α → ε → Prop} {x : α} {l : List α} {e : ε}

/-- Whether an error is that of the first element of a list that offends. -/
def FirstFault (O : α → ε → Prop) (l : List α) (e : ε) : Prop :=
  ∃ before x after, l = before ++ x :: after ∧ (∀ y ∈ before, ∀ e, ¬ O y e) ∧ O x e

theorem not_firstFault_nil : ¬ FirstFault O [] e := by
  rintro ⟨before, x, after, hl, -⟩
  simp at hl

theorem firstFault_cons :
    FirstFault O (x :: l) e ↔ O x e ∨ (∀ e, ¬ O x e) ∧ FirstFault O l e := by
  constructor
  · rintro ⟨before, y, after, hl, hbefore, hy⟩
    cases before with
    | nil =>
      cases hl
      exact .inl hy
    | cons z before =>
      cases hl
      obtain ⟨hz, hrest⟩ := List.forall_mem_cons.1 hbefore
      exact .inr ⟨hz, before, y, after, rfl, hrest, hy⟩
  · rintro (hx | ⟨hx, before, y, after, rfl, hbefore, hy⟩)
    · exact ⟨[], x, l, rfl, by simp, hx⟩
    · exact ⟨x :: before, y, after, rfl, List.forall_mem_cons.2 ⟨hx, hbefore⟩, hy⟩

/-- There is a first fault unless no element offends. -/
theorem exists_firstFault : (∃ e, FirstFault O l e) ↔ ∃ x ∈ l, ∃ e, O x e := by
  induction l with
  | nil => simp [not_firstFault_nil]
  | cons x l ih =>
    simp only [firstFault_cons, List.mem_cons, or_and_right, exists_or, exists_eq_left, ← ih]
    constructor
    · rintro (hx | ⟨e, -, hl⟩)
      · exact .inl hx
      · exact .inr ⟨e, hl⟩
    · rintro (hx | ⟨e, hl⟩)
      · exact .inl hx
      · by_cases hx : ∃ e, O x e
        · exact .inl hx
        · exact .inr ⟨e, not_exists.1 hx, hl⟩

/-- Without a first fault no element offends. -/
theorem not_offends_of_no_fault (h : ∀ e, ¬ FirstFault O l e) : ∀ x ∈ l, ∀ e, ¬ O x e := by
  intro x hx e he
  obtain ⟨e', he'⟩ := exists_firstFault.2 ⟨x, hx, e, he⟩
  exact h e' he'

theorem no_fault_of_not_offends (h : ∀ x ∈ l, ∀ e, ¬ O x e) (e : ε) : ¬ FirstFault O l e := by
  intro he
  obtain ⟨x, hx, e', he'⟩ := exists_firstFault.1 ⟨e, he⟩
  exact h x hx e' he'

/-- The first fault as a check finds it that stops at elements that offend. -/
theorem firstFault_cons_of_check {β : Type} {c : Except ε β} (h : ∀ e, c = .error e ↔ O x e) :
    FirstFault O (x :: l) e ↔ c = .error e ∨ (∃ a, c = .ok a) ∧ FirstFault O l e := by
  rw [firstFault_cons]
  simp only [← h]
  cases c <;> simp

end

/-! ## Imports -/

namespace Import

/-- What is wrong with an import. The namespace counts first, then the name, then whether it is a
function, then its signature. -/
inductive Offends (i : Import) : PrepareError → Prop
  | space (h : ∀ n : Namespace, i.space ≠ n.moduleName) :
    Offends i (.unknownNamespace i.space i.name)
  | name {n : Namespace} (hn : n ≠ .wasi) (hspace : i.space = n.moduleName)
    (h : ∀ f : HostFunction, f.namespaceOf = n → f.name ≠ i.name) :
    Offends i (.unknownHostFunction i.space i.name)
  | kind (f : HostFunction) (hspace : i.space = f.namespaceOf.moduleName) (hname : i.name = f.name)
    (h : i.signature = none) : Offends i (.nonFunctionImport i.space i.name)
  | signature (f : HostFunction) (hspace : i.space = f.namespaceOf.moduleName)
    (hname : i.name = f.name) {actual : Signature} (h : i.signature = some actual)
    (hne : actual ≠ f.signature) :
    Offends i (.importSignature i.space i.name f.signature actual)

/-- What an import is accepted for. -/
def Accepted (i : Import) (n : Namespace) : Prop :=
  i.space = n.moduleName ∧ (n = .wasi ∨ ∃ f : HostFunction, i = .ofHost f)

theorem accepted_or_offends (i : Import) : (∃ n, i.Accepted n) ∨ ∃ e, i.Offends e := by
  cases hspace : Namespace.ofModuleName? i.space with
  | none =>
    refine .inr ⟨_, .space fun n hn => ?_⟩
    rw [Namespace.ofModuleName?_eq_some.2 hn] at hspace
    cases hspace
  | some n =>
    have hn := Namespace.ofModuleName?_eq_some.1 hspace
    by_cases hwasi : n = .wasi
    · exact .inl ⟨n, hn, .inl hwasi⟩
    cases hname : HostFunction.ofName? n i.name with
    | none =>
      refine .inr ⟨_, .name hwasi hn fun f hf hfn => ?_⟩
      rw [HostFunction.ofName?_eq_some.2 ⟨hf, hfn⟩] at hname
      cases hname
    | some f =>
      obtain ⟨rfl, hfn⟩ := HostFunction.ofName?_eq_some.1 hname
      cases hsig : i.signature with
      | none => exact .inr ⟨_, .kind f hn hfn.symm hsig⟩
      | some actual =>
        by_cases hsame : actual = f.signature
        · refine .inl ⟨f.namespaceOf, hn, .inr ⟨f, ?_⟩⟩
          obtain ⟨space, name, signature⟩ := i
          simp_all [ofHost]
        · exact .inr ⟨_, .signature f hn hfn.symm hsig hsame⟩

/-- How an import from a namespace of the host is checked. -/
theorem check_of_space {i : Import} {n : Namespace} (hn : n ≠ .wasi)
    (hspace : i.space = n.moduleName) :
    i.check = match HostFunction.ofName? n i.name with
      | none => .error (.unknownHostFunction i.space i.name)
      | some f =>
        match i.signature with
        | none => .error (.nonFunctionImport i.space i.name)
        | some actual =>
          if actual = f.signature then .ok n
          else .error (.importSignature i.space i.name f.signature actual) := by
  unfold check
  rw [Namespace.ofModuleName?_eq_some.2 hspace]
  cases n with
  | api | scheduler => rfl
  | wasi => exact absurd rfl hn

theorem check_of_name {i : Import} (f : HostFunction)
    (hspace : i.space = f.namespaceOf.moduleName) (hname : i.name = f.name) :
    i.check = match i.signature with
      | none => .error (.nonFunctionImport i.space i.name)
      | some actual =>
        if actual = f.signature then .ok f.namespaceOf
        else .error (.importSignature i.space i.name f.signature actual) := by
  rw [check_of_space f.namespaceOf_ne_wasi hspace,
    HostFunction.ofName?_eq_some.2 ⟨rfl, hname.symm⟩]

theorem check_of_accepted {i : Import} {n : Namespace} (h : i.Accepted n) : i.check = .ok n := by
  obtain ⟨hspace, rfl | ⟨f, rfl⟩⟩ := h
  · unfold check
    rw [hspace, Namespace.ofModuleName?_moduleName]
  · obtain rfl : f.namespaceOf = n := Namespace.moduleName_injective hspace
    rw [check_of_name f rfl rfl]
    exact if_pos rfl

theorem check_of_offends {i : Import} {e : PrepareError} (h : i.Offends e) :
    i.check = .error e := by
  cases h with
  | space h =>
    have hnone : Namespace.ofModuleName? i.space = none :=
      Option.eq_none_iff_forall_ne_some.2 fun n hn => h n (Namespace.ofModuleName?_eq_some.1 hn)
    unfold check
    rw [hnone]
  | name hn hspace h =>
    have hnone : HostFunction.ofName? _ i.name = none :=
      Option.eq_none_iff_forall_ne_some.2 fun f hf =>
        h f (HostFunction.ofName?_eq_some.1 hf).1 (HostFunction.ofName?_eq_some.1 hf).2
    rw [check_of_space hn hspace, hnone]
  | kind f hspace hname h => rw [check_of_name f hspace hname, h]
  | signature f hspace hname h hne =>
    rw [check_of_name f hspace hname, h]
    exact if_neg hne

theorem check_eq_error {i : Import} {e : PrepareError} : i.check = .error e ↔ i.Offends e := by
  refine ⟨fun h => ?_, check_of_offends⟩
  rcases accepted_or_offends i with ⟨n, hn⟩ | ⟨e', he'⟩
  · rw [check_of_accepted hn] at h
    cases h
  · rw [check_of_offends he'] at h
    cases h
    exact he'

theorem check_eq_ok {i : Import} {n : Namespace} : i.check = .ok n ↔ i.Accepted n := by
  refine ⟨fun h => ?_, check_of_accepted⟩
  rcases accepted_or_offends i with ⟨n', hn'⟩ | ⟨e, he⟩
  · rw [check_of_accepted hn'] at h
    cases h
    exact hn'
  · rw [check_of_offends he] at h
    cases h

/-- Nothing is wrong with the imports of the system interface and of the host's functions. -/
theorem not_offends_iff {i : Import} :
    (∀ e, ¬ i.Offends e) ↔
      i.space = Namespace.wasi.moduleName ∨ ∃ f : HostFunction, i = .ofHost f := by
  constructor
  · intro h
    rcases accepted_or_offends i with ⟨n, hspace, rfl | hf⟩ | ⟨e, he⟩
    · exact .inl hspace
    · exact .inr hf
    · exact absurd he (h e)
  · intro h e he
    have hchecked : ∃ n, i.check = .ok n := by
      rcases h with hspace | ⟨f, rfl⟩
      · exact ⟨.wasi, check_of_accepted ⟨hspace, .inl rfl⟩⟩
      · exact ⟨f.namespaceOf, check_of_accepted ⟨rfl, .inr ⟨f, rfl⟩⟩⟩
    obtain ⟨n, hn⟩ := hchecked
    rw [check_of_offends he] at hn
    cases hn

end Import

/-! ## Exports -/

/-- The names of exports whose signatures are fixed. -/
inductive Fixed : String → Signature → Prop
  | initializer : Fixed Program.initializerName .unit
  | stage (s : Stage) : Fixed s.exportName s.signature

theorem Fixed.unique {name : String} {s t : Signature} (hs : Fixed name s) (ht : Fixed name t) :
    s = t := by
  cases hs with
  | initializer =>
    generalize hname : Program.initializerName = name at ht
    cases ht with
    | initializer => rfl
    | stage u => exact absurd hname.symm u.exportName_ne_initializer
  | stage s =>
    generalize hname : s.exportName = name at ht
    cases ht with
    | initializer => exact absurd hname s.exportName_ne_initializer
    | stage u => rw [Stage.exportName_injective hname]

namespace Export

/-- What is wrong with an export. -/
inductive Offends (e : Export) : PrepareError → Prop
  | signature {expected actual : Signature} {body : Statement} (h : Fixed e.name expected)
    (hvalue : e.value = .function actual body) (hne : actual ≠ expected) :
    Offends e (.exportSignature e.name expected (some actual))
  | kind {expected : Signature} {k : Store} (h : Fixed e.name expected)
    (hvalue : e.value = .store k) : Offends e (.exportSignature e.name expected none)

theorem check_eq_error {e : Export} {s : Signature} (h : Fixed e.name s) {err : PrepareError} :
    e.value.check e.name s = .error err ↔ e.Offends err := by
  constructor
  · intro hcheck
    unfold Exported.check at hcheck
    split at hcheck
    · split at hcheck <;> cases hcheck
      exact .signature h ‹_› ‹_›
    · cases hcheck
      exact .kind h ‹_›
  · intro hoffends
    unfold Exported.check
    cases hoffends with
    | signature h' hvalue hne =>
      obtain rfl := h.unique h'
      rw [hvalue]
      exact if_neg hne
    | kind h' hvalue =>
      obtain rfl := h.unique h'
      rw [hvalue]

/-- Nothing is wrong with exports whose signatures are as fixed, where they are. -/
theorem not_offends_iff {e : Export} :
    (∀ err, ¬ e.Offends err) ↔ ∀ s, Fixed e.name s → ∃ body, e.value = .function s body := by
  constructor
  · intro h s hs
    cases hcheck : e.value.check e.name s with
    | ok u => exact Exported.function_of_check hcheck
    | error err => exact absurd ((check_eq_error hs).1 hcheck) (h err)
  · intro h err hoffends
    cases hoffends with
    | signature hs hvalue hne =>
      obtain ⟨body, hbody⟩ := h _ hs
      rw [hvalue] at hbody
      cases hbody
      exact hne rfl
    | kind hs hvalue =>
      obtain ⟨body, hbody⟩ := h _ hs
      rw [hvalue] at hbody
      cases hbody

/-- An export of any other name is of no concern. -/
theorem not_offends_of_free {e : Export} (h : ∀ s, ¬ Fixed e.name s) (err : PrepareError) :
    ¬ e.Offends err := not_offends_iff.2 (fun s hs => absurd hs (h s)) err

end Export

namespace Program

/-! ## Lists of imports and exports -/

theorem checkImports_eq_error {l : List Import} {done : NamespaceSet} {err : PrepareError} :
    checkImports l done = .error err ↔ FirstFault Import.Offends l err := by
  induction l generalizing done with
  | nil => simp [checkImports, not_firstFault_nil]
  | cons i rest ih =>
    rw [firstFault_cons_of_check fun e => Import.check_eq_error, checkImports]
    cases i.check <;> simp [ih]

theorem exists_checkImports {l : List Import} (h : ∀ i ∈ l, ∀ e, ¬ i.Offends e)
    (done : NamespaceSet) : ∃ found, checkImports l done = .ok found := by
  cases hc : checkImports l done with
  | ok found => exact ⟨found, rfl⟩
  | error e => exact absurd (checkImports_eq_error.1 hc) (no_fault_of_not_offends h e)

/-- The namespaces found are those imported from. -/
theorem has_of_checkImports {l : List Import} {done found : NamespaceSet}
    (h : checkImports l done = .ok found) (n : Namespace) :
    found.has n ↔ done.has n ∨ ∃ i ∈ l, i.space = n.moduleName := by
  induction l generalizing done with
  | nil =>
    cases h
    simp
  | cons i rest ih =>
    unfold checkImports at h
    split at h
    · rename_i m hcheck
      have hspace := (Import.check_eq_ok.1 hcheck).1
      have hsame : i.space = n.moduleName ↔ n = m := by
        rw [hspace]
        exact ⟨fun h => (Namespace.moduleName_injective h).symm, fun h => by rw [h]⟩
      rw [ih h, NamespaceSet.has_insert]
      simp [hsame, or_assoc, or_left_comm]
    · cases h

theorem checkExports_eq_error {l : List Export} {stages : StageSet} {hasInit : Bool}
    {err : PrepareError} :
    checkExports l stages hasInit = .error err ↔ FirstFault Export.Offends l err := by
  induction l generalizing stages hasInit with
  | nil => simp [checkExports, not_firstFault_nil]
  | cons e rest ih =>
    unfold checkExports
    by_cases hinit : e.name = initializerName
    · have hfixed : Fixed e.name .unit := hinit ▸ .initializer
      rw [if_pos hinit, firstFault_cons_of_check fun err => Export.check_eq_error hfixed]
      cases e.value.check e.name .unit <;> simp [ih]
    · rw [if_neg hinit]
      cases hstage : Stage.ofExportName? e.name with
      | none =>
        have hfree : ∀ s, ¬ Fixed e.name s := fun s hs => by
          generalize e.name = name at hs hinit hstage
          cases hs with
          | initializer => exact hinit rfl
          | stage s =>
            rw [Stage.ofExportName?_exportName] at hstage
            cases hstage
        have hok : ∀ err, (.ok () : Except PrepareError Unit) = .error err ↔ e.Offends err :=
          fun err => by simp [Export.not_offends_of_free hfree]
        simp [firstFault_cons_of_check hok, ih]
      | some stage =>
        have hfixed : Fixed e.name stage.signature :=
          Stage.exportName_of_ofExportName? hstage ▸ .stage stage
        rw [firstFault_cons_of_check fun err => Export.check_eq_error hfixed]
        dsimp only
        cases e.value.check e.name stage.signature <;> simp [ih]

theorem exists_checkExports {l : List Export} (h : ∀ e ∈ l, ∀ err, ¬ e.Offends err)
    (stages : StageSet) (hasInit : Bool) : ∃ found, checkExports l stages hasInit = .ok found := by
  cases hc : checkExports l stages hasInit with
  | ok found => exact ⟨found, rfl⟩
  | error e => exact absurd (checkExports_eq_error.1 hc) (no_fault_of_not_offends h e)

/-- Whether there is an initializer is found out too. -/
theorem initializer_of_checkExports {l : List Export} {stages : StageSet} {hasInit : Bool}
    {found : StageSet × Bool} (h : checkExports l stages hasInit = .ok found) :
    found.2 ↔ hasInit ∨ ∃ e ∈ l, e.name = initializerName := by
  induction l generalizing stages hasInit with
  | nil =>
    cases h
    simp
  | cons e rest ih =>
    unfold checkExports at h
    split at h
    · rename_i hinit
      split at h
      · simpa [hinit] using ih h
      · cases h
    · rename_i hinit
      split at h
      · simpa [hinit] using ih h
      · split at h
        · simpa [hinit] using ih h
        · cases h

end Program
end StageHost

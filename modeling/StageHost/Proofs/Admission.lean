import StageHost.Proofs.Fault
import StageHost.Proofs.Guest.SharedMemory
/-
  What preparing a program decides.
  `Refused` has the errors of a program: that of the first import that offends, else that of the
  first export that does, else a missing memory. Once a program is prepared nothing of this kind
  goes wrong later on (`Prepared.Ready`): its imports are linked, the handle to each stage that it
  exports is found in the table that calls look in, and calls to the host find a memory.
  `prepare_decides` says all this of every program that is well formed.
-/
namespace StageHost
namespace Program

/-! ## Preparing -/

/-- A well-formed program: no two exports are of one name, and code calls what is imported. -/
structure Valid (p : Program) : Prop where
  names : (p.exports.map (·.name)).Nodup
  needs : ∀ body ∈ p.bodies, ∀ i ∈ body.imports, ∃ j ∈ p.imports, j.sameName i

/-- Whether the system interface has what is imported from it. -/
def KnowsSystem (p : Program) : Prop :=
  ∀ i ∈ p.imports, i.space = Namespace.wasi.moduleName →
    ∃ s ∈ i.signature, SystemInterface.provides i.name s

/-- Whether a function of the host is imported. -/
def Bridged (p : Program) : Prop :=
  ∃ i ∈ p.imports, i.space = Namespace.api.moduleName ∨ i.space = Namespace.scheduler.moduleName

/-- Whether the memory is exported under the name that the host looks for. -/
def OffersMemory (p : Program) : Prop := ⟨memoryName, .store .memory⟩ ∈ p.exports

/-- What is asked of a program to be prepared. -/
structure Admissible (p : Program) : Prop where
  imports : ∀ i ∈ p.imports, i.space ≠ Namespace.wasi.moduleName →
    ∃ f : HostFunction, i = .ofHost f
  exports : ∀ e ∈ p.exports, ∀ s, Fixed e.name s → ∃ body, e.value = .function s body
  memory : p.Bridged → p.OffersMemory

/-- The errors of a program: that of the first import that offends, else that of the first export
that does, else a missing memory. -/
inductive Refused (p : Program) : PrepareError → Prop
  | imports {err : PrepareError} (h : FirstFault Import.Offends p.imports err) : Refused p err
  | exports {err : PrepareError} (himports : ∀ i ∈ p.imports, ∀ e, ¬ i.Offends e)
    (h : FirstFault Export.Offends p.exports err) : Refused p err
  | memory (himports : ∀ i ∈ p.imports, ∀ e, ¬ i.Offends e)
    (hexports : ∀ e ∈ p.exports, ∀ err, ¬ e.Offends err) (hbridged : p.Bridged)
    (hmemory : ¬ p.OffersMemory) : Refused p .missingMemory

theorem exportsMemory_iff {p : Program} : p.exportsMemory ↔ p.OffersMemory := by
  unfold exportsMemory OffersMemory
  rw [List.any_eq_true]
  constructor
  · rintro ⟨⟨name, value⟩, he, hshared⟩
    rw [Bool.and_eq_true, beq_iff_eq] at hshared
    obtain ⟨rfl, hvalue⟩ := hshared
    split at hvalue
    · rename_i hstore
      obtain rfl : value = .store .memory := hstore
      exact he
    · cases hvalue
  · exact fun he => ⟨_, he, rfl⟩

theorem repeatsExport_iff {l : List Export} :
    repeatsExport l = false ↔ (l.map (·.name)).Nodup := by
  induction l with
  | nil => simp [repeatsExport]
  | cons e rest ih => simp [repeatsExport, ih]

theorem bridged_iff {p : Program} {found : NamespaceSet}
    (h : checkImports p.imports .empty = .ok found) :
    (found.has .api || found.has .scheduler) ↔ p.Bridged := by
  rw [Bool.or_eq_true, has_of_checkImports h, has_of_checkImports h]
  simp only [NamespaceSet.has_empty, Bool.false_eq_true, false_or, Bridged, ← exists_or,
    ← and_or_left]

/-- Imports that nothing is wrong with are linked. -/
theorem links_of_checkImports {p : Program} (hs : p.KnowsSystem) {found : NamespaceSet}
    (h : checkImports p.imports .empty = .ok found)
    (himports : ∀ i ∈ p.imports, ∀ e, ¬ i.Offends e) :
    ∀ i ∈ p.imports, (Linker.mk (Linker.functionsOf found)).resolves i := by
  intro i hi
  have hhas : ∀ n : Namespace, i.space = n.moduleName → found.has n := fun n hn =>
    (has_of_checkImports h n).2 (.inr ⟨i, hi, hn⟩)
  rcases Import.not_offends_iff.1 (himports i hi) with hspace | ⟨f, rfl⟩
  · obtain ⟨s, hsig, hprovides⟩ := hs i hi hspace
    exact Linker.resolves_system (hhas .wasi hspace) hspace hsig hprovides
  · exact Linker.resolves_ofHost (hhas f.namespaceOf rfl)

theorem prepare_of_refused {p : Program} (hp : p.Valid) {err : PrepareError} (h : p.Refused err)
    (name digest : String) : p.prepare name digest = .error err := by
  have hnames : ¬ repeatsExport p.exports := by
    rw [repeatsExport_iff.2 hp.names]
    simp
  unfold prepare
  rw [if_neg hnames]
  cases h with
  | imports h => rw [checkImports_eq_error.2 h]
  | exports himports h =>
    obtain ⟨found, hfound⟩ := exists_checkImports himports .empty
    rw [hfound, checkExports_eq_error.2 h]
  | memory himports hexports hbridged hmemory =>
    obtain ⟨found, hfound⟩ := exists_checkImports himports .empty
    obtain ⟨stages, hstages⟩ := exists_checkExports hexports .empty false
    have hnone : ¬ p.exportsMemory := fun hm => hmemory (exportsMemory_iff.1 hm)
    rw [hfound, hstages]
    refine if_pos ?_
    rw [Bool.and_eq_true, bridged_iff hfound]
    exact ⟨hbridged, by simpa using hnone⟩

theorem admissible_iff {p : Program} : p.Admissible ↔ ∀ err, ¬ p.Refused err := by
  constructor
  · intro h err hrefused
    cases hrefused with
    | imports hfault =>
      refine no_fault_of_not_offends (fun i hi => Import.not_offends_iff.2 ?_) err hfault
      by_cases hspace : i.space = Namespace.wasi.moduleName
      · exact .inl hspace
      · exact .inr (h.imports i hi hspace)
    | exports _ hfault =>
      exact no_fault_of_not_offends (fun e he => Export.not_offends_iff.2 (h.exports e he)) err
        hfault
    | memory _ _ hbridged hmemory => exact hmemory (h.memory hbridged)
  · intro h
    have himports := not_offends_of_no_fault fun e he => h e (.imports he)
    have hexports := not_offends_of_no_fault fun e he => h e (.exports himports he)
    refine ⟨fun i hi hspace => ?_, fun e he => Export.not_offends_iff.1 (hexports e he),
      fun hbridged => ?_⟩
    · exact (Import.not_offends_iff.1 (himports i hi)).resolve_left hspace
    · exact Classical.byContradiction fun hmemory =>
        h _ (.memory himports hexports hbridged hmemory)

theorem prepare_of_admissible {p : Program} (hp : p.Valid) (hs : p.KnowsSystem) (h : p.Admissible)
    (name digest : String) : ∃ m, p.prepare name digest = .ok m := by
  have hfree := admissible_iff.1 h
  have himports := not_offends_of_no_fault fun e he => hfree e (.imports he)
  have hexports := not_offends_of_no_fault fun e he => hfree e (.exports himports he)
  obtain ⟨found, hfound⟩ := exists_checkImports himports .empty
  obtain ⟨stages, hstages⟩ := exists_checkExports hexports .empty false
  have hnames : ¬ repeatsExport p.exports := by
    rw [repeatsExport_iff.2 hp.names]
    simp
  have hmemory : ¬ ((found.has .api || found.has .scheduler) && !p.exportsMemory) := by
    rw [Bool.and_eq_true, bridged_iff hfound]
    rintro ⟨hbridged, hnone⟩
    rw [exportsMemory_iff.2 (h.memory hbridged)] at hnone
    cases hnone
  have hlinks : p.links found := by
    unfold links
    rw [Linker.ofNamespaces_eq]
    exact List.all_eq_true.2 (links_of_checkImports hs hfound himports)
  unfold prepare
  rw [if_neg hnames, hfound, hstages]
  dsimp only
  rw [if_neg hmemory, if_neg (by simp [hlinks])]
  exact ⟨_, rfl⟩

theorem prepare_eq_error {p : Program} (hp : p.Valid) (hs : p.KnowsSystem) {name digest : String}
    {err : PrepareError} : p.prepare name digest = .error err ↔ p.Refused err := by
  refine ⟨fun herr => ?_, fun h => prepare_of_refused hp h name digest⟩
  by_cases h : p.Admissible
  · obtain ⟨m, hm⟩ := prepare_of_admissible hp hs h name digest
    rw [hm] at herr
    cases herr
  · obtain ⟨err', hrefused⟩ := Classical.not_forall_not.1 (mt admissible_iff.2 h)
    rw [prepare_of_refused hp hrefused] at herr
    cases herr
    exact hrefused

theorem prepare_ok_iff {p : Program} (hp : p.Valid) (hs : p.KnowsSystem) {name digest : String} :
    (∃ m, p.prepare name digest = .ok m) ↔ p.Admissible := by
  refine ⟨fun ⟨m, hm⟩ => admissible_iff.2 fun err herr => ?_, fun h =>
    prepare_of_admissible hp hs h name digest⟩
  rw [prepare_of_refused hp herr] at hm
  cases hm

/-! ## Prepared modules -/

/-- An export whose signature is fixed is found with that type. -/
theorem Admissible.exists_handle {p : Program} (h : p.Admissible) {name : String} {y : Yield}
    (hy : Fixed name y.signature) (he : ∃ e ∈ p.exports, e.name = name) :
    ∃ f, p.handle name y = .ok f := by
  obtain ⟨e, hfind, he', hname⟩ := find_of_exported he
  obtain ⟨body, hbody⟩ := h.exports e he' y.signature (hname ▸ hy)
  exact ⟨⟨body⟩, handle_of_find hfind hbody⟩

/-- Code calls the host only if the host finds the memory. -/
theorem Admissible.suited {p : Program} (hp : p.Valid) (h : p.Admissible) : p.Suited := by
  rintro body hbody i hi ⟨f, rfl⟩
  obtain ⟨j, hj, hsame⟩ := hp.needs body hbody _ hi
  have hspace : j.space = f.namespaceOf.moduleName := by
    simp only [Import.sameName, Bool.and_eq_true, beq_iff_eq] at hsame
    exact hsame.1
  refine exportsMemory_iff.2 (h.memory ⟨j, hj, ?_⟩)
  rw [hspace]
  cases hn : f.namespaceOf with
  | api => exact .inl rfl
  | scheduler => exact .inr rfl
  | wasi => exact absurd hn f.namespaceOf_ne_wasi

end Program

/-- What holds of the prepared module of a program from then on. -/
structure Prepared.Ready (m : Prepared) (p : Program) : Prop where
  imports : ∀ n, m.imports.has n ↔ ∃ i ∈ p.imports, i.space = n.moduleName
  exports : ∀ s, m.exports.has s ↔ p.Exports s
  linked : ∃ linker, Linker.ofNamespaces? m.imports = some linker ∧
    ∀ i ∈ p.imports, linker.resolves i
  initializer : m.hasInitializer → ∃ f, p.handle Program.initializerName .unit = .ok f ∧
    m.program.handle Program.initializerName .unit = .ok f
  /-- Each stage is found with its type by a guest of any past. -/
  handle : ∀ {settings id g}, Guest.Lived m settings id g → ∀ c : StageCall,
    m.exports.has c.stage → c.yield.signature = c.stage.signature ∧
      ∃ f, p.handle c.stage.exportName c.yield = .ok f ∧ g.body? c = some f.body
  /-- Making a guest does not fail for want of a memory in calls to the host, nor for want of a
  function that is to be called. -/
  made : ∀ settings cause said, Guest.assemble m settings = .error (cause, said) →
    cause ≠ .start (.trapped .noMemory) ∧ cause ≠ .initializer (.trapped .noMemory) ∧
      ∀ e, cause ≠ .handle e
  /-- Nor does any call of a guest. -/
  called : ∀ {settings id g}, Guest.Lived m settings id g → ∀ (c : StageCall) body,
    g.body? c = some body →
    ((Guest.enter g.machine c).call body).1 ≠ .error (.trapped .noMemory)

namespace Program

theorem ready_of_prepare {p : Program} (hp : p.Valid) (hs : p.KnowsSystem) {name digest : String}
    {m : Prepared} (h : p.prepare name digest = .ok m) : m.Ready p := by
  obtain ⟨hprogram, himports, hexports⟩ := prepare_ok h
  have hadmissible := (prepare_ok_iff hp hs).1 ⟨m, h⟩
  have hsuited : m.program.Suited := hprogram ▸ hadmissible.suited hp
  have hfree := admissible_iff.1 hadmissible
  have hinitializer : m.hasInitializer →
      ∃ f, p.handle initializerName .unit = .ok f := fun hinit =>
    hadmissible.exists_handle .initializer
      (by simpa using (initializer_of_checkExports hexports).1 hinit)
  have hinit : m.hasInitializer → ∃ f, m.program.handle initializerName .unit = .ok f :=
    hprogram ▸ hinitializer
  refine ⟨fun n => ?_, has_of_prepare h, ⟨_, Linker.ofNamespaces_eq _, ?_⟩, fun hhas => ?_, ?_, ?_,
    fun hg c body hbody => hg.findsMemory hsuited hinit c hbody⟩
  · rw [has_of_checkImports himports]
    simp
  · exact links_of_checkImports hs himports
      (not_offends_of_no_fault fun e he => hfree e (.imports he))
  · obtain ⟨f, hf⟩ := hinitializer hhas
    exact ⟨f, hf, hprogram ▸ hf⟩
  · intro settings id g hg c hx
    have hsignature := c.signature_yield
    obtain ⟨f, hf⟩ := hadmissible.exists_handle (y := c.yield) (hsignature ▸ .stage c.stage)
      ((has_of_prepare h c.stage).1 hx)
    exact ⟨hsignature, f, hf, hg.body_eq_some.2 ⟨hx, hprogram ▸ hf⟩⟩
  · intro settings cause said herr
    have hsound := Guest.not_lacks_of_assemble hsuited hinit (exists_ofStages h) herr
    refine ⟨?_, ?_, ?_⟩
    · rintro rfl
      exact hsound rfl
    · rintro rfl
      exact hsound rfl
    · rintro e rfl
      exact hsound trivial

/-- All is decided by preparing. A well-formed program, whose imports of the system interface
exist, is prepared just if it is admissible, and refused with its first error; a prepared module is
ready for all that follows. -/
theorem prepare_decides {p : Program} (hp : p.Valid) (hs : p.KnowsSystem) (name digest : String) :
    ((∃ m, p.prepare name digest = .ok m) ↔ p.Admissible) ∧
      (∀ err, p.prepare name digest = .error err ↔ p.Refused err) ∧
      ∀ m, p.prepare name digest = .ok m → m.Ready p :=
  ⟨prepare_ok_iff hp hs, fun _ => prepare_eq_error hp hs, fun _ h => ready_of_prepare hp hs h⟩

/-- A program that imports from everywhere, with a start of its own, and with exports that are of no
concern among the stages. -/
def mixedProgram : Program where
  imports := [.ofHost (.report .reason), .ofSystem SystemInterface.write, .ofHost (.ask .pod)]
  exports := [⟨"score", .function .packed (.perform (.ask .pod (.word 0) (.word 64)))⟩,
    ⟨"memory", .store .memory⟩, ⟨"helper", .store .table⟩,
    ⟨"_initialize", .function .unit (.perform (.print (.word 1) (.word 0) (.word 4)))⟩,
    ⟨"filter", .function .status (.report .reason (.word 0) (.word 4))⟩]
  memory := some {}

/-- The same with an import from elsewhere and a stage that is no function. -/
def faultyProgram : Program :=
  { mixedProgram with
    imports := mixedProgram.imports ++ [⟨"env", "abort", some .unit⟩]
    exports := ⟨"bind", .store .global⟩ :: mixedProgram.exports }

/-- The first of them is prepared, and the second one refused for its import, the export
notwithstanding. -/
theorem mixed_is_ready_and_faulty_is_refused :
    mixedProgram.Valid ∧ mixedProgram.KnowsSystem ∧ faultyProgram.Valid ∧
      faultyProgram.KnowsSystem ∧
      (∃ m, mixedProgram.prepare "mixed" "" = .ok m ∧ m.Ready mixedProgram ∧
        m.imports.has .api ∧ m.exports.has .score) ∧
      faultyProgram.prepare "faulty" "" = .error (.unknownNamespace "env" "abort") := by
  have hvalid : mixedProgram.Valid := ⟨by decide, by decide +kernel⟩
  have hsystem : mixedProgram.KnowsSystem := by
    unfold KnowsSystem
    decide +kernel
  have hvalid' : faultyProgram.Valid := ⟨by decide, by decide +kernel⟩
  have hsystem' : faultyProgram.KnowsSystem := by
    unfold KnowsSystem
    decide +kernel
  obtain ⟨m, hm⟩ : ∃ m, mixedProgram.prepare "mixed" "" = .ok m := ⟨_, rfl⟩
  obtain ⟨hsuccess, -, hready⟩ := prepare_decides hvalid hsystem "mixed" ""
  have hmixed := (hready m hm)
  refine ⟨hvalid, hsystem, hvalid', hsystem', ⟨m, hm, hmixed, ?_, ?_⟩, ?_⟩
  · exact (hmixed.imports .api).2 ⟨.ofHost (.ask .pod), by decide, rfl⟩
  · exact (hmixed.exports .score).2 ⟨_, List.mem_cons_self, rfl⟩
  · refine ((prepare_decides hvalid' hsystem' "faulty" "").2.1 _).2 (.imports ?_)
    refine ⟨mixedProgram.imports, ⟨"env", "abort", some .unit⟩, [], rfl, fun i hi => ?_, ?_⟩
    · refine Import.not_offends_iff.2 (Decidable.or_iff_not_imp_left.2 ?_)
      exact (hsuccess.1 ⟨m, hm⟩).imports i hi
    · exact .space (i := ⟨"env", "abort", some .unit⟩) fun n => by cases n <;> decide

end Program
end StageHost

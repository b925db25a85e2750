import StageHost.Guest.Basic
/-
  What a prepared module exports.
  Preparing walks over the exports of a program once (`checkExports_ok`). So a prepared module has
  exactly the stages whose names its program exports, in whatever order and beside whatever else
  (`has_of_prepare`), and each of these exports is a function of the stage's signature
  (`checkExports_ok`).
-/
namespace StageHost

namespace Stage

theorem exportName_of_ofExportName? {name : String} {s : Stage} (h : ofExportName? name = some s) :
    name = s.exportName := by
  have hfound := List.find?_some h
  exact (beq_iff_eq.1 hfound).symm

theorem exportName_injective {s t : Stage} (h : s.exportName = t.exportName) : s = t := by
  have hs := ofExportName?_exportName s
  rw [h, ofExportName?_exportName] at hs
  exact (Option.some.inj hs).symm

theorem exportName_ne_initializer (s : Stage) : s.exportName ≠ Program.initializerName := by
  cases s <;> decide

end Stage

namespace Exported

theorem function_of_check {e : Exported} {name : String} {expected : Signature} {u : Unit}
    (h : e.check name expected = .ok u) : ∃ body, e = .function expected body := by
  unfold check at h
  cases e with
  | store kind => cases h
  | function actual body =>
    dsimp only at h
    split at h
    · rename_i hsame
      exact ⟨body, by rw [hsame]⟩
    · cases h

end Exported

namespace Program

/-- Whether a program exports something under the name of a stage. -/
def Exports (p : Program) (s : Stage) : Prop := ∃ e ∈ p.exports, e.name = s.exportName

/-- Once all exports are accepted, the stages found are those named, and every export named for a
stage is a function of its signature. -/
theorem checkExports_ok {exports : List Export} {stages : StageSet} {hasInit : Bool}
    {found : StageSet × Bool} (h : checkExports exports stages hasInit = .ok found) (t : Stage) :
    (found.1.has t ↔ stages.has t ∨ ∃ e ∈ exports, e.name = t.exportName) ∧
      ∀ e ∈ exports, e.name = t.exportName → ∃ body, e.value = .function t.signature body := by
  induction exports generalizing stages hasInit with
  | nil =>
    cases h
    simp
  | cons e rest ih =>
    unfold checkExports at h
    split at h
    · rename_i hinit
      have hne : e.name ≠ t.exportName := fun he => t.exportName_ne_initializer (he ▸ hinit)
      split at h
      · have hrest := ih h
        simpa [hne] using hrest
      · cases h
    · split at h
      · rename_i hnone
        have hne : e.name ≠ t.exportName := by
          intro he
          rw [he, Stage.ofExportName?_exportName] at hnone
          cases hnone
        have hrest := ih h
        simpa [hne] using hrest
      · rename_i stage hstage
        have hname := Stage.exportName_of_ofExportName? hstage
        split at h
        · rename_i u hcheck
          obtain ⟨hfound, hbodies⟩ := ih h
          constructor
          · rw [hfound, StageSet.has_insert]
            by_cases hts : t = stage
            · simp [hts, hname]
            · have hne : stage.exportName ≠ t.exportName := fun he =>
                hts (Stage.exportName_injective he).symm
              simp [hts, hname, hne]
          · intro e' he' hname'
            rcases List.mem_cons.1 he' with rfl | hrest
            · obtain rfl : stage = t := Stage.exportName_injective (hname.symm.trans hname')
              exact Exported.function_of_check hcheck
            · exact hbodies e' hrest hname'
        · cases h

/-- What preparing a program comes to. -/
theorem prepare_ok {p : Program} {name digest : String} {m : Prepared}
    (h : p.prepare name digest = .ok m) : m.program = p ∧
      checkImports p.imports .empty = .ok m.imports ∧
      checkExports p.exports .empty false = .ok (m.exports, m.hasInitializer) := by
  unfold prepare at h
  split at h
  · cases h
  · split at h
    · cases h
    · rename_i imports himports
      split at h
      · cases h
      · rename_i exports hasInitializer hexports
        split at h
        · cases h
        · split at h <;> cases h
          exact ⟨rfl, himports, hexports⟩

/-- A look-up of an exported name finds an export of that name. -/
theorem find_of_exported {exports : List Export} {name : String}
    (h : ∃ e ∈ exports, e.name = name) :
    ∃ e, exports.find? (·.name == name) = some e ∧ e ∈ exports ∧ e.name = name := by
  obtain ⟨e, hfind⟩ : ∃ e, exports.find? (·.name == name) = some e := by
    obtain ⟨e, he, hname⟩ := h
    rw [← Option.isSome_iff_exists, List.find?_isSome]
    exact ⟨e, he, by simp [hname]⟩
  exact ⟨e, hfind, List.mem_of_find?_eq_some hfind, by simpa using List.find?_some hfind⟩

/-- A prepared module has the stages that its program exports. -/
theorem has_of_prepare {p : Program} {name digest : String} {m : Prepared}
    (h : p.prepare name digest = .ok m) (s : Stage) : m.exports.has s ↔ p.Exports s := by
  have hfound := (checkExports_ok (prepare_ok h).2.2 s).1
  simpa [Exports] using hfound

end Program
end StageHost

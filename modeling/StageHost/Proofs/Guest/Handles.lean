import StageHost.Proofs.Guest.Life
import StageHost.Proofs.Prepare
/-
  The handles of a guest.
  A table has a handle to a stage just if the stage is exported, its signature names the table, and
  the program has the function with that type (`lookup?_ofStages`). Since every call looks in the
  table that the signature of its stage names (`yield_eq`), a guest finds what to run for each stage
  that its module exports, and for no other (`Lived.body_eq_some`). A prepared module has a function
  of the right type for each of them (`Program.exists_ofStages`).
-/
namespace StageHost

namespace Yield

theorem signature_ofResults (s : Stage) :
    (ofResults s.signature.results).signature = s.signature := by
  cases s <;> rfl

end Yield

namespace StageCall

/-- A call looks in the table that the handle to its stage was put in. -/
theorem yield_eq (c : StageCall) : c.yield = .ofResults c.stage.signature.results := by
  cases c <;> rfl

theorem signature_yield (c : StageCall) : c.yield.signature = c.stage.signature := by
  rw [yield_eq, Yield.signature_ofResults]

end StageCall

namespace Handles

variable {p : Program} {h h' : Handles} {s t : Stage}

theorem lookup?_add_self (h : Handles) (s : Stage) (y : Yield) (f : Handle y) :
    (h.add s y f).lookup? s y = (h.lookup? s y).or (some f) := by
  cases y <;> simp [add, lookup?, List.lookup_append]

/-- Handles to other stages and in other tables are found as before. -/
theorem lookup?_add_of_ne {y z : Yield} (hne : t ≠ s ∨ z ≠ y) (h : Handles) (f : Handle y) :
    (h.add s y f).lookup? t z = h.lookup? t z := by
  by_cases hz : z = y
  · subst hz
    have ht : t ≠ s := hne.resolve_right fun hne => hne rfl
    have hbeq : (t == s) = false := beq_eq_false_iff_ne.2 ht
    cases z <;> simp [add, lookup?, List.lookup_append, List.lookup_cons, hbeq]
  · cases y <;> cases z <;> first | rfl | exact absurd rfl hz

/-- A handle that is found was there before, or it is to one of the stages added. -/
theorem handle_of_lookup {stages : List Stage} (hok : addStages p stages h = .ok h') {y : Yield}
    {f : Handle y} (hf : h'.lookup? s y = some f) :
    h.lookup? s y = some f ∨
      (s ∈ stages ∧ y = .ofResults s.signature.results ∧ p.handle s.exportName y = .ok f) := by
  induction stages generalizing h with
  | nil =>
    cases hok
    exact .inl hf
  | cons t rest ih =>
    unfold addStages at hok
    dsimp only at hok
    split at hok
    · rename_i g hg
      obtain hbefore | ⟨hs, hy, hp⟩ := ih hok
      · by_cases hsame : s = t ∧ y = .ofResults t.signature.results
        · obtain ⟨rfl, rfl⟩ := hsame
          rw [lookup?_add_self] at hbefore
          cases hold : h.lookup? s (.ofResults s.signature.results) with
          | some f' =>
            rw [hold] at hbefore
            exact .inl hbefore
          | none =>
            rw [hold] at hbefore
            cases hbefore
            exact .inr ⟨List.mem_cons_self, rfl, hg⟩
        · rw [lookup?_add_of_ne (Decidable.not_and_iff_not_or_not.1 hsame)] at hbefore
          exact .inl hbefore
      · exact .inr ⟨List.mem_cons_of_mem t hs, hy, hp⟩
    · cases hok

/-- No handle is lost when others are added. -/
theorem isSome_lookup_add {y z : Yield} (hs : (h.lookup? t z).isSome) (s : Stage) (f : Handle y) :
    ((h.add s y f).lookup? t z).isSome := by
  by_cases hsame : t = s ∧ z = y
  · obtain ⟨rfl, rfl⟩ := hsame
    rw [lookup?_add_self]
    simp
  · rwa [lookup?_add_of_ne (Decidable.not_and_iff_not_or_not.1 hsame)]

theorem isSome_lookup {stages : List Stage} (hok : addStages p stages h = .ok h') {y : Yield}
    (hs : (h.lookup? s y).isSome ∨ s ∈ stages ∧ y = .ofResults s.signature.results) :
    (h'.lookup? s y).isSome := by
  induction stages generalizing h with
  | nil =>
    cases hok
    simpa using hs
  | cons t rest ih =>
    unfold addStages at hok
    dsimp only at hok
    split at hok
    · rename_i g hg
      refine ih hok ?_
      obtain hbefore | ⟨hmem, rfl⟩ := hs
      · exact .inl (isSome_lookup_add hbefore t g)
      · obtain rfl | hrest := List.mem_cons.1 hmem
        · left
          rw [lookup?_add_self]
          simp
        · exact .inr ⟨hrest, rfl⟩
    · cases hok

/-- What is found in the tables of some stages. -/
theorem lookup?_ofStages {stages : StageSet} (hok : ofStages p stages = .ok h) {y : Yield}
    {f : Handle y} : h.lookup? s y = some f ↔
      stages.has s ∧ y = .ofResults s.signature.results ∧ p.handle s.exportName y = .ok f := by
  have hnone : ({} : Handles).lookup? s y = none := by cases y <;> rfl
  have hfound : ∀ {f : Handle y}, h.lookup? s y = some f → stages.has s ∧
      y = .ofResults s.signature.results ∧ p.handle s.exportName y = .ok f := by
    intro f hf
    obtain hempty | ⟨hs, hy, hp⟩ := handle_of_lookup hok hf
    · rw [hnone] at hempty
      cases hempty
    · exact ⟨(stages.mem_toList s).1 hs, hy, hp⟩
  refine ⟨hfound, fun ⟨hs, hy, hp⟩ => ?_⟩
  obtain ⟨g, hg⟩ := Option.isSome_iff_exists.1
    (isSome_lookup hok (.inr ⟨(stages.mem_toList s).2 hs, hy⟩))
  rw [(hfound hg).2.2] at hp
  cases hp
  exact hg

theorem exists_addStages {stages : List Stage}
    (hall : ∀ s ∈ stages, ∃ f, p.handle s.exportName (.ofResults s.signature.results) = .ok f)
    (h : Handles) : ∃ h', addStages p stages h = .ok h' := by
  induction stages generalizing h with
  | nil => exact ⟨h, rfl⟩
  | cons s rest ih =>
    obtain ⟨f, hf⟩ := hall s List.mem_cons_self
    unfold addStages
    dsimp only
    rw [hf]
    exact ih (fun t ht => hall t (List.mem_cons_of_mem s ht)) _

end Handles

namespace Program

/-- A function that is exported with its type is found. -/
theorem handle_of_find {p : Program} {name : String} {y : Yield} {e : Export} {body : Statement}
    (hfind : p.exports.find? (·.name == name) = some e)
    (he : e.value = .function y.signature body) : p.handle name y = .ok ⟨body⟩ := by
  unfold handle
  obtain ⟨n, value⟩ := e
  cases he
  rw [hfind]
  exact if_pos rfl

/-- For each stage of a prepared module there is a function of the type that the stage names. -/
theorem handle_of_prepare {p : Program} {name digest : String} {m : Prepared}
    (h : p.prepare name digest = .ok m) {s : Stage} (hs : m.exports.has s) :
    ∃ f, m.program.handle s.exportName (.ofResults s.signature.results) = .ok f := by
  obtain ⟨hprogram, -, hexports⟩ := prepare_ok h
  obtain ⟨e, hfind, he, hname⟩ := find_of_exported ((has_of_prepare h s).1 hs)
  obtain ⟨body, hbody⟩ := (checkExports_ok hexports s).2 e he hname
  rw [hprogram]
  exact ⟨⟨body⟩, handle_of_find hfind (by rw [hbody, Yield.signature_ofResults])⟩

theorem exists_ofStages {p : Program} {name digest : String} {m : Prepared}
    (h : p.prepare name digest = .ok m) :
    ∃ handles, Handles.ofStages m.program m.exports = .ok handles :=
  Handles.exists_addStages (fun s hs => handle_of_prepare h ((m.exports.mem_toList s).1 hs)) _

end Program

namespace Guest

variable {module : Prepared} {settings : Settings} {id : Nat} {g : Guest} {c : StageCall}

/-- What a guest of any past runs for a call is the function that its module exports for the
stage. -/
theorem Lived.body_eq_some (hg : Lived module settings id g) {body : Statement} :
    g.body? c = some body ↔
      module.exports.has c.stage ∧
        module.program.handle c.stage.exportName c.yield = .ok ⟨body⟩ := by
  unfold body?
  rw [Option.map_eq_some_iff]
  constructor
  · rintro ⟨f, hf, rfl⟩
    obtain ⟨hs, -, hp⟩ := (Handles.lookup?_ofStages hg.handles_eq).1 hf
    exact ⟨hs, hp⟩
  · rintro ⟨hs, hp⟩
    exact ⟨_, (Handles.lookup?_ofStages hg.handles_eq).2 ⟨hs, c.yield_eq, hp⟩, rfl⟩

/-- A guest of a prepared module has something to run for each stage of the module. -/
theorem Lived.exists_body {p : Program} {name digest : String}
    (h : p.prepare name digest = .ok module) (hg : Lived module settings id g)
    (hs : module.exports.has c.stage) : ∃ body, g.body? c = some body := by
  obtain ⟨f, hf⟩ : ∃ f, module.program.handle c.stage.exportName c.yield = .ok f := by
    rw [c.yield_eq]
    exact Program.handle_of_prepare h hs
  exact ⟨f.body, hg.body_eq_some.2 ⟨hs, hf⟩⟩

end Guest
end StageHost

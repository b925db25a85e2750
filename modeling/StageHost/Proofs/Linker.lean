import StageHost.Linker
import Mathlib.Data.List.Flatten
/-
  What a linker resolves.
  The handlers that a linker has for a namespace of the host are those of the host's table, with
  the signatures of the table (`lookup_offers`). So a linker with some namespaces can always be
  made, and it resolves the imports of their functions (`resolves_ofHost`, `resolves_system`).
-/
namespace StageHost

namespace Namespace

theorem ofModuleName?_eq_some {name : String} {n : Namespace} :
    ofModuleName? name = some n ↔ name = n.moduleName := by
  constructor
  · intro h
    have hfound := List.find?_some h
    exact (beq_iff_eq.1 hfound).symm
  · rintro rfl
    exact ofModuleName?_moduleName n

theorem moduleName_injective {n m : Namespace} (h : n.moduleName = m.moduleName) : n = m := by
  have hn := ofModuleName?_moduleName n
  rw [h, ofModuleName?_moduleName] at hn
  exact (Option.some.inj hn).symm

end Namespace

namespace HostFunction

theorem ofName?_eq_some {space : Namespace} {name : String} {f : HostFunction} :
    ofName? space name = some f ↔ f.namespaceOf = space ∧ f.name = name := by
  constructor
  · intro h
    have hfound := List.find?_some h
    simpa using hfound
  · rintro ⟨rfl, rfl⟩
    exact ofName?_name f

theorem namespaceOf_ne_wasi (f : HostFunction) : f.namespaceOf ≠ .wasi := by
  rcases f with q | r | _ | _ | _
  · cases q <;> decide
  · cases r <;> decide
  all_goals decide

end HostFunction

namespace Linker

/-- The handlers of a namespace of the host have the names and signatures of the host's table. -/
theorem offers_eq {n : Namespace} (h : n ≠ .wasi) :
    offers n =
      (HostFunction.all.filter (·.namespaceOf == n)).map fun f => (f.name, f.signature) := by
  cases n with
  | api | scheduler => rfl
  | wasi => exact absurd rfl h

theorem lookup_map_filter {α : Type} (l : List α) (p : α → Bool) (key : α → String)
    (value : α → Signature) (name : String) :
    ((l.filter p).map fun a => (key a, value a)).lookup name =
      (l.find? fun a => p a && key a == name).map value := by
  induction l with
  | nil => rfl
  | cons a l ih =>
    by_cases hp : p a
    · by_cases hk : key a = name
      · simp [hp, hk]
      · have hk' : (name == key a) = false := by simpa using Ne.symm hk
        simp [hp, hk, hk', List.lookup_cons, ih]
    · simp [hp, ih]

theorem lookup_offers {n : Namespace} (h : n ≠ .wasi) (name : String) :
    (offers n).lookup name = (HostFunction.ofName? n name).map (·.signature) := by
  rw [offers_eq h, lookup_map_filter]
  rfl

/-- Functions are found under the name of their own namespace only. -/
theorem lookup_qualified (fs : List (String × Signature)) (n m : Namespace) (name : String) :
    (fs.map fun f => ((n.moduleName, f.1), f.2)).lookup (m.moduleName, name) =
      if n = m then fs.lookup name else none := by
  induction fs with
  | nil => simp
  | cons f fs ih =>
    have hspace : (m.moduleName == n.moduleName) = decide (n = m) := by
      cases n <;> cases m <;> decide
    have hsame : ((m.moduleName, name) == (n.moduleName, f.1)) =
        (decide (n = m) && name == f.1) := by
      rw [← hspace]
      rfl
    rw [List.map_cons, List.lookup_cons, List.lookup_cons, ih, hsame]
    by_cases hnm : n = m <;> simp [hnm]

theorem lookup_flatMap (ns : List Namespace) (m : Namespace) (name : String) :
    (ns.flatMap fun n => (offers n).map fun f => ((n.moduleName, f.1), f.2)).lookup
      (m.moduleName, name) = if m ∈ ns then (offers m).lookup name else none := by
  induction ns with
  | nil => rfl
  | cons n ns ih =>
    rw [List.flatMap_cons, List.lookup_append, ih, lookup_qualified]
    by_cases hnm : n = m
    · subst hnm
      cases (offers n).lookup name <;> simp
    · simp [hnm, Ne.symm hnm]

theorem lookup_functionsOf (s : NamespaceSet) (n : Namespace) (name : String) :
    (functionsOf s).lookup (n.moduleName, name) =
      if s.has n then (offers n).lookup name else none := by
  rw [functionsOf, lookup_flatMap]
  simp only [NamespaceSet.mem_toList]

theorem nodup_functionsOf (s : NamespaceSet) : ((functionsOf s).map (·.1)).Nodup := by
  have hall : ((Namespace.all.flatMap fun n => (offers n).map fun f =>
      ((n.moduleName, f.1), f.2)).map (·.1)).Nodup := by decide +kernel
  refine hall.sublist (List.Sublist.map _ ?_)
  exact List.filter_sublist.flatMap _

/-- The linker with any namespaces can be made. -/
theorem ofNamespaces_eq (s : NamespaceSet) : ofNamespaces? s = some ⟨functionsOf s⟩ :=
  if_pos (nodup_functionsOf s)

/-- An import of a function of the host is resolved if its namespace is there. -/
theorem resolves_ofHost {s : NamespaceSet} {f : HostFunction} (h : s.has f.namespaceOf) :
    (Linker.mk (functionsOf s)).resolves (.ofHost f) := by
  have hfound : (functionsOf s).lookup (f.namespaceOf.moduleName, f.name) = some f.signature := by
    rw [lookup_functionsOf, if_pos h, lookup_offers f.namespaceOf_ne_wasi,
      HostFunction.ofName?_name]
    rfl
  simp [resolves, Import.ofHost, hfound]

/-- So is one of a function that the system interface has. -/
theorem resolves_system {s : NamespaceSet} {i : Import} (h : s.has .wasi)
    (hspace : i.space = Namespace.wasi.moduleName) {sig : Signature}
    (hsig : i.signature = some sig) (hprovides : SystemInterface.provides i.name sig) :
    (Linker.mk (functionsOf s)).resolves i := by
  have hfound : (functionsOf s).lookup (i.space, i.name) = some sig := by
    rw [hspace, lookup_functionsOf, if_pos h]
    exact beq_iff_eq.1 hprovides
  simp [resolves, hsig, hfound]

end Linker
end StageHost

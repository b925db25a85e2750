import StageHost.Proofs.Guest.Call
/-
  The life of a guest.
  A guest is made, and from then on stages are called on it and its transcript is taken, in any
  order (`Use`). Making one is a list of acts outside of any call (`boot_acts`). Between uses no
  call is in flight (`Lived.idle`), and the streams are empty but for output of the making that no
  initializer and no call has taken (`holds_after`).
-/
namespace StageHost
namespace Guest

/-- Something done with a guest. -/
inductive Use
  | call (c : StageCall)
  | takeTranscript

/-- The guest after it was used. -/
def use (g : Guest) : Use → Guest
  | .call c => (g.call c).2
  | .takeTranscript => g.takeTranscript.2

def after (g : Guest) (uses : List Use) : Guest := uses.foldl use g

/-- Whether a use is a call that the guest gets to see. -/
def Reaches (g : Guest) : Use → Prop
  | .call c => (g.body? c).isSome
  | .takeTranscript => False

instance (g : Guest) (u : Use) : Decidable (g.Reaches u) := by
  cases u <;> unfold Reaches <;> infer_instance

/-- What was said in the making of a guest and is still in its streams after some uses: all of it,
unless an initializer or a call has taken it. -/
def unread (g : Guest) (uses : List Use) : Transcript :=
  if g.module.hasInitializer ∨ ∃ u ∈ uses, g.Reaches u then [] else g.machine.host.transcript

/-! ## Making a guest -/

/-- What a part of the making goes on from. -/
theorem exists_of_bind {α β : Type} {x : Creation α} {f : α → Creation β} {b : β}
    (h : (x >>= f) = .ok b) : ∃ a, x = .ok a ∧ f a = .ok b := by
  cases x with
  | error e => cases h
  | ok a => exact ⟨a, rfl, h⟩

/-- Whether the host of one machine is that of another after some acts. -/
def Leads (m m' : Machine) : Prop := ∃ acts : List Act, m'.host = acts.foldl Host.act m.host

theorem Leads.refl (m : Machine) : Leads m m := ⟨[], rfl⟩

theorem Leads.trans {m m' m'' : Machine} (h : Leads m m') (h' : Leads m' m'') : Leads m m'' := by
  obtain ⟨acts, hacts⟩ := h
  obtain ⟨more, hmore⟩ := h'
  refine ⟨acts ++ more, ?_⟩
  rw [hmore, hacts, List.foldl_append]

theorem leads_allotMemory {shape : Option MemoryShape} {m m' : Machine}
    (h : allotMemory shape m = .ok m') : Leads m m' := by
  unfold allotMemory at h
  cases shape with
  | none =>
    cases h
    exact .refl m
  | some s =>
    refine ⟨[.wantsMemory (s.pages * Memory.pageSize)], ?_⟩
    dsimp only at h
    rcases hask : m.host.limiter.askMemory (s.pages * Memory.pageSize) with ⟨granted, limiter⟩
    rw [hask] at h
    cases granted <;> cases h
    rw [List.foldl_cons, List.foldl_nil, Host.act, hask]

theorem leads_allotTable {elements : Option Nat} {m m' : Machine}
    (h : allotTable elements m = .ok m') : Leads m m' := by
  unfold allotTable at h
  cases elements with
  | none =>
    cases h
    exact .refl m
  | some n =>
    refine ⟨[.wantsTable n], ?_⟩
    dsimp only at h
    rcases hask : m.host.limiter.askTable n with ⟨granted, limiter⟩
    rw [hask] at h
    cases granted <;> cases h
    rw [List.foldl_cons, List.foldl_nil, Host.act, hask]

theorem leads_placeData {data : List Segment} {m m' : Machine} (h : placeData data m = .ok m') :
    Leads m m' := by
  induction data generalizing m with
  | nil =>
    cases h
    exact .refl _
  | cons s rest ih =>
    unfold placeData at h
    split at h
    · have hrest := ih h
      exact hrest
    · cases h

theorem leads_mustRun {cause : Failure → CreationCause} {body : Option Statement} {m m' : Machine}
    (h : mustRun cause body m = .ok m') : Leads m m' := by
  unfold mustRun at h
  cases body with
  | none =>
    cases h
    exact .refl m
  | some body =>
    obtain ⟨acts, hcourse⟩ := m.course_call body
    dsimp only at h
    rcases hcall : m.call body with ⟨f | word, m₁⟩ <;> rw [hcall] at h hcourse <;> cases h
    exact ⟨acts, hcourse.reached⟩

/-- Making a guest is a list of acts on a host that was not used before. With an initializer the
streams are emptied at the end. -/
theorem boot_acts {module : Prepared} {settings : Settings} {m : Machine}
    (h : boot module settings = .ok m) : ∃ acts : List Act, m.host =
      let host := acts.foldl Host.act (.ofSettings settings)
      if module.hasInitializer then host.takeDiagnostics.2 else host := by
  obtain ⟨m₁, hmemory, h⟩ := exists_of_bind h
  obtain ⟨m₂, htable, h⟩ := exists_of_bind h
  obtain ⟨m₃, hdata, h⟩ := exists_of_bind h
  obtain ⟨m₄, hstart, h⟩ := exists_of_bind h
  have hled := (((leads_allotMemory hmemory).trans (leads_allotTable htable)).trans
    (leads_placeData hdata)).trans (leads_mustRun hstart)
  -- only the initializer empties the streams, and it does so after it ran
  unfold runInitializer at h
  by_cases hinit : module.hasInitializer
  · rw [if_pos hinit] at h
    obtain ⟨f, -, h⟩ := exists_of_bind h
    obtain ⟨m₅, hrun, h⟩ := exists_of_bind h
    obtain ⟨acts, hacts⟩ := hled.trans (leads_mustRun hrun)
    cases h
    refine ⟨acts, ?_⟩
    rw [if_pos hinit, hacts]
  · rw [if_neg hinit] at h
    obtain ⟨acts, hacts⟩ := hled
    cases h
    refine ⟨acts, ?_⟩
    rw [if_neg hinit, hacts]

theorem mustRun_of_run {cause : Failure → CreationCause} {body : Statement} {m m' : Machine}
    (h : Exec.run body { m with locals := List.replicate 8 0 } = (.ok (), m')) :
    mustRun cause (some body) m = .ok m' := by
  unfold mustRun Machine.call
  dsimp only
  rw [h]

/-- The making from the start function on. -/
theorem boot_of_data {module : Prepared} {settings : Settings} {m₁ m₂ m₃ : Machine}
    (hmemory : allotMemory module.program.memory
      { shared := module.program.exportsMemory, host := .ofSettings settings } = .ok m₁)
    (htable : allotTable module.program.table m₁ = .ok m₂)
    (hdata : placeData module.program.data m₂ = .ok m₃) :
    boot module settings = (mustRun .start module.program.start m₃ >>= runInitializer module) := by
  unfold boot
  dsimp only
  rw [hmemory]
  show (allotTable module.program.table m₁ >>= _) = _
  rw [htable]
  show (placeData module.program.data m₂ >>= _) = _
  rw [hdata]
  rfl

theorem mustFind_eq_ok {α : Type} {found : Except HandleError α} {m : Machine} {a : α} :
    mustFind found m = .ok a ↔ found = .ok a := by
  cases found with
  | error e => exact iff_of_false (fun h => by cases h) fun h => by cases h
  | ok b =>
    constructor <;>
    · intro h
      cases h
      rfl

theorem create_of_boot {module : Prepared} {settings : Settings} {m : Machine} {handles : Handles}
    (h : boot module settings = .ok m)
    (hfound : Handles.ofStages module.program module.exports = .ok handles) (id : Nat) :
    create module settings id = .ok { id, module, handles, machine := m } := by
  have hassemble : assemble module settings = .ok (m, handles) := by
    unfold assemble
    rw [h]
    show (mustFind (Handles.ofStages module.program module.exports) m >>= _) = _
    rw [mustFind_eq_ok.2 hfound]
    rfl
  unfold create
  rw [hassemble]

/-- What a guest was made of. -/
theorem assembled_of_create {module : Prepared} {settings : Settings} {id : Nat} {g : Guest}
    (h : create module settings id = .ok g) :
    g.module = module ∧ boot module settings = .ok g.machine ∧
      Handles.ofStages module.program module.exports = .ok g.handles := by
  unfold create at h
  split at h <;> cases h
  rename_i machine handles hassemble
  obtain ⟨m, hboot, h⟩ := exists_of_bind hassemble
  obtain ⟨found, hfound, h⟩ := exists_of_bind h
  cases h
  exact ⟨rfl, hboot, mustFind_eq_ok.1 hfound⟩

/-- No call is in flight in a guest that was just made. -/
theorem idle_of_create {module : Prepared} {settings : Settings} {id : Nat} {g : Guest}
    (h : create module settings id = .ok g) : g.machine.host.call = none := by
  obtain ⟨acts, hacts⟩ := boot_acts (assembled_of_create h).2.1
  have hidle : (acts.foldl Host.act (.ofSettings settings)).call = none := by
    rw [Host.call_acts]
    rfl
  rw [hacts]
  dsimp only
  split <;> exact hidle

/-- What the making printed stays in the streams, unless there is an initializer. -/
theorem holds_of_create {module : Prepared} {settings : Settings} {id : Nat} {g : Guest}
    (h : create module settings id = .ok g) (s : Stream) :
    g.machine.host.Holds s
      (if g.module.hasInitializer then [] else g.machine.host.transcript.output s) := by
  obtain ⟨hmodule, hboot, -⟩ := assembled_of_create h
  obtain ⟨acts, hacts⟩ := boot_acts hboot
  have hfresh : (Host.ofSettings settings).Holds s [] := by cases s <;> rfl
  have hheld := hfresh.acts acts
  rw [hmodule]
  by_cases hinit : module.hasInitializer
  · rw [if_pos hinit]
    rw [if_pos hinit] at hacts
    rw [hacts]
    cases s <;> rfl
  · rw [if_neg hinit]
    rw [if_neg hinit] at hacts
    rw [hacts, Host.transcript_acts]
    exact hheld

/-! ## Using it -/

/-- Whatever a guest is used for, its handles stay. -/
theorem handles_call (g : Guest) (c : StageCall) : (g.call c).2.handles = g.handles := by
  cases hbody : g.body? c with
  | none => rw [call_of_no_body hbody]
  | some body =>
    obtain ⟨result, m, hran⟩ := ran_of_body hbody
    rw [hran.guest]

theorem handles_use (g : Guest) (u : Use) : (g.use u).handles = g.handles := by
  cases u with
  | call c => exact g.handles_call c
  | takeTranscript => rfl

theorem handles_after (g : Guest) (uses : List Use) : (g.after uses).handles = g.handles := by
  induction uses generalizing g with
  | nil => rfl
  | cons u uses ih => exact (ih (g.use u)).trans (g.handles_use u)

theorem body_congr {g g' : Guest} (h : g'.handles = g.handles) (c : StageCall) :
    g'.body? c = g.body? c := by
  unfold body?
  rw [h]

theorem body_after (g : Guest) (uses : List Use) (c : StageCall) :
    (g.after uses).body? c = g.body? c := body_congr (g.handles_after uses) c

theorem reaches_use (g : Guest) (u v : Use) : (g.use u).Reaches v ↔ g.Reaches v := by
  cases v with
  | call c =>
    unfold Reaches
    dsimp only
    rw [body_congr (g.handles_use u)]
  | takeTranscript => exact Iff.rfl

/-- After a call that reached the guest the streams are empty; other uses leave them alone. -/
theorem holds_use {g : Guest} {s : Stream} {bytes : List UInt8} (h : g.machine.host.Holds s bytes)
    (u : Use) : (g.use u).machine.host.Holds s (if g.Reaches u then [] else bytes) := by
  cases u with
  | call c =>
    cases hbody : g.body? c with
    | none =>
      have hnot : ¬ g.Reaches (.call c) := by simp [Reaches, hbody]
      rw [if_neg hnot, use, call_of_no_body hbody]
      exact h
    | some body =>
      have hreach : g.Reaches (.call c) := by simp [Reaches, hbody]
      obtain ⟨result, m, hran⟩ := ran_of_body hbody
      rw [if_pos hreach, use, hran.guest]
      cases s <;> rfl
  | takeTranscript => cases s <;> exact h

theorem holds_uses {g : Guest} {s : Stream} {bytes : List UInt8}
    (h : g.machine.host.Holds s bytes) (uses : List Use) :
    (g.after uses).machine.host.Holds s (if ∃ u ∈ uses, g.Reaches u then [] else bytes) := by
  induction uses generalizing g bytes with
  | nil => simpa [after] using h
  | cons u uses ih =>
    have hrest := ih (holds_use h u)
    simp only [reaches_use] at hrest
    by_cases hu : g.Reaches u <;> simpa [after, hu] using hrest

theorem holds_after {module : Prepared} {settings : Settings} {id : Nat} {g : Guest}
    (h : create module settings id = .ok g) (uses : List Use) (s : Stream) :
    (g.after uses).machine.host.Holds s ((g.unread uses).output s) := by
  have hheld := holds_uses (holds_of_create h s) uses
  have hnone : Transcript.output [] s = [] := rfl
  unfold unread
  by_cases hinit : g.module.hasInitializer <;> by_cases hreach : ∃ u ∈ uses, g.Reaches u <;>
    simpa [hinit, hreach, hnone] using hheld

/-- A guest with a past: made of a module, and used since. -/
def Lived (module : Prepared) (settings : Settings) (id : Nat) (g : Guest) : Prop :=
  ∃ made uses, create module settings id = .ok made ∧ g = made.after uses

theorem lived_of_create {module : Prepared} {settings : Settings} {id : Nat} {g : Guest}
    (h : create module settings id = .ok g) : Lived module settings id g := ⟨g, [], h, rfl⟩

/-- The handles of a guest are those to the stages that its module exports. -/
theorem Lived.handles_eq {module : Prepared} {settings : Settings} {id : Nat} {g : Guest}
    (h : Lived module settings id g) :
    Handles.ofStages module.program module.exports = .ok g.handles := by
  obtain ⟨made, uses, hmade, rfl⟩ := h
  rw [made.handles_after uses]
  exact (assembled_of_create hmade).2.2

theorem Lived.use {module : Prepared} {settings : Settings} {id : Nat} {g : Guest}
    (h : Lived module settings id g) (u : Use) : Lived module settings id (g.use u) := by
  obtain ⟨made, uses, hmade, hg⟩ := h
  refine ⟨made, uses ++ [u], hmade, ?_⟩
  rw [hg, after, after, List.foldl_append]
  rfl

theorem idle_use {g : Guest} (h : g.machine.host.call = none) (u : Use) :
    (g.use u).machine.host.call = none := by
  cases u with
  | call c =>
    cases hbody : g.body? c with
    | none =>
      rw [use, call_of_no_body hbody]
      exact h
    | some body =>
      obtain ⟨result, m, hran⟩ := ran_of_body hbody
      rw [use, hran.guest]
      rfl
  | takeTranscript => exact h

/-- Between uses no call is in flight, and so no results are kept. -/
theorem Lived.idle {module : Prepared} {settings : Settings} {id : Nat} {g : Guest}
    (h : Lived module settings id g) : g.machine.host.call = none := by
  obtain ⟨made, uses, hmade, rfl⟩ := h
  have hidle := idle_of_create hmade
  clear hmade
  induction uses generalizing made with
  | nil => exact hidle
  | cons u uses ih => exact ih _ (idle_use hidle u)

end Guest
end StageHost

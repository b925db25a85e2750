import StageHost.Proofs.Guest.Handles
/-
  Calls to the host and the memory of a guest.
  A call to the host fails for want of a memory only if the program does not export one. So code
  that calls the host does not fail in that way if the program exports a memory, and other code
  never does (`findsMemory_run`). The same goes for a guest of such a program, in its making
  (`sound_boot`) and in each of its calls (`Lived.findsMemory`).
-/
namespace StageHost

/-! ## Calls to the host -/

namespace Bridge

theorem record_ne_noMemory (r : Report) (bytes : List UInt8) (results : Reported) :
    record r bytes results ≠ .error .noMemory := by
  cases r with
  | nodeScores =>
    unfold record
    dsimp only
    split <;> simp
  | reason | clusterEvents | nodeNames | nominatedNode => simp [record]

theorem ask_ne_noMemory (q : Question) (address room : UInt32) (m : Memory) (h : Host) :
    (ask q address room m h).1 ≠ .error .noMemory := by
  unfold ask
  dsimp only
  split <;> simp

theorem report_ne_noMemory (r : Report) (address length : UInt32) (m : Memory) (h : Host) :
    (report r address length m h).1 ≠ .error .noMemory := by
  unfold report
  split
  · simp
  · dsimp only
    split
    · simp
    · rename_i bytes _ _ c _
      have hrecord := record_ne_noMemory r bytes c.reported
      rcases hr : record r bytes c.reported with t | reported <;> rw [hr] at hrecord
      · simpa using hrecord
      · simp

theorem log_ne_noMemory (level : Int32) (address length : UInt32) (m : Memory) (h : Host) :
    (log level address length m h).1 ≠ .error .noMemory := by
  unfold log
  split
  · simp
  · split <;> simp

theorem logs_ne_noMemory (level : Int32) (address length kvAddress kvLength : UInt32) (m : Memory)
    (h : Host) : (logs level address length kvAddress kvLength m h).1 ≠ .error .noMemory := by
  unfold logs
  split
  · simp
  · split
    · simp
    · split <;> simp

end Bridge

/-! ## Code -/

namespace Exec

variable {α β : Type} {b : Bool}

/-- Whether a step does not fail for want of a memory, from machines whose memory the host finds or
does not find; that stays as it is. -/
def FindsMemory (b : Bool) (x : Exec α) : Prop :=
  ∀ m, m.shared = b → (x m).2.shared = b ∧ (x m).1 ≠ .error (.failed (.trapped .noMemory))

theorem findsMemory_bind {x : Exec α} {f : α → Exec β} (hx : FindsMemory b x)
    (hf : ∀ a, FindsMemory b (f a)) : FindsMemory b (x >>= f) := by
  intro m hm
  have hfirst := hx m hm
  rw [bind_apply]
  rcases hxm : x m with ⟨stop | a, m'⟩ <;> rw [hxm] at hfirst
  · refine ⟨hfirst.1, fun h => hfirst.2 ?_⟩
    cases h
    rfl
  · exact hf a m' hfirst.1

theorem findsMemory_modify {f : Machine → Machine} (h : ∀ m, (f m).shared = m.shared) :
    FindsMemory b (modify f : Exec Unit) :=
  fun m hm => ⟨(h m).trans hm, fun h => by cases h⟩

theorem closed_findsMemory (b : Bool) : Closed fun _ x => FindsMemory b x where
  pure a := fun m hm => ⟨hm, fun h => by cases h⟩
  bind := findsMemory_bind
  get := fun m hm => ⟨hm, fun h => by cases h⟩
  modify h := findsMemory_modify fun m => (h m).2
  stop h := fun m hm => ⟨hm, fun hstop => h (Except.error.inj hstop)⟩

theorem findsMemory_modifyHost (f : Host → Host) : FindsMemory b (modifyHost f) :=
  findsMemory_modify fun _ => rfl

theorem findsMemory_needsMemory {t : Trap} (h : t ≠ .noMemory ∨ b) :
    FindsMemory b (needsMemory t) := by
  intro m hm
  unfold needsMemory
  rw [bind_apply]
  show ((if m.shared then pure () else trap t : Exec Unit) m).2.shared = b ∧
    ((if m.shared then pure () else trap t : Exec Unit) m).1 ≠ _
  split
  · exact (closed_findsMemory b).pure () m hm
  · rename_i hnot
    have hne : t ≠ .noMemory := h.resolve_right fun hb => hnot (hm.trans hb)
    exact (closed_findsMemory b).stop (by simpa using hne) m hm

theorem findsMemory_ofOutcome {r : Except Trap α} (h : r ≠ .error .noMemory) :
    FindsMemory b (ofOutcome r) := by
  cases r with
  | ok a => exact (closed_findsMemory b).pure a
  | error t => exact (closed_findsMemory b).stop (by simpa using h)

theorem findsMemory_growMemory (pages : UInt32) : FindsMemory b (growMemory pages) := by
  have h := closed_findsMemory b
  refine h.bind h.get fun m => ?_
  dsimp only
  refine of_branches (h.pure _) ?_
  refine h.bind (findsMemory_modifyHost _) fun _ => ?_
  exact of_branches (h.bind (h.modifyMemory _) fun _ => h.pure _) (h.pure _)

theorem findsMemory_growTable (elements : UInt32) : FindsMemory b (growTable elements) := by
  have h := closed_findsMemory b
  refine h.bind h.get fun m => ?_
  dsimp only
  refine of_branches (h.pure _) ?_
  refine h.bind (findsMemory_modifyHost _) fun _ => ?_
  exact of_branches (h.bind (findsMemory_modify fun _ => rfl) fun _ => h.pure _) (h.pure _)

theorem findsMemory_ask (hb : b) (q : Question) (address room : UInt32) :
    FindsMemory b (ask q address room) := by
  have h := closed_findsMemory b
  refine h.bind (findsMemory_needsMemory (.inr hb)) fun _ => h.bind h.get fun m => ?_
  have houtcome := Bridge.ask_ne_noMemory q address room m.memory m.host
  exact h.bind (findsMemory_modifyHost _) fun _ => h.bind (findsMemory_ofOutcome houtcome) fun _ =>
    h.bind (h.modifyMemory _) fun _ => h.pure _

theorem findsMemory_tell {call : Memory → Host → Except Trap Unit × Host}
    (hcall : ∀ m h, (call m h).1 ≠ .error .noMemory) : FindsMemory b (tell call) := by
  have h := closed_findsMemory b
  refine h.bind h.get fun m => ?_
  exact h.bind (findsMemory_modifyHost _) fun _ => findsMemory_ofOutcome (hcall m.memory m.host)

theorem findsMemory_logging (hb : b) (level : UInt32)
    {call : Memory → Host → Except Trap Unit × Host}
    (hcall : ∀ m h, (call m h).1 ≠ .error .noMemory) : FindsMemory b (logging level call) := by
  have h := closed_findsMemory b
  refine h.bind h.get fun m => ?_
  exact of_branches (h.bind (findsMemory_needsMemory (.inr hb)) fun _ => findsMemory_tell hcall)
    (h.pure _)

theorem findsMemory_print (stream address length : UInt32) :
    FindsMemory b (print stream address length) := by
  have h := closed_findsMemory b
  refine h.bind (h.store32 _ _) fun _ => h.bind (h.store32 _ _) fun _ =>
    h.bind (findsMemory_needsMemory (.inl (by simp))) fun _ => h.bind h.get fun m => ?_
  exact h.bind (findsMemory_modifyHost _) fun _ =>
    of_branches (h.bind (h.store32 _ _) fun _ => h.pure _) (h.pure _)

theorem findsMemory_exit (code : UInt32) : FindsMemory b (exit code) := by
  have h := closed_findsMemory b
  refine h.bind (findsMemory_needsMemory (.inl (by simp))) fun _ => h.stop ?_
  unfold Bridge.exit
  split <;> simp

theorem covers_findsMemory (b : Bool) :
    Covers (fun _ x => FindsMemory b x) fun i => (∃ f, i = .ofHost f) → b where
  toClosed := closed_findsMemory b
  growMemory := findsMemory_growMemory
  growTable := findsMemory_growTable
  ask h := findsMemory_ask (h ⟨_, rfl⟩) _
  report {r} h address length :=
    findsMemory_bind (findsMemory_needsMemory (.inr (h ⟨_, rfl⟩))) fun _ =>
      findsMemory_tell (Bridge.report_ne_noMemory r address length)
  log h level address length :=
    findsMemory_logging (h ⟨_, rfl⟩) level (Bridge.log_ne_noMemory _ address length)
  logs h level address length kvAddress kvLength :=
    findsMemory_logging (h ⟨_, rfl⟩) level
      (Bridge.logs_ne_noMemory _ address length kvAddress kvLength)
  print _ := findsMemory_print
  exit := findsMemory_exit

end Exec

/-- Whether code finds the memory of a program for its calls to the host, as far as it makes any. -/
def Statement.Suits (body : Statement) (b : Bool) : Prop :=
  ∀ i ∈ body.imports, (∃ f, i = .ofHost f) → b

/-- A call of a function does not fail for want of a memory. -/
theorem Machine.call_findsMemory {m : Machine} {body : Statement} {b : Bool} (hm : m.shared = b)
    (h : body.Suits b) :
    (m.call body).2.shared = b ∧ (m.call body).1 ≠ .error (.trapped .noMemory) := by
  have hrun := (Exec.covers_findsMemory b).run h { m with locals := List.replicate 8 0 } hm
  unfold Machine.call
  rcases hr : Exec.run body { m with locals := List.replicate 8 0 } with ⟨(w | f) | u, m'⟩ <;>
    rw [hr] at hrun
  · exact ⟨hrun.1, by simp⟩
  · refine ⟨hrun.1, fun hfails => hrun.2 ?_⟩
    cases hfails
    rfl
  · exact ⟨hrun.1, by simp⟩

/-! ## Guests -/

/-- Whether the making fails for want of something that the host or the module lacks: a memory in a
call to the host, or a function to be called. -/
def CreationCause.Lacks : CreationCause → Prop
  | .start f | .initializer f => f = .trapped .noMemory
  | .handle _ => True
  | .memory _ | .table _ => False

namespace Program

/-- The functions that the host may call, and the start function. -/
def bodies (p : Program) : List Statement :=
  p.exports.filterMap (fun e => match e.value with
    | .function _ body => some body
    | .store _ => none) ++ p.start.toList

/-- Whether all code of a program finds its memory. -/
def Suited (p : Program) : Prop := ∀ body ∈ p.bodies, body.Suits p.exportsMemory

theorem mem_bodies_of_export {p : Program} {name : String} {s : Signature} {body : Statement}
    (h : ⟨name, .function s body⟩ ∈ p.exports) : body ∈ p.bodies :=
  List.mem_append_left _ (List.mem_filterMap.2 ⟨_, h, rfl⟩)

theorem mem_bodies_of_handle {p : Program} {name : String} {y : Yield} {f : Handle y}
    (h : p.handle name y = .ok f) : f.body ∈ p.bodies := by
  unfold handle at h
  split at h
  · rename_i hfind
    split at h
    · cases h
      exact mem_bodies_of_export (List.mem_of_find?_eq_some hfind)
    · cases h
  · cases h

theorem mem_bodies_of_start {p : Program} {body : Statement} (h : p.start = some body) :
    body ∈ p.bodies := List.mem_append_right _ (by simp [h])

end Program

namespace Guest

/-- Whether a part of the making leaves the host to find the memory or not, or else does not fail
for want of something. -/
def Sound (b : Bool) : Creation Machine → Prop
  | .ok m => m.shared = b
  | .error (cause, _) => ¬ cause.Lacks

theorem Sound.bind {b : Bool} {x : Creation Machine} {f : Machine → Creation Machine}
    (hx : Sound b x) (hf : ∀ m, m.shared = b → Sound b (f m)) : Sound b (x >>= f) := by
  cases x with
  | ok m => exact hf m hx
  | error e => exact hx

section

variable {b : Bool} {m : Machine} (hm : m.shared = b)

include hm

theorem sound_allotMemory (shape : Option MemoryShape) : Sound b (allotMemory shape m) := by
  unfold allotMemory
  cases shape with
  | none => exact hm
  | some s =>
    dsimp only
    rcases m.host.limiter.askMemory (s.pages * Memory.pageSize) with ⟨_ | _, limiter⟩
    · exact not_false
    · exact hm

theorem sound_allotTable (elements : Option Nat) : Sound b (allotTable elements m) := by
  unfold allotTable
  cases elements with
  | none => exact hm
  | some n =>
    dsimp only
    rcases m.host.limiter.askTable n with ⟨_ | _, limiter⟩
    · exact not_false
    · exact hm

theorem sound_placeData (data : List Segment) : Sound b (placeData data m) := by
  induction data generalizing m with
  | nil => exact hm
  | cons s rest ih =>
    unfold placeData
    split
    · exact ih hm
    · exact fun h => by cases h

theorem sound_mustRun (cause : Failure → CreationCause)
    (hcause : ∀ f, f ≠ .trapped .noMemory → ¬ (cause f).Lacks)
    {body : Option Statement} (hbody : ∀ code ∈ body, code.Suits b) :
    Sound b (mustRun cause body m) := by
  unfold mustRun
  cases body with
  | none => exact hm
  | some body =>
    obtain ⟨hshared, hfound⟩ := Machine.call_findsMemory hm (hbody body rfl)
    dsimp only
    rcases hcall : m.call body with ⟨f | word, m'⟩ <;> rw [hcall] at hshared hfound
    · exact hcause f fun hf => hfound (by rw [hf])
    · exact hshared

theorem sound_runInitializer {module : Prepared}
    (hcode : ∀ body ∈ module.program.bodies, body.Suits b)
    (hinit : module.hasInitializer →
      ∃ f, module.program.handle Program.initializerName .unit = .ok f) :
    Sound b (runInitializer module m) := by
  unfold runInitializer
  split
  · rename_i hhas
    obtain ⟨f, hf⟩ := hinit hhas
    rw [mustFind_eq_ok.2 hf]
    refine Sound.bind (sound_mustRun hm .initializer (fun _ h => h) ?_) fun m' hm' => hm'
    rintro _ ⟨⟩
    exact hcode f.body (Program.mem_bodies_of_handle hf)
  · exact hm

end

/-- Making the machine of a guest does not fail for want of something. -/
theorem sound_boot {module : Prepared} (h : module.program.Suited)
    (hinit : module.hasInitializer →
      ∃ f, module.program.handle Program.initializerName .unit = .ok f) (settings : Settings) :
    Sound module.program.exportsMemory (boot module settings) := by
  unfold boot
  dsimp only
  refine Sound.bind (sound_allotMemory rfl _) fun m₁ h₁ => ?_
  refine Sound.bind (sound_allotTable h₁ _) fun m₂ h₂ => ?_
  refine Sound.bind (sound_placeData h₂ _) fun m₃ h₃ => ?_
  refine Sound.bind (sound_mustRun h₃ .start (fun _ h => h) ?_) fun m₄ h₄ =>
    sound_runInitializer h₄ h hinit
  exact fun body hbody => h body (Program.mem_bodies_of_start hbody)

/-- Nor does making a guest whose stages are all found. -/
theorem not_lacks_of_assemble {module : Prepared} (h : module.program.Suited)
    (hinit : module.hasInitializer →
      ∃ f, module.program.handle Program.initializerName .unit = .ok f)
    (hfound : ∃ handles, Handles.ofStages module.program module.exports = .ok handles)
    {settings : Settings} {cause : CreationCause} {said : Transcript}
    (herr : assemble module settings = .error (cause, said)) : ¬ cause.Lacks := by
  obtain ⟨handles, hhandles⟩ := hfound
  have hsound := sound_boot h hinit settings
  unfold assemble at herr
  cases hboot : boot module settings with
  | error e =>
    rw [hboot] at herr hsound
    cases herr
    exact hsound
  | ok m =>
    rw [hboot] at herr
    have hok : mustFind (Handles.ofStages module.program module.exports) m = .ok handles :=
      mustFind_eq_ok.2 hhandles
    change (mustFind (Handles.ofStages module.program module.exports) m >>= _) = _ at herr
    rw [hok] at herr
    cases herr

theorem shared_use {g : Guest} {b : Bool} (hcode : ∀ c body, g.body? c = some body → body.Suits b)
    (hg : g.machine.shared = b) (u : Use) : (g.use u).machine.shared = b := by
  cases u with
  | takeTranscript => exact hg
  | call c =>
    cases hbody : g.body? c with
    | none =>
      rw [use, call_of_no_body hbody]
      exact hg
    | some body =>
      have henter : (enter g.machine c).shared = b := hg
      have hkept := (Machine.call_findsMemory henter (hcode c body hbody)).1
      show (g.call c).2.machine.shared = _
      unfold call
      rw [hbody]
      dsimp only
      rcases hcall : (enter g.machine c).call body with ⟨_ | _, m⟩ <;> rw [hcall] at hkept <;>
        exact hkept

section

variable {module : Prepared} {settings : Settings} {id : Nat} {g : Guest}

theorem Lived.mem_bodies (hg : Lived module settings id g) {c : StageCall} {body : Statement}
    (h : g.body? c = some body) : body ∈ module.program.bodies :=
  Program.mem_bodies_of_handle (hg.body_eq_some.1 h).2

/-- Of a guest of any past the host finds the memory just if the program exports one. -/
theorem Lived.shared (h : module.program.Suited)
    (hinit : module.hasInitializer →
      ∃ f, module.program.handle Program.initializerName .unit = .ok f)
    (hg : Lived module settings id g) : g.machine.shared = module.program.exportsMemory := by
  obtain ⟨made, uses, hmade, rfl⟩ := hg
  have hcode : ∀ c body, made.body? c = some body → body.Suits module.program.exportsMemory :=
    fun c body hbody => h body ((lived_of_create hmade).mem_bodies hbody)
  have hshared : made.machine.shared = module.program.exportsMemory := by
    have hsound := sound_boot h hinit settings
    rw [(assembled_of_create hmade).2.1] at hsound
    exact hsound
  clear hmade
  induction uses generalizing made with
  | nil => exact hshared
  | cons u uses ih =>
    refine ih _ (fun c body hbody => hcode c body ?_) (shared_use hcode hshared u)
    rwa [body_congr (made.handles_use u)] at hbody

/-- No call of a guest of any past fails for want of a memory. -/
theorem Lived.findsMemory (h : module.program.Suited)
    (hinit : module.hasInitializer →
      ∃ f, module.program.handle Program.initializerName .unit = .ok f)
    (hg : Lived module settings id g) (c : StageCall) {body : Statement}
    (hbody : g.body? c = some body) :
    ((enter g.machine c).call body).1 ≠ .error (.trapped .noMemory) := by
  have henter : (enter g.machine c).shared = module.program.exportsMemory := hg.shared h hinit
  exact (Machine.call_findsMemory henter (h body (hg.mem_bodies hbody))).2

end

end Guest
end StageHost

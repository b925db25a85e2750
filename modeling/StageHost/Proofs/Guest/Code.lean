import StageHost.Guest.Machine
/-
  What holds of all guest code.
  A property of steps is closed if it is kept by doing steps one after the other, and if steps have
  it that leave the host alone (`Closed`). If the calls of a run have it too, as far as the code's
  imports allow them (`Covers`), then so does every expression and every statement
  (`Covers.eval`, `Covers.run`): what is to be shown of all code need be shown of its calls only.
-/
namespace StageHost
namespace Exec

variable {α β : Type}

theorem bind_apply (x : Exec α) (f : α → Exec β) (m : Machine) :
    (x >>= f) m = match x m with
      | (.ok a, m) => f a m
      | (.error stop, m) => (.error stop, m) := by
  show (ExceptT.bind x f) m = _
  unfold ExceptT.bind ExceptT.mk
  show (StateT.bind x _) m = _
  unfold StateT.bind
  show (match x m with | (a, s) => ExceptT.bindCont f a s) = _
  rcases x m with ⟨_ | _, _⟩ <;> rfl

/-- A step that goes well hands over to the next. -/
theorem bind_of_ok {x : Exec α} {m m' : Machine} {a : α} (h : x m = (.ok a, m'))
    (f : α → Exec β) : (x >>= f) m = f a m' := by
  rw [bind_apply, h]

theorem get_apply (m : Machine) : (get : Exec Machine) m = (.ok m, m) := rfl

theorem modifyHost_apply (f : Host → Host) (m : Machine) :
    modifyHost f m = (.ok (), { m with host := f m.host }) := rfl

theorem needsMemory_bind (t : Trap) (f : Unit → Exec α) (m : Machine) :
    (needsMemory t >>= f) m =
      if m.shared then f () m else (.error (.failed (.trapped t)), m) := by
  have hneeds : needsMemory t m =
      if m.shared then (.ok (), m) else (.error (.failed (.trapped t)), m) := by
    unfold needsMemory
    rw [bind_apply]
    show (if m.shared then pure () else trap t : Exec Unit) m = _
    split <;> rfl
  rw [bind_apply, hneeds]
  cases m.shared <;> rfl

/-- One more round of a loop. -/
theorem repeatWhile_succ (condition : Exec UInt32) (body : Exec Unit) (n : Nat) :
    repeatWhile condition body (n + 1) = condition >>= fun w =>
      if w = 0 then pure () else body >>= fun _ => repeatWhile condition body n := by
  funext m
  rw [bind_apply, repeatWhile]
  dsimp only
  rcases condition m with ⟨stop | w, m'⟩
  · rfl
  · dsimp only
    split
    · rfl
    · rw [bind_apply]
      rcases body m' with ⟨stop | u, m''⟩ <;> rfl

/-- A property of steps that is kept by doing one after the other. Steps that leave the host alone
have it, and those that stop the run, unless for want of a memory that the host finds. -/
structure Closed (C : (α : Type) → Exec α → Prop) : Prop where
  pure {α : Type} (a : α) : C α (pure a)
  bind {α β : Type} {x : Exec α} {f : α → Exec β} (hx : C α x) (hf : ∀ a, C β (f a)) :
    C β (x >>= f)
  get : C Machine get
  modify {f : Machine → Machine} (h : ∀ m, (f m).host = m.host ∧ (f m).shared = m.shared) :
    C Unit (modify f)
  stop {α : Type} {s : Stop} (h : s ≠ .failed (.trapped .noMemory)) : C α (throw s)

/-- A step that does one thing or the other has what both have. -/
theorem of_branches {P : Exec α → Prop} {c : Prop} [Decidable c] {x y : Exec α} (hx : P x)
    (hy : P y) : P (if c then x else y) := by
  split
  · exact hx
  · exact hy

/-! ## Variables and memory -/

namespace Closed

variable {C : (α : Type) → Exec α → Prop} (h : Closed C)

include h

theorem getVariable (x : Variable) : C _ (getVariable x) := by
  cases x <;> exact h.bind h.get fun _ => h.pure _

theorem setVariable (x : Variable) (w : UInt32) : C _ (setVariable x w) := by
  cases x <;> exact h.modify fun _ => ⟨rfl, rfl⟩

theorem modifyMemory (f : Memory → Memory) : C _ (modifyMemory f) :=
  h.modify fun _ => ⟨rfl, rfl⟩

theorem inBounds (address : UInt32) (length : Nat) : C _ (inBounds address length) :=
  h.bind h.get fun _ => of_branches (h.pure _) (h.stop (by simp))

theorem load8 (address : UInt32) : C _ (load8 address) :=
  h.bind (h.inBounds _ _) fun _ => h.bind h.get fun _ => h.pure _

theorem load32 (address : UInt32) : C _ (load32 address) :=
  h.bind (h.inBounds _ _) fun _ => h.bind h.get fun _ => h.pure _

theorem store8 (address w : UInt32) : C _ (store8 address w) :=
  h.bind (h.inBounds _ _) fun _ => h.modifyMemory _

theorem store32 (address w : UInt32) : C _ (store32 address w) :=
  h.bind (h.inBounds _ _) fun _ => h.modifyMemory _

theorem copy (target source length : UInt32) : C _ (copy target source length) :=
  h.bind (h.inBounds _ _) fun _ => h.bind (h.inBounds _ _) fun _ => h.modifyMemory _

theorem fill (target byte length : UInt32) : C _ (fill target byte length) :=
  h.bind (h.inBounds _ _) fun _ => h.modifyMemory _

theorem size : C _ size := h.bind h.get fun _ => h.pure _

/-- The induction is on the rounds left. -/
theorem repeatWhile {condition : Exec UInt32} {body : Exec Unit} (hc : C _ condition)
    (hb : C _ body) (n : Nat) : C _ (repeatWhile condition body n) := by
  induction n with
  | zero => exact h.stop (by simp)
  | succ n ih =>
    rw [repeatWhile_succ]
    exact h.bind hc fun _ => of_branches (h.pure _) (h.bind hb fun _ => ih)

end Closed

/-! ## Expressions and statements -/

/-- A closed property that the calls have which some imports allow, and the growing of memory and
table. -/
structure Covers (C : (α : Type) → Exec α → Prop) (allowed : Import → Prop) : Prop
    extends Closed C where
  growMemory (pages : UInt32) : C _ (growMemory pages)
  growTable (elements : UInt32) : C _ (growTable elements)
  ask {q : Question} (hq : allowed (.ofHost (.ask q))) (address room : UInt32) :
    C _ (ask q address room)
  report {r : Report} (hr : allowed (.ofHost (.report r))) (address length : UInt32) :
    C _ (report r address length)
  log (hl : allowed (.ofHost .log)) (level address length : UInt32) :
    C _ (log level address length)
  logs (hl : allowed (.ofHost .logs)) (level address length kvAddress kvLength : UInt32) :
    C _ (logs level address length kvAddress kvLength)
  print (hwrite : allowed (.ofSystem SystemInterface.write)) (stream address length : UInt32) :
    C _ (print stream address length)
  exit (code : UInt32) : C Unit (exit code)

namespace Covers

variable {C : (α : Type) → Exec α → Prop} {allowed : Import → Prop} (h : Covers C allowed)

include h

theorem eval {e : Expr} (he : ∀ i ∈ e.imports, allowed i) : C _ (eval e) := by
  induction e with
  | word w => exact h.pure w
  | var x => exact h.getVariable x
  | binary op a b iha ihb =>
    obtain ⟨ha, hb⟩ := List.forall_mem_append.1 he
    refine h.bind (iha ha) fun x => h.bind (ihb hb) fun y => ?_
    split
    · exact h.pure _
    · exact h.stop (by simp)
  | eqz a iha => exact h.bind (iha he) fun _ => h.pure _
  | load8 a iha => exact h.bind (iha he) h.load8
  | load32 a iha => exact h.bind (iha he) h.load32
  | grow a iha => exact h.bind (iha he) h.growMemory
  | size => exact h.size
  | growTable a iha => exact h.bind (iha he) h.growTable
  | ask q a b iha ihb =>
    simp only [Expr.imports, List.forall_mem_append, List.forall_mem_singleton] at he
    obtain ⟨⟨ha, hb⟩, hq⟩ := he
    exact h.bind (iha ha) fun address => h.bind (ihb hb) fun room => h.ask hq address room
  | severity => exact h.bind h.get fun _ => h.pure _
  | print a b c iha ihb ihc =>
    simp only [Expr.imports, List.forall_mem_append, List.forall_mem_singleton] at he
    obtain ⟨⟨⟨ha, hb⟩, hc⟩, hwrite⟩ := he
    exact h.bind (iha ha) fun stream => h.bind (ihb hb) fun address =>
      h.bind (ihc hc) fun length => h.print hwrite stream address length

theorem run {body : Statement} (hbody : ∀ i ∈ body.imports, allowed i) : C _ (run body) := by
  induction body with
  | skip => exact h.pure _
  | seq a b iha ihb =>
    obtain ⟨ha, hb⟩ := List.forall_mem_append.1 hbody
    exact h.bind (iha ha) fun _ => ihb hb
  | set x e => exact h.bind (h.eval hbody) (h.setVariable x)
  | store8 a e =>
    obtain ⟨ha, he⟩ := List.forall_mem_append.1 hbody
    exact h.bind (h.eval ha) fun address => h.bind (h.eval he) (h.store8 address)
  | store32 a e =>
    obtain ⟨ha, he⟩ := List.forall_mem_append.1 hbody
    exact h.bind (h.eval ha) fun address => h.bind (h.eval he) (h.store32 address)
  | copy a b c =>
    simp only [Statement.imports, List.forall_mem_append] at hbody
    obtain ⟨⟨ha, hb⟩, hc⟩ := hbody
    exact h.bind (h.eval ha) fun target => h.bind (h.eval hb) fun source =>
      h.bind (h.eval hc) (h.copy target source)
  | fill a b c =>
    simp only [Statement.imports, List.forall_mem_append] at hbody
    obtain ⟨⟨ha, hb⟩, hc⟩ := hbody
    exact h.bind (h.eval ha) fun target => h.bind (h.eval hb) fun byte =>
      h.bind (h.eval hc) (h.fill target byte)
  | perform e => exact h.bind (h.eval hbody) fun _ => h.pure _
  | report r a b =>
    simp only [Statement.imports, List.forall_mem_append, List.forall_mem_singleton] at hbody
    obtain ⟨⟨ha, hb⟩, hr⟩ := hbody
    exact h.bind (h.eval ha) fun address => h.bind (h.eval hb) (h.report hr address)
  | log a b c =>
    simp only [Statement.imports, List.forall_mem_append, List.forall_mem_singleton] at hbody
    obtain ⟨⟨⟨ha, hb⟩, hc⟩, hl⟩ := hbody
    exact h.bind (h.eval ha) fun level => h.bind (h.eval hb) fun address =>
      h.bind (h.eval hc) (h.log hl level address)
  | logs a b c d e =>
    simp only [Statement.imports, List.forall_mem_append, List.forall_mem_singleton] at hbody
    obtain ⟨⟨⟨⟨⟨ha, hb⟩, hc⟩, hd⟩, he⟩, hl⟩ := hbody
    exact h.bind (h.eval ha) fun level => h.bind (h.eval hb) fun address =>
      h.bind (h.eval hc) fun length => h.bind (h.eval hd) fun kvAddress =>
        h.bind (h.eval he) (h.logs hl level address length kvAddress)
  | ite c a b iha ihb =>
    simp only [Statement.imports, List.forall_mem_append] at hbody
    obtain ⟨⟨hc, ha⟩, hb⟩ := hbody
    exact h.bind (h.eval hc) fun _ => of_branches (ihb hb) (iha ha)
  | loop c a iha =>
    obtain ⟨hc, ha⟩ := List.forall_mem_append.1 hbody
    exact h.repeatWhile (h.eval hc) (iha ha) _
  | leave => exact h.stop (by simp)
  | giveWord e => exact h.bind (h.eval hbody) fun _ => h.stop (by simp)
  | givePair a b =>
    obtain ⟨ha, hb⟩ := List.forall_mem_append.1 hbody
    exact h.bind (h.eval ha) fun _ => h.bind (h.eval hb) fun _ => h.stop (by simp)
  | trap => exact h.stop (by simp)
  | exit e =>
    obtain ⟨he, -⟩ := List.forall_mem_append.1 hbody
    exact h.bind (h.eval he) h.exit

end Covers

end Exec
end StageHost

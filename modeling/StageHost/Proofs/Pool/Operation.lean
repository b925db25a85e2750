import StageHost.Pool
/-
  Operations on a pool, and runs of them.
  An operation that may make a guest carries the making with it, so that in a run each one is free
  to succeed or fail. A pool is reachable if some run from the empty pool leads to it.
  `attempts` lists the numbers that a run gives to makings, in their order, with whether a guest
  came of each.
-/
namespace StageHost

/-- The guest of a claim. -/
def Claim.guest? : Claim → Option Nat
  | .held id => some id
  | .reclaimed | .unscheduled => none

namespace Pool

variable {γ ε : Type}

/-- Changes guests under their handles, whatever place they are in. -/
def touch (change : Nat → γ → γ) (p : Pool γ) : Pool γ :=
  { p with guests := p.guests.map fun e => (e.1, change e.1 e.2) }

theorem modifyGuest_eq (p : Pool γ) (id : Nat) (f : γ → γ) :
    p.modifyGuest id f = p.touch fun i g => if i = id then f g else g := by
  unfold modifyGuest Pool.touch
  congr 1
  apply List.map_congr_left
  intro e _
  by_cases he : e.1 = id <;> simp [he]

inductive Op (γ ε : Type)
  | prewarm (create : Nat → Except ε γ)
  | withFree (create : Nat → Except ε γ) (use : γ → γ)
  | schedule (create : Nat → Except ε γ) (cycle : UInt64) (pod : String)
  | retain (cycle : UInt64) (r : Retention)
  | claim (pod : String)
  | bind (pod : String)
  | detach (create : Nat → Except ε γ) (pod : String)
  | release (pod : String)
  | touch (change : Nat → γ → γ)

/-- The pod that an operation names. -/
def Op.pod? : Op γ ε → Option String
  | .schedule _ _ pod | .claim pod | .bind pod | .detach _ pod | .release pod => some pod
  | .prewarm _ | .withFree .. | .retain .. | .touch _ => none

/-! ## Steps -/

/-- The pool after an operation. -/
def step (p : Pool γ) : Op γ ε → Pool γ
  | .prewarm create => (p.prewarm create).2
  | .withFree create use => (p.withFree create use).2
  | .schedule create cycle pod => (p.schedule create cycle pod).2
  | .retain cycle r => p.retain cycle r
  | .claim pod => (p.claim pod).2
  | .bind pod => (p.bind pod).2
  | .detach create pod => (p.detach create pod).2
  | .release pod => p.release pod
  | .touch change => p.touch change

/-- The guest that an operation hands out. -/
def gives (p : Pool γ) : Op γ ε → Option Nat
  | .withFree create use => (p.withFree create use).1.toOption
  | .schedule create cycle pod => (p.schedule create cycle pod).1.toOption
  | .claim pod => (p.claim pod).1.guest?
  | .bind pod => (p.bind pod).1
  | .detach create pod => (p.detach create pod).1.toOption
  | .prewarm _ | .retain .. | .release _ | .touch _ => none

/-- The number that an operation gives to a making, if it comes to one, and whether a guest comes
of it. -/
def attempt? (p : Pool γ) : Op γ ε → Option (Nat × Bool)
  | .prewarm create => some (p.nextId, (create p.nextId).toBool)
  | .withFree create _ =>
    if p.takeFree.1 = none then some (p.nextId, (create p.nextId).toBool) else none
  | .schedule create cycle pod =>
    if (p.pick cycle pod).1 = none then some (p.nextId, (create p.nextId).toBool) else none
  | .detach create pod =>
    if (p.pickDetached pod).1 = none then some (p.nextId, (create p.nextId).toBool) else none
  | .retain .. | .claim _ | .bind _ | .release _ | .touch _ => none

/-! ## Runs -/

/-- The pool after a run. -/
def run (p : Pool γ) : List (Op γ ε) → Pool γ
  | [] => p
  | op :: ops => (p.step op).run ops

/-- The attempts at making a guest in a run, in their order. -/
def attempts (p : Pool γ) : List (Op γ ε) → List (Nat × Bool)
  | [] => []
  | op :: ops => (p.attempt? op).toList ++ (p.step op).attempts ops

@[simp] theorem run_nil (p : Pool γ) : p.run ([] : List (Op γ ε)) = p := rfl

@[simp] theorem run_cons (p : Pool γ) (op : Op γ ε) (ops : List (Op γ ε)) :
    p.run (op :: ops) = (p.step op).run ops := rfl

theorem run_append (p : Pool γ) (ops more : List (Op γ ε)) :
    p.run (ops ++ more) = (p.run ops).run more := by
  induction ops generalizing p with
  | nil => rfl
  | cons op ops ih => exact ih (p.step op)

/-- Whether all operations of a run are of some kind, each in the pool that it finds. -/
def Along (C : Pool γ → Op γ ε → Prop) (p : Pool γ) : List (Op γ ε) → Prop
  | [] => True
  | op :: ops => C p op ∧ (p.step op).Along C ops

theorem along_snoc {C : Pool γ → Op γ ε → Prop} {p : Pool γ} {ops : List (Op γ ε)} {op : Op γ ε} :
    p.Along C (ops ++ [op]) ↔ p.Along C ops ∧ C (p.run ops) op := by
  induction ops generalizing p with
  | nil => simp [Along]
  | cons first ops ih => simp only [List.cons_append, Along, run_cons, ih, and_assoc]

theorem Along.imp {C D : Pool γ → Op γ ε → Prop} (h : ∀ q op, C q op → D q op) {p : Pool γ}
    {ops : List (Op γ ε)} (hc : p.Along C ops) : p.Along D ops := by
  induction ops generalizing p with
  | nil => trivial
  | cons op ops ih => exact ⟨h p op hc.1, ih hc.2⟩

/-- A pool that a run from the empty pool leads to. -/
def Reachable (ε : Type) (p : Pool γ) : Prop :=
  ∃ ops : List (Op γ ε), (empty : Pool γ).run ops = p

theorem reachable_empty : Reachable ε (empty : Pool γ) := ⟨[], rfl⟩

theorem Reachable.run {p : Pool γ} (hp : p.Reachable ε) (ops : List (Op γ ε)) :
    (p.run ops).Reachable ε := by
  obtain ⟨past, rfl⟩ := hp
  exact ⟨past ++ ops, run_append _ _ _⟩

theorem Reachable.step {p : Pool γ} (hp : p.Reachable ε) (op : Op γ ε) :
    (p.step op).Reachable ε := hp.run [op]

/-- A run that leaves the guest of the pod p parked for it, retained one way or the other, and that
of the pod q in the slot. -/
def parkingRun (r : Retention) : List (Op Nat String) :=
  [.schedule .ok 1 "p", .retain 1 r, .schedule .ok 2 "q"]

/-- Cycles of some pods, one after the other, that are each retained tentatively. -/
def crowd (pods : List String) : List (Op Nat String) :=
  pods.zipIdx.flatMap fun (pod, i) =>
    [.schedule .ok (UInt64.ofNat i) pod, .retain (UInt64.ofNat i) .tentative]

/-- What every step keeps, every run keeps. -/
theorem run_induction {I : Pool γ → Prop} (hstep : ∀ p (op : Op γ ε), I p → I (p.step op))
    {p : Pool γ} (h : I p) (ops : List (Op γ ε)) : I (p.run ops) := by
  induction ops generalizing p with
  | nil => exact h
  | cons op ops ih => exact ih (hstep p op h)

/-- What every step of some kind keeps, every run of such steps keeps. -/
theorem run_induction_of {C : Op γ ε → Prop} {I : Pool γ → Prop}
    (hstep : ∀ p op, C op → I p → I (p.step op)) {p : Pool γ} (h : I p) {ops : List (Op γ ε)}
    (hops : ∀ op ∈ ops, C op) : I (p.run ops) := by
  induction ops generalizing p with
  | nil => exact h
  | cons op ops ih =>
    have hfirst := hstep p op (hops op List.mem_cons_self) h
    exact ih hfirst fun o ho => hops o (List.mem_cons_of_mem _ ho)

/-- What every step of some kind keeps, a run of such steps finds all along. -/
theorem along_induction_of {C : Op γ ε → Prop} {I : Pool γ → Prop}
    (hstep : ∀ p op, C op → I p → I (p.step op)) {p : Pool γ} (h : I p) {ops : List (Op γ ε)}
    (hops : ∀ op ∈ ops, C op) : p.Along (fun q op => I q ∧ C op) ops := by
  induction ops generalizing p with
  | nil => trivial
  | cons op ops ih =>
    have hop := hops op List.mem_cons_self
    exact ⟨⟨h, hop⟩, ih (hstep p op hop h) fun o ho => hops o (List.mem_cons_of_mem _ ho)⟩

/-- What holds of the empty pool and is kept by every step holds of every reachable pool. -/
theorem Reachable.induction {I : Pool γ → Prop} (h0 : I empty)
    (hstep : ∀ p (op : Op γ ε), I p → I (p.step op)) {p : Pool γ} (hp : p.Reachable ε) : I p := by
  obtain ⟨ops, rfl⟩ := hp
  exact run_induction hstep h0 ops

end Pool
end StageHost

/-
  A pool of guests for scheduling cycles and binding cycles.
  Every guest is in one of three places: the slot of the scheduling cycle, the binding entry of a
  pod, or the free list. A guest that is retained when the next scheduling cycle begins is parked
  under its pod's binding entry; of guests parked tentatively only the latest few stay, and the
  pods of the others are remembered as reclaimed.
  The pool deals in guest numbers and keeps the guests by number. Making a guest is left to a
  function of its number, which may fail; the number is used up all the same.
-/
namespace StageHost

/-- How a guest is kept for the binding cycle of its pod. -/
inductive Retention
  /-- The pod may be abandoned without any stage that releases the guest. -/
  | tentative
  /-- The pod is certain to reach a stage that releases the guest. -/
  | firm
deriving DecidableEq, Repr, Inhabited

/-- The stronger of what is retained so far, if anything, and a retention. -/
def Retention.strengthen : Option Retention → Retention → Retention
  | some .firm, _ => .firm
  | _, r => r

/-- The guest of the scheduling cycle. -/
structure Slot where
  cycle : UInt64
  pod : String
  retention : Option Retention := none
  guest : Nat
deriving DecidableEq, Repr, Inhabited

/-- The slot, not retained if it is of a given pod. -/
def Slot.unretain (pod : String) (s : Slot) : Slot :=
  if s.pod = pod then { s with retention := none } else s

/-- What a binding cycle finds. -/
inductive Claim
  /-- The guest that scheduled the pod, now held for its binding cycle. -/
  | held (guest : Nat)
  /-- The guest that scheduled the pod was reclaimed. -/
  | reclaimed
  /-- No guest scheduled the pod. -/
  | unscheduled
deriving DecidableEq, Repr, Inhabited

structure Pool (γ : Type) where
  slot : Option Slot := none
  /-- Guests of binding cycles by pod. -/
  binding : List (String × Nat) := []
  /-- Guests in no cycle, the last one put there first. -/
  free : List Nat := []
  /-- Pods whose guests are tentatively parked, oldest first. -/
  parked : List String := []
  /-- Pods whose parked guests were taken away, oldest first. -/
  reclaimed : List String := []
  nextId : Nat := 1
  /-- Every guest ever made, the last one first. -/
  guests : List (Nat × γ) := []

namespace Pool

variable {γ ε : Type}

instance : Inhabited (Pool γ) := ⟨{}⟩

/-- The pool in which no guest was ever made. -/
def empty : Pool γ := {}

/-- How many guests stay parked tentatively. -/
def parkedLimit : Nat := 8

/-- How many reclaimed pods are remembered. -/
def reclaimedLimit : Nat := 1024

/-! ## Guests -/

/-- The number of guests ever made. -/
def created (p : Pool γ) : Nat := p.guests.length

/-- A guest by its number. -/
def guest? (p : Pool γ) (id : Nat) : Option γ := p.guests.lookup id

/-- Changes a guest. -/
def modifyGuest (p : Pool γ) (id : Nat) (f : γ → γ) : Pool γ :=
  { p with guests := p.guests.map fun e => if e.1 = id then (e.1, f e.2) else e }

/-- Uses up the next number. -/
def takeId (p : Pool γ) : Nat × Pool γ := (p.nextId, { p with nextId := p.nextId + 1 })

/-- Adds a guest that was just made; it is in no place yet. -/
def enroll (p : Pool γ) (id : Nat) (guest : γ) : Pool γ :=
  { p with guests := (id, guest) :: p.guests }

/-- Makes a guest. -/
def make (create : Nat → Except ε γ) (p : Pool γ) : Except ε Nat × Pool γ :=
  let (id, p) := p.takeId
  match create id with
  | .ok guest => (.ok id, p.enroll id guest)
  | .error e => (.error e, p)

/-! ## Free guests -/

/-- Puts a guest on the free list. -/
def giveBack (p : Pool γ) (id : Nat) : Pool γ := { p with free := id :: p.free }

/-- Takes the guest that was put on the free list last. -/
def takeFree (p : Pool γ) : Option Nat × Pool γ :=
  match p.free with
  | [] => (none, p)
  | id :: rest => (some id, { p with free := rest })

/-- Makes a guest and puts it on the free list. -/
def prewarm (create : Nat → Except ε γ) (p : Pool γ) : Except ε Unit × Pool γ :=
  match p.make create with
  | (.ok id, p) => (.ok (), p.giveBack id)
  | (.error e, p) => (.error e, p)

/-- Takes a free guest, or makes one. -/
def borrow (create : Nat → Except ε γ) (p : Pool γ) : Except ε Nat × Pool γ :=
  match p.takeFree with
  | (some id, p) => (.ok id, p)
  | (none, p) => p.make create

/-- Changes a guest outside of any cycle and gives its number. -/
def withFree (create : Nat → Except ε γ) (f : γ → γ) (p : Pool γ) : Except ε Nat × Pool γ :=
  match p.borrow create with
  | (.ok id, p) => (.ok id, (p.modifyGuest id f).giveBack id)
  | (.error e, p) => (.error e, p)

/-! ## Parking -/

/-- Whether a pod's guest is tentatively parked. -/
def isParked (p : Pool γ) (pod : String) : Bool := p.parked.contains pod

/-- The pod's guest is no longer parked tentatively. -/
def unpark (p : Pool γ) (pod : String) : Pool γ := { p with parked := p.parked.filter (· ≠ pod) }

/-- Frees the guest of a pod's binding entry, if there is one. -/
def freeBinding (p : Pool γ) (pod : String) : Pool γ :=
  match p.binding.lookup pod with
  | some id => { p.giveBack id with binding := p.binding.filter (·.1 ≠ pod) }
  | none => p

/-- Gives a pod a binding entry. -/
def hold (p : Pool γ) (pod : String) (id : Nat) : Pool γ :=
  { p with binding := (pod, id) :: p.binding }

/-- Remembers a pod as reclaimed, and forgets the oldest one if there are too many. -/
def remember (p : Pool γ) (pod : String) : Pool γ :=
  let reclaimed := p.reclaimed ++ [pod]
  { p with reclaimed := if reclaimedLimit < reclaimed.length then reclaimed.drop 1 else reclaimed }

/-- Reclaims the guest that was parked first. -/
def reclaimOldest (p : Pool γ) : Pool γ :=
  match p.parked with
  | [] => p
  | pod :: rest => ({ p with parked := rest }.freeBinding pod).remember pod

/-- Parks a retained guest for its pod. If the pod already has a binding entry, the guest is freed
instead. -/
def park (p : Pool γ) (pod : String) (id : Nat) (r : Retention) : Pool γ :=
  if (p.binding.lookup pod).isSome then p.giveBack id
  else
    let p := p.hold pod id
    let p := if r = .tentative then { p with parked := p.parked ++ [pod] } else p
    Nat.repeat reclaimOldest (p.parked.length - parkedLimit) p

/-- A pod that is scheduled again was abandoned: its parked guest is freed, and it is no longer
remembered as reclaimed. -/
def abandon (p : Pool γ) (pod : String) : Pool γ :=
  let p := if p.isParked pod then (p.unpark pod).freeBinding pod else p
  { p with reclaimed := p.reclaimed.filter (· ≠ pod) }

/-! ## Scheduling cycles -/

/-- Puts a guest in the slot. -/
def install (p : Pool γ) (cycle : UInt64) (pod : String) (id : Nat) : Pool γ :=
  { p with slot := some { cycle, pod, guest := id } }

/-- The guest of the slot, if the slot can serve a cycle; otherwise the slot is left empty. A slot
of the same cycle serves it whatever the pod; a guest that is not retained is handed over to the
new cycle; a retained one is parked. -/
def takeSlot (p : Pool γ) (cycle : UInt64) (pod : String) : Option Nat × Pool γ :=
  match p.slot with
  | none => (none, p)
  | some s =>
    if s.cycle = cycle then (some s.guest, p)
    else
      let p := { p with slot := none }
      match s.retention with
      | none => (some s.guest, (p.abandon pod).install cycle pod s.guest)
      | some r => (none, (p.park s.pod s.guest r).abandon pod)

/-- The guest for a scheduling cycle, if there is one without making any. -/
def pick (p : Pool γ) (cycle : UInt64) (pod : String) : Option Nat × Pool γ :=
  match p.takeSlot cycle pod with
  | (some id, p) => (some id, p)
  | (none, p) =>
    match p.takeFree with
    | (some id, p) => (some id, p.install cycle pod id)
    | (none, p) => (none, p)

/-- Puts a new guest in the slot, unless the slot can serve the cycle by now. -/
def settle (p : Pool γ) (cycle : UInt64) (pod : String) (id : Nat) : Nat × Pool γ :=
  match p.takeSlot cycle pod with
  | (some other, p) => (other, p.giveBack id)
  | (none, p) => (id, p.install cycle pod id)

/-- The guest for a scheduling cycle. All calls within a cycle get the same one. -/
def schedule (create : Nat → Except ε γ) (cycle : UInt64) (pod : String) (p : Pool γ) :
    Except ε Nat × Pool γ :=
  match p.pick cycle pod with
  | (some id, p) => (.ok id, p)
  | (none, p) =>
    match p.make create with
    | (.ok id, p) =>
      let (id, p) := p.settle cycle pod id
      (.ok id, p)
    | (.error e, p) => (.error e, p)

/-- Retains the guest of a scheduling cycle for its pod's binding cycle; a firm retention stays
firm. Nothing happens if the slot is not of that cycle. -/
def retain (cycle : UInt64) (r : Retention) (p : Pool γ) : Pool γ :=
  match p.slot with
  | some s =>
    if s.cycle = cycle then
      { p with slot := some { s with retention := some (.strengthen s.retention r) } }
    else p
  | none => p

/-! ## Binding cycles -/

/-- Looks up the guest for a pod's binding cycle: that of its binding entry, which is no longer
parked from then on, or else that of the slot, which is taken over. -/
def claim (pod : String) (p : Pool γ) : Claim × Pool γ :=
  match p.binding.lookup pod with
  | some id => (.held id, p.unpark pod)
  | none =>
    match p.slot.filter (·.pod = pod) with
    | some s => (.held s.guest, { p with slot := none }.hold pod s.guest)
    | none => (if p.reclaimed.contains pod then .reclaimed else .unscheduled, p)

/-- The complaint about a binding cycle of a pod that no guest is held for. -/
def unclaimedMessage (pod : String) : String :=
  "binding cycle for pod " ++ pod ++ " started without a scheduled guest"

/-- The guest for the binding cycle of a pod that was scheduled; without one the caller is
mistaken, and nothing changes. -/
def bind (pod : String) (p : Pool γ) : Option Nat × Pool γ :=
  match p.claim pod with
  | (.held id, p) => (some id, p)
  | (_, p) => (none, p)

/-- The guest for the binding cycle of a pod that was not scheduled, if there is one without
making any. -/
def pickDetached (pod : String) (p : Pool γ) : Option Nat × Pool γ :=
  match p.binding.lookup pod with
  | some id => (some id, p)
  | none =>
    match p.takeFree with
    | (some id, p) => (some id, p.hold pod id)
    | (none, p) => (none, p)

/-- Gives a pod's binding entry a new guest, unless it has one by now. -/
def settleDetached (pod : String) (id : Nat) (p : Pool γ) : Nat × Pool γ :=
  match p.binding.lookup pod with
  | some other => (other, p.giveBack id)
  | none => (id, p.hold pod id)

/-- The guest for the binding cycle of a pod that was not scheduled. -/
def detach (create : Nat → Except ε γ) (pod : String) (p : Pool γ) : Except ε Nat × Pool γ :=
  match p.pickDetached pod with
  | (some id, p) => (.ok id, p)
  | (none, p) =>
    match p.make create with
    | (.ok id, p) =>
      let (id, p) := p.settleDetached pod id
      (.ok id, p)
    | (.error e, p) => (.error e, p)

/-- Ends the binding cycle of a pod: its guest is freed, and a slot of the pod is no longer
retained. -/
def release (pod : String) (p : Pool γ) : Pool γ :=
  let p := p.unpark pod
  let p := { p with slot := p.slot.map (Slot.unretain pod) }
  p.freeBinding pod

end Pool
end StageHost

import StageHost.Proofs.Pool.Operation
import Mathlib.Data.List.Perm.Basic
/-
  The books of a pool: its slot, its binding entries, its parked queue and its reclaimed marks.
  `turnOver` is what the beginning of a scheduling cycle makes of the books, apart from the slot
  (`schedule_of_starts`). `steps_step` says all that any operation can do to the books.
-/
namespace StageHost
namespace Pool

variable {γ ε : Type}

/-! ## Entries -/

theorem lookup_filter_self (l : List (String × Nat)) (k : String) :
    (l.filter (·.1 ≠ k)).lookup k = none := by
  rw [List.lookup_eq_none_iff]
  intro e he
  have hne : e.1 ≠ k := by simpa using (List.mem_filter.1 he).2
  simpa using hne.symm

theorem lookup_filter_ne (l : List (String × Nat)) {x k : String} (h : x ≠ k) :
    (l.filter (·.1 ≠ k)).lookup x = l.lookup x := by
  induction l with
  | nil => rfl
  | cons e l ih =>
    by_cases hk : e.1 = k
    · have hx : (x == e.1) = false := by simpa [hk] using h
      rw [List.filter_cons_of_neg (by simpa using hk), ih, List.lookup_cons, hx]
    · rw [List.filter_cons_of_pos (by simpa using hk), List.lookup_cons, List.lookup_cons, ih]

theorem filter_of_lookup_none {l : List (String × Nat)} {k : String} (h : l.lookup k = none) :
    l.filter (·.1 ≠ k) = l := by
  rw [List.filter_eq_self]
  intro e he
  have hne : k ≠ e.1 := by simpa using List.lookup_eq_none_iff.1 h e he
  simpa using hne.symm

theorem lookup_cons_ne (l : List (String × Nat)) {x k : String} (h : x ≠ k) (v : Nat) :
    ((k, v) :: l).lookup x = l.lookup x := by
  have hx : (x == k) = false := by simpa using h
  rw [List.lookup_cons, hx]

theorem ne_of_lookup {l : List (String × Nat)} {x y : String} {id : Nat}
    (hx : l.lookup x = some id) (hy : l.lookup y = none) : x ≠ y := by
  rintro rfl
  rw [hx] at hy
  cases hy

theorem filter_ne_of_not_mem {l : List String} {k : String} (h : k ∉ l) :
    l.filter (· ≠ k) = l := by
  rw [List.filter_eq_self]
  intro x hx
  simpa using fun hxk : x = k => h (hxk ▸ hx)

theorem mem_filter_ne {l : List String} {x k : String} :
    x ∈ l.filter (· ≠ k) ↔ x ∈ l ∧ x ≠ k := by
  simp [List.mem_filter]

/-! ## Parts of operations -/

theorem freeBinding_eq (p : Pool γ) (pod : String) :
    p.freeBinding pod = { p with
      binding := p.binding.filter (·.1 ≠ pod)
      free := (p.binding.lookup pod).toList ++ p.free } := by
  unfold freeBinding
  cases h : p.binding.lookup pod with
  | none =>
    dsimp only
    rw [filter_of_lookup_none h]
    rfl
  | some id => rfl

@[simp] theorem slot_freeBinding (p : Pool γ) (pod : String) :
    (p.freeBinding pod).slot = p.slot := by rw [freeBinding_eq]

@[simp] theorem parked_freeBinding (p : Pool γ) (pod : String) :
    (p.freeBinding pod).parked = p.parked := by rw [freeBinding_eq]

@[simp] theorem reclaimed_freeBinding (p : Pool γ) (pod : String) :
    (p.freeBinding pod).reclaimed = p.reclaimed := by rw [freeBinding_eq]

theorem binding_freeBinding (p : Pool γ) (pod : String) :
    (p.freeBinding pod).binding = p.binding.filter (·.1 ≠ pod) := by rw [freeBinding_eq]

@[simp] theorem slot_abandon (p : Pool γ) (pod : String) : (p.abandon pod).slot = p.slot := by
  unfold abandon
  split
  · exact slot_freeBinding _ _
  · rfl

theorem parked_abandon (p : Pool γ) (pod : String) :
    (p.abandon pod).parked = p.parked.filter (· ≠ pod) := by
  unfold abandon
  by_cases h : pod ∈ p.parked
  · rw [if_pos (by simpa [isParked] using h)]
    exact parked_freeBinding _ _
  · rw [if_neg (by simpa [isParked] using h), filter_ne_of_not_mem h]

theorem reclaimed_abandon (p : Pool γ) (pod : String) :
    (p.abandon pod).reclaimed = p.reclaimed.filter (· ≠ pod) := by
  unfold abandon
  split
  · dsimp only
    rw [reclaimed_freeBinding]
    rfl
  · rfl

theorem binding_abandon (p : Pool γ) (pod : String) :
    (p.abandon pod).binding =
      if pod ∈ p.parked then p.binding.filter (·.1 ≠ pod) else p.binding := by
  unfold abandon
  by_cases h : pod ∈ p.parked
  · rw [if_pos (by simpa [isParked] using h), if_pos h]
    exact binding_freeBinding _ _
  · rw [if_neg (by simpa [isParked] using h), if_neg h]

/-- Abandoning any pod's earlier cycles gives no pod an entry. -/
theorem lookup_abandon_none {p : Pool γ} {x : String} (h : p.binding.lookup x = none)
    (pod : String) : (p.abandon pod).binding.lookup x = none := by
  rw [binding_abandon]
  split
  · rw [List.lookup_eq_none_iff] at h ⊢
    exact fun e he => h e (List.mem_of_mem_filter he)
  · exact h

theorem lookup_abandon_ne (p : Pool γ) {x pod : String} (h : x ≠ pod) :
    (p.abandon pod).binding.lookup x = p.binding.lookup x := by
  rw [binding_abandon]
  split
  · exact lookup_filter_ne _ h
  · rfl

/-- What one reclamation keeps, any number of them keeps. -/
theorem repeat_reclaimOldest {I : Pool γ → Prop} (h : ∀ q, I q → I q.reclaimOldest) (n : Nat)
    {p : Pool γ} (hp : I p) : I (Nat.repeat reclaimOldest n p) := by
  induction n with
  | zero => exact hp
  | succ n ih => exact h _ ih

/-! ## New cycles -/

/-- Whether a scheduling call for a cycle begins it: the slot is empty or of another cycle. -/
def Starts (p : Pool γ) (cycle : UInt64) : Prop := ∀ s ∈ p.slot, s.cycle ≠ cycle

instance (p : Pool γ) (cycle : UInt64) : Decidable (p.Starts cycle) :=
  inferInstanceAs (Decidable (∀ s ∈ p.slot, s.cycle ≠ cycle))

theorem same_of_not_starts {p : Pool γ} {cycle : UInt64} (h : ¬ p.Starts cycle) :
    ∃ s, p.slot = some s ∧ s.cycle = cycle := by
  simpa only [Starts, not_forall, not_not, Option.mem_def, exists_prop] using h

/-- The pool as a new cycle of a pod finds it, with an empty slot: a retained guest was parked, an
unretained one is in hand, and unless the slot was empty the pod's earlier cycles are abandoned. -/
def turnOver (p : Pool γ) (pod : String) : Pool γ :=
  match p.slot with
  | none => p
  | some s =>
    match s.retention with
    | none => { p with slot := none }.abandon pod
    | some r => ({ p with slot := none }.park s.pod s.guest r).abandon pod

/-- The guest of the slot, if it passes on to the new cycle. -/
def passedOn (p : Pool γ) : Option Nat :=
  match p.slot with
  | none => none
  | some s => if s.retention = none then some s.guest else none

theorem takeSlot_of_starts {p : Pool γ} {cycle : UInt64} (h : p.Starts cycle) (pod : String) :
    p.takeSlot cycle pod = match p.passedOn with
      | some id => (some id, (p.turnOver pod).install cycle pod id)
      | none => (none, p.turnOver pod) := by
  unfold takeSlot turnOver passedOn
  cases hs : p.slot with
  | none => rfl
  | some s =>
    have hc : s.cycle ≠ cycle := h s hs
    cases hr : s.retention with
    | none => simp [hc, hr]
    | some r => simp [hc, hr]

theorem slot_reclaimOldest (p : Pool γ) : p.reclaimOldest.slot = p.slot := by
  unfold reclaimOldest
  split
  · rfl
  · exact slot_freeBinding _ _

theorem slot_park (p : Pool γ) (pod : String) (id : Nat) (r : Retention) :
    (p.park pod id r).slot = p.slot := by
  unfold park
  split
  · rfl
  · refine repeat_reclaimOldest (fun q hq => (slot_reclaimOldest q).trans hq) _ ?_
    split <;> rfl

theorem slot_turnOver (p : Pool γ) (pod : String) : (p.turnOver pod).slot = none := by
  unfold turnOver
  split
  · assumption
  · split
    · exact slot_abandon _ _
    · rw [slot_abandon, slot_park]

/-! ## Books -/

/-- The same slot, entries, queue and marks. -/
structure Agrees (p q : Pool γ) : Prop where
  slot : q.slot = p.slot
  binding : q.binding = p.binding
  parked : q.parked = p.parked
  reclaimed : q.reclaimed = p.reclaimed

theorem Agrees.refl (p : Pool γ) : p.Agrees p := ⟨rfl, rfl, rfl, rfl⟩

/-- The books do not hold the free list, the next number or the guests. -/
theorem Agrees.unbooked {p q : Pool γ} (h : p.Agrees q) {free : List Nat} {nextId : Nat}
    {guests : List (Nat × γ)} : p.Agrees { q with free, nextId, guests } :=
  ⟨h.slot, h.binding, h.parked, h.reclaimed⟩

theorem agrees_takeFree (p : Pool γ) : p.Agrees p.takeFree.2 := by
  unfold takeFree
  split <;> exact ⟨rfl, rfl, rfl, rfl⟩

theorem agrees_make (create : Nat → Except ε γ) (p : Pool γ) : p.Agrees (p.make create).2 := by
  unfold make
  dsimp only
  split <;> exact ⟨rfl, rfl, rfl, rfl⟩

theorem agrees_borrow (create : Nat → Except ε γ) (p : Pool γ) :
    p.Agrees (p.borrow create).2 := by
  unfold borrow takeFree
  cases p.free with
  | nil => exact agrees_make create p
  | cons id rest => exact ⟨rfl, rfl, rfl, rfl⟩

theorem schedule_of_same {p : Pool γ} {s : Slot} (hs : p.slot = some s)
    (create : Nat → Except ε γ) (pod : String) :
    p.schedule create s.cycle pod = (.ok s.guest, p) := by
  unfold schedule pick takeSlot
  simp [hs]

/-- The books after the beginning of a cycle: those of `turnOver`, with the guest handed out in the
slot if there is one. -/
theorem schedule_of_starts {p : Pool γ} {cycle : UInt64} (h : p.Starts cycle)
    (create : Nat → Except ε γ) (pod : String) :
    { p.turnOver pod with
      slot := (p.schedule create cycle pod).1.toOption.map fun g => { cycle, pod, guest := g }
      }.Agrees (p.schedule create cycle pod).2 := by
  unfold schedule pick
  rw [takeSlot_of_starts h pod]
  cases p.passedOn with
  | some g => exact ⟨rfl, rfl, rfl, rfl⟩
  | none =>
    have hslot := slot_turnOver p pod
    dsimp only
    unfold takeFree
    cases (p.turnOver pod).free with
    | cons g rest => exact ⟨rfl, rfl, rfl, rfl⟩
    | nil =>
      dsimp only
      unfold make takeId
      dsimp only
      cases create (p.turnOver pod).nextId with
      | error e => exact ⟨hslot, rfl, rfl, rfl⟩
      | ok guest =>
        -- the slot is still empty, so the new guest is not given back
        unfold settle takeSlot enroll
        dsimp only
        rw [hslot]
        exact ⟨rfl, rfl, rfl, rfl⟩

/-! ## Claims -/

theorem claim_of_entry {p : Pool γ} {pod : String} {id : Nat}
    (h : p.binding.lookup pod = some id) : p.claim pod = (.held id, p.unpark pod) := by
  unfold claim
  rw [h]

theorem claim_of_slot {p : Pool γ} {s : Slot} (hs : p.slot = some s)
    (h : p.binding.lookup s.pod = none) :
    p.claim s.pod = (.held s.guest, { p with slot := none }.hold s.pod s.guest) := by
  have hf : (some s).filter (·.pod = s.pod) = some s := Option.filter_some_pos (by simp)
  unfold claim
  rw [h, hs, hf]

theorem claim_of_none {p : Pool γ} {pod : String} (h : p.binding.lookup pod = none)
    (hs : ∀ s ∈ p.slot, s.pod ≠ pod) :
    p.claim pod = (if pod ∈ p.reclaimed then .reclaimed else .unscheduled, p) := by
  have hf : p.slot.filter (·.pod = pod) = none := by
    rw [Option.filter_eq_none_iff]
    intro s hm
    simpa using hs s hm
  unfold claim
  rw [h, hf]
  simp

/-- A claim reads nothing but the books. -/
theorem Agrees.claim {p q : Pool γ} (h : p.Agrees q) (pod : String) :
    (q.claim pod).1 = (p.claim pod).1 := by
  obtain ⟨hs, hb, -, hr⟩ := h
  unfold Pool.claim
  rw [hs, hb, hr]
  split
  · rfl
  · split <;> rfl

/-- A claim gives the same guest however that is retained. -/
theorem claim_retain (p : Pool γ) (cycle : UInt64) (r : Retention) (pod : String) :
    ((p.retain cycle r).claim pod).1 = (p.claim pod).1 := by
  unfold retain
  cases hs : p.slot with
  | none => rfl
  | some s =>
    dsimp only
    split
    · unfold claim
      rw [hs]
      cases p.binding.lookup pod with
      | some id => rfl
      | none => by_cases hp : s.pod = pod <;> simp [Option.filter, hp]
    · rfl

theorem bind_snd (p : Pool γ) (pod : String) : (p.bind pod).2 = (p.claim pod).2 := by
  unfold bind
  rcases p.claim pod with ⟨_ | _ | _, q⟩ <;> rfl

theorem bind_fst (p : Pool γ) (pod : String) : (p.bind pod).1 = (p.claim pod).1.guest? := by
  unfold bind
  rcases p.claim pod with ⟨_ | _ | _, q⟩ <;> rfl

theorem detach_of_entry {p : Pool γ} {pod : String} {id : Nat}
    (h : p.binding.lookup pod = some id) (create : Nat → Except ε γ) :
    p.detach create pod = (.ok id, p) := by
  unfold detach pickDetached
  rw [h]

/-- A pod without an entry gets one with the guest that is handed out. -/
theorem detach_of_none {p : Pool γ} {pod : String} (h : p.binding.lookup pod = none)
    (create : Nat → Except ε γ) :
    { p with
      binding := ((p.detach create pod).1.toOption.map fun id => (pod, id)).toList ++ p.binding
      }.Agrees (p.detach create pod).2 := by
  unfold detach pickDetached
  rw [h]
  dsimp only
  unfold takeFree
  cases p.free with
  | cons id rest => exact ⟨rfl, rfl, rfl, rfl⟩
  | nil =>
    dsimp only
    unfold make takeId
    dsimp only
    cases create p.nextId with
    | error e => exact ⟨rfl, rfl, rfl, rfl⟩
    | ok guest =>
      unfold settleDetached enroll
      dsimp only
      rw [h]
      exact ⟨rfl, rfl, rfl, rfl⟩

theorem agrees_release (p : Pool γ) (pod : String) :
    { p with
      slot := p.slot.map (Slot.unretain pod)
      binding := p.binding.filter (·.1 ≠ pod)
      parked := p.parked.filter (· ≠ pod) }.Agrees (p.release pod) := by
  unfold release
  refine ⟨slot_freeBinding _ _, binding_freeBinding _ _, parked_freeBinding _ _,
    reclaimed_freeBinding _ _⟩

/-! ## What an operation does to the books -/

/-- Whether an operation claims the guest of a pod for its binding cycle. -/
def Op.Claims (pod : String) (op : Op γ ε) : Prop := op = .claim pod ∨ op = .bind pod

/-- Whether an operation begins a scheduling cycle. -/
def Op.Begins (p : Pool γ) : Op γ ε → Prop
  | .schedule _ cycle _ => p.Starts cycle
  | _ => False

theorem not_begins_of_claims {op : Op γ ε} {pod : String} (hop : op.Claims pod) (p : Pool γ) :
    ¬ op.Begins p := by
  rcases hop with rfl | rfl <;> exact id

/-- All that an operation can do to the books. -/
inductive Steps (p q : Pool γ) : Op γ ε → Prop
  | idle {op : Op γ ε} (hop : ¬ op.Begins p) (h : p.Agrees q) : Steps p q op
  | retained {s : Slot} {r : Retention} (hs : p.slot = some s)
    (h : { p with slot := some { s with retention := some (.strengthen s.retention r) } }.Agrees q) :
    Steps p q (.retain s.cycle r)
  /-- A claim of an entry: it is not parked any more. -/
  | claimed {op : Op γ ε} {pod : String} {id : Nat} (hop : op.Claims pod)
    (hb : p.binding.lookup pod = some id) (h : (p.unpark pod).Agrees q) : Steps p q op
  /-- A claim that takes over the slot. -/
  | takenOver {op : Op γ ε} {s : Slot} (hop : op.Claims s.pod) (hs : p.slot = some s)
    (hb : p.binding.lookup s.pod = none)
    (h : ({ p with slot := none }.hold s.pod s.guest).Agrees q) : Steps p q op
  | detached {create : Nat → Except ε γ} {pod : String} {id : Nat}
    (hb : p.binding.lookup pod = none) (h : (p.hold pod id).Agrees q) :
    Steps p q (.detach create pod)
  | released {pod : String} (h : { p with
      slot := p.slot.map (Slot.unretain pod)
      binding := p.binding.filter (·.1 ≠ pod)
      parked := p.parked.filter (· ≠ pod) }.Agrees q) : Steps p q (.release pod)
  /-- The beginning of a cycle; without a guest the slot is left empty. -/
  | started {create : Nat → Except ε γ} {cycle : UInt64} {pod : String} {g : Option Nat}
    (hc : p.Starts cycle)
    (h : { p.turnOver pod with slot := g.map fun g => { cycle, pod, guest := g } }.Agrees q) :
    Steps p q (.schedule create cycle pod)

theorem steps_claim {op : Op γ ε} {pod : String} (hop : op.Claims pod) (p : Pool γ) :
    p.Steps (p.claim pod).2 op := by
  cases hb : p.binding.lookup pod with
  | some id =>
    rw [claim_of_entry hb]
    exact .claimed hop hb (.refl _)
  | none =>
    by_cases hs : ∃ s ∈ p.slot, s.pod = pod
    · obtain ⟨s, hs, rfl⟩ := hs
      rw [claim_of_slot hs hb]
      exact .takenOver hop hs hb (.refl _)
    · rw [claim_of_none hb fun s hm hp => hs ⟨s, hm, hp⟩]
      exact .idle (not_begins_of_claims hop p) (.refl _)

theorem steps_step (p : Pool γ) (op : Op γ ε) : p.Steps (p.step op) op := by
  cases op with
  | prewarm create =>
    have h := agrees_make create p
    rw [step, prewarm]
    rcases hm : p.make create with ⟨_ | _, q⟩ <;> rw [hm] at h <;> exact .idle id h.unbooked
  | withFree create use =>
    have h := agrees_borrow create p
    rw [step, withFree]
    rcases hm : p.borrow create with ⟨_ | _, q⟩ <;> rw [hm] at h <;> exact .idle id h.unbooked
  | schedule create cycle pod =>
    by_cases hc : p.Starts cycle
    · exact .started hc (schedule_of_starts hc create pod)
    · refine .idle hc ?_
      obtain ⟨s, hs, rfl⟩ := same_of_not_starts hc
      rw [step, schedule_of_same hs]
      exact .refl _
  | retain cycle r =>
    unfold step retain
    cases hs : p.slot with
    | none => exact .idle id (.refl _)
    | some s =>
      by_cases hc : s.cycle = cycle
      · subst hc
        exact .retained hs (by simp only [if_true]; exact .refl _)
      · simp only [hc, if_false]
        exact .idle id (.refl _)
  | claim pod => exact steps_claim (.inl rfl) p
  | bind pod =>
    rw [step, bind_snd]
    exact steps_claim (.inr rfl) p
  | detach create pod =>
    cases hb : p.binding.lookup pod with
    | some g => exact .idle id (by rw [step, detach_of_entry hb]; exact .refl _)
    | none =>
      have h := detach_of_none hb create
      unfold step
      cases hd : (p.detach create pod).1 with
      | ok id =>
        rw [hd] at h
        exact .detached hb h
      | error e =>
        rw [hd] at h
        exact .idle id h
  | release pod => exact .released (agrees_release p pod)
  | touch change => exact .idle id ⟨rfl, rfl, rfl, rfl⟩

end Pool
end StageHost

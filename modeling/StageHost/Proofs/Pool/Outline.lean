import StageHost.Proofs.Pool.Operation
/-
  A pool without the insides of its guests.
  The outline of a pool has its places, its queues, and the numbers of its guests, but not the
  guests. Whatever a guest is or does, pools of one outline deal it out alike: scheduling commutes
  with taking the outline (`outline_schedule`), as retaining does, and changing guests under their
  handles does not show in it (`outline_touch`).
-/
namespace StageHost
namespace Pool

variable {γ ε : Type}

/-- All that a pool keeps apart from the guests themselves. -/
def outline (p : Pool γ) : Pool Unit := { p with guests := p.guests.map fun e => (e.1, ()) }

theorem slot_outline (p : Pool γ) : p.outline.slot = p.slot := rfl

theorem binding_outline (p : Pool γ) : p.outline.binding = p.binding := rfl

theorem free_outline (p : Pool γ) : p.outline.free = p.free := rfl

theorem parked_outline (p : Pool γ) : p.outline.parked = p.parked := rfl

theorem outline_touch (p : Pool γ) (change : Nat → γ → γ) :
    (p.touch change).outline = p.outline := by
  unfold touch outline
  dsimp only
  rw [List.map_map]
  rfl

/-! ## Parts of operations -/

theorem outline_takeFree (p : Pool γ) :
    p.outline.takeFree = (p.takeFree.1, p.takeFree.2.outline) := by
  unfold takeFree
  rw [free_outline]
  cases p.free <;> rfl

theorem outline_freeBinding (p : Pool γ) (pod : String) :
    p.outline.freeBinding pod = (p.freeBinding pod).outline := by
  unfold freeBinding
  rw [binding_outline]
  cases p.binding.lookup pod <;> rfl

theorem outline_reclaimOldest (p : Pool γ) : p.outline.reclaimOldest = p.reclaimOldest.outline := by
  unfold reclaimOldest
  rw [parked_outline]
  cases p.parked with
  | nil => rfl
  | cons pod rest =>
    have hfree := outline_freeBinding { p with parked := rest } pod
    exact congrArg (fun q => q.remember pod) hfree

theorem outline_repeat (p : Pool γ) (n : Nat) :
    Nat.repeat reclaimOldest n p.outline = (Nat.repeat reclaimOldest n p).outline := by
  induction n with
  | zero => rfl
  | succ n ih => rw [Nat.repeat, ih, outline_reclaimOldest, Nat.repeat]

theorem outline_park (p : Pool γ) (pod : String) (id : Nat) (r : Retention) :
    p.outline.park pod id r = (p.park pod id r).outline := by
  unfold park
  rw [binding_outline]
  split
  · rfl
  · dsimp only
    rw [← outline_repeat]
    split <;> rfl

theorem outline_abandon (p : Pool γ) (pod : String) :
    p.outline.abandon pod = (p.abandon pod).outline := by
  have hfree := outline_freeBinding (p.unpark pod) pod
  unfold abandon isParked
  rw [parked_outline]
  dsimp only
  split
  · exact congrArg (fun q : Pool Unit =>
      { q with reclaimed := q.reclaimed.filter (· ≠ pod) }) hfree
  · rfl

theorem outline_takeSlot (p : Pool γ) (cycle : UInt64) (pod : String) :
    p.outline.takeSlot cycle pod =
      ((p.takeSlot cycle pod).1, (p.takeSlot cycle pod).2.outline) := by
  unfold takeSlot
  rw [slot_outline]
  cases p.slot with
  | none => rfl
  | some s =>
    dsimp only
    split
    · rfl
    · cases s.retention with
      | none =>
        have habandon := outline_abandon { p with slot := none } pod
        exact congrArg (fun q => (some s.guest, q.install cycle pod s.guest)) habandon
      | some r =>
        have hpark := outline_park { p with slot := none } s.pod s.guest r
        rw [← outline_abandon, ← hpark]
        rfl

theorem outline_pick (p : Pool γ) (cycle : UInt64) (pod : String) :
    p.outline.pick cycle pod = ((p.pick cycle pod).1, (p.pick cycle pod).2.outline) := by
  unfold pick
  rw [outline_takeSlot]
  rcases p.takeSlot cycle pod with ⟨_ | id, q⟩
  · dsimp only
    rw [outline_takeFree]
    rcases q.takeFree with ⟨_ | id, q⟩ <;> rfl
  · rfl

theorem outline_settle (p : Pool γ) (cycle : UInt64) (pod : String) (id : Nat) :
    p.outline.settle cycle pod id =
      ((p.settle cycle pod id).1, (p.settle cycle pod id).2.outline) := by
  unfold settle
  rw [outline_takeSlot]
  rcases p.takeSlot cycle pod with ⟨_ | other, q⟩ <;> rfl

/-! ## Operations -/

/-- A scheduling call that gets a guest gets the same one in the outline. -/
theorem outline_schedule {p q : Pool γ} {create : Nat → Except ε γ} {cycle : UInt64} {pod : String}
    {id : Nat} (h : p.schedule create cycle pod = (.ok id, q)) :
    p.outline.schedule (fun _ => (.ok () : Except ε Unit)) cycle pod = (.ok id, q.outline) := by
  unfold schedule at h ⊢
  rw [outline_pick]
  rcases hp : p.pick cycle pod with ⟨_ | i, p'⟩ <;> rw [hp] at h
  · dsimp only at h ⊢
    unfold make takeId at h ⊢
    dsimp only at h ⊢
    rcases hc : create p'.nextId with e | guest <;> rw [hc] at h
    · cases h
    · have hsettle := outline_settle (enroll { p' with nextId := p'.nextId + 1 } p'.nextId guest)
        cycle pod p'.nextId
      cases h
      exact congrArg (fun r : Nat × Pool Unit => ((.ok r.1 : Except ε Nat), r.2)) hsettle
  · cases h
    rfl

theorem outline_retain (p : Pool γ) (cycle : UInt64) (r : Retention) :
    p.outline.retain cycle r = (p.retain cycle r).outline := by
  unfold retain
  rw [slot_outline]
  cases p.slot with
  | none => rfl
  | some s =>
    dsimp only
    split <;> rfl

end Pool
end StageHost

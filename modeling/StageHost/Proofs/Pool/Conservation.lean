import StageHost.Proofs.Pool.Placement
import Mathlib.Data.List.Perm.Basic
/-
  The guests ever made, and where they are.
  `roster` is the list of all guests ever made with the next number; only the making of a guest adds
  to it. `tally` has the numbers of it, and as no operation changes them otherwise (`tally_step`), a
  run gives the numbers from one on to its attempts, and its guests are those that came of them
  (`numbers_attempts`). `placed_of_run` puts this together with the account of places: no guest is
  lost, and none is in two places.
-/
namespace StageHost
namespace Pool

variable {γ ε : Type}

/-! ## The roster -/

/-- All guests ever made, and the next number. -/
def roster (p : Pool γ) : List (Nat × γ) × Nat := (p.guests, p.nextId)

theorem roster_giveBack (p : Pool γ) (id : Nat) : (p.giveBack id).roster = p.roster := rfl

theorem roster_freeBinding (p : Pool γ) (pod : String) :
    (p.freeBinding pod).roster = p.roster := by rw [freeBinding_eq]; rfl

theorem roster_abandon (p : Pool γ) (pod : String) : (p.abandon pod).roster = p.roster := by
  unfold abandon
  split
  · exact roster_freeBinding _ _
  · rfl

theorem roster_reclaimOldest (p : Pool γ) : p.reclaimOldest.roster = p.roster := by
  unfold reclaimOldest
  split
  · rfl
  · exact roster_freeBinding _ _

theorem roster_park (p : Pool γ) (pod : String) (id : Nat) (r : Retention) :
    (p.park pod id r).roster = p.roster := by
  unfold park
  split
  · rfl
  · refine repeat_reclaimOldest (fun q hq => (roster_reclaimOldest q).trans hq) _ ?_
    split <;> rfl

theorem roster_takeSlot (p : Pool γ) (cycle : UInt64) (pod : String) :
    (p.takeSlot cycle pod).2.roster = p.roster := by
  unfold takeSlot
  split
  · rfl
  · split
    · rfl
    · dsimp only
      split
      · exact roster_abandon _ _
      · exact (roster_abandon _ _).trans (roster_park _ _ _ _)

theorem roster_takeFree (p : Pool γ) : p.takeFree.2.roster = p.roster := by
  unfold takeFree
  split <;> rfl

theorem guests_make {p q : Pool γ} (h : q.roster = p.roster) (create : Nat → Except ε γ) :
    ∃ new, (q.make create).2.guests = new ++ p.guests ∧ ∀ e ∈ new, create e.1 = .ok e.2 := by
  rw [← show q.guests = p.guests from congrArg Prod.fst h]
  unfold make takeId
  dsimp only
  cases hc : create q.nextId with
  | error e => exact ⟨[], rfl, fun _ he => by cases he⟩
  | ok guest =>
    refine ⟨[(q.nextId, guest)], rfl, fun e he => ?_⟩
    obtain rfl := List.mem_singleton.1 he
    exact hc

theorem roster_pick (p : Pool γ) (cycle : UInt64) (pod : String) :
    (p.pick cycle pod).2.roster = p.roster := by
  have ht := roster_takeSlot p cycle pod
  unfold pick
  rcases hp : p.takeSlot cycle pod with ⟨_ | id, q⟩ <;> rw [hp] at ht
  · rw [← ht, ← roster_takeFree q]
    dsimp only
    rcases hq : q.takeFree with ⟨_ | id, q'⟩ <;> rfl
  · exact ht

theorem roster_settle (p : Pool γ) (cycle : UInt64) (pod : String) (id : Nat) :
    (p.settle cycle pod id).2.roster = p.roster := by
  have ht := roster_takeSlot p cycle pod
  unfold settle
  rcases hp : p.takeSlot cycle pod with ⟨_ | other, q⟩ <;> rw [hp] at ht <;> exact ht

theorem roster_pickDetached (p : Pool γ) (pod : String) :
    (p.pickDetached pod).2.roster = p.roster := by
  unfold pickDetached
  split
  · rfl
  · rw [← roster_takeFree p]
    rcases hq : p.takeFree with ⟨_ | id, q⟩ <;> rfl

theorem roster_settleDetached (p : Pool γ) (pod : String) (id : Nat) :
    (p.settleDetached pod id).2.roster = p.roster := by
  unfold settleDetached
  split <;> rfl

theorem roster_claim (p : Pool γ) (pod : String) : (p.claim pod).2.roster = p.roster := by
  unfold claim
  split
  · rfl
  · split <;> rfl

/-- What a call outside of any cycle makes is added to the roster. -/
theorem guests_borrow (p : Pool γ) (create : Nat → Except ε γ) :
    ∃ new, (p.borrow create).2.guests = new ++ p.guests ∧ ∀ e ∈ new, create e.1 = .ok e.2 := by
  have hk := roster_takeFree p
  unfold borrow
  rcases hp : p.takeFree with ⟨_ | id, q⟩ <;> rw [hp] at hk
  · exact guests_make hk create
  · exact ⟨[], congrArg Prod.fst hk, fun _ he => by cases he⟩

/-- What a scheduling call makes is added to the roster. -/
theorem guests_schedule (p : Pool γ) (create : Nat → Except ε γ) (cycle : UInt64) (pod : String) :
    ∃ new, (p.schedule create cycle pod).2.guests = new ++ p.guests ∧
      ∀ e ∈ new, create e.1 = .ok e.2 := by
  have hk := roster_pick p cycle pod
  unfold schedule
  rcases hp : p.pick cycle pod with ⟨_ | id, q⟩ <;> rw [hp] at hk
  · obtain ⟨new, hm, hmade⟩ := guests_make hk create
    refine ⟨new, ?_, hmade⟩
    rw [← hm]
    dsimp only
    rcases q.make create with ⟨_ | id, q'⟩
    · rfl
    · exact congrArg Prod.fst (roster_settle q' cycle pod id)
  · exact ⟨[], congrArg Prod.fst hk, fun _ he => by cases he⟩

/-- What a call for a detached binding cycle makes is added to the roster. -/
theorem guests_detach (p : Pool γ) (create : Nat → Except ε γ) (pod : String) :
    ∃ new, (p.detach create pod).2.guests = new ++ p.guests ∧
      ∀ e ∈ new, create e.1 = .ok e.2 := by
  have hk := roster_pickDetached p pod
  unfold detach
  rcases hp : p.pickDetached pod with ⟨_ | id, q⟩ <;> rw [hp] at hk
  · obtain ⟨new, hm, hmade⟩ := guests_make hk create
    refine ⟨new, ?_, hmade⟩
    rw [← hm]
    dsimp only
    rcases q.make create with ⟨_ | id, q'⟩
    · rfl
    · exact congrArg Prod.fst (roster_settleDetached q' pod id)
  · exact ⟨[], congrArg Prod.fst hk, fun _ he => by cases he⟩

/-! ## Attempts -/

/-- The numbers of all guests ever made, and the next number. -/
def tally (p : Pool γ) : List Nat × Nat := (p.ids, p.nextId)

/-- A tally after an attempt at making a guest, if there was one. -/
def enter (t : List Nat × Nat) : Option (Nat × Bool) → List Nat × Nat
  | none => t
  | some (n, made) => (if made then n :: t.1 else t.1, n + 1)

theorem tally_of_roster {p q : Pool γ} (h : q.roster = p.roster) : q.tally = p.tally :=
  congrArg (fun r : List (Nat × γ) × Nat => (r.1.map (·.1), r.2)) h

theorem tally_touch (change : Nat → γ → γ) (p : Pool γ) : (p.touch change).tally = p.tally := by
  unfold tally ids touch
  rw [List.map_map]
  rfl

/-- A making takes the next number, also if other places changed before it. -/
theorem tally_make {p q : Pool γ} (h : q.tally = p.tally) (create : Nat → Except ε γ) :
    (q.make create).2.tally = enter p.tally (some (p.nextId, (create p.nextId).toBool)) := by
  have hn : q.nextId = p.nextId := congrArg Prod.snd h
  rw [← h, ← hn]
  unfold make takeId
  dsimp only
  cases create q.nextId <;> rfl

theorem tally_borrow (create : Nat → Except ε γ) (use : γ → γ) (p : Pool γ) :
    (p.borrow create).2.tally = enter p.tally (p.attempt? (.withFree create use)) := by
  unfold borrow attempt? takeFree
  cases p.free with
  | nil => exact tally_make rfl create
  | cons id rest => rfl

/-- The making that an operation comes to takes the next number, and nothing else adds to the
guests ever made. -/
theorem tally_step (p : Pool γ) (op : Op γ ε) :
    (p.step op).tally = enter p.tally (p.attempt? op) := by
  cases op with
  | prewarm create =>
    have hm := tally_make (p := p) rfl create
    rw [step, prewarm]
    rcases hp : p.make create with ⟨_ | id, q⟩ <;> rw [hp] at hm <;> exact hm
  | withFree create use =>
    have hb := tally_borrow create use p
    rw [step, withFree]
    rcases hp : p.borrow create with ⟨_ | id, q⟩ <;> rw [hp] at hb
    · exact hb
    · dsimp only
      rw [tally_of_roster (roster_giveBack _ id), modifyGuest_eq, tally_touch]
      exact hb
  | schedule create cycle pod =>
    have hk := tally_of_roster (roster_pick p cycle pod)
    rw [step, schedule, attempt?]
    rcases hp : p.pick cycle pod with ⟨_ | id, q⟩ <;> rw [hp] at hk
    · have hm := tally_make hk create
      dsimp only at hm ⊢
      rw [if_pos rfl]
      rcases hq : q.make create with ⟨_ | id, q'⟩ <;> rw [hq] at hm
      · exact hm
      · exact (tally_of_roster (roster_settle q' cycle pod id)).trans hm
    · exact hk
  | retain cycle r =>
    rw [step, retain]
    split
    · split <;> rfl
    · rfl
  | claim pod => exact tally_of_roster (roster_claim p pod)
  | bind pod =>
    rw [step, bind_snd]
    exact tally_of_roster (roster_claim p pod)
  | detach create pod =>
    have hk := tally_of_roster (roster_pickDetached p pod)
    rw [step, detach, attempt?]
    rcases hp : p.pickDetached pod with ⟨_ | id, q⟩ <;> rw [hp] at hk
    · have hm := tally_make hk create
      dsimp only at hm ⊢
      rw [if_pos rfl]
      rcases hq : q.make create with ⟨_ | id, q'⟩ <;> rw [hq] at hm
      · exact hm
      · exact (tally_of_roster (roster_settleDetached q' pod id)).trans hm
    · exact hk
  | release pod => exact tally_of_roster (roster_freeBinding _ _)
  | touch change => exact tally_touch change p

theorem attempt?_number {p : Pool γ} {op : Op γ ε} {n : Nat} {made : Bool}
    (h : p.attempt? op = some (n, made)) : n = p.nextId := by
  cases op with
  | prewarm => cases h; rfl
  | withFree | schedule | detach =>
    rw [attempt?] at h
    split at h
    · cases h; rfl
    · cases h
  | retain | claim | bind | release | touch => cases h

/-- The numbers of the attempts that a guest came of. -/
def made (tried : List (Nat × Bool)) : List Nat := (tried.filter (·.2)).map (·.1)

/-- A run gives the numbers from the next one on to its attempts, one after the other. -/
theorem numbers_attempts (p : Pool γ) (ops : List (Op γ ε)) :
    (p.attempts ops).map (·.1) = List.range' p.nextId (p.attempts ops).length ∧
      (p.run ops).ids = (made (p.attempts ops)).reverse ++ p.ids := by
  induction ops generalizing p with
  | nil => exact ⟨rfl, rfl⟩
  | cons op ops ih =>
    obtain ⟨hn, hi⟩ := ih (p.step op)
    have hr := tally_step p op
    rw [attempts, run_cons]
    cases ha : p.attempt? op with
    | none =>
      rw [ha] at hr
      have hids : (p.step op).ids = p.ids := congrArg Prod.fst hr
      have hnext : (p.step op).nextId = p.nextId := congrArg Prod.snd hr
      rw [hids] at hi
      rw [hnext] at hn
      exact ⟨hn, hi⟩
    | some a =>
      obtain ⟨n, b⟩ := a
      have hnum := attempt?_number ha
      subst hnum
      rw [ha] at hr
      have hids : (p.step op).ids = if b then p.nextId :: p.ids else p.ids := congrArg Prod.fst hr
      have hnext : (p.step op).nextId = p.nextId + 1 := congrArg Prod.snd hr
      rw [hids] at hi
      rw [hnext] at hn
      constructor
      · simp only [Option.toList_some, List.singleton_append, List.map_cons, List.length_cons,
          List.range'_succ, hn]
      · rw [hi]
        cases b <;> simp [made]

/-- Every guest is in exactly one place. After any run the slot, the binding entries and the free
list hold distinct guests, which are those that came of the run's attempts, and no pod has two
entries. The numbers of the attempts, failed ones included, only ever go up. -/
theorem placed_of_run (ops : List (Op γ ε)) :
    let p := (empty : Pool γ).run ops
    let tried := (empty : Pool γ).attempts ops
    p.placed.Nodup ∧ p.placed.Perm (made tried) ∧ (p.binding.map (·.1)).Nodup ∧
      p.slot.toList.length + p.binding.length + p.free.length = p.created ∧
      p.created = (made tried).length ∧
      (tried.map (·.1)).Pairwise (· < ·) := by
  intro p tried
  have hp : p.Accounts [] := Reachable.accounts ⟨ops, rfl⟩
  obtain ⟨hn, hi⟩ := numbers_attempts (empty : Pool γ) ops
  rw [show (empty : Pool γ).ids = [] from rfl, List.append_nil] at hi
  have hcreated : p.created = p.ids.length := by simp [created, ids]
  have hlen := hp.perm.length_eq
  simp only [List.nil_append, placed, List.length_append, List.length_map] at hlen
  refine ⟨hp.nodup, ?_, hp.keys, ?_, ?_, ?_⟩
  · refine hp.perm.trans ?_
    rw [hi]
    exact List.reverse_perm _
  · rw [hcreated, hlen]
  · rw [hcreated, hi, List.length_reverse]
  · rw [hn]
    exact List.pairwise_lt_range'

end Pool
end StageHost

import StageHost.Proofs.Plugin.Interfaces
/-
  What a stage does to the pool.
  A stage of the scheduling cycle schedules its pod and may retain the guest; one of the binding
  cycle claims the pod's guest, or gets one detached (`Deals`). Some calls end the cycle of their
  pod (`Ends`), and just these release it. `pool_run` says that this is all.
-/
namespace StageHost

/-- Whether an answer is a status other than success and skip. -/
def StageAnswer.failed : StageAnswer → Bool
  | .status s => s.code ≠ .success && s.code ≠ .skip
  | _ => false

namespace Plugin

/-- What a call for a pod can do to the pool, a release apart. -/
inductive Deals (p : Plugin) (c : StageCall) (cycle : UInt64) (pod : Pod) :
    Pool.Op Guest CreationError → Prop
  | schedule (hs : c.stage.schedules) : Deals p c cycle pod (.schedule p.create cycle pod.uid)
  | retain (hr : p.retainsWhileScheduling) : Deals p c cycle pod (.retain cycle .tentative)
  | reserve (hs : c.stage = .reserve) : Deals p c cycle pod (.retain cycle p.reserveRetention)
  | claim (hs : c.stage.binds) : Deals p c cycle pod (.claim pod.uid)
  | detach (hs : c.stage.binds) : Deals p c cycle pod (.detach p.create pod.uid)
  | touch (change : Nat → Guest → Guest) : Deals p c cycle pod (.touch change)

/-- Whether a call ends the cycle of its pod: the last stages do so in any case, and others of the
binding cycle by failing, unless a later unreserve is to do it. -/
def Ends (p : Plugin) (c : StageCall) : Prop :=
  c.stage = .unreserve ∨ c.stage = .postbind ∨
    (c.stage = .prebind ∨ c.stage = .bind) ∧ (p.run c).1.failed ∧ ¬ p.exports.has .reserve

instance (p : Plugin) (c : StageCall) : Decidable (p.Ends c) := by
  unfold Ends
  infer_instance

/-- What a call on one guest does to all guests. -/
def calling (id : Nat) (c : StageCall) (i : Nat) (g : Guest) : Guest :=
  if i = id then (g.call c).2 else g

theorem pool_onGuest {p : Plugin} (hp : p.pool.Reachable CreationError) (id : Nat)
    (c : StageCall) : (p.onGuest id c).2.pool = p.pool.touch (calling id c) := by
  rw [onGuest_snd, callGuest_snd (nodup_ids hp.accounts), Pool.modifyGuest_eq]
  rfl

theorem pool_onSchedulingGuest {p : Plugin} (hp : p.pool.Reachable CreationError) {c : StageCall}
    (hs : c.stage.schedules) (cycle : UInt64) (pod : Pod) :
    ∃ ops, (∀ op ∈ ops, p.Deals c cycle pod op) ∧
      (p.onSchedulingGuest cycle pod c).2.pool = p.pool.run ops := by
  have hready := hp.step (.schedule p.create cycle pod.uid)
  have hpool : p.pool.step (.schedule p.create cycle pod.uid) =
      (p.pool.schedule p.create cycle pod.uid).2 := rfl
  unfold onSchedulingGuest
  rcases hres : p.pool.schedule p.create cycle pod.uid with ⟨e | id, pool⟩ <;>
    rw [hres] at hpool <;> dsimp only at hpool ⊢
  · refine ⟨[.schedule p.create cycle pod.uid], by simp [Deals.schedule hs], hpool.symm⟩
  · rw [hpool] at hready
    by_cases hr : p.retainsWhileScheduling
    · rw [if_pos hr]
      have hkept := hready.step (.retain cycle .tentative)
      refine ⟨[.schedule p.create cycle pod.uid, .retain cycle .tentative, .touch (calling id c)],
        ?_, ?_⟩
      · simp [Deals.schedule hs, Deals.retain hr, Deals.touch]
      · rw [pool_onGuest hkept, ← hpool]
        rfl
    · rw [if_neg hr]
      refine ⟨[.schedule p.create cycle pod.uid, .touch (calling id c)], ?_, ?_⟩
      · simp [Deals.schedule hs, Deals.touch]
      · rw [pool_onGuest hready, ← hpool]
        rfl

theorem pool_onBindingGuest {p : Plugin} (hp : p.pool.Reachable CreationError) {c : StageCall}
    (hs : c.stage.binds) (cycle : UInt64) (pod : Pod) :
    ∃ ops, (∀ op ∈ ops, p.Deals c cycle pod op) ∧
      (p.onBindingGuest pod c).2.pool = p.pool.run ops := by
  have hready : (p.pool.claim pod.uid).2.Reachable CreationError := hp.step (.claim pod.uid)
  have hpool : p.pool.step (ε := CreationError) (.claim pod.uid) =
      (p.pool.claim pod.uid).2 := rfl
  have hclaim : p.Deals c cycle pod (.claim pod.uid) := .claim hs
  unfold onBindingGuest
  rcases hres : p.pool.claim pod.uid with ⟨id | _ | _, pool⟩ <;> rw [hres] at hpool hready <;>
    dsimp only at hpool hready ⊢
  · refine ⟨[.claim pod.uid, .touch (calling id c)], by simp [hclaim, Deals.touch], ?_⟩
    rw [pool_onGuest hready, ← hpool]
    rfl
  · exact ⟨[.claim pod.uid], by simp [hclaim], hpool.symm⟩
  · have hready' := hready.step (.detach p.create pod.uid)
    have hpool' : pool.step (.detach p.create pod.uid) = (pool.detach p.create pod.uid).2 := rfl
    rcases hd : pool.detach p.create pod.uid with ⟨e | id, pool'⟩ <;> rw [hd] at hpool' <;>
      dsimp only at hpool' ⊢
    · refine ⟨[.claim pod.uid, .detach p.create pod.uid],
        by simp [hclaim, Deals.detach hs], ?_⟩
      rw [Pool.run_cons, hpool]
      exact hpool'.symm
    · refine ⟨[.claim pod.uid, .detach p.create pod.uid, .touch (calling id c)],
        by simp [hclaim, Deals.detach hs, Deals.touch], ?_⟩
      rw [pool_onGuest (hpool' ▸ hready'), Pool.run_cons, hpool, ← hpool']
      rfl

theorem module_onSchedulingGuest (p : Plugin) (cycle : UInt64) (pod : Pod) (c : StageCall) :
    (p.onSchedulingGuest cycle pod c).2.module = p.module := by
  unfold onSchedulingGuest
  rcases p.pool.schedule p.create cycle pod.uid with ⟨e | id, pool⟩
  · rfl
  · dsimp only
    rw [onGuest_snd, callGuest]
    split <;> rfl

/-- The pool after a stage of the scheduling cycle. -/
theorem pool_of_schedules {p : Plugin} {c : StageCall} {cycle : UInt64} {pod : Pod}
    (hk : c.key? = some (cycle, pod)) (hs : c.stage.schedules) :
    ¬ p.exports.has c.stage ∧ (p.run c).2.pool = p.pool ∨
      (p.run c).2.pool =
        if c.stage = .reserve then
          (p.onSchedulingGuest cycle pod c).2.pool.retain cycle p.reserveRetention
        else (p.onSchedulingGuest cycle pod c).2.pool := by
  cases c with
  | prefilter | filter | postfilter | prescore | normalizescore =>
    cases hk
    dsimp only [run, prefilter, filter, postfilter, prescore, normalizeScore, StageCall.stage]
    split
    · rcases p.onSchedulingGuest cycle pod _ with ⟨_ | _, q⟩ <;> exact .inr rfl
    · exact .inl ⟨‹_›, rfl⟩
  | score | permit =>
    cases hk
    dsimp only [run, score, permit]
    rcases p.onSchedulingGuest cycle pod _ with ⟨_ | _, q⟩ <;> exact .inr rfl
  | reserve _ _ name =>
    cases hk
    have hretention : (p.onSchedulingGuest cycle pod (.reserve cycle pod name)).2.reserveRetention =
        p.reserveRetention := by
      unfold reserveRetention exports
      rw [module_onSchedulingGuest]
    rw [← hretention]
    exact .inr rfl
  | enqueue | unreserve | prebind | bind | postbind => cases hs

theorem pool_releaseOnFailure (p : Plugin) (pod : Pod) (s : Status) :
    (p.releaseOnFailure pod s).pool =
      if StageAnswer.failed (.status s) ∧ ¬ p.exports.has .reserve then p.pool.release pod.uid
      else p.pool := by
  unfold releaseOnFailure StageAnswer.failed
  by_cases hsuccess : s.code = .success
  · simp [hsuccess]
  · by_cases hskip : s.code = .skip
    · simp [hskip]
    · by_cases hx : p.exports.has .reserve
      · simp [hx]
      · simp [hsuccess, hskip, hx, release]

/-- The pool after a stage of the binding cycle that releases the pod if it fails. -/
theorem pool_of_closing {p : Plugin} (hp : p.pool.Reachable CreationError) {c : StageCall}
    {pod : Pod} {s : Status} (hstage : c.stage = .prebind ∨ c.stage = .bind)
    (hrun : p.run c = (.status s, (p.onBindingGuest pod c).2.releaseOnFailure pod s)) :
    (p.run c).2.pool = if p.Ends c then (p.onBindingGuest pod c).2.pool.release pod.uid
      else (p.onBindingGuest pod c).2.pool := by
  have hmodule := (grows_onBindingGuest hp pod c).module
  have hexports : (p.onBindingGuest pod c).2.exports = p.exports :=
    congrArg Prepared.exports hmodule
  have hends : p.Ends c ↔ StageAnswer.failed (.status s) ∧ ¬ p.exports.has .reserve := by
    unfold Ends
    rw [hrun]
    rcases hstage with h | h <;> simp [h]
  simp only [hends, hrun, pool_releaseOnFailure, hexports]

/-- The pool after a stage of the binding cycle, which may have found a guest. -/
theorem pool_of_binds {p : Plugin} (hp : p.pool.Reachable CreationError) {c : StageCall}
    {cycle : UInt64} {pod : Pod} (hk : c.key? = some (cycle, pod)) (hs : c.stage.binds) :
    ∃ q : Plugin, (q = p ∨ q = (p.onBindingGuest pod c).2) ∧
      (p.run c).2.pool = if p.Ends c then q.pool.release pod.uid else q.pool := by
  cases c with
  | unreserve _ _ name =>
    cases hk
    have hends : p.Ends (.unreserve cycle pod name) := .inl rfl
    refine ⟨if p.exports.has .unreserve then
      (p.onBindingGuest pod (.unreserve cycle pod name)).2 else p, ?_, (if_pos hends).symm⟩
    split
    · exact .inr rfl
    · exact .inl rfl
  | postbind _ _ name =>
    cases hk
    have hends : p.Ends (.postbind cycle pod name) := .inr (.inl rfl)
    refine ⟨if p.exports.has .postbind then
      (p.onBindingGuest pod (.postbind cycle pod name)).2 else p, ?_, (if_pos hends).symm⟩
    split
    · exact .inr rfl
    · exact .inl rfl
  | prebind _ _ name =>
    cases hk
    by_cases hx : p.exports.has .prebind
    · obtain ⟨s, hrun⟩ : ∃ s, p.run (.prebind cycle pod name) = (.status s,
          (p.onBindingGuest pod (.prebind cycle pod name)).2.releaseOnFailure pod s) := by
        dsimp only [run, prebind]
        rw [if_pos hx]
        exact ⟨_, rfl⟩
      exact ⟨_, .inr rfl, pool_of_closing hp (.inl rfl) hrun⟩
    · have hrun : p.run (.prebind cycle pod name) = (.status .success, p) := by
        dsimp only [run, prebind]
        rw [if_neg hx]
      have hends : ¬ p.Ends (.prebind cycle pod name) := by
        simp [Ends, StageCall.stage, hrun, StageAnswer.failed, Status.success]
      exact ⟨p, .inl rfl, by rw [if_neg hends, hrun]⟩
  | bind _ _ name =>
    cases hk
    exact ⟨_, .inr rfl, pool_of_closing hp (.inr rfl) rfl⟩
  | enqueue | prefilter | filter | postfilter | prescore | score | normalizescore | reserve
  | permit => cases hs

theorem schedules_or_binds {c : StageCall} (h : c.key? ≠ none) :
    c.stage.schedules ∨ c.stage.binds := by
  cases c <;> first | exact absurd rfl h | simp [StageCall.stage, Stage.schedules, Stage.binds]

theorem not_ends_of_schedules {p : Plugin} {c : StageCall} (h : c.stage.schedules) :
    ¬ p.Ends c := by
  cases c <;> simp_all [Ends, StageCall.stage, Stage.schedules]

/-- What a call for a pod does to the pool: some operations for the pod and its cycle, and then a
release just if the call ends the cycle. -/
theorem pool_run {p : Plugin} (hp : p.pool.Reachable CreationError) {c : StageCall}
    {cycle : UInt64} {pod : Pod} (hk : c.key? = some (cycle, pod)) :
    ∃ ops, (∀ op ∈ ops, p.Deals c cycle pod op) ∧
      (p.run c).2.pool =
        if p.Ends c then (p.pool.run ops).release pod.uid else p.pool.run ops := by
  rcases schedules_or_binds (by rw [hk]; simp : c.key? ≠ none) with hs | hs
  · simp only [if_neg (not_ends_of_schedules (p := p) hs)]
    obtain ⟨ops, hops, hpool⟩ := pool_onSchedulingGuest hp hs cycle pod
    rcases pool_of_schedules hk hs with ⟨-, hrun⟩ | hrun
    · exact ⟨[], (fun op hop => by cases hop), hrun⟩
    · by_cases hreserve : c.stage = .reserve
      · rw [if_pos hreserve, hpool] at hrun
        refine ⟨ops ++ [.retain cycle p.reserveRetention], ?_, ?_⟩
        · intro op hop
          rcases List.mem_append.1 hop with hop | hop
          · exact hops op hop
          · obtain rfl := List.mem_singleton.1 hop
            exact .reserve hreserve
        · rw [hrun, Pool.run_append]
          rfl
      · rw [if_neg hreserve] at hrun
        exact ⟨ops, hops, hrun.trans hpool⟩
  · obtain ⟨q, hq, hrun⟩ := pool_of_binds hp hk hs
    rcases hq with rfl | rfl
    · exact ⟨[], (fun op hop => by cases hop), hrun⟩
    · obtain ⟨ops, hops, hpool⟩ := pool_onBindingGuest hp hs cycle pod
      rw [hpool] at hrun
      exact ⟨ops, hops, hrun⟩

/-- A call without a pod leaves the plugin as it is. -/
theorem run_of_no_key {c : StageCall} (h : c.key? = none) (p : Plugin) : (p.run c).2 = p := by
  cases c <;> first | rfl | cases h

end Plugin
end StageHost

import StageHost.Proofs.Plugin.Guests
/-
  A binding cycle runs on the guest that scheduled its pod.
  `guestOf_after_scheduling` carries the law of the pool (`Pool.claim_of_schedule`) over to the
  stages of a plugin; `binding_runs_on_scheduling_guest` states both. The guest of an earlier cycle
  stays in place only where the pod has it secured (`Pool.kept?`).
-/
namespace StageHost

namespace Plugin

theorem claim_onGuest {p : Plugin} (hp : p.pool.Reachable CreationError) (id : Nat)
    (c : StageCall) (pod : String) :
    ((p.onGuest id c).2.pool.claim pod).1 = (p.pool.claim pod).1 := by
  rw [onGuest_snd, callGuest_snd (nodup_ids hp.accounts)]
  have hagree : p.pool.Agrees (p.pool.modifyGuest id fun g => (g.call c).2) :=
    ⟨rfl, rfl, rfl, rfl⟩
  exact hagree.claim pod

/-- What a pod claims after a scheduling call is what it claims as soon as the call has its
guest. -/
theorem claim_onSchedulingGuest {p : Plugin} (hp : p.pool.Reachable CreationError)
    {cycle : UInt64} {pod : Pod} {g : Nat} {pool : Pool Guest}
    (hs : p.pool.schedule p.create cycle pod.uid = (.ok g, pool)) (c : StageCall) (x : String) :
    ((p.onSchedulingGuest cycle pod c).2.pool.claim x).1 = (pool.claim x).1 := by
  have hready : pool.Reachable CreationError := by
    have h := hp.step (.schedule p.create cycle pod.uid)
    rw [Pool.step, hs] at h
    exact h
  unfold onSchedulingGuest
  rw [hs]
  dsimp only
  by_cases hr : p.retainsWhileScheduling
  · rw [if_pos hr, claim_onGuest (hready.step (.retain cycle .tentative))]
    exact Pool.claim_retain _ _ _ _
  · rw [if_neg hr, claim_onGuest hready]

theorem claim_keeps {p q : Plugin} (h : p.Keeps q) (x : String) :
    (q.pool.claim x).1 = (p.pool.claim x).1 := by
  obtain hp | ⟨cycle, r, hp⟩ := h.pool <;> rw [hp]
  exact Pool.claim_retain _ _ _ _

/-- The guest of a binding stage right after a scheduling stage for the same pod. -/
theorem guestOf_after_scheduling {p : Plugin} (hp : p.pool.Reachable CreationError)
    {c b : StageCall} {cycle cycle' : UInt64} {pod pod' : Pod} {g : Nat}
    (hc : c.key? = some (cycle, pod)) (hsched : c.stage.schedules)
    (hb : b.key? = some (cycle', pod')) (hbind : b.stage.binds) (hpod : pod'.uid = pod.uid)
    (hx : p.exports.has b.stage)
    (hown : ∀ s ∈ p.pool.slot, s.cycle = cycle → s.pod = pod.uid)
    (hpark : pod.uid ∈ p.pool.parked → ∃ s ∈ p.pool.slot, s.cycle ≠ cycle)
    (hg : p.guestOf? c = some g) :
    (p.run c).2.guestOf? b = some ((p.pool.kept? pod.uid).getD g) := by
  obtain ⟨-, hxc⟩ := exports_of_guestOf hg
  rw [guestOf_of_schedules hc hsched hxc] at hg
  obtain ⟨pool, hs⟩ : ∃ pool, p.pool.schedule p.create cycle pod.uid = (.ok g, pool) := by
    rcases hs : p.pool.schedule p.create cycle pod.uid with ⟨e | id, pool⟩ <;> rw [hs] at hg <;>
      cases hg
    exact ⟨pool, rfl⟩
  have hclaim := Pool.claim_of_schedule hp.queued hown hpark hs
  have hgrows := grows_run hp c
  have hxb : (p.run c).2.exports.has b.stage := by
    unfold exports
    rw [hgrows.module]
    exact hx
  have hafter : ((p.run c).2.pool.claim pod.uid).1 = (pool.claim pod.uid).1 := by
    cases turn_run p c with
    | passed hn _ =>
      exact (hn.elim (fun hk => by rw [hc] at hk; cases hk) (fun hn => hn hxc)).elim
    | scheduled hk _ ha =>
      rw [hc] at hk
      cases hk
      rw [claim_keeps ha, claim_onSchedulingGuest hp hs]
    | bound _ hs' _ => exact absurd hsched (not_schedules_of_binds hs')
  rw [guestOf_of_binds hb hbind hxb, hpod]
  rw [hclaim] at hafter
  rcases hq : (p.run c).2.pool.claim pod.uid with ⟨id | _ | _, q⟩ <;> rw [hq] at hafter <;>
    cases hafter
  rfl

/-- The binding cycle of a pod gets the guest that scheduled the pod, unless the pod has another
one secured from before: in the pool, when a cycle begins and the pod is claimed next, and in a
plugin, when a stage of the scheduling cycle is followed by one of the binding cycle. A cycle is of
one pod; a pod that is still parked when its cycle finds the slot empty is left aside. -/
theorem binding_runs_on_scheduling_guest :
    (∀ {γ ε : Type} {p q : Pool γ} (create : Nat → Except ε γ) (cycle : UInt64) (pod : String)
      {g : Nat}, p.Reachable ε → p.Starts cycle → (pod ∈ p.parked → p.slot ≠ none) →
      p.schedule create cycle pod = (.ok g, q) →
      (q.claim pod).1 = .held ((p.kept? pod).getD g)) ∧
    (∀ {p : Plugin} {c b : StageCall} {cycle cycle' : UInt64} {pod pod' : Pod} {g : Nat},
      p.Reachable → c.key? = some (cycle, pod) → c.stage.schedules →
      b.key? = some (cycle', pod') → b.stage.binds → pod'.uid = pod.uid →
      p.exports.has b.stage →
      (∀ s ∈ p.pool.slot, s.cycle = cycle → s.pod = pod.uid) →
      (pod.uid ∈ p.pool.parked → ∃ s ∈ p.pool.slot, s.cycle ≠ cycle) →
      p.RunsOn c g → (p.run c).2.RunsOn b ((p.pool.kept? pod.uid).getD g)) := by
  constructor
  · intro γ ε p q create cycle pod g hp hc hslot hs
    refine Pool.claim_of_schedule hp.queued (fun s hm hsc => absurd hsc (hc s hm)) ?_ hs
    intro hm
    obtain ⟨s, hsome⟩ := Option.ne_none_iff_exists'.1 (hslot hm)
    exact ⟨s, hsome, hc s hsome⟩
  · intro p c b cycle cycle' pod pod' g hp hc hsched hb hbind hpod hx hown hpark hg
    refine runsOn_of_guestOf ((grows_run hp.pool c).reachable hp.pool) ?_
    exact guestOf_after_scheduling hp.pool hc hsched hb hbind hpod hx hown hpark hg.guest

/-- A module that filters and binds without a word. -/
def silentModule : Prepared where
  name := "silent"
  digest := ""
  imports := .empty
  exports := .ofList [.filter, .bind]
  hasInitializer := false
  program := { exports := [⟨"filter", .function Stage.filter.signature .leave⟩,
    ⟨"bind", .function Stage.bind.signature .leave⟩] }

/-- The plugin of the silent module. -/
def silent : Plugin := (start silentModule default).2

theorem reachable_silent : silent.Reachable :=
  .start (show start silentModule default = (.ok (), silent) from rfl)

/-- An abandoned cycle leaves a tentative guest out and a firm one in place, and a pod that was
filtered is bound on the same guest. -/
theorem bound_after_parking_and_after_filter :
    ((((Pool.empty : Pool Nat).run (Pool.parkingRun .tentative)).schedule
        (.ok : Nat → Except String Nat) 3 "p").2.claim "p").1 = .held 2 ∧
      ((((Pool.empty : Pool Nat).run (Pool.parkingRun .firm)).schedule
        (.ok : Nat → Except String Nat) 3 "p").2.claim "p").1 = .held 1 ∧
      (silent.run (.filter 1 {} default)).2.RunsOn (.bind 1 {} "node") 1 := by
  refine ⟨?_, ?_, ?_⟩
  · exact binding_runs_on_scheduling_guest.1 .ok 3 "p"
      (Pool.reachable_empty.run (Pool.parkingRun .tentative)) (by decide) (fun _ => by decide) rfl
  · exact binding_runs_on_scheduling_guest.1 .ok 3 "p"
      (Pool.reachable_empty.run (Pool.parkingRun .firm)) (by decide) (fun _ => by decide) rfl
  · exact binding_runs_on_scheduling_guest.2 reachable_silent rfl rfl rfl rfl rfl rfl
      (by decide) (by decide) (runsOn_of_guestOf reachable_silent.pool rfl)

/-- The guest of a cycle that begins is not always the one claimed next: one firmly parked for the
pod goes first. -/
theorem not_always_claimed :
    ¬ ∀ (p q : Pool Nat) (create : Nat → Except String Nat) (cycle : UInt64) (pod : String)
      (g : Nat), p.Reachable String → p.Starts cycle → p.schedule create cycle pod = (.ok g, q) →
      (q.claim pod).1 = .held g := by
  intro h
  have hheld := h ((Pool.empty : Pool Nat).run (Pool.parkingRun .firm)) _ .ok 3 "p" 2 ⟨_, rfl⟩
    (by decide) rfl
  cases hheld

end Plugin
end StageHost

import StageHost.Plugin.Basic
import StageHost.Proofs.Pool.Conservation
import StageHost.Proofs.Pool.Ownership
/-
  The guests that the stages of a plugin run on.
  `turn_run` says all that a stage can do to a plugin, and from it follows that the pool of a plugin
  is one that a run of pool operations leads to (`Reachable.pool`). `guestOf?` is the guest that a
  stage runs on, and `RunsOn` says that the stage is called on this guest and on no other
  (`runsOn_of_guestOf`).
-/
namespace StageHost

/-- The cycle and the pod that a stage is called for. -/
def StageCall.key? : StageCall → Option (UInt64 × Pod)
  | .enqueue => none
  | .prefilter cycle pod | .filter cycle pod _ | .postfilter cycle pod | .prescore cycle pod
  | .score cycle pod _ | .normalizescore cycle pod _ | .reserve cycle pod _
  | .unreserve cycle pod _ | .permit cycle pod _ | .prebind cycle pod _ | .bind cycle pod _
  | .postbind cycle pod _ => some (cycle, pod)

/-- Whether a stage is one of the scheduling cycle. -/
def Stage.schedules : Stage → Bool
  | .prefilter | .filter | .postfilter | .prescore | .score | .normalizescore | .reserve
  | .permit => true
  | .enqueue | .unreserve | .prebind | .bind | .postbind => false

/-- Whether a stage is one of the binding cycle. -/
def Stage.binds : Stage → Bool
  | .unreserve | .prebind | .bind | .postbind => true
  | .enqueue | .prefilter | .filter | .postfilter | .prescore | .score | .normalizescore
  | .reserve | .permit => false

namespace Plugin

/-! ## What a stage does to a plugin -/

/-- The same plugin up to what is recorded, where the guest of the slot may have been retained. -/
structure Keeps (p q : Plugin) : Prop where
  module : q.module = p.module
  settings : q.settings = p.settings
  pool : q.pool = p.pool ∨ ∃ cycle r, q.pool = p.pool.retain cycle r

theorem Keeps.refl (p : Plugin) : p.Keeps p := ⟨rfl, rfl, .inl rfl⟩

/-- The same plugin up to what is recorded, where a guest may have been released. -/
structure Closes (p q : Plugin) : Prop where
  module : q.module = p.module
  settings : q.settings = p.settings
  pool : q.pool = p.pool ∨ ∃ pod, q.pool = p.pool.release pod

theorem Closes.refl (p : Plugin) : p.Closes p := ⟨rfl, rfl, .inl rfl⟩

theorem closes_release (p : Plugin) (pod : Pod) : p.Closes (p.release pod) :=
  ⟨rfl, rfl, .inr ⟨pod.uid, rfl⟩⟩

theorem closes_releaseOnFailure (p : Plugin) (pod : Pod) (s : Status) :
    p.Closes (p.releaseOnFailure pod s) := by
  unfold releaseOnFailure
  split
  · exact .refl p
  · exact closes_release p pod

/-- All that calling a stage can do to a plugin, apart from its answer. -/
inductive Turn (p : Plugin) (c : StageCall) : Plugin → Prop
  | passed {q : Plugin} (hx : c.key? = none ∨ ¬ p.exports.has c.stage) (h : p.Closes q) :
    Turn p c q
  | scheduled {cycle : UInt64} {pod : Pod} {q : Plugin} (hk : c.key? = some (cycle, pod))
    (hs : c.stage.schedules) (h : (p.onSchedulingGuest cycle pod c).2.Keeps q) : Turn p c q
  | bound {cycle : UInt64} {pod : Pod} {q : Plugin} (hk : c.key? = some (cycle, pod))
    (hs : c.stage.binds) (h : (p.onBindingGuest pod c).2.Closes q) : Turn p c q

/-- A stage that is skipped where the guest does not export it. -/
theorem turn_ite {α : Type} {p : Plugin} {c : StageCall} {called skipped : α × Plugin}
    (h : p.Turn c called.2) (hskip : p.Closes skipped.2) :
    p.Turn c (if p.exports.has c.stage then called else skipped).2 := by
  by_cases hx : p.exports.has c.stage
  · rw [if_pos hx]
    exact h
  · rw [if_neg hx]
    exact .passed (.inr hx) hskip

/-- A stage of the binding cycle that ends it in any case. -/
theorem turn_closing {p : Plugin} {c : StageCall} {cycle : UInt64} {pod : Pod}
    (hk : c.key? = some (cycle, pod)) (hs : c.stage.binds) :
    p.Turn c ((if p.exports.has c.stage then (p.onBindingGuest pod c).2 else p).release pod) := by
  by_cases hx : p.exports.has c.stage
  · rw [if_pos hx]
    exact .bound hk hs (closes_release _ pod)
  · rw [if_neg hx]
    exact .passed (.inr hx) (closes_release p pod)

theorem turn_prefilter (p : Plugin) (cycle : UInt64) (pod : Pod) :
    p.Turn (.prefilter cycle pod) (p.prefilter cycle pod).2 := by
  unfold prefilter
  refine turn_ite (.scheduled rfl rfl ?_) (.refl p)
  rcases p.onSchedulingGuest cycle pod (.prefilter cycle pod) with ⟨_ | _, q⟩ <;> exact .refl q

theorem turn_filter (p : Plugin) (cycle : UInt64) (pod : Pod) (node : NodeInfo) :
    p.Turn (.filter cycle pod node) (p.filter cycle pod node).2 := by
  unfold filter
  refine turn_ite (.scheduled rfl rfl ?_) (.refl p)
  rcases p.onSchedulingGuest cycle pod (.filter cycle pod node) with ⟨_ | _, q⟩ <;> exact .refl q

theorem turn_postfilter (p : Plugin) (cycle : UInt64) (pod : Pod) :
    p.Turn (.postfilter cycle pod) (p.postfilter cycle pod).2 := by
  unfold postfilter
  refine turn_ite (.scheduled rfl rfl ?_) (.refl p)
  rcases p.onSchedulingGuest cycle pod (.postfilter cycle pod) with ⟨_ | _, q⟩ <;> exact .refl q

theorem turn_prescore (p : Plugin) (cycle : UInt64) (pod : Pod) :
    p.Turn (.prescore cycle pod) (p.prescore cycle pod).2 := by
  unfold prescore
  refine turn_ite (.scheduled rfl rfl ?_) (.refl p)
  rcases p.onSchedulingGuest cycle pod (.prescore cycle pod) with ⟨_ | _, q⟩ <;> exact .refl q

theorem turn_score (p : Plugin) (cycle : UInt64) (pod : Pod) (node : NodeInfo) :
    p.Turn (.score cycle pod node) (p.score cycle pod node).2 := by
  unfold score
  refine .scheduled rfl rfl ?_
  rcases p.onSchedulingGuest cycle pod (.score cycle pod node) with ⟨_ | _, q⟩ <;> exact .refl q

theorem turn_normalizeScore (p : Plugin) (cycle : UInt64) (pod : Pod) (scores : List NodeScore) :
    p.Turn (.normalizescore cycle pod scores) (p.normalizeScore cycle pod scores).2 := by
  unfold normalizeScore
  refine turn_ite (.scheduled rfl rfl ?_) (.refl p)
  rcases p.onSchedulingGuest cycle pod (.normalizescore cycle pod scores) with ⟨_ | _, q⟩ <;>
    exact .refl q

theorem turn_reserve (p : Plugin) (cycle : UInt64) (pod : Pod) (nodeName : String) :
    p.Turn (.reserve cycle pod nodeName) (p.reserve cycle pod nodeName).2 :=
  .scheduled rfl rfl ⟨rfl, rfl, .inr ⟨_, _, rfl⟩⟩

theorem turn_permit (p : Plugin) (cycle : UInt64) (pod : Pod) (nodeName : String) :
    p.Turn (.permit cycle pod nodeName) (p.permit cycle pod nodeName).2 := by
  unfold permit
  refine .scheduled rfl rfl ?_
  rcases p.onSchedulingGuest cycle pod (.permit cycle pod nodeName) with ⟨_ | _, q⟩ <;>
    exact .refl q

theorem turn_unreserve (p : Plugin) (cycle : UInt64) (pod : Pod) (nodeName : String) :
    p.Turn (.unreserve cycle pod nodeName) (p.unreserve cycle pod nodeName) :=
  turn_closing rfl rfl

theorem turn_prebind (p : Plugin) (cycle : UInt64) (pod : Pod) (nodeName : String) :
    p.Turn (.prebind cycle pod nodeName) (p.prebind cycle pod nodeName).2 :=
  turn_ite (.bound rfl rfl (closes_releaseOnFailure _ pod _)) (.refl p)

theorem turn_bind (p : Plugin) (cycle : UInt64) (pod : Pod) (nodeName : String) :
    p.Turn (.bind cycle pod nodeName) (p.bind cycle pod nodeName).2 :=
  .bound rfl rfl (closes_releaseOnFailure _ pod _)

theorem turn_postbind (p : Plugin) (cycle : UInt64) (pod : Pod) (nodeName : String) :
    p.Turn (.postbind cycle pod nodeName) (p.postbind cycle pod nodeName) :=
  turn_closing rfl rfl

theorem turn_run (p : Plugin) (c : StageCall) : p.Turn c (p.run c).2 := by
  cases c with
  | enqueue => exact .passed (.inl rfl) (.refl p)
  | prefilter cycle pod => exact turn_prefilter p cycle pod
  | filter cycle pod node => exact turn_filter p cycle pod node
  | postfilter cycle pod => exact turn_postfilter p cycle pod
  | prescore cycle pod => exact turn_prescore p cycle pod
  | score cycle pod node => exact turn_score p cycle pod node
  | normalizescore cycle pod scores => exact turn_normalizeScore p cycle pod scores
  | reserve cycle pod name => exact turn_reserve p cycle pod name
  | unreserve cycle pod name => exact turn_unreserve p cycle pod name
  | permit cycle pod name => exact turn_permit p cycle pod name
  | prebind cycle pod name => exact turn_prebind p cycle pod name
  | bind cycle pod name => exact turn_bind p cycle pod name
  | postbind cycle pod name => exact turn_postbind p cycle pod name

/-! ## Calls on guests -/

/-- A call changes the guest called and no other. -/
theorem callGuest_snd {p : Plugin} (h : p.pool.ids.Nodup) (id : Nat) (c : StageCall) :
    (p.callGuest id c).2 = { p with pool := p.pool.modifyGuest id fun g => (g.call c).2 } := by
  unfold callGuest Pool.guest? Pool.modifyGuest
  cases hg : p.pool.guests.lookup id with
  | none =>
    rw [List.map_congr_left (g := fun e => e), List.map_id']
    intro e he
    have hne : id ≠ e.1 := by simpa using List.lookup_eq_none_iff.1 hg e he
    rw [if_neg hne.symm]
  | some g =>
    obtain ⟨l, r, hl, -⟩ := List.lookup_eq_some_iff.1 hg
    have hm : (id, g) ∈ p.pool.guests := by simp [hl]
    dsimp only
    congr 2
    apply List.map_congr_left
    intro e he
    by_cases hid : e.1 = id
    · have heq := List.inj_on_of_nodup_map h he hm hid
      rw [heq]
    · rw [if_neg hid, if_neg hid]

theorem onGuest_snd (p : Plugin) (id : Nat) (c : StageCall) :
    (p.onGuest id c).2 = (p.callGuest id c).2 := by
  unfold onGuest
  rcases p.callGuest id c with ⟨_ | _, q⟩ <;> rfl

theorem nodup_ids {p : Pool Guest} {hand : List Nat} (h : p.Accounts hand) : p.ids.Nodup :=
  h.decreasing.imp fun hgt => Nat.ne_of_gt hgt

/-! ## The pool of a plugin -/

/-- The same plugin up to what is recorded and to a run of its pool. -/
structure Grows (p q : Plugin) : Prop where
  module : q.module = p.module
  settings : q.settings = p.settings
  pool : ∃ ops : List (Pool.Op Guest CreationError), q.pool = p.pool.run ops

theorem Grows.refl (p : Plugin) : p.Grows p := ⟨rfl, rfl, [], rfl⟩

theorem Grows.trans {p q r : Plugin} (h : p.Grows q) (h' : q.Grows r) : p.Grows r := by
  obtain ⟨ops, hops⟩ := h.pool
  obtain ⟨ops', hops'⟩ := h'.pool
  refine ⟨h'.module.trans h.module, h'.settings.trans h.settings, ops ++ ops', ?_⟩
  rw [hops', hops, Pool.run_append]

theorem Grows.reachable {p q : Plugin} (h : p.Grows q) (hp : p.pool.Reachable CreationError) :
    q.pool.Reachable CreationError := by
  obtain ⟨ops, hops⟩ := h.pool
  exact hops ▸ hp.run ops

theorem Keeps.grows {p q : Plugin} (h : p.Keeps q) : p.Grows q := by
  refine ⟨h.module, h.settings, ?_⟩
  obtain hp | ⟨cycle, r, hp⟩ := h.pool
  · exact ⟨[], hp⟩
  · exact ⟨[.retain cycle r], hp⟩

theorem Closes.grows {p q : Plugin} (h : p.Closes q) : p.Grows q := by
  refine ⟨h.module, h.settings, ?_⟩
  obtain hp | ⟨pod, hp⟩ := h.pool
  · exact ⟨[], hp⟩
  · exact ⟨[.release pod], hp⟩

theorem grows_onGuest {p : Plugin} (hp : p.pool.Reachable CreationError) (id : Nat)
    (c : StageCall) : p.Grows (p.onGuest id c).2 := by
  rw [onGuest_snd, callGuest_snd (nodup_ids hp.accounts), Pool.modifyGuest_eq]
  exact ⟨rfl, rfl, [.touch fun i g => if i = id then (g.call c).2 else g], rfl⟩

/-- The plugin as a scheduling call runs on its guest. -/
theorem grows_onSchedulingGuest {p : Plugin} (hp : p.pool.Reachable CreationError)
    (cycle : UInt64) (pod : Pod) (c : StageCall) :
    p.Grows (p.onSchedulingGuest cycle pod c).2 := by
  unfold onSchedulingGuest
  rcases hs : p.pool.schedule p.create cycle pod.uid with ⟨e | id, pool⟩
  · exact ⟨rfl, rfl, [.schedule p.create cycle pod.uid], congrArg Prod.snd hs.symm⟩
  · have hready : p.Grows { p with pool :=
        if p.retainsWhileScheduling then pool.retain cycle .tentative else pool } := by
      refine ⟨rfl, rfl, ?_⟩
      split
      · exact ⟨[.schedule p.create cycle pod.uid, .retain cycle .tentative],
          congrArg (fun r : Except CreationError Nat × Pool Guest => r.2.retain cycle .tentative)
            hs.symm⟩
      · exact ⟨[.schedule p.create cycle pod.uid], congrArg Prod.snd hs.symm⟩
    exact hready.trans (grows_onGuest (hready.reachable hp) id c)

theorem grows_onBindingGuest {p : Plugin} (hp : p.pool.Reachable CreationError) (pod : Pod)
    (c : StageCall) : p.Grows (p.onBindingGuest pod c).2 := by
  unfold onBindingGuest
  rcases hs : p.pool.claim pod.uid with ⟨id | _ | _, pool⟩
  · have hready : p.Grows { p with pool } :=
      ⟨rfl, rfl, [.claim pod.uid], congrArg Prod.snd hs.symm⟩
    exact hready.trans (grows_onGuest (hready.reachable hp) id c)
  · exact ⟨rfl, rfl, [.claim pod.uid], congrArg Prod.snd hs.symm⟩
  · have hpool : pool = p.pool.step (ε := CreationError) (.claim pod.uid) :=
      congrArg Prod.snd hs.symm
    dsimp only
    rcases hd : pool.detach p.create pod.uid with ⟨e | id, pool'⟩
    · refine ⟨rfl, rfl, [.claim pod.uid, .detach p.create pod.uid], ?_⟩
      exact (congrArg Prod.snd hd.symm).trans (by rw [hpool]; rfl)
    · have hready : p.Grows { p with pool := pool' } := by
        refine ⟨rfl, rfl, [.claim pod.uid, .detach p.create pod.uid], ?_⟩
        exact (congrArg Prod.snd hd.symm).trans (by rw [hpool]; rfl)
      exact hready.trans (grows_onGuest (hready.reachable hp) id c)

theorem grows_run {p : Plugin} (hp : p.pool.Reachable CreationError) (c : StageCall) :
    p.Grows (p.run c).2 := by
  cases turn_run p c with
  | passed _ h => exact h.grows
  | scheduled _ _ h => exact (grows_onSchedulingGuest hp _ _ c).trans h.grows
  | bound _ _ h => exact (grows_onBindingGuest hp _ c).trans h.grows

theorem reachable_askEvents {p : Plugin} (hp : p.pool.Reachable CreationError) :
    p.askEvents.2.pool.Reachable CreationError := by
  have hstep := hp.step (.withFree p.create fun g => (g.call .enqueue).2)
  have hborrow := hp.accounts.borrow p.create
  unfold askEvents
  split
  · unfold Pool.step Pool.withFree at hstep
    dsimp only at hstep
    rcases hb : p.pool.borrow p.create with ⟨e | id, pool⟩ <;> rw [hb] at hstep hborrow
    · exact hstep
    · dsimp only at hstep ⊢
      have hcall := callGuest_snd (p := { p with pool }) (nodup_ids hborrow) id .enqueue
      rcases hc : Plugin.callGuest { p with pool } id .enqueue with ⟨e | o, q⟩ <;>
        rw [hc] at hcall <;> dsimp only at hcall ⊢ <;> rw [hcall] <;> exact hstep
  · exact hp

/-- A plugin that was started and has run stages since. -/
inductive Reachable : Plugin → Prop
  | start {module : Prepared} {config : Config} {p : Plugin}
    (h : start module config = (.ok (), p)) : Reachable p
  | run {p : Plugin} (hp : Reachable p) (c : StageCall) : Reachable (p.run c).2
  | takeRecords {p : Plugin} (hp : Reachable p) : Reachable p.takeRecords.2

theorem Reachable.pool {p : Plugin} (hp : p.Reachable) : p.pool.Reachable CreationError := by
  induction hp with
  | @start module config p h =>
    unfold Plugin.start at h
    have hstep := (Pool.reachable_empty (γ := Guest)).step
      (.prewarm (Plugin.create { module, settings := .ofConfig module.name config }))
    unfold Pool.step at hstep
    dsimp only at h hstep
    rcases hw : Pool.prewarm (Plugin.create { module, settings := .ofConfig module.name config })
      ({} : Pool Guest) with ⟨e | _, pool⟩
    · rw [hw] at h
      cases h
    · rw [show Pool.prewarm _ (Pool.empty : Pool Guest) = _ from hw] at hstep
      rw [hw] at h
      have hask := reachable_askEvents
        (p := { module, settings := .ofConfig module.name config, pool }) hstep
      dsimp only at h
      rw [h] at hask
      exact hask
  | run _ c ih => exact (grows_run ih c).reachable ih
  | takeRecords _ ih => exact ih.step (.touch fun _ g => g.takeTranscript.2)

/-! ## The guest of a stage -/

/-- The guest that a stage runs on, unless it runs on none. -/
def guestOf? (p : Plugin) (c : StageCall) : Option Nat :=
  match c.key? with
  | none => none
  | some (cycle, pod) =>
    if p.exports.has c.stage then
      if c.stage.schedules then (p.pool.schedule p.create cycle pod.uid).1.toOption
      else
        match p.pool.claim pod.uid with
        | (.held id, _) => some id
        | (.reclaimed, _) => none
        | (.unscheduled, pool) => (pool.detach p.create pod.uid).1.toOption
    else none

/-- A stage runs on a guest: of all guests, with those just made, this one is called and no
other. -/
structure RunsOn (p : Plugin) (c : StageCall) (g : Nat) : Prop where
  guest : p.guestOf? c = some g
  called : ∃ new : List (Nat × Guest), g ∈ (new ++ p.pool.guests).map (·.1) ∧
    (p.run c).2.pool.guests =
      (new ++ p.pool.guests).map fun e => if e.1 = g then (e.1, (e.2.call c).2) else e

theorem not_schedules_of_binds {s : Stage} (h : s.binds) : ¬ s.schedules := by
  cases s <;> simp_all [Stage.binds, Stage.schedules]

theorem guestOf_of_schedules {p : Plugin} {c : StageCall} {cycle : UInt64} {pod : Pod}
    (hk : c.key? = some (cycle, pod)) (hs : c.stage.schedules) (hx : p.exports.has c.stage) :
    p.guestOf? c = (p.pool.schedule p.create cycle pod.uid).1.toOption := by
  unfold guestOf?
  rw [hk]
  dsimp only
  rw [if_pos hx, if_pos hs]

theorem guestOf_of_binds {p : Plugin} {c : StageCall} {cycle : UInt64} {pod : Pod}
    (hk : c.key? = some (cycle, pod)) (hs : c.stage.binds) (hx : p.exports.has c.stage) :
    p.guestOf? c = match p.pool.claim pod.uid with
      | (.held id, _) => some id
      | (.reclaimed, _) => none
      | (.unscheduled, pool) => (pool.detach p.create pod.uid).1.toOption := by
  unfold guestOf?
  rw [hk]
  dsimp only
  rw [if_pos hx, if_neg (not_schedules_of_binds hs)]

theorem exports_of_guestOf {p : Plugin} {c : StageCall} {g : Nat} (h : p.guestOf? c = some g) :
    c.key? ≠ none ∧ p.exports.has c.stage := by
  unfold guestOf? at h
  split at h
  · cases h
  · rename_i hk
    split at h
    · rename_i hx
      exact ⟨by rw [hk]; simp, hx⟩
    · cases h

theorem guests_retain (p : Pool Guest) (cycle : UInt64) (r : Retention) :
    (p.retain cycle r).guests = p.guests := by
  unfold Pool.retain
  split
  · split <;> rfl
  · rfl

theorem Keeps.guests {p q : Plugin} (h : p.Keeps q) : q.pool.guests = p.pool.guests := by
  obtain hp | ⟨cycle, r, hp⟩ := h.pool <;> rw [hp]
  exact guests_retain _ cycle r

theorem Closes.guests {p q : Plugin} (h : p.Closes q) : q.pool.guests = p.pool.guests := by
  obtain hp | ⟨pod, hp⟩ := h.pool <;> rw [hp]
  exact congrArg Prod.fst (Pool.roster_freeBinding _ pod)

/-- The guests after a call on one of them. -/
theorem guests_onGuest {p : Plugin} (hp : p.pool.Reachable CreationError) (id : Nat)
    (c : StageCall) : (p.onGuest id c).2.pool.guests =
      p.pool.guests.map fun e => if e.1 = id then (e.1, (e.2.call c).2) else e := by
  rw [onGuest_snd, callGuest_snd (nodup_ids hp.accounts)]
  rfl

theorem called_onSchedulingGuest {p : Plugin} (hp : p.pool.Reachable CreationError)
    {cycle : UInt64} {pod : Pod} {g : Nat}
    (h : (p.pool.schedule p.create cycle pod.uid).1.toOption = some g) (c : StageCall) :
    ∃ new : List (Nat × Guest), g ∈ (new ++ p.pool.guests).map (·.1) ∧
      (p.onSchedulingGuest cycle pod c).2.pool.guests =
        (new ++ p.pool.guests).map fun e => if e.1 = g then (e.1, (e.2.call c).2) else e := by
  obtain ⟨new, hnew, -⟩ := Pool.guests_schedule p.pool p.create cycle pod.uid
  have hmem := Pool.mem_ids_of_gives hp (.schedule p.create cycle pod.uid) h
  have hready : (p.pool.schedule p.create cycle pod.uid).2.Reachable CreationError :=
    hp.step (.schedule p.create cycle pod.uid)
  refine ⟨new, hnew ▸ hmem, ?_⟩
  rw [← hnew]
  unfold onSchedulingGuest
  rcases hs : p.pool.schedule p.create cycle pod.uid with ⟨e | id, pool⟩ <;> rw [hs] at h hready <;>
    cases h
  dsimp only at hready ⊢
  by_cases hr : p.retainsWhileScheduling
  · rw [if_pos hr, guests_onGuest (hready.step (.retain cycle .tentative))]
    dsimp only
    rw [guests_retain]
  · rw [if_neg hr, guests_onGuest hready]

theorem called_onBindingGuest {p : Plugin} (hp : p.pool.Reachable CreationError) {pod : Pod}
    {g : Nat}
    (h : (match p.pool.claim pod.uid with
      | (.held id, _) => some id
      | (.reclaimed, _) => none
      | (.unscheduled, pool) => (pool.detach p.create pod.uid).1.toOption) = some g)
    (c : StageCall) :
    ∃ new : List (Nat × Guest), g ∈ (new ++ p.pool.guests).map (·.1) ∧
      (p.onBindingGuest pod c).2.pool.guests =
        (new ++ p.pool.guests).map fun e => if e.1 = g then (e.1, (e.2.call c).2) else e := by
  have hready : (p.pool.claim pod.uid).2.Reachable CreationError := hp.step (.claim pod.uid)
  have hguests := congrArg Prod.fst (Pool.roster_claim p.pool pod.uid)
  have hgives : ∀ id, (p.pool.claim pod.uid).1.guest? = some id →
      id ∈ (p.pool.claim pod.uid).2.ids := fun id hid =>
    Pool.mem_ids_of_gives hp (.claim pod.uid) hid
  unfold onBindingGuest
  rcases hs : p.pool.claim pod.uid with ⟨id | _ | _, pool⟩ <;>
    rw [hs] at h hready hguests hgives <;> dsimp only [Pool.roster] at h hready hguests hgives ⊢
  · cases h
    refine ⟨[], ?_, ?_⟩
    · rw [List.nil_append, ← hguests]
      exact hgives g rfl
    · rw [guests_onGuest hready, List.nil_append, ← hguests]
  · cases h
  · obtain ⟨new, hnew, -⟩ := Pool.guests_detach pool p.create pod.uid
    have hmem := Pool.mem_ids_of_gives hready (.detach p.create pod.uid) h
    have hready' : (pool.detach p.create pod.uid).2.Reachable CreationError :=
      hready.step (.detach p.create pod.uid)
    refine ⟨new, ?_, ?_⟩
    · rw [← hguests, ← hnew]
      exact hmem
    · rw [← hguests, ← hnew]
      rcases hd : pool.detach p.create pod.uid with ⟨e | id, pool'⟩ <;> rw [hd] at h hready' <;>
        cases h
      exact guests_onGuest hready' g c

theorem runsOn_of_guestOf {p : Plugin} (hp : p.pool.Reachable CreationError) {c : StageCall}
    {g : Nat} (h : p.guestOf? c = some g) : p.RunsOn c g := by
  obtain ⟨hsome, hx⟩ := exports_of_guestOf h
  refine ⟨h, ?_⟩
  cases turn_run p c with
  | passed hn _ => exact (hn.elim hsome (fun hn => hn hx)).elim
  | scheduled hk hs ha =>
    rw [guestOf_of_schedules hk hs hx] at h
    rw [ha.guests]
    exact called_onSchedulingGuest hp h c
  | bound hk hs ha =>
    rw [guestOf_of_binds hk hs hx] at h
    rw [ha.guests]
    exact called_onBindingGuest hp h c

end Plugin
end StageHost

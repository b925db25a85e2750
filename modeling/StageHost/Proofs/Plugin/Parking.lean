import Mathlib.Data.List.Basic
import StageHost.Proofs.Plugin.Operations
import StageHost.Proofs.Pool.Backing
/-
  How many guests a plugin keeps for binding cycles.
  A guest that does not export both `reserve` and `bind` is only ever retained tentatively. So every
  binding entry is parked, or of a pod whose binding cycle is open (`backed_after`); which cycles
  are open is told from the calls so far and their answers (`Open`, `mem_openPods`).
  `bounded_parking` bounds the entries by these, and the guests where no binding cycle can open.
-/
namespace StageHost

namespace StageCall

/-! ## Open binding cycles -/

/-- Whether a call with an answer opens the binding cycle of a pod. -/
def Opens (x : String) (e : StageCall × StageAnswer) : Prop :=
  (e.1.stage = .prebind ∨ e.1.stage = .bind) ∧ e.1.key?.map (·.2.uid) = some x

/-- Whether a call with an answer closes the binding cycle of a pod. -/
def Closes (x : String) (e : StageCall × StageAnswer) : Prop :=
  (e.1.stage = .postbind ∨ (e.1.stage = .prebind ∨ e.1.stage = .bind) ∧ e.2.failed) ∧
    e.1.key?.map (·.2.uid) = some x

/-- Whether the binding cycle of a pod is open after some calls with their answers: a stage of it
was called, and neither this call nor one since then closed it. -/
def Open (history : List (StageCall × StageAnswer)) (x : String) : Prop :=
  ∃ before e later, history = before ++ e :: later ∧ Opens x e ∧ ∀ f ∈ e :: later, ¬ Closes x f

theorem not_open_nil (x : String) : ¬ Open [] x := by
  rintro ⟨before, e, later, h, -⟩
  simp at h

/-- A binding cycle is open after a call if the call does not close it, and opens it or finds it
open. -/
theorem open_snoc {history : List (StageCall × StageAnswer)} {e : StageCall × StageAnswer}
    {x : String} :
    Open (history ++ [e]) x ↔ ¬ Closes x e ∧ (Opens x e ∨ Open history x) := by
  constructor
  · rintro ⟨before, f, later, h, hopens, hstays⟩
    rcases List.eq_nil_or_concat later with rfl | ⟨later, last, rfl⟩
    · obtain ⟨rfl, hlast⟩ := List.append_inj' h rfl
      obtain rfl := List.singleton_inj.1 hlast
      exact ⟨hstays e List.mem_cons_self, .inl hopens⟩
    · have hsplit : history ++ [e] = (before ++ f :: later) ++ [last] := by simpa using h
      obtain ⟨hbefore, hlast⟩ := List.append_inj' hsplit rfl
      obtain rfl := List.singleton_inj.1 hlast
      refine ⟨hstays e (by simp), .inr ⟨before, f, later, hbefore, hopens, ?_⟩⟩
      intro g hg
      have hlater : g ∈ (f :: later) ++ [e] := List.mem_append_left _ hg
      exact hstays g (by simpa using hlater)
  · rintro ⟨hstays, hopens | ⟨before, f, later, rfl, hopens, hbefore⟩⟩
    · refine ⟨history, e, [], rfl, hopens, ?_⟩
      intro g hg
      obtain rfl := List.mem_singleton.1 hg
      exact hstays
    · refine ⟨before, f, later ++ [e], by simp, hopens, ?_⟩
      intro g hg
      rcases List.mem_append.1 (show g ∈ (f :: later) ++ [e] from hg) with hg | hg
      · exact hbefore g hg
      · obtain rfl := List.mem_singleton.1 hg
        exact hstays

instance (x : String) (e : StageCall × StageAnswer) : Decidable (Opens x e) := by
  unfold Opens
  infer_instance

instance (x : String) (e : StageCall × StageAnswer) : Decidable (Closes x e) := by
  unfold Closes
  infer_instance

/-- The pods with an open binding cycle after one more call. -/
def track (opened : List String) (e : StageCall × StageAnswer) : List String :=
  match e.1.key? with
  | none => opened
  | some k =>
    if Closes k.2.uid e then opened.filter (· ≠ k.2.uid)
    else if Opens k.2.uid e then opened.insert k.2.uid
    else opened

/-- The pods with an open binding cycle. -/
def openPods (history : List (StageCall × StageAnswer)) : List String := history.foldl track []

theorem mem_track {opened : List String} {e : StageCall × StageAnswer} {x : String} :
    x ∈ track opened e ↔ ¬ Closes x e ∧ (Opens x e ∨ x ∈ opened) := by
  unfold track
  cases hk : e.1.key? with
  | none => simp [Closes, Opens, hk]
  | some k =>
    by_cases hx : k.2.uid = x
    · subst hx
      dsimp only
      by_cases hc : Closes k.2.uid e
      · simp [hc]
      · by_cases ho : Opens k.2.uid e <;> simp [hc, ho]
    · have hclose : ¬ Closes x e := by simp [Closes, hk, hx]
      have hopen : ¬ Opens x e := by simp [Opens, hk, hx]
      dsimp only
      split
      · simp [hclose, hopen, Ne.symm hx]
      · split <;> simp [hclose, hopen, Ne.symm hx]

/-- A call that closes nothing leaves open what is open. -/
theorem subset_track {opened : List String} {e : StageCall × StageAnswer}
    (h : ∀ x, ¬ Closes x e) : opened ⊆ track opened e :=
  fun x hx => mem_track.2 ⟨h x, .inr hx⟩

theorem nodup_track {opened : List String} (h : opened.Nodup) (e : StageCall × StageAnswer) :
    (track opened e).Nodup := by
  unfold track
  split
  · exact h
  · split
    · exact h.filter _
    · split
      · exact h.insert
      · exact h

theorem openPods_snoc (history : List (StageCall × StageAnswer)) (e : StageCall × StageAnswer) :
    openPods (history ++ [e]) = track (openPods history) e := by
  unfold openPods
  rw [List.foldl_append]
  rfl

theorem mem_openPods {history : List (StageCall × StageAnswer)} {x : String} :
    x ∈ openPods history ↔ Open history x := by
  induction history using List.reverseRecOn with
  | nil => simp [openPods, not_open_nil]
  | append_singleton history e ih => rw [openPods_snoc, mem_track, ih, open_snoc]

theorem nodup_openPods (history : List (StageCall × StageAnswer)) : (openPods history).Nodup := by
  induction history using List.reverseRecOn with
  | nil => exact List.nodup_nil
  | append_singleton history e ih =>
    rw [openPods_snoc]
    exact nodup_track ih e

end StageCall

namespace Plugin

/-! ## Calls on a plugin -/

/-- The pods that a call may hold guests for besides: its own, if it is of the binding cycle. -/
def within (opened : List String) (c : StageCall) (pod : Pod) : List String :=
  if c.stage.binds then pod.uid :: opened else opened

theorem length_within (opened : List String) (c : StageCall) (pod : Pod) :
    (within opened c pod).length ≤ opened.length + 1 := by
  unfold within
  split <;> simp

theorem mem_within {opened : List String} {c : StageCall} {pod : Pod} {x : String} :
    x ∈ within opened c pod ↔ x ∈ opened ∨ c.stage.binds ∧ x = pod.uid := by
  unfold within
  by_cases hb : c.stage.binds
  · simp [hb, or_comm]
  · simp [hb]

theorem within_of_deals {p : Plugin} {c : StageCall} {cycle : UInt64} {pod : Pod}
    (htentative : c.stage = .reserve → p.reserveRetention = .tentative)
    {op : Pool.Op Guest CreationError} (hop : p.Deals c cycle pod op) (opened : List String) :
    op.Within (within opened c pod) := by
  cases hop with
  | schedule | touch => trivial
  | retain => rfl
  | reserve hs => exact htentative hs
  | claim hs | detach hs => exact mem_within.2 (.inr ⟨hs, rfl⟩)

/-- A call that retains nothing firmly backs every entry, and makes no more guests than there may be
entries and one. -/
theorem bounds_of_call {p : Plugin} (hp : p.pool.Reachable CreationError) {opened : List String}
    (h : p.pool.Backed opened) {c : StageCall} {cycle : UInt64} {pod : Pod}
    (hk : c.key? = some (cycle, pod))
    (htentative : c.stage = .reserve → p.reserveRetention = .tentative) :
    (p.run c).2.pool.Backed
        (if p.Ends c then (within opened c pod).filter (· ≠ pod.uid) else within opened c pod) ∧
      (p.run c).2.pool.created ≤
        max p.pool.created (Pool.parkedLimit + opened.length + 2) := by
  obtain ⟨ops, hops, hpool⟩ := pool_run hp hk
  have hsub : opened ⊆ within opened c pod := fun x hx => mem_within.2 (.inl hx)
  have hlen := length_within opened c pod
  obtain ⟨hback, hmade⟩ := Pool.bounds_of_run hp (h.mono hsub) fun op hop =>
    within_of_deals htentative (hops op hop) opened
  rw [hpool]
  split
  · refine ⟨hback.release pod.uid, ?_⟩
    rw [Pool.created_release]
    omega
  · exact ⟨hback, by omega⟩

/-- A call of the scheduling cycle that retains nothing leaves the pool without entries. -/
theorem bare_of_call {p : Plugin} (hp : p.pool.Reachable CreationError) (h : p.pool.Bare)
    {c : StageCall} {cycle : UInt64} {pod : Pod} (hk : c.key? = some (cycle, pod))
    (hs : c.stage.schedules) (hreserve : c.stage ≠ .reserve)
    (hretains : ¬ p.retainsWhileScheduling) :
    (p.run c).2.pool.Bare ∧ (p.run c).2.pool.created ≤ max p.pool.created 1 := by
  obtain ⟨ops, hops, hpool⟩ := pool_run hp hk
  rw [hpool, if_neg (not_ends_of_schedules hs)]
  refine Pool.bare_of_run hp h fun op hop => ?_
  cases hops op hop with
  | schedule | touch => trivial
  | retain hr => exact absurd hr hretains
  | reserve hs => exact absurd hs hreserve
  | claim hb | detach hb => exact absurd hs (not_schedules_of_binds hb)

end Plugin

namespace Interfaces

/-! ## Calls through the interfaces -/

/-- A call with its answer, if it was answered. -/
def answered (i : Interfaces) (c : StageCall) : List (StageCall × StageAnswer) :=
  ((i.run c).1.map fun a => (c, a)).toList

/-- The answered calls with their answers. -/
def history (i : Interfaces) : List StageCall → List (StageCall × StageAnswer)
  | [] => []
  | c :: calls => i.answered c ++ (i.run c).2.history calls

theorem history_snoc (i : Interfaces) (calls : List StageCall) (c : StageCall) :
    i.history (calls ++ [c]) = i.history calls ++ (i.after calls).answered c := by
  induction calls generalizing i with
  | nil => exact List.append_nil _
  | cons first calls ih =>
    have hrest := ih (i.run first).2
    simp only [List.cons_append, history, hrest, List.append_assoc]
    rfl

/-- What every call keeps, all calls keep, together with their answers. -/
theorem after_induction {I : Interfaces → List (StageCall × StageAnswer) → Prop} {i : Interfaces}
    (h : I i []) (hstep : ∀ calls c, I (i.after calls) (i.history calls) →
      I ((i.after calls).run c).2 (i.history calls ++ (i.after calls).answered c))
    (calls : List StageCall) : I (i.after calls) (i.history calls) := by
  induction calls using List.reverseRecOn with
  | nil => exact h
  | append_singleton calls c ih =>
    rw [after_append, history_snoc]
    exact hstep calls c ih

section

variable {i : Interfaces} {c : StageCall}

theorem reaches_of_key (hr : c = .enqueue ∨ i.offer.reaches c.stage) {k : UInt64 × Pod}
    (hk : c.key? = some k) : i.offer.reaches c.stage := by
  refine hr.resolve_left ?_
  rintro rfl
  cases hk

theorem stage_of_binds (h : c.stage.binds) :
    c.stage ∈ Group.bind.members ∨ c.stage = .unreserve := by
  cases hstage : c.stage with
  | prebind | bind | postbind => exact .inl (by decide)
  | unreserve => exact .inr rfl
  | _ =>
    rw [hstage] at h
    cases h

/-- A stage of a group other than that of `filter` is on offer only with the anchor. -/
theorem has_anchor (hoffer : i.plugin.exports.Offers i.offer)
    (hr : i.offer.reaches c.stage) {g : Group} (hc : c.stage ∈ g.members) (hg : g ≠ .filter) :
    i.plugin.exports.has g.anchor := hoffer.has_of_reaches hr hc (.inr hg)

theorem tentative_of_reserve (hoffer : i.plugin.exports.Offers i.offer)
    (hpair : ¬ (i.plugin.exports.has .reserve ∧ i.plugin.exports.has .bind))
    (hr : i.offer.reaches c.stage) (hc : c.stage = .reserve) :
    i.plugin.reserveRetention = .tentative := by
  have hreserve : i.plugin.exports.has .reserve :=
    has_anchor (g := .reserve) hoffer hr (by rw [hc]; decide) (by decide)
  unfold Plugin.reserveRetention
  rw [if_neg fun hbind => hpair ⟨hreserve, hbind⟩]

/-- A stage that fails ends the cycle of its pod, as no unreserve is to come. -/
theorem not_closes_of_not_ends (hoffer : i.plugin.exports.Offers i.offer)
    (hpair : ¬ (i.plugin.exports.has .reserve ∧ i.plugin.exports.has .bind))
    (hr : i.offer.reaches c.stage) (hends : ¬ i.plugin.Ends c) (x : String) :
    ¬ StageCall.Closes x (c, (i.plugin.run c).1) := by
  rintro ⟨hlast | ⟨hstage, hfailed⟩, -⟩
  · exact hends (.inr (.inl hlast))
  · have hbind : i.plugin.exports.has .bind :=
      has_anchor (g := .bind) hoffer hr (by rcases hstage with h | h <;> rw [h] <;> decide)
        (by decide)
    exact hends (.inr (.inr ⟨hstage, hfailed, fun h => hpair ⟨h, hbind⟩⟩))

/-- What a call leaves besides the parked entries is of open binding cycles. -/
theorem track_of_call (hoffer : i.plugin.exports.Offers i.offer)
    (hpair : ¬ (i.plugin.exports.has .reserve ∧ i.plugin.exports.has .bind))
    (hr : i.offer.reaches c.stage) {cycle : UInt64} {pod : Pod} (hk : c.key? = some (cycle, pod))
    (opened : List String) :
    (if i.plugin.Ends c then (Plugin.within opened c pod).filter (· ≠ pod.uid)
      else Plugin.within opened c pod) ⊆ StageCall.track opened (c, (i.plugin.run c).1) := by
  intro x hx
  rw [StageCall.mem_track]
  split at hx
  · obtain ⟨hm, hne⟩ := Pool.mem_filter_ne.1 hx
    have hopened : x ∈ opened := (Plugin.mem_within.1 hm).resolve_right fun h => hne h.2
    refine ⟨fun hcloses => ?_, .inr hopened⟩
    have huid := hcloses.2
    rw [hk] at huid
    exact hne (Option.some.inj huid).symm
  · rename_i hends
    refine ⟨not_closes_of_not_ends hoffer hpair hr hends x, ?_⟩
    rcases Plugin.mem_within.1 hx with hopened | ⟨hb, rfl⟩
    · exact .inr hopened
    · have hstage : c.stage = .prebind ∨ c.stage = .bind := by
        have hlast : c.stage ≠ .unreserve ∧ c.stage ≠ .postbind :=
          ⟨fun h => hends (.inl h), fun h => hends (.inr (.inl h))⟩
        cases hstage : c.stage <;> simp_all [Stage.binds]
      exact .inl ⟨hstage, by rw [hk]; rfl⟩

/-- A call that is answered leaves every entry parked or of an open binding cycle. -/
theorem backed_of_call (hp : i.plugin.pool.Reachable CreationError)
    (hoffer : i.plugin.exports.Offers i.offer)
    (hpair : ¬ (i.plugin.exports.has .reserve ∧ i.plugin.exports.has .bind))
    {history : List (StageCall × StageAnswer)}
    (h : i.plugin.pool.Backed (StageCall.openPods history)) :
    (i.run c).2.plugin.pool.Backed (StageCall.openPods (history ++ i.answered c)) := by
  unfold answered
  cases i.run_cases c with
  | absent _ _ hrun =>
    rw [hrun]
    simpa using h
  | admitted _ hc hrun =>
    have hstays : ∀ x, ¬ StageCall.Closes x (c, .status .success) := by
      simp [StageCall.Closes, hc]
    rw [hrun]
    dsimp only [Option.map_some, Option.toList_some]
    rw [StageCall.openPods_snoc]
    exact h.mono (StageCall.subset_track hstays)
  | passed hr _ hrun =>
    rw [hrun]
    dsimp only [Option.map_some, Option.toList_some]
    rw [StageCall.openPods_snoc]
    cases hk : c.key? with
    | none =>
      have hstays : ∀ x, ¬ StageCall.Closes x (c, (i.plugin.run c).1) := by
        simp [StageCall.Closes, hk]
      rw [Plugin.run_of_no_key hk]
      exact h.mono (StageCall.subset_track hstays)
    | some k =>
      have hreach := reaches_of_key hr hk
      have hback := (Plugin.bounds_of_call hp h hk (tentative_of_reserve hoffer hpair hreach)).1
      exact hback.mono (track_of_call hoffer hpair hreach hk _)

/-- What a call for a pod keeps on the plugin, it keeps through the interfaces, which may answer it
themselves. -/
theorem plugin_of_run {P : Plugin → Prop} (h : P i.plugin)
    (hcall : ∀ k, c.key? = some k → i.offer.reaches c.stage → P (i.plugin.run c).2) :
    P (i.run c).2.plugin := by
  cases i.run_cases c with
  | absent _ _ hrun | admitted _ _ hrun =>
    rw [hrun]
    exact h
  | passed hr _ hrun =>
    rw [hrun]
    cases hk : c.key? with
    | none =>
      rw [Plugin.run_of_no_key hk]
      exact h
    | some k => exact hcall k hk (reaches_of_key hr hk)

/-- Without `bind` every entry is parked once a call has been answered. -/
theorem backed_without_bind (hp : i.plugin.pool.Reachable CreationError)
    (hoffer : i.plugin.exports.Offers i.offer) (hbind : ¬ i.plugin.exports.has .bind)
    (h : i.plugin.pool.Backed []) :
    (i.run c).2.plugin.pool.Backed [] ∧
      (i.run c).2.plugin.pool.created ≤ max i.plugin.pool.created (Pool.parkedLimit + 2) := by
  refine plugin_of_run (P := fun p => p.pool.Backed [] ∧
    p.pool.created ≤ max i.plugin.pool.created (Pool.parkedLimit + 2))
    ⟨h, Nat.le_max_left _ _⟩ fun k hk hreach => ?_
  have htentative := tentative_of_reserve hoffer (fun hboth => hbind hboth.2) hreach
  obtain ⟨hback, hmade⟩ := Plugin.bounds_of_call hp h hk htentative
  refine ⟨hback.mono ?_, hmade⟩
  unfold Plugin.within
  by_cases hb : c.stage.binds
  · have hlast : c.stage = .unreserve :=
      (stage_of_binds hb).resolve_left fun hm => hbind (has_anchor hoffer hreach hm (by decide))
    have hends : i.plugin.Ends c := .inl hlast
    simp [hends]
  · simp [hb]

/-- Without `reserve` and `bind` there are no entries. -/
theorem bare_of_call (hp : i.plugin.pool.Reachable CreationError)
    (hoffer : i.plugin.exports.Offers i.offer)
    (hreserve : ¬ i.plugin.exports.has .reserve) (hbind : ¬ i.plugin.exports.has .bind)
    (h : i.plugin.pool.Bare) :
    (i.run c).2.plugin.pool.Bare ∧
      (i.run c).2.plugin.pool.created ≤ max i.plugin.pool.created 1 := by
  refine plugin_of_run (P := fun p => p.pool.Bare ∧
    p.pool.created ≤ max i.plugin.pool.created 1) ⟨h, Nat.le_max_left _ _⟩ fun k hk hreach => ?_
  have hnot : c.stage ∉ Group.reserve.members := fun hm =>
    hreserve (has_anchor hoffer hreach hm (by decide))
  have hschedules : c.stage.schedules := by
    refine (Plugin.schedules_or_binds (by simp [hk])).resolve_right fun hb => ?_
    rcases stage_of_binds hb with hm | hlast
    · exact hbind (has_anchor hoffer hreach hm (by decide))
    · exact hnot (by rw [hlast]; decide)
  refine Plugin.bare_of_call hp h hk hschedules ?_ ?_
  · intro hstage
    exact hnot (by rw [hstage]; decide)
  · simp [Plugin.retainsWhileScheduling, hbind]

end

/-! ## Whole runs -/

section

variable {module : Prepared} {config : Config} {i : Interfaces}

theorem exports_after (h : (load module config).1 = .ok i) (calls : List StageCall) :
    (i.after calls).plugin.exports = module.exports :=
  congrArg Prepared.exports (reachable_after h calls).2.1

theorem offers_after (h : (load module config).1 = .ok i) (calls : List StageCall) :
    (i.after calls).plugin.exports.Offers (i.after calls).offer := by
  rw [exports_after h calls]
  exact (reachable_after h calls).2.2

theorem bare_of_load (h : (load module config).1 = .ok i) :
    i.plugin.pool.Bare ∧ i.plugin.pool.created = 1 := by
  obtain ⟨g, hpool⟩ := pool_of_load h
  rw [hpool]
  exact ⟨⟨rfl, fun s hs => by cases hs⟩, rfl⟩

/-- After any calls every entry is parked or of a pod whose binding cycle is open. -/
theorem backed_after (h : (load module config).1 = .ok i)
    (hpair : ¬ (module.exports.has .reserve ∧ module.exports.has .bind))
    (calls : List StageCall) :
    (i.after calls).plugin.pool.Backed (StageCall.openPods (i.history calls)) := by
  refine after_induction (I := fun i history =>
    i.plugin.pool.Backed (StageCall.openPods history)) ?_ (fun calls c hback => ?_) calls
  · exact (bare_of_load h).1.backed _
  · rw [← exports_after h calls] at hpair
    exact backed_of_call (reachable_after h calls).1.pool (offers_after h calls) hpair hback

theorem backed_after_without_bind (h : (load module config).1 = .ok i)
    (hbind : ¬ module.exports.has .bind) (calls : List StageCall) :
    (i.after calls).plugin.pool.Backed [] ∧
      (i.after calls).plugin.pool.created ≤ Pool.parkedLimit + 2 := by
  refine after_induction (I := fun i _ =>
    i.plugin.pool.Backed [] ∧ i.plugin.pool.created ≤ Pool.parkedLimit + 2)
    ?_ (fun calls c hdone => ?_) calls
  · obtain ⟨hbare, hone⟩ := bare_of_load h
    exact ⟨hbare.backed [], by omega⟩
  · obtain ⟨hback, hmade⟩ := hdone
    rw [← exports_after h calls] at hbind
    obtain ⟨hback', hmade'⟩ := backed_without_bind (c := c) (reachable_after h calls).1.pool
      (offers_after h calls) hbind hback
    exact ⟨hback', by omega⟩

theorem bare_after (h : (load module config).1 = .ok i) (hreserve : ¬ module.exports.has .reserve)
    (hbind : ¬ module.exports.has .bind) (calls : List StageCall) :
    (i.after calls).plugin.pool.Bare ∧ (i.after calls).plugin.pool.created ≤ 1 := by
  refine after_induction (I := fun i _ => i.plugin.pool.Bare ∧ i.plugin.pool.created ≤ 1)
    ?_ (fun calls c hdone => ?_) calls
  · obtain ⟨hbare, hone⟩ := bare_of_load h
    exact ⟨hbare, by omega⟩
  · obtain ⟨hbare, hmade⟩ := hdone
    rw [← exports_after h calls] at hreserve hbind
    obtain ⟨hbare', hmade'⟩ := bare_of_call (c := c) (reachable_after h calls).1.pool
      (offers_after h calls) hreserve hbind hbare
    exact ⟨hbare', by omega⟩

/-- The first guest is never given up. -/
theorem created_pos (h : (load module config).1 = .ok i) (calls : List StageCall) :
    1 ≤ (i.after calls).plugin.pool.created := by
  have hi : i.plugin.Reachable := (reachable_after h []).1
  obtain ⟨passed, -, hpassed⟩ := i.plugin_after calls
  obtain ⟨ops, hops⟩ := (hi.grows_after passed).pool
  have hmade := Pool.created_le_run i.plugin.pool ops
  rw [(bare_of_load h).2] at hmade
  rw [hpassed, hops]
  exact hmade

/-- The guests that a plugin keeps for binding cycles, if it does not export both `reserve` and
`bind`. However its stages are called, there are at most as many binding entries as may be parked,
and one for each pod whose binding cycle is open. Without `bind` there is none for the latter, and
the guests ever made are at most two more; without `reserve` as well there is no entry and just one
guest. -/
theorem bounded_parking (h : (load module config).1 = .ok i)
    (hpair : ¬ (module.exports.has .reserve ∧ module.exports.has .bind))
    (calls : List StageCall) :
    let pool := (i.after calls).plugin.pool
    (∃ opened : List String, opened.Nodup ∧
      (∀ x, x ∈ opened ↔ StageCall.Open (i.history calls) x) ∧
      pool.binding.length ≤ Pool.parkedLimit + opened.length) ∧
    (¬ module.exports.has .bind →
      pool.binding.length ≤ Pool.parkedLimit ∧ pool.created ≤ Pool.parkedLimit + 2) ∧
    (¬ module.exports.has .reserve → ¬ module.exports.has .bind →
      pool.created = 1 ∧ pool.binding = []) := by
  intro pool
  have hp : pool.Reachable CreationError := (reachable_after h calls).1.pool
  refine ⟨?_, ?_, ?_⟩
  · have hback := backed_after h hpair calls
    exact ⟨_, StageCall.nodup_openPods _, fun x => StageCall.mem_openPods, Pool.binding_le hp hback⟩
  · intro hbind
    obtain ⟨hback, hmade⟩ := backed_after_without_bind h hbind calls
    exact ⟨Pool.binding_le hp hback, hmade⟩
  · intro hreserve hbind
    obtain ⟨hbare, hmade⟩ := bare_after h hreserve hbind calls
    exact ⟨Nat.le_antisymm hmade (created_pos h calls), hbare.binding⟩

end

/-- A module that exports some stages, which all return at once. -/
def plainModule (stages : List Stage) : Prepared where
  name := "plain"
  digest := ""
  imports := .empty
  exports := .ofList stages
  hasInitializer := false
  program := { exports := stages.map fun s => ⟨s.exportName, .function s.signature .leave⟩ }

/-- A pod that was permitted and then bound keeps its guest beside those that may be parked; a guest
that only filters is the only one. -/
theorem bound_pod_is_open :
    let calls := [.permit 1 { metadata := { uid := "p" } } "node",
      .permit 2 { metadata := { uid := "q" } } "node", .bind 1 { metadata := { uid := "p" } } "node"]
    let passes := [.filter 1 { metadata := { uid := "p" } } default,
      .filter 2 { metadata := { uid := "q" } } default]
    (∃ i, (load (plainModule [.permit, .bind]) default).1 = .ok i ∧ ∃ opened : List String,
      (∀ x, x ∈ opened ↔ StageCall.Open (i.history calls) x) ∧ "p" ∈ opened ∧
      (i.after calls).plugin.pool.binding.length ≤ 8 + opened.length) ∧
    ∃ i, (load (plainModule [.filter]) default).1 = .ok i ∧
      (i.after passes).plugin.pool.created = 1 ∧ (i.after passes).plugin.pool.binding = [] := by
  intro calls passes
  constructor
  · have hload : (load (plainModule [.permit, .bind]) default).1 = .ok _ := rfl
    obtain ⟨⟨opened, -, hopened, hle⟩, -, -⟩ := bounded_parking hload (by decide) calls
    refine ⟨_, hload, opened, hopened, (hopened "p").2 (StageCall.mem_openPods.1 ?_), hle⟩
    decide +kernel
  · have hload : (load (plainModule [.filter]) default).1 = .ok _ := rfl
    obtain ⟨-, -, hbare⟩ := bounded_parking hload (by decide) passes
    exact ⟨_, hload, hbare (by decide) (by decide)⟩

end Interfaces
end StageHost

import StageHost.Proofs.Plugin.Operations
import StageHost.Proofs.Pool.Departure
/-
  The end of a cycle leaves nothing behind.
  A call that ends the cycle of its pod releases the pod, whatever came of the guest. After that the
  pool has nothing of the pod (`Pool.Gone`), and calls for other pods do not bring it back as long
  as no cycle is of two pods (`gone_run`). `nothing_left` says so for whole runs, of the plugin and
  through its interfaces.
-/
namespace StageHost

namespace StageCall

/-- The cycles and pods of some calls. -/
def keys (calls : List StageCall) : List (UInt64 × Pod) := calls.filterMap key?

/-- Whether each cycle in some calls is of one pod. -/
def OnePodEach (calls : List StageCall) : Prop :=
  ∀ k ∈ keys calls, ∀ l ∈ keys calls, k.1 = l.1 → k.2.uid = l.2.uid

instance (calls : List StageCall) : Decidable (OnePodEach calls) :=
  inferInstanceAs (Decidable (∀ k ∈ keys calls, ∀ l ∈ keys calls, k.1 = l.1 → k.2.uid = l.2.uid))

/-- Whether a cycle in some calls is of a pod. -/
def Pairs (calls : List StageCall) (cycle : UInt64) (uid : String) : Prop :=
  ∃ k ∈ keys calls, k.1 = cycle ∧ k.2.uid = uid

theorem mem_keys {calls : List StageCall} {c : StageCall} (hc : c ∈ calls) {k : UInt64 × Pod}
    (hk : c.key? = some k) : k ∈ keys calls := List.mem_filterMap.2 ⟨c, hc, hk⟩

theorem keys_of_sublist {calls part : List StageCall} (h : part.Sublist calls) :
    (keys part).Sublist (keys calls) := h.filterMap key?

theorem OnePodEach.of_sublist {calls part : List StageCall} (h : OnePodEach calls)
    (hsub : part.Sublist calls) : OnePodEach part := by
  have hkeys := keys_of_sublist hsub
  intro k hk l hl
  exact h k (hkeys.subset hk) l (hkeys.subset hl)

theorem OnePodEach.pairs {calls : List StageCall} (h : OnePodEach calls) {cycle : UInt64}
    {x y : String} (hx : Pairs calls cycle x) (hy : Pairs calls cycle y) : x = y := by
  obtain ⟨k, hk, hcycle, rfl⟩ := hx
  obtain ⟨l, hl, rfl, rfl⟩ := hy
  exact h k hk l hl hcycle

end StageCall

namespace Plugin

/-- The pool as far as the past of the calls goes that lead to it: its slot is of a cycle and a pod
in them. -/
structure Follows (p : Plugin) (calls : List StageCall) : Prop where
  reachable : p.pool.Reachable CreationError
  slots : p.pool.Slots (StageCall.Pairs calls)

/-- The operations of a call schedule only its cycle and pod. -/
theorem pairs_of_deals {p : Plugin} {calls : List StageCall} {c : StageCall} {cycle : UInt64}
    {pod : Pod} (hc : c ∈ calls) (hk : c.key? = some (cycle, pod))
    {op : Pool.Op Guest CreationError} (hop : p.Deals c cycle pod op) :
    ∀ create cycle' x, op = .schedule create cycle' x → StageCall.Pairs calls cycle' x := by
  rintro create cycle' x rfl
  cases hop
  exact ⟨_, StageCall.mem_keys hc hk, rfl, rfl⟩

theorem Follows.run {p : Plugin} {calls : List StageCall} (h : p.Follows calls) {c : StageCall}
    (hc : c ∈ calls) : (p.run c).2.Follows calls := by
  refine ⟨(grows_run h.reachable c).reachable h.reachable, ?_⟩
  cases hk : c.key? with
  | none =>
    rw [run_of_no_key hk]
    exact h.slots
  | some k =>
    obtain ⟨ops, hops, hpool⟩ := pool_run h.reachable hk
    have hdone : (p.pool.run ops).Slots (StageCall.Pairs calls) :=
      Pool.run_induction_of (C := p.Deals c k.1 k.2)
        (fun q op hop hq => (Pool.steps_step q op).slots hq (pairs_of_deals hc hk hop)) h.slots hops
    rw [hpool]
    split
    · exact (Pool.steps_step (ε := CreationError) _ (.release k.2.uid)).slots hdone
        fun create cycle x hop => by cases hop
    · exact hdone

theorem Follows.after {p : Plugin} {calls : List StageCall} (h : p.Follows calls)
    {part : List StageCall} (hpart : ∀ c ∈ part, c ∈ calls) : (p.after part).Follows calls := by
  induction part generalizing p with
  | nil => exact h
  | cons c rest ih =>
    have hfirst := h.run (hpart c List.mem_cons_self)
    exact ih hfirst fun d hd => hpart d (List.mem_cons_of_mem _ hd)

/-- A call that ends the cycle of its pod leaves nothing of it. -/
theorem gone_of_ends {p : Plugin} (hp : p.pool.Reachable CreationError) {c : StageCall}
    {cycle : UInt64} {pod : Pod} (hk : c.key? = some (cycle, pod)) (he : p.Ends c) :
    (p.run c).2.pool.Gone pod.uid := by
  obtain ⟨ops, -, hpool⟩ := pool_run hp hk
  rw [hpool, if_pos he]
  exact Pool.gone_release _ _

/-- A call for another pod brings nothing back. -/
theorem gone_run {p : Plugin} {calls : List StageCall} (h : p.Follows calls)
    (hone : StageCall.OnePodEach calls) {x : String} (hgone : p.pool.Gone x) {c : StageCall}
    (hc : c ∈ calls) (hx : ∀ k, c.key? = some k → k.2.uid ≠ x) :
    (p.run c).2.pool.Gone x := by
  cases hk : c.key? with
  | none =>
    rw [run_of_no_key hk]
    exact hgone
  | some k =>
    have hne := hx k hk
    have hpair : StageCall.Pairs calls k.1 k.2.uid := ⟨k, StageCall.mem_keys hc hk, rfl, rfl⟩
    obtain ⟨ops, hops, hpool⟩ := pool_run h.reachable hk
    -- the slot may be of the pod that is gone, but then it is of another cycle
    have halone : ∀ q : Pool Guest, q.Slots (StageCall.Pairs calls) → ∀ op,
        p.Deals c k.1 k.2 op → q.LeavesAlone x op := by
      intro q hslots op hop
      constructor
      · cases hop <;> simp [Pool.Op.pod?, hne]
      · rintro cycle r rfl s hs rfl hcycle
        have hsame : cycle = k.1 := by cases hop <;> rfl
        have hslot := hslots s hs
        rw [hcycle, hsame] at hslot
        exact hne (hone.pairs hpair hslot)
    have hdone := Pool.run_induction_of (C := p.Deals c k.1 k.2)
      (I := fun q => q.Queued ∧ q.Slots (StageCall.Pairs calls) ∧ q.Gone x)
      (fun q op hop ⟨hqueue, hslots, hq⟩ =>
        have hstep := Pool.steps_step q op
        ⟨hstep.queued hqueue, hstep.slots hslots (pairs_of_deals hc hk hop),
          hstep.gone hqueue hq (halone q hslots op hop)⟩)
      ⟨h.reachable.queued, h.slots, hgone⟩ hops
    rw [hpool]
    split
    · have hname : (Pool.Op.release k.2.uid : Pool.Op Guest CreationError).pod? ≠ some x := by
        simpa [Pool.Op.pod?] using hne
      exact (Pool.steps_step (ε := CreationError) _ (.release k.2.uid)).gone hdone.1 hdone.2.2
        ⟨hname, fun cycle r hop => by cases hop⟩
    · exact hdone.2.2

theorem gone_after {p : Plugin} {calls : List StageCall} (h : p.Follows calls)
    (hone : StageCall.OnePodEach calls) {x : String} (hgone : p.pool.Gone x)
    {more : List StageCall} (hmore : ∀ c ∈ more, c ∈ calls)
    (hx : ∀ k ∈ StageCall.keys more, k.2.uid ≠ x) : (p.after more).pool.Gone x := by
  induction more generalizing p with
  | nil => exact hgone
  | cons c rest ih =>
    have hc := hmore c List.mem_cons_self
    have hfirst := gone_run h hone hgone hc fun k hk =>
      hx k (StageCall.mem_keys List.mem_cons_self hk)
    refine ih (h.run hc) hfirst (fun d hd => hmore d (List.mem_cons_of_mem _ hd)) ?_
    intro k hk
    obtain ⟨d, hd, hdk⟩ := List.mem_filterMap.1 hk
    exact hx k (StageCall.mem_keys (List.mem_cons_of_mem _ hd) hdk)

/-- A plugin that no cycle was scheduled on yet follows any calls. -/
theorem follows_of_idle {p : Plugin} (hp : p.pool.Reachable CreationError)
    (hslot : p.pool.slot = none) (calls : List StageCall) : p.Follows calls :=
  ⟨hp, fun s hs => by rw [hslot] at hs; cases hs⟩

theorem gone_of_ended {p : Plugin} (hp : p.pool.Reachable CreationError)
    (hslot : p.pool.slot = none) {before more : List StageCall} {c : StageCall} {cycle : UInt64}
    {pod : Pod} (hk : c.key? = some (cycle, pod)) (he : (p.after before).Ends c)
    (hone : StageCall.OnePodEach (before ++ c :: more))
    (hx : ∀ k ∈ StageCall.keys more, k.2.uid ≠ pod.uid) :
    (p.after (before ++ c :: more)).pool.Gone pod.uid := by
  have hstart := follows_of_idle hp hslot (before ++ c :: more)
  have hbefore : (p.after before).Follows (before ++ c :: more) :=
    hstart.after fun d hd => List.mem_append_left _ hd
  have hc : c ∈ before ++ c :: more := by simp
  rw [after_append]
  exact gone_after (hbefore.run hc) hone (gone_of_ends hbefore.reachable hk he)
    (fun d hd => by simp [hd]) hx

end Plugin

namespace Interfaces

/-- A call that ends a cycle is made on the plugin. -/
theorem run_of_ends {i : Interfaces} {c : StageCall} {a : StageAnswer}
    (h : (i.run c).1 = some a) (he : i.plugin.Ends c) :
    (i.run c).2.plugin = (i.plugin.run c).2 := by
  cases i.run_cases c with
  | absent _ _ hrun =>
    rw [hrun] at h
    cases h
  | admitted _ hc _ => simp [Plugin.Ends, hc] at he
  | passed _ _ hrun => rw [hrun]

theorem gone_of_ended {i : Interfaces} (hp : i.plugin.pool.Reachable CreationError)
    (hslot : i.plugin.pool.slot = none) {before more : List StageCall} {c : StageCall}
    {a : StageAnswer} {cycle : UInt64} {pod : Pod} (hk : c.key? = some (cycle, pod))
    (ha : ((i.after before).run c).1 = some a) (he : (i.after before).plugin.Ends c)
    (hone : StageCall.OnePodEach (before ++ c :: more))
    (hx : ∀ k ∈ StageCall.keys more, k.2.uid ≠ pod.uid) :
    (i.after (before ++ c :: more)).plugin.pool.Gone pod.uid := by
  obtain ⟨past, hpast, hbefore⟩ := i.plugin_after before
  obtain ⟨rest, hrest, hmore⟩ := ((i.after before).run c).2.plugin_after more
  rw [run_of_ends ha he, hbefore] at hmore
  rw [hbefore] at he
  have hsub : (past ++ c :: rest).Sublist (before ++ c :: more) :=
    hpast.append (hrest.cons_cons c)
  have hgone := Plugin.gone_of_ended hp hslot hk he (hone.of_sublist hsub) fun k hk =>
    hx k ((StageCall.keys_of_sublist hrest).subset hk)
  have hplugin : (i.after (before ++ c :: more)).plugin =
      i.plugin.after (past ++ c :: rest) := by
    rw [after_append, Plugin.after_append]
    exact hmore
  rw [hplugin]
  exact hgone

end Interfaces

namespace Plugin

/-- Once a call has ended the cycle of its pod, there is no binding entry and no place in the queue
for the pod, and it gets neither as long as no stage is called for it, whatever is called for other
pods: in a plugin, through the interfaces of one, and in any pool after a release, whether or not
guests can be made then. Each cycle is of one pod. -/
theorem nothing_left {module : Prepared} {config : Config} {before more : List StageCall}
    {c : StageCall} {cycle : UInt64} {pod : Pod} (hc : c.key? = some (cycle, pod))
    (hone : StageCall.OnePodEach (before ++ c :: more))
    (hmore : ∀ k ∈ StageCall.keys more, k.2.uid ≠ pod.uid) :
    (∀ p, start module config = (.ok (), p) → (p.after before).Ends c →
      let pool := (p.after (before ++ c :: more)).pool
      (∀ e ∈ pool.binding, e.1 ≠ pod.uid) ∧ pod.uid ∉ pool.parked) ∧
    (∀ i a, (Interfaces.load module config).1 = .ok i → ((i.after before).run c).1 = some a →
      (i.after before).plugin.Ends c →
      let pool := (i.after (before ++ c :: more)).plugin.pool
      (∀ e ∈ pool.binding, e.1 ≠ pod.uid) ∧ pod.uid ∉ pool.parked) ∧
    ∀ {γ ε : Type} {p : Pool γ} {ops : List (Pool.Op γ ε)}, p.Reachable ε →
      (p.release pod.uid).Along (Pool.LeavesAlone pod.uid) ops →
      let pool := (p.release pod.uid).run ops
      (∀ e ∈ pool.binding, e.1 ≠ pod.uid) ∧ pod.uid ∉ pool.parked := by
  have hnone : ∀ {γ : Type} {pool : Pool γ}, pool.Gone pod.uid →
      (∀ e ∈ pool.binding, e.1 ≠ pod.uid) ∧ pod.uid ∉ pool.parked := by
    intro γ pool hgone
    refine ⟨fun e he => ?_, hgone.parked⟩
    have hentry := List.lookup_eq_none_iff.1 hgone.entry e he
    intro heq
    simp [heq] at hentry
  refine ⟨?_, ?_, ?_⟩
  · intro p hstart he
    have hp := (Reachable.start hstart).pool
    obtain ⟨-, g, hpool⟩ := start_ok hstart
    exact hnone (gone_of_ended hp (by rw [hpool]) hc he hone hmore)
  · intro i a hload ha he
    have hp : i.plugin.pool.Reachable CreationError := (Interfaces.reachable_after hload []).1.pool
    obtain ⟨g, hpool⟩ := Interfaces.pool_of_load hload
    exact hnone (Interfaces.gone_of_ended hp (by rw [hpool]) hc ha he hone hmore)
  · intro γ ε p ops hp halone
    exact hnone (Pool.gone_of_run hp halone)

/-- A module that lets every node through, and then refuses to bind. -/
def refusingModule : Prepared where
  name := "refusing"
  digest := ""
  imports := .empty
  exports := .ofList [.filter, .bind]
  hasInitializer := false
  program := { exports := [⟨"filter", .function Stage.filter.signature .leave⟩,
    ⟨"bind", .function Stage.bind.signature (.giveWord (.word 2))⟩] }

/-- The pod with a uid. -/
def podOf (uid : String) : Pod := { metadata := { uid } }

/-- A pod whose bind is refused is done with, while another one is scheduled; and so is one that is
released before the making of a guest fails. -/
theorem refused_and_left :
    let before := [.filter 1 (podOf "p") default]
    let c := StageCall.bind 1 (podOf "p") "node"
    let more := [.filter 2 (podOf "q") default]
    (∃ p, start refusingModule default = (.ok (), p) ∧ (p.after before).Ends c ∧
      "p" ∉ (p.after (before ++ c :: more)).pool.parked) ∧
    (∃ i a, (Interfaces.load refusingModule default).1 = .ok i ∧
      ((i.after before).run c).1 = some a ∧ a.failed ∧
      "p" ∉ (i.after (before ++ c :: more)).plugin.pool.parked) ∧
    "p" ∉ ((((Pool.empty : Pool Nat).run (Pool.parkingRun .tentative)).release "p").run
      [.schedule (fun _ => .error "full") 3 "r"]).parked := by
  intro before c more
  have hone : StageCall.OnePodEach (before ++ c :: more) := by decide
  have hmore : ∀ k ∈ StageCall.keys more, k.2.uid ≠ (podOf "p").uid := by decide
  have hstart : start refusingModule default = (.ok (), _) := rfl
  have hload : (Interfaces.load refusingModule default).1 = .ok _ := rfl
  obtain ⟨hplugin, hinterfaces, hpool⟩ :=
    @nothing_left refusingModule default before more c 1 (podOf "p") rfl hone hmore
  have halone : (((Pool.empty : Pool Nat).run (Pool.parkingRun .tentative)).release "p").Along
      (Pool.LeavesAlone "p") [.schedule (fun _ => .error "full") 3 "r"] :=
    ⟨⟨by decide, fun cycle r hop => by cases hop⟩, trivial⟩
  refine ⟨?_, ?_, ?_⟩
  · exact ⟨_, hstart, by decide +kernel, (hplugin _ hstart (by decide +kernel)).2⟩
  · exact ⟨_, .status ⟨.unschedulable, ""⟩, hload, by decide +kernel, rfl,
      (hinterfaces _ (.status ⟨.unschedulable, ""⟩) hload (by decide +kernel)
        (by decide +kernel)).2⟩
  · exact (hpool (Pool.reachable_empty.run (Pool.parkingRun .tentative)) halone).2

end Plugin
end StageHost

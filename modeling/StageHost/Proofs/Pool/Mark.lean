import StageHost.Proofs.Pool.Bystander
import StageHost.Proofs.Pool.History
/-
  Marks of pods whose guests were reclaimed.
  A pod is marked only when its parked guest is reclaimed, and a new cycle of the pod takes the mark
  away if it finds the slot taken (`Steps.mark`). By induction on a run every mark goes back to a
  reclamation, since which each cycle of the pod has found the slot empty (`mark_of_run`). A cycle
  that begins on the empty slot leaves the mark: when its guest is released, the pod is still said
  to be reclaimed (`reclaimed_of_run`).
-/
namespace StageHost
namespace Pool

variable {γ ε : Type}

/-- Whether an operation begins a cycle of a pod. -/
def Op.BeginsFor (pod : String) (p : Pool γ) (op : Op γ ε) : Prop :=
  op.Begins p ∧ op.pod? = some pod

/-! ## Where marks come from -/

theorem Parks.mark {p q : Pool γ} {pod x : String} {id : Nat} {r : Retention}
    (hq : p.Parks pod id r q) (hx : x ∈ q.reclaimed) :
    x ∈ p.reclaimed ∨ .reclaims x ∈ p.parkEvents pod id r := by
  cases hq with
  | taken | firm | room => exact .inl hx
  | @overflow oldest rest hb hk hlen =>
    rw [parkEvents_overflow hb hk hlen]
    have hsub : x ∈ p.reclaimed ++ [oldest] := by
      unfold remember at hx
      dsimp only at hx
      rw [reclaimed_freeBinding] at hx
      split at hx
      · exact List.mem_of_mem_drop hx
      · exact hx
    rcases List.mem_append.1 hsub with hm | hm
    · exact .inl hm
    · exact .inr (by simpa using hm)

theorem Turns.mark {p q : Pool γ} {pod x : String} (hq : p.Turns pod q) (hx : x ∈ q.reclaimed) :
    (x ∈ p.reclaimed ∨ .reclaims x ∈ p.turnEvents) ∧ (pod = x → p.slot = none) := by
  cases hq with
  | empty hs => exact ⟨.inl hx, fun _ => hs⟩
  | unretained hs hr =>
    rw [reclaimed_abandon] at hx
    obtain ⟨hm, hne⟩ := mem_filter_ne.1 hx
    exact ⟨.inl hm, fun hpod => absurd hpod.symm hne⟩
  | retained hs hr hq =>
    rw [reclaimed_abandon] at hx
    obtain ⟨hm, hne⟩ := mem_filter_ne.1 hx
    rw [turnEvents_retained hs hr]
    exact ⟨hq.mark hm, fun hpod => absurd hpod.symm hne⟩

/-- A marked pod was marked before or is reclaimed by the operation, which begins no cycle of the
pod unless the slot is empty. -/
theorem Steps.mark {p q : Pool γ} {op : Op γ ε} (h : p.Queued) (hs : p.Steps q op) {x : String}
    (hx : x ∈ q.reclaimed) :
    (x ∈ p.reclaimed ∨ .reclaims x ∈ p.parkings op) ∧ (op.BeginsFor x p → p.slot = none) := by
  cases hs with
  | idle hop ha => exact ⟨.inl (ha.reclaimed ▸ hx), fun hb => absurd hb.1 hop⟩
  | retained _ ha | detached _ ha | released ha =>
    exact ⟨.inl (ha.reclaimed ▸ hx), fun hb => hb.1.elim⟩
  | claimed hop _ ha | takenOver hop _ _ ha =>
    exact ⟨.inl (ha.reclaimed ▸ hx), fun hb => absurd hb.1 (not_begins_of_claims hop p)⟩
  | @started create cycle pod g hc ha =>
    rw [ha.reclaimed] at hx
    rw [parkings_of_starts hc]
    obtain ⟨hfrom, hempty⟩ := (h.turns pod).mark hx
    exact ⟨hfrom, fun hb => hempty (Option.some.inj hb.2)⟩

theorem parkings_of_empty {p : Pool γ} (hs : p.slot = none) (op : Op γ ε) :
    p.parkings op = [] := by
  by_cases hop : op.Begins p
  · cases op with
    | schedule create cycle pod => rw [parkings_of_starts hop, turnEvents_empty hs]
    | prewarm | withFree | retain | claim | bind | detach | release | touch => exact hop.elim
  · exact parkings_of_not_begins hop

/-- The books after the beginning of a cycle on the empty slot. -/
theorem agrees_schedule_of_empty {p : Pool γ} (hs : p.slot = none) {create : Nat → Except ε γ}
    {cycle : UInt64} {pod : String} {g : Nat} (hg : p.gives (.schedule create cycle pod) = some g) :
    (p.install cycle pod g).Agrees (p.step (.schedule create cycle pod)) := by
  have hstarts : p.Starts cycle := by simp [Starts, hs]
  have hturn : p.turnOver pod = p := by
    unfold turnOver
    rw [hs]
  have hagree := schedule_of_starts hstarts create pod
  rw [hturn, show (p.schedule create cycle pod).1.toOption = some g from hg] at hagree
  exact hagree

/-- A cycle that begins on the empty slot leaves the pod's mark, which comes to light again when
the binding cycle is over. -/
theorem reclaimed_after_release {p : Pool γ} {pod : String} (hm : pod ∈ p.reclaimed)
    (hs : p.slot = none) (hb : p.binding.lookup pod = none) {create : Nat → Except ε γ}
    {cycle : UInt64} {g : Nat} (hg : p.gives (.schedule create cycle pod) = some g) :
    ((p.run [.schedule create cycle pod, .claim pod, .release pod]).claim pod).1 = .reclaimed := by
  have hfirst := agrees_schedule_of_empty hs hg
  obtain ⟨q, hq⟩ : ∃ q, q = p.step (.schedule create cycle pod) := ⟨_, rfl⟩
  rw [← hq] at hfirst
  have hbind : q.binding.lookup pod = none := by rw [hfirst.binding]; exact hb
  have hclaim := claim_of_slot (s := ⟨cycle, pod, none, g⟩) hfirst.slot hbind
  have hlast := agrees_release (q.claim pod).2 pod
  rw [run_cons, ← hq]
  show (((q.claim pod).2.release pod).claim pod).1 = .reclaimed
  rw [hlast.claim, claim_of_none, if_pos]
  · rw [hclaim]
    exact hfirst.reclaimed ▸ hm
  · exact lookup_filter_self _ _
  · rw [hclaim]
    nofun

/-! ## Runs -/

theorem mem_of_claim_reclaimed {p : Pool γ} {pod : String}
    (h : (p.claim pod).1 = .reclaimed) : pod ∈ p.reclaimed := by
  rw [claim_fst] at h
  split at h
  · cases h
  · split at h
    · assumption
    · cases h

/-- Whether an operation reclaims no guest of a pod, and begins a cycle of the pod at most on an
empty slot. -/
def Overlooks (pod : String) (p : Pool γ) (op : Op γ ε) : Prop :=
  .reclaims pod ∉ p.parkings op ∧ (op.BeginsFor pod p → p.slot = none)

/-- Every mark goes back to a reclamation of the pod's guest by a cycle of another pod. -/
theorem mark_of_run (ops : List (Op γ ε)) {pod : String}
    (h : pod ∈ ((empty : Pool γ).run ops).reclaimed) :
    ∃ before op after, ops = before ++ op :: after ∧
      .reclaims pod ∈ ((empty : Pool γ).run before).parkings op ∧
      ¬ op.BeginsFor pod ((empty : Pool γ).run before) ∧
      ((empty : Pool γ).run (before ++ [op])).Along (Overlooks pod) after := by
  induction ops using List.reverseRecOn with
  | nil => cases h
  | append_singleton ops op ih =>
    have hqueued : ((empty : Pool γ).run ops).Queued := Reachable.queued ⟨ops, rfl⟩
    rw [run_append] at h
    obtain ⟨hfrom, hbegins⟩ := (steps_step _ op).mark hqueued h
    by_cases hnow : .reclaims pod ∈ ((empty : Pool γ).run ops).parkings op
    · refine ⟨ops, op, [], rfl, hnow, ?_, trivial⟩
      intro hb
      -- a cycle that finds the slot empty parks nothing
      rw [parkings_of_empty (hbegins hb)] at hnow
      cases hnow
    · obtain ⟨before, first, after, hops, hrec, hnot, halong⟩ := ih (hfrom.resolve_right hnow)
      refine ⟨before, first, after ++ [op], by rw [hops]; simp, hrec, hnot, ?_⟩
      rw [along_snoc]
      refine ⟨halong, ?_⟩
      rw [← run_append, List.append_assoc, List.singleton_append, ← hops]
      exact ⟨hnow, hbegins⟩

/-- A pod that is said to be reclaimed lost its parked guest to a full queue earlier in the run, and
since it did so last every cycle of the pod that began found the slot empty. Such a cycle leaves
the pod to be said reclaimed after its guest was claimed and released. -/
theorem reclaimed_of_run :
    (∀ (ops : List (Op γ ε)) (pod : String),
      (((empty : Pool γ).run ops).claim pod).1 = .reclaimed →
      ∃ before op after, ops = before ++ op :: after ∧
        pod ∈ ((empty : Pool γ).run before).parked ∧
        .reclaims pod ∈ ((empty : Pool γ).run before).parkings op ∧
        ((empty : Pool γ).run (before ++ [op])).binding.lookup pod = none ∧
        ¬ op.BeginsFor pod ((empty : Pool γ).run before) ∧
        ((empty : Pool γ).run (before ++ [op])).Along (Overlooks pod) after) ∧
    (∀ {p : Pool γ} {pod : String}, pod ∈ p.reclaimed → p.slot = none →
      p.binding.lookup pod = none →
      ∀ (create : Nat → Except ε γ) (cycle : UInt64) (g : Nat),
        p.gives (.schedule create cycle pod) = some g →
        ((p.run [.schedule create cycle pod, .claim pod, .release pod]).claim pod).1 =
          .reclaimed) := by
  constructor
  · intro ops pod hclaim
    have hmark : pod ∈ ((empty : Pool γ).run ops).reclaimed := mem_of_claim_reclaimed hclaim
    obtain ⟨before, op, after, hops, hrec, hnot, halong⟩ := mark_of_run ops hmark
    have hqueued : ((empty : Pool γ).run before).Queued := Reachable.queued ⟨before, rfl⟩
    obtain ⟨hparked, hlost⟩ := lost_of_reclaims hqueued hrec
    refine ⟨before, op, after, hops, hparked, hrec, ?_, hnot, halong⟩
    rw [run_append]
    exact hlost
  · intro p pod hm hs hb create cycle g hg
    exact reclaimed_after_release hm hs hb hg

/-- The first pod of a crowd, after the slot was claimed: its guest was reclaimed, and it is said to
be reclaimed also after a cycle of its own that got a guest, was claimed and is released. -/
theorem still_reclaimed_after_new_cycle :
    let ops := crowd ["p", "a", "b", "c", "d", "e", "f", "g", "h"] ++
      [.schedule .ok 9 "i", .claim "i"]
    let p := (empty : Pool Nat).run ops
    (∃ before op after, ops = before ++ op :: after ∧
      .reclaims "p" ∈ ((empty : Pool Nat).run before).parkings op) ∧
    p.gives (.schedule .ok 10 "p" : Op Nat String) = some 10 ∧
      ((p.run [(.schedule .ok 10 "p" : Op Nat String), .claim "p", .release "p"]).claim "p").1 =
        .reclaimed := by
  intro ops p
  have hgives : p.gives (.schedule .ok 10 "p" : Op Nat String) = some 10 := by decide
  refine ⟨?_, hgives, ?_⟩
  · obtain ⟨before, op, after, hops, -, hrec, -⟩ := reclaimed_of_run.1 ops "p" (by decide)
    exact ⟨before, op, after, hops, hrec⟩
  · exact reclaimed_of_run.2 (by decide) (by decide) (by decide) .ok 10 10 hgives

end Pool
end StageHost

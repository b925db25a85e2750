import StageHost.Proofs.Pool.Custody
import StageHost.Proofs.Pool.Placement
/-
  Guests handed out for a binding cycle.
  An operation leaves the guest that it hands out in a known place (`handed_step`), and no guest is
  in two places, so a guest that a pod has secured is handed out for that pod's binding cycle only
  (`gives_iff_of_secured`). A claim secures what it hands out. A detached binding cycle does not if
  it finds the pod parked, and then the guest may be taken away from the pod
  (`owns_iff_of_gives`).
-/
namespace StageHost
namespace Pool

variable {γ ε : Type}

/-! ## Places of guests handed out -/

/-- Whether an operation asks for the guest of a pod's binding cycle. -/
def Op.Binds (pod : String) (op : Op γ ε) : Prop :=
  op.Claims pod ∨ ∃ create, op = .detach create pod

/-- Where an operation leaves the guest that it hands out. -/
inductive Handed (q : Pool γ) (g : Nat) : Op γ ε → Prop
  | free {create : Nat → Except ε γ} {use : γ → γ} (h : g ∈ q.free) :
    Handed q g (.withFree create use)
  | slot {create : Nat → Except ε γ} {cycle : UInt64} {pod : String} {s : Slot}
    (hs : q.slot = some s) (hg : s.guest = g) : Handed q g (.schedule create cycle pod)
  | entry {op : Op γ ε} {pod : String} (hop : op.Binds pod)
    (h : q.binding.lookup pod = some g) : Handed q g op

theorem lookup_detach {p : Pool γ} {create : Nat → Except ε γ} {pod : String} {g : Nat}
    (h : (p.detach create pod).1.toOption = some g) :
    (p.detach create pod).2.binding.lookup pod = some g := by
  cases hb : p.binding.lookup pod with
  | some id =>
    rw [detach_of_entry hb] at h ⊢
    exact hb.trans h
  | none =>
    rw [(detach_of_none hb create).binding, h]
    exact List.lookup_cons_self

theorem handed_step {p : Pool γ} {op : Op γ ε} {g : Nat} (h : p.gives op = some g) :
    (p.step op).Handed g op := by
  cases op with
  | prewarm | retain | release | touch => cases h
  | withFree create use =>
    rw [gives, withFree] at h
    rw [step, withFree]
    rcases hp : p.borrow create with ⟨_ | id, q⟩ <;> rw [hp] at h <;> cases h
    exact .free List.mem_cons_self
  | schedule create cycle pod =>
    rw [gives] at h
    by_cases hc : p.Starts cycle
    · have hs := (schedule_of_starts hc create pod).slot
      rw [h] at hs
      exact .slot hs rfl
    · obtain ⟨s, hs, rfl⟩ := same_of_not_starts hc
      rw [step]
      rw [schedule_of_same hs] at h ⊢
      cases h
      exact .slot hs rfl
  | claim pod => exact .entry (.inl (.inl rfl)) (lookup_claim h)
  | bind pod =>
    rw [gives, bind_fst] at h
    rw [step, bind_snd]
    exact .entry (.inl (.inr rfl)) (lookup_claim h)
  | detach create pod => exact .entry (.inr ⟨create, rfl⟩) (lookup_detach h)

/-! ## Secured guests -/

namespace Accounts

variable {p : Pool γ} {hand : List Nat} {x y : String} {g : Nat}

theorem mem_binding (h : p.binding.lookup x = some g) : (x, g) ∈ p.binding := by
  obtain ⟨l, r, hl, -⟩ := List.lookup_eq_some_iff.1 h
  rw [hl]
  simp

theorem guest_mem_binding (h : p.binding.lookup x = some g) : g ∈ p.binding.map (·.2) :=
  List.mem_map.2 ⟨(x, g), mem_binding h, rfl⟩

/-- The guest of an entry is in no other place. -/
theorem not_mem_free (h : p.Accounts hand) (hx : p.binding.lookup x = some g) : g ∉ p.free := by
  intro hf
  have hapart := (List.nodup_append.1 h.nodup_placed).2.2
  exact hapart g (List.mem_append_right _ (guest_mem_binding hx)) g hf rfl

theorem slot_ne (h : p.Accounts hand) (hx : p.binding.lookup x = some g) {s : Slot}
    (hs : p.slot = some s) : s.guest ≠ g := by
  rintro rfl
  have hn := (List.nodup_append.1 h.nodup_placed).1
  rw [hs] at hn
  exact (List.nodup_append.1 hn).2.2 s.guest (by simp) s.guest (guest_mem_binding hx) rfl

theorem pod_unique (h : p.Accounts hand) (hx : p.binding.lookup x = some g)
    (hy : p.binding.lookup y = some g) : x = y := by
  have hn := (List.nodup_append.1 h.nodup_placed).1
  have hb : (p.binding.map (·.2)).Nodup := (List.nodup_append.1 hn).2.1
  have he := List.inj_on_of_nodup_map hb (mem_binding hx) (mem_binding hy) rfl
  exact congrArg Prod.fst he

end Accounts

/-- A guest handed out is one that was made. -/
theorem mem_ids_of_gives {p : Pool γ} (hp : p.Reachable ε) (op : Op γ ε) {g : Nat}
    (h : p.gives op = some g) : g ∈ (p.step op).ids := by
  refine (hp.step op).accounts.mem_ids ?_
  unfold placed
  cases handed_step h with
  | free hf => exact List.mem_append_right _ hf
  | slot hs hg =>
    rw [hs, ← hg]
    simp
  | entry hop hb =>
    exact List.mem_append_left _ (List.mem_append_right _ (Accounts.guest_mem_binding hb))

/-- A secured guest is handed out for its pod's binding cycle and for nothing else. -/
theorem gives_iff_of_secured {p : Pool γ} (hq : p.Queued) (ha : p.Accounts []) {pod : String}
    {g : Nat} (hg : p.secured? pod = some g) (op : Op γ ε) :
    p.gives op = some g ↔ op.Binds pod := by
  have hb := (secured_eq_some.1 hg).2
  constructor
  · intro h
    have hr : op ≠ .release pod := by
      rintro rfl
      cases h
    have hafter := (secured_eq_some.1 ((steps_step p op).secured hq hg hr)).2
    cases handed_step h with
    | free hf => exact absurd hf ((ha.step _).not_mem_free hafter)
    | slot hs hsg => exact absurd hsg ((ha.step _).slot_ne hafter hs)
    | entry hop hx =>
      rw [(ha.step op).pod_unique hafter hx]
      exact hop
  · rintro ((rfl | rfl) | ⟨create, rfl⟩)
    · rw [gives, claim_of_entry hb]
      rfl
    · rw [gives, bind_fst, claim_of_entry hb]
      rfl
    · rw [gives, detach_of_entry hb]
      rfl

/-! ## Runs without a release -/

theorem secured_run {p : Pool γ} (hp : p.Reachable ε) {pod : String} {g : Nat}
    (hg : p.secured? pod = some g) (ops : List (Op γ ε)) (hr : .release pod ∉ ops) :
    (p.run ops).secured? pod = some g := by
  induction ops generalizing p with
  | nil => exact hg
  | cons op ops ih =>
    rw [List.mem_cons, not_or] at hr
    exact ih (hp.step op) ((steps_step p op).secured hp.queued hg (Ne.symm hr.1)) hr.2

/-- Whether a guest is a pod's own until the pod's release: in every run without one it is handed
out for the binding cycle of the pod, whichever way that asks for it, and for nothing else. -/
def Owns (ε : Type) (p : Pool γ) (pod : String) (g : Nat) : Prop :=
  ∀ ops : List (Op γ ε), .release pod ∉ ops → ∀ op : Op γ ε,
    (p.run ops).gives op = some g ↔ op.Binds pod

theorem owns_of_secured {p : Pool γ} (hp : p.Reachable ε) {pod : String} {g : Nat}
    (hg : p.secured? pod = some g) : p.Owns ε pod g := by
  intro ops hr op
  have hrun := hp.run ops
  exact gives_iff_of_secured hrun.queued hrun.accounts (secured_run hp hg ops hr) op

theorem secured_detach {p : Pool γ} {create : Nat → Except ε γ} {pod : String} {g : Nat}
    (hm : pod ∉ p.parked) (h : (p.detach create pod).1.toOption = some g) :
    (p.detach create pod).2.secured? pod = some g := by
  refine secured_eq_some.2 ⟨?_, lookup_detach h⟩
  cases hb : p.binding.lookup pod with
  | some id =>
    rw [detach_of_entry hb]
    exact hm
  | none =>
    rw [(detach_of_none hb create).parked]
    exact hm

/-! ## Parked guests are not owned -/

theorem exists_starts (p : Pool γ) : ∃ cycle, p.Starts cycle := by
  unfold Starts
  cases hs : p.slot with
  | none => exact ⟨0, by simp⟩
  | some s =>
    refine ⟨s.cycle + 1, ?_⟩
    intro t ht he
    cases ht
    have hn := congrArg UInt64.toNat he
    have hlt := s.cycle.toNat_lt
    rw [UInt64.toNat_add, UInt64.toNat_one] at hn
    omega

/-- A cycle that begins gets a guest if one can be made. -/
theorem schedule_ok {p : Pool γ} {create : Nat → Except ε γ} (hok : ∀ n, ∃ x, create n = .ok x)
    (cycle : UInt64) (pod : String) : ∃ g, p.gives (.schedule create cycle pod) = some g := by
  show ∃ g, (p.schedule create cycle pod).1.toOption = some g
  unfold schedule
  rcases p.pick cycle pod with ⟨_ | id, q⟩
  · obtain ⟨x, hx⟩ := hok q.nextId
    unfold make takeId
    dsimp only
    rw [hx]
    exact ⟨_, rfl⟩
  · exact ⟨id, rfl⟩

theorem schedule_of_unretained {p : Pool γ} {s : Slot} (hs : p.slot = some s)
    (hr : s.retention = none) {cycle : UInt64} (hc : s.cycle ≠ cycle) (create : Nat → Except ε γ)
    (pod : String) : (p.schedule create cycle pod).1 = .ok s.guest := by
  unfold schedule pick takeSlot
  simp [hs, hr, hc]

/-- The second of two new cycles of a parked pod hands out the guest that the pod claims then. -/
theorem claim_of_two_cycles {p : Pool γ} (hp : p.Reachable ε) {create : Nat → Except ε γ}
    (hok : ∀ n, ∃ x, create n = .ok x) {pod : String} (hm : pod ∈ p.parked) :
    ∃ (c c' : UInt64) (g : Nat),
      (p.step (.schedule create c pod)).gives (.schedule create c' pod) = some g ∧
      ((p.run [.schedule create c pod, .schedule create c' pod]).claim pod).1 = .held g := by
  obtain ⟨id, hb⟩ := Option.isSome_iff_exists.1 (hp.queued.entry pod hm)
  obtain ⟨c, hc⟩ := exists_starts p
  obtain ⟨g, hg⟩ := schedule_ok hok (p := p) c pod
  have hagree := schedule_of_starts hc create pod
  rw [show (p.schedule create c pod).1.toOption = some g from hg] at hagree
  obtain ⟨q, hq⟩ : ∃ q, q = p.step (.schedule create c pod) := ⟨_, rfl⟩
  have hslot : q.slot = some { cycle := c, pod, guest := g } := hq ▸ hagree.slot
  have hqueued : q.Queued := hq ▸ (hp.step _).queued
  -- the first cycle leaves nothing secured for the pod
  have hkept : q.kept? pod = none := by
    rw [kept_of_not_firm (by rw [hslot]; simp), hq]
    refine (hagree.secured pod).trans ?_
    show (p.turnOver pod).secured? pod = none
    rw [secured_turnOver hp.queued, kept_of_entry hb, secured?, if_pos hm]
  obtain ⟨c', hc'⟩ := exists_starts q
  have hne : c ≠ c' := hc' _ hslot
  have hsecond := schedule_of_unretained hslot rfl hne create pod
  have hclaim := claim_of_schedule hqueued (q := (q.schedule create c' pod).2)
    (fun s hs hsc => absurd hsc (hc' s hs)) (fun _ => ⟨_, hslot, hne⟩) (Prod.ext hsecond rfl)
  rw [hkept] at hclaim
  refine ⟨c, c', g, ?_, ?_⟩
  · rw [← hq, gives, hsecond]
    rfl
  · rw [run_cons, ← hq]
    exact hclaim

theorem nonempty_of_entry {p : Pool γ} {hand : List Nat} (h : p.Accounts hand) {pod : String}
    {id : Nat} (hb : p.binding.lookup pod = some id) : Nonempty γ := by
  have hplaced : id ∈ p.placed :=
    List.mem_append_left _ (List.mem_append_right _ (Accounts.guest_mem_binding hb))
  obtain ⟨e, -, -⟩ := List.mem_map.1 (h.mem_ids hplaced)
  exact ⟨e.2⟩

/-- A parked guest can be taken away from its pod. -/
theorem not_owns_of_parked {p : Pool γ} (hp : p.Reachable ε) {pod : String} (hm : pod ∈ p.parked)
    (g : Nat) : ¬ p.Owns ε pod g := by
  intro hown
  obtain ⟨id, hb⟩ := Option.isSome_iff_exists.1 (hp.queued.entry pod hm)
  obtain ⟨x⟩ := nonempty_of_entry hp.accounts hb
  obtain ⟨create, hok⟩ : ∃ create : Nat → Except ε γ, ∀ n, ∃ x, create n = .ok x :=
    ⟨fun _ => .ok x, fun _ => ⟨x, rfl⟩⟩
  obtain ⟨c, c', g', hg', hclaim⟩ := claim_of_two_cycles hp hok hm
  have hheld : g' = g := by
    have h := (hown [.schedule create c pod, .schedule create c' pod] (by simp) (.claim pod)).2
      (.inl (.inl rfl))
    rw [gives, hclaim] at h
    exact Option.some.inj h
  have hbinds := (hown [.schedule create c pod] (by simp) (.schedule create c' pod)).1
    (hheld ▸ hg')
  rcases hbinds with (h | h) | ⟨_, h⟩ <;> cases h

/-- A guest handed out for the binding cycle of a pod is the pod's own until its release, unless it
was parked and a detached binding cycle asked for it. -/
theorem owns_iff_of_gives {p : Pool γ} (hp : p.Reachable ε) {op : Op γ ε} {pod : String} {g : Nat}
    (hop : op.Binds pod) (hg : p.gives op = some g) :
    (p.step op).Owns ε pod g ↔ ¬ ((∃ create, op = .detach create pod) ∧ pod ∈ p.parked) := by
  constructor
  · rintro hown ⟨⟨create, rfl⟩, hm⟩
    obtain ⟨id, hb⟩ := Option.isSome_iff_exists.1 (hp.queued.entry pod hm)
    refine not_owns_of_parked (hp.step _) ?_ g hown
    rw [step, detach_of_entry hb]
    exact hm
  · intro hnot
    refine owns_of_secured (hp.step op) ?_
    rcases hop with (rfl | rfl) | ⟨create, rfl⟩
    · exact secured_claims hp.queued (.inl rfl) hg
    · exact secured_claims hp.queued (.inr rfl) hg
    · exact secured_detach (fun hm => hnot ⟨⟨create, rfl⟩, hm⟩) hg

/-- A claim of a parked guest makes it the pod's own, and a detached binding cycle does not. -/
theorem owned_by_claim_not_by_detach :
    (((empty : Pool Nat).run (parkingRun .tentative)).step
        (.claim "p" : Op Nat String)).Owns String "p" 1 ∧
      ¬ (((empty : Pool Nat).run (parkingRun .tentative)).step
        (.detach .ok "p" : Op Nat String)).Owns String "p" 1 := by
  constructor
  · refine (owns_iff_of_gives ⟨_, rfl⟩ (.inl (.inl rfl)) rfl).2 ?_
    rintro ⟨⟨_, h⟩, -⟩
    cases h
  · intro h
    exact (owns_iff_of_gives ⟨_, rfl⟩ (.inr ⟨_, rfl⟩) rfl).1 h ⟨⟨_, rfl⟩, by decide⟩

end Pool
end StageHost

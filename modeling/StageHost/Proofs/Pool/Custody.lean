import StageHost.Proofs.Pool.Queue
/-
  Guests in the custody of their pods.
  `secured?` is the guest of a pod's binding entry unless it is tentatively parked: such a guest
  stays with the pod until its release, whatever happens to other pods and also when the pod is
  scheduled again (`Steps.secured`). `kept?` says which guest a pod has secured when a new cycle has
  begun, for any pod (`secured_turnOver`), and with it what the pod of that cycle claims next
  (`claim_of_schedule`).
-/
namespace StageHost
namespace Pool

variable {γ ε : Type}

/-- The guest of a pod's binding entry, unless it is parked. -/
def secured? (p : Pool γ) (pod : String) : Option Nat :=
  if pod ∈ p.parked then none else p.binding.lookup pod

theorem secured_of_not_mem {p : Pool γ} {pod : String} (h : pod ∉ p.parked) :
    p.secured? pod = p.binding.lookup pod := if_neg h

theorem secured_of_none {p : Pool γ} {pod : String} (h : p.binding.lookup pod = none) :
    p.secured? pod = none := by
  unfold secured?
  split
  · rfl
  · exact h

theorem secured_eq_some {p : Pool γ} {pod : String} {g : Nat} :
    p.secured? pod = some g ↔ pod ∉ p.parked ∧ p.binding.lookup pod = some g := by
  unfold secured?
  split <;> simp_all

theorem Agrees.secured {p q : Pool γ} (h : p.Agrees q) (pod : String) :
    q.secured? pod = p.secured? pod := by
  unfold secured?
  rw [h.parked, h.binding]

/-! ## New cycles -/

/-- The guest that a pod has secured once a new cycle has begun: that of its binding entry unless it
is parked, or else that of the slot if it is firmly retained for the pod. -/
def kept? (p : Pool γ) (pod : String) : Option Nat :=
  match p.binding.lookup pod with
  | some id => if pod ∈ p.parked then none else some id
  | none => (p.slot.filter fun s => s.pod = pod ∧ s.retention = some .firm).map (·.guest)

theorem kept_of_entry {p : Pool γ} {pod : String} {id : Nat}
    (h : p.binding.lookup pod = some id) : p.kept? pod = p.secured? pod := by
  unfold kept? secured?
  rw [h]

theorem kept_of_slot {p : Pool γ} {s : Slot} (hs : p.slot = some s)
    (hb : p.binding.lookup s.pod = none) :
    p.kept? s.pod = if s.retention = some .firm then some s.guest else none := by
  unfold kept?
  rw [hb, hs]
  by_cases hr : s.retention = some .firm <;> simp [hr]

/-- Without a firm retention of the slot for the pod, only an entry counts. -/
theorem kept_of_not_firm {p : Pool γ} {pod : String}
    (h : ∀ s ∈ p.slot, s.pod = pod → s.retention ≠ some .firm) : p.kept? pod = p.secured? pod := by
  cases hb : p.binding.lookup pod with
  | some id => exact kept_of_entry hb
  | none =>
    unfold kept?
    rw [hb, secured_of_none hb]
    have hf : p.slot.filter (fun s => s.pod = pod ∧ s.retention = some .firm) = none := by
      rw [Option.filter_eq_none_iff]
      intro s hs
      simpa using h s hs
    rw [hf]
    rfl

theorem kept_of_secured {p : Pool γ} {pod : String} {g : Nat} (h : p.secured? pod = some g) :
    p.kept? pod = some g := by
  rw [kept_of_entry (secured_eq_some.1 h).2, h]

/-- Abandoning any pod's earlier cycles leaves what is secured. -/
theorem secured_abandon (p : Pool γ) (pod x : String) :
    (p.abandon pod).secured? x = p.secured? x := by
  unfold secured?
  rw [parked_abandon, binding_abandon]
  by_cases hx : x = pod
  · subst hx
    rw [if_neg (by simp)]
    split
    · exact lookup_filter_self _ _
    · rfl
  · rw [if_congr (by simp [hx] : x ∈ p.parked.filter (· ≠ pod) ↔ x ∈ p.parked) rfl rfl]
    split
    · rfl
    · split
      · exact lookup_filter_ne _ hx
      · rfl

/-- What parking secures: a firm guest, for a pod without an entry. -/
theorem Parks.secured {p q : Pool γ} {pod : String} {id : Nat} {r : Retention} (h : p.Queued)
    (hq : p.Parks pod id r q) (x : String) :
    q.secured? x =
      if x = pod ∧ p.binding.lookup pod = none ∧ r = .firm then some id else p.secured? x := by
  cases hq with
  | taken hb =>
    rw [if_neg (by simp [hb])]
    rfl
  | firm hb =>
    by_cases hx : x = pod
    · subst hx
      rw [if_pos ⟨rfl, hb, rfl⟩]
      exact secured_eq_some.2 ⟨h.not_mem hb, List.lookup_cons_self⟩
    · rw [if_neg (fun hc => hx hc.1)]
      unfold secured?
      show (if x ∈ p.parked then none else ((pod, id) :: p.binding).lookup x) = _
      rw [lookup_cons_ne _ hx]
  | room hb hlen =>
    rw [if_neg (by simp)]
    unfold secured?
    show (if x ∈ p.parked ++ [pod] then none else ((pod, id) :: p.binding).lookup x) = _
    by_cases hx : x = pod
    · subst hx
      rw [if_pos (by simp), hb]
      split <;> rfl
    · rw [lookup_cons_ne _ hx]
      simp [hx]
  | @overflow oldest rest hb hk hlen =>
    rw [if_neg (by simp)]
    unfold secured?
    rw [parked_overflow, binding_overflow, hk]
    by_cases hx : x = pod
    · subst hx
      rw [if_pos (by simp), hb]
      split <;> rfl
    · by_cases ho : x = oldest
      · subst ho
        have hm : x ∈ x :: rest := List.mem_cons_self
        rw [lookup_filter_self, if_pos hm]
        split <;> rfl
      · rw [lookup_filter_ne _ ho, lookup_cons_ne _ hx]
        simp [hx, ho]

theorem Turns.secured {p q : Pool γ} {pod : String} (h : p.Queued) (hq : p.Turns pod q)
    (x : String) : q.secured? x = p.kept? x := by
  cases hq with
  | empty hs => exact (kept_of_not_firm (by simp [hs])).symm
  | @unretained s hs hr =>
    rw [secured_abandon, kept_of_not_firm]
    · rfl
    · intro t ht
      rw [hs] at ht
      cases ht
      simp [hr]
  | @retained s r q hs hr hq =>
    rw [secured_abandon, hq.secured (h.setSlot none)]
    show (if x = s.pod ∧ p.binding.lookup s.pod = none ∧ r = .firm then some s.guest
      else p.secured? x) = _
    by_cases hx : x = s.pod
    · subst hx
      cases hb : p.binding.lookup s.pod with
      | some id =>
        rw [if_neg (by simp), kept_of_entry hb]
      | none =>
        rw [kept_of_slot hs hb, hr, secured_of_none hb]
        simp
    · rw [if_neg (fun hc => hx hc.1), kept_of_not_firm]
      intro t ht htx
      rw [hs] at ht
      cases ht
      exact absurd htx.symm hx

/-- What any pod has secured once a cycle has begun. -/
theorem secured_turnOver {p : Pool γ} (h : p.Queued) (pod x : String) :
    (p.turnOver pod).secured? x = p.kept? x := (h.turns pod).secured h x

/-- Unless the slot is empty, the pod of a new cycle is not parked any more. -/
theorem not_mem_turnOver {p : Pool γ} {pod : String} (h : pod ∈ p.parked → p.slot ≠ none) :
    pod ∉ (p.turnOver pod).parked := by
  have habandon : ∀ q : Pool γ, pod ∉ (q.abandon pod).parked := by
    intro q
    rw [parked_abandon]
    simp
  unfold turnOver
  split
  · rename_i hs
    exact fun hm => h hm hs
  · split <;> exact habandon _

/-- The binding cycle that follows a scheduling call of its pod gets the guest of that call, unless
the pod has another one secured. The cycle is of this pod alone. An empty slot with a parked entry
of the pod is left aside. -/
theorem claim_of_schedule {p q : Pool γ} (h : p.Queued) {create : Nat → Except ε γ}
    {cycle : UInt64} {pod : String} {g : Nat}
    (hown : ∀ s ∈ p.slot, s.cycle = cycle → s.pod = pod)
    (hpark : pod ∈ p.parked → ∃ s ∈ p.slot, s.cycle ≠ cycle)
    (hg : p.schedule create cycle pod = (.ok g, q)) :
    (q.claim pod).1 = .held ((p.kept? pod).getD g) := by
  by_cases hc : p.Starts cycle
  · have hagree := schedule_of_starts hc create pod
    rw [hg] at hagree
    have hslot : pod ∈ p.parked → p.slot ≠ none := by
      intro hm hs
      obtain ⟨s, hm, -⟩ := hpark hm
      rw [hs] at hm
      cases hm
    have hkept : q.binding.lookup pod = p.kept? pod := by
      rw [← secured_turnOver h pod, secured_of_not_mem (not_mem_turnOver hslot), hagree.binding]
    cases hk : p.kept? pod with
    | some id =>
      rw [claim_of_entry (hkept.trans hk)]
      rfl
    | none =>
      rw [claim_of_slot (s := { cycle, pod, guest := g }) hagree.slot (hkept.trans hk)]
      rfl
  · obtain ⟨s, hs, rfl⟩ := same_of_not_starts hc
    obtain rfl := hown s hs rfl
    have hnot : s.pod ∉ p.parked := by
      intro hm
      obtain ⟨t, ht, hne⟩ := hpark hm
      rw [hs] at ht
      cases ht
      exact hne rfl
    rw [schedule_of_same hs] at hg
    cases hg
    cases hb : p.binding.lookup s.pod with
    | some id =>
      rw [kept_of_entry hb, secured_of_not_mem hnot, hb]
      exact congrArg Prod.fst (claim_of_entry hb)
    | none =>
      rw [kept_of_slot hs hb, claim_of_slot hs hb]
      split <;> rfl

/-! ## Claims secure -/

theorem lookup_claim {p : Pool γ} {pod : String} {g : Nat} (h : (p.claim pod).1.guest? = some g) :
    (p.claim pod).2.binding.lookup pod = some g := by
  cases hb : p.binding.lookup pod with
  | some id =>
    rw [claim_of_entry hb] at h ⊢
    exact hb.trans h
  | none =>
    by_cases hs : ∃ s ∈ p.slot, s.pod = pod
    · obtain ⟨s, hs, rfl⟩ := hs
      rw [claim_of_slot hs hb] at h ⊢
      exact List.lookup_cons_self.trans h
    · rw [claim_of_none hb fun s hm hp => hs ⟨s, hm, hp⟩] at h
      dsimp only at h
      split at h <;> cases h

theorem secured_claim {p : Pool γ} (hp : p.Queued) {pod : String} {g : Nat}
    (h : (p.claim pod).1.guest? = some g) : (p.claim pod).2.secured? pod = some g := by
  refine secured_eq_some.2 ⟨?_, lookup_claim h⟩
  cases hb : p.binding.lookup pod with
  | some id =>
    rw [claim_of_entry hb]
    exact fun hm => (mem_filter_ne.1 hm).2 rfl
  | none =>
    have hm := hp.not_mem hb
    unfold claim
    rw [hb]
    dsimp only
    split <;> exact hm

theorem step_of_claims {op : Op γ ε} {pod : String} (hop : op.Claims pod) (p : Pool γ) :
    p.step op = (p.claim pod).2 ∧ p.gives op = (p.claim pod).1.guest? := by
  rcases hop with rfl | rfl
  · exact ⟨rfl, rfl⟩
  · exact ⟨bind_snd p pod, bind_fst p pod⟩

/-- A guest that is handed out to a claim is secured. -/
theorem secured_claims {p : Pool γ} (hp : p.Queued) {op : Op γ ε} {pod : String}
    (hop : op.Claims pod) {g : Nat} (h : p.gives op = some g) :
    (p.step op).secured? pod = some g := by
  obtain ⟨hstep, hgives⟩ := step_of_claims hop p
  rw [hgives] at h
  rw [hstep]
  exact secured_claim hp h

/-! ## Custody lasts -/

/-- A pod that releases nothing keeps its secured guest. -/
theorem Steps.secured {p q : Pool γ} {op : Op γ ε} (h : p.Queued) (hs : p.Steps q op)
    {pod : String} {g : Nat} (hg : p.secured? pod = some g) (hr : op ≠ .release pod) :
    q.secured? pod = some g := by
  obtain ⟨hm, hb⟩ := secured_eq_some.1 hg
  cases hs with
  | idle _ ha => rw [ha.secured, hg]
  | retained _ ha =>
    rw [ha.secured]
    exact hg
  | @claimed op x id hop hx ha =>
    rw [ha.secured]
    exact secured_eq_some.2 ⟨fun hm' => hm (mem_filter_ne.1 hm').1, hb⟩
  | @takenOver op s hop hs hx ha =>
    rw [ha.secured]
    refine secured_eq_some.2 ⟨hm, ?_⟩
    exact (lookup_cons_ne _ (ne_of_lookup hb hx) _).trans hb
  | detached hx ha =>
    rw [ha.secured]
    refine secured_eq_some.2 ⟨hm, ?_⟩
    exact (lookup_cons_ne _ (ne_of_lookup hb hx) _).trans hb
  | @released x ha =>
    have hne : pod ≠ x := fun hx => hr (by rw [hx])
    rw [ha.secured]
    refine secured_eq_some.2 ⟨fun hm' => hm (mem_filter_ne.1 hm').1, ?_⟩
    exact (lookup_filter_ne _ hne).trans hb
  | started hc ha =>
    rw [ha.secured]
    show (p.turnOver _).secured? pod = _
    rw [secured_turnOver h, kept_of_secured hg]

end Pool
end StageHost

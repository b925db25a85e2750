import StageHost.Proofs.Pool.Queue
/-
  Pods that an operation does not name.
  What a pod claims depends on two things: the guest that it has, in its entry or in the slot
  (`has?`), and whether it is marked as reclaimed (`claim_fst`). An operation that begins no cycle
  leaves both as they are for every pod that it does not name (`Steps.alike`). The beginning of a
  cycle does so too, also where a guest moves from the slot to an entry, up to three exceptions
  (`claim_of_bystander`).
-/
namespace StageHost
namespace Pool

variable {γ ε : Type}

theorem pod_of_claims {op : Op γ ε} {pod : String} (hop : op.Claims pod) : op.pod? = some pod := by
  rcases hop with rfl | rfl <;> rfl

/-! ## What a pod finds -/

/-- The guest that a pod has: that of its entry, or else that of the slot if it is the pod's. -/
def has? (p : Pool γ) (pod : String) : Option Nat :=
  (p.binding.lookup pod).or ((p.slot.filter (·.pod = pod)).map (·.guest))

theorem has_of_entry {p : Pool γ} {pod : String} {id : Nat} (h : p.binding.lookup pod = some id) :
    p.has? pod = some id := by
  unfold has?
  rw [h, Option.some_or]

theorem has_of_slot {p : Pool γ} {s : Slot} (hs : p.slot = some s)
    (h : p.binding.lookup s.pod = none) : p.has? s.pod = some s.guest := by
  unfold has?
  rw [h, hs, Option.none_or, Option.filter_some_pos (by simp), Option.map_some]

/-- A pod that the slot is not of has its entry or nothing. -/
theorem has_of_ne {p : Pool γ} {pod : String} (h : ∀ s ∈ p.slot, s.pod ≠ pod) :
    p.has? pod = p.binding.lookup pod := by
  have hf : p.slot.filter (·.pod = pod) = none := by
    rw [Option.filter_eq_none_iff]
    intro s hs
    simpa using h s hs
  unfold has?
  rw [hf, Option.map_none, Option.or_none]

theorem claim_fst (p : Pool γ) (pod : String) :
    (p.claim pod).1 = match p.has? pod with
      | some id => .held id
      | none => if pod ∈ p.reclaimed then .reclaimed else .unscheduled := by
  cases hb : p.binding.lookup pod with
  | some id => rw [claim_of_entry hb, has_of_entry hb]
  | none =>
    by_cases hs : ∃ s ∈ p.slot, s.pod = pod
    · obtain ⟨s, hs, rfl⟩ := hs
      rw [claim_of_slot hs hb, has_of_slot hs hb]
    · have hne : ∀ s ∈ p.slot, s.pod ≠ pod := fun s hm hp => hs ⟨s, hm, hp⟩
      rw [claim_of_none hb hne, has_of_ne hne, hb]

/-- Whether a pod finds the same in two pools. -/
structure Alike (pod : String) (p q : Pool γ) : Prop where
  has : q.has? pod = p.has? pod
  marked : pod ∈ q.reclaimed ↔ pod ∈ p.reclaimed

theorem Alike.claim {p q : Pool γ} {pod : String} (h : Alike pod p q) :
    (q.claim pod).1 = (p.claim pod).1 := by
  rw [claim_fst, claim_fst, h.has]
  split
  · rfl
  · rw [if_congr h.marked rfl rfl]

/-- The same entry of a pod, and the same guest for it in the slot. -/
theorem alike_of_entry {p q : Pool γ} {pod : String}
    (hb : q.binding.lookup pod = p.binding.lookup pod)
    (hs : (q.slot.filter (·.pod = pod)).map (·.guest) = (p.slot.filter (·.pod = pod)).map (·.guest))
    (hr : q.reclaimed = p.reclaimed) : Alike pod p q := by
  refine ⟨?_, by rw [hr]⟩
  unfold has?
  rw [hb, hs]

/-! ## Operations that begin no cycle -/

theorem Steps.alike {p q : Pool γ} {op : Op γ ε} {pod : String} (h : p.Steps q op)
    (hop : op.pod? ≠ some pod) (hbegin : ¬ op.Begins p) : Alike pod p q := by
  cases h with
  | idle _ ha => exact alike_of_entry (by rw [ha.binding]) (by rw [ha.slot]) ha.reclaimed
  | @retained s r hs ha =>
    refine alike_of_entry (by rw [ha.binding]) ?_ ha.reclaimed
    rw [ha.slot, hs]
    by_cases hpod : s.pod = pod <;> simp [Option.filter, hpod]
  | claimed hclaims _ ha =>
    exact alike_of_entry (by rw [ha.binding]; rfl) (by rw [ha.slot]; rfl) ha.reclaimed
  | @takenOver op s hclaims hs _ ha =>
    have hne : s.pod ≠ pod := by
      rintro rfl
      exact hop (pod_of_claims hclaims)
    refine alike_of_entry ?_ ?_ ha.reclaimed
    · rw [ha.binding]
      exact lookup_cons_ne _ (Ne.symm hne) _
    · rw [ha.slot, hs]
      simp [hold, Option.filter, hne]
  | @detached create x id _ ha =>
    have hne : pod ≠ x := fun hx => hop (by rw [hx]; rfl)
    refine alike_of_entry ?_ (by rw [ha.slot]; rfl) ha.reclaimed
    rw [ha.binding]
    exact lookup_cons_ne _ hne _
  | @released x ha =>
    have hne : pod ≠ x := fun hx => hop (by rw [hx]; rfl)
    refine alike_of_entry ?_ ?_ ha.reclaimed
    · rw [ha.binding]
      exact lookup_filter_ne _ hne
    · rw [ha.slot]
      cases p.slot with
      | none => rfl
      | some s =>
        have hkeep : (s.unretain x).pod = s.pod ∧ (s.unretain x).guest = s.guest := by
          unfold Slot.unretain
          split <;> exact ⟨rfl, rfl⟩
        by_cases hpod : s.pod = pod <;> simp [Option.filter, hkeep, hpod]
  | started hc => exact absurd hc hbegin

/-! ## What the beginning of a cycle takes from other pods -/

/-- Whether the guest of a pod, with no entry of its own, is in the slot and not retained. -/
def Retags (p : Pool γ) (pod : String) : Prop :=
  p.binding.lookup pod = none ∧ ∃ s ∈ p.slot, s.pod = pod ∧ s.retention = none

instance (p : Pool γ) (pod : String) : Decidable (p.Retags pod) :=
  inferInstanceAs (Decidable (_ ∧ ∃ s ∈ p.slot, _))

/-- Whether the guest of the slot is to be parked tentatively, and the queue has no room. -/
def Overflows (p : Pool γ) : Prop :=
  p.parked.length = parkedLimit ∧
    ∃ s ∈ p.slot, s.retention = some .tentative ∧ p.binding.lookup s.pod = none

instance (p : Pool γ) : Decidable (p.Overflows) :=
  inferInstanceAs (Decidable (_ ∧ ∃ s ∈ p.slot, _))

/-- Whether the guest to be parked takes the place of a pod's guest, the oldest one parked. -/
def Ousts (p : Pool γ) (pod : String) : Prop := p.Overflows ∧ p.parked.head? = some pod

instance (p : Pool γ) (pod : String) : Decidable (p.Ousts pod) :=
  inferInstanceAs (Decidable (_ ∧ _))

/-- Whether one more mark pushes out the only mark of a pod. -/
def Evicts (p : Pool γ) (pod : String) : Prop :=
  p.reclaimed.length = reclaimedLimit ∧ p.reclaimed.head? = some pod ∧ pod ∉ p.reclaimed.tail

/-- Whether a pod that has no guest loses its mark to the mark of a pod whose guest is ousted. -/
def Forgets (p : Pool γ) (pod : String) : Prop :=
  p.Overflows ∧ p.Evicts pod ∧ p.has? pod = none

theorem overflows_iff {p : Pool γ} {s : Slot} (hs : p.slot = some s) :
    p.Overflows ↔ p.parked.length = parkedLimit ∧ s.retention = some .tentative ∧
      p.binding.lookup s.pod = none := by
  simp [Overflows, hs]

theorem has_of_retags {p : Pool γ} {pod : String} (h : p.Retags pod) :
    ∃ id, p.has? pod = some id := by
  obtain ⟨hb, s, hs, rfl, -⟩ := h
  exact ⟨s.guest, has_of_slot hs hb⟩

theorem has_of_ousts {p : Pool γ} (h : p.Queued) {pod : String} (ho : p.Ousts pod) :
    ∃ id, p.has? pod = some id := by
  obtain ⟨id, hb⟩ := Option.isSome_iff_exists.1 (h.entry pod (List.mem_of_head? ho.2))
  exact ⟨id, has_of_entry hb⟩

/-- A pod whose guest is not in the slot, or retained there, is not retagged. -/
theorem not_retags_of_retained {p : Pool γ} {s : Slot} (hs : p.slot = some s)
    (hr : s.retention ≠ none) (pod : String) : ¬ p.Retags pod := by
  rintro ⟨-, t, ht, -, hn⟩
  rw [hs] at ht
  cases ht
  exact hr hn

theorem not_overflows_of_unretained {p : Pool γ} {s : Slot} (hs : p.slot = some s)
    (hr : s.retention = none) : ¬ p.Overflows := by
  rw [overflows_iff hs, hr]
  simp

theorem mem_remember {p : Pool γ} (h : p.reclaimed.length ≤ reclaimedLimit) (pod x : String) :
    x ∈ (p.remember pod).reclaimed ↔ x = pod ∨ x ∈ p.reclaimed ∧ ¬ p.Evicts x := by
  unfold remember Evicts
  dsimp only
  split
  · rename_i hlen
    rw [List.length_append, List.length_singleton] at hlen
    have hfull : p.reclaimed.length = reclaimedLimit := by omega
    cases hr : p.reclaimed with
    | nil =>
      rw [hr] at hfull
      cases hfull
    | cons y rest =>
      rw [hr] at hfull
      simp only [List.cons_append, List.drop_succ_cons, List.drop_zero, List.mem_append,
        List.mem_cons, List.head?_cons, List.tail_cons, hfull, true_and,
        Option.some.injEq]
      by_cases hx : x ∈ rest
      · simp [hx]
      · by_cases hy : y = x
        · simp [hx, hy]
        · simp [hx, Ne.symm hy]
  · rename_i hlen
    rw [List.length_append, List.length_singleton] at hlen
    have hroom : p.reclaimed.length ≠ reclaimedLimit := by omega
    simp [hroom, or_comm]

/-! ## New cycles -/

/-- What the beginning of a cycle leaves to a pod of what the pod had. -/
structure Leaves (p q : Pool γ) (pod : String) : Prop where
  kept : ¬ p.Retags pod → ¬ p.Ousts pod → q.binding.lookup pod = p.has? pod
  lost : p.Retags pod ∨ p.Ousts pod → q.binding.lookup pod = none
  marked : pod ∈ q.reclaimed ↔
    p.Ousts pod ∨ pod ∈ p.reclaimed ∧ ¬ (p.Overflows ∧ p.Evicts pod)

/-- Without an overflow only the guest of an unretained slot is lost. -/
theorem leaves_of_not_overflows {p q : Pool γ} {pod : String} (ho : ¬ p.Overflows)
    (hkept : ¬ p.Retags pod → q.binding.lookup pod = p.has? pod)
    (hlost : p.Retags pod → q.binding.lookup pod = none)
    (hmarked : pod ∈ q.reclaimed ↔ pod ∈ p.reclaimed) : p.Leaves q pod := by
  have hout : ¬ p.Ousts pod := fun h => ho h.1
  refine ⟨fun hr _ => hkept hr, fun h => hlost (h.resolve_right hout), ?_⟩
  simp [hmarked, hout, ho]

/-- What a pod has when the slot is taken: the guest of the slot goes to its pod if that has no
entry. -/
theorem has_of_slotted {p : Pool γ} {s : Slot} (hs : p.slot = some s) (pod : String) :
    p.has? pod =
      if pod = s.pod then some ((p.binding.lookup s.pod).getD s.guest)
      else p.binding.lookup pod := by
  split
  · rename_i hpod
    subst hpod
    cases hb : p.binding.lookup s.pod with
    | some id => rw [has_of_entry hb, Option.getD_some]
    | none => rw [has_of_slot hs hb, Option.getD_none]
  · rename_i hpod
    refine has_of_ne ?_
    intro t ht htx
    rw [hs] at ht
    cases ht
    exact hpod htx.symm

/-- The guest of the slot in an entry of its pod, beside the entries of the others. -/
theorem lookup_hold_slot {p : Pool γ} {s : Slot} (hs : p.slot = some s)
    (hb : p.binding.lookup s.pod = none) (pod : String) :
    (p.hold s.pod s.guest).binding.lookup pod = p.has? pod := by
  rw [has_of_slotted hs]
  split
  · rename_i hpod
    rw [hpod, hb, Option.getD_none]
    exact List.lookup_cons_self
  · rename_i hpod
    exact lookup_cons_ne _ hpod _

theorem Parks.leaves {p q : Pool γ} {s : Slot} {r : Retention} (h : p.Queued)
    (hs : p.slot = some s) (hr : s.retention = some r)
    (hq : { p with slot := none }.Parks s.pod s.guest r q) (pod : String) : p.Leaves q pod := by
  have hretained : s.retention ≠ none := by simp [hr]
  have hnot := not_retags_of_retained hs hretained pod
  cases hq with
  | @taken r other hb =>
    have hb : p.binding.lookup s.pod = some other := hb
    have hroom : ¬ p.Overflows := by simp [overflows_iff hs, hb]
    refine leaves_of_not_overflows hroom (fun _ => ?_) (fun ht => absurd ht hnot) Iff.rfl
    rw [has_of_slotted hs, hb, Option.getD_some]
    split
    · rename_i hpod
      rw [hpod]
      exact hb
    · rfl
  | firm hb =>
    have hroom : ¬ p.Overflows := by simp [overflows_iff hs, hr]
    exact leaves_of_not_overflows hroom (fun _ => lookup_hold_slot hs hb pod)
      (fun ht => absurd ht hnot) Iff.rfl
  | room hb hlen =>
    have hlen : p.parked.length < parkedLimit := hlen
    have hroom : ¬ p.Overflows := fun ho => Nat.ne_of_lt hlen ho.1
    exact leaves_of_not_overflows hroom (fun _ => lookup_hold_slot hs hb pod)
      (fun ht => absurd ht hnot) Iff.rfl
  | @overflow oldest rest hb hk hlen =>
    have hk : p.parked = oldest :: rest := hk
    have hfull : p.parked.length = parkedLimit := by rw [hk, List.length_cons, hlen]
    have hover : p.Overflows := (overflows_iff hs).2 ⟨hfull, hr, hb⟩
    have hout : p.Ousts pod ↔ pod = oldest := by
      simp [Ousts, hover, hk, eq_comm]
    obtain ⟨t, ht⟩ : ∃ t, t =
        { ({ p with slot := none }.hold s.pod s.guest) with parked := rest ++ [s.pod] }.freeBinding
          oldest := ⟨_, rfl⟩
    have hbind : t.binding = (p.hold s.pod s.guest).binding.filter (·.1 ≠ oldest) := by
      rw [ht, binding_freeBinding]
      rfl
    have hmarks : t.reclaimed = p.reclaimed := by
      rw [ht, reclaimed_freeBinding]
      rfl
    rw [← ht]
    refine ⟨fun _ hno => ?_, fun hl => ?_, ?_⟩
    · have hne : pod ≠ oldest := fun hpod => hno (hout.2 hpod)
      show t.binding.lookup pod = _
      rw [hbind, lookup_filter_ne _ hne, lookup_hold_slot hs hb]
    · have hpod : pod = oldest := hout.1 (hl.resolve_left hnot)
      show t.binding.lookup pod = none
      rw [hbind, hpod, lookup_filter_self]
    · have hle : t.reclaimed.length ≤ reclaimedLimit := hmarks ▸ h.reclaimed_le
      have hevicts : t.Evicts pod ↔ p.Evicts pod := by rw [Evicts, Evicts, hmarks]
      rw [mem_remember hle, hmarks, hevicts, hout, and_iff_right hover]

/-- Abandoning the earlier cycles of a pod leaves the others alone. -/
theorem Leaves.abandon {p q : Pool γ} {pod x : String} (h : p.Leaves q pod) (hx : pod ≠ x) :
    p.Leaves (q.abandon x) pod := by
  have hb : (q.abandon x).binding.lookup pod = q.binding.lookup pod := lookup_abandon_ne q hx
  refine ⟨fun hr ho => hb.trans (h.kept hr ho), fun hl => hb.trans (h.lost hl), ?_⟩
  rw [reclaimed_abandon, mem_filter_ne, and_iff_left hx]
  exact h.marked

theorem Turns.leaves {p q : Pool γ} {pod x : String} (h : p.Queued) (hq : p.Turns x q)
    (hx : pod ≠ x) : p.Leaves q pod := by
  cases hq with
  | empty hs =>
    have hover : ¬ p.Overflows := by simp [Overflows, hs]
    have hnot : ¬ p.Retags pod := by simp [Retags, hs]
    have hhas : p.has? pod = p.binding.lookup pod := has_of_ne (by simp [hs])
    exact leaves_of_not_overflows hover (fun _ => hhas.symm) (fun ht => absurd ht hnot) Iff.rfl
  | @unretained s hs hr =>
    have hover := not_overflows_of_unretained hs hr
    refine Leaves.abandon ?_ hx
    refine leaves_of_not_overflows hover (fun hnot => ?_) (fun ht => ht.1) Iff.rfl
    -- the slot is of another pod, or the pod has an entry
    show p.binding.lookup pod = p.has? pod
    cases hb : p.binding.lookup pod with
    | some id => exact (has_of_entry hb).symm
    | none =>
      have hne : ∀ t ∈ p.slot, t.pod ≠ pod := by
        intro t ht hpod
        rw [hs] at ht
        cases ht
        exact hnot ⟨hb, s, hs, hpod, hr⟩
      rw [has_of_ne hne, hb]
  | retained hs hr hq => exact (hq.leaves h hs hr pod).abandon hx

theorem Leaves.agrees {p q r : Pool γ} {pod : String} (h : p.Leaves q pod) {slot : Option Slot}
    (ha : { q with slot }.Agrees r) : p.Leaves r pod := by
  refine ⟨fun hr ho => ?_, fun hl => ?_, ?_⟩
  · rw [ha.binding]
    exact h.kept hr ho
  · rw [ha.binding]
    exact h.lost hl
  · rw [ha.reclaimed]
    exact h.marked

/-- After the beginning of a cycle every other pod has what is left to it in its entry. -/
theorem leaves_step {p : Pool γ} (h : p.Queued) {op : Op γ ε} {pod : String}
    (hop : op.pod? ≠ some pod) (hbegin : op.Begins p) :
    p.Leaves (p.step op) pod ∧ (p.step op).has? pod = (p.step op).binding.lookup pod := by
  cases steps_step p op with
  | idle hidle _ => exact absurd hbegin hidle
  | retained | detached | released => exact hbegin.elim
  | claimed hclaims _ _ | takenOver hclaims _ _ _ =>
    exact absurd hbegin (not_begins_of_claims hclaims p)
  | @started create cycle x g hc ha =>
    have hx : pod ≠ x := fun hpod => hop (by rw [hpod]; rfl)
    refine ⟨((h.turns x).leaves h hx).agrees ha, has_of_ne ?_⟩
    intro s hs
    rw [ha.slot] at hs
    obtain ⟨id, -, rfl⟩ := Option.map_eq_some_iff.1 hs
    exact Ne.symm hx

/-! ## What bystanders claim -/

theorem Leaves.claim_of_lost {p q : Pool γ} {pod : String} (h : p.Leaves q pod)
    (hhas : q.has? pod = q.binding.lookup pod) (hl : p.Retags pod ∨ p.Ousts pod) :
    (q.claim pod).1 = if pod ∈ q.reclaimed then .reclaimed else .unscheduled := by
  rw [claim_fst, hhas, h.lost hl]

theorem Leaves.claim_of_ousts {p q : Pool γ} {pod : String} (h : p.Leaves q pod)
    (hhas : q.has? pod = q.binding.lookup pod) (ho : p.Ousts pod) :
    (q.claim pod).1 = .reclaimed := by
  rw [h.claim_of_lost hhas (.inr ho), if_pos (h.marked.2 (.inl ho))]

theorem Leaves.claim_ne_iff {p q : Pool γ} {pod : String} (hp : p.Queued) (h : p.Leaves q pod)
    (hhas : q.has? pod = q.binding.lookup pod) :
    (q.claim pod).1 ≠ (p.claim pod).1 ↔ p.Retags pod ∨ p.Ousts pod ∨ p.Forgets pod := by
  by_cases hl : p.Retags pod ∨ p.Ousts pod
  · -- the pod had a guest and has none
    obtain ⟨id, hid⟩ : ∃ id, p.has? pod = some id :=
      hl.elim has_of_retags (has_of_ousts hp)
    have hne : (q.claim pod).1 ≠ (p.claim pod).1 := by
      rw [h.claim_of_lost hhas hl, claim_fst, hid]
      split <;> simp
    exact iff_of_true hne (hl.imp_right .inl)
  · have hr : ¬ p.Retags pod := fun hr => hl (.inl hr)
    have ho : ¬ p.Ousts pod := fun ho => hl (.inr ho)
    rw [claim_fst, claim_fst, hhas, h.kept hr ho]
    cases hid : p.has? pod with
    | some id =>
      have hf : ¬ p.Forgets pod := by simp [Forgets, hid]
      exact iff_of_false (by simp) (by simp [hr, ho, hf])
    | none =>
      -- without a guest all depends on the mark
      by_cases hf : p.Overflows ∧ p.Evicts pod
      · have hbefore : pod ∈ p.reclaimed := List.mem_of_head? hf.2.2.1
        have hafter : pod ∉ q.reclaimed := by simp [h.marked, ho, hf]
        exact iff_of_true (by simp [hbefore, hafter]) (.inr (.inr ⟨hf.1, hf.2, hid⟩))
      · have hsame : pod ∈ q.reclaimed ↔ pod ∈ p.reclaimed := by simp [h.marked, ho, hf]
        have hnot : ¬ p.Forgets pod := fun hg => hf ⟨hg.1, hg.2.1⟩
        exact iff_of_false (by simp [hsame]) (by simp [hr, ho, hnot])

/-- A pod that an operation does not name claims the same before and after it, with just three
exceptions, all where a cycle begins on a slot that is taken: its guest was in the slot and not
retained; its guest was the oldest of those parked, and one more came; or its only mark was the
oldest of those remembered, and one more came. A pod whose guest is ousted finds that it was
reclaimed. A pod whose guest is retained in the slot claims what it would have claimed, also when
the cycle gets no guest. -/
theorem claim_of_bystander {p : Pool γ} (hp : p.Reachable ε) {op : Op γ ε} {pod : String}
    (hop : op.pod? ≠ some pod) :
    (((p.step op).claim pod).1 ≠ (p.claim pod).1 ↔
      op.Begins p ∧ (p.Retags pod ∨ p.Ousts pod ∨ p.Forgets pod)) ∧
    (op.Begins p → p.Ousts pod → ((p.step op).claim pod).1 = .reclaimed) ∧
    (∀ s ∈ p.slot, s.pod = pod → s.retention ≠ none →
      ((p.step op).claim pod).1 = (p.claim pod).1) := by
  have hqueued := hp.queued
  have hiff : ((p.step op).claim pod).1 ≠ (p.claim pod).1 ↔
      op.Begins p ∧ (p.Retags pod ∨ p.Ousts pod ∨ p.Forgets pod) := by
    by_cases hbegin : op.Begins p
    · obtain ⟨hleaves, hhas⟩ := leaves_step hqueued hop hbegin
      rw [hleaves.claim_ne_iff hqueued hhas, and_iff_right hbegin]
    · have hsame := ((steps_step p op).alike hop hbegin).claim
      exact iff_of_false (fun hne => hne hsame) (fun h => hbegin h.1)
  refine ⟨hiff, ?_, ?_⟩
  · intro hbegin ho
    obtain ⟨hleaves, hhas⟩ := leaves_step hqueued hop hbegin
    exact hleaves.claim_of_ousts hhas ho
  · rintro s hs rfl hr
    by_contra hne
    obtain ⟨-, hret | hout | hforget⟩ := hiff.1 hne
    · exact not_retags_of_retained hs hr s.pod hret
    · -- a parked pod has an entry, so that its slot would not be parked
      obtain ⟨hover, hhead⟩ := hout
      have hb := ((overflows_iff hs).1 hover).2.2
      exact hqueued.not_mem hb (List.mem_of_head? hhead)
    · obtain ⟨hover, -, hnone⟩ := hforget
      have hb := ((overflows_iff hs).1 hover).2.2
      rw [has_of_slot hs hb] at hnone
      cases hnone

/-- In a crowd the first guest parked is ousted, and the pod of the slot keeps its own even if the
next cycle gets no guest. -/
theorem first_is_ousted_and_last_is_kept :
    let p := (empty : Pool Nat).run (crowd ["p", "a", "b", "c", "d", "e", "f", "g", "h"])
    ((p.step (.schedule .ok 9 "i" : Op Nat String)).claim "p").1 = .reclaimed ∧
      ((p.step (.schedule (fun _ => .error "out of memory") 9 "i")).claim "h").1 =
        (p.claim "h").1 := by
  intro p
  have hp : p.Reachable String := ⟨_, rfl⟩
  have hbegin : p.Starts 9 := by decide
  constructor
  · exact (claim_of_bystander hp (by decide)).2.1 hbegin (by decide)
  · exact (claim_of_bystander hp (by decide)).2.2 ⟨8, "h", some .tentative, 9⟩ (by decide) rfl
      (by decide)

end Pool
end StageHost

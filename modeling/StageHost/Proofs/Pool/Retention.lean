import StageHost.Proofs.Pool.Custody
import StageHost.Proofs.Pool.History
/-
  A retained guest reaches its own pod.
  `Standing` says how a pod stands in the course of a run that finds its guest retained in the slot:
  the guest is in the slot still, it is secured for the pod, or it was parked tentatively and is
  `Away`, in the queue or reclaimed. `standing_step` is the step and `standing_run` the run.
  `retained_guest_reaches_pod` reads off what the pod can claim at any time.
-/
namespace StageHost
namespace Pool

variable {γ ε : Type}

/-! ## Places in the queue and among the marks -/

/-- Whether an event is a reclamation. -/
def Parking.isReclaim : Parking → Bool
  | .parks .. => false
  | .reclaims _ => true

/-- The number of reclamations among some events. -/
def reclamations (events : List Parking) : Nat := events.countP Parking.isReclaim

theorem reclamations_parks (events : List Parking) (pod : String) (id : Nat) :
    reclamations (events ++ [.parks pod id]) = reclamations events := by
  unfold reclamations
  rw [List.countP_append]
  rfl

theorem reclamations_parks_reclaims (events : List Parking) (pod oldest : String) (id : Nat) :
    reclamations (events ++ [.parks pod id, .reclaims oldest]) = reclamations events + 1 := by
  unfold reclamations
  rw [List.countP_append]
  rfl

/-- A pod waits in a queue, and behind it are only pods parked by some events. -/
def Waits (queue : List String) (pod : String) (between : List Parking) : Prop :=
  ∃ a b, queue = a ++ pod :: b ∧ b.Sublist (latest between)

/-- A pod has a mark with no more marks behind it than reclamations among some events, or these
are enough to push the mark out. -/
def Marked (marks : List String) (pod : String) (after : List Parking) : Prop :=
  (∃ a b, marks = a ++ pod :: b ∧ b.length ≤ reclamations after) ∨
    reclaimedLimit ≤ reclamations after

theorem Waits.filter {queue : List String} {pod x : String} {between : List Parking}
    (h : Waits queue pod between) (hx : pod ≠ x) : Waits (queue.filter (· ≠ x)) pod between := by
  obtain ⟨a, b, rfl, hb⟩ := h
  refine ⟨a.filter (· ≠ x), b.filter (· ≠ x), ?_, List.filter_sublist.trans hb⟩
  rw [List.filter_append, List.filter_cons_of_pos (by simpa using hx)]

theorem Waits.push {queue : List String} {pod x : String} {between : List Parking}
    (h : Waits queue pod between) (hx : x ∉ queue) (id : Nat) :
    Waits (queue ++ [x]) pod (between ++ [.parks x id]) := by
  obtain ⟨a, b, rfl, hb⟩ := h
  refine ⟨a, b ++ [x], by simp, ?_⟩
  rw [latest_parks]
  exact sublist_latest hb fun hm => hx (List.mem_append_right _ (List.mem_cons_of_mem _ hm))

theorem Waits.reclaims {queue : List String} {pod : String} {between : List Parking}
    (h : Waits queue pod between) (x : String) : Waits queue pod (between ++ [.reclaims x]) := by
  obtain ⟨a, b, hq, hb⟩ := h
  refine ⟨a, b, hq, ?_⟩
  rw [latest_reclaims]
  exact hb

theorem Marked.filter {marks : List String} {pod x : String} {after : List Parking}
    (h : Marked marks pod after) (hx : pod ≠ x) : Marked (marks.filter (· ≠ x)) pod after := by
  refine h.imp_left ?_
  rintro ⟨a, b, rfl, hb⟩
  refine ⟨a.filter (· ≠ x), b.filter (· ≠ x), ?_, Nat.le_trans (List.length_filter_le _ _) hb⟩
  rw [List.filter_append, List.filter_cons_of_pos (by simpa using hx)]

theorem marked_remember_self (p : Pool γ) (pod : String) :
    Marked (p.remember pod).reclaimed pod [] := by
  refine .inl ?_
  unfold Pool.remember
  dsimp only
  split
  · rename_i hlen
    cases hr : p.reclaimed with
    | nil =>
      rw [hr] at hlen
      simp [reclaimedLimit] at hlen
    | cons y marks => exact ⟨marks, [], rfl, Nat.le_refl _⟩
  · exact ⟨p.reclaimed, [], rfl, Nat.le_refl _⟩

/-- One more reclamation leaves a pod marked, or was the one too many. -/
theorem Marked.remember {p : Pool γ} {pod : String} {after : List Parking}
    (h : Marked p.reclaimed pod after) (x y : String) (id : Nat) :
    Marked (p.remember x).reclaimed pod (after ++ [.parks y id, .reclaims x]) := by
  unfold Marked
  rw [reclamations_parks_reclaims]
  obtain ⟨a, b, hr, hb⟩ | hmany := h
  · unfold Pool.remember
    dsimp only
    rw [hr]
    split
    · rename_i hlen
      cases a with
      | nil =>
        refine .inr ?_
        simp only [List.nil_append, List.cons_append, List.length_cons, List.length_append,
          List.length_nil] at hlen
        omega
      | cons z a =>
        refine .inl ⟨a, b ++ [x], by simp, ?_⟩
        rw [List.length_append, List.length_singleton]
        omega
    · refine .inl ⟨a, b ++ [x], by simp, ?_⟩
      rw [List.length_append, List.length_singleton]
      omega
  · exact .inr (by omega)

/-! ## Pods away from the slot -/

/-- A pod's guest was parked tentatively in the course of some events and has not been claimed
since. -/
inductive Away (q : Pool γ) (pod : String) (g : Nat) (events : List Parking) : Prop
  | waiting (before between : List Parking) (he : events = before ++ .parks pod g :: between)
    (hn : pod ∉ latest between) (hb : q.binding.lookup pod = some g)
    (hw : Waits q.parked pod between)
  /-- The guest was reclaimed after enough others were parked. -/
  | lost (before between after : List Parking)
    (he : events = before ++ .parks pod g :: (between ++ .reclaims pod :: after))
    (hn : pod ∉ latest between) (hl : parkedLimit ≤ (latest between).length)
    (hb : q.binding.lookup pod = none) (hm : Marked q.reclaimed pod after)

/-- Nothing that concerns the pod happens. -/
theorem Away.mono {p q : Pool γ} {pod : String} {g : Nat} {events : List Parking}
    (h : p.Away pod g events) (hb : q.binding.lookup pod = p.binding.lookup pod)
    (hw : ∀ between, Waits p.parked pod between → Waits q.parked pod between)
    (hm : ∀ after, Marked p.reclaimed pod after → Marked q.reclaimed pod after) :
    q.Away pod g events := by
  cases h with
  | waiting before between he hn hp hq =>
    exact .waiting before between he hn (hb.trans hp) (hw _ hq)
  | lost before between after he hn hl hp hq =>
    exact .lost before between after he hn hl (hb.trans hp) (hm _ hq)

theorem Away.agrees {p q : Pool γ} {pod : String} {g : Nat} {events : List Parking}
    (h : p.Away pod g events) (ha : p.Agrees q) : q.Away pod g events :=
  h.mono (by rw [ha.binding]) (fun _ hw => by rwa [ha.parked])
    (fun _ hm => by rwa [ha.reclaimed])

theorem Away.setSlot {p : Pool γ} {pod : String} {g : Nat} {events : List Parking}
    (h : p.Away pod g events) (s : Option Slot) : { p with slot := s }.Away pod g events :=
  h.mono rfl (fun _ hw => hw) (fun _ hm => hm)

/-- Another pod gets an entry. -/
theorem Away.hold {p : Pool γ} {pod x : String} {g : Nat} {events : List Parking}
    (h : p.Away pod g events) (hx : pod ≠ x) (id : Nat) : (p.hold x id).Away pod g events :=
  h.mono (lookup_cons_ne _ hx _) (fun _ hw => hw) (fun _ hm => hm)

/-- Another pod is taken out of the queue. -/
theorem Away.unpark {p : Pool γ} {pod x : String} {g : Nat} {events : List Parking}
    (h : p.Away pod g events) (hx : pod ≠ x) : (p.unpark x).Away pod g events :=
  h.mono rfl (fun _ hw => hw.filter hx) (fun _ hm => hm)

theorem Away.abandon {p : Pool γ} {pod : String} {g : Nat} {events : List Parking}
    (h : p.Away pod g events) {x : String} (hx : pod ≠ x) : (p.abandon x).Away pod g events := by
  refine h.mono (lookup_abandon_ne p hx) ?_ ?_
  · intro between hw
    rw [parked_abandon]
    exact hw.filter hx
  · intro after hm
    rw [reclaimed_abandon]
    exact hm.filter hx

theorem not_mem_latest_parks {pod x : String} {between : List Parking}
    (hn : pod ∉ latest between) (hx : pod ≠ x) (id : Nat) :
    pod ∉ latest (between ++ [.parks x id]) := by
  rw [latest_parks]
  simp [hn, hx]

/-- A full queue makes room. -/
theorem Away.overflow {p : Pool γ} {pod x oldest : String} {g id : Nat} {rest : List String}
    {events : List Parking} (h : p.Queued) (ha : p.Away pod g events) (hx : pod ≠ x)
    (hb : p.binding.lookup x = none) (hk : p.parked = oldest :: rest)
    (hlen : rest.length + 1 = parkedLimit) :
    Away (({ p.hold x id with parked := rest ++ [x] }.freeBinding oldest).remember oldest) pod g
      (events ++ [.parks x id, .reclaims oldest]) := by
  obtain ⟨q, hq⟩ : ∃ q, q = { p.hold x id with parked := rest ++ [x] }.freeBinding oldest :=
    ⟨_, rfl⟩
  have hparked : q.parked = rest ++ [x] := by rw [hq, parked_freeBinding]
  have hreclaimed : q.reclaimed = p.reclaimed := by rw [hq, reclaimed_freeBinding]; rfl
  have hbinding : q.binding = ((x, id) :: p.binding).filter (·.1 ≠ oldest) := by
    rw [hq, binding_freeBinding]
    rfl
  have hlookup : pod ≠ oldest → q.binding.lookup pod = p.binding.lookup pod := by
    intro ho
    rw [hbinding, lookup_filter_ne _ ho, lookup_cons_ne _ hx]
  have hnot : x ∉ p.parked := h.not_mem hb
  have hnodup := h.nodup
  rw [hk, List.nodup_cons] at hnodup
  rw [hk, List.mem_cons, not_or] at hnot
  rw [← hq]
  cases ha with
  | waiting before between he hn hp hw =>
    obtain ⟨a, b, hab, hl⟩ := hw
    rw [hk] at hab
    cases a with
    | nil =>
      -- the pod itself is the oldest
      cases hab
      refine .lost before (between ++ [.parks x id]) [] ?_
        (not_mem_latest_parks hn hx id) ?_ ?_ (marked_remember_self q pod)
      · rw [he]
        simp
      · rw [latest_parks]
        have hle := (sublist_latest hl hnot.2).length_le
        rw [List.length_append, List.length_singleton] at hle
        omega
      · show q.binding.lookup pod = none
        rw [hbinding]
        exact lookup_filter_self _ _
    | cons z a =>
      rw [List.cons_append, List.cons.injEq] at hab
      obtain ⟨rfl, hrest⟩ := hab
      have ho : pod ≠ oldest := by
        rintro rfl
        exact hnodup.1 (by rw [hrest]; simp)
      refine .waiting before ((between ++ [.parks x id]) ++ [.reclaims oldest]) ?_ ?_ ?_ ?_
      · rw [he]
        simp
      · rw [latest_reclaims]
        exact not_mem_latest_parks hn hx id
      · exact (hlookup ho).trans hp
      · show Waits q.parked pod _
        rw [hparked]
        exact (Waits.push ⟨a, b, hrest, hl⟩ hnot.2 id).reclaims oldest
  | lost before between after he hn hl hp hm =>
    have ho : pod ≠ oldest := by
      rintro rfl
      exact h.not_mem hp (by rw [hk]; exact List.mem_cons_self)
    refine .lost before between (after ++ [.parks x id, .reclaims oldest]) ?_ hn hl
      ((hlookup ho).trans hp) ?_
    · rw [he]
      simp
    · exact Marked.remember (hreclaimed ▸ hm) oldest x id

/-- A pod keeps its place while guests of others are parked, or is the oldest and reclaimed. -/
theorem Away.parks {p q : Pool γ} {pod x : String} {g id : Nat} {r : Retention}
    {events : List Parking} (h : p.Queued) (ha : p.Away pod g events) (hx : pod ≠ x)
    (hq : p.Parks x id r q) : q.Away pod g (events ++ p.parkEvents x id r) := by
  cases hq with
  | taken hb =>
    rw [parkEvents_taken hb, List.append_nil]
    exact ha.agrees (Agrees.refl p).unbooked
  | firm hb =>
    rw [parkEvents_firm, List.append_nil]
    exact ha.hold hx id
  | room hb hlen =>
    rw [parkEvents_room hb hlen]
    cases ha with
    | waiting before between he hn hp hw =>
      refine .waiting before (between ++ [.parks x id]) ?_ (not_mem_latest_parks hn hx id) ?_ ?_
      · rw [he]
        simp
      · exact (lookup_cons_ne _ hx _).trans hp
      · exact hw.push (h.not_mem hb) id
    | lost before between after he hn hl hp hm =>
      refine .lost before between (after ++ [.parks x id]) ?_ hn hl ?_ ?_
      · rw [he]
        simp
      · exact (lookup_cons_ne _ hx _).trans hp
      · unfold Marked at hm ⊢
        rw [reclamations_parks]
        exact hm
  | overflow hb hk hlen =>
    rw [parkEvents_overflow hb hk hlen]
    exact ha.overflow h hx hb hk hlen

/-- A guest parked for a pod without an entry waits if it is tentative, and else is secured. -/
theorem parks_self {p q : Pool γ} {pod : String} {g : Nat} {r : Retention} (h : p.Queued)
    (hb : p.binding.lookup pod = none) (hq : p.Parks pod g r q) (events : List Parking) :
    q.secured? pod = some g ∨
      r = .tentative ∧ q.Away pod g (events ++ p.parkEvents pod g r) := by
  cases hq with
  | taken hother =>
    rw [hb] at hother
    cases hother
  | firm => exact .inl (secured_eq_some.2 ⟨h.not_mem hb, List.lookup_cons_self⟩)
  | room _ hlen =>
    rw [parkEvents_room hb hlen]
    refine .inr ⟨rfl, .waiting events [] rfl (by simp [latest]) List.lookup_cons_self ?_⟩
    exact ⟨p.parked, [], rfl, List.nil_sublist _⟩
  | @overflow oldest rest _ hk hlen =>
    have ho : pod ≠ oldest := by
      rintro rfl
      exact h.not_mem hb (by rw [hk]; exact List.mem_cons_self)
    rw [parkEvents_overflow hb hk hlen]
    refine .inr ⟨rfl, .waiting events [.reclaims oldest] rfl (by simp [latest, enqueue]) ?_ ?_⟩
    · rw [binding_overflow, lookup_filter_ne _ ho]
      exact List.lookup_cons_self
    · refine ⟨rest, [], ?_, List.nil_sublist _⟩
      exact parked_overflow _ _ _ _ _

/-! ## New cycles of other pods -/

theorem Away.turns {p q : Pool γ} {pod x : String} {g : Nat} {events : List Parking}
    (h : p.Queued) (ha : p.Away pod g events) (hs : ∀ s ∈ p.slot, s.pod ≠ pod) (hx : pod ≠ x)
    (hq : p.Turns x q) : q.Away pod g (events ++ p.turnEvents) := by
  cases hq with
  | empty hs' =>
    rw [turnEvents_empty hs', List.append_nil]
    exact ha
  | unretained hs' hr =>
    rw [turnEvents_unretained hs' hr, List.append_nil]
    exact (ha.setSlot none).abandon hx
  | @retained s r q hs' hr hq =>
    rw [turnEvents_retained hs' hr]
    exact ((ha.setSlot none).parks (h.setSlot none) (hs s hs').symm hq).abandon hx

theorem slotted_turns {p q : Pool γ} {x : String} {s : Slot} (h : p.Queued)
    (hs : p.slot = some s) (hr : s.retention ≠ none) (hb : p.binding.lookup s.pod = none)
    (hx : s.pod ≠ x) (hq : p.Turns x q) (events : List Parking) :
    q.secured? s.pod = some s.guest ∨
      s.retention = some .tentative ∧ q.Away s.pod s.guest (events ++ p.turnEvents) := by
  cases hq with
  | empty hs' =>
    rw [hs] at hs'
    cases hs'
  | unretained hs' hr' =>
    rw [hs] at hs'
    cases hs'
    exact absurd hr' hr
  | @retained t r q hs' hr' hq =>
    rw [hs] at hs'
    cases hs'
    rw [turnEvents_retained hs hr', secured_abandon, hr']
    refine (parks_self (h.setSlot none) hb hq events).imp_right ?_
    rintro ⟨rfl, ha⟩
    exact ⟨rfl, ha.abandon hx⟩

/-! ## The course of a run -/

/-- Whether an operation begins no cycle of a pod, asks for no detached guest for it, and does not
release it. -/
def Spares (pod : String) (p : Pool γ) : Op γ ε → Prop
  | .schedule _ cycle x => x = pod → ¬ p.Starts cycle
  | .detach _ x | .release x => x ≠ pod
  | .prewarm _ | .withFree .. | .retain .. | .claim _ | .bind _ | .touch _ => True

/-- Whether an operation finds a pod's guest retained tentatively, if it is in the slot, and hands
it to no binding cycle. -/
def Undecided (pod : String) (p : Pool γ) (op : Op γ ε) : Prop :=
  (∀ s ∈ p.slot, s.pod = pod → s.retention = some .tentative) ∧
    (op.Claims pod → p.gives op = none)

/-- How a pod stands whose guest was in the slot and retained before the run of some events. As
long as the guest is not secured and not firmly retained, nothing was decided in the run. -/
inductive Standing (q : Pool γ) (pod : String) (g : Nat) (events : List Parking)
    (undecided : Prop) : Prop
  | slotted {s : Slot} (hs : q.slot = some s) (hp : s.pod = pod) (hg : s.guest = g)
    (hr : s.retention ≠ none) (hb : q.binding.lookup pod = none)
    (hu : s.retention = some .tentative → undecided)
  | secured (h : q.secured? pod = some g)
  | away (hs : ∀ s ∈ q.slot, s.pod ≠ pod) (h : q.Away pod g events) (hu : undecided)

theorem Standing.claim {q : Pool γ} {pod : String} {g : Nat} {events : List Parking} {u : Prop}
    (h : q.Standing pod g events u) {id : Nat} (hid : (q.claim pod).1.guest? = some id) :
    id = g := by
  cases h with
  | slotted hs hp hg hr hb hu =>
    subst hp
    rw [claim_of_slot hs hb, hg] at hid
    exact (Option.some.inj hid).symm
  | secured hg =>
    rw [claim_of_entry (secured_eq_some.1 hg).2] at hid
    exact (Option.some.inj hid).symm
  | away hs ha hu =>
    cases ha with
    | waiting before between he hn hb hw =>
      rw [claim_of_entry hb] at hid
      exact (Option.some.inj hid).symm
    | lost before between after he hn hl hb hm =>
      rw [claim_of_none hb hs] at hid
      dsimp only at hid
      split at hid <;> cases hid

/-- An operation that begins no cycle adds nothing to the events. -/
theorem Standing.idle {p q : Pool γ} {op : Op γ ε} {pod : String} {g : Nat}
    {events : List Parking} {u : Prop} (hop : ¬ op.Begins p) (h : q.Standing pod g events u) :
    q.Standing pod g (events ++ p.parkings op) u := by
  rw [parkings_of_not_begins hop, List.append_nil]
  exact h

/-- A slotted guest stays in the slot until it is claimed, and then it is secured, or until a cycle
of another pod begins, and then it is parked. -/
theorem Steps.slotted {p q : Pool γ} {op : Op γ ε} {s : Slot} {events : List Parking} {u : Prop}
    (h : p.Queued) (hstep : p.Steps q op) (hspare : p.Spares s.pod op) (hs : p.slot = some s)
    (hr : s.retention ≠ none) (hb : p.binding.lookup s.pod = none)
    (hu : s.retention = some .tentative → u) :
    q.Standing s.pod s.guest (events ++ p.parkings op) u := by
  cases hstep with
  | idle hop ha => exact .slotted (ha.slot.trans hs) rfl rfl hr (by rw [ha.binding, hb]) hu
  | @retained t r ht ha =>
    rw [hs] at ht
    cases ht
    refine .slotted ha.slot rfl rfl (by simp) (by rw [ha.binding]; exact hb) ?_
    intro hnew
    -- a firm retention would have stayed firm
    cases hold : s.retention with
    | none => exact absurd hold hr
    | some old =>
      cases old with
      | tentative => exact hu hold
      | firm =>
        rw [hold] at hnew
        cases hnew
  | claimed hop hx ha =>
    exact .slotted (ha.slot.trans hs) rfl rfl hr (by rw [ha.binding]; exact hb) hu
  | @takenOver op t hop ht hx ha =>
    rw [hs] at ht
    cases ht
    refine .secured ?_
    rw [ha.secured]
    exact secured_eq_some.2 ⟨h.not_mem hb, List.lookup_cons_self⟩
  | @detached create x id hx ha =>
    refine .slotted (ha.slot.trans hs) rfl rfl hr ?_ hu
    rw [ha.binding]
    exact (lookup_cons_ne _ (Ne.symm hspare) _).trans hb
  | @released x ha =>
    have hx : s.pod ≠ x := Ne.symm hspare
    have hkeep : Slot.unretain x s = s := if_neg hx
    refine .slotted ?_ rfl rfl hr ?_ hu
    · rw [ha.slot, hs, Option.map_some, hkeep]
    · rw [ha.binding]
      exact (lookup_filter_ne _ hx).trans hb
  | @started create cycle x g hc ha =>
    have hx : s.pod ≠ x := fun hx => hspare hx.symm hc
    rw [parkings_of_starts hc]
    rcases slotted_turns h hs hr hb hx (h.turns x) events with hsec | ⟨ht, haway⟩
    · exact .secured ((ha.secured _).trans hsec)
    · refine .away ?_ ((haway.setSlot _).agrees ha) (hu ht)
      rw [ha.slot]
      intro t hm
      obtain ⟨id, -, rfl⟩ := Option.map_eq_some_iff.1 hm
      exact hx.symm

theorem Steps.away {p q : Pool γ} {op : Op γ ε} {pod : String} {g : Nat}
    {events : List Parking} {u : Prop} (h : p.Queued) (hstep : p.Steps q op)
    (hspare : p.Spares pod op) (hs : ∀ s ∈ p.slot, s.pod ≠ pod) (haway : p.Away pod g events)
    (hu : u) : q.Standing pod g (events ++ p.parkings op) u := by
  cases hstep with
  | idle hop ha => exact .idle hop (.away (ha.slot ▸ hs) (haway.agrees ha) hu)
  | @retained t r ht ha =>
    refine .idle id (.away ?_ ((haway.setSlot _).agrees ha) hu)
    rw [ha.slot]
    intro t' hm
    cases hm
    exact hs t ht
  | @claimed op x id hop hx ha =>
    refine .idle (not_begins_of_claims hop p) ?_
    by_cases hpod : pod = x
    · subst hpod
      cases haway with
      | waiting before between he hn hb hw =>
        refine .secured ?_
        rw [ha.secured]
        exact secured_eq_some.2 ⟨fun hm => (mem_filter_ne.1 hm).2 rfl, hb⟩
      | lost before between after he hn hl hb hm =>
        rw [hb] at hx
        cases hx
    · exact .away (ha.slot ▸ hs) ((haway.unpark hpod).agrees ha) hu
  | @takenOver op t hop ht hx ha =>
    refine .idle (not_begins_of_claims hop p) (.away (by rw [ha.slot]; nofun) ?_ hu)
    exact ((haway.setSlot none).hold (hs t ht).symm _).agrees ha
  | @detached create x other _ ha =>
    have hx : pod ≠ x := Ne.symm hspare
    exact .idle id (.away (ha.slot ▸ hs) ((haway.hold hx other).agrees ha) hu)
  | @released x ha =>
    have hx : pod ≠ x := Ne.symm hspare
    refine .idle id (.away ?_ (Away.agrees ?_ ha) hu)
    · rw [ha.slot]
      intro t' hm
      obtain ⟨t, ht, rfl⟩ := Option.map_eq_some_iff.1 hm
      unfold Slot.unretain
      split <;> exact hs t ht
    · exact haway.mono (lookup_filter_ne _ hx) (fun _ hw => hw.filter hx) (fun _ hm => hm)
  | @started create cycle x g hc ha =>
    have hx : pod ≠ x := fun hx => hspare hx.symm hc
    rw [parkings_of_starts hc]
    refine .away ?_ (((haway.turns h hs hx (h.turns x)).setSlot _).agrees ha) hu
    rw [ha.slot]
    intro t hm
    obtain ⟨id, -, rfl⟩ := Option.map_eq_some_iff.1 hm
    exact hx.symm

theorem standing_step {p : Pool γ} (h : p.Queued) {op : Op γ ε} {pod : String} {g : Nat}
    {events : List Parking} {u : Prop} (hspare : p.Spares pod op)
    (hst : p.Standing pod g events u) :
    (p.step op).Standing pod g (events ++ p.parkings op) (u ∧ p.Undecided pod op) := by
  by_cases hclaim : ∃ id, op.Claims pod ∧ p.gives op = some id
  · obtain ⟨id, hop, hid⟩ := hclaim
    have hg : id = g := hst.claim (by rw [← (step_of_claims hop p).2, hid])
    exact .secured (hg ▸ secured_claims h hop hid)
  · have hnone : op.Claims pod → p.gives op = none := fun hop =>
      Option.eq_none_iff_forall_ne_some.2 fun id hid => hclaim ⟨id, hop, hid⟩
    have hstep := steps_step p op
    cases hst with
    | @slotted s hs hp hg hr hb hu =>
      subst hp hg
      refine hstep.slotted h hspare hs hr hb fun ht => ⟨hu ht, ?_, hnone⟩
      intro t hm _
      rw [hs] at hm
      cases hm
      exact ht
    | secured hg =>
      refine .secured (hstep.secured h hg ?_)
      rintro rfl
      exact hspare rfl
    | away hs haway hu =>
      exact hstep.away h hspare hs haway ⟨hu, fun t hm hp => absurd hp (hs t hm), hnone⟩

/-- How a pod stands in the course of a run that spares it, if its guest is retained in the slot at
first and it has no entry. -/
theorem standing_run {p : Pool γ} (hp : p.Reachable ε) {s : Slot} (hs : p.slot = some s)
    (hr : s.retention ≠ none) (hb : p.binding.lookup s.pod = none) (ops : List (Op γ ε))
    (hspare : p.Along (Spares s.pod) ops) :
    (p.run ops).Standing s.pod s.guest (p.history ops) (p.Along (Undecided s.pod) ops) := by
  induction ops using List.reverseRecOn with
  | nil => exact .slotted hs rfl rfl hr hb fun _ => trivial
  | append_singleton ops op ih =>
    obtain ⟨hbefore, hop⟩ := along_snoc.1 hspare
    rw [run_append, history_snoc, along_snoc]
    exact standing_step (hp.run ops).queued hop (ih hbefore)

/-- A retained guest reaches its own pod. If the guest of a pod without an entry is retained in the
slot, then after any run that begins no new cycle of the pod, asks for no detached guest for it and
does not release it, the pod claims this guest, unless nothing was decided for it until it was
parked and reclaimed: then at least as many other pods were parked in between as the queue has
room for, and the pod finds that its guest was reclaimed, or nothing if at least as many
reclamations followed as are remembered. The guests reclaimed are the oldest ones parked. -/
theorem retained_guest_reaches_pod :
    (∀ {p : Pool γ} {s : Slot}, p.Reachable ε → p.slot = some s → s.retention ≠ none →
      p.binding.lookup s.pod = none →
      ∀ ops : List (Op γ ε), p.Along (Spares s.pod) ops →
        ((p.run ops).claim s.pod).1 = .held s.guest ∨
          p.Along (Undecided s.pod) ops ∧
            ∃ before between after : List Parking,
              p.history ops =
                before ++ .parks s.pod s.guest :: (between ++ .reclaims s.pod :: after) ∧
              s.pod ∉ latest between ∧ parkedLimit ≤ (latest between).length ∧
              (((p.run ops).claim s.pod).1 = .reclaimed ∨
                ((p.run ops).claim s.pod).1 = .unscheduled ∧
                  reclaimedLimit ≤ reclamations after)) ∧
    (∀ (ops : List (Op γ ε)) (op : Op γ ε) (pod : String),
      .reclaims pod ∈ ((empty : Pool γ).run ops).parkings op →
      pod ∈ ((empty : Pool γ).run ops).parked ∧
        ((empty : Pool γ).run (ops ++ [op])).binding.lookup pod = none ∧
        (pod :: ((empty : Pool γ).run (ops ++ [op])).parked).Sublist
          (latest ((empty : Pool γ).history (ops ++ [op])))) := by
  refine ⟨?_, reclaims_oldest⟩
  intro p s hp hs hr hb ops hspare
  cases standing_run hp hs hr hb ops hspare with
  | slotted hs' hpod hg hr' hb' hu =>
    left
    rw [← hpod, claim_of_slot hs' (hpod ▸ hb'), hg]
  | secured hg =>
    left
    rw [claim_of_entry (secured_eq_some.1 hg).2]
  | away hs' haway hu =>
    cases haway with
    | waiting before between he hn hb' hw =>
      left
      rw [claim_of_entry hb']
    | lost before between after he hn hl hb' hm =>
      right
      refine ⟨hu, before, between, after, he, hn, hl, ?_⟩
      rw [claim_of_none hb' hs']
      by_cases hmark : s.pod ∈ (p.run ops).reclaimed
      · exact .inl (if_pos hmark)
      · refine .inr ⟨if_neg hmark, ?_⟩
        obtain ⟨a, b, hr, -⟩ | hmany := hm
        · exact absurd (by rw [hr]; simp) hmark
        · exact hmany

/-- A firm guest outlasts a cycle of another pod, and in a crowd the first guest parked is the one
reclaimed. -/
theorem firm_is_held_and_first_is_reclaimed :
    (((empty : Pool Nat).run (parkingRun .firm)).claim "p").1 = .held 1 ∧
      ("p" :: ((empty : Pool Nat).run (crowd ["p", "a", "b", "c", "d", "e", "f", "g", "h"] ++
          [.schedule .ok 9 "i"])).parked).Sublist
        (latest ((empty : Pool Nat).history (crowd ["p", "a", "b", "c", "d", "e", "f", "g", "h"] ++
          [.schedule .ok 9 "i"]))) := by
  constructor
  · have hretained : ((empty : Pool Nat).run
        [(.schedule .ok 1 "p" : Op Nat String), .retain 1 .firm]).Reachable String := ⟨_, rfl⟩
    have hreach := retained_guest_reaches_pod.1 (s := ⟨1, "p", some .firm, 1⟩) hretained rfl
      (by simp) rfl [.schedule .ok 2 "q"] ⟨fun h => absurd h (by decide), trivial⟩
    refine hreach.resolve_right ?_
    rintro ⟨⟨⟨hslot, -⟩, -⟩, -⟩
    cases hslot _ rfl rfl
  · exact (retained_guest_reaches_pod.2 _ _ _ (by decide)).2.2

end Pool
end StageHost

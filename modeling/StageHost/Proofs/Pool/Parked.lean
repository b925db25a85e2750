import StageHost.Proofs.Pool.History
/-
  The parked queue in the course of a run.
  Making room in the queue is a loop: while it is too long, its head is reclaimed (`MakesRoom`).
  In a pool whose queue fits its entries one round is enough, and it finds the guest of the pod
  that it takes (`Queued.makesRoom`). An operation lets pods out of the queue or puts one at its
  end (`Steps.moves`), so a pod stays in it with the guest that was parked for it (`ParkedSince`),
  behind all that were parked before (`times_of_run`). `parked_queue_of_run` puts this together.
-/
namespace StageHost
namespace Pool

variable {γ ε : Type}

/-! ## Making room -/

/-- The pool in which a guest was parked for a pod, before room is made in the queue. -/
def joined (p : Pool γ) (pod : String) (id : Nat) (r : Retention) : Pool γ :=
  if r = .tentative then { p.hold pod id with parked := p.parked ++ [pod] } else p.hold pod id

/-- The rounds of making room in the queue: each is listed with the pod that it takes and the guest
of the pod's entry, if there is one. -/
inductive MakesRoom : Pool γ → List (String × Option Nat) → Pool γ → Prop
  | done {p : Pool γ} (h : p.parked.length ≤ parkedLimit) : MakesRoom p [] p
  | round {p q : Pool γ} {pod : String} {rest : List String} {rounds : List (String × Option Nat)}
    (h : parkedLimit < p.parked.length) (hk : p.parked = pod :: rest)
    (hnext : MakesRoom p.reclaimOldest rounds q) :
    MakesRoom p ((pod, p.binding.lookup pod) :: rounds) q

theorem parked_reclaimOldest (p : Pool γ) : p.reclaimOldest.parked = p.parked.tail := by
  unfold reclaimOldest
  split
  · rename_i hk
    rw [hk]
    rfl
  · rename_i hk
    rw [hk]
    exact parked_freeBinding _ _

theorem repeat_succ' {α : Type} (f : α → α) (n : Nat) (a : α) :
    Nat.repeat f (n + 1) a = Nat.repeat f n (f a) := by
  induction n with
  | zero => rfl
  | succ n ih => exact congrArg f ih

/-- As many rounds are made as pods are too many. -/
theorem exists_makesRoom (p : Pool γ) :
    ∃ rounds, p.MakesRoom rounds
      (Nat.repeat reclaimOldest (p.parked.length - parkedLimit) p) := by
  generalize hn : p.parked.length - parkedLimit = n
  induction n generalizing p with
  | zero => exact ⟨[], .done (by omega)⟩
  | succ n ih =>
    obtain ⟨pod, rest, hk⟩ : ∃ pod rest, p.parked = pod :: rest :=
      List.exists_cons_of_length_pos (by omega)
    obtain ⟨rounds, hnext⟩ := ih p.reclaimOldest (by
      rw [parked_reclaimOldest, List.length_tail]
      omega)
    rw [repeat_succ']
    exact ⟨_, .round (by omega) hk hnext⟩

theorem MakesRoom.unique {p q q' : Pool γ} {rounds rounds' : List (String × Option Nat)}
    (h : p.MakesRoom rounds q) (h' : p.MakesRoom rounds' q') : rounds = rounds' ∧ q = q' := by
  induction h generalizing rounds' with
  | done hle =>
    cases h' with
    | done => exact ⟨rfl, rfl⟩
    | round hlt => omega
  | round hlt hk _ ih =>
    cases h' with
    | done hle => omega
    | round _ hk' hnext' =>
      rw [hk] at hk'
      cases hk'
      obtain ⟨rfl, rfl⟩ := ih hnext'
      exact ⟨rfl, rfl⟩

/-- Parking a guest for a pod without an entry lets it in and makes room. -/
theorem exists_makesRoom_park {p : Pool γ} {pod : String} (hb : p.binding.lookup pod = none)
    (id : Nat) (r : Retention) :
    ∃ rounds, (p.joined pod id r).MakesRoom rounds (p.park pod id r) := by
  obtain ⟨rounds, h⟩ := exists_makesRoom (p.joined pod id r)
  refine ⟨rounds, ?_⟩
  unfold park
  rw [hb]
  exact h

theorem lookup_joined_ne (p : Pool γ) {x pod : String} (h : x ≠ pod) (id : Nat) (r : Retention) :
    (p.joined pod id r).binding.lookup x = p.binding.lookup x := by
  unfold joined
  split <;> exact lookup_cons_ne _ h id

/-- The queue gets too long only if it was full, by the one pod that joined it. -/
theorem Queued.joined_of_long {p : Pool γ} (h : p.Queued) {pod : String} {id : Nat} {r : Retention}
    (hlong : parkedLimit < (p.joined pod id r).parked.length) :
    ∃ oldest waiting, p.parked = oldest :: waiting ∧ waiting.length + 1 = parkedLimit ∧
      (p.joined pod id r).parked = oldest :: (waiting ++ [pod]) := by
  have hle := h.parked_le
  unfold joined at hlong ⊢
  split at hlong
  · rename_i hr
    rw [if_pos hr]
    dsimp only at hlong ⊢
    rw [List.length_append, List.length_singleton] at hlong
    cases hk : p.parked with
    | nil => simp [hk, parkedLimit] at hlong
    | cons oldest waiting =>
      rw [hk, List.length_cons] at hlong hle
      exact ⟨oldest, waiting, rfl, by omega, rfl⟩
  · exact absurd hlong (Nat.not_lt.2 hle)

/-- In a queue that fits the entries one round is enough, and it finds the guest of the pod that it
takes. -/
theorem Queued.makesRoom {p q : Pool γ} (h : p.Queued) {pod : String}
    (hb : p.binding.lookup pod = none) {id : Nat} {r : Retention}
    {rounds : List (String × Option Nat)} (hr : (p.joined pod id r).MakesRoom rounds q) :
    q = p.park pod id r ∧ rounds.length ≤ 1 ∧
      ∀ e ∈ rounds, p.parked.head? = some e.1 ∧ e.2.isSome ∧ e.2 = p.binding.lookup e.1 := by
  obtain ⟨_, hpark⟩ := exists_makesRoom_park hb id r
  refine ⟨(hr.unique hpark).2, ?_⟩
  cases hr with
  | done => simp
  | @round _ _ first rest rounds hlong hk hnext =>
    obtain ⟨oldest, waiting, hwaiting, hlen, hjoined⟩ := h.joined_of_long hlong
    rw [hjoined, List.cons.injEq] at hk
    obtain ⟨rfl, rfl⟩ := hk
    have hfound := h.entry oldest (hwaiting ▸ List.mem_cons_self)
    have hentry : (p.joined pod id r).binding.lookup oldest = p.binding.lookup oldest := by
      refine lookup_joined_ne p ?_ id r
      rintro rfl
      rw [hb] at hfound
      cases hfound
    cases hnext with
    | done =>
      refine ⟨Nat.le_refl 1, fun e he => ?_⟩
      rw [List.mem_singleton.1 he]
      exact ⟨by rw [hwaiting]; rfl, by rw [hentry]; exact hfound, hentry⟩
    | round hagain =>
      -- after one round the queue is at its limit
      rw [parked_reclaimOldest, hjoined, List.tail_cons, List.length_append,
        List.length_singleton] at hagain
      omega

/-! ## Joining and leaving the queue -/

/-- What may become of the queue: pods leave it, or a pod that was not in it joins it at the end
with the guest that is parked for it. The guests of the others are as before. -/
inductive Moves (p q : Pool γ) (events : List Parking) : Prop
  | leave (hk : q.parked.Sublist p.parked)
    (hb : ∀ x ∈ q.parked, q.binding.lookup x = p.binding.lookup x)
  | join {pod : String} {g : Nat} (he : .parks pod g ∈ events) (hn : pod ∉ p.parked)
    (hk : q.parked.Sublist (p.parked ++ [pod]))
    (hg : pod ∈ q.parked → q.binding.lookup pod = some g)
    (hb : ∀ x ∈ q.parked, x ≠ pod → q.binding.lookup x = p.binding.lookup x)

/-- The queue and the entries are as before. -/
theorem moves_of_eq {p q : Pool γ} {events : List Parking} (hk : q.parked = p.parked)
    (hb : q.binding = p.binding) : p.Moves q events :=
  .leave (by rw [hk]) fun _ _ => by rw [hb]

/-- If pods only leave the queue after it moved, it is as if they had left before. -/
theorem Moves.fewer {p q q' : Pool γ} {events : List Parking} (h : p.Moves q events)
    (hk : q'.parked.Sublist q.parked)
    (hb : ∀ x ∈ q'.parked, q'.binding.lookup x = q.binding.lookup x) : p.Moves q' events := by
  cases h with
  | leave hsub hsame =>
    refine .leave (hk.trans hsub) fun x hx => ?_
    exact (hb x hx).trans (hsame x (hk.subset hx))
  | join he hn hsub hg hsame =>
    refine .join he hn (hk.trans hsub) (fun hx => ?_) fun x hx hne => ?_
    · exact (hb _ hx).trans (hg (hk.subset hx))
    · exact (hb x hx).trans (hsame x (hk.subset hx) hne)

theorem Moves.congr {p q q' : Pool γ} {events : List Parking} (h : p.Moves q events)
    (hk : q'.parked = q.parked) (hb : q'.binding = q.binding) : p.Moves q' events :=
  h.fewer (by rw [hk]) fun _ _ => by rw [hb]

theorem Moves.abandon {p q : Pool γ} {events : List Parking} (h : p.Moves q events)
    (pod : String) : p.Moves (q.abandon pod) events := by
  refine h.fewer (parked_abandon_sublist q pod) fun x hx => ?_
  rw [parked_abandon] at hx
  exact lookup_abandon_ne q (mem_filter_ne.1 hx).2

/-- A new entry is of no pod in the queue. -/
theorem Queued.moves_hold {p : Pool γ} (h : p.Queued) {pod : String}
    (hb : p.binding.lookup pod = none) (id : Nat) (events : List Parking) :
    p.Moves (p.hold pod id) events := by
  refine .leave (List.Sublist.refl _) ?_
  intro x hx
  refine lookup_cons_ne _ ?_ id
  rintro rfl
  exact h.not_mem hb hx

theorem Parks.moves {p q : Pool γ} {pod : String} {id : Nat} {r : Retention} (h : p.Queued)
    (hq : p.Parks pod id r q) : p.Moves q (p.parkEvents pod id r) := by
  cases hq with
  | taken => exact moves_of_eq rfl rfl
  | firm hb => exact h.moves_hold hb id _
  | room hb hlen =>
    rw [parkEvents_room hb hlen]
    refine .join List.mem_cons_self (h.not_mem hb) (List.Sublist.refl _) ?_ ?_
    · exact fun _ => List.lookup_cons_self
    · exact fun x _ hne => lookup_cons_ne _ hne id
  | @overflow oldest rest hb hk hlen =>
    have hnodup := h.nodup
    rw [hk, List.nodup_cons] at hnodup
    have hpod : pod ≠ oldest := by
      rintro rfl
      exact h.not_mem hb (hk ▸ List.mem_cons_self)
    rw [parkEvents_overflow hb hk hlen]
    -- the pod that is taken is neither the new one nor one of those that stay
    refine .join List.mem_cons_self (h.not_mem hb) ?_ ?_ ?_
    · rw [parked_overflow, hk]
      exact List.sublist_cons_self _ _
    · intro _
      rw [binding_overflow, lookup_filter_ne _ hpod]
      exact List.lookup_cons_self
    · intro x hx hne
      rw [parked_overflow, List.mem_append, List.mem_singleton, or_iff_left hne] at hx
      have hx' : x ≠ oldest := fun hxo => hnodup.1 (hxo ▸ hx)
      rw [binding_overflow, lookup_filter_ne _ hx', lookup_cons_ne _ hne]

theorem Moves.of_setSlot {p q : Pool γ} {s : Option Slot} {events : List Parking}
    (h : { p with slot := s }.Moves q events) : p.Moves q events := by
  cases h with
  | leave hk hb => exact .leave hk hb
  | join he hn hk hg hb => exact .join he hn hk hg hb

theorem Turns.moves {p q : Pool γ} {pod : String} (h : p.Queued) (hq : p.Turns pod q) :
    p.Moves q p.turnEvents := by
  cases hq with
  | empty => exact moves_of_eq rfl rfl
  | unretained =>
    have hempty : p.Moves { p with slot := none } p.turnEvents := moves_of_eq rfl rfl
    exact hempty.abandon pod
  | retained hs hr hq =>
    rw [turnEvents_retained hs hr]
    exact (hq.moves (h.setSlot none)).of_setSlot.abandon pod

theorem Steps.moves {p q : Pool γ} {op : Op γ ε} (h : p.Queued) (hs : p.Steps q op) :
    p.Moves q (p.parkings op) := by
  cases hs with
  | idle _ ha | retained _ ha => exact moves_of_eq ha.parked ha.binding
  | @claimed op pod id hop hb ha =>
    have hleave : p.Moves (p.unpark pod) (p.parkings op) :=
      .leave List.filter_sublist fun _ _ => rfl
    exact hleave.congr ha.parked ha.binding
  | takenOver hop hs hb ha => exact (h.moves_hold hb _ _).congr ha.parked ha.binding
  | detached hb ha => exact (h.moves_hold hb _ _).congr ha.parked ha.binding
  | @released pod ha =>
    refine .leave ?_ ?_
    · rw [ha.parked]
      exact List.filter_sublist
    · intro x hx
      rw [ha.parked] at hx
      rw [ha.binding]
      exact lookup_filter_ne _ (mem_filter_ne.1 hx).2
  | @started create cycle pod g hc ha =>
    rw [parkings_of_starts hc]
    exact ((h.turns pod).moves h).congr ha.parked ha.binding

/-! ## Times of parking -/

/-- Whether the guest of a pod was parked in a run after some number of operations, and the pod has
been in the queue with it ever since. -/
def ParkedSince (ops : List (Op γ ε)) (pod : String) (guest time : Nat) : Prop :=
  ∃ before op after, ops = before ++ op :: after ∧ before.length = time ∧
    .parks pod guest ∈ ((empty : Pool γ).run before).parkings op ∧
    ((empty : Pool γ).run (before ++ [op])).Along
      (fun q _ => pod ∈ q.parked ∧ q.binding.lookup pod = some guest) after

section

variable {ops : List (Op γ ε)} {pod : String} {guest time : Nat}

theorem ParkedSince.lt (h : ParkedSince ops pod guest time) : time < ops.length := by
  obtain ⟨before, op, after, rfl, rfl, -, -⟩ := h
  rw [List.length_append, List.length_cons]
  omega

theorem parkedSince_now {op : Op γ ε}
    (h : .parks pod guest ∈ ((empty : Pool γ).run ops).parkings op) :
    ParkedSince (ops ++ [op]) pod guest ops.length := ⟨ops, op, [], rfl, rfl, h, trivial⟩

/-- A pod that is in the queue at the end of a run is there for one more operation. -/
theorem ParkedSince.snoc (h : ParkedSince ops pod guest time)
    (hk : pod ∈ ((empty : Pool γ).run ops).parked)
    (hb : ((empty : Pool γ).run ops).binding.lookup pod = some guest) (op : Op γ ε) :
    ParkedSince (ops ++ [op]) pod guest time := by
  obtain ⟨before, first, after, rfl, hlen, hparks, halong⟩ := h
  refine ⟨before, first, after ++ [op], by simp, hlen, hparks, along_snoc.2 ⟨halong, ?_⟩⟩
  rw [← run_append, List.append_assoc, List.singleton_append]
  exact ⟨hk, hb⟩

end

/-- The pods in the queue were parked at times that rise from its head to its end, and have been
there with their guests since. -/
theorem times_of_run (ops : List (Op γ ε)) :
    ∃ time : String → Nat,
      (∀ pod ∈ ((empty : Pool γ).run ops).parked, ∃ guest,
        ((empty : Pool γ).run ops).binding.lookup pod = some guest ∧
          ParkedSince ops pod guest (time pod)) ∧
      ((empty : Pool γ).run ops).parked.Pairwise fun x y => time x < time y := by
  induction ops using List.reverseRecOn with
  | nil => exact ⟨fun _ => 0, by simp [empty], List.Pairwise.nil⟩
  | append_singleton ops op ih =>
    obtain ⟨time, hsince, htimes⟩ := ih
    have hqueued : ((empty : Pool γ).run ops).Queued := Reachable.queued ⟨ops, rfl⟩
    have hmoves := (steps_step ((empty : Pool γ).run ops) op).moves hqueued
    rw [run_append]
    cases hmoves with
    | leave hk hb =>
      refine ⟨time, fun x hx => ?_, htimes.sublist hk⟩
      obtain ⟨guest, hguest, hx'⟩ := hsince x (hk.subset hx)
      exact ⟨guest, (hb x hx).trans hguest, hx'.snoc (hk.subset hx) hguest op⟩
    | @join pod guest he hn hk hg hb =>
      have hearlier : ∀ x ∈ ((empty : Pool γ).run ops).parked,
          Function.update time pod ops.length x = time x := by
        intro x hx
        have hne : x ≠ pod := fun hxp => hn (hxp ▸ hx)
        exact Function.update_of_ne hne _ _
      refine ⟨Function.update time pod ops.length, fun x hx => ?_, List.Pairwise.sublist hk ?_⟩
      · by_cases hxp : x = pod
        · subst hxp
          rw [Function.update_self]
          exact ⟨guest, hg hx, parkedSince_now he⟩
        · have hx' : x ∈ ((empty : Pool γ).run ops).parked := by
            simpa [hxp] using hk.subset hx
          obtain ⟨other, hother, hbefore⟩ := hsince x hx'
          rw [hearlier x hx']
          exact ⟨other, (hb x hx hxp).trans hother, hbefore.snoc hx' hother op⟩
      · -- whoever was parked before was so by an earlier operation
        rw [List.pairwise_append]
        refine ⟨htimes.imp_of_mem ?_, List.pairwise_singleton _ _, ?_⟩
        · intro x y hx hy hlt
          rwa [hearlier x hx, hearlier y hy]
        · intro x hx y hy
          obtain ⟨other, -, hbefore⟩ := hsince x hx
          rw [List.mem_singleton.1 hy, hearlier x hx, Function.update_self]
          exact hbefore.lt

/-- The parked queue after any run. No pod is in it twice, each has a binding entry, and neither it
nor the marks of reclaimed pods are more than their limit. When the guest in the slot is parked,
room is made in at most one round, which takes the head of the queue and finds its guest. The pods
are in the order of the times at which their guests were parked. -/
theorem parked_queue_of_run (ops : List (Op γ ε)) :
    let p := (empty : Pool γ).run ops
    p.parked.Nodup ∧ (∀ pod ∈ p.parked, (p.binding.lookup pod).isSome) ∧
    p.parked.length ≤ parkedLimit ∧ p.reclaimed.length ≤ 1024 ∧
    (∀ s r, p.slot = some s → s.retention = some r → p.binding.lookup s.pod = none →
      let vacated := { p with slot := none }
      (∃ rounds, (vacated.joined s.pod s.guest r).MakesRoom rounds
        (vacated.park s.pod s.guest r)) ∧
      ∀ rounds q, (vacated.joined s.pod s.guest r).MakesRoom rounds q →
        q = vacated.park s.pod s.guest r ∧ rounds.length ≤ 1 ∧
        ∀ e ∈ rounds, p.parked.head? = some e.1 ∧ e.2.isSome ∧ e.2 = p.binding.lookup e.1) ∧
    ∃ time : String → Nat,
      (∀ pod ∈ p.parked, ∃ guest, p.binding.lookup pod = some guest ∧
        ParkedSince ops pod guest (time pod)) ∧
      p.parked.Pairwise fun x y => time x < time y := by
  intro p
  have hqueued : p.Queued := Reachable.queued ⟨ops, rfl⟩
  refine ⟨hqueued.nodup, hqueued.entry, hqueued.parked_le, hqueued.reclaimed_le, ?_,
    times_of_run ops⟩
  intro s r hs hr hb vacated
  exact ⟨exists_makesRoom_park (p := vacated) hb s.guest r,
    fun rounds q h => (hqueued.setSlot none).makesRoom hb h⟩

/-- In a crowd whose last guest is about to be parked, room is made in one round, which takes the
pod that was parked first. -/
theorem first_of_crowd_makes_room :
    let ops := crowd ["p", "a", "b", "c", "d", "e", "f", "g", "h"]
    let p := (empty : Pool Nat).run ops
    p.slot = some ⟨8, "h", some .tentative, 9⟩ ∧ p.binding.lookup "h" = none ∧
    (∃ rounds, ({ p with slot := none }.joined "h" 9 .tentative).MakesRoom rounds
      ({ p with slot := none }.park "h" 9 .tentative) ∧ rounds.length ≤ 1) ∧
    ∃ time : String → Nat, "p" ∈ p.parked ∧ ParkedSince ops "p" 1 (time "p") ∧
      time "p" < time "a" := by
  intro ops p
  have hslot : p.slot = some ⟨8, "h", some .tentative, 9⟩ := by decide
  have hnone : p.binding.lookup "h" = none := by decide
  have hmem : "p" ∈ p.parked := by decide
  have hfirst : p.binding.lookup "p" = some 1 := by decide
  have hparked : p.parked = ["p", "a", "b", "c", "d", "e", "f", "g"] := by decide
  obtain ⟨-, -, -, -, hroom, time, hsince, htimes⟩ := parked_queue_of_run ops
  obtain ⟨⟨rounds, hrounds⟩, hall⟩ := hroom _ _ hslot rfl hnone
  obtain ⟨guest, hguest, hp⟩ := hsince "p" hmem
  obtain rfl : 1 = guest := Option.some.inj (hfirst.symm.trans hguest)
  have hrises : p.parked.Pairwise fun x y => time x < time y := htimes
  rw [hparked] at hrises
  refine ⟨hslot, hnone, ⟨rounds, hrounds, (hall _ _ hrounds).2.1⟩, time, hmem, hp, ?_⟩
  exact (List.pairwise_cons.1 hrises).1 "a" List.mem_cons_self

end Pool
end StageHost

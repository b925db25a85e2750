import StageHost.Proofs.Pool.Demand
import StageHost.Proofs.Pool.Mark
/-
  Operations that fail.
  An operation fails if it comes to making a guest and the making fails. Up to the number that is
  used up, most of them leave the pool as it was; a scheduling call leaves it turned over for the
  cycle that did not come about (`step_of_fails`). As nothing is free then, turning over freed no
  guest: a retained guest went from the slot to an entry of its own pod, and of the pod that was to
  be scheduled only the mark is gone (`Queued.turnOver_of_free`). So claims come out as before, but
  for that pod if it was marked (`claim_after_failure`).
-/
namespace StageHost
namespace Pool

variable {γ ε : Type}

/-- Whether an operation returns an error. -/
def Op.Fails (p : Pool γ) (e : ε) : Op γ ε → Prop
  | .prewarm create => (p.prewarm create).1 = .error e
  | .withFree create use => (p.withFree create use).1 = .error e
  | .schedule create cycle pod => (p.schedule create cycle pod).1 = .error e
  | .detach create pod => (p.detach create pod).1 = .error e
  | .retain .. | .claim _ | .bind _ | .release _ | .touch _ => False

/-- The pool without the next number, which was given to a making that failed. -/
def skipId (p : Pool γ) : Pool γ := { p with nextId := p.nextId + 1 }

/-! ## Where errors come from -/

theorem make_of_error {p : Pool γ} {create : Nat → Except ε γ} {e : ε}
    (h : (p.make create).1 = .error e) :
    create p.nextId = .error e ∧ (p.make create).2 = p.skipId := by
  unfold make takeId at h ⊢
  dsimp only at h ⊢
  cases hc : create p.nextId with
  | ok guest =>
    rw [hc] at h
    cases h
  | error e' =>
    rw [hc] at h
    cases h
    exact ⟨rfl, rfl⟩

theorem borrow_of_error {p : Pool γ} {create : Nat → Except ε γ} {e : ε}
    (h : (p.borrow create).1 = .error e) :
    p.free = [] ∧ create p.nextId = .error e ∧ (p.borrow create).2 = p.skipId := by
  unfold borrow takeFree at h ⊢
  cases hf : p.free with
  | cons id rest =>
    rw [hf] at h
    cases h
  | nil =>
    rw [hf] at h
    exact ⟨rfl, make_of_error h⟩

/-- A cycle that begins and finds no guest without making one leaves the pool turned over. -/
theorem pick_of_starts {p : Pool γ} {cycle : UInt64} (hc : p.Starts cycle) {pod : String}
    (h : (p.pick cycle pod).1 = none) :
    p.passedOn = none ∧ (p.turnOver pod).free = [] ∧ (p.pick cycle pod).2 = p.turnOver pod := by
  unfold pick at h ⊢
  rw [takeSlot_of_starts hc] at h ⊢
  cases hpass : p.passedOn with
  | some id =>
    rw [hpass] at h
    cases h
  | none =>
    rw [hpass] at h
    dsimp only at h ⊢
    rcases hf : (p.turnOver pod).takeFree with ⟨_ | id, q⟩ <;> rw [hf] at h
    · obtain ⟨hfree, hq⟩ := takeFree_none (p := p.turnOver pod) (by rw [hf])
      rw [hf] at hq
      exact ⟨rfl, hfree, hq⟩
    · cases h

theorem schedule_of_error {p : Pool γ} {create : Nat → Except ε γ} {cycle : UInt64} {pod : String}
    {e : ε} (h : (p.schedule create cycle pod).1 = .error e) :
    p.Starts cycle ∧ (p.pick cycle pod).1 = none ∧ create p.nextId = .error e ∧
      (p.schedule create cycle pod).2 = (p.turnOver pod).skipId := by
  have hc : p.Starts cycle := by
    by_contra hsame
    obtain ⟨s, hs, rfl⟩ := same_of_not_starts hsame
    rw [schedule_of_same hs] at h
    cases h
  have hroster := roster_pick p cycle pod
  unfold schedule at h ⊢
  rcases hp : p.pick cycle pod with ⟨_ | id, q⟩ <;> rw [hp] at h hroster
  · have hq : q = p.turnOver pod := by
      rw [← (pick_of_starts hc (by rw [hp])).2.2, hp]
    have hnext : q.nextId = p.nextId := congrArg Prod.snd hroster
    dsimp only at h ⊢
    rcases hm : q.make create with ⟨e' | id, q'⟩ <;> rw [hm] at h
    · cases h
      obtain ⟨hcreate, hskip⟩ := make_of_error (p := q) (by rw [hm])
      rw [hm] at hskip
      exact ⟨hc, rfl, hnext ▸ hcreate, hq ▸ hskip⟩
    · cases h
  · cases h

theorem detach_of_error {p : Pool γ} {create : Nat → Except ε γ} {pod : String} {e : ε}
    (h : (p.detach create pod).1 = .error e) :
    (p.pickDetached pod).1 = none ∧ create p.nextId = .error e ∧
      (p.detach create pod).2 = p.skipId := by
  unfold detach pickDetached takeFree at *
  cases hb : p.binding.lookup pod with
  | some id =>
    rw [hb] at h
    cases h
  | none =>
    rw [hb] at h
    cases hf : p.free with
    | cons id rest =>
      rw [hf] at h
      cases h
    | nil =>
      rw [hf] at h
      dsimp only at h ⊢
      rcases hm : p.make create with ⟨e' | id, q⟩ <;> rw [hm] at h
      · cases h
        obtain ⟨hcreate, hskip⟩ := make_of_error (p := p) (by rw [hm])
        rw [hm] at hskip
        exact ⟨rfl, hcreate, hskip⟩
      · cases h

/-- What an operation that fails makes of the pool. -/
theorem step_of_fails {p : Pool γ} {op : Op γ ε} {e : ε} (h : op.Fails p e) :
    p.attempt? op = some (p.nextId, false) ∧
      (p.step op = p.skipId ∧ ¬ op.Begins p ∧ (p.step op).free = p.free ∨
        ∃ create cycle pod, op = .schedule create cycle pod ∧ p.Starts cycle ∧
          p.passedOn = none ∧ (p.turnOver pod).free = [] ∧
          p.step op = (p.turnOver pod).skipId) := by
  cases op with
  | prewarm create =>
    have hm : (p.make create).1 = .error e := by
      rw [Op.Fails, prewarm] at h
      rcases hm : p.make create with ⟨e' | id, q⟩ <;> rw [hm] at h <;> cases h
      rfl
    obtain ⟨hcreate, hskip⟩ := make_of_error hm
    have hstep : p.step (.prewarm create : Op γ ε) = p.skipId := by
      rw [step, prewarm, show p.make create = (.error e, p.skipId) from Prod.ext hm hskip]
    rw [hstep, attempt?, hcreate]
    exact ⟨rfl, .inl ⟨rfl, id, rfl⟩⟩
  | withFree create use =>
    have hb : (p.borrow create).1 = .error e := by
      rw [Op.Fails, withFree] at h
      rcases hb : p.borrow create with ⟨e' | id, q⟩ <;> rw [hb] at h <;> cases h
      rfl
    obtain ⟨hfree, hcreate, hskip⟩ := borrow_of_error hb
    have hstep : p.step (.withFree create use : Op γ ε) = p.skipId := by
      rw [step, withFree, show p.borrow create = (.error e, p.skipId) from Prod.ext hb hskip]
    have hnone : p.takeFree.1 = none := by rw [takeFree, hfree]
    rw [hstep, attempt?, if_pos hnone, hcreate]
    exact ⟨rfl, .inl ⟨rfl, id, rfl⟩⟩
  | schedule create cycle pod =>
    obtain ⟨hc, hnone, hcreate, hskip⟩ := schedule_of_error h
    obtain ⟨hpass, hfree, -⟩ := pick_of_starts hc hnone
    rw [attempt?, if_pos hnone, hcreate]
    exact ⟨rfl, .inr ⟨create, cycle, pod, rfl, hc, hpass, hfree, hskip⟩⟩
  | detach create pod =>
    obtain ⟨hnone, hcreate, hskip⟩ := detach_of_error h
    have hstep : p.step (.detach create pod : Op γ ε) = p.skipId := hskip
    rw [hstep, attempt?, if_pos hnone, hcreate]
    exact ⟨rfl, .inl ⟨rfl, id, rfl⟩⟩
  | retain | claim | bind | release | touch => exact h.elim

/-! ## What turning over does when nothing is free -/

/-- Where an earlier cycle of a pod is abandoned and nothing is free after that, the pod was not
parked. -/
theorem Queued.abandon_of_free {p : Pool γ} (h : p.Queued) {pod : String}
    (hfree : (p.abandon pod).free = []) : pod ∉ p.parked ∧ p.free = [] := by
  by_cases hm : pod ∈ p.parked
  · obtain ⟨id, hb⟩ := Option.isSome_iff_exists.1 (h.entry pod hm)
    have hb : (p.unpark pod).binding.lookup pod = some id := hb
    unfold Pool.abandon at hfree
    rw [if_pos (by simpa [isParked] using hm), freeBinding_eq] at hfree
    dsimp only at hfree
    rw [hb] at hfree
    cases hfree
  · unfold Pool.abandon at hfree
    rw [if_neg (by simpa [isParked] using hm)] at hfree
    exact ⟨hm, hfree⟩

/-- A guest that is parked when nothing is free after that goes to an entry of its pod, and no
other one is taken from it. -/
theorem Parks.of_free {p q : Pool γ} {pod : String} {id : Nat} {r : Retention} (h : p.Queued)
    (hq : p.Parks pod id r q) (hfree : q.free = []) :
    p.binding.lookup pod = none ∧ p.free = [] ∧ q.binding = (p.hold pod id).binding ∧
      q.reclaimed = p.reclaimed := by
  cases hq with
  | taken => cases hfree
  | firm hb | room hb => exact ⟨hb, hfree, rfl, rfl⟩
  | @overflow oldest rest hb hk hlen =>
    -- the oldest one parked has an entry, whose guest would be free
    have hm : oldest ∈ p.parked := hk ▸ List.mem_cons_self
    have hentry := (h.hold pod id).entry oldest hm
    obtain ⟨other, hother⟩ := Option.isSome_iff_exists.1 hentry
    have hfree : ({ p.hold pod id with parked := rest ++ [pod] }.freeBinding oldest).free = [] :=
      hfree
    rw [freeBinding_eq] at hfree
    dsimp only at hfree
    rw [hother] at hfree
    cases hfree

/-- Turning over for a cycle of a pod frees no guest if none is free after it, unless one passes on.
Then each pod has what it had, and of the marks those of the pod are gone if the slot was taken. -/
theorem Queued.turnOver_of_free {p : Pool γ} (h : p.Queued) {pod : String}
    (hpass : p.passedOn = none) (hfree : (p.turnOver pod).free = []) :
    p.free = [] ∧ ∀ x, (p.turnOver pod).has? x = p.has? x ∧
      (x ∈ (p.turnOver pod).reclaimed ↔ x ∈ p.reclaimed ∧ (x = pod → p.slot = none)) := by
  obtain ⟨q, hq⟩ : ∃ q, q = p.turnOver pod := ⟨_, rfl⟩
  have hturns := h.turns pod
  have hslot := slot_turnOver p pod
  rw [← hq] at hturns hfree hslot ⊢
  have hhas : ∀ x, q.has? x = q.binding.lookup x := fun x => has_of_ne (by simp [hslot])
  cases hturns with
  | empty hs => exact ⟨hfree, fun x => ⟨rfl, by simp [hs]⟩⟩
  | unretained hs hr =>
    simp [passedOn, hs, hr] at hpass
  | @retained s r q' hs hr hparks =>
    obtain ⟨hm, hfree⟩ := (hparks.queued (h.setSlot none)).abandon_of_free hfree
    obtain ⟨hb, hbefore, hbinding, hmarks⟩ := hparks.of_free (h.setSlot none) hfree
    refine ⟨hbefore, fun x => ⟨?_, ?_⟩⟩
    · rw [hhas, binding_abandon, if_neg hm, hbinding]
      exact lookup_hold_slot hs hb x
    · rw [reclaimed_abandon, mem_filter_ne, hmarks, hs]
      simp

/-! ## What is left as it was -/

theorem agrees_skipId (p : Pool γ) : p.Agrees p.skipId := ⟨rfl, rfl, rfl, rfl⟩

/-- A pod that keeps its guest and may lose its mark claims otherwise only if it had no guest and
loses the mark. -/
theorem claim_of_unmarked {p q : Pool γ} {pod : String} {lost : Prop}
    (hhas : q.has? pod = p.has? pod) (hmark : pod ∈ q.reclaimed ↔ pod ∈ p.reclaimed ∧ ¬ lost) :
    ((q.claim pod).1 ≠ (p.claim pod).1 ↔ lost ∧ (p.claim pod).1 = .reclaimed) ∧
      ((q.claim pod).1 ≠ (p.claim pod).1 → (q.claim pod).1 = .unscheduled) := by
  rw [claim_fst, claim_fst, hhas]
  cases p.has? pod with
  | some id => simp
  | none => by_cases hm : pod ∈ p.reclaimed <;> by_cases hl : lost <;> simp [hmark, hm, hl]

theorem claim_of_fails {p : Pool γ} (h : p.Queued) {op : Op γ ε} {e : ε} (hop : op.Fails p e)
    (pod : String) :
    (((p.step op).claim pod).1 ≠ (p.claim pod).1 ↔
        (op.BeginsFor pod p ∧ p.slot ≠ none) ∧ (p.claim pod).1 = .reclaimed) ∧
      (((p.step op).claim pod).1 ≠ (p.claim pod).1 → ((p.step op).claim pod).1 = .unscheduled) := by
  obtain ⟨-, ⟨hstep, hidle, -⟩ | ⟨create, cycle, x, rfl, hc, hpass, hfree, hstep⟩⟩ :=
    step_of_fails hop
  · have hsame : ((p.step op).claim pod).1 = (p.claim pod).1 := by
      rw [hstep]
      exact (agrees_skipId p).claim pod
    have hnot : ¬ op.BeginsFor pod p := fun hb => hidle hb.1
    simp [hsame, hnot]
  · obtain ⟨-, hturn⟩ := h.turnOver_of_free hpass hfree
    obtain ⟨hhas, hmark⟩ := hturn pod
    have hskip := agrees_skipId (p.turnOver x)
    rw [hstep, hskip.claim]
    refine claim_of_unmarked hhas (hmark.trans ?_)
    have hfor : (Op.schedule create cycle x : Op γ ε).BeginsFor pod p ↔ pod = x := by
      simp [Op.BeginsFor, Op.Begins, Op.pod?, hc, eq_comm]
    rw [hfor, not_and, not_not]

theorem created_of_fails {p : Pool γ} {op : Op γ ε} {e : ε} (hop : op.Fails p e) :
    (p.step op).created = p.created := by
  have htally := tally_step p op
  rw [(step_of_fails hop).1] at htally
  have hids : (p.step op).ids = p.ids := congrArg Prod.fst htally
  rw [created_eq_ids, created_eq_ids, hids]

theorem free_of_fails {p : Pool γ} (h : p.Queued) {op : Op γ ε} {e : ε} (hop : op.Fails p e) :
    (p.step op).free = p.free := by
  obtain ⟨-, ⟨-, -, hfree⟩ | ⟨create, cycle, x, rfl, -, hpass, hfree, hstep⟩⟩ := step_of_fails hop
  · exact hfree
  · rw [hstep, (h.turnOver_of_free hpass hfree).1]
    exact hfree

/-- A refused binding cycle changes nothing. -/
theorem bind_of_none {p : Pool γ} {pod : String} (h : (p.bind pod).1 = none) :
    (p.bind pod).2 = p := by
  rw [bind_fst] at h
  rw [bind_snd]
  cases hb : p.binding.lookup pod with
  | some id =>
    rw [claim_of_entry hb] at h
    cases h
  | none =>
    by_cases hs : ∃ s ∈ p.slot, s.pod = pod
    · obtain ⟨s, hs, rfl⟩ := hs
      rw [claim_of_slot hs hb] at h
      cases h
    · rw [claim_of_none hb fun s hm hp => hs ⟨s, hm, hp⟩]

/-- An operation that fails changes neither how many guests there are nor which ones are free, and
every pod claims after it what it would have claimed before, with one exception: a scheduling call
that finds the slot taken by another cycle has given up the earlier cycles of the pod that it names,
so if that pod would have been told that its guest was reclaimed, it is now told that it was not
scheduled. A binding cycle is refused just where no guest is held for the pod, and then nothing
changes. -/
theorem claim_after_failure {p : Pool γ} (hp : p.Reachable ε) :
    (∀ {op : Op γ ε} {e : ε}, op.Fails p e →
      (p.step op).created = p.created ∧ (p.step op).free = p.free ∧
        ∀ pod, (((p.step op).claim pod).1 ≠ (p.claim pod).1 ↔
            (op.BeginsFor pod p ∧ p.slot ≠ none) ∧ (p.claim pod).1 = .reclaimed) ∧
          (((p.step op).claim pod).1 ≠ (p.claim pod).1 →
            ((p.step op).claim pod).1 = .unscheduled)) ∧
    ∀ pod, ((p.bind pod).1 = none ↔ ∀ id, (p.claim pod).1 ≠ .held id) ∧
      ((p.bind pod).1 = none → (p.bind pod).2 = p) := by
  constructor
  · intro op e hop
    exact ⟨created_of_fails hop, free_of_fails hp.queued hop, claim_of_fails hp.queued hop⟩
  · intro pod
    refine ⟨?_, bind_of_none⟩
    rw [bind_fst]
    cases (p.claim pod).1 <;> simp [Claim.guest?]

/-- A run that leaves the guest of the pod i firmly retained in the slot, that of the pod p
reclaimed, and no guest free. -/
def crowdedRun : List (Op Nat String) :=
  crowd ["p", "a", "b", "c", "d", "e", "f", "g", "h"] ++ [.schedule .ok 9 "i", .retain 9 .firm]

/-- A scheduling call for the pod p that fails gives p up, and leaves the guest of the slot to its
pod. A pod that no cycle was for is refused a binding cycle. -/
theorem given_up_and_guest_kept :
    let p := (empty : Pool Nat).run crowdedRun
    let op : Op Nat String := .schedule (fun _ => .error "busy") 10 "p"
    op.Fails p "busy" ∧ (p.step op).created = 9 ∧ (p.claim "p").1 = .reclaimed ∧
      ((p.step op).claim "p").1 = .unscheduled ∧ ((p.step op).claim "i").1 = (p.claim "i").1 ∧
      (p.bind "x").2 = p := by
  intro p op
  have hp : p.Reachable String := ⟨crowdedRun, rfl⟩
  have hop : op.Fails p "busy" := rfl
  obtain ⟨hcreated, -, hclaim⟩ := (claim_after_failure hp).1 hop
  have hmarked : (p.claim "p").1 = .reclaimed := by decide
  have hstarts : p.Starts 10 := by decide
  have hfor : op.BeginsFor "p" p ∧ p.slot ≠ none := ⟨⟨hstarts, rfl⟩, by decide⟩
  refine ⟨hop, hcreated, hmarked, (hclaim "p").2 ((hclaim "p").1.2 ⟨hfor, hmarked⟩), ?_, ?_⟩
  · by_contra hne
    obtain ⟨⟨⟨-, hpod⟩, -⟩, -⟩ := (hclaim "i").1.1 hne
    exact absurd hpod (by decide)
  · exact ((claim_after_failure hp).2 "x").2 (by decide)

/-- An operation that fails does not leave every claim as it was. -/
theorem claim_not_always_as_before :
    ¬ ∀ (p : Pool Nat) (op : Op Nat String) (e : String), p.Reachable String → op.Fails p e →
      (p.step op).created = p.created ∧ (p.step op).free = p.free ∧
        ∀ pod, ((p.step op).claim pod).1 = (p.claim pod).1 := by
  intro h
  have hsame := (h ((empty : Pool Nat).run crowdedRun)
    (.schedule (fun _ => .error "busy") 10 "p") "busy" ⟨crowdedRun, rfl⟩ rfl).2.2 "p"
  have hbefore : (((empty : Pool Nat).run crowdedRun).claim "p").1 = .reclaimed := by decide
  rw [hbefore] at hsame
  revert hsame
  decide

end Pool
end StageHost

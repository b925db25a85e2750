import StageHost.Proofs.Pool.Queue
import Mathlib.Data.List.Induction
/-
  The history of the parked queue.
  A guest is parked tentatively, and later on it may be reclaimed; `history` lists both for a run.
  `latest` has the pods of a history in the order in which they were parked last. The queue keeps to
  that order, so that the guests reclaimed are always the oldest (`reclaims_oldest`).
-/
namespace StageHost
namespace Pool

variable {γ ε : Type}

/-! ## Events -/

/-- What may happen to the parked queue. -/
inductive Parking
  /-- A guest is parked tentatively for a pod. -/
  | parks (pod : String) (guest : Nat)
  /-- The guest parked for a pod is taken away to make room. -/
  | reclaims (pod : String)
deriving DecidableEq, Repr

/-- What parking a guest for a pod does to the queue. -/
def parkEvents (p : Pool γ) (pod : String) (id : Nat) (r : Retention) : List Parking :=
  if (p.binding.lookup pod).isSome ∨ r = .firm then []
  else
    let queue := p.parked ++ [pod]
    .parks pod id :: (queue.take (queue.length - parkedLimit)).map .reclaims

/-- What the beginning of a cycle does to the queue. -/
def turnEvents (p : Pool γ) : List Parking :=
  match p.slot with
  | none => []
  | some s =>
    match s.retention with
    | none => []
    | some r => p.parkEvents s.pod s.guest r

theorem turnEvents_empty {p : Pool γ} (hs : p.slot = none) : p.turnEvents = [] := by
  unfold turnEvents
  rw [hs]

theorem turnEvents_unretained {p : Pool γ} {s : Slot} (hs : p.slot = some s)
    (hr : s.retention = none) : p.turnEvents = [] := by
  unfold turnEvents
  rw [hs]
  dsimp only
  rw [hr]

theorem turnEvents_retained {p : Pool γ} {s : Slot} {r : Retention} (hs : p.slot = some s)
    (hr : s.retention = some r) : p.turnEvents = p.parkEvents s.pod s.guest r := by
  unfold turnEvents
  rw [hs]
  dsimp only
  rw [hr]

/-- What an operation does to the queue. -/
def parkings (p : Pool γ) : Op γ ε → List Parking
  | .schedule _ cycle _ => if p.Starts cycle then p.turnEvents else []
  | _ => []

/-- What a run does to the queue. -/
def history (p : Pool γ) : List (Op γ ε) → List Parking
  | [] => []
  | op :: ops => p.parkings op ++ (p.step op).history ops

@[simp] theorem history_nil (p : Pool γ) : p.history ([] : List (Op γ ε)) = [] := rfl

theorem history_append (p : Pool γ) (ops more : List (Op γ ε)) :
    p.history (ops ++ more) = p.history ops ++ (p.run ops).history more := by
  induction ops generalizing p with
  | nil => rfl
  | cons op ops ih =>
    rw [List.cons_append, history, history, ih, List.append_assoc]
    rfl

theorem history_snoc (p : Pool γ) (ops : List (Op γ ε)) (op : Op γ ε) :
    p.history (ops ++ [op]) = p.history ops ++ (p.run ops).parkings op := by
  rw [history_append]
  exact congrArg _ (List.append_nil _)

theorem parkings_of_not_begins {p : Pool γ} {op : Op γ ε} (h : ¬ op.Begins p) :
    p.parkings op = [] := by
  cases op with
  | schedule create cycle pod => exact if_neg h
  | prewarm | withFree | retain | claim | bind | detach | release | touch => rfl

theorem parkings_of_starts {p : Pool γ} {cycle : UInt64} (hc : p.Starts cycle)
    (create : Nat → Except ε γ) (pod : String) :
    p.parkings (.schedule create cycle pod) = p.turnEvents := if_pos hc

/-! ## Outcomes of parking -/

theorem parkEvents_taken {p : Pool γ} {pod : String} {other : Nat}
    (hb : p.binding.lookup pod = some other) (id : Nat) (r : Retention) :
    p.parkEvents pod id r = [] := by
  unfold parkEvents
  rw [if_pos (.inl (by rw [hb]; rfl))]

theorem parkEvents_firm (p : Pool γ) (pod : String) (id : Nat) :
    p.parkEvents pod id .firm = [] := if_pos (.inr rfl)

theorem parkEvents_room {p : Pool γ} {pod : String} (hb : p.binding.lookup pod = none)
    (hlen : p.parked.length < parkedLimit) (id : Nat) :
    p.parkEvents pod id .tentative = [.parks pod id] := by
  unfold parkEvents
  rw [if_neg (by simp [hb])]
  dsimp only
  rw [List.length_append, List.length_singleton,
    show p.parked.length + 1 - parkedLimit = 0 by omega]
  rfl

theorem parkEvents_overflow {p : Pool γ} {pod oldest : String} {rest : List String}
    (hb : p.binding.lookup pod = none) (hq : p.parked = oldest :: rest)
    (hlen : rest.length + 1 = parkedLimit) (id : Nat) :
    p.parkEvents pod id .tentative = [.parks pod id, .reclaims oldest] := by
  unfold parkEvents
  rw [if_neg (by simp [hb]), hq]
  dsimp only
  rw [List.length_append, List.length_cons, List.length_singleton, hlen,
    show parkedLimit + 1 - parkedLimit = 1 by omega]
  rfl

/-! ## Guests reclaimed -/

/-- A guest that is reclaimed was parked, and its pod loses it. -/
theorem Parks.lost {p q : Pool γ} {pod x : String} {id : Nat} {r : Retention}
    (hq : p.Parks pod id r q) (hx : .reclaims x ∈ p.parkEvents pod id r) :
    x ∈ p.parked ∧ q.binding.lookup x = none := by
  cases hq with
  | taken hb =>
    rw [parkEvents_taken hb] at hx
    cases hx
  | firm =>
    rw [parkEvents_firm] at hx
    cases hx
  | room hb hlen =>
    rw [parkEvents_room hb hlen] at hx
    simp at hx
  | @overflow oldest rest hb hk hlen =>
    rw [parkEvents_overflow hb hk hlen] at hx
    have hxo : x = oldest := by simpa using hx
    subst hxo
    refine ⟨by simp [hk], ?_⟩
    rw [binding_overflow]
    exact lookup_filter_self _ _

theorem Turns.lost {p q : Pool γ} {pod x : String} (hq : p.Turns pod q)
    (hx : .reclaims x ∈ p.turnEvents) : x ∈ p.parked ∧ q.binding.lookup x = none := by
  cases hq with
  | empty hs =>
    rw [turnEvents_empty hs] at hx
    cases hx
  | unretained hs hr =>
    rw [turnEvents_unretained hs hr] at hx
    cases hx
  | retained hs hr hq =>
    rw [turnEvents_retained hs hr] at hx
    obtain ⟨hm, hb⟩ := hq.lost hx
    exact ⟨hm, lookup_abandon_none hb pod⟩

theorem lost_of_reclaims {p : Pool γ} (h : p.Queued) {op : Op γ ε} {x : String}
    (hx : .reclaims x ∈ p.parkings op) :
    x ∈ p.parked ∧ (p.step op).binding.lookup x = none := by
  by_cases hop : op.Begins p
  · cases op with
    | schedule create cycle pod =>
      rw [parkings_of_starts hop] at hx
      obtain ⟨hm, hb⟩ := (h.turns pod).lost hx
      refine ⟨hm, ?_⟩
      rw [step, (schedule_of_starts hop create pod).binding]
      exact hb
    | prewarm | withFree | retain | claim | bind | detach | release | touch => exact hop.elim
  · rw [parkings_of_not_begins hop] at hx
    cases hx

/-! ## The order of parking -/

/-- The pods of some events after one more. -/
def enqueue (pods : List String) : Parking → List String
  | .parks pod _ => pods.filter (· ≠ pod) ++ [pod]
  | .reclaims _ => pods

/-- The pods of some events in the order in which they were parked last. -/
def latest (events : List Parking) : List String := events.foldl enqueue []

theorem latest_parks (events : List Parking) (pod : String) (id : Nat) :
    latest (events ++ [.parks pod id]) = (latest events).filter (· ≠ pod) ++ [pod] := by
  unfold latest
  rw [List.foldl_append]
  rfl

theorem latest_reclaims (events : List Parking) (pod : String) :
    latest (events ++ [.reclaims pod]) = latest events := by
  unfold latest
  rw [List.foldl_append]
  rfl

theorem latest_parks_reclaims (events : List Parking) (pod oldest : String) (id : Nat) :
    latest (events ++ [.parks pod id, .reclaims oldest]) =
      (latest events).filter (· ≠ pod) ++ [pod] := by
  rw [show events ++ [.parks pod id, .reclaims oldest] =
    (events ++ [.parks pod id]) ++ [.reclaims oldest] by simp, latest_reclaims, latest_parks]

/-- A pod that comes last in a queue comes last in the order. -/
theorem sublist_latest {l : List String} {events : List Parking} {pod : String}
    (h : l.Sublist (latest events)) (hpod : pod ∉ l) :
    (l ++ [pod]).Sublist ((latest events).filter (· ≠ pod) ++ [pod]) := by
  have hf := h.filter (· ≠ pod)
  rw [filter_ne_of_not_mem hpod] at hf
  exact hf.append_right [pod]

/-- The order of the queue after parking, with the pod reclaimed in front if there is one. -/
theorem Parks.ordered {p q : Pool γ} {pod : String} {id : Nat} {r : Retention} (h : p.Queued)
    (hq : p.Parks pod id r q) {events : List Parking} (hl : p.parked.Sublist (latest events)) :
    q.parked.Sublist (latest (events ++ p.parkEvents pod id r)) ∧
      ∀ x, .reclaims x ∈ p.parkEvents pod id r →
        (x :: q.parked).Sublist (latest (events ++ p.parkEvents pod id r)) := by
  cases hq with
  | taken hb =>
    rw [parkEvents_taken hb, List.append_nil]
    exact ⟨hl, by simp⟩
  | firm hb =>
    rw [parkEvents_firm, List.append_nil]
    exact ⟨hl, by simp⟩
  | room hb hlen =>
    rw [parkEvents_room hb hlen, latest_parks]
    exact ⟨sublist_latest hl (h.not_mem hb), by simp⟩
  | @overflow oldest rest hb hk hlen =>
    rw [parkEvents_overflow hb hk hlen, latest_parks_reclaims]
    have hall := sublist_latest hl (h.not_mem hb)
    rw [hk] at hall
    rw [parked_overflow]
    refine ⟨(List.sublist_cons_self _ _).trans hall, ?_⟩
    intro x hx
    have hxo : x = oldest := by simpa using hx
    rw [hxo]
    exact hall

/-- Abandoning a pod keeps the others in their order. -/
theorem parked_abandon_sublist (p : Pool γ) (pod : String) :
    (p.abandon pod).parked.Sublist p.parked := by
  rw [parked_abandon]
  exact List.filter_sublist

theorem Turns.ordered {p q : Pool γ} {pod : String} (h : p.Queued) (hq : p.Turns pod q)
    {events : List Parking} (hl : p.parked.Sublist (latest events)) :
    q.parked.Sublist (latest (events ++ p.turnEvents)) ∧
      ∀ x, .reclaims x ∈ p.turnEvents →
        (x :: q.parked).Sublist (latest (events ++ p.turnEvents)) := by
  cases hq with
  | empty hs =>
    rw [turnEvents_empty hs, List.append_nil]
    exact ⟨hl, by simp⟩
  | unretained hs hr =>
    rw [turnEvents_unretained hs hr, List.append_nil]
    exact ⟨(parked_abandon_sublist _ _).trans hl, by simp⟩
  | @retained s r q hs hr hq =>
    rw [turnEvents_retained hs hr]
    obtain ⟨hkept, hnew⟩ := hq.ordered (h.setSlot none) hl
    have habandon := parked_abandon_sublist q pod
    exact ⟨habandon.trans hkept, fun x hx => (habandon.cons_cons x).trans (hnew x hx)⟩

/-- An operation that begins no cycle may only take pods out of the queue. -/
theorem ordered_of_not_begins {p q : Pool γ} {op : Op γ ε} (hop : ¬ op.Begins p)
    (hsub : q.parked.Sublist p.parked) {events : List Parking}
    (hl : p.parked.Sublist (latest events)) :
    q.parked.Sublist (latest (events ++ p.parkings op)) ∧
      ∀ x, .reclaims x ∈ p.parkings op →
        (x :: q.parked).Sublist (latest (events ++ p.parkings op)) := by
  rw [parkings_of_not_begins hop, List.append_nil]
  exact ⟨hsub.trans hl, by simp⟩

theorem Steps.ordered {p q : Pool γ} {op : Op γ ε} (h : p.Queued) (hs : p.Steps q op)
    {events : List Parking} (hl : p.parked.Sublist (latest events)) :
    q.parked.Sublist (latest (events ++ p.parkings op)) ∧
      ∀ x, .reclaims x ∈ p.parkings op →
        (x :: q.parked).Sublist (latest (events ++ p.parkings op)) := by
  cases hs with
  | idle hop ha => exact ordered_of_not_begins hop (by rw [ha.parked]) hl
  | retained _ ha => exact ordered_of_not_begins id (by rw [ha.parked]) hl
  | claimed hop _ ha =>
    refine ordered_of_not_begins (not_begins_of_claims hop p) ?_ hl
    rw [ha.parked]
    exact List.filter_sublist
  | takenOver hop _ _ ha =>
    refine ordered_of_not_begins (not_begins_of_claims hop p) ?_ hl
    rw [ha.parked]
    exact List.Sublist.refl _
  | detached _ ha =>
    refine ordered_of_not_begins id ?_ hl
    rw [ha.parked]
    exact List.Sublist.refl _
  | released ha =>
    refine ordered_of_not_begins id ?_ hl
    rw [ha.parked]
    exact List.filter_sublist
  | @started create cycle pod g hc ha =>
    rw [parkings_of_starts hc, ha.parked]
    exact (h.turns pod).ordered h hl

/-- The parked queue is in the order in which its pods were parked. -/
theorem parked_sublist_latest (ops : List (Op γ ε)) :
    ((empty : Pool γ).run ops).parked.Sublist (latest ((empty : Pool γ).history ops)) := by
  induction ops using List.reverseRecOn with
  | nil => exact List.nil_sublist _
  | append_singleton ops op ih =>
    have hqueued : ((empty : Pool γ).run ops).Queued := Reachable.queued ⟨ops, rfl⟩
    rw [run_append, history_snoc]
    exact ((steps_step _ op).ordered hqueued ih).1

/-- A guest that is reclaimed was parked before all that stay parked, and its pod loses it. -/
theorem reclaims_oldest (ops : List (Op γ ε)) (op : Op γ ε) (pod : String)
    (h : .reclaims pod ∈ ((empty : Pool γ).run ops).parkings op) :
    pod ∈ ((empty : Pool γ).run ops).parked ∧
      ((empty : Pool γ).run (ops ++ [op])).binding.lookup pod = none ∧
      (pod :: ((empty : Pool γ).run (ops ++ [op])).parked).Sublist
        (latest ((empty : Pool γ).history (ops ++ [op]))) := by
  have hqueued : ((empty : Pool γ).run ops).Queued := Reachable.queued ⟨ops, rfl⟩
  obtain ⟨hm, hb⟩ := lost_of_reclaims hqueued h
  rw [run_append, history_snoc]
  refine ⟨hm, hb, ?_⟩
  exact ((steps_step _ op).ordered hqueued (parked_sublist_latest ops)).2 pod h

end Pool
end StageHost

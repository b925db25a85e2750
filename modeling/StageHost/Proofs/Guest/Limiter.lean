import Mathlib.Data.List.Induction
import StageHost.Guest.Limiter
/-
  The mark of the memory used.
  A request is granted if what it asks for is within the limit, and a granted memory sets the mark
  to its size (`ask_eq`). So after any requests the mark is the size of the last memory granted
  (`memoryUsed_after`). It is the largest size granted so far only as long as no memory granted is
  smaller than one before, and else it falls (`mark_of_requests`).
-/
namespace StageHost
namespace Limiter

/-- A request for a memory of some bytes in all, or for a table of some elements. -/
inductive Request
  | memory (bytes : Nat)
  | table (elements : Nat)

/-- How much is asked for. -/
def Request.size : Request → Nat
  | .memory bytes => bytes
  | .table elements => elements

/-- How much may be asked for. -/
def limit (l : Limiter) : Request → Nat
  | .memory _ => l.memoryLimit
  | .table _ => l.tableLimit

def ask (l : Limiter) : Request → Bool × Limiter
  | .memory bytes => l.askMemory bytes
  | .table elements => l.askTable elements

/-- The size of the memory that a request is granted, if it is one for memory and granted. -/
def grant? (l : Limiter) : Request → Option Nat
  | .memory bytes => if (l.askMemory bytes).1 then some bytes else none
  | .table _ => none

/-- The limiter after some requests. -/
def after (l : Limiter) : List Request → Limiter
  | [] => l
  | r :: requests => (l.ask r).2.after requests

/-- The sizes of the memories granted in some requests, in their order. -/
def grants (l : Limiter) : List Request → List Nat
  | [] => []
  | r :: requests => (l.grant? r).toList ++ (l.ask r).2.grants requests

/-! ## One request -/

theorem ask_eq (l : Limiter) (r : Request) :
    l.ask r = (decide (r.size ≤ l.limit r),
      { l with memoryUsed := (l.grant? r).getD l.memoryUsed }) := by
  cases r with
  | memory bytes =>
    by_cases h : l.memoryLimit < bytes
    · have hask : l.askMemory bytes = (false, l) := if_pos h
      simp [ask, grant?, hask, Request.size, limit, Nat.not_le.2 h]
    · have hask : l.askMemory bytes = (true, { l with memoryUsed := bytes }) := if_neg h
      simp [ask, grant?, hask, Request.size, limit, Nat.le_of_not_lt h]
  | table elements => rfl

theorem granted_iff (l : Limiter) (r : Request) : (l.ask r).1 ↔ r.size ≤ l.limit r := by
  rw [ask_eq]
  exact decide_eq_true_iff

theorem memoryUsed_ask (l : Limiter) (r : Request) :
    (l.ask r).2.memoryUsed = (l.grant? r).getD l.memoryUsed := by
  rw [ask_eq]

theorem limit_ask (l : Limiter) (r s : Request) : (l.ask r).2.limit s = l.limit s := by
  rw [ask_eq]
  cases s <;> rfl

/-- A request that grants no memory leaves the mark. -/
theorem grant?_eq_none (l : Limiter) {r : Request} (h : (∃ n, r = .table n) ∨ ¬ (l.ask r).1) :
    l.grant? r = none := by
  cases r with
  | memory bytes =>
    obtain ⟨n, hn⟩ | h := h
    · cases hn
    · exact if_neg h
  | table elements => rfl

/-! ## Some requests -/

variable {l : Limiter} {requests : List Request}

theorem limit_after (s : Request) : (l.after requests).limit s = l.limit s := by
  induction requests generalizing l with
  | nil => rfl
  | cons r requests ih => rw [after, ih, limit_ask]

theorem after_append (more : List Request) :
    l.after (requests ++ more) = (l.after requests).after more := by
  induction requests generalizing l with
  | nil => rfl
  | cons r requests ih => exact ih

theorem grants_append (more : List Request) :
    l.grants (requests ++ more) = l.grants requests ++ (l.after requests).grants more := by
  induction requests generalizing l with
  | nil => rfl
  | cons r requests ih => rw [List.cons_append, grants, ih, grants, after, List.append_assoc]

theorem grants_earlier {earlier : List Request} (h : earlier <+: requests) :
    l.grants earlier <+: l.grants requests := by
  obtain ⟨more, rfl⟩ := h
  rw [grants_append]
  exact List.prefix_append _ _

/-- The mark is the size of the last memory granted. -/
theorem memoryUsed_after :
    (l.after requests).memoryUsed = (l.grants requests).getLast?.getD l.memoryUsed := by
  induction requests generalizing l with
  | nil => rfl
  | cons r requests ih =>
    rw [after, ih, memoryUsed_ask, grants]
    cases l.grant? r with
    | none => rfl
    | some bytes => simp [List.getLast?_cons]

/-- Every size granted is the mark at some time. -/
theorem exists_mark_of_mem_grants {n : Nat} (h : n ∈ l.grants requests) :
    ∃ earlier, earlier <+: requests ∧ (l.after earlier).memoryUsed = n := by
  induction requests generalizing l with
  | nil => cases h
  | cons r requests ih =>
    rw [grants, List.mem_append, Option.mem_toList] at h
    obtain h | h := h
    · refine ⟨[r], by simp, ?_⟩
      rw [after, after, memoryUsed_ask, h]
      rfl
    · obtain ⟨earlier, hbefore, hmark⟩ := ih h
      exact ⟨r :: earlier, List.cons_prefix_cons.2 ⟨rfl, hbefore⟩, hmark⟩

/-! ## The largest size granted -/

/-- The largest size granted in some requests, or zero. -/
def largest (l : Limiter) (requests : List Request) : Nat := (l.grants requests).max?.getD 0

theorem largest_mono {earlier : List Request} (h : earlier <+: requests) :
    l.largest earlier ≤ l.largest requests := by
  unfold largest
  cases hmax : (l.grants earlier).max? with
  | none => exact Nat.zero_le _
  | some n =>
    have hn := (List.max?_eq_some_iff.1 hmax).1
    exact List.le_max?_getD_of_mem ((grants_earlier h).subset hn)

/-- In a list that never falls the last number is the largest. -/
theorem getLast?_eq_max? {xs : List Nat} (h : xs.Pairwise (· ≤ ·)) : xs.getLast? = xs.max? := by
  cases hlast : xs.getLast? with
  | none =>
    rw [List.getLast?_eq_none_iff.1 hlast]
    rfl
  | some n =>
    obtain ⟨ys, rfl⟩ := List.getLast?_eq_some_iff.1 hlast
    refine (List.max?_eq_some_iff.2 ⟨by simp, fun m hm => ?_⟩).symm
    obtain hm | rfl : m ∈ ys ∨ m = n := by simpa using hm
    · exact (List.pairwise_append.1 h).2.2 m hm n (by simp)
    · exact Nat.le_refl _

/-- Whether the mark never falls in some requests. -/
def NeverFalls (l : Limiter) (requests : List Request) : Prop :=
  ∀ earlier later, earlier <+: later → later <+: requests →
    (l.after earlier).memoryUsed ≤ (l.after later).memoryUsed

theorem NeverFalls.of_earlier (h : l.NeverFalls requests) {earlier : List Request}
    (hbefore : earlier <+: requests) : l.NeverFalls earlier :=
  fun first second hfirst hsecond => h first second hfirst (hsecond.trans hbefore)

/-- If the mark never falls, no memory granted is smaller than one before. -/
theorem NeverFalls.grants (h : l.NeverFalls requests) :
    (l.grants requests).Pairwise (· ≤ ·) := by
  induction requests using List.reverseRecOn with
  | nil => exact List.Pairwise.nil
  | append_singleton requests r ih =>
    have hbefore : requests <+: requests ++ [r] := List.prefix_append _ _
    rw [grants_append]
    refine List.pairwise_append.2 ⟨ih (h.of_earlier hbefore), ?_, fun n hn m hm => ?_⟩
    · cases hg : (l.after requests).grant? r <;> simp [Limiter.grants, hg]
    · -- what is granted last is the mark at the end, and what was granted before was the mark once
      obtain ⟨earlier, hearlier, rfl⟩ := exists_mark_of_mem_grants hn
      have hgrant : (l.after requests).grant? r = some m := by
        simpa [Limiter.grants] using hm
      have hmark : (l.after (requests ++ [r])).memoryUsed = m := by
        rw [after_append, after, after, memoryUsed_ask, hgrant]
        rfl
      rw [← hmark]
      exact h earlier _ (hearlier.trans hbefore) (List.prefix_refl _)

/-- If no memory granted is smaller than one before, the mark is always the largest size. -/
theorem mark_eq_largest (hl : l.memoryUsed = 0) (h : (l.grants requests).Pairwise (· ≤ ·))
    {earlier : List Request} (hbefore : earlier <+: requests) :
    (l.after earlier).memoryUsed = l.largest earlier := by
  rw [memoryUsed_after, hl, largest, getLast?_eq_max? (h.sublist (grants_earlier hbefore).sublist)]

/-- If the mark is always the largest size, it never falls. -/
theorem neverFalls_of_largest
    (h : ∀ earlier, earlier <+: requests → (l.after earlier).memoryUsed = l.largest earlier) :
    l.NeverFalls requests := by
  intro earlier later hearlier hlater
  rw [h earlier (hearlier.trans hlater), h later hlater]
  exact largest_mono hearlier

/-- What a new limiter answers after any requests, and what its mark is. A request is granted
exactly if it asks for no more than the limit, and only a granted memory changes the mark, which is
the size of the last one granted. So the mark is at all times the largest size granted, and never
falls, exactly if no memory granted is smaller than one before. -/
theorem mark_of_requests (memoryLimit tableLimit : Nat) (requests : List Request) :
    let new : Limiter := { memoryLimit, tableLimit }
    let l := new.after requests
    (∀ n, ((l.askMemory n).1 ↔ n ≤ memoryLimit) ∧ ((l.askTable n).1 ↔ n ≤ tableLimit)) ∧
    (∀ n, (l.askTable n).2.memoryUsed = l.memoryUsed ∧
      (¬ (l.askMemory n).1 → (l.askMemory n).2.memoryUsed = l.memoryUsed)) ∧
    l.memoryUsed = (new.grants requests).getLast?.getD 0 ∧
    ((∀ earlier, earlier <+: requests →
      (new.after earlier).memoryUsed = new.largest earlier) ↔
        (new.grants requests).Pairwise (· ≤ ·)) ∧
    (new.NeverFalls requests ↔ (new.grants requests).Pairwise (· ≤ ·)) := by
  intro new l
  refine ⟨fun n => ⟨?_, ?_⟩, fun n => ⟨rfl, fun hn => ?_⟩, memoryUsed_after,
    ⟨fun h => (neverFalls_of_largest h).grants, fun h earlier => mark_eq_largest rfl h⟩,
    ⟨NeverFalls.grants, fun h => neverFalls_of_largest fun earlier => mark_eq_largest rfl h⟩⟩
  · have hgranted := l.granted_iff (.memory n)
    rwa [limit_after] at hgranted
  · have hgranted := l.granted_iff (.table n)
    rwa [limit_after] at hgranted
  · have hmark := l.memoryUsed_ask (.memory n)
    rwa [l.grant?_eq_none (r := .memory n) (.inr hn)] at hmark

/-- A memory granted after a larger one lowers the mark below the largest size granted. -/
theorem mark_falls_after_larger :
    let new : Limiter := { memoryLimit := 1024, tableLimit := 100 }
    let requests : List Request := [.memory 512, .memory 256]
    new.grants requests = [512, 256] ∧ (new.after requests).memoryUsed = 256 ∧
      new.largest requests = 512 ∧ ¬ new.NeverFalls requests := by
  intro new requests
  have hgrants : new.grants requests = [512, 256] := by decide
  obtain ⟨-, -, hmark, -, hfalls⟩ := mark_of_requests 1024 100 requests
  refine ⟨hgrants, hmark, by decide, ?_⟩
  rw [hfalls]
  decide

end Limiter
end StageHost

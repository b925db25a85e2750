import Mathlib.Data.List.Induction
import StageHost.Proofs.Guest.Call
/-
  What a call reports.
  The results of a call that returns are those of its own transcript: of each kind, the last report
  made during the call, decoded (`reported_of_call`). The guest may be in any state, so nothing that
  was said before the call can count. A report that code makes of a range of memory is the next
  thing in the transcript (`run_report_of_range`), and code that imports no report of a kind leaves
  the last one as it is (`lastReport_run`).
-/
namespace StageHost

namespace Transcript

/-- The last reports of a transcript, decoded. -/
def results (t : Transcript) : Reported where
  reason := (t.lastReport .reason).map Utf8.lossy
  nodeNames := (t.lastReport .nodeNames).map Wire.decodeStrings
  clusterEvents := (t.lastReport .clusterEvents).map Wire.decodeEvents
  nominatedNode := (t.lastReport .nominatedNode).map Utf8.lossy
  nodeScores := (t.lastReport .nodeScores).bind Bridge.readScores?

/-- One more thing said is the last report of its own kind, and of no other. -/
theorem lastReport_snoc (t : Transcript) (e : Exchange) (r : Report) :
    Transcript.lastReport (t ++ [e]) r = match e with
      | .reported r' bytes => if r' = r then some bytes else t.lastReport r
      | _ => t.lastReport r := by
  unfold lastReport
  rw [List.reverse_append, List.reverse_singleton, List.singleton_append, List.findSome?_cons]
  cases e with
  | logged | printed => rfl
  | reported r' bytes => by_cases h : r' = r <;> simp [h]

theorem mem_of_lastReport {t : Transcript} {r : Report} {bytes : List UInt8}
    (h : t.lastReport r = some bytes) : .reported r bytes ∈ t := by
  obtain ⟨e, he, hsome⟩ := List.exists_of_findSome?_eq_some h
  cases e with
  | logged | printed => cases hsome
  | reported r' bytes' =>
    dsimp only at hsome
    split at hsome
    · rename_i hr
      cases hsome
      exact hr ▸ List.mem_reverse.1 he
    · cases hsome

/-- There is a last report of a kind unless there is none at all. -/
theorem lastReport_isSome (t : Transcript) (r : Report) :
    (t.lastReport r).isSome ↔ ∃ bytes, .reported r bytes ∈ t := by
  constructor
  · intro h
    obtain ⟨bytes, hb⟩ := Option.isSome_iff_exists.1 h
    exact ⟨bytes, mem_of_lastReport hb⟩
  · rintro ⟨bytes, hm⟩
    rw [lastReport, List.isSome_findSome?]
    exact List.any_eq_true.2 ⟨_, List.mem_reverse.2 hm, by simp⟩

/-- Things said that are no reports of a kind leave the last one. -/
theorem lastReport_append {t more : Transcript} {r : Report}
    (h : ∀ bytes, .reported r bytes ∉ more) :
    Transcript.lastReport (t ++ more) r = t.lastReport r := by
  have hnone : Transcript.lastReport more r = none :=
    Option.not_isSome_iff_eq_none.1 fun hsome => by
      obtain ⟨bytes, hm⟩ := (more.lastReport_isSome r).1 hsome
      exact h bytes hm
  unfold lastReport at hnone ⊢
  rw [List.reverse_append, List.findSome?_append, hnone]
  rfl

theorem results_snoc (t : Transcript) (e : Exchange) (h : ¬ e.Malformed) :
    Transcript.results (t ++ [e]) = match e with
      | .reported r bytes => t.results.add r bytes
      | _ => t.results := by
  cases e with
  | logged | printed => simp only [results, lastReport_snoc]
  | reported r bytes =>
    cases r with
    | nodeScores =>
      obtain ⟨scores, hs⟩ := Option.ne_none_iff_exists'.1 h
      simp [results, lastReport_snoc, Reported.add, Bridge.record, hs]
    | reason | clusterEvents | nodeNames | nominatedNode =>
      simp [results, lastReport_snoc, Reported.add, Bridge.record]

end Transcript

/-- Whether there is a result of a kind. -/
def Reported.has (results : Reported) : Report → Bool
  | .reason => results.reason.isSome
  | .clusterEvents => results.clusterEvents.isSome
  | .nodeNames => results.nodeNames.isSome
  | .nominatedNode => results.nominatedNode.isSome
  | .nodeScores => results.nodeScores.isSome

/-- If all reports can be read, the results are of the kinds that were reported. -/
theorem Transcript.has_results {t : Transcript} (ht : ∀ e ∈ t, ¬ e.Malformed) (r : Report) :
    t.results.has r ↔ ∃ bytes, .reported r bytes ∈ t := by
  rw [← t.lastReport_isSome r]
  cases r with
  | nodeScores =>
    show ((t.lastReport .nodeScores).bind Bridge.readScores?).isSome ↔ _
    cases hlast : t.lastReport .nodeScores with
    | none => rfl
    | some bytes =>
      have hread : Bridge.readScores? bytes ≠ none := ht _ (mem_of_lastReport hlast)
      exact iff_of_true (Option.isSome_iff_ne_none.2 hread) rfl
  | reason | clusterEvents | nodeNames | nominatedNode =>
    dsimp only [Reported.has, Transcript.results]
    rw [Option.isSome_map]

/-- A context that hears some things without results has theirs in the end. -/
theorem reported_foldl_hear {c : CallContext} (hc : c.reported = {}) {t : Transcript}
    (ht : ∀ e ∈ t, ¬ e.Malformed) : (t.foldl CallContext.hear c).reported = t.results := by
  induction t using List.reverseRecOn with
  | nil => exact hc
  | append_singleton t e ih =>
    have hlast : ¬ e.Malformed := ht e (by simp)
    have hbefore := ih fun e he => ht e (List.mem_append_left _ he)
    rw [List.foldl_append, List.foldl_cons, List.foldl_nil, Transcript.results_snoc t e hlast,
      ← hbefore]
    cases e <;> rfl

/-- A call begins without results. -/
theorem StageCall.reported_context (c : StageCall) : c.context.reported = {} := by
  cases c <;> rfl

namespace Bridge

/-- A report of a range of memory is taken, unless it is one of a call in flight that cannot be
read. -/
theorem report_of_range_fst {address length : UInt32} {m : Memory} {bytes : List UInt8}
    (hm : m.range address length = .ok bytes) (r : Report) (h : Host) :
    (report r address length m h).1 = .ok () ↔
      h.call = none ∨ ¬ Exchange.Malformed (.reported r bytes) := by
  refine ⟨fun hok => ?_, fun hfine => ?_⟩
  · exact Decidable.or_iff_not_imp_left.2 fun hcall => (report_of_range hm r h).2 hok hcall
  · unfold report
    rw [hm]
    dsimp only [Host.note]
    split
    · rfl
    · rename_i c hcall
      have hread : ¬ Exchange.Malformed (.reported r bytes) :=
        hfine.resolve_left fun hnone => by
          rw [hnone] at hcall
          cases hcall
      obtain ⟨reported, hrecord⟩ := record_of_not_malformed hread c.reported
      rw [hrecord]

end Bridge

namespace Exec

variable {m m₁ m₂ : Machine} {r : Report} {a b : Expr} {address length : UInt32}

theorem run_report (ha : eval a m = (.ok address, m₁)) (hb : eval b m₁ = (.ok length, m₂))
    (hshared : m₂.shared) :
    run (.report r a b) m = ofOutcome (Bridge.report r address length m₂.memory m₂.host).1
      { m₂ with host := (Bridge.report r address length m₂.memory m₂.host).2 } := by
  show (eval a >>= fun address => eval b >>= fun length => report r address length) m = _
  rw [bind_of_ok ha, bind_of_ok hb, report, needsMemory_bind, if_pos hshared, tell_apply]

/-- Code that reports a range of memory says so with the bytes there, and they are added to the
results of the call in flight. Nothing else changes. The run goes on unless the bytes are to be
added and cannot be read. -/
theorem run_report_of_range (ha : eval a m = (.ok address, m₁))
    (hb : eval b m₁ = (.ok length, m₂)) (hshared : m₂.shared) {bytes : List UInt8}
    (hbytes : m₂.memory.range address length = .ok bytes) :
    (run (.report r a b) m).2 = { m₂ with host := { m₂.host with
        transcript := m₂.host.transcript ++ [.reported r bytes]
        call := m₂.host.call.map fun c => { c with reported := c.reported.add r bytes } } } ∧
      ((run (.report r a b) m).1 = .ok () ↔
        m₂.host.call = none ∨ ¬ Exchange.Malformed (.reported r bytes)) := by
  rw [run_report ha hb hshared, ofOutcome_snd, (Bridge.report_of_range hbytes r _).1,
    ← Bridge.report_of_range_fst hbytes r m₂.host]
  refine ⟨rfl, ?_⟩
  cases (Bridge.report r address length m₂.memory m₂.host).1 with
  | ok u => exact iff_of_true rfl rfl
  | error t => exact iff_of_false (fun h => by cases h) fun h => by cases h

/-- Code that reports a range outside memory traps, and nothing is said. -/
theorem run_report_of_no_range (ha : eval a m = (.ok address, m₁))
    (hb : eval b m₁ = (.ok length, m₂)) (hshared : m₂.shared) {e : OutOfBounds}
    (hrange : m₂.memory.range address length = .error e) :
    run (.report r a b) m = (.error (.failed (.trapped (.rangeBounds e))), m₂) := by
  have hreport : Bridge.report r address length m₂.memory m₂.host =
      (.error (.rangeBounds e), m₂.host) := by
    unfold Bridge.report
    rw [hrange]
  rw [run_report ha hb hshared, hreport]
  rfl

/-- Code that does not import the report of a kind makes none. -/
theorem lastReport_run {body : Statement} (h : .ofHost (.report r) ∉ body.imports) (m : Machine) :
    (run body m).2.host.transcript.lastReport r = m.host.transcript.lastReport r := by
  obtain ⟨acts, hcourse⟩ := acts_run body m
  rw [hcourse.reached, Host.transcript_acts]
  exact Transcript.lastReport_append fun bytes hm => h (hcourse.via _ hm)

end Exec

namespace Guest

/-- Whatever the guest was used for before, what a call that returns reports is what the guest
reported last during this call, of each kind that it reported. -/
theorem reported_of_call {g : Guest} {c : StageCall} {o : Outcome} (h : (g.call c).1 = .ok o) :
    o.reported = (g.said c).results ∧
      ∀ r, o.reported.has r ↔ ∃ bytes, .reported r bytes ∈ g.said c := by
  cases hbody : g.body? c with
  | none =>
    rw [call_of_no_body hbody] at h
    cases h
  | some body =>
    obtain ⟨result, m, hran⟩ := ran_of_body hbody
    rw [hran.outcome] at h
    cases hr : result with
    | error f =>
      rw [hr] at h
      cases h
    | ok word =>
      rw [hr] at h
      cases h
      have hread := hran.heeded word hr
      have hresults := reported_foldl_hear c.reported_context hread
      refine ⟨hresults, fun r => ?_⟩
      dsimp only
      rw [hresults]
      exact Transcript.has_results hread r

end Guest
end StageHost

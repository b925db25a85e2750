import StageHost.Proofs.Guest.Diagnostics
import StageHost.Proofs.Plugin.Answers
import StageHost.Proofs.Plugin.Operations
import StageHost.Proofs.Pool.Outline
/-
  Failed calls of the scheduling cycle.
  What a call does to the outline of the pool is known before the guest runs (`outline_run`), so it
  is the same whatever the guest makes of it. A stage whose guest traps or exits hands back a status
  of the failure and of what the guest printed, and for the rest what it hands back by default
  (`answer_of_failure`); what the guest reported until then is lost.
-/
namespace StageHost

/-- How a failure in a stage is told: by its kind, and on lines of its own by what the guest
printed. -/
def Failure.told (s : Stage) (printed : String) (f : Failure) : String :=
  let message := match f with
    | .trapped t => "guest " ++ s.exportName ++ " trapped: " ++ t.message
    | .exited code =>
      "guest " ++ s.exportName ++ " exited with code " ++ toString code.toInt32.toInt
  if (trimEnd printed).isEmpty then message else message ++ "\n" ++ trimEnd printed

namespace Plugin

/-! ## The outline of the pool -/

theorem outline_onGuest (p : Plugin) (id : Nat) (c : StageCall) :
    (p.onGuest id c).2.pool.outline = p.pool.outline := by
  rw [onGuest_snd, callGuest]
  split
  · rfl
  · dsimp only
    rw [Pool.modifyGuest_eq, Pool.outline_touch]

/-- The outline of the pool after a call of the scheduling cycle that finds a guest. -/
def booked (p : Plugin) (s : Stage) (cycle : UInt64) (uid : String) : Pool Unit :=
  let pool := (p.pool.outline.schedule (fun _ => (.ok () : Except CreationError Unit)) cycle uid).2
  let pool := if p.retainsWhileScheduling then pool.retain cycle .tentative else pool
  if s = .reserve then pool.retain cycle p.reserveRetention else pool

theorem booked_congr {p q : Plugin} (hexports : q.exports = p.exports)
    (hpool : q.pool.outline = p.pool.outline) (s : Stage) (cycle : UInt64) (uid : String) :
    q.booked s cycle uid = p.booked s cycle uid := by
  unfold booked retainsWhileScheduling reserveRetention
  rw [hexports, hpool]

theorem outline_onSchedulingGuest {p : Plugin} {cycle : UInt64} {pod : Pod} {id : Nat}
    (h : (p.pool.schedule p.create cycle pod.uid).1.toOption = some id) (c : StageCall) :
    (p.onSchedulingGuest cycle pod c).2.pool.outline =
      let pool :=
        (p.pool.outline.schedule (fun _ => (.ok () : Except CreationError Unit)) cycle pod.uid).2
      if p.retainsWhileScheduling then pool.retain cycle .tentative else pool := by
  unfold onSchedulingGuest
  rcases hs : p.pool.schedule p.create cycle pod.uid with ⟨e | i, pool⟩ <;> rw [hs] at h
  · cases h
  · dsimp only
    rw [outline_onGuest, Pool.outline_schedule hs]
    dsimp only
    split
    · exact (Pool.outline_retain pool cycle .tentative).symm
    · rfl

/-- What a call does to the outline of the pool does not depend on what its guest does. -/
theorem outline_run {p : Plugin} {c : StageCall} {cycle : UInt64} {pod : Pod} {id : Nat}
    (hk : c.key? = some (cycle, pod)) (hs : c.stage.schedules) (h : p.guestOf? c = some id) :
    (p.run c).2.pool.outline = p.booked c.stage cycle pod.uid := by
  have hx := (exports_of_guestOf h).2
  rw [guestOf_of_schedules hk hs hx] at h
  have hready := outline_onSchedulingGuest h c
  rcases pool_of_schedules hk hs with ⟨hnot, -⟩ | hrun
  · exact absurd hx hnot
  · rw [hrun]
    unfold booked
    dsimp only at hready ⊢
    rw [← hready]
    split
    · exact (Pool.outline_retain _ cycle _).symm
    · rfl

/-! ## Failures -/

theorem status_ofFailure (s : Stage) (printed : String) (f : Failure) :
    (CallError.ofFailure s printed f).status = ⟨.error, f.told s printed⟩ := by
  unfold CallError.status
  rw [Guest.diagnostics_ofFailure]
  cases f <;> (dsimp only [Failure.told]; split <;> rfl)

/-- A guest of any history fails in a call of the scheduling cycle, whatever it reported until then.
The stage hands back no more than a status of code `error`, whose reason is made of the failure and
of what the guest printed. The pool keeps the same books as it would for a guest that does anything
else in that call, such as return. -/
theorem answer_of_failure {p : Plugin} (hp : p.Reachable) {c : StageCall} {cycle : UInt64}
    {pod : Pod} (hk : c.key? = some (cycle, pod)) (hs : c.stage.schedules) {id : Nat}
    (h : p.guestOf? c = some id) :
    ∃ guest made uses, p.met? id = some guest ∧
      Guest.create p.module p.settings id = .ok made ∧ guest = made.after uses ∧
      ∀ printed f, (guest.call c).1 = .error (.ofFailure c.stage printed f) →
        (p.run c).1 = c.answerFailed ⟨.error, f.told c.stage printed⟩ ∧
        printed = Capture.shown (made.printed uses c .stdout) ++
          Capture.shown (made.printed uses c .stderr) ∧
        ∀ (q : Plugin) (c' : StageCall) (pod' : Pod), q.exports = p.exports →
          q.pool.outline = p.pool.outline → c'.stage = c.stage → c'.key? = some (cycle, pod') →
          pod'.uid = pod.uid → q.guestOf? c' ≠ none →
          (q.run c').2.pool.outline = (p.run c).2.pool.outline := by
  obtain ⟨guest, hmet, hrun⟩ := run_eq_answerOf hp.pool h
  obtain ⟨made, uses, hmade, rfl⟩ := lived_of_met hp hmet
  refine ⟨_, made, uses, hmet, hmade, rfl, fun printed f hfails => ⟨?_, ?_, ?_⟩⟩
  · rw [hrun, hfails, ← status_ofFailure]
    rfl
  · have hcalled : CallError.ofFailure c.stage printed f ≠ .notExported c.stage := by
      cases f <;> simp [CallError.ofFailure]
    have hprinted := Guest.diagnostics_of_call hfails hcalled
      (Guest.holds_after hmade uses .stdout) (Guest.holds_after hmade uses .stderr)
    rw [Guest.diagnostics_ofFailure] at hprinted
    exact hprinted
  · intro q c' pod' hexports hpool hstage hk' huid hsome
    obtain ⟨id', hid'⟩ := Option.ne_none_iff_exists'.1 hsome
    rw [outline_run hk' (hstage ▸ hs) hid', outline_run hk hs h, hstage, huid,
      booked_congr hexports hpool]

/-- A module whose prefilter allows one node and gives a reason, and then traps. -/
def fickleModule : Prepared where
  name := "fickle"
  digest := ""
  imports := .empty
  exports := .ofList [.prefilter, .bind]
  hasInitializer := false
  program := {
    exports := [⟨"memory", .store .memory⟩,
      ⟨"prefilter", .function Stage.prefilter.signature
        (.seq (.report .nodeNames (.word 0) (.word 4))
          (.seq (.report .reason (.word 0) (.word 4)) .trap))⟩,
      ⟨"bind", .function Stage.bind.signature .leave⟩]
    memory := some {}
    data := [⟨0, [110, 111, 100, 101]⟩] }

/-- The same stages, which return at once. -/
def steadyModule : Prepared :=
  { fickleModule with program := {
      exports := [⟨"memory", .store .memory⟩,
        ⟨"prefilter", .function Stage.prefilter.signature .leave⟩,
        ⟨"bind", .function Stage.bind.signature .leave⟩] } }

/-- The nodes and the reason are reported, but nothing of them is handed back; the pool then has the
same books as one whose guest returned. -/
theorem reports_lost_in_trap :
    let c : StageCall := .prefilter 1 {}
    let fickle := (start fickleModule default).2
    let steady := (start steadyModule default).2
    (∃ guest, fickle.met? 1 = some guest ∧
      (guest.said c).results = { reason := some "node", nodeNames := some ["node"] }) ∧
    (fickle.run c).1 =
      .restriction .allNodes ⟨.error, "guest prefilter trapped: " ++ Trap.unreachable.message⟩ ∧
    (steady.run c).1 = .restriction .allNodes .success ∧
    (steady.run c).2.pool.outline = (fickle.run c).2.pool.outline := by
  intro c fickle steady
  have hstart : start fickleModule default = (.ok (), fickle) := rfl
  have hreachable : fickle.Reachable := .start hstart
  obtain ⟨guest, _, _, hmet, -, -, hanswer⟩ := answer_of_failure hreachable
    (c := c) rfl rfl (show fickle.guestOf? c = some 1 by decide +kernel)
  have hguest : guest = (fickle.met? 1).getD default := by
    rw [hmet]
    rfl
  have hfails : (guest.call c).1 = .error (.ofFailure c.stage "" (.trapped .unreachable)) := by
    rw [hguest]
    decide +kernel
  obtain ⟨hrun, -, hbooks⟩ := hanswer _ _ hfails
  refine ⟨⟨guest, hmet, ?_⟩, hrun, by decide +kernel, ?_⟩
  · rw [hguest]
    decide +kernel
  · exact hbooks steady c {} rfl rfl rfl rfl rfl (by decide +kernel)

end Plugin
end StageHost

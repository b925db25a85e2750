import StageHost.Guest.Basic
import StageHost.Proofs.Guest.Run
/-
  Calls of guests.
  A call begins with a context of its own and with the streams as the last one left them. What a
  guest says in it (`Guest.said`) decides what it reports and what it prints; `Ran` has the machine
  as the run ends, and says what the call makes of it.
-/
namespace StageHost
namespace Guest

/-- Whatever a machine did before, a call begins with its own context. Of the rest only the cache
may change. -/
theorem enter_host (m : Machine) (c : StageCall) :
    ∃ cache, (enter m c).host = { m.host with call := some c.context, cache } := by
  unfold enter Host.beginCall Host.resetCycle
  dsimp only
  split <;> split <;> exact ⟨_, rfl⟩

/-- What a guest says in a call. -/
def said (g : Guest) (c : StageCall) : Transcript :=
  (g.call c).2.machine.host.transcript.drop g.machine.host.transcript.length

/-- A call of a stage that the guest exports: what its run comes to, and the machine as the run
ends. -/
structure Ran (g : Guest) (c : StageCall) (result : Except Failure UInt64) (m : Machine) :
    Prop where
  context : m.host.call = some ((g.said c).foldl CallContext.hear c.context)
  transcript : m.host.transcript = g.machine.host.transcript ++ g.said c
  holds : ∀ {s : Stream} {bytes : List UInt8}, g.machine.host.Holds s bytes →
    m.host.Holds s (bytes ++ (g.said c).output s)
  outcome : (g.call c).1 = match result with
    | .ok word => .ok ⟨word, ((g.said c).foldl CallContext.hear c.context).reported⟩
    | .error f => .error (.ofFailure c.stage m.host.takeDiagnostics.1 f)
  /-- The run failed if a report could not be read. -/
  heeded : ∀ word, result = .ok word → ∀ e ∈ g.said c, ¬ e.Malformed
  guest : (g.call c).2 =
    { g with machine := { m with host := m.host.endCall.2.takeDiagnostics.2 } }

theorem ran_of_body {g : Guest} {c : StageCall} {body : Statement}
    (hbody : g.body? c = some body) : ∃ result m, g.Ran c result m := by
  obtain ⟨cache, henter⟩ := enter_host g.machine c
  obtain ⟨acts, hcourse⟩ := (enter g.machine c).course_call body
  rcases hcall : (enter g.machine c).call body with ⟨result, m⟩
  rw [hcall, henter] at hcourse
  have htranscript : m.host.transcript = g.machine.host.transcript ++ StageHost.said acts := by
    rw [hcourse.reached, Host.transcript_acts]
  have hcontext : m.host.call =
      some ((StageHost.said acts).foldl CallContext.hear c.context) := by
    rw [hcourse.reached, Host.call_acts]
    rfl
  have hguest : (g.call c).2 =
      { g with machine := { m with host := m.host.endCall.2.takeDiagnostics.2 } } := by
    unfold Guest.call
    rw [hbody]
    dsimp only
    rw [hcall]
    cases result <;> rfl
  -- the transcript only grows, so what is new in it is what the acts say
  have hsaid : g.said c = StageHost.said acts := by
    have hkept : (g.call c).2.machine.host.transcript = m.host.transcript := by rw [hguest]; rfl
    rw [Guest.said, hkept, htranscript, List.drop_left]
  refine ⟨result, m, ?_, ?_, ?_, ?_, ?_, hguest⟩
  · rw [hsaid, hcontext]
  · rw [hsaid, htranscript]
  · intro s bytes hb
    have henters : Host.Holds { g.machine.host with call := some c.context, cache } s bytes := by
      cases s <;> exact hb
    rw [hsaid, hcourse.reached]
    exact henters.acts acts
  · unfold Guest.call
    rw [hbody, hsaid]
    dsimp only
    rw [hcall]
    dsimp only [Host.endCall]
    rw [hcontext]
    cases result <;> rfl
  · intro word hword
    rw [hsaid]
    exact hcourse.heeded ⟨word, hword⟩ (by simp)

/-- A stage that the guest does not export is not called. -/
theorem call_of_no_body {g : Guest} {c : StageCall} (hbody : g.body? c = none) :
    g.call c = (.error (.notExported c.stage), g) := by
  unfold Guest.call
  rw [hbody]

/-- A call whose run fails. -/
theorem call_of_failed {g : Guest} {c : StageCall} {body : Statement} {m : Machine} {f : Failure}
    (hbody : g.body? c = some body)
    (h : Exec.run body { enter g.machine c with locals := List.replicate 8 0 } =
      (.error (.failed f), m)) :
    g.call c = (.error (.ofFailure c.stage m.host.takeDiagnostics.1 f),
      { g with machine := { m with host := m.host.endCall.2.takeDiagnostics.2 } }) := by
  unfold Guest.call Machine.call
  rw [hbody]
  dsimp only
  rw [h]
  rfl

end Guest
end StageHost

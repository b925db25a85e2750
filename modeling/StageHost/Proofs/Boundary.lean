import StageHost.Config
import StageHost.Proofs.Cluster.Objects
import StageHost.Proofs.Guest.HostCall
import StageHost.Proofs.Plugin.Answers
/-
  What crosses the boundary between host and guest as JSON.
  Statuses and settings are denoted by their JSON as pods, nodes and scores are, the settings
  before anything of them is checked. The scores of a call are served to the guest as bytes
  (`During.value_nodeScores`), and the guest may report these bytes again: the report is taken
  (`During.report_of_served`), and the scores are handed back unchanged
  (`Guest.answer_of_served`).
-/
namespace StageHost
open Json

/-! ## Statuses and settings -/

theorem Code.denotes (c : Code) : Denotes decode (.string c.name) c := by
  refine ⟨.string c.name, ?_⟩
  cases c <;> rfl

theorem Status.denotes (s : Status) : Denotes decode s.toJson s := by
  refine Fills.denotes ?_ (by decide)
  exact .must s.code.denotes <| .must (denotes_string _) <| .nil s

theorem Severity.denotes (s : Severity) : Denotes decode (.integer s.toInt) s := by
  cases s <;> exact ⟨.integer (by decide), rfl⟩

theorem Config.denotes (c : Config) : Denotes decode c.toJson c := by
  have hlimit := stands_ifSome "memoryLimit" (denotes_uint64 "usize") (fun _ => nofun) c.memoryLimit
  have htimeout :=
    stands_ifSome "fetchTimeoutSecs" (denotes_uint64 "u64") (fun _ => nofun) c.fetchTimeoutSecs
  refine Fills.denotes ?_ (by decide)
  simp only [List.append_assoc, List.cons_append, List.nil_append]
  exact .must (denotes_string _) <| .text? rfl <| .given c.logSeverity.denotes <|
    .may hlimit rfl <| .may htimeout rfl <| .nil c

/-! ## Scores that are passed back -/

/-- What is written of some scores is read as the scores. -/
theorem readScores?_write (scores : List NodeScore) :
    Bridge.readScores? (write (NodeScore.listToJson scores)) = some scores := by
  have hscores := NodeScore.denotes_list scores
  unfold Bridge.readScores?
  rw [hscores.exact.read?_write]
  dsimp only
  rw [hscores.decoded]
  rfl

/-- A report of scores that can be read is taken. -/
theorem Bridge.report_of_scores {bytes : List UInt8} {scores : List NodeScore}
    (hread : readScores? bytes = some scores) {address length : UInt32} {m : Memory}
    (hm : m.range address length = .ok bytes) (h : Host) :
    report .nodeScores address length m h =
      (.ok (), h.hear (.reported .nodeScores bytes)) := by
  have hfine : ¬ Exchange.Malformed (.reported .nodeScores bytes) := fun hnone => by
    cases hread.symm.trans hnone
  exact Prod.ext ((report_of_range_fst hm .nodeScores h).2 (.inr hfine))
    (report_of_range hm .nodeScores h).1

/-- There is a call in flight for as long as a call lasts. -/
theorem During.call_ne_none {start m : Machine} (h : During start m)
    (hstart : start.host.call ≠ none) : m.host.call ≠ none := by
  induction h with
  | begins => exact hstart
  | @calls m _ call ih =>
    obtain ⟨acts, hcourse⟩ := call.acts_perform m
    rw [hcourse.reached, Host.call_acts]
    simpa using ih
  | @runs m _ body ih =>
    obtain ⟨acts, hcourse⟩ := Exec.acts_run body m
    rw [hcourse.reached, Host.call_acts]
    simpa using ih
  | works _ hhost ih => rwa [hhost]

/-- The scores of a call are served as they are written. -/
theorem During.value_nodeScores {machine m : Machine} {cycle : UInt64} {pod : Pod}
    {scores : List NodeScore}
    (h : During (Guest.enter machine (.normalizescore cycle pod scores)) m) :
    m.host.value .nodeScores = write (NodeScore.listToJson scores) := by
  obtain ⟨cache, henter⟩ := Guest.enter_host machine (.normalizescore cycle pod scores)
  rw [h.value, henter, Host.value_nodeScores]
  rfl

/-- A value that was asked for with enough room stands where it was put. -/
theorem HostCall.range_of_ask {m : Machine} (hshared : m.shared) {q : Question}
    {address room length : UInt32} (hlength : length.toNat = (m.host.value q).length)
    (hroom : length.toNat ≤ room.toNat) (hin : address.toNat + length.toNat ≤ m.memory.size) :
    ((HostCall.ask q address room).perform m).2.memory.range address length =
      .ok (m.host.value q) := by
  rw [hlength] at hroom hin
  obtain ⟨_, memory, host, -, hask, hwrote⟩ := Exec.givesValue_of_fits hshared hroom hin
  have hmemory : ((HostCall.ask q address room).perform m).2.memory = memory := by
    rw [perform, Exec.discard_apply, hask]
  have hholds : memory.holds address.toNat length.toNat := by
    simpa [Memory.holds, hwrote.size, hlength] using hin
  rw [hmemory, Memory.range, if_pos hholds, hlength, hwrote.inside]

/-- Scores that are reported as they were served are the result of the call. -/
theorem During.report_of_served {machine m : Machine} {cycle : UInt64} {pod : Pod}
    {scores : List NodeScore}
    (h : During (Guest.enter machine (.normalizescore cycle pod scores)) m) (hshared : m.shared)
    {address length : UInt32}
    (hrange : m.memory.range address length = .ok (m.host.value .nodeScores)) :
    ∃ host c, Exec.report .nodeScores address length m = (.ok (), { m with host }) ∧
      host.call = some c ∧ c.reported.nodeScores = some scores := by
  rw [h.value_nodeScores] at hrange
  have hreport := Bridge.report_of_scores (readScores?_write scores) hrange m.host
  obtain ⟨cache, henter⟩ := Guest.enter_host machine (.normalizescore cycle pod scores)
  obtain ⟨c, hc⟩ := Option.ne_none_iff_exists'.1 (h.call_ne_none (by rw [henter]; simp))
  refine ⟨m.host.hear (.reported .nodeScores (write (NodeScore.listToJson scores))),
    c.hear (.reported .nodeScores (write (NodeScore.listToJson scores))), ?_, ?_, ?_⟩
  · rw [Exec.report_apply, if_pos hshared, Exec.tell_apply, hreport]
    rfl
  · rw [Host.call_hear, hc]
    rfl
  · unfold CallContext.hear Reported.add Bridge.record
    dsimp only
    rw [readScores?_write]

/-- A call whose guest reported the scores last as they were served hands them back. -/
theorem Guest.answer_of_served {g : Guest} {cycle : UInt64} {pod : Pod} {scores : List NodeScore}
    {o : Outcome} (h : (g.call (.normalizescore cycle pod scores)).1 = .ok o)
    (hlast : (g.said (.normalizescore cycle pod scores)).lastReport .nodeScores =
      some (write (NodeScore.listToJson scores))) :
    (StageCall.normalizescore cycle pod scores).answer o = .scores scores o.status := by
  have hscores : o.reported.nodeScores = some scores := by
    rw [(reported_of_call h).1]
    unfold Transcript.results
    dsimp only
    rw [hlast]
    exact readScores?_write scores
  unfold StageCall.answer
  dsimp only
  rw [hscores]
  rfl

/-- Pods, nodes, lists of scores, statuses and settings come back as they were when their JSON is
decoded, in every field, be it written or left out; so they differ in their JSON if they differ at
all. This JSON is what a host serves as the node and as the scores of the call in flight, and as its
pod unless something is kept for the call's key. A guest that reports the scores of its call as they
were served is heard, the result of the call is these scores, and a plugin hands them back
unchanged. -/
theorem json_crosses_boundary :
    RoundTrips Pod.toJson Pod.decode ∧ RoundTrips Node.toJson Node.decode ∧
    RoundTrips NodeScore.listToJson NodeScore.decodeList ∧
    RoundTrips Status.toJson Status.decode ∧ RoundTrips Config.toJson Config.decode ∧
    (∀ h : Host,
      (h.value .node = match h.call.bind (·.node) with
        | some info => write info.node.toJson
        | none => []) ∧
      (h.value .nodeScores = match h.call.bind (·.nodeScores) with
        | some scores => write (NodeScore.listToJson scores)
        | none => []) ∧
      h.value .pod = match h.call.bind (·.pod) with
        | some pod =>
          if h.keepsKey then h.cache.pod.getD (write pod.toJson) else write pod.toJson
        | none => []) ∧
    (∀ {machine m : Machine} {cycle : UInt64} {pod : Pod} {scores : List NodeScore},
      During (Guest.enter machine (.normalizescore cycle pod scores)) m → m.shared →
      ∀ {address length : UInt32},
        m.memory.range address length = .ok (m.host.value .nodeScores) →
        ∃ host c, Exec.report .nodeScores address length m = (.ok (), { m with host }) ∧
          host.call = some c ∧ c.reported.nodeScores = some scores) ∧
    ∀ {p : Plugin} {cycle : UInt64} {pod : Pod} {scores : List NodeScore} {id : Nat},
      let c := StageCall.normalizescore cycle pod scores
      p.Reachable → p.guestOf? c = some id →
      ∃ guest, p.met? id = some guest ∧ ∀ o, (guest.call c).1 = .ok o →
        (guest.said c).lastReport .nodeScores = some (write (NodeScore.listToJson scores)) →
        (p.run c).1 = .scores scores o.status := by
  refine ⟨roundTrips_of_denotes Pod.denotes, roundTrips_of_denotes Node.denotes,
    roundTrips_of_denotes NodeScore.denotes_list, roundTrips_of_denotes Status.denotes,
    roundTrips_of_denotes Config.denotes,
    fun h => ⟨h.value_node, h.value_nodeScores, h.value_pod⟩, During.report_of_served, ?_⟩
  intro p cycle pod scores id c hp hid
  obtain ⟨guest, hmet, hrun⟩ := Plugin.run_eq_answerOf hp.pool hid
  refine ⟨guest, hmet, fun o ho hlast => ?_⟩
  rw [hrun, ho]
  exact Guest.answer_of_served ho hlast

/-- Two scores, of which one node has a quote and a line break in its name. -/
def twoScores : List NodeScore := [⟨"a\"\n", -1⟩, ⟨"b", Int64.maxValue⟩]

/-- A machine with one page of memory, as it is called to normalize two scores. -/
def normalizing : Machine :=
  Guest.enter { memory := .zeros Memory.pageSize, host := .ofSettings (.named "normalizing") }
    (.normalizescore 1 {} twoScores)

/-- A guest that asks for the scores and reports what it got has the same scores as its result. -/
theorem two_scores_passed_back :
    (read? (write (NodeScore.listToJson twoScores))).map NodeScore.decodeList =
      some (.ok twoScores) ∧
    ∃ host c,
      let m := ((HostCall.ask .nodeScores 4096 100).perform normalizing).2
      Exec.report .nodeScores 4096 70 m = (.ok (), { m with host }) ∧
        host.call = some c ∧ c.reported.nodeScores = some twoScores := by
  obtain ⟨-, -, hscores, -, -, -, hreport, -⟩ := json_crosses_boundary
  have hm : During normalizing ((HostCall.ask .nodeScores 4096 100).perform normalizing).2 :=
    During.begins.calls _
  have hlength : (70 : UInt32).toNat = (normalizing.host.value .nodeScores).length := by
    decide +kernel
  have hrange : ((HostCall.ask .nodeScores 4096 100).perform normalizing).2.memory.range 4096 70 =
      .ok (normalizing.host.value .nodeScores) :=
    HostCall.range_of_ask rfl hlength (by decide) (by decide +kernel)
  refine ⟨hscores.bytes twoScores, hreport hm (by decide +kernel) ?_⟩
  rw [hrange, hm.value]

end StageHost

import StageHost.Proofs.Guest.Results
import StageHost.Proofs.Plugin.Lives
/-
  What stages hand back.
  `StageCall.answer` is what a stage makes of a guest's outcome, and `run_eq_answerOf` says that a
  stage hands this back, for the guest that it runs on. With the results of a call
  (`Transcript.results`) it follows that everything handed back was reported in the call at hand,
  with the bytes that were in memory as the report was made (`answer_of_results`).
-/
namespace StageHost

namespace StageCall

/-- What a stage hands back if the guest's call returned. -/
def answer (c : StageCall) (o : Outcome) : StageAnswer :=
  match c with
  | .enqueue => .events (o.reported.clusterEvents.getD [])
  | .prefilter .. =>
    .restriction (match o.reported.nodeNames with
      | some names => .only names
      | none => .allNodes) o.status
  | .filter .. | .prescore .. | .reserve .. | .prebind .. | .bind .. => .status o.status
  | .postfilter .. =>
    let (mode, node, status) := o.nominated
    .nomination ⟨mode, node.getD ""⟩ status
  | .score .. => .score o.scored.1.toInt o.scored.2
  | .normalizescore _ _ scores => .scores (o.reported.nodeScores.getD scores) o.status
  | .permit .. => .wait o.permitted.1 o.permitted.2
  | .unreserve .. | .postbind .. => .done

/-- What a stage hands back if it has no more than a status. -/
def answerFailed (c : StageCall) (s : Status) : StageAnswer :=
  match c with
  | .enqueue => .events []
  | .prefilter .. => .restriction .allNodes s
  | .filter .. | .prescore .. | .reserve .. | .prebind .. | .bind .. => .status s
  | .postfilter .. => .nomination {} s
  | .score .. => .score 0 s
  | .normalizescore _ _ scores => .scores scores s
  | .permit .. => .wait s 0
  | .unreserve .. | .postbind .. => .done

def answerOf (c : StageCall) : Except Status Outcome → StageAnswer
  | .ok o => c.answer o
  | .error s => c.answerFailed s

end StageCall

namespace Plugin

theorem onGuest_fst {q : Plugin} {id : Nat} {guest : Guest} (h : q.pool.guest? id = some guest)
    (c : StageCall) : (q.onGuest id c).1 = (guest.call c).1.mapError CallError.status := by
  unfold onGuest callGuest
  rw [h]
  dsimp only
  rcases guest.call c with ⟨_ | _, g⟩ <;> rfl

/-- What a stage of the scheduling cycle hands back. -/
theorem run_of_schedules {p : Plugin} {c : StageCall} {cycle : UInt64} {pod : Pod}
    (hk : c.key? = some (cycle, pod)) (hs : c.stage.schedules) (hx : p.exports.has c.stage) :
    (p.run c).1 = c.answerOf (p.onSchedulingGuest cycle pod c).1 := by
  cases c with
  | prefilter | filter | postfilter | prescore | normalizescore =>
    cases hk
    dsimp only [StageCall.stage] at hx
    dsimp only [run, prefilter, filter, postfilter, prescore, normalizeScore]
    rw [if_pos hx]
    rcases p.onSchedulingGuest cycle pod _ with ⟨_ | _, q⟩ <;> rfl
  | score | reserve | permit =>
    cases hk
    dsimp only [run, score, reserve, permit]
    rcases p.onSchedulingGuest cycle pod _ with ⟨_ | _, q⟩ <;> rfl
  | enqueue | unreserve | prebind | bind | postbind => cases hs

/-- What a stage of the binding cycle hands back. -/
theorem run_of_binds {p : Plugin} {c : StageCall} {cycle : UInt64} {pod : Pod}
    (hk : c.key? = some (cycle, pod)) (hs : c.stage.binds) (hx : p.exports.has c.stage) :
    (p.run c).1 = c.answerOf (p.onBindingGuest pod c).1 := by
  cases c with
  | prebind =>
    cases hk
    dsimp only [StageCall.stage] at hx
    dsimp only [run, prebind]
    rw [if_pos hx]
    rcases p.onBindingGuest pod _ with ⟨_ | _, q⟩ <;> rfl
  | bind =>
    cases hk
    dsimp only [run, bind]
    rcases p.onBindingGuest pod _ with ⟨_ | _, q⟩ <;> rfl
  | unreserve | postbind =>
    rcases p.onBindingGuest pod _ with ⟨_ | _, q⟩ <;> rfl
  | enqueue | prefilter | filter | postfilter | prescore | score | normalizescore | reserve
  | permit => cases hs

/-- A stage hands back what it makes of the outcome of the guest that it runs on. -/
theorem run_eq_answerOf {p : Plugin} (hp : p.pool.Reachable CreationError) {c : StageCall}
    {id : Nat} (h : p.guestOf? c = some id) : ∃ guest, p.met? id = some guest ∧
      (p.run c).1 = c.answerOf ((guest.call c).1.mapError CallError.status) := by
  obtain ⟨hsome, hx⟩ := exports_of_guestOf h
  cases turn_run p c with
  | passed hn _ => exact (hn.elim hsome (fun hn => hn hx)).elim
  | scheduled hk hs _ =>
    rw [guestOf_of_schedules hk hs hx] at h
    obtain ⟨q, hready, hcall⟩ := readies_schedule hp h c
    obtain ⟨guest, hguest, hmet⟩ := hready.met
    refine ⟨guest, hmet, ?_⟩
    rw [run_of_schedules hk hs hx, hcall, onGuest_fst hguest]
  | bound hk hs _ =>
    rw [guestOf_of_binds hk hs hx] at h
    obtain ⟨q, hready, hcall⟩ := readies_binding hp h c
    obtain ⟨guest, hguest, hmet⟩ := hready.met
    refine ⟨guest, hmet, ?_⟩
    rw [run_of_binds hk hs hx, hcall, onGuest_fst hguest]

/-- The events that a plugin starts with are those that its first guest reports. -/
theorem events_of_start {module : Prepared} {config : Config} {p : Plugin}
    (h : start module config = (.ok (), p)) (hx : module.exports.has .enqueue) :
    ∃ g o, Guest.create module (.ofConfig module.name config) 1 = .ok g ∧
      (g.call .enqueue).1 = .ok o ∧ (p.run .enqueue).1 = StageCall.enqueue.answer o := by
  obtain ⟨g, hg, hask⟩ := askEvents_of_start h
  have hx' : (withFirst module config g).exports.has .enqueue := hx
  have hborrow : (withFirst module config g).pool.borrow (withFirst module config g).create =
      (.ok 1, { nextId := 2, guests := [(1, g)] }) := rfl
  have hcalled : (callGuest { withFirst module config g with
      pool := { nextId := 2, guests := [(1, g)] } } 1 .enqueue).1 = (g.call .enqueue).1 := rfl
  unfold askEvents at hask
  rw [if_pos hx', hborrow] at hask
  dsimp only at hask
  rcases hc : callGuest { withFirst module config g with
    pool := { nextId := 2, guests := [(1, g)] } } 1 .enqueue with ⟨e | o, q⟩ <;>
    rw [hc] at hask hcalled <;> cases hask
  exact ⟨g, o, hg, hcalled.symm, rfl⟩

/-- A module whose filter always says no, and gives a reason for it the first time. Its prefilter
names the nodes that remain the first time, and all of them remain from then on. -/
def terseModule : Prepared where
  name := "terse"
  digest := ""
  imports := .empty
  exports := .ofList [.enqueue, .prefilter, .filter]
  hasInitializer := false
  program := {
    exports := [⟨"memory", .store .memory⟩,
      ⟨"enqueue", .function Stage.enqueue.signature .leave⟩,
      ⟨"prefilter", .function Stage.prefilter.signature
        (.seq (.ite (.var (.glob 1)) .skip
            (.seq (.set (.glob 1) (.word 1)) (.report .nodeNames (.word 5) (.word 4))))
          (.giveWord (.word 0)))⟩,
      ⟨"filter", .function Stage.filter.signature
        (.seq (.ite (.var (.glob 0)) .skip
            (.seq (.set (.glob 0) (.word 1)) (.report .reason (.word 0) (.word 4))))
          (.giveWord (.word 2)))⟩]
    memory := some {}
    data := [⟨0, [102, 117, 108, 108, 0, 97, 0, 98, 0]⟩] }

/-- The plugin of that module. -/
def terse : Plugin := (start terseModule default).2

theorem start_terse : start terseModule default = (.ok (), terse) := rfl

end Plugin
end StageHost

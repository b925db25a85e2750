import StageHost.Guest.Basic
import StageHost.Pool
import StageHost.Source
/-
  A guest module as a plugin of the scheduler.
  Stages from prefilter to permit run on the guest of the scheduling cycle; unreserve, prebind,
  bind and postbind run on the guest held for the binding cycle of the pod. A failed guest call
  becomes a status of code `error`.
-/
namespace StageHost

structure Plugin where
  module : Prepared
  settings : Settings
  /-- What makes pods worth another try. -/
  events : List Event := []
  pool : Pool Guest := {}
  /-- What guests said that could not be made. -/
  lost : Transcript := []
deriving Inhabited

/-- Why there is no plugin. -/
inductive LoadError
  | config (e : ConfigError)
  | source (e : SourceError)
  /-- A file that cannot be read: its path, the kind of error, and the system's text. -/
  | file (path kind reason : String)
  | fetch (url reason : String)
  | prepare (e : PrepareError)
  | groups (e : GroupError)
  | instantiate (name reason : String)
  | guest (e : CallError)

namespace LoadError

def message : LoadError → String
  | .config e => e.message
  | .source e => e.message
  | .file path _ reason => "failed to read guest module " ++ path ++ ": " ++ reason
  | .fetch url reason => "failed to fetch guest module from " ++ url ++ ": " ++ reason
  | .prepare e => e.message
  | .groups e => e.message
  | .instantiate name reason => "failed to instantiate guest module " ++ name ++ ": " ++ reason
  | .guest e => e.message

end LoadError

namespace Plugin

def name (p : Plugin) : String := p.module.name

/-- The stages that the guest exports. -/
def exports (p : Plugin) : StageSet := p.module.exports

/-- Makes a guest of the plugin's module. -/
def create (p : Plugin) (id : Nat) : Except CreationError Guest :=
  Guest.create p.module p.settings id

/-- Calls a stage on a guest of the pool. -/
def callGuest (p : Plugin) (id : Nat) (c : StageCall) : Except CallError Outcome × Plugin :=
  match p.pool.guest? id with
  | none => (.error (.notExported c.stage), p)
  | some g =>
    let (result, g) := g.call c
    (result, { p with pool := p.pool.modifyGuest id fun _ => g })

/-- The log records of all guests since this was last asked. -/
def takeRecords (p : Plugin) : List LogRecord × Plugin :=
  let said := p.lost ++ p.pool.guests.flatMap fun e => e.2.takeTranscript.1
  let guests := p.pool.guests.map fun e => (e.1, e.2.takeTranscript.2)
  (said.records, { p with lost := [], pool := { p.pool with guests } })

/-! ## Loading -/

/-- Asks the first guest for the events that its plugin is to be woken by. A guest that exports no
such stage is woken by every event, one that reports nothing by none. -/
def askEvents (p : Plugin) : Except LoadError Unit × Plugin :=
  if p.exports.has .enqueue then
    match p.pool.borrow p.create with
    | (.error e, pool) =>
      (.error (.instantiate p.name e.message), { p with pool, lost := p.lost ++ e.transcript })
    | (.ok id, pool) =>
      match { p with pool }.callGuest id .enqueue with
      | (.error e, p) => (.error (.guest e), { p with pool := p.pool.giveBack id })
      | (.ok o, p) =>
        (.ok (), { p with
          pool := p.pool.giveBack id
          events := o.reported.clusterEvents.getD [] })
  else (.ok (), { p with events := [.wildcard] })

/-- The plugin of a prepared module, with its first guest made so that trouble shows at once. On
failure the plugin is only good for what its guests said. -/
def start (module : Prepared) (config : Config) : Except LoadError Unit × Plugin :=
  let p : Plugin := { module, settings := .ofConfig module.name config }
  match p.pool.prewarm p.create with
  | (.error e, pool) =>
    (.error (.instantiate p.name e.message), { p with pool, lost := e.transcript })
  | (.ok _, pool) => { p with pool }.askEvents

/-! ## Guests of cycles -/

/-- Whether a reserved pod always reaches a stage that releases its guest. -/
def reserveRetention (p : Plugin) : Retention :=
  if p.exports.has .bind then .firm else .tentative

/-- Whether every scheduling call retains the guest, because there is no reserve call to do so. -/
def retainsWhileScheduling (p : Plugin) : Bool := p.exports.has .bind && !p.exports.has .reserve

/-- The status for a guest that could not be made. -/
def creationStatus (e : CreationError) : Status :=
  .error ("failed to instantiate guest: " ++ e.message)

/-- The status for a pod whose guest was reclaimed. -/
def reclaimedStatus (pod : Pod) : Status :=
  .error ("guest that scheduled pod " ++ pod.uid ++ " was reclaimed before its binding cycle")

/-- Calls a stage on a guest, with a failure told as a status. -/
def onGuest (p : Plugin) (id : Nat) (c : StageCall) : Except Status Outcome × Plugin :=
  match p.callGuest id c with
  | (.ok o, p) => (.ok o, p)
  | (.error e, p) => (.error e.status, p)

/-- Calls a stage on the guest of the scheduling cycle. -/
def onSchedulingGuest (p : Plugin) (cycle : UInt64) (pod : Pod) (c : StageCall) :
    Except Status Outcome × Plugin :=
  match p.pool.schedule p.create cycle pod.uid with
  | (.error e, pool) => (.error (creationStatus e), { p with pool, lost := p.lost ++ e.transcript })
  | (.ok id, pool) =>
    let pool := if p.retainsWhileScheduling then pool.retain cycle .tentative else pool
    { p with pool }.onGuest id c

/-- Calls a stage on the guest held for the binding cycle of a pod. A pod that was not scheduled
here gets a guest of its own; one whose guest was reclaimed gets none. -/
def onBindingGuest (p : Plugin) (pod : Pod) (c : StageCall) : Except Status Outcome × Plugin :=
  match p.pool.claim pod.uid with
  | (.held id, pool) => { p with pool }.onGuest id c
  | (.reclaimed, pool) => (.error (reclaimedStatus pod), { p with pool })
  | (.unscheduled, pool) =>
    match pool.detach p.create pod.uid with
    | (.error e, pool) =>
      (.error (creationStatus e), { p with pool, lost := p.lost ++ e.transcript })
    | (.ok id, pool) => { p with pool }.onGuest id c

/-- The guest of a pod's binding cycle is freed. -/
def release (p : Plugin) (pod : Pod) : Plugin := { p with pool := p.pool.release pod.uid }

/-- Frees the guest of a binding cycle that failed, unless a later unreserve does so. -/
def releaseOnFailure (p : Plugin) (pod : Pod) (s : Status) : Plugin :=
  if s.code = .success ∨ s.code = .skip ∨ p.exports.has .reserve then p else p.release pod

/-! ## Stages of the scheduling cycle -/

def prefilter (p : Plugin) (cycle : UInt64) (pod : Pod) : (Restriction × Status) × Plugin :=
  if p.exports.has .prefilter then
    match p.onSchedulingGuest cycle pod (.prefilter cycle pod) with
    | (.ok o, p) =>
      let restriction := match o.reported.nodeNames with
        | some names => .only names
        | none => .allNodes
      ((restriction, o.status), p)
    | (.error s, p) => ((.allNodes, s), p)
  else ((.allNodes, .success), p)

def filter (p : Plugin) (cycle : UInt64) (pod : Pod) (node : NodeInfo) : Status × Plugin :=
  if p.exports.has .filter then
    match p.onSchedulingGuest cycle pod (.filter cycle pod node) with
    | (.ok o, p) => (o.status, p)
    | (.error s, p) => (s, p)
  else (.success, p)

def postfilter (p : Plugin) (cycle : UInt64) (pod : Pod) : (Nomination × Status) × Plugin :=
  if p.exports.has .postfilter then
    match p.onSchedulingGuest cycle pod (.postfilter cycle pod) with
    | (.ok o, p) =>
      let (mode, node, status) := o.nominated
      ((⟨mode, node.getD ""⟩, status), p)
    | (.error s, p) => (({}, s), p)
  else (({}, ⟨.unschedulable, "no postfilter"⟩), p)

def prescore (p : Plugin) (cycle : UInt64) (pod : Pod) : Status × Plugin :=
  if p.exports.has .prescore then
    match p.onSchedulingGuest cycle pod (.prescore cycle pod) with
    | (.ok o, p) => (o.status, p)
    | (.error s, p) => (s, p)
  else (.success, p)

def score (p : Plugin) (cycle : UInt64) (pod : Pod) (node : NodeInfo) :
    (Int × Status) × Plugin :=
  match p.onSchedulingGuest cycle pod (.score cycle pod node) with
  | (.ok o, p) => ((o.scored.1.toInt, o.scored.2), p)
  | (.error s, p) => ((0, s), p)

/-- Gives the scores as the guest reports them, or as they are. -/
def normalizeScore (p : Plugin) (cycle : UInt64) (pod : Pod) (scores : List NodeScore) :
    (List NodeScore × Status) × Plugin :=
  if p.exports.has .normalizescore then
    match p.onSchedulingGuest cycle pod (.normalizescore cycle pod scores) with
    | (.ok o, p) => ((o.reported.nodeScores.getD scores, o.status), p)
    | (.error s, p) => ((scores, s), p)
  else ((scores, .success), p)

/-- The guest is retained whatever comes of the call: a failed one is followed by unreserve. -/
def reserve (p : Plugin) (cycle : UInt64) (pod : Pod) (nodeName : String) : Status × Plugin :=
  let (result, p) := p.onSchedulingGuest cycle pod (.reserve cycle pod nodeName)
  let status := match result with
    | .ok o => o.status
    | .error s => s
  (status, { p with pool := p.pool.retain cycle p.reserveRetention })

/-- Gives the status and the milliseconds to wait. -/
def permit (p : Plugin) (cycle : UInt64) (pod : Pod) (nodeName : String) :
    (Status × Nat) × Plugin :=
  match p.onSchedulingGuest cycle pod (.permit cycle pod nodeName) with
  | (.ok o, p) => (o.permitted, p)
  | (.error s, p) => ((s, 0), p)

/-! ## Stages of the binding cycle -/

/-- Ends the cycle of the pod, whatever the guest makes of it. -/
def unreserve (p : Plugin) (cycle : UInt64) (pod : Pod) (nodeName : String) : Plugin :=
  let p :=
    if p.exports.has .unreserve then
      (p.onBindingGuest pod (.unreserve cycle pod nodeName)).2
    else p
  p.release pod

def prebind (p : Plugin) (cycle : UInt64) (pod : Pod) (nodeName : String) : Status × Plugin :=
  if p.exports.has .prebind then
    let (result, p) := p.onBindingGuest pod (.prebind cycle pod nodeName)
    let status := match result with
      | .ok o => o.status
      | .error s => s
    (status, p.releaseOnFailure pod status)
  else (.success, p)

def bind (p : Plugin) (cycle : UInt64) (pod : Pod) (nodeName : String) : Status × Plugin :=
  let (result, p) := p.onBindingGuest pod (.bind cycle pod nodeName)
  let status := match result with
    | .ok o => o.status
    | .error s => s
  (status, p.releaseOnFailure pod status)

/-- Ends the binding cycle of the pod, whatever the guest makes of it. -/
def postbind (p : Plugin) (cycle : UInt64) (pod : Pod) (nodeName : String) : Plugin :=
  let p :=
    if p.exports.has .postbind then
      (p.onBindingGuest pod (.postbind cycle pod nodeName)).2
    else p
  p.release pod

end Plugin

/-! ## Stages by their calls -/

/-- What the scheduler gets from a stage. -/
inductive StageAnswer
  | events (events : List Event)
  | restriction (r : Restriction) (s : Status)
  | status (s : Status)
  | nomination (n : Nomination) (s : Status)
  | score (score : Int) (s : Status)
  | scores (scores : List NodeScore) (s : Status)
  | wait (s : Status) (milliseconds : Nat)
  | done
deriving DecidableEq, Inhabited

namespace Plugin

/-- Calls a stage. -/
def run (p : Plugin) : StageCall → StageAnswer × Plugin
  | .enqueue => (.events p.events, p)
  | .prefilter cycle pod =>
    let ((r, s), p) := p.prefilter cycle pod
    (.restriction r s, p)
  | .filter cycle pod node =>
    let (s, p) := p.filter cycle pod node
    (.status s, p)
  | .postfilter cycle pod =>
    let ((n, s), p) := p.postfilter cycle pod
    (.nomination n s, p)
  | .prescore cycle pod =>
    let (s, p) := p.prescore cycle pod
    (.status s, p)
  | .score cycle pod node =>
    let ((n, s), p) := p.score cycle pod node
    (.score n s, p)
  | .normalizescore cycle pod scores =>
    let ((scores, s), p) := p.normalizeScore cycle pod scores
    (.scores scores s, p)
  | .reserve cycle pod name =>
    let (s, p) := p.reserve cycle pod name
    (.status s, p)
  | .unreserve cycle pod name => (.done, p.unreserve cycle pod name)
  | .permit cycle pod name =>
    let ((s, n), p) := p.permit cycle pod name
    (.wait s n, p)
  | .prebind cycle pod name =>
    let (s, p) := p.prebind cycle pod name
    (.status s, p)
  | .bind cycle pod name =>
    let (s, p) := p.bind cycle pod name
    (.status s, p)
  | .postbind cycle pod name => (.done, p.postbind cycle pod name)

end Plugin
end StageHost

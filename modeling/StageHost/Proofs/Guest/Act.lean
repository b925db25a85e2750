import StageHost.Guest.Bridge
/-
  What guest code does to its host.
  All of it is a list of acts: questions, wishes for more memory or a longer table, and things said.
  The host after some acts is their fold. Questions and wishes leave the call, the transcript and
  the streams alone (`Act.quiet`), so that these follow from what was said: the transcript grows by
  it (`transcript_acts`), the call in flight takes its reports (`call_acts`), and a stream keeps the
  first bytes printed to it (`Holds.acts`).
-/
namespace StageHost

/-- One thing that guest code does to its host. -/
inductive Act
  | asks (q : Question)
  /-- A memory of some bytes in all is wanted. -/
  | wantsMemory (bytes : Nat)
  | wantsTable (elements : Nat)
  | tells (e : Exchange)

/-- What is said in some acts. -/
def said (acts : List Act) : Transcript :=
  acts.filterMap fun
    | .tells e => some e
    | _ => none

theorem said_append (acts more : List Act) : said (acts ++ more) = said acts ++ said more :=
  List.filterMap_append

/-- The results with one more report, which is left out if it cannot be read. -/
def Reported.add (results : Reported) (r : Report) (bytes : List UInt8) : Reported :=
  match Bridge.record r bytes results with
  | .ok results => results
  | .error _ => results

/-- The context with what a guest tells during the call. -/
def CallContext.hear (c : CallContext) : Exchange → CallContext
  | .reported r bytes => { c with reported := c.reported.add r bytes }
  | .logged _ | .printed .. => c

/-- Whether something said is a report that cannot be read. -/
def Exchange.Malformed : Exchange → Prop
  | .reported .nodeScores bytes => Bridge.readScores? bytes = none
  | _ => False

theorem record_malformed {r : Report} {bytes : List UInt8}
    (h : Exchange.Malformed (.reported r bytes)) (results : Reported) :
    Bridge.record r bytes results = .error .malformedScores := by
  cases r with
  | nodeScores =>
    have hnone : Bridge.readScores? bytes = none := h
    rw [Bridge.record, hnone]
  | reason | clusterEvents | nodeNames | nominatedNode => exact h.elim

theorem record_of_not_malformed {r : Report} {bytes : List UInt8}
    (h : ¬ Exchange.Malformed (.reported r bytes)) (results : Reported) :
    ∃ results', Bridge.record r bytes results = .ok results' := by
  cases r with
  | nodeScores =>
    obtain ⟨scores, hscores⟩ := Option.ne_none_iff_exists'.1 h
    rw [Bridge.record, hscores]
    exact ⟨_, rfl⟩
  | reason | clusterEvents | nodeNames | nominatedNode => exact ⟨_, rfl⟩

namespace Host

/-- The host after something was said. -/
def hear (h : Host) : Exchange → Host
  | .logged r => h.note (.logged r)
  | .reported r bytes => (h.note (.reported r bytes)).modifyCall (·.hear (.reported r bytes))
  | .printed s bytes => h.print s bytes

/-- The host after an act. -/
def act (h : Host) : Act → Host
  | .asks q => (h.answer q).2
  | .wantsMemory bytes => { h with limiter := (h.limiter.askMemory bytes).2 }
  | .wantsTable elements => { h with limiter := (h.limiter.askTable elements).2 }
  | .tells e => h.hear e

/-! ## One act -/

/-- A question that is not about the pod changes the buffer at most. -/
theorem answer_snd_of_ne (h : Host) {q : Question} (hq : q ≠ .pod) :
    ∃ scratch, (h.answer q).2 = { h with scratch } := by
  cases q with
  | pod => exact absurd rfl hq
  | node =>
    unfold answer nodeBytes
    dsimp only
    split <;> exact ⟨_, rfl⟩
  | nodeScores =>
    unfold answer nodeScoresBytes
    dsimp only
    split <;> exact ⟨_, rfl⟩
  | nodeName | config => exact ⟨h.scratch, rfl⟩

/-- A question changes the cache and the buffer at most. -/
theorem answer_snd (h : Host) (q : Question) :
    ∃ cache scratch, (h.answer q).2 = { h with cache, scratch } := by
  by_cases hq : q = .pod
  · subst hq
    unfold answer podBytes
    dsimp only
    repeat' split
    all_goals exact ⟨_, _, rfl⟩
  · obtain ⟨scratch, hanswer⟩ := h.answer_snd_of_ne hq
    exact ⟨h.cache, scratch, hanswer⟩

/-- Up to the cache, the buffer and the limits, an act does what it tells. -/
theorem act_eq (h : Host) (a : Act) :
    ∃ cache scratch limiter,
      h.act a = { (said [a]).foldl hear h with cache, scratch, limiter } := by
  cases a with
  | asks q =>
    obtain ⟨cache, scratch, hq⟩ := h.answer_snd q
    exact ⟨cache, scratch, h.limiter, hq⟩
  | wantsMemory | wantsTable => exact ⟨h.cache, h.scratch, _, rfl⟩
  | tells e => exact ⟨(h.hear e).cache, (h.hear e).scratch, (h.hear e).limiter, rfl⟩

theorem transcript_hear (h : Host) (e : Exchange) :
    (h.hear e).transcript = h.transcript ++ [e] := by
  cases e with
  | logged | reported => rfl
  | printed s => cases s <;> rfl

theorem call_hear (h : Host) (e : Exchange) : (h.hear e).call = h.call.map (·.hear e) := by
  cases e with
  | logged => exact Option.map_id'.symm
  | reported => rfl
  | printed s bytes => cases s <;> exact Option.map_id'.symm

theorem transcript_act (h : Host) (a : Act) :
    (h.act a).transcript = h.transcript ++ said [a] := by
  obtain ⟨cache, scratch, limiter, hact⟩ := h.act_eq a
  rw [hact]
  cases a with
  | asks | wantsMemory | wantsTable => exact (List.append_nil _).symm
  | tells e => exact h.transcript_hear e

theorem call_act (h : Host) (a : Act) :
    (h.act a).call = h.call.map fun c => (said [a]).foldl CallContext.hear c := by
  obtain ⟨cache, scratch, limiter, hact⟩ := h.act_eq a
  rw [hact]
  cases a with
  | asks | wantsMemory | wantsTable => exact Option.map_id'.symm
  | tells e => exact h.call_hear e

/-! ## Streams -/

/-- Whether a stream holds some bytes, of which those beyond its capacity are lost. -/
def Holds (h : Host) (s : Stream) (bytes : List UInt8) : Prop :=
  (h.capture s).bytes.toList = bytes.take Capture.capacity

theorem push_bytes {c : Capture} {bytes : List UInt8}
    (h : c.bytes.toList = bytes.take Capture.capacity) (more : List UInt8) :
    (c.push more).bytes.toList = (bytes ++ more).take Capture.capacity := by
  have hsize : c.bytes.size = min Capture.capacity bytes.length := by
    rw [← Array.length_toList, h, List.length_take]
  have hroom : c.room = Capture.capacity - bytes.length := by
    unfold Capture.room
    omega
  unfold Capture.push
  rw [Array.toList_append, h, hroom, List.take_append]

theorem capture_print (h : Host) (s t : Stream) (bytes : List UInt8) :
    (h.print s bytes).capture t =
      if s = t then (h.capture t).push bytes else h.capture t := by
  cases s <;> cases t <;> rfl

theorem Holds.hear {h : Host} {s : Stream} {bytes : List UInt8} (hb : h.Holds s bytes)
    (e : Exchange) : (h.hear e).Holds s (bytes ++ Transcript.output [e] s) := by
  have hsame : h.Holds s (bytes ++ []) := by
    rw [List.append_nil]
    exact hb
  cases e with
  | logged | reported => cases s <;> exact hsame
  | printed t more =>
    have ho : Transcript.output [.printed t more] s = if t = s then more else [] :=
      List.append_nil _
    unfold Host.hear Holds
    dsimp only
    rw [ho, capture_print]
    split
    · exact push_bytes hb more
    · exact hsame

theorem Holds.act {h : Host} {s : Stream} {bytes : List UInt8} (hb : h.Holds s bytes)
    (a : Act) : (h.act a).Holds s (bytes ++ (said [a]).output s) := by
  obtain ⟨cache, scratch, limiter, hact⟩ := h.act_eq a
  have hsame : h.Holds s (bytes ++ []) := by
    rw [List.append_nil]
    exact hb
  rw [hact]
  cases a with
  | asks | wantsMemory | wantsTable => cases s <;> exact hsame
  | tells e =>
    have := hb.hear e
    cases s <;> exact this

/-! ## Many acts -/

theorem transcript_acts (h : Host) (acts : List Act) :
    (acts.foldl act h).transcript = h.transcript ++ said acts := by
  induction acts generalizing h with
  | nil => exact (List.append_nil _).symm
  | cons a acts ih =>
    rw [List.foldl_cons, ih, transcript_act, List.append_assoc, ← said_append]
    rfl

theorem call_acts (h : Host) (acts : List Act) :
    (acts.foldl act h).call = h.call.map fun c => (said acts).foldl CallContext.hear c := by
  induction acts generalizing h with
  | nil => exact Option.map_id'.symm
  | cons a acts ih =>
    have hsplit : said (a :: acts) = said [a] ++ said acts := said_append [a] acts
    rw [List.foldl_cons, ih, call_act, Option.map_map, hsplit]
    congr 1
    funext c
    exact List.foldl_append.symm

theorem Holds.acts {h : Host} {s : Stream} {bytes : List UInt8} (hb : h.Holds s bytes)
    (acts : List Act) : (acts.foldl Host.act h).Holds s (bytes ++ (said acts).output s) := by
  induction acts generalizing h bytes with
  | nil =>
    show h.Holds s (bytes ++ [])
    rw [List.append_nil]
    exact hb
  | cons a acts ih =>
    have hsplit : said (a :: acts) = said [a] ++ said acts := said_append [a] acts
    have hout : (said (a :: acts)).output s = (said [a]).output s ++ (said acts).output s := by
      rw [hsplit]
      exact List.flatMap_append
    rw [List.foldl_cons, hout, ← List.append_assoc]
    exact ih (hb.act a)

end Host
end StageHost

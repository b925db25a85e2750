import StageHost.Proofs.Guest.Act
import StageHost.Proofs.Guest.Code
/-
  Runs of guest code as lists of acts.
  `Course` says that some acts lead from one host to another, that what is said in them is said
  through certain imports, and that a report that cannot be read during a call is followed by a
  failure. It holds of the steps that leave the host alone, of those that call it, and of steps one
  after the other (`acts_bind`); so every run has a course (`acts_run`), whatever comes of it, and
  says nothing but through the imports of its code. `course_call` says so of the call of a function.
-/
namespace StageHost

/-- Whether something is said through imports that are allowed. -/
def Exchange.Via (allowed : Import → Prop) : Exchange → Prop
  | .logged _ => allowed (.ofHost .log) ∨ allowed (.ofHost .logs)
  | .reported r _ => allowed (.ofHost (.report r))
  | .printed .. => allowed (.ofSystem SystemInterface.write)

/-- Whether some acts lead from one host to another, and say things through allowed imports only. If
no failure came of it, all reports made in a call could be read. -/
structure Host.Course (allowed : Import → Prop) (h : Host) (acts : List Act) (fine : Prop)
    (h' : Host) : Prop where
  reached : h' = acts.foldl Host.act h
  via : ∀ e ∈ said acts, e.Via allowed
  heeded : fine → h.call ≠ none → ∀ e ∈ said acts, ¬ e.Malformed

namespace Host

variable {allowed : Import → Prop} {h h' h'' : Host} {acts more : List Act} {fine fine' : Prop}

theorem Course.refl (h : Host) (fine : Prop) : h.Course allowed [] fine h :=
  ⟨rfl, fun _ he => (List.not_mem_nil he).elim, fun _ _ _ he => (List.not_mem_nil he).elim⟩

theorem Course.call_ne_none (hc : h.Course allowed acts fine h') (hcall : h.call ≠ none) :
    h'.call ≠ none := by
  rw [hc.reached, call_acts]
  simpa using hcall

theorem Course.trans (hc : h.Course allowed acts fine h') (hc' : h'.Course allowed more fine' h'')
    (hfine : fine' → fine) : h.Course allowed (acts ++ more) fine' h'' := by
  constructor
  · rw [hc'.reached, hc.reached, List.foldl_append]
  · intro e he
    rw [said_append, List.mem_append] at he
    exact he.elim (hc.via e) (hc'.via e)
  · intro hf hcall e he
    rw [said_append, List.mem_append] at he
    rcases he with he | he
    · exact hc.heeded (hfine hf) hcall e he
    · exact hc'.heeded hf (hc.call_ne_none hcall) e he

/-- One act by which nothing is said. -/
theorem course_quiet {a : Act} (ha : said [a] = []) (h : Host) (fine : Prop) :
    h.Course allowed [a] fine (h.act a) := by
  refine ⟨rfl, ?_, fun _ _ => ?_⟩ <;>
  · rw [ha]
    exact fun _ he => (List.not_mem_nil he).elim

/-- One thing that is said, which is no report that goes unread. -/
theorem course_tells {e : Exchange} (hvia : e.Via allowed) (h : Host)
    (hfine : fine → h.call ≠ none → ¬ e.Malformed) :
    h.Course allowed [.tells e] fine (h.hear e) :=
  ⟨rfl, List.forall_mem_singleton.2 hvia,
    fun hf hcall => List.forall_mem_singleton.2 (hfine hf hcall)⟩

end Host

/-! ## Calls to the host -/

namespace Bridge

theorem ask_snd (q : Question) (address room : UInt32) (m : Memory) (h : Host) :
    (ask q address room m h).2 = h.act (.asks q) := by
  unfold ask
  rcases hq : h.answer q with ⟨value, h'⟩
  have hact : h.act (.asks q) = h' := congrArg Prod.snd hq
  rw [hact]
  dsimp only
  split <;> rfl

/-- Whether a function of the host does no more than acts on it, and fails if a report made in a
call cannot be read. -/
def Heeds (allowed : Import → Prop) (call : Memory → Host → Except Trap Unit × Host) : Prop :=
  ∀ (m : Memory) (h : Host), ∃ acts, h.Course allowed acts ((call m h).1 = .ok ()) (call m h).2

/-- What a report makes of the host, and whether it is taken. -/
theorem report_of_range {address length : UInt32} {m : Memory} {bytes : List UInt8}
    (hm : m.range address length = .ok bytes) (r : Report) (h : Host) :
    (report r address length m h).2 = h.hear (.reported r bytes) ∧
      ((report r address length m h).1 = .ok () → h.call ≠ none →
        ¬ Exchange.Malformed (.reported r bytes)) := by
  obtain ⟨settings, call, cache, scratch, stdout, stderr, limiter, transcript⟩ := h
  unfold report
  rw [hm]
  cases call with
  | none => exact ⟨rfl, fun _ hcall => absurd rfl hcall⟩
  | some c =>
    dsimp only [Host.note]
    cases hr : record r bytes c.reported with
    | ok reported =>
      have hadd : c.reported.add r bytes = reported := by rw [Reported.add, hr]
      refine ⟨?_, fun _ _ hbad => ?_⟩
      · rw [← hadd]
        rfl
      · rw [record_malformed hbad] at hr
        cases hr
    | error t =>
      have hadd : c.reported.add r bytes = c.reported := by rw [Reported.add, hr]
      refine ⟨?_, fun hok => by cases hok⟩
      show _ = Host.hear _ _
      unfold Host.hear Host.modifyCall CallContext.hear
      dsimp only [Host.note, Option.map_some]
      rw [hadd]

variable {allowed : Import → Prop}

theorem heeds_report {r : Report} (hr : allowed (.ofHost (.report r))) (address length : UInt32) :
    Heeds allowed (report r address length) := by
  intro m h
  cases hm : m.range address length with
  | error b =>
    have hsame : (report r address length m h).2 = h := by
      unfold report
      rw [hm]
    rw [hsame]
    exact ⟨[], .refl h _⟩
  | ok bytes =>
    obtain ⟨hhost, hread⟩ := report_of_range hm r h
    have hvia : Exchange.Via allowed (.reported r bytes) := hr
    rw [hhost]
    exact ⟨_, Host.course_tells hvia h hread⟩

/-- A log record is never malformed. -/
theorem course_logged {r : LogRecord} (hlog : Exchange.Via allowed (.logged r)) (h : Host)
    (fine : Prop) : h.Course allowed [.tells (.logged r)] fine (h.note (.logged r)) :=
  Host.course_tells hlog h fun _ _ => id

theorem heeds_log (hlog : allowed (.ofHost .log)) (level : Int32) (address length : UInt32) :
    Heeds allowed (log level address length) := by
  intro m h
  unfold log
  cases enabled? h level with
  | none => exact ⟨[], .refl h _⟩
  | some severity =>
    cases m.range address length with
    | error b => exact ⟨[], .refl h _⟩
    | ok bytes => exact ⟨_, course_logged (.inl hlog) h _⟩

theorem heeds_logs (hlogs : allowed (.ofHost .logs)) (level : Int32)
    (address length kvAddress kvLength : UInt32) :
    Heeds allowed (logs level address length kvAddress kvLength) := by
  intro m h
  unfold logs
  cases enabled? h level with
  | none => exact ⟨[], .refl h _⟩
  | some severity =>
    cases m.range address length with
    | error b => exact ⟨[], .refl h _⟩
    | ok bytes =>
      dsimp only
      cases m.range kvAddress kvLength with
      | error b => exact ⟨[], .refl h _⟩
      | ok kv => exact ⟨_, course_logged (.inr hlogs) h _⟩

/-- Printing is an act at most, whatever number comes of it. -/
theorem course_print (hwrite : allowed (.ofSystem SystemInterface.write))
    (number address length : UInt32) (m : Memory) (h : Host) (fine : Prop) :
    ∃ acts, h.Course allowed acts fine (print number address length m h).2 := by
  unfold print
  cases stream? number with
  | none => exact ⟨[], .refl h _⟩
  | some s =>
    cases m.range address length with
    | error b => exact ⟨[], .refl h _⟩
    | ok bytes =>
      have hvia : Exchange.Via allowed (.printed s bytes) := hwrite
      exact ⟨_, Host.course_tells hvia h fun _ _ => id⟩

end Bridge

/-! ## Steps -/

namespace Exec

variable {α β : Type} {allowed : Import → Prop}

/-- Whether a step ended the run by a failure. -/
def Failed (r : Except Stop α) : Prop := ∃ f, r = .error (.failed f)

/-- Whether a step from some machine does no more than acts on the host, whatever comes of it. -/
def ActsOn (allowed : Import → Prop) (m : Machine) (x : Exec α) : Prop :=
  ∃ acts, m.host.Course allowed acts (¬ Failed (x m).1) (x m).2.host

/-- Whether a step does so from every machine. -/
def Acts (allowed : Import → Prop) (x : Exec α) : Prop := ∀ m, ActsOn allowed m x

theorem ActsOn.bind {m : Machine} {x : Exec α} {f : α → Exec β} (hx : ActsOn allowed m x)
    (hf : ∀ a, Acts allowed (f a)) : ActsOn allowed m (x >>= f) := by
  obtain ⟨acts, hfirst⟩ := hx
  unfold ActsOn
  rw [bind_apply]
  -- if the first step stops, the whole stops the same way and the second one never acts
  rcases hxm : x m with ⟨stop | a, m'⟩ <;> rw [hxm] at hfirst
  · refine ⟨acts, hfirst.reached, hfirst.via, fun hfine => hfirst.heeded ?_⟩
    rintro ⟨f, hf⟩
    cases hf
    exact hfine ⟨f, rfl⟩
  · obtain ⟨more, hsecond⟩ := hf a m'
    exact ⟨acts ++ more, hfirst.trans hsecond fun _ ⟨f, hf⟩ => by cases hf⟩

theorem acts_bind {x : Exec α} {f : α → Exec β} (hx : Acts allowed x)
    (hf : ∀ a, Acts allowed (f a)) : Acts allowed (x >>= f) := fun m => (hx m).bind hf

/-- A step that looks at the machine first. -/
theorem acts_get_bind {f : Machine → Exec β} (hf : ∀ m, ActsOn allowed m (f m)) :
    Acts allowed (get >>= f) := by
  intro m
  have hget : (get >>= f : Exec β) m = f m m := bind_apply get f m
  unfold ActsOn
  rw [hget]
  exact hf m

/-- A step that leaves the host alone. -/
theorem acts_of_host {x : Exec α} (h : ∀ m, (x m).2.host = m.host) : Acts allowed x := by
  intro m
  unfold ActsOn
  rw [h]
  exact ⟨[], .refl m.host _⟩

theorem acts_pure (a : α) : Acts allowed (pure a : Exec α) := acts_of_host fun _ => rfl

theorem acts_get : Acts allowed (get : Exec Machine) := acts_of_host fun _ => rfl

theorem acts_throw (stop : Stop) : Acts allowed (throw stop : Exec α) := acts_of_host fun _ => rfl

theorem acts_trap (t : Trap) : Acts allowed (trap t : Exec α) := acts_throw _

theorem acts_modify {f : Machine → Machine} (h : ∀ m, (f m).host = m.host) :
    Acts allowed (modify f : Exec Unit) := acts_of_host h

theorem closed_acts : Closed fun _ x => Acts allowed x where
  pure := acts_pure
  bind := acts_bind
  get := acts_get
  modify h := acts_modify fun m => (h m).1
  stop _ := acts_throw _

theorem acts_needsMemory (t : Trap) : Acts allowed (needsMemory t) :=
  acts_bind acts_get fun _ => of_branches (acts_pure _) (acts_trap _)

theorem acts_ofOutcome (r : Except Trap α) : Acts allowed (ofOutcome r) := by
  cases r with
  | ok a => exact acts_pure a
  | error t => exact acts_trap t

/-- Growing asks the limiter for the memory in all. -/
theorem acts_growMemory (pages : UInt32) : Acts allowed (growMemory pages) := by
  refine acts_get_bind fun m => ?_
  dsimp only
  split
  · exact acts_pure _ m
  · have hgrant : ActsOn allowed m (modifyHost fun h => { h with limiter :=
        (m.host.limiter.askMemory (m.memory.size + pages.toNat * Memory.pageSize)).2 }) :=
      ⟨_, Host.course_quiet (a := .wantsMemory _) rfl m.host _⟩
    exact hgrant.bind fun _ =>
      of_branches (acts_bind (closed_acts.modifyMemory _) fun _ => acts_pure _) (acts_pure _)

theorem acts_growTable (elements : UInt32) : Acts allowed (growTable elements) := by
  refine acts_get_bind fun m => ?_
  dsimp only
  split
  · exact acts_pure _ m
  · have hgrant : ActsOn allowed m (modifyHost fun h => { h with limiter :=
        (m.host.limiter.askTable (m.table + elements.toNat)).2 }) :=
      ⟨_, Host.course_quiet (a := .wantsTable _) rfl m.host _⟩
    exact hgrant.bind fun _ =>
      of_branches (acts_bind (acts_modify fun _ => rfl) fun _ => acts_pure _) (acts_pure _)

theorem acts_ask (q : Question) (address room : UInt32) : Acts allowed (ask q address room) := by
  refine acts_bind (acts_needsMemory _) fun _ => acts_get_bind fun m => ?_
  have hanswer : ActsOn allowed m
      (modifyHost fun _ => (Bridge.ask q address room m.memory m.host).2) := by
    rw [Bridge.ask_snd]
    exact ⟨_, Host.course_quiet (a := .asks q) rfl m.host _⟩
  exact hanswer.bind fun _ => acts_bind (acts_ofOutcome _) fun _ =>
    acts_bind (closed_acts.modifyMemory _) fun _ => acts_pure _

/-- A function of the host is called with the memory and the host as they are. -/
theorem tell_apply (call : Memory → Host → Except Trap Unit × Host) (m : Machine) :
    tell call m = ofOutcome (call m.memory m.host).1
      { m with host := (call m.memory m.host).2 } := by
  unfold tell
  rw [bind_apply]
  rfl

theorem ofOutcome_snd (r : Except Trap α) (m : Machine) : (ofOutcome r m).2 = m := by
  cases r <;> rfl

theorem acts_tell {call : Memory → Host → Except Trap Unit × Host}
    (hc : Bridge.Heeds allowed call) : Acts allowed (tell call) := by
  intro m
  obtain ⟨acts, hcourse⟩ := hc m.memory m.host
  unfold ActsOn
  rw [tell_apply]
  rcases hcall : call m.memory m.host with ⟨outcome, host⟩
  rw [hcall] at hcourse
  cases outcome with
  | ok u => exact ⟨acts, hcourse.reached, hcourse.via, fun _ => hcourse.heeded rfl⟩
  | error t =>
    exact ⟨acts, hcourse.reached, hcourse.via, fun hfine => absurd ⟨.trapped t, rfl⟩ hfine⟩

theorem acts_report {r : Report} (hr : allowed (.ofHost (.report r))) (address length : UInt32) :
    Acts allowed (report r address length) :=
  acts_bind (acts_needsMemory _) fun _ => acts_tell (Bridge.heeds_report hr address length)

theorem acts_logging (level : UInt32) {call : Memory → Host → Except Trap Unit × Host}
    (hc : Bridge.Heeds allowed call) : Acts allowed (logging level call) :=
  acts_bind acts_get fun _ =>
    of_branches (acts_bind (acts_needsMemory _) fun _ => acts_tell hc) (acts_pure _)

theorem acts_log (hlog : allowed (.ofHost .log)) (level address length : UInt32) :
    Acts allowed (log level address length) :=
  acts_logging level (Bridge.heeds_log hlog _ address length)

theorem acts_logs (hlogs : allowed (.ofHost .logs))
    (level address length kvAddress kvLength : UInt32) :
    Acts allowed (logs level address length kvAddress kvLength) :=
  acts_logging level (Bridge.heeds_logs hlogs _ address length kvAddress kvLength)

theorem acts_print (hwrite : allowed (.ofSystem SystemInterface.write))
    (stream address length : UInt32) : Acts allowed (print stream address length) := by
  refine acts_bind (closed_acts.store32 _ _) fun _ => acts_bind (closed_acts.store32 _ _) fun _ =>
    acts_bind (acts_needsMemory _) fun _ => acts_get_bind fun m => ?_
  have hprint : ActsOn allowed m
      (modifyHost fun _ => (Bridge.print stream address length m.memory m.host).2) :=
    Bridge.course_print hwrite stream address length m.memory m.host _
  exact hprint.bind fun _ =>
    of_branches (acts_bind (closed_acts.store32 _ _) fun _ => acts_pure _) (acts_pure _)

theorem acts_exit (code : UInt32) : Acts allowed (exit code) :=
  acts_bind (acts_needsMemory _) fun _ => acts_throw _

theorem covers_acts (allowed : Import → Prop) : Covers (fun _ x => Acts allowed x) allowed where
  toClosed := closed_acts
  growMemory := acts_growMemory
  growTable := acts_growTable
  ask _ := acts_ask _
  report := acts_report
  log := acts_log
  logs := acts_logs
  print := acts_print
  exit := acts_exit

/-- Whatever guest code does to the host is a list of acts, and it says nothing but through its
imports. -/
theorem acts_run (body : Statement) : Acts (· ∈ body.imports) (run body) :=
  (covers_acts _).run fun _ => id

end Exec

/-- A call of a function is a list of acts. If it returns, it made no report that cannot be read
while a call was in flight. -/
theorem Machine.course_call (m : Machine) (body : Statement) :
    ∃ acts, m.host.Course (· ∈ body.imports) acts (∃ word, (m.call body).1 = .ok word)
      (m.call body).2.host := by
  obtain ⟨acts, hcourse⟩ := Exec.acts_run body { m with locals := List.replicate 8 0 }
  refine ⟨acts, ?_⟩
  unfold Machine.call
  rcases hrun : Exec.run body { m with locals := List.replicate 8 0 } with ⟨(w | f) | u, m'⟩
  all_goals
    rw [hrun] at hcourse
    refine ⟨hcourse.reached, hcourse.via, fun ⟨word, hword⟩ => hcourse.heeded ?_⟩
    rintro ⟨g, hg⟩
    cases hg
  cases hword

end StageHost

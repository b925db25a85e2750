import StageHost.Proofs.Guest.Call
import StageHost.Proofs.Guest.Serving
/-
  Host calls during the call of a stage.
  A guest calls the host, and in between it does with its memory what it likes (`During`).
  All of this are acts, so the value of a question is the same from the beginning of the call to its
  end (`During.value`). Only questions change memory (`hostOnly_perform`), and they do so in one of
  the four cases of `ask_cases`. A host call that stops the run leaves little behind, but it may
  have kept the pod's JSON (`stoppedBy_perform`). A guest that was told a length and asks once more
  with so much room in memory gets the value (`question_answered_in_two`).
-/
namespace StageHost

/-- A call of a function of the host, with its arguments. -/
inductive HostCall
  | ask (q : Question) (address room : UInt32)
  | report (r : Report) (address length : UInt32)
  | log (level address length : UInt32)
  | logs (level address length kvAddress kvLength : UInt32)
  | severity

namespace HostCall

/-- Whether a host call is a question. -/
def Asks : HostCall → Prop
  | .ask .. => True
  | .report .. | .log .. | .logs .. | .severity => False

/-- What a host call does. The word that it gives is left out. -/
def perform : HostCall → Exec Unit
  | .ask q address room => do
    let _ ← Exec.ask q address room
    return ()
  | .report r address length => Exec.report r address length
  | .log level address length => Exec.log level address length
  | .logs level address length kvAddress kvLength =>
    Exec.logs level address length kvAddress kvLength
  | .severity => do
    let _ ← Exec.severity
    return ()

theorem acts_perform (call : HostCall) : Exec.Acts (fun _ => True) call.perform := by
  cases call with
  | ask q address room =>
    exact Exec.acts_bind (Exec.acts_ask q address room) fun _ => Exec.acts_pure _
  | report r address length => exact Exec.acts_report trivial address length
  | log level address length => exact Exec.acts_log trivial level address length
  | logs level address length kvAddress kvLength =>
    exact Exec.acts_logs trivial level address length kvAddress kvLength
  | severity =>
    exact Exec.acts_bind (Exec.acts_bind Exec.acts_get fun _ => Exec.acts_pure _)
      fun _ => Exec.acts_pure _

end HostCall

namespace Exec

theorem discard_apply {α : Type} (x : Exec α) (m : Machine) :
    (x >>= fun _ => pure ()) m = ((x m).1.map fun _ => (), (x m).2) := by
  rw [bind_apply]
  rcases x m with ⟨_ | _, _⟩ <;> rfl

theorem report_apply (r : Report) (address length : UInt32) (m : Machine) :
    report r address length m =
      if m.shared then tell (Bridge.report r address length) m
      else (.error (.failed (.trapped .noMemory)), m) := needsMemory_bind _ _ m

theorem logging_apply (level : UInt32) (call : Memory → Host → Except Trap Unit × Host)
    (m : Machine) :
    logging level call m =
      if (Bridge.enabled? m.host level.toInt32).isSome then
        if m.shared then tell call m else (.error (.failed (.trapped .noMemory)), m)
      else (.ok (), m) := by
  unfold logging
  rw [bind_of_ok (get_apply m)]
  split
  · exact needsMemory_bind _ _ m
  · rfl

/-- Functions of the host that read memory change only the host. -/
theorem hostOnly_tell (call : Memory → Host → Except Trap Unit × Host) (m : Machine) :
    m.HostOnly (tell call m).2 := by
  rw [tell_apply, ofOutcome_snd]
  exact ⟨_, rfl⟩

theorem hostOnly_report (r : Report) (address length : UInt32) (m : Machine) :
    m.HostOnly (report r address length m).2 := by
  rw [report_apply]
  split
  · exact hostOnly_tell _ m
  · exact .refl m

theorem hostOnly_logging (level : UInt32) (call : Memory → Host → Except Trap Unit × Host)
    (m : Machine) : m.HostOnly (logging level call m).2 := by
  rw [logging_apply]
  split
  · split
    · exact hostOnly_tell call m
    · exact .refl m
  · exact .refl m

/-- Host calls that are no questions change only the host. -/
theorem hostOnly_perform {call : HostCall} (h : ¬ call.Asks) (m : Machine) :
    m.HostOnly (call.perform m).2 := by
  cases call with
  | ask => exact absurd trivial h
  | report r address length => exact hostOnly_report r address length m
  | log level => exact hostOnly_logging level _ m
  | logs level => exact hostOnly_logging level _ m
  | severity => exact .refl m

end Exec

namespace Bridge

/-- Whether a function of the host that fails has done nothing, or no more than to note a report
that cannot be read. -/
def FailsQuietly (call : Memory → Host → Except Trap Unit × Host) : Prop :=
  ∀ m h t, (call m h).1 = .error t →
    (call m h).2 = h ∨ ∃ e : Exchange, e.Malformed ∧ (call m h).2 = h.note e

theorem quiet_report (r : Report) (address length : UInt32) :
    FailsQuietly (report r address length) := by
  intro m h t ht
  unfold report at ht ⊢
  split
  · exact .inl rfl
  · rename_i bytes hbytes
    rw [hbytes] at ht
    dsimp only at ht ⊢
    split
    · rename_i hcall
      rw [hcall] at ht
      cases ht
    · rename_i c hcall
      rw [hcall] at ht
      dsimp only at ht ⊢
      have hmalformed : Exchange.Malformed (.reported r bytes) := by
        refine Classical.byContradiction fun hread => ?_
        obtain ⟨reported, hrecord⟩ := record_of_not_malformed hread c.reported
        rw [hrecord] at ht
        cases ht
      rw [record_malformed hmalformed]
      exact .inr ⟨_, hmalformed, rfl⟩

theorem quiet_log (level : Int32) (address length : UInt32) :
    FailsQuietly (log level address length) := by
  intro m h t ht
  unfold log at ht ⊢
  split
  · exact .inl rfl
  · rename_i henabled
    rw [henabled] at ht
    dsimp only at ht
    split
    · exact .inl rfl
    · rename_i hbytes
      rw [hbytes] at ht
      cases ht

theorem quiet_logs (level : Int32) (address length kvAddress kvLength : UInt32) :
    FailsQuietly (logs level address length kvAddress kvLength) := by
  intro m h t ht
  unfold logs at ht ⊢
  split
  · exact .inl rfl
  · rename_i henabled
    rw [henabled] at ht
    dsimp only at ht
    split
    · exact .inl rfl
    · rename_i hbytes
      rw [hbytes] at ht
      dsimp only at ht
      split
      · exact .inl rfl
      · rename_i hkv
        rw [hkv] at ht
        cases ht

end Bridge

namespace Exec

/-- What a machine is after a host call that stops the run: a question may have left the pod's JSON
to be kept and other JSON in the buffer, and a report that cannot be read may stand in the
transcript. -/
def StoppedBy (m m' : Machine) : Prop :=
  ∃ cache scratch, ∃ said : Transcript, m.host.Keeps cache ∧ (∀ e ∈ said, e.Malformed) ∧
    m' = { m with host :=
      { m.host with cache, scratch, transcript := m.host.transcript ++ said } }

variable {m : Machine} {stop : Stop}

theorem StoppedBy.refl (m : Machine) : StoppedBy m m := by
  refine ⟨m.host.cache, m.host.scratch, [], .inl rfl, nofun, ?_⟩
  rw [List.append_nil]

theorem stoppedBy_tell {call : Memory → Host → Except Trap Unit × Host}
    (hcall : Bridge.FailsQuietly call) (h : (tell call m).1 = .error stop) :
    StoppedBy m (tell call m).2 := by
  rw [tell_apply] at h ⊢
  rw [ofOutcome_snd]
  rcases houtcome : (call m.memory m.host).1 with t | u
  · obtain hhost | ⟨e, he, hhost⟩ := hcall m.memory m.host t houtcome
    · rw [hhost]
      exact .refl m
    · rw [hhost]
      exact ⟨m.host.cache, m.host.scratch, [e], .inl rfl, by simpa using he, rfl⟩
  · rw [houtcome] at h
    cases h

theorem stoppedBy_logging {call : Memory → Host → Except Trap Unit × Host}
    (hcall : Bridge.FailsQuietly call) {level : UInt32}
    (h : (logging level call m).1 = .error stop) : StoppedBy m (logging level call m).2 := by
  rw [logging_apply] at h ⊢
  split
  · rename_i henabled
    rw [if_pos henabled] at h
    split
    · rename_i hshared
      rw [if_pos hshared] at h
      exact stoppedBy_tell hcall h
    · exact .refl m
  · exact .refl m

theorem stoppedBy_ask {q : Question} {address room : UInt32}
    (h : (ask q address room m).1 = .error stop) : StoppedBy m (ask q address room m).2 := by
  obtain hask | hask := ask_snd_of_error h
  · rw [hask]
    exact .refl m
  · obtain ⟨cache, scratch, hkeeps, hanswer⟩ := m.host.answer_keeps q
    refine ⟨cache, scratch, [], hkeeps, nofun, ?_⟩
    rw [hask, hanswer, List.append_nil]

/-- A host call that stops the run leaves all but that as it was. -/
theorem stoppedBy_perform {call : HostCall} (h : (call.perform m).1 = .error stop) :
    StoppedBy m (call.perform m).2 := by
  cases call with
  | ask q address room =>
    have hperform : (HostCall.ask q address room).perform m =
        ((ask q address room m).1.map fun _ => (), (ask q address room m).2) :=
      discard_apply _ m
    rw [hperform] at h ⊢
    rcases hask : (ask q address room m).1 with stop' | length
    · exact stoppedBy_ask hask
    · rw [hask] at h
      cases h
  | report r address length =>
    have hreport : (HostCall.report r address length).perform m =
        if m.shared then tell (Bridge.report r address length) m
        else (.error (.failed (.trapped .noMemory)), m) := report_apply r address length m
    rw [hreport] at h ⊢
    split
    · rename_i hshared
      rw [if_pos hshared] at h
      exact stoppedBy_tell (Bridge.quiet_report r address length) h
    · exact .refl m
  | log level address length => exact stoppedBy_logging (Bridge.quiet_log _ address length) h
  | logs level address length kvAddress kvLength =>
    exact stoppedBy_logging (Bridge.quiet_logs _ address length kvAddress kvLength) h
  | severity => exact .refl m

end Exec

/-! ## Calls -/

/-- What may become of a machine during a call: the guest calls the host, it runs other code, and it
does with its memory and its variables what it likes. -/
inductive During (start : Machine) : Machine → Prop
  | begins : During start start
  | calls {m : Machine} (h : During start m) (call : HostCall) : During start (call.perform m).2
  | runs {m : Machine} (h : During start m) (body : Statement) : During start (Exec.run body m).2
  | works {m m' : Machine} (h : During start m) (hhost : m'.host = m.host) : During start m'

/-- During a call the value of a question is what it was at the beginning. -/
theorem During.value {start m : Machine} (h : During start m) (q : Question) :
    m.host.value q = start.host.value q := by
  induction h with
  | begins => rfl
  | @calls m _ call ih =>
    obtain ⟨acts, hcourse⟩ := call.acts_perform m
    rw [hcourse.reached, Host.value_acts, ih]
  | @runs m _ body ih =>
    obtain ⟨acts, hcourse⟩ := Exec.acts_run body m
    rw [hcourse.reached, Host.value_acts, ih]
  | works _ hhost ih => rw [hhost, ih]

namespace Exec

/-- Whether a question is answered with the length of a value and nothing is written. -/
def GivesLength (value : List UInt8) (x : Exec UInt32) (m : Machine) : Prop :=
  ∃ length host, length.toNat = value.length ∧ x m = (.ok length, { m with host })

/-- Whether a question is answered with the length of a value, and the value is put at an address.
-/
def GivesValue (value : List UInt8) (address : UInt32) (x : Exec UInt32) (m : Machine) : Prop :=
  ∃ length memory host, length.toNat = value.length ∧
    x m = (.ok length, { m with memory, host }) ∧ m.memory.Wrote address.toNat value memory

variable {m : Machine}

theorem givesLength_of_room_lt (hshared : m.shared) {q : Question} {address room : UInt32}
    (hlt : (m.host.value q).length < UInt32.size)
    (hroom : room.toNat < (m.host.value q).length) :
    GivesLength (m.host.value q) (ask q address room) m := by
  refine ⟨_, (m.host.answer q).2, Memory.toNat_length hlt, ?_⟩
  rw [ask_of_shared hshared, Memory.writeIfFits_of_room_lt _ _ _ hlt hroom]

theorem givesValue_of_fits (hshared : m.shared) {q : Question} {address room : UInt32}
    (hroom : (m.host.value q).length ≤ room.toNat)
    (hin : address.toNat + (m.host.value q).length ≤ m.memory.size) :
    GivesValue (m.host.value q) address (ask q address room) m := by
  have hlt : (m.host.value q).length < UInt32.size := Nat.lt_of_le_of_lt hroom room.toNat_lt_size
  refine ⟨_, _, (m.host.answer q).2, Memory.toNat_length hlt, ?_, Memory.wrote_write ..⟩
  rw [ask_of_shared hshared, Memory.writeIfFits_of_le_room _ _ _ hlt hroom, if_pos hin]

theorem length_of_ask {q : Question} {address room length : UInt32} (hshared : m.shared)
    (h : (ask q address room m).1 = .ok length) : length.toNat = (m.host.value q).length := by
  have hnot : ¬ (ask q address room).Traps m := by
    rintro ⟨t, ht⟩
    rw [h] at ht
    cases ht
  have hlt : (m.host.value q).length < UInt32.size := by
    rw [ask_traps_iff hshared] at hnot
    exact Nat.lt_of_not_le fun hlong => hnot (.inl hlong)
  rw [ask_of_not_traps hshared hnot] at h
  cases h
  exact Memory.toNat_length hlt

/-- What comes of a host call during the call of a stage. All questions of one kind are about one
value, which is to have less than 2^32 bytes; else the question traps. With too little room the
length of the value is given; with enough room in memory it is also put there. A host call that
stops the run changes neither memory nor the call in flight, and nothing of the host but the buffer
and the pod's JSON, which may be kept; a report that cannot be read is in the transcript. None but
questions changes memory. So a guest that was told a length gets the value when it asks again,
whatever it does in between. -/
theorem question_answered_in_two {machine : Machine} {c : StageCall}
    (hm : During (Guest.enter machine c) m) (hshared : m.shared) (q : Question)
    (address room : UInt32) :
    let value := (Guest.enter machine c).host.value q
    (value.length < UInt32.size → room.toNat < value.length →
      GivesLength value (ask q address room) m) ∧
    (UInt32.size ≤ value.length → (ask q address room).Traps m) ∧
    (value.length ≤ room.toNat → address.toNat + value.length ≤ m.memory.size →
      GivesValue value address (ask q address room) m) ∧
    (∀ (call : HostCall) (stop : Stop), (call.perform m).1 = .error stop →
      StoppedBy m (call.perform m).2) ∧
    (∀ call : HostCall, ¬ call.Asks → m.HostOnly (call.perform m).2) ∧
    ∀ length, (ask q address room m).1 = .ok length →
      ∀ m', During (Guest.enter machine c) m' → m'.shared → ∀ address' room' : UInt32,
        length ≤ room' → address'.toNat + length.toNat ≤ m'.memory.size →
        GivesValue value address' (ask q address' room') m' := by
  intro value
  have hvalue : m.host.value q = value := hm.value q
  refine ⟨fun hlt hroom => ?_, fun hlong => ?_, fun hroom hin => ?_,
    fun call stop => stoppedBy_perform, fun call hcall => hostOnly_perform hcall m,
    fun length hlength m' hm' hshared' address' room' => ?_⟩
  · rw [← hvalue] at hlt hroom ⊢
    exact givesLength_of_room_lt hshared hlt hroom
  · rw [← hvalue] at hlong
    exact (ask_traps_iff hshared q address room).2 (.inl hlong)
  · rw [← hvalue] at hroom hin ⊢
    exact givesValue_of_fits hshared hroom hin
  · intro hroom hin
    have hsame : length.toNat = (m'.host.value q).length := by
      rw [length_of_ask hshared hlength, hm.value q, hm'.value q]
    have hvalue' : m'.host.value q = value := hm'.value q
    rw [UInt32.le_iff_toNat_le, hsame] at hroom
    rw [hsame] at hin
    rw [← hvalue']
    exact givesValue_of_fits hshared' hroom hin

/-- A machine with one page of memory, as a filter is called for a pod and a node. -/
def filtering : Machine :=
  Guest.enter { memory := .zeros Memory.pageSize, host := .ofSettings (.named "filtering") }
    (.filter 1 { metadata := { uid := "u" } } (.of { metadata := { name := "n" } }))

/-- A guest that asks for the length of the node's JSON, then for the pod, and reports a reason,
still gets the node's JSON when it asks for that again. -/
theorem node_served_after_pod :
    let afterNode := ((HostCall.ask .node 0 0).perform filtering).2
    let afterPod := ((HostCall.ask .pod 0 4096).perform afterNode).2
    let m := ((HostCall.report .reason 0 2).perform afterPod).2
    (ask .node 0 0 filtering).1 = .ok 47 ∧
      GivesValue (filtering.host.value .node) 4096 (ask .node 4096 47) m := by
  intro afterNode afterPod m
  have hlength : (ask .node 0 0 filtering).1 = .ok 47 := rfl
  have hm : During filtering m := ((During.begins.calls _).calls _).calls _
  have hshared : m.shared := by decide +kernel
  have hsize : m.memory.size = 65536 := by decide +kernel
  refine ⟨hlength, ?_⟩
  obtain ⟨-, -, -, -, -, hagain⟩ := question_answered_in_two (m := filtering) .begins rfl .node 0 0
  exact hagain 47 hlength m hm hshared 4096 47 (by decide) (by rw [hsize]; decide)

/-- A name of some letters has as many bytes. -/
theorem length_encode_letters (n : Nat) :
    (Utf8.encode (String.ofList (List.replicate n 'n'))).length = n := by
  have hletter : String.utf8EncodeChar 'n' = [110] := by decide
  unfold Utf8.encode
  rw [String.toList_ofList, List.flatMap_replicate, hletter]
  simp

/-- Asked for the name of a node, the host has the name that the call is about. -/
theorem value_nodeName_reserve (m : Machine) (cycle : UInt64) (pod : Pod) (name : String) :
    (Guest.enter m (.reserve cycle pod name)).host.value .nodeName = Utf8.encode name := by
  obtain ⟨cache, henter⟩ := Guest.enter_host m (.reserve cycle pod name)
  rw [henter]
  rfl

/-- The machine as a pod is reserved on a node with a name of 2^32 letters. -/
def reserving : Machine :=
  Guest.enter { memory := .zeros Memory.pageSize, host := .ofSettings (.named "reserving") }
    (.reserve 1 {} (String.ofList (List.replicate UInt32.size 'n')))

/-- The same filter is called for a pod that was renamed. -/
def renamed : StageCall :=
  .filter 1 { metadata := { uid := "u", name := "renamed" } } (.of { metadata := { name := "n" } })

/-- The length of a name of 2^32 letters is not given to a guest that asks with no room, which
traps. And a question about the pod that traps changes what the next call is served as its pod. -/
theorem long_name_traps_and_trap_keeps_pod :
    ((0 : UInt32).toNat < (reserving.host.value .nodeName).length ∧
      (ask .nodeName 0 0).Traps reserving ∧
      ¬ GivesLength (reserving.host.value .nodeName) (ask .nodeName 0 0) reserving) ∧
    (ask .pod 0xFFFFFFFF 0xFFFFFFFF).Traps filtering ∧
      (Guest.enter (ask .pod 0xFFFFFFFF 0xFFFFFFFF filtering).2 renamed).host.value .pod ≠
        (Guest.enter filtering renamed).host.value .pod := by
  have hvalue : (reserving.host.value .nodeName).length = UInt32.size := by
    unfold reserving
    rw [value_nodeName_reserve, length_encode_letters]
  have hshared : reserving.shared := rfl
  have htraps : (ask .nodeName 0 0).Traps reserving :=
    (ask_traps_iff hshared .nodeName 0 0).2 (.inl (Nat.le_of_eq hvalue.symm))
  refine ⟨⟨?_, htraps, ?_⟩, ?_, ?_⟩
  · rw [hvalue]
    decide
  · rintro ⟨length, host, -, hask⟩
    obtain ⟨t, ht⟩ := htraps
    rw [hask] at ht
    cases ht
  · refine (ask_traps_iff rfl .pod 0xFFFFFFFF 0xFFFFFFFF).2 (.inr ?_)
    decide +kernel
  · decide +kernel

end Exec
end StageHost

import StageHost.Proofs.Guest.Life
import StageHost.Proofs.Guest.Printing
/-
  What the error of a failed call tells of the guest's output.
  `diagnostics_of_failed_call` has all of it, for any module, any uses of the guest before, and any
  failure: the output of the call itself, after output of the making that nothing has taken yet.
  There is such output only before the first call of a guest whose module has no initializer. Output
  is what code prints of its memory, and there is no other.
-/
namespace StageHost

/-- The text of what was printed to a stream, as far as the stream has room for it. -/
def Capture.shown (bytes : List UInt8) : String := Utf8.lossy (bytes.take Capture.capacity)

/-- A stream that has room for all is shown in full. -/
theorem Capture.shown_of_le {bytes : List UInt8} (h : bytes.length ≤ Capture.capacity) :
    Capture.shown bytes = Utf8.lossy bytes := by
  rw [Capture.shown, List.take_of_length_le h]

theorem Host.diagnostics_of_holds {h : Host} {out err : List UInt8} (hout : h.Holds .stdout out)
    (herr : h.Holds .stderr err) :
    h.takeDiagnostics.1 = Capture.shown out ++ Capture.shown err := by
  have ho : h.stdout.bytes.toList = out.take Capture.capacity := hout
  have he : h.stderr.bytes.toList = err.take Capture.capacity := herr
  rw [Host.takeDiagnostics, ho, he]
  rfl

namespace Guest

theorem diagnostics_ofFailure (s : Stage) (d : String) (f : Failure) :
    (CallError.ofFailure s d f).diagnostics = d := by
  cases f <;> rfl

/-- The error of a run that failed has what the streams held before and what the call printed. -/
theorem diagnostics_of_call {g : Guest} {c : StageCall} {e : CallError}
    (he : (g.call c).1 = .error e) (hx : e ≠ .notExported c.stage) {out err : List UInt8}
    (hout : g.machine.host.Holds .stdout out) (herr : g.machine.host.Holds .stderr err) :
    e.diagnostics = Capture.shown (out ++ (g.said c).output .stdout) ++
      Capture.shown (err ++ (g.said c).output .stderr) := by
  cases hbody : g.body? c with
  | none =>
    rw [call_of_no_body hbody] at he
    cases he
    exact absurd rfl hx
  | some body =>
    obtain ⟨result, m, hran⟩ := ran_of_body hbody
    rw [hran.outcome] at he
    cases result <;> cases he
    rw [diagnostics_ofFailure]
    exact Host.diagnostics_of_holds (hran.holds hout) (hran.holds herr)

/-- What a stream is given for a call: what the making has left in it, and what the call prints. -/
def printed (g : Guest) (uses : List Use) (c : StageCall) (s : Stream) : List UInt8 :=
  (g.unread uses).output s ++ ((g.after uses).said c).output s

/-- A guest of any module was used in any way since it was made, and now a stage traps or exits.
The status has the message and, but for white space at its end, the output: that of the making as
far as nothing took it, then that of this very call. Where nothing is left of the making, and the
streams have room, that is what the call printed and nothing else. Printing a range of memory adds
the bytes there to what was printed to the stream, and code that does not import the function prints
nothing. -/
theorem diagnostics_of_failed_call {module : Prepared} {settings : Settings} {id : Nat} {g : Guest}
    (hg : create module settings id = .ok g) (uses : List Use) {c : StageCall} {e : CallError}
    (he : ((g.after uses).call c).1 = .error e) (hx : e ≠ .notExported c.stage) :
    e.diagnostics = Capture.shown (g.printed uses c .stdout) ++
        Capture.shown (g.printed uses c .stderr) ∧
      ((∀ s, (g.unread uses).output s = []) →
        (∀ s, (((g.after uses).said c).output s).length ≤ Capture.capacity) →
        e.diagnostics = Utf8.lossy (((g.after uses).said c).output .stdout) ++
          Utf8.lossy (((g.after uses).said c).output .stderr)) ∧
      e.status = .error (if (trimEnd e.diagnostics).isEmpty then e.message
        else e.message ++ "\n" ++ trimEnd e.diagnostics) ∧
      (∀ {m : Machine} {number address length : UInt32} {s : Stream} {bytes : List UInt8},
        m.shared → Memory.pageSize ≤ m.memory.size → Bridge.stream? number = some s →
        (Exec.printing m.memory address length).range address length = .ok bytes →
        let host := (Exec.print number address length m).2.host
        host.transcript = m.host.transcript ++ [.printed s bytes] ∧
          host.capture s = (m.host.capture s).push bytes ∧
          ∀ t, t ≠ s → host.capture t = m.host.capture t) ∧
      ∀ body : Statement, .ofSystem SystemInterface.write ∉ body.imports → ∀ m s,
        (Exec.run body m).2.host.transcript.output s = m.host.transcript.output s := by
  have hall : e.diagnostics = Capture.shown (g.printed uses c .stdout) ++
      Capture.shown (g.printed uses c .stderr) :=
    diagnostics_of_call he hx (holds_after hg uses .stdout) (holds_after hg uses .stderr)
  refine ⟨hall, fun hnone hroom => ?_, ?_, fun hshared hsize hs hbytes =>
    Exec.print_of_range_host hshared hsize hs hbytes, fun _ => Exec.output_run⟩
  · have honly : ∀ s, Capture.shown (g.printed uses c s) =
        Utf8.lossy (((g.after uses).said c).output s) := fun s => by
      rw [printed, hnone, List.nil_append, Capture.shown_of_le (hroom s)]
    rw [hall, honly, honly]
  · unfold CallError.status
    dsimp only
    split <;> rfl

/-- A module without initializer that prints five bytes as it starts, and three in a call that
traps. -/
def greetingModule : Prepared where
  name := "greeting"
  digest := ""
  imports := .empty
  exports := .ofList [.filter]
  hasInitializer := false
  program := {
    exports := [⟨"memory", .store .memory⟩, ⟨"filter", .function Stage.filter.signature
      (.seq (.perform (.print (.word 1) (.word 5) (.word 3))) .trap)⟩]
    memory := some {}
    data := [⟨0, [104, 101, 108, 108, 111, 98, 121, 101]⟩]
    start := some (.perform (.print (.word 1) (.word 0) (.word 5))) }

/-- The handles of its guests. -/
def greetingHandles : Handles where
  status := [(.filter, ⟨.seq (.perform (.print (.word 1) (.word 5) (.word 3))) .trap⟩)]

/-- A guest of the module. -/
def greetingGuest (m : Machine) : Guest := ⟨1, greetingModule, greetingHandles, m⟩

/-- The machine of the module as its start function begins. -/
def greetingMachine : Machine where
  memory := (Memory.zeros Memory.pageSize).write 0 [104, 101, 108, 108, 111, 98, 121, 101]
  host := { Host.ofSettings (.named "greeting") with
    limiter := ((Host.ofSettings (.named "greeting")).limiter.askMemory Memory.pageSize).2 }

/-- The output of the start function stands in the error of the first call, before that of the call
itself. -/
theorem start_output_in_first_error : ∃ g e, create greetingModule (.named "greeting") 1 = .ok g ∧
    (g.call (.filter 1 {} default)).1 = .error e ∧
    Utf8.lossy ((g.said (.filter 1 {} default)).output .stdout) = "bye" ∧
    e.diagnostics = "hellobye" := by
  -- printing writes to high memory, so the two runs are not evaluated but taken by `run_print`
  obtain ⟨m₁, hrun₁, hspares₁, hhost₁⟩ := Exec.run_print
    (m := { greetingMachine with locals := List.replicate 8 0 }) rfl (by decide) 1 0 5 rfl
    (by decide)
  have hdata : placeData greetingModule.program.data { greetingMachine with
      memory := .zeros Memory.pageSize } = .ok greetingMachine := rfl
  have hboot : boot greetingModule (.named "greeting") = _ := boot_of_data rfl rfl hdata
  rw [show greetingModule.program.start = some _ from rfl, mustRun_of_run hrun₁] at hboot
  have hinit : runInitializer greetingModule m₁ = .ok m₁ := rfl
  have hhandles : Handles.ofStages greetingModule.program greetingModule.exports =
      .ok greetingHandles := rfl
  have hcreate : create greetingModule (.named "greeting") 1 = .ok (greetingGuest m₁) :=
    create_of_boot (hboot.trans hinit) hhandles 1
  obtain ⟨m₂, hrun₂, hspares₂, hhost₂⟩ := Exec.run_print
    (m := { enter m₁ (.filter 1 {} default) with locals := List.replicate 8 0 })
    hspares₁.shared (hspares₁.size ▸ by decide) 1 5 3 rfl (by decide)
  have hcall := call_of_failed (g := greetingGuest m₁) (c := .filter 1 {} default) rfl
    (Exec.bind_of_ok hrun₂ fun _ => Exec.run .trap)
  have hhello : m₁.host.transcript = [.printed .stdout [104, 101, 108, 108, 111]] := by
    have hread : greetingMachine.memory.read 0 5 = [104, 101, 108, 108, 111] := by decide
    rw [hhost₁]
    exact congrArg (fun bytes => [Exchange.printed .stdout bytes]) hread
  have hbye : (greetingGuest m₁).said (.filter 1 {} default) =
      [.printed .stdout [98, 121, 101]] := by
    have hread : m₁.memory.read 5 3 = [98, 121, 101] :=
      (Memory.read_congr fun i hi => hspares₁.low i (Nat.lt_trans hi (by decide))).trans
        (show greetingMachine.memory.read 5 3 = [98, 121, 101] by decide)
    have htranscript : m₂.host.transcript =
        m₁.host.transcript ++ [.printed .stdout (m₁.memory.read 5 3)] := by
      rw [hhost₂]
      rfl
    unfold said
    rw [hcall]
    show m₂.host.transcript.drop m₁.host.transcript.length = _
    rw [htranscript, List.drop_left, hread]
  have hdiagnostics := (diagnostics_of_failed_call hcreate [] (congrArg Prod.fst hcall)
    (by intro h; cases h)).1
  refine ⟨_, _, hcreate, congrArg Prod.fst hcall, ?_, ?_⟩
  · rw [hbye]
    decide
  · have hunread : (greetingGuest m₁).unread [] = m₁.host.transcript := by
      refine if_neg ?_
      rintro (h | ⟨u, hu, -⟩)
      · cases h
      · cases hu
    have hprinted : ∀ s, (greetingGuest m₁).printed [] (.filter 1 {} default) s =
        Transcript.output [.printed .stdout [104, 101, 108, 108, 111]] s ++
          Transcript.output [.printed .stdout [98, 121, 101]] s := fun s => by
      rw [printed, hunread, hhello, after, List.foldl_nil, hbye]
    rw [hdiagnostics, hprinted, hprinted]
    decide

end Guest
end StageHost

import StageHost.Proofs.Guest.Memory
import StageHost.Proofs.Guest.Run
/-
  Printing a range of memory.
  To call the system interface, guest code puts the range to be printed at some high addresses
  (`printing`), so memory is not the same after it. What is in the range then goes to the stream,
  and to no other (`print_of_range`). A range below those addresses goes there as it was, and memory
  down there stays as it is (`print_of_low`). Code that does not import the function prints nothing
  (`output_run`).
-/
namespace StageHost

namespace Exec

theorem store32_apply {m : Machine} {address : UInt32} (h : m.memory.holds address.toNat 4)
    (w : UInt32) :
    store32 address w m =
      (.ok (), { m with memory := m.memory.write address.toNat (Wire.word w) }) := by
  have hin : inBounds address 4 m = (.ok (), m) := by
    unfold inBounds
    rw [bind_apply]
    show (if m.memory.holds address.toNat 4 then pure () else trap .memoryBounds : Exec Unit) m = _
    rw [if_pos h]
    rfl
  exact bind_of_ok hin _

/-- The same machine up to its host and to memory from the addresses on that the system interface
is called with. -/
structure Spares (m m' : Machine) : Prop where
  shared : m'.shared = m.shared
  size : m'.memory.size = m.memory.size
  low : ∀ i < rangeAddress.toNat, m'.memory.get i = m.memory.get i

theorem Spares.trans {m m' m'' : Machine} (h : Spares m m') (h' : Spares m' m'') :
    Spares m m'' where
  shared := h'.shared.trans h.shared
  size := h'.size.trans h.size
  low i hi := (h'.low i hi).trans (h.low i hi)

/-- A word is put where the system interface is called with it. -/
theorem spares_store32 {m : Machine} (hsize : Memory.pageSize ≤ m.memory.size) (address w : UInt32)
    (hlow : rangeAddress.toNat ≤ address.toNat) (hhigh : address.toNat + 4 ≤ Memory.pageSize) :
    ∃ m', store32 address w m = (.ok (), m') ∧ Spares m m' ∧ m'.host = m.host ∧
      m'.memory = m.memory.write address.toNat (Wire.word w) := by
  have hholds : m.memory.holds address.toNat 4 := by
    rw [Memory.holds, decide_eq_true_eq]
    omega
  have hstore := store32_apply hholds w
  have hwrote := m.memory.wrote_write address.toNat (Wire.word w)
  generalize m.memory.write address.toNat (Wire.word w) = memory at hstore hwrote ⊢
  refine ⟨_, hstore, ⟨rfl, hwrote.size, fun i hi => ?_⟩, rfl, rfl⟩
  exact hwrote.outside i (.inl (Nat.lt_of_lt_of_le hi hlow))

/-- Memory as the system interface is called to print a range. -/
def printing (m : Memory) (address length : UInt32) : Memory :=
  (m.write rangeAddress.toNat (Wire.word address)).write lengthAddress.toNat (Wire.word length)

/-- A range is put in place. -/
theorem exists_printing {m : Machine} (hsize : Memory.pageSize ≤ m.memory.size)
    (address length : UInt32) :
    ∃ m', m'.memory = printing m.memory address length ∧ m'.host = m.host ∧ Spares m m' ∧
      ∀ {α : Type} (f : Unit → Exec α), (store32 rangeAddress address >>= fun _ =>
        store32 lengthAddress length >>= f) m = f () m' := by
  obtain ⟨m₁, hstore₁, hspares₁, hhost₁, hmemory₁⟩ :=
    spares_store32 hsize rangeAddress address (by decide) (by decide)
  obtain ⟨m₂, hstore₂, hspares₂, hhost₂, hmemory₂⟩ := spares_store32 (m := m₁)
    (hspares₁.size ▸ hsize) lengthAddress length (by decide) (by decide)
  refine ⟨m₂, ?_, hhost₂.trans hhost₁, hspares₁.trans hspares₂, fun f => ?_⟩
  · rw [hmemory₂, hmemory₁, printing]
  · rw [bind_of_ok hstore₁, bind_of_ok hstore₂]

/-- What is in a range as the system interface is called goes to the stream. -/
theorem print_of_range {m : Machine} (hshared : m.shared) (hsize : Memory.pageSize ≤ m.memory.size)
    {number address length : UInt32} {s : Stream} (hs : Bridge.stream? number = some s)
    {bytes : List UInt8}
    (hbytes : (printing m.memory address length).range address length = .ok bytes) :
    ∃ w m', print number address length m = (.ok w, m') ∧ Spares m m' ∧
      m'.host = m.host.print s bytes := by
  obtain ⟨m₁, hmemory, hhost, hspares, hstores⟩ := exists_printing hsize address length
  obtain ⟨w, hbridge⟩ : ∃ w, Bridge.print number address length m₁.memory m₁.host =
      (w, m.host.print s bytes) := by
    unfold Bridge.print
    rw [hs, hmemory, hbytes, hhost]
    exact ⟨_, rfl⟩
  unfold print
  rw [hstores, needsMemory_bind, if_pos (hspares.shared ▸ hshared), bind_of_ok (get_apply m₁),
    hbridge]
  dsimp only
  rw [bind_of_ok (modifyHost_apply _ m₁)]
  by_cases hok : w = Bridge.okNumber
  · obtain ⟨m₂, hstore, hspares₂, hhost₂, -⟩ := spares_store32
      (m := { m₁ with host := m.host.print s bytes }) (hspares.size ▸ hsize) printedAddress length
      (by decide) (by decide)
    rw [if_pos hok, bind_of_ok hstore]
    exact ⟨w, m₂, rfl, hspares.trans ⟨hspares₂.shared, hspares₂.size, hspares₂.low⟩, hhost₂⟩
  · rw [if_neg hok]
    exact ⟨w, _, rfl, ⟨hspares.shared, hspares.size, hspares.low⟩, rfl⟩

/-- A range below those addresses goes to the stream as it is. -/
theorem print_of_low {m : Machine} (hshared : m.shared) (hsize : Memory.pageSize ≤ m.memory.size)
    {number address length : UInt32} {s : Stream} (hs : Bridge.stream? number = some s)
    (hlow : address.toNat + length.toNat ≤ rangeAddress.toNat) :
    ∃ w m', print number address length m = (.ok w, m') ∧ Spares m m' ∧
      m'.host = m.host.print s (m.memory.read address.toNat length.toNat) := by
  obtain ⟨m₁, hmemory, -, hspares, -⟩ := exists_printing hsize address length
  refine print_of_range hshared hsize hs ?_
  rw [← hmemory]
  have hr : rangeAddress.toNat ≤ Memory.pageSize := by decide
  have hin : m₁.memory.holds address.toNat length.toNat := by
    rw [Memory.holds, decide_eq_true_eq, hspares.size]
    omega
  rw [Memory.range, if_pos hin, Memory.read_congr fun i hi => hspares.low i (by omega)]

/-- Such a print by itself. -/
theorem run_print {m : Machine} (hshared : m.shared) (hsize : Memory.pageSize ≤ m.memory.size)
    (number address length : UInt32) {s : Stream} (hs : Bridge.stream? number = some s)
    (hlow : address.toNat + length.toNat ≤ rangeAddress.toNat) :
    ∃ m', run (.perform (.print (.word number) (.word address) (.word length))) m = (.ok (), m') ∧
      Spares m m' ∧ m'.host = m.host.print s (m.memory.read address.toNat length.toNat) := by
  obtain ⟨w, m', hprint, hspares, hhost⟩ := print_of_low hshared hsize hs hlow
  refine ⟨m', ?_, hspares, hhost⟩
  show (print number address length >>= fun _ => pure ()) m = _
  exact bind_of_ok hprint _

/-- What a print adds to the transcript, and to the stream as far as it has room. -/
theorem print_of_range_host {m : Machine} (hshared : m.shared)
    (hsize : Memory.pageSize ≤ m.memory.size) {number address length : UInt32} {s : Stream}
    (hs : Bridge.stream? number = some s) {bytes : List UInt8}
    (hbytes : (printing m.memory address length).range address length = .ok bytes) :
    let host := (print number address length m).2.host
    host.transcript = m.host.transcript ++ [.printed s bytes] ∧
      host.capture s = (m.host.capture s).push bytes ∧
      ∀ t, t ≠ s → host.capture t = m.host.capture t := by
  obtain ⟨w, m', hprint, -, hhost⟩ := print_of_range hshared hsize hs hbytes
  rw [hprint]
  dsimp only
  rw [hhost]
  refine ⟨Host.transcript_hear m.host (.printed s bytes), ?_, fun t ht => ?_⟩
  · rw [Host.capture_print, if_pos rfl]
  · rw [Host.capture_print, if_neg (Ne.symm ht)]

/-- Code that does not import the function prints nothing. -/
theorem output_run {body : Statement} (h : .ofSystem SystemInterface.write ∉ body.imports)
    (m : Machine) (s : Stream) :
    (run body m).2.host.transcript.output s = m.host.transcript.output s := by
  obtain ⟨acts, hcourse⟩ := acts_run body m
  have hsaid : (said acts).output s = [] := by
    refine List.flatMap_eq_nil_iff.2 fun e he => ?_
    cases e with
    | logged | reported => rfl
    | printed => exact absurd (hcourse.via _ he) h
  rw [hcourse.reached, Host.transcript_acts]
  unfold Transcript.output at hsaid ⊢
  rw [List.flatMap_append, hsaid, List.append_nil]

end Exec
end StageHost

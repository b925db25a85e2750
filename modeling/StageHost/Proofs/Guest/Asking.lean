import StageHost.Proofs.Guest.Memory
import StageHost.Proofs.Guest.Run
/-
  Questions of a guest.
  What comes of a question depends on four numbers: the length of the value, the room for it, the
  address, and the size of memory. There are four cases (`ask_cases`), and the rest is read off
  them. A value that fits must lie within memory even if it has no bytes. So a guest that asks for
  the length of an empty value must name an address that is in memory or at its end, though nothing
  would be written there (`question_traps_iff`).
-/
namespace StageHost

/-- The value that a question asks for. -/
def Host.value (h : Host) (q : Question) : List UInt8 := (h.answer q).1

/-- Whether a machine is another one but for its host. -/
def Machine.HostOnly (m m' : Machine) : Prop := ∃ host, m' = { m with host }

theorem Machine.HostOnly.refl (m : Machine) : m.HostOnly m := ⟨m.host, rfl⟩

namespace Exec

variable {α : Type} {m : Machine}

/-- Whether a step ends the run by a trap. -/
def Traps (x : Exec α) (m : Machine) : Prop := ∃ t, (x m).1 = .error (.failed (.trapped t))

theorem ask_of_unshared (h : ¬ m.shared) (q : Question) (address room : UInt32) :
    ask q address room m = (.error (.failed (.trapped .noMemory)), m) := by
  unfold ask
  rw [needsMemory_bind, if_neg h]

theorem ask_of_shared (h : m.shared) (q : Question) (address room : UInt32) :
    ask q address room m = match m.memory.writeIfFits address room (m.host.value q) with
      | .ok (length, memory) => (.ok length, { m with memory, host := (m.host.answer q).2 })
      | .error b => (.error (.failed (.trapped (.rangeBounds b))),
          { m with host := (m.host.answer q).2 }) := by
  unfold ask
  rw [needsMemory_bind, if_pos h, bind_of_ok (get_apply m)]
  unfold Bridge.ask Host.value
  dsimp only
  cases m.memory.writeIfFits address room (m.host.answer q).1 <;> rfl

/-- All that can come of a question: the length cannot be said, or there is no room for the value,
or the value is put into memory, or it would be outside. -/
theorem ask_cases (hshared : m.shared) (q : Question) (address room : UInt32) :
    let value := m.host.value q
    let host := (m.host.answer q).2
    (UInt32.size ≤ value.length ∧ ∃ b, ask q address room m =
      (.error (.failed (.trapped (.rangeBounds b))), { m with host })) ∨
    (value.length < UInt32.size ∧ room.toNat < value.length ∧ ask q address room m =
      (.ok (.ofNat value.length), { m with host })) ∨
    (value.length ≤ room.toNat ∧ address.toNat + value.length ≤ m.memory.size ∧
      ask q address room m = (.ok (.ofNat value.length),
        { m with memory := m.memory.write address.toNat value, host })) ∨
    (value.length ≤ room.toNat ∧ m.memory.size < address.toNat + value.length ∧
      ∃ b, ask q address room m =
        (.error (.failed (.trapped (.rangeBounds b))), { m with host })) := by
  intro value host
  rw [ask_of_shared hshared]
  by_cases hlong : UInt32.size ≤ value.length
  · refine .inl ⟨hlong, ?_⟩
    rw [Memory.writeIfFits_of_long _ _ _ hlong]
    exact ⟨_, rfl⟩
  · have hlt : value.length < UInt32.size := Nat.lt_of_not_le hlong
    by_cases hroom : room.toNat < value.length
    · refine .inr (.inl ⟨hlt, hroom, ?_⟩)
      rw [Memory.writeIfFits_of_room_lt _ _ _ hlt hroom]
    · have hfits : value.length ≤ room.toNat := Nat.le_of_not_lt hroom
      rw [Memory.writeIfFits_of_le_room _ _ _ hlt hfits]
      by_cases hin : address.toNat + value.length ≤ m.memory.size
      · rw [if_pos hin]
        exact .inr (.inr (.inl ⟨hfits, hin, rfl⟩))
      · rw [if_neg hin]
        exact .inr (.inr (.inr ⟨hfits, Nat.lt_of_not_le hin, _, rfl⟩))

theorem ask_traps_iff (hshared : m.shared) (q : Question) (address room : UInt32) :
    (ask q address room).Traps m ↔
      UInt32.size ≤ (m.host.value q).length ∨
      ((m.host.value q).length ≤ room.toNat ∧
        m.memory.size < address.toNat + (m.host.value q).length) := by
  have hsize : room.toNat < UInt32.size := room.toNat_lt_size
  obtain ⟨hlong, b, h⟩ | ⟨hlt, hroom, h⟩ | ⟨hfits, hin, h⟩ | ⟨hfits, hout, b, h⟩ :=
    ask_cases hshared q address room
  · exact iff_of_true ⟨_, congrArg Prod.fst h⟩ (.inl hlong)
  · refine iff_of_false ?_ (by omega)
    rintro ⟨t, ht⟩
    rw [h] at ht
    cases ht
  · refine iff_of_false ?_ (by omega)
    rintro ⟨t, ht⟩
    rw [h] at ht
    cases ht
  · exact iff_of_true ⟨_, congrArg Prod.fst h⟩ (.inr ⟨hfits, hout⟩)

/-- A question that does not trap gives the length of the value. -/
theorem ask_of_not_traps (hshared : m.shared) {q : Question} {address room : UInt32}
    (h : ¬ (ask q address room).Traps m) :
    (ask q address room m).1 = .ok (.ofNat (m.host.value q).length) := by
  obtain ⟨-, b, hask⟩ | ⟨-, -, hask⟩ | ⟨-, -, hask⟩ | ⟨-, -, b, hask⟩ :=
    ask_cases hshared q address room
  · exact absurd ⟨_, congrArg Prod.fst hask⟩ h
  · exact congrArg Prod.fst hask
  · exact congrArg Prod.fst hask
  · exact absurd ⟨_, congrArg Prod.fst hask⟩ h

/-- A question that stops the run does no more to the host than any question, and writes nothing. -/
theorem ask_snd_of_error {q : Question} {address room : UInt32} {stop : Stop}
    (h : (ask q address room m).1 = .error stop) :
    (ask q address room m).2 = m ∨
      (ask q address room m).2 = { m with host := (m.host.answer q).2 } := by
  by_cases hshared : m.shared
  · obtain ⟨-, b, hask⟩ | ⟨-, -, hask⟩ | ⟨-, -, hask⟩ | ⟨-, -, b, hask⟩ :=
      ask_cases hshared q address room
    · exact .inr (congrArg Prod.snd hask)
    · rw [hask] at h
      cases h
    · rw [hask] at h
      cases h
    · exact .inr (congrArg Prod.snd hask)
  · exact .inl (congrArg Prod.snd (ask_of_unshared hshared q address room))

/-- When a question traps. A probe, which has no room, traps only for an empty value and an address
outside memory, or for a value whose length cannot be said; else the length is given. A value with
some bytes only traps if one of them would be put outside memory. -/
theorem question_traps_iff (hshared : m.shared) (q : Question) (address room : UInt32) :
    let value := m.host.value q
    ((ask q address room).Traps m ↔
      UInt32.size ≤ value.length ∨
      (value.length ≤ room.toNat ∧ m.memory.size < address.toNat + value.length)) ∧
    (¬ (ask q address room).Traps m →
      (ask q address room m).1 = .ok (.ofNat value.length) ∧ value.length < UInt32.size) ∧
    ((ask q address 0).Traps m ↔
      UInt32.size ≤ value.length ∨ (value = [] ∧ m.memory.size < address.toNat)) ∧
    (value ≠ [] → value.length < UInt32.size → (ask q address room).Traps m →
      value.length ≤ room.toNat ∧ ∃ i < value.length, m.memory.size ≤ address.toNat + i) := by
  intro value
  have htraps := ask_traps_iff hshared q address
  refine ⟨htraps room, fun hnot => ⟨ask_of_not_traps hshared hnot, ?_⟩, ?_, ?_⟩
  · rw [htraps room] at hnot
    exact Nat.lt_of_not_le fun hlong => hnot (.inl hlong)
  · rw [htraps 0]
    refine or_congr_right ⟨fun ⟨hfits, hout⟩ => ?_, fun ⟨hempty, hout⟩ => ?_⟩
    · have hempty : value = [] := List.length_eq_zero_iff.1 (Nat.le_zero.1 hfits)
      refine ⟨hempty, ?_⟩
      simpa [value, hempty] using hout
    · refine ⟨by simp [value, hempty], ?_⟩
      simpa [value, hempty] using hout
  · intro hne hlt htrapped
    obtain hlong | ⟨hfits, hout⟩ := (htraps room).1 htrapped
    · exact absurd hlt (Nat.not_lt.2 hlong)
    · -- the last byte of the value would be outside
      have hpos : 0 < value.length := List.length_pos_iff.2 hne
      have hlast : m.memory.size ≤ address.toNat + (value.length - 1) := by
        change m.memory.size < address.toNat + value.length at hout
        omega
      exact ⟨hfits, value.length - 1, by omega, hlast⟩

/-- A machine with one page of memory for a guest without a configuration. -/
def unconfigured : Machine :=
  { memory := .zeros Memory.pageSize, host := .ofSettings (.named "unconfigured") }

/-- Asking with no room for the length of a configuration that is not there traps at the greatest
address. At the end of memory the length is given. -/
theorem probe_of_nothing_traps :
    unconfigured.host.value .config = [] ∧ (ask .config 0xFFFFFFFF 0).Traps unconfigured ∧
      ¬ (ask .config 0x10000 0).Traps unconfigured := by
  have hshared : unconfigured.shared := rfl
  have hempty : unconfigured.host.value .config = [] := rfl
  have hsize : unconfigured.memory.size = 65536 := rfl
  obtain ⟨-, -, hfar, -⟩ := question_traps_iff hshared .config 0xFFFFFFFF 0
  obtain ⟨-, -, hend, -⟩ := question_traps_iff hshared .config 0x10000 0
  refine ⟨hempty, hfar.2 (.inr ⟨hempty, by decide⟩), fun htraps => ?_⟩
  rw [hend, hempty, hsize] at htraps
  simp at htraps

end Exec
end StageHost

import StageHost.Guest.Memory
/-
  Memory after a value was put there.
  `Wrote` says what the memory holds after that: the value in its range, and every other byte as it
  was. `writeIfFits` is described by the lengths alone, one lemma for each thing that can come of
  it.
-/
namespace StageHost.Memory

/-- What is written does not change what is below or behind it. -/
theorem get_write_of_outside (m : Memory) {i address : Nat} {bytes : List UInt8}
    (h : i < address ∨ address + bytes.length ≤ i) : (m.write address bytes).get i = m.get i := by
  induction bytes generalizing m address with
  | nil => rfl
  | cons b rest ih =>
    rw [List.length_cons] at h
    have hne : i ≠ address := by omega
    rw [write, ih _ (by omega), get_set, if_neg hne]

theorem read_write (m : Memory) (address : Nat) (bytes : List UInt8) :
    (m.write address bytes).read address bytes.length = bytes := by
  induction bytes generalizing m address with
  | nil => rfl
  | cons b rest ih =>
    have hfirst : ((m.set address b).write (address + 1) rest).get address = b := by
      rw [get_write_of_outside _ (.inl (Nat.lt_succ_self address)), get_set, if_pos rfl]
    rw [write, List.length_cons, read, hfirst, ih]

theorem read_congr {m m' : Memory} {address length : Nat}
    (h : ∀ i < address + length, m'.get i = m.get i) :
    m'.read address length = m.read address length := by
  induction length generalizing address with
  | zero => rfl
  | succ n ih =>
    rw [read, read, h address (by omega), ih fun i hi => h i (by omega)]

/-- Whether one memory is another one with a value put at an address. -/
structure Wrote (m : Memory) (address : Nat) (value : List UInt8) (m' : Memory) : Prop where
  size : m'.size = m.size
  inside : m'.read address value.length = value
  outside : ∀ i, i < address ∨ address + value.length ≤ i → m'.get i = m.get i

theorem wrote_write (m : Memory) (address : Nat) (value : List UInt8) :
    m.Wrote address value (m.write address value) where
  size := size_write m address value
  inside := read_write m address value
  outside _ hi := get_write_of_outside m hi

/-! ## Ask-then-write -/

section

variable (m : Memory) (address room : UInt32) {value : List UInt8}

theorem writeIfFits_of_long (h : UInt32.size ≤ value.length) :
    m.writeIfFits address room value = .error (.addressSpace value.length) := if_pos h

variable (h : value.length < UInt32.size)

include h

theorem toNat_length : (UInt32.ofNat value.length).toNat = value.length :=
  UInt32.toNat_ofNat_of_lt h

/-- Without room for the value its length is given, and memory stays as it is. -/
theorem writeIfFits_of_room_lt (hroom : room.toNat < value.length) :
    m.writeIfFits address room value = .ok (.ofNat value.length, m) := by
  have hlt : room < UInt32.ofNat value.length := by
    rw [UInt32.lt_iff_toNat_lt, toNat_length h]
    exact hroom
  unfold writeIfFits
  rw [if_neg (Nat.not_le.2 h)]
  exact if_pos hlt

/-- With room for the value its range must lie within memory. -/
theorem writeIfFits_of_le_room (hroom : value.length ≤ room.toNat) :
    m.writeIfFits address room value =
      if address.toNat + value.length ≤ m.size then
        .ok (.ofNat value.length, m.write address.toNat value)
      else .error (.range address (.ofNat value.length) m.size) := by
  have hnot : ¬ room < UInt32.ofNat value.length := by
    rw [UInt32.lt_iff_toNat_lt, toNat_length h]
    omega
  unfold writeIfFits
  rw [if_neg (Nat.not_le.2 h)]
  dsimp only
  rw [if_neg hnot, toNat_length h]
  simp only [holds, decide_eq_true_eq]

end

end StageHost.Memory

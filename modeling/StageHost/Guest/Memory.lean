/-
  The memory of a guest: bytes under addresses below a size.
  `get` is the view through which the operations are described. Only the bytes up to the last one
  written are kept; those after them are zero.
-/
namespace StageHost

structure Memory where
  /-- The number of addresses. -/
  size : Nat := 0
  bytes : Array UInt8 := #[]
deriving DecidableEq, Inhabited

/-- Why memory cannot be read or written. -/
inductive OutOfBounds
  /-- The range does not lie within memory. -/
  | range (address length : UInt32) (size : Nat)
  /-- The value has more bytes than a length of 32 bits can say. -/
  | addressSpace (length : Nat)
deriving DecidableEq, Repr

namespace OutOfBounds

def message : OutOfBounds → String
  | .range address length size =>
    "guest memory access out of bounds: ptr=" ++ toString address.toNat
      ++ ", len=" ++ toString length.toNat ++ ", memory size=" ++ toString size
  | .addressSpace length =>
    "value of " ++ toString length ++ " bytes exceeds the 32-bit guest address space"

end OutOfBounds

namespace Memory

/-- The number of bytes in a page. -/
def pageSize : Nat := 65536

/-- The greatest number of pages that addresses of 32 bits can reach. -/
def maxPages : Nat := 65536

/-- A memory of one byte throughout. -/
def filled (size : Nat) (b : UInt8) : Memory := ⟨size, Array.replicate size b⟩

/-- A memory of zeros. -/
def zeros (size : Nat) : Memory := ⟨size, #[]⟩

/-- The number of whole pages. -/
def pages (m : Memory) : Nat := m.size / pageSize

/-- The byte at an address. -/
def get (m : Memory) (address : Nat) : UInt8 := m.bytes.getD address 0

/-- Puts a byte at an address. -/
def set (m : Memory) (address : Nat) (b : UInt8) : Memory :=
  if h : address < m.bytes.size then { m with bytes := m.bytes.set address b }
  else { m with bytes := (m.bytes ++ Array.replicate (address - m.bytes.size) 0).push b }

/-- Whether a range lies within memory. -/
def holds (m : Memory) (address length : Nat) : Bool := address + length ≤ m.size

/-- The bytes of a range. -/
def read (m : Memory) (address : Nat) : Nat → List UInt8
  | 0 => []
  | n + 1 => m.get address :: m.read (address + 1) n

/-- Puts bytes one after the other, the first one at an address. -/
def write (m : Memory) (address : Nat) : List UInt8 → Memory
  | [] => m
  | b :: rest => (m.set address b).write (address + 1) rest

/-- The memory with more addresses. -/
def grow (m : Memory) (bytes : Nat) : Memory := { m with size := m.size + bytes }

@[simp] theorem size_set (m : Memory) (address : Nat) (b : UInt8) :
    (m.set address b).size = m.size := by
  unfold set; split <;> rfl

@[simp] theorem size_write (m : Memory) (address : Nat) (bytes : List UInt8) :
    (m.write address bytes).size = m.size := by
  induction bytes generalizing m address with
  | nil => rfl
  | cons b rest ih => simp [write, ih]

theorem get_set (m : Memory) (address : Nat) (b : UInt8) (i : Nat) :
    (m.set address b).get i = if i = address then b else m.get i := by
  unfold set get
  split
  · by_cases h : i = address
    · simp [Array.getD_eq_getD_getElem?, h]
    · simp [Array.getD_eq_getD_getElem?, h, Ne.symm h]
  · rename_i hge
    simp only [Array.getD_eq_getD_getElem?, Array.getElem?_push, Array.getElem?_append,
      Array.size_append, Array.size_replicate, Array.getElem?_replicate]
    have hsize : m.bytes.size + (address - m.bytes.size) = address := by omega
    rw [hsize]
    by_cases h : i = address
    · simp [h]
    · simp only [h, if_false]
      by_cases hi : i < m.bytes.size
      · simp [hi]
      · simp only [hi, if_false, Array.getElem?_eq_none (Nat.le_of_not_lt hi)]
        split <;> rfl

/-! ## What the host reads and writes -/

/-- The bytes of a range that a guest names. -/
def range (m : Memory) (address length : UInt32) : Except OutOfBounds (List UInt8) :=
  if m.holds address.toNat length.toNat then .ok (m.read address.toNat length.toNat)
  else .error (.range address length m.size)

/-- Gives the length of a value, which must be less than 2 ^ 32, and puts the value at an address if
its length is no more than the room there. A value that is longer leaves memory as it is. -/
def writeIfFits (m : Memory) (address room : UInt32) (value : List UInt8) :
    Except OutOfBounds (UInt32 × Memory) :=
  if UInt32.size ≤ value.length then .error (.addressSpace value.length)
  else
    let length := UInt32.ofNat value.length
    if room < length then .ok (length, m)
    else if m.holds address.toNat length.toNat then .ok (length, m.write address.toNat value)
    else .error (.range address length m.size)

end Memory
end StageHost

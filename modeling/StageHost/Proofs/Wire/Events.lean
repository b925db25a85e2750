import Mathlib.Tactic.IntervalCases
import StageHost.Wire.Events
/-
  Lists of events, written and read.
  Four bytes and the word that they stand for determine each other (`word_ofBytes`, `ofBytes_word`).
  So the record of an event is read as the event, and a record that is read at all is written as it
  was (`map_eventRecord_event?`). Reading takes the bytes eight at a time. What is read of any bytes
  are their whole records of a known kind (`map_eventRecord_decodeEvents`), and `events_read_again`
  says what this makes of both directions.
-/
namespace StageHost

/-- A number that no kind has is read as none. -/
theorem Resource.ofUInt32?_eq_none {n : UInt32} (h : ∀ r : Resource, n ≠ r.toUInt32) :
    ofUInt32? n = none := by
  unfold ofUInt32?
  exact (if_neg (h .pod)).trans <| (if_neg (h .node)).trans <|
    (if_neg (h .persistentVolume)).trans <| (if_neg (h .persistentVolumeClaim)).trans <|
    (if_neg (h .podSchedulingContext)).trans <| (if_neg (h .resourceClaim)).trans <|
    (if_neg (h .storageClass)).trans <| (if_neg (h .csiNode)).trans <|
    (if_neg (h .csiDriver)).trans <| (if_neg (h .csiStorageCapacity)).trans <|
    if_neg (h .wildCard)

/-- The kinds are numbered from 0 to 10. -/
theorem Resource.exists_toUInt32 {n : Nat} : (∃ r : Resource, n = r.toUInt32.toNat) ↔ n ≤ 10 := by
  constructor
  · rintro ⟨r, rfl⟩
    cases r <;> decide
  · intro h
    interval_cases n
    exacts [⟨.pod, rfl⟩, ⟨.node, rfl⟩, ⟨.persistentVolume, rfl⟩, ⟨.persistentVolumeClaim, rfl⟩,
      ⟨.podSchedulingContext, rfl⟩, ⟨.resourceClaim, rfl⟩, ⟨.storageClass, rfl⟩, ⟨.csiNode, rfl⟩,
      ⟨.csiDriver, rfl⟩, ⟨.csiStorageCapacity, rfl⟩, ⟨.wildCard, rfl⟩]

namespace Wire

/-! ## Words -/

/-- The number that some bytes stand for, the lowest byte first. -/
def littleEndian : List UInt8 → Nat
  | [] => 0
  | b :: bytes => b.toNat + 256 * littleEndian bytes

/-- As many bytes with the same number are the same. -/
theorem littleEndian_inj {xs ys : List UInt8} (hlength : xs.length = ys.length)
    (h : littleEndian xs = littleEndian ys) : xs = ys := by
  induction xs generalizing ys with
  | nil => exact (List.length_eq_zero_iff.1 hlength.symm).symm
  | cons x xs ih =>
    obtain ⟨y, ys, rfl⟩ := List.exists_cons_of_length_eq_add_one hlength.symm
    have hx := x.toNat_lt
    have hy := y.toNat_lt
    simp only [littleEndian] at h
    have hxy : x = y := UInt8.toNat_inj.1 (by omega)
    rw [hxy, ih (Nat.succ.inj hlength) (by omega)]

theorem littleEndian_word (w : UInt32) : littleEndian (word w) = w.toNat := by
  have hw : w.toNat < 4294967296 := w.toNat_lt
  simp only [word, littleEndian, UInt32.toNat_toUInt8, UInt32.toNat_shiftRight,
    UInt32.reduceToNat, Nat.shiftRight_eq_div_pow, Nat.reduceMod, Nat.reducePow]
  omega

theorem toNat_shiftLeft (b : UInt8) {k : UInt32} (h : k.toNat ≤ 24) :
    (b.toUInt32 <<< k).toNat = 2 ^ k.toNat * b.toNat := by
  have hb : b.toNat < 2 ^ 8 := b.toNat_lt
  have hlt : 2 ^ k.toNat * b.toNat < 2 ^ 24 * 2 ^ 8 :=
    Nat.mul_lt_mul_of_le_of_lt (Nat.pow_le_pow_right (by decide) h) hb (by decide)
  have hk : k.toNat % 32 = k.toNat := Nat.mod_eq_of_lt (by omega)
  rw [UInt32.toNat_shiftLeft, UInt8.toNat_toUInt32, hk, Nat.shiftLeft_eq, Nat.mul_comm]
  exact Nat.mod_eq_of_lt hlt

/-- Bits above those of a number are added to it. -/
theorem or_shifted {x i : Nat} (h : x < 2 ^ i) (y : Nat) : x ||| 2 ^ i * y = x + 2 ^ i * y := by
  rw [Nat.or_comm, ← Nat.two_pow_add_eq_or_of_lt h, Nat.add_comm]

theorem toNat_ofBytes (a b c d : UInt8) : (ofBytes a b c d).toNat = littleEndian [a, b, c, d] := by
  have ha : a.toNat < 2 ^ 8 := a.toNat_lt
  have hb : b.toNat < 2 ^ 8 := b.toNat_lt
  have hc : c.toNat < 2 ^ 8 := c.toNat_lt
  unfold ofBytes
  rw [UInt32.toNat_or, UInt32.toNat_or, UInt32.toNat_or, toNat_shiftLeft b (by decide),
    toNat_shiftLeft c (by decide), toNat_shiftLeft d (by decide), UInt8.toNat_toUInt32]
  simp only [UInt32.reduceToNat]
  rw [or_shifted ha, or_shifted (by omega) c.toNat, or_shifted (by omega)]
  simp only [littleEndian]
  omega

theorem word_ofBytes (a b c d : UInt8) : word (ofBytes a b c d) = [a, b, c, d] :=
  littleEndian_inj rfl (by rw [littleEndian_word, toNat_ofBytes])

theorem ofBytes_word (w : UInt32) :
    ofBytes w.toUInt8 (w >>> 8).toUInt8 (w >>> 16).toUInt8 (w >>> 24).toUInt8 = w := by
  rw [← UInt32.toNat_inj, toNat_ofBytes]
  exact littleEndian_word w

/-! ## Records -/

/-- The whole records of eight bytes; what is left at the end is none. -/
def records (bytes : List UInt8) : List (List UInt8) :=
  (List.range (bytes.length / 8)).map fun i => (bytes.drop (8 * i)).take 8

/-- Whether the first half of a record is the number of a kind of resource. -/
def KnownKind (record : List UInt8) : Prop :=
  ∃ r : Resource, littleEndian (record.take 4) = r.toUInt32.toNat

instance : DecidablePred KnownKind := fun _ => decidable_of_iff _ Resource.exists_toUInt32.symm

theorem records_of_lt {bytes : List UInt8} (h : bytes.length < 8) : records bytes = [] := by
  rw [records, Nat.div_eq_of_lt h]
  rfl

/-- A whole record at the front is the first one. -/
theorem records_append {record : List UInt8} (h : record.length = 8) (bytes : List UInt8) :
    records (record ++ bytes) = record :: records bytes := by
  have hcount : (record ++ bytes).length / 8 = bytes.length / 8 + 1 := by
    rw [List.length_append, h]
    omega
  unfold records
  rw [hcount, List.range_succ_eq_map, List.map_cons, List.map_map]
  congr 1
  · rw [Nat.mul_zero, List.drop_zero, List.take_append_of_le_length (by omega),
      List.take_of_length_le (by omega)]
  · refine List.map_congr_left fun i _ => ?_
    have hdrop : (record ++ bytes).drop (8 * (i + 1)) = bytes.drop (8 * i) := by
      rw [List.drop_append, List.drop_eq_nil_of_le (by omega), h, List.nil_append]
      congr 1
    exact congrArg (List.take 8) hdrop

/-! ## Events -/

theorem decodeEvents_of_lt {bytes : List UInt8} (h : bytes.length < 8) :
    decodeEvents bytes = [] := by
  unfold decodeEvents
  split
  · simp only [List.length_cons] at h
    omega
  · rfl

/-- The record of an event is read as the event. -/
theorem decodeEvents_record (e : Event) (rest : List UInt8) :
    decodeEvents (eventRecord e ++ rest) = e :: decodeEvents rest := by
  have hkind : event? e.resource.toUInt32 e.actions.bits = some e := by
    rw [event?, Resource.ofUInt32?_toUInt32]
    rfl
  unfold eventRecord word
  simp only [List.cons_append, List.nil_append, decodeEvents, ofBytes_word, hkind]
  rfl

/-- The event of a record, if there is one, has that record. -/
theorem map_eventRecord_event? (a b c d e f g h : UInt8) :
    (event? (ofBytes a b c d) (ofBytes e f g h)).toList.map eventRecord =
      [[a, b, c, d, e, f, g, h]].filter KnownKind := by
  have hknown : KnownKind [a, b, c, d, e, f, g, h] ↔
      ∃ r : Resource, ofBytes a b c d = r.toUInt32 := by
    refine exists_congr fun r => ?_
    rw [← UInt32.toNat_inj, toNat_ofBytes]
    rfl
  by_cases hkind : ∃ r : Resource, ofBytes a b c d = r.toUInt32
  · rw [List.filter_eq_self.2 (by simpa [hknown] using hkind)]
    obtain ⟨r, hr⟩ := hkind
    rw [event?, hr, Resource.ofUInt32?_toUInt32]
    show [word r.toUInt32 ++ word (ofBytes e f g h)] = _
    rw [← hr, word_ofBytes, word_ofBytes]
    rfl
  · rw [List.filter_eq_nil_iff.2 (by simpa [hknown] using hkind), event?,
      Resource.ofUInt32?_eq_none fun r hr => hkind ⟨r, hr⟩]
    rfl

/-- Events are read of their records, whatever is left after the last whole record. -/
theorem decodeEvents_encodeEvents (events : List Event) {left : List UInt8}
    (h : left.length < 8) : decodeEvents (encodeEvents events ++ left) = events := by
  induction events with
  | nil => exact decodeEvents_of_lt h
  | cons e events ih =>
    have hcons : encodeEvents (e :: events) = eventRecord e ++ encodeEvents events := rfl
    rw [hcons, List.append_assoc, decodeEvents_record, ih]

/-- The events of any bytes are those of the whole records of a known kind. -/
theorem map_eventRecord_decodeEvents (bytes : List UInt8) :
    (decodeEvents bytes).map eventRecord = (records bytes).filter KnownKind := by
  fun_induction decodeEvents bytes with
  | case1 a b c d e f g h rest ih =>
    have hrecords : records (a :: b :: c :: d :: e :: f :: g :: h :: rest) =
        [[a, b, c, d, e, f, g, h]] ++ records rest :=
      records_append (show [a, b, c, d, e, f, g, h].length = 8 from rfl) rest
    rw [List.map_append, map_eventRecord_event?, ih, hrecords, List.filter_append]
  | case2 bytes hshort =>
    have hlt : bytes.length < 8 := by
      match bytes, hshort with
      | [], _ | [_], _ | [_, _], _ | [_, _, _], _ | [_, _, _, _], _ | [_, _, _, _, _], _
      | [_, _, _, _, _, _], _ | [_, _, _, _, _, _, _], _ => simp
      | _ :: _ :: _ :: _ :: _ :: _ :: _ :: _ :: _, hshort =>
        exact (hshort _ _ _ _ _ _ _ _ _ rfl).elim
    rw [records_of_lt hlt]
    rfl

/-- What becomes of events that are written and read, and of bytes that are read and written. Events
come back as they were, also if less than a record follows them. Of any bytes the whole records of a
known kind come back, in their order and unchanged. -/
theorem events_read_again :
    (∀ (events : List Event) (left : List UInt8), left.length < 8 →
      decodeEvents (encodeEvents events ++ left) = events) ∧
    ∀ bytes : List UInt8,
      (decodeEvents bytes).map eventRecord = (records bytes).filter KnownKind ∧
      encodeEvents (decodeEvents bytes) = ((records bytes).filter KnownKind).flatten := by
  refine ⟨fun events left => decodeEvents_encodeEvents events, fun bytes => ?_⟩
  have hmap := map_eventRecord_decodeEvents bytes
  refine ⟨hmap, ?_⟩
  rw [encodeEvents, List.flatMap_def, hmap]

/-- Seven bytes after the record of an event are left alone. -/
theorem event_read_before_part : [1, 0, 0, 0, 1, 0, 0].length < 8 ∧
    decodeEvents (encodeEvents [.wildcard] ++ [1, 0, 0, 0, 1, 0, 0]) = [.wildcard] :=
  ⟨by decide, events_read_again.1 _ _ (by decide)⟩

/-- A record of an unknown kind is left out, and the one after it is read. -/
example : decodeEvents [99, 0, 0, 0, 1, 0, 0, 0, 1, 0, 0, 0, 2, 0, 0, 0, 7] = [⟨.node, .delete⟩] := by
  decide

end Wire
end StageHost

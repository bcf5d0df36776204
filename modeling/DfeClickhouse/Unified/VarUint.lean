import DfeClickhouse.Library.Base128
import DfeClickhouse.Unified.NativeStream

/-!
# The variable-length integer decoders

Three loops feed one decoder: over a slice, over a stream, and over a stream that may
have ended before the first byte.  The first two stop at the same byte with the same
value; the value is the number of the encoding, less the bits above the 64th.
-/

namespace DfeClickhouse.Native

open Library

namespace VarUintDecoder

/-- The loop over a slice from its byte `index`. -/
def scan (decoder : VarUintDecoder) (index : Nat) : Bytes → Except Error (Nat × Nat)
  | [] => .error .notEnoughData
  | octet :: rest =>
      match decoder.push octet with
      | .error error => .error error
      | .ok (_, some value) => .ok (value, index + 1)
      | .ok (decoder, none) => scan decoder (index + 1) rest

end VarUintDecoder

/-- What a slice decoder found, as a stream reports it: the rest for the byte count, and
its own error for a slice that ends inside the value. -/
def onStream (bytes : Bytes) : Except Error (Nat × Nat) → Except Error (Nat × Bytes)
  | .ok (value, count) => .ok (value, bytes.drop count)
  | .error .notEnoughData => .error unexpectedEof
  | .error error => .error error

/-- The error of a value that runs past the ceiling. -/
def varUintTooLong : Error :=
  .badResponse "native protocol: varint continues past 10 bytes"

theorem push_error {decoder : VarUintDecoder} {octet : UInt8} {error : Error}
    (failed : decoder.push octet = .error error) : error = varUintTooLong := by
  simp only [VarUintDecoder.push] at failed
  split at failed
  · cases failed
  · split at failed
    · exact (Except.error.inj failed).symm
    · cases failed

theorem scan_bounds {decoder : VarUintDecoder} {index value count : Nat} {bytes : Bytes}
    (found : decoder.scan index bytes = .ok (value, count)) :
    index < count ∧ count ≤ index + bytes.length := by
  induction bytes generalizing decoder index with
  | nil => cases found
  | cons octet rest ih =>
      rw [VarUintDecoder.scan] at found
      rw [List.length_cons]
      split at found
      · cases found
      · cases found
        omega
      · have bounds := ih found
        omega

/-- The stream loop finds what the slice loop does. -/
theorem readFrom_eq_scan (eof : Error) (decoder : VarUintDecoder) (index : Nat)
    (bytes : Bytes) :
    decoder.readFrom eof bytes =
      match decoder.scan index bytes with
      | .ok (value, count) => .ok (value, bytes.drop (count - index))
      | .error .notEnoughData => .error eof
      | .error error => .error error := by
  induction bytes generalizing decoder index with
  | nil => rfl
  | cons octet rest ih =>
      rw [VarUintDecoder.readFrom, VarUintDecoder.scan]
      cases pushed : decoder.push octet with
      | error error =>
          obtain rfl := push_error pushed
          rfl
      | ok result =>
          obtain ⟨next, found⟩ := result
          cases found with
          | some value =>
              dsimp only
              rw [Nat.add_sub_cancel_left, List.drop_one, List.tail_cons]
          | none =>
              dsimp only
              rw [ih next (index + 1)]
              cases scanned : next.scan (index + 1) rest with
              | error error => cases error <;> rfl
              | ok result =>
                  obtain ⟨value, count⟩ := result
                  have bounds := scan_bounds scanned
                  have behind : count - index = count - (index + 1) + 1 := by omega
                  dsimp only
                  rw [behind, List.drop_succ_cons]

theorem readVarUint_eq_scan (bytes : Bytes) :
    readVarUint bytes = onStream bytes (VarUintDecoder.scan {} 0 bytes) := by
  rw [readVarUint, readFrom_eq_scan _ _ 0]
  cases VarUintDecoder.scan {} 0 bytes with
  | ok result => rfl
  | error error => cases error <;> rfl

theorem getVarUint_eq_scan (bytes : Bytes) :
    getVarUint bytes = VarUintDecoder.scan {} 0 bytes := by
  rw [getVarUint, readFrom_eq_scan _ _ 0]
  cases scanned : VarUintDecoder.scan {} 0 bytes with
  | ok result =>
      obtain ⟨value, count⟩ := result
      have bounds := scan_bounds scanned
      dsimp only
      rw [List.length_drop]
      congr 2
      omega
  | error error => cases error <;> rfl

namespace VarUintDecoder

/-- The decoder after bytes that all continue: the bits above the 64th are lost. -/
def after (taken : Bytes) : VarUintDecoder :=
  ⟨groupSum taken % 2 ^ 64, taken.length⟩

theorem absorb (taken : Bytes) (octet : UInt8) :
    (after taken).out ||| (octet.toNat % 128) <<< (7 * (after taken).index) % 2 ^ 64 =
      groupSum (taken ++ [octet]) % 2 ^ 64 := by
  have low : groupSum taken < 2 ^ (7 * taken.length) := by
    rw [Nat.pow_mul]
    exact groupSum_lt taken
  have single : groupSum [octet] = octet.toNat % 128 := by
    rw [groupSum, groupSum, sevenBits, Nat.mul_zero, Nat.add_zero]
  rw [after, ← Nat.or_mod_two_pow, Nat.shiftLeft_eq, Nat.or_comm, Nat.mul_comm,
    ← Nat.two_pow_add_eq_or_of_lt low, groupSum_append, single, Nat.add_comm, Nat.pow_mul]

theorem push_after (taken : Bytes) (octet : UInt8) :
    (after taken).push octet =
      if octet.toNat < 128 then
        .ok (after (taken ++ [octet]), some (groupSum (taken ++ [octet]) % 2 ^ 64))
      else if taken.length + 1 = varUintMaxBytes then
        .error varUintTooLong
      else
        .ok (after (taken ++ [octet]), none) := by
  have grown : after (taken ++ [octet]) =
      ⟨groupSum (taken ++ [octet]) % 2 ^ 64, taken.length + 1⟩ := by
    rw [after, List.length_append, List.length_singleton]
  simp only [push, absorb, grown]
  rfl

theorem scan_encoding {taken front rest : Bytes} {last : UInt8} {index : Nat}
    (continues : ∀ byte ∈ front, Continues byte) (ends : ¬ Continues last)
    (room : taken.length + front.length < varUintMaxBytes) :
    (after taken).scan index (front ++ last :: rest) =
      .ok (groupSum (taken ++ front ++ [last]) % 2 ^ 64, index + front.length + 1) := by
  induction front generalizing taken index with
  | nil =>
      have final : last.toNat < 128 := Nat.lt_of_not_le ends
      rw [List.nil_append, scan, push_after, if_pos final, List.append_nil]
      rfl
  | cons byte front ih =>
      have more : ¬ byte.toNat < 128 := Nat.not_lt_of_le (continues byte List.mem_cons_self)
      rw [List.length_cons] at room
      have notLast : taken.length + 1 ≠ varUintMaxBytes := by omega
      rw [List.cons_append, scan, push_after, if_neg more, if_neg notLast]
      dsimp only
      rw [ih (fun other member => continues other (List.mem_cons_of_mem _ member))
        (by rw [List.length_append, List.length_singleton]; omega),
        List.append_assoc taken [byte], List.singleton_append, List.length_cons]
      congr 2
      omega

theorem scan_open {taken bytes : Bytes} {index : Nat}
    (continues : ∀ byte ∈ bytes, Continues byte)
    (room : taken.length + bytes.length < varUintMaxBytes) :
    (after taken).scan index bytes = .error .notEnoughData := by
  induction bytes generalizing taken index with
  | nil => rfl
  | cons byte rest ih =>
      have more : ¬ byte.toNat < 128 := Nat.not_lt_of_le (continues byte List.mem_cons_self)
      rw [List.length_cons] at room
      have notLast : taken.length + 1 ≠ varUintMaxBytes := by omega
      rw [scan, push_after, if_neg more, if_neg notLast]
      dsimp only
      exact ih (fun other member => continues other (List.mem_cons_of_mem _ member))
        (by rw [List.length_append, List.length_singleton]; omega)

/-- The ceiling stops the loop after bytes that all continue. -/
theorem scan_ceiling {taken bytes rest : Bytes} {index : Nat}
    (continues : ∀ byte ∈ bytes, Continues byte) (some : bytes ≠ [])
    (full : taken.length + bytes.length = varUintMaxBytes) :
    (after taken).scan index (bytes ++ rest) = .error varUintTooLong := by
  induction bytes generalizing taken index with
  | nil => exact absurd rfl some
  | cons byte bytes ih =>
      have more : ¬ byte.toNat < 128 := Nat.not_lt_of_le (continues byte List.mem_cons_self)
      rw [List.length_cons] at full
      rw [List.cons_append, scan, push_after, if_neg more]
      cases bytes with
      | nil =>
          have last : taken.length + 1 = varUintMaxBytes := full
          rw [if_pos last]
      | cons next bytes =>
          have notLast : taken.length + 1 ≠ varUintMaxBytes := by
            rw [List.length_cons] at full
            omega
          rw [if_neg notLast]
          dsimp only
          exact ih (fun other member => continues other (List.mem_cons_of_mem _ member))
            (List.cons_ne_nil _ _)
            (by rw [List.length_append, List.length_singleton]; omega)

end VarUintDecoder

theorem getVarUint_encoding {front rest : Bytes} {last : UInt8}
    (continues : ∀ byte ∈ front, Continues byte) (ends : ¬ Continues last)
    (room : front.length < varUintMaxBytes) :
    getVarUint (front ++ last :: rest) =
      .ok (groupSum (front ++ [last]) % 2 ^ 64, front.length + 1) := by
  have empty : ([] : Bytes).length + front.length < varUintMaxBytes := by simpa using room
  have scanned := @VarUintDecoder.scan_encoding [] front rest last 0 continues ends empty
  rw [List.nil_append, Nat.zero_add] at scanned
  rw [getVarUint_eq_scan]
  exact scanned

/-- Ten bytes that continue are refused, whatever follows. -/
theorem getVarUint_ceiling {front rest : Bytes}
    (continues : ∀ byte ∈ front, Continues byte) (room : varUintMaxBytes ≤ front.length) :
    getVarUint (front ++ rest) = .error varUintTooLong := by
  have split : front ++ rest =
      front.take varUintMaxBytes ++ (front.drop varUintMaxBytes ++ rest) := by
    rw [← List.append_assoc, List.take_append_drop]
  have full : (front.take varUintMaxBytes).length = varUintMaxBytes := by
    rw [List.length_take, Nat.min_eq_left room]
  rw [getVarUint_eq_scan, split]
  apply @VarUintDecoder.scan_ceiling []
  · intro byte member
    exact continues byte (List.mem_of_mem_take member)
  · intro empty
    rw [empty] at full
    cases full
  · simpa using full

theorem getVarUint_open {bytes : Bytes} (continues : ∀ byte ∈ bytes, Continues byte) :
    ∃ error, getVarUint bytes = .error error := by
  by_cases room : bytes.length < varUintMaxBytes
  · refine ⟨.notEnoughData, ?_⟩
    rw [getVarUint_eq_scan]
    exact @VarUintDecoder.scan_open [] bytes 0 continues (by simpa using room)
  · have ceiling := @getVarUint_ceiling bytes [] continues (Nat.le_of_not_lt room)
    rw [List.append_nil] at ceiling
    exact ⟨_, ceiling⟩

/-- The tenth byte ends the value and carries more than the one bit a `u64` has left. -/
def TenthByteSpills (bytes : Bytes) : Prop :=
  (∀ byte ∈ bytes.take 9, Continues byte) ∧ 2 ≤ (bytes.getD 9 0).toNat ∧
    (bytes.getD 9 0).toNat < 128

instance (bytes : Bytes) : Decidable (TenthByteSpills bytes) :=
  inferInstanceAs (Decidable (_ ∧ _ ∧ _))

/-- A decoded value is the number of its encoding, and an encoding of a number that does
not fit is refused. -/
structure DecodesExactly (bytes : Bytes) : Prop where
  exact : ∀ value count, getVarUint bytes = .ok (value, count) →
    value = ∑ i ∈ Finset.range count, (bytes.getD i 0).toNat % 128 * 128 ^ i
  refuses : ∀ front last rest, bytes = front ++ last :: rest →
    (∀ byte ∈ front, Continues byte) → ¬ Continues last →
      2 ^ 64 ≤ groupSum (front ++ [last]) → ∃ error, getVarUint bytes = .error error

/-- The number in the bytes before the end of an encoding does not depend on the rest. -/
theorem sum_encoding (front rest : Bytes) (last : UInt8) :
    ∑ i ∈ Finset.range (front.length + 1),
      ((front ++ last :: rest).getD i 0).toNat % 128 * 128 ^ i = groupSum (front ++ [last]) := by
  rw [groupSum_eq_sum, List.length_append, List.length_singleton]
  apply Finset.sum_congr rfl
  intro i member
  have inside : i < (front ++ [last]).length := by
    rw [List.length_append, List.length_singleton]
    exact Finset.mem_range.mp member
  have same : (front ++ last :: rest).getD i 0 = (front ++ [last]).getD i 0 := by
    rw [List.append_cons, List.getD_append _ _ _ _ inside]
  rw [same]

/-- An encoding within the ceiling fits a `u64` unless its tenth byte spills. -/
theorem groupSum_fits_iff {front rest : Bytes} {last : UInt8}
    (continues : ∀ byte ∈ front, Continues byte) (ends : ¬ Continues last)
    (room : front.length < varUintMaxBytes) :
    groupSum (front ++ [last]) < 2 ^ 64 ↔ ¬ TenthByteSpills (front ++ last :: rest) := by
  have final : last.toNat < 128 := Nat.lt_of_not_le ends
  have total : groupSum (front ++ [last]) =
      groupSum front + 128 ^ front.length * last.toNat := by
    rw [groupSum_append, groupSum, groupSum, sevenBits, Nat.mul_zero, Nat.add_zero,
      Nat.mod_eq_of_lt final]
  have low : groupSum front < 128 ^ front.length := groupSum_lt front
  by_cases short : front.length = 9
  · have head : (front ++ last :: rest).take 9 = front := by
      rw [List.take_append_of_le_length (Nat.le_of_eq short.symm), ← short, List.take_length]
    have tenth : (front ++ last :: rest).getD 9 0 = last := by
      rw [← short, List.getD_append_right _ _ _ _ (Nat.le_refl _), Nat.sub_self,
        List.getD_cons_zero]
    rw [TenthByteSpills, head, tenth, total, short]
    rw [short] at low
    constructor
    · intro fits spills
      omega
    · intro fits
      have one : last.toNat < 2 := by
        by_contra large
        exact fits ⟨continues, Nat.le_of_not_lt large, final⟩
      omega
  · have below : front.length < 9 := by
      unfold varUintMaxBytes at room
      omega
    have power : 128 ^ (front.length + 1) ≤ 128 ^ 9 :=
      Nat.pow_le_pow_right (by decide) below
    have bound := groupSum_lt (front ++ [last])
    rw [List.length_append, List.length_singleton] at bound
    constructor
    · intro _ spills
      apply ends
      apply spills.1
      rw [List.take_append, List.mem_append]
      right
      rw [List.take_cons (by omega)]
      exact List.mem_cons_self
    · intro _
      omega

/-- Ten bytes that continue do not spill. -/
theorem not_tenthByteSpills {front rest : Bytes}
    (continues : ∀ byte ∈ front, Continues byte) (long : 9 < front.length) :
    ¬ TenthByteSpills (front ++ rest) := by
  intro spills
  have tenth : (front ++ rest).getD 9 0 = front[9] := by
    rw [List.getD_append _ _ _ _ long, List.getD_eq_getElem _ _ long]
  have continuesTenth : 128 ≤ front[9].toNat := continues _ (List.getElem_mem long)
  have endsTenth := spills.2.2
  rw [tenth] at endsTenth
  omega

/-- Bytes that end before the tenth do not spill. -/
theorem not_tenthByteSpills_short {bytes : Bytes} (short : bytes.length ≤ 9) :
    ¬ TenthByteSpills bytes := by
  intro spills
  have large := spills.2.1
  rw [List.getD_eq_default _ _ short] at large
  exact absurd large (by decide)

theorem DecodesExactly.of_error {bytes : Bytes} {error : Error}
    (refused : getVarUint bytes = .error error) : DecodesExactly bytes where
  exact value count succeeded := by
    rw [refused] at succeeded
    cases succeeded
  refuses _ _ _ _ _ _ _ := ⟨error, refused⟩

/-- The decoder loses no bit, unless the tenth byte carries some past the 64th. -/
theorem decodesExactly_iff (bytes : Bytes) :
    DecodesExactly bytes ↔ ¬ TenthByteSpills bytes := by
  cases encoding_or_open bytes with
  | inl found =>
      obtain ⟨front, last, rest, rfl, continues, ends⟩ := found
      by_cases room : front.length < varUintMaxBytes
      · have decoded := @getVarUint_encoding front rest last continues ends room
        rw [← groupSum_fits_iff continues ends room]
        constructor
        · intro exactly
          have value := exactly.exact _ _ decoded
          rw [sum_encoding] at value
          rw [← value]
          exact Nat.mod_lt _ (Nat.two_pow_pos 64)
        · intro fits
          constructor
          · intro value count succeeded
            obtain ⟨rfl, rfl⟩ := Prod.mk.inj (Except.ok.inj (decoded.symm.trans succeeded))
            rw [sum_encoding, Nat.mod_eq_of_lt fits]
          · intro front' last' rest' same continues' ends' large
            obtain ⟨rfl, rfl, rfl⟩ := encoding_unique continues ends continues' ends' same
            omega
      · have long : varUintMaxBytes ≤ front.length := Nat.le_of_not_lt room
        constructor
        · intro _
          exact not_tenthByteSpills continues (Nat.lt_of_lt_of_le (by decide) long)
        · intro _
          exact DecodesExactly.of_error (getVarUint_ceiling continues long)
  | inr continues =>
      obtain ⟨error, refused⟩ := getVarUint_open continues
      constructor
      · intro _
        by_cases long : 9 < bytes.length
        · have inside := @not_tenthByteSpills bytes [] continues long
          rwa [List.append_nil] at inside
        · exact not_tenthByteSpills_short (Nat.le_of_not_lt long)
      · intro _
        exact DecodesExactly.of_error refused

/-- Nine bytes that continue, and a tenth of the number two: the value is zero. -/
theorem decodesExactly_fails_tenth :
    getVarUint (List.replicate 9 0x80 ++ [2]) = .ok (0, 10) ∧
      ¬ DecodesExactly (List.replicate 9 0x80 ++ [2]) := by
  have decoded : getVarUint (List.replicate 9 0x80 ++ [2]) = .ok (0, 10) := rfl
  refine ⟨decoded, ?_⟩
  intro exactly
  have value := exactly.exact _ _ decoded
  revert value
  decide +kernel

end DfeClickhouse.Native

namespace DfeClickhouse.Unified

open Library Native

theorem length_encodeVarUintGroups_le (room value : Nat) :
    (encodeVarUintGroups room value).length ≤ room := by
  induction room generalizing value with
  | zero => rfl
  | succ room ih =>
      rw [encodeVarUintGroups]
      by_cases more : value / 128 > 0
      · rw [if_pos more]
        exact Nat.succ_le_succ (ih (value / 128))
      · rw [if_neg more]
        exact Nat.succ_le_succ (Nat.zero_le room)

/-- An encoding is read back by every decoder, which takes its one to ten bytes and
leaves what follows. -/
structure ReadBack (value : Nat) (rest : Bytes) : Prop where
  nonempty : 1 ≤ (encodeVarUint value).length
  bounded : (encodeVarUint value).length ≤ 10
  slice : VarUintDecoder.scan {} 0 (encodeVarUint value ++ rest) =
    .ok (value, (encodeVarUint value).length)
  stream : readVarUint (encodeVarUint value ++ rest) = .ok (value, rest)
  orEof : readVarUintOrEof (encodeVarUint value ++ rest) = .ok (some value, rest)

theorem readBack_encodeVarUint (value : BitVec 64) (rest : Bytes) :
    ReadBack value.toNat rest := by
  have nonempty : encodeVarUint value.toNat ≠ [] := encodeVarUint_ne_nil value.toNat
  have read : readVarUint (encodeVarUint value.toNat ++ rest) = .ok (value.toNat, rest) :=
    reads_readVarUint value.isLt rest
  constructor
  · exact List.length_pos_iff.mpr nonempty
  · exact length_encodeVarUintGroups_le varUintMaxBytes value.toNat
  · rw [← getVarUint_eq_scan]
    exact getVarUint_encodeVarUint value.isLt rest
  · exact read
  · have filled : encodeVarUint value.toNat ++ rest ≠ [] :=
      List.append_ne_nil_of_left_ne_nil nonempty rest
    rw [readVarUintOrEof_eq, Reader.unlessEnd_of_ne_nil filled, Reader.map_run, read]

/-- Every `u64` is read back from its encoding, whatever follows it, and the three
decoders agree on every input: the stream decoder finds the value of the slice decoder and
leaves the bytes behind it, and the tolerant one does the same except on the empty input,
which it takes for a clean end. -/
theorem varUint_codec :
    (∀ (value : BitVec 64) (rest : Bytes), ReadBack value.toNat rest) ∧
      ∀ bytes : Bytes,
        readVarUint bytes = onStream bytes (VarUintDecoder.scan {} 0 bytes) ∧
        readVarUintOrEof bytes =
          if bytes = [] then .ok (none, []) else (some <$> readVarUint) bytes := by
  constructor
  · exact readBack_encodeVarUint
  · intro bytes
    constructor
    · exact readVarUint_eq_scan bytes
    · rw [readVarUintOrEof_eq]
      cases bytes with
      | nil => rfl
      | cons octet rest => rw [if_neg (List.cons_ne_nil octet rest), Reader.unlessEnd]

end DfeClickhouse.Unified

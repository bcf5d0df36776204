import DfeClickhouse.Error
import DfeClickhouse.Library.Bytes

/-!
# Wire primitives

Variable-length integers and length-prefixed strings, written to a buffer and
read from a byte stream.  The allocations the source makes through `with_cap`
and `read_exact_grown` are taken to succeed, so a read of `len` bytes fails only
when the stream ends first.
-/

namespace DfeClickhouse.Native

open Library

/-- A reader of the wire. -/
abbrev ByteReader (α : Type) := Reader UInt8 Error α

/-- Hard cap on length-prefixed string and byte-array fields. -/
def maxStringSize : Nat := 2 ^ 30

/-- A `u64` needs at most ten seven-bit groups. -/
def varUintMaxBytes : Nat := 10

/-- The error a stream reports when it ends inside a value. -/
def unexpectedEof : Error := .other (.io .unexpectedEof "early eof")

/-- The source's loop, bounded by the ten bytes of its buffer. -/
def encodeVarUintGroups : Nat → Nat → Bytes
  | 0, _ => []
  | room + 1, value =>
      let byte := value % 128
      if value / 128 > 0 then
        UInt8.ofNat (byte + 128) :: encodeVarUintGroups room (value / 128)
      else
        [UInt8.ofNat byte]

/-- The variable-length encoding of a `u64`. -/
def encodeVarUint (value : Nat) : Bytes :=
  encodeVarUintGroups varUintMaxBytes value

/-- The incremental decoder: the bits absorbed so far and their byte count. -/
structure VarUintDecoder where
  out : Nat := 0
  index : Nat := 0

namespace VarUintDecoder

/-- Absorb one byte; the value is there once its top bit is clear.  Bits shifted
past the 64th are lost, as in the source's `u64` shift. -/
def push (decoder : VarUintDecoder) (octet : UInt8) :
    Except Error (VarUintDecoder × Option Nat) :=
  let out := decoder.out ||| (octet.toNat % 128) <<< (7 * decoder.index) % 2 ^ 64
  let index := decoder.index + 1
  if octet.toNat < 128 then
    .ok (⟨out, index⟩, some out)
  else if index = varUintMaxBytes then
    .error (.badResponse "native protocol: varint continues past 10 bytes")
  else
    .ok (⟨out, index⟩, none)

/-- Feed the decoder from a stream until it has a value. -/
def readFrom (eof : Error) (decoder : VarUintDecoder) : ByteReader Nat
  | [] => .error eof
  | octet :: rest =>
      match decoder.push octet with
      | .error error => .error error
      | .ok (_, some value) => .ok (value, rest)
      | .ok (decoder, none) => readFrom eof decoder rest

end VarUintDecoder

/-- Read a variable-length integer from the stream. -/
def readVarUint : ByteReader Nat :=
  VarUintDecoder.readFrom unexpectedEof {}

/-- Decode a variable-length integer from the front of a slice, with the number
of bytes it takes. -/
def getVarUint (bytes : Bytes) : Except Error (Nat × Nat) :=
  match VarUintDecoder.readFrom .notEnoughData {} bytes with
  | .ok (value, rest) => .ok (value, bytes.length - rest.length)
  | .error error => .error error

/-- Exactly `len` bytes. -/
def readExact (len : Nat) : ByteReader Bytes :=
  Reader.take unexpectedEof len

/-- One byte. -/
def readU8 : ByteReader UInt8 := do
  let bytes ← readExact 1
  pure (bytes.headD 0)

/-- A little-endian `u64`. -/
def readU64Le : ByteReader Nat := do
  let bytes ← readExact 8
  pure (leNat bytes)

/-- Reject a wire length above the cap. -/
def checkedStringLen (len : Nat) : Except Error Nat :=
  if len > maxStringSize then
    .error (.badResponse ("native protocol: string too large: " ++ toString len ++
      " > " ++ toString maxStringSize))
  else
    .ok len

/-- A length-prefixed byte string. -/
def readString : ByteReader Bytes := do
  let declared ← readVarUint
  let len ← Reader.ofExcept (checkedStringLen declared)
  readExact len

/-- A length-prefixed string that must be UTF-8. -/
def readUtf8String : ByteReader String := do
  let bytes ← readString
  match fromUtf8 bytes with
  | some text => pure text
  | none =>
      Reader.fail (.badResponse ("native protocol: invalid utf8: " ++ utf8ErrorText bytes))

/-- Append a length and the bytes it counts. -/
def putString (value : Bytes) : Bytes :=
  encodeVarUint value.length ++ value

theorem push_final {decoder : VarUintDecoder} {octet : UInt8}
    (last : octet.toNat < 128) :
    decoder.push octet =
      .ok (⟨decoder.out ||| octet.toNat <<< (7 * decoder.index) % 2 ^ 64,
        decoder.index + 1⟩,
        some (decoder.out ||| octet.toNat <<< (7 * decoder.index) % 2 ^ 64)) := by
  simp only [VarUintDecoder.push, if_pos last, Nat.mod_eq_of_lt last]

theorem push_more {decoder : VarUintDecoder} {octet : UInt8}
    (more : ¬ octet.toNat < 128) (room : decoder.index + 1 ≠ varUintMaxBytes) :
    decoder.push octet =
      .ok (⟨decoder.out ||| (octet.toNat % 128) <<< (7 * decoder.index) % 2 ^ 64,
        decoder.index + 1⟩, none) := by
  simp only [VarUintDecoder.push, if_neg more, if_neg room]

/-- Absorbing a group above the bits already there adds it at its place. -/
theorem or_group {out index group : Nat} (low : out < 2 ^ (7 * index))
    (fits : group * 2 ^ (7 * index) < 2 ^ 64) :
    out ||| group <<< (7 * index) % 2 ^ 64 = out + group * 2 ^ (7 * index) := by
  rw [Nat.shiftLeft_eq, Nat.mod_eq_of_lt fits, Nat.or_comm, Nat.mul_comm,
    ← Nat.two_pow_add_eq_or_of_lt low, Nat.add_comm]

theorem readFrom_encodeVarUintGroups (eof : Error) {room index out value : Nat}
    {rest : Bytes} (groups : index + room = 10) (low : out < 2 ^ (7 * index))
    (roomLeft : 0 < room) (small : value * 2 ^ (7 * index) < 2 ^ 64) :
    VarUintDecoder.readFrom eof ⟨out, index⟩ (encodeVarUintGroups room value ++ rest) =
      .ok (out + value * 2 ^ (7 * index), rest) := by
  induction room generalizing index out value with
  | zero => omega
  | succ room ih =>
      have positive : 0 < 2 ^ (7 * index) := Nat.two_pow_pos _
      rw [encodeVarUintGroups]
      by_cases more : value / 128 > 0
      · have split : value = value % 128 + value / 128 * 128 := by omega
        have byte : (UInt8.ofNat (value % 128 + 128)).toNat = value % 128 + 128 := by
          rw [UInt8.toNat_ofNat']
          omega
        have place : 2 ^ (7 * (index + 1)) = 2 ^ (7 * index) * 128 := by
          rw [Nat.mul_add, Nat.pow_add]
        have groupLe : value % 128 * 2 ^ (7 * index) ≤ value * 2 ^ (7 * index) :=
          Nat.mul_le_mul_right _ (Nat.mod_le _ _)
        have total : value * 2 ^ (7 * index) =
            value % 128 * 2 ^ (7 * index) + value / 128 * 2 ^ (7 * (index + 1)) := by
          rw [place]
          conv_lhs => rw [split]
          rw [Nat.add_mul, Nat.mul_assoc, Nat.mul_comm 128]
        have notLast : index + 1 ≠ varUintMaxBytes := by
          intro last
          have full : index = 9 := by
            have : index + 1 = 10 := last
            omega
          subst full
          have : value < 2 := by
            by_contra large
            have : 2 * 2 ^ (7 * 9) ≤ value * 2 ^ (7 * 9) :=
              Nat.mul_le_mul_right _ (by omega)
            omega
          omega
        rw [if_pos more, List.cons_append, VarUintDecoder.readFrom,
          push_more (by omega) notLast, byte]
        have group : (value % 128 + 128) % 128 = value % 128 := by omega
        simp only [group]
        rw [or_group low (by omega)]
        have grown : out + value % 128 * 2 ^ (7 * index) < 2 ^ (7 * (index + 1)) := by
          have : value % 128 * 2 ^ (7 * index) ≤ 127 * 2 ^ (7 * index) :=
            Nat.mul_le_mul_right _ (by omega)
          omega
        rw [ih (by omega) grown (by
          have : index + 1 ≠ 10 := notLast
          omega) (by omega)]
        rw [total, Nat.add_assoc]
      · have byte : (UInt8.ofNat (value % 128)).toNat = value := by
          rw [UInt8.toNat_ofNat']
          omega
        rw [if_neg more, List.cons_append, List.nil_append, VarUintDecoder.readFrom,
          push_final (by omega), byte]
        simp only [or_group low small]

/-- Every `u64` is read back from its encoding, whatever follows it. -/
theorem reads_readVarUint {value : Nat} (small : value < 2 ^ 64) :
    Reader.Reads readVarUint (encodeVarUint value) value := by
  intro rest
  unfold readVarUint encodeVarUint
  rw [show ({} : VarUintDecoder) = ⟨0, 0⟩ from rfl,
    readFrom_encodeVarUintGroups unexpectedEof rfl (by decide) (by decide)
      (by simpa using small)]
  simp

theorem encodeVarUint_ne_nil (value : Nat) : encodeVarUint value ≠ [] := by
  unfold encodeVarUint varUintMaxBytes encodeVarUintGroups
  simp only
  split <;> simp

theorem getVarUint_encodeVarUint {value : Nat} (small : value < 2 ^ 64) (rest : Bytes) :
    getVarUint (encodeVarUint value ++ rest) =
      .ok (value, (encodeVarUint value).length) := by
  unfold getVarUint encodeVarUint
  rw [show ({} : VarUintDecoder) = ⟨0, 0⟩ from rfl,
    readFrom_encodeVarUintGroups .notEnoughData rfl (by decide) (by decide)
      (by simpa using small)]
  simp

theorem reads_readExact {len : Nat} {bytes : Bytes} (sized : bytes.length = len) :
    Reader.Reads (readExact len) bytes bytes :=
  Reader.Reads.take _ sized

theorem reads_readU8 (byte : UInt8) : Reader.Reads readU8 [byte] byte := by
  have single : Reader.Reads (readExact 1) [byte] [byte] := reads_readExact rfl
  exact single.bind_pure

theorem reads_readU64Le {value : Nat} (small : value < 2 ^ 64) :
    Reader.Reads readU64Le (natLe 8 value) value := by
  have word : Reader.Reads readU64Le (natLe 8 value) (leNat (natLe 8 value)) :=
    (reads_readExact (length_natLe 8 value)).bind_pure
  rwa [leNat_natLe_of_lt small] at word

theorem reads_readString {value : Bytes} (capped : value.length ≤ maxStringSize) :
    Reader.Reads readString (putString value) value := by
  have small : value.length < 2 ^ 64 := by
    unfold maxStringSize at capped
    omega
  refine (reads_readVarUint small).bind ?_
  have accepted : checkedStringLen value.length = .ok value.length := by
    rw [checkedStringLen, if_neg (by omega)]
  intro rest
  rw [accepted]
  exact reads_readExact rfl rest

theorem reads_readUtf8String {text : String}
    (capped : (utf8 text).length ≤ maxStringSize) :
    Reader.Reads readUtf8String (putString (utf8 text)) text := by
  intro rest
  unfold readUtf8String
  rw [Reader.bind_of_ok (reads_readString capped rest), fromUtf8_utf8]
  exact Reader.pure_run _ _

end DfeClickhouse.Native

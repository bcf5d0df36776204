import DfeClickhouse.Library.Reader

/-!
# Byte strings

Little-endian numbers, fixed-width scalars as bit vectors, equal-width chunks
and the UTF-8 bytes of a string.
-/

namespace DfeClickhouse.Library

/-- A byte string. -/
abbrev Bytes := List UInt8

/-- The number of addresses of a 64-bit machine. -/
def addressSpace : Nat := 2 ^ 64

/-- A byte string that fits the address space, as every slice does. -/
structure ByteString where
  bytes : Bytes
  bounded : bytes.length < addressSpace

/-- The number a byte string denotes, least significant byte first. -/
def leNat : Bytes → Nat
  | [] => 0
  | byte :: rest => byte.toNat + 256 * leNat rest

/-- The low `width` bytes of a number, least significant byte first. -/
def natLe : Nat → Nat → Bytes
  | 0, _ => []
  | width + 1, value => UInt8.ofNat value :: natLe width (value / 256)

@[simp] theorem length_natLe (width value : Nat) :
    (natLe width value).length = width := by
  induction width generalizing value with
  | zero => rfl
  | succ width ih => simp [natLe, ih]

theorem leNat_lt (bytes : Bytes) : leNat bytes < 256 ^ bytes.length := by
  induction bytes with
  | nil => simp [leNat]
  | cons byte rest ih =>
      have small : byte.toNat < 256 := byte.toNat_lt
      simp only [leNat, List.length_cons, Nat.pow_succ]
      omega

@[simp, grind =] theorem leNat_natLe (width value : Nat) :
    leNat (natLe width value) = value % 256 ^ width := by
  induction width generalizing value with
  | zero => simp [natLe, leNat, Nat.mod_one]
  | succ width ih =>
      simp only [natLe, leNat, ih, UInt8.toNat_ofNat', Nat.pow_succ]
      rw [Nat.mul_comm (256 ^ width) 256]
      exact (Nat.mod_mul).symm

theorem leNat_natLe_of_lt {width value : Nat} (small : value < 256 ^ width) :
    leNat (natLe width value) = value := by
  rw [leNat_natLe, Nat.mod_eq_of_lt small]

theorem natLe_leNat {width : Nat} {bytes : Bytes} (sized : bytes.length = width) :
    natLe width (leNat bytes) = bytes := by
  induction bytes generalizing width with
  | nil =>
      subst sized
      rfl
  | cons byte rest ih =>
      subst sized
      have small : byte.toNat < 256 := byte.toNat_lt
      have low : UInt8.ofNat (byte.toNat + 256 * leNat rest) = byte := by
        apply UInt8.toNat.inj
        rw [UInt8.toNat_ofNat']
        omega
      have high : (byte.toNat + 256 * leNat rest) / 256 = leNat rest := by omega
      simp only [List.length_cons, natLe, leNat, low, high, ih rfl]

/-- The scalar a little-endian byte string denotes. -/
def scalarOfBytes (width : Nat) (bytes : Bytes) : BitVec (8 * width) :=
  BitVec.ofNat (8 * width) (leNat bytes)

/-- The little-endian bytes of a scalar. -/
def scalarBytes (width : Nat) (value : BitVec (8 * width)) : Bytes :=
  natLe width value.toNat

@[simp] theorem length_scalarBytes (width : Nat) (value : BitVec (8 * width)) :
    (scalarBytes width value).length = width :=
  length_natLe width value.toNat

theorem two_pow_eight_mul (width : Nat) : 2 ^ (8 * width) = 256 ^ width := by
  rw [Nat.pow_mul]

theorem scalarBytes_scalarOfBytes {width : Nat} {bytes : Bytes}
    (sized : bytes.length = width) :
    scalarBytes width (scalarOfBytes width bytes) = bytes := by
  subst sized
  have small : leNat bytes < 2 ^ (8 * bytes.length) := by
    rw [two_pow_eight_mul]
    exact leNat_lt bytes
  unfold scalarBytes scalarOfBytes
  rw [BitVec.toNat_ofNat, Nat.mod_eq_of_lt small]
  exact natLe_leNat rfl

theorem toNat_scalarOfBytes {width : Nat} {bytes : Bytes} (sized : bytes.length = width) :
    (scalarOfBytes width bytes).toNat = leNat bytes := by
  have small := leNat_lt bytes
  rw [sized, ← two_pow_eight_mul] at small
  rw [scalarOfBytes, BitVec.toNat_ofNat, Nat.mod_eq_of_lt small]

@[simp] theorem leNat_replicate_zero (width : Nat) : leNat (List.replicate width 0) = 0 := by
  induction width with
  | zero => rfl
  | succ width ih => simp [List.replicate_succ, leNat, ih]

@[simp] theorem scalarOfBytes_replicate_zero (width : Nat) :
    scalarOfBytes width (List.replicate width 0) = 0 := by
  rw [scalarOfBytes, leNat_replicate_zero]
  rfl

/-- The first `count` chunks of `width` items. -/
def chunks {α : Type} (width : Nat) : Nat → List α → List (List α)
  | 0, _ => []
  | count + 1, items => items.take width :: chunks width count (items.drop width)

@[simp] theorem chunks_one {α : Type} (items : List α) :
    chunks 1 items.length items = items.map fun item => [item] := by
  induction items with
  | nil => rfl
  | cons item items ih => simp [chunks, ih]

/-- The full chunks of `width` items; an incomplete last one is left out. -/
def chunksExact {α : Type} (width : Nat) (items : List α) : List (List α) :=
  chunks width (items.length / width) items

@[simp, grind =] theorem length_chunks {α : Type} (width count : Nat) (items : List α) :
    (chunks width count items).length = count := by
  induction count generalizing items with
  | zero => rfl
  | succ count ih => simp [chunks, ih]

theorem chunksExact_of_length {α : Type} {width count : Nat} {items : List α}
    (positive : 0 < width) (sized : items.length = count * width) :
    chunksExact width items = chunks width count items := by
  unfold chunksExact
  rw [sized, Nat.mul_div_cancel _ positive]

theorem length_of_mem_chunks {α : Type} {width count : Nat} {items chunk : List α}
    (enough : count * width ≤ items.length)
    (member : chunk ∈ chunks width count items) : chunk.length = width := by
  induction count generalizing items with
  | zero => simp [chunks] at member
  | succ count ih =>
      rw [Nat.succ_mul] at enough
      simp only [chunks, List.mem_cons] at member
      rcases member with rfl | member
      · rw [List.length_take]
        omega
      · exact ih (by rw [List.length_drop]; omega) member

/-- Chunk `index` starts `index * width` items in. -/
theorem getElem?_chunks {α : Type} {width count index : Nat} {items : List α}
    (inside : index < count) :
    (chunks width count items)[index]? =
      some ((items.drop (index * width)).take width) := by
  induction count generalizing index items with
  | zero => omega
  | succ count ih =>
      cases index with
      | zero => simp [chunks]
      | succ index =>
          simp only [chunks, List.getElem?_cons_succ]
          rw [ih (by omega), List.drop_drop, Nat.succ_mul, Nat.add_comm]

@[simp, grind =] theorem chunks_take {α : Type} (width count : Nat) (items : List α) :
    chunks width count (items.take (count * width)) = chunks width count items := by
  induction count generalizing items with
  | zero => rfl
  | succ count ih =>
      have cut : (items.take ((count + 1) * width)).drop width =
          (items.drop width).take (count * width) := by
        rw [List.drop_take, Nat.succ_mul, Nat.add_sub_cancel]
      have front : (items.take ((count + 1) * width)).take width = items.take width := by
        rw [List.take_take, Nat.min_eq_left]
        rw [Nat.succ_mul]
        omega
      rw [chunks, chunks, cut, front, ih]

/-- Cutting items of one width out of their concatenation. -/
theorem chunks_flatten {α : Type} {width : Nat} {items : List (List α)}
    (sized : ∀ item ∈ items, item.length = width) :
    chunks width items.length items.flatten = items := by
  induction items with
  | nil => rfl
  | cons item items ih =>
      have head : item.length = width := sized item (by simp)
      rw [List.length_cons, List.flatten_cons, chunks, List.take_left' head, List.drop_left' head,
        ih fun item member => sized item (by simp [member])]

theorem length_flatten_of_sized {α : Type} {width : Nat} {items : List (List α)}
    (sized : ∀ item ∈ items, item.length = width) :
    items.flatten.length = items.length * width := by
  induction items with
  | nil => simp
  | cons item items ih =>
      rw [List.flatten_cons, List.length_append, sized item (by simp),
        ih fun item member => sized item (by simp [member]), List.length_cons, Nat.succ_mul,
        Nat.add_comm]

theorem times_take_of_le {τ ε : Type} (eof : ε) {width count : Nat} {input : List τ}
    (enough : count * width ≤ input.length) :
    Reader.times (Reader.take eof width) count input =
      .ok (chunks width count input, input.drop (count * width)) := by
  induction count generalizing input with
  | zero => simp [Reader.times, chunks, Reader.pure_run]
  | succ count ih =>
      rw [Nat.succ_mul] at enough
      have headRead : Reader.take eof width input =
          .ok (input.take width, input.drop width) := by
        rw [Reader.take, if_pos (by omega)]
      rw [Reader.times, Reader.bind_of_ok headRead]
      rw [Reader.bind_of_ok (ih (by rw [List.length_drop]; omega)), Reader.pure_run]
      rw [List.drop_drop, chunks, Nat.succ_mul, Nat.add_comm width]

theorem times_take_of_lt {τ ε : Type} (eof : ε) {width count : Nat} {input : List τ}
    (short : input.length < count * width) :
    Reader.times (Reader.take eof width) count input = .error eof := by
  induction count generalizing input with
  | zero => simp at short
  | succ count ih =>
      rw [Nat.succ_mul] at short
      rw [Reader.times]
      by_cases first : width ≤ input.length
      · have headRead : Reader.take eof width input =
            .ok (input.take width, input.drop width) := by
          rw [Reader.take, if_pos first]
        rw [Reader.bind_of_ok headRead]
        exact Reader.bind_of_error (ih (by rw [List.length_drop]; omega))
      · apply Reader.bind_of_error
        rw [Reader.take, if_neg first]

/-- Reading chunk after chunk is reading all their items at once. -/
theorem agree_times_take {τ ε ε' : Type} (limit width count : Nat)
    (left : ε) (right : ε') :
    Reader.Agree limit
      (fun cells (items : List τ) => cells = chunks width count items ∧
        items.length = count * width)
      (Reader.times (Reader.take left width) count)
      (Reader.take right (count * width)) := by
  intro input _
  by_cases enough : count * width ≤ input.length
  · rw [times_take_of_le left enough, Reader.take, if_pos enough]
    refine .ok ⟨(chunks_take width count input).symm, ?_⟩ ?_
    · rw [List.length_take, Nat.min_eq_left enough]
    · rw [List.length_drop]
      omega
  · rw [times_take_of_lt left (by omega), Reader.take, if_neg enough]
    exact .error

/-- The UTF-8 bytes of a string. -/
def utf8 (text : String) : Bytes := text.toByteArray.data.toList

/-- The string a byte string spells in UTF-8. -/
def fromUtf8 (bytes : Bytes) : Option String :=
  String.fromUTF8? ⟨bytes.toArray⟩

/-- Where UTF-8 validation stops and how many bytes it rejects there; no count
means that the input ends inside a character.  The `fuel` is the byte count. -/
def utf8Error : Nat → Nat → Bytes → Option (Nat × Option Nat)
  | 0, _, _ => none
  | _ + 1, _, [] => none
  | fuel + 1, index, first :: rest =>
      let continuation (byte : UInt8) : Bool := 0x80 ≤ byte && byte ≤ 0xBF
      let secondOk (byte : UInt8) : Bool :=
        if first == 0xE0 then 0xA0 ≤ byte && byte ≤ 0xBF
        else if first == 0xED then 0x80 ≤ byte && byte ≤ 0x9F
        else if first == 0xF0 then 0x90 ≤ byte && byte ≤ 0xBF
        else if first == 0xF4 then 0x80 ≤ byte && byte ≤ 0x8F
        else continuation byte
      let width : Nat :=
        if first < 0x80 then 1
        else if first < 0xC2 then 0
        else if first < 0xE0 then 2
        else if first < 0xF0 then 3
        else if first < 0xF5 then 4
        else 0
      -- The bytes after the first one, in order: a missing one ends the input,
      -- a wrong one rejects everything read before it.
      let rec tail (read : Nat) : Nat → Bytes → Option (Option Nat)
        | 0, _ => none
        | _ + 1, [] => some none
        | missing + 1, byte :: more =>
            if (if read == 1 then secondOk byte else continuation byte) then
              tail (read + 1) missing more
            else
              some (some read)
      if width == 0 then
        some (index, some 1)
      else
        match tail 1 (width - 1) rest with
        | some rejected => some (index, rejected)
        | none => utf8Error fuel (index + width) (rest.drop (width - 1))

/-- The text of a UTF-8 validation error. -/
def utf8ErrorText (bytes : Bytes) : String :=
  match utf8Error bytes.length 0 bytes with
  | some (index, some rejected) =>
      "invalid utf-8 sequence of " ++ toString rejected ++ " bytes from index " ++
        toString index
  | some (index, none) => "incomplete utf-8 byte sequence from index " ++ toString index
  | none => ""

@[simp] theorem fromUtf8_utf8 (text : String) : fromUtf8 (utf8 text) = some text := by
  have same : (⟨(utf8 text).toArray⟩ : ByteArray) = text.toByteArray := by
    simp [utf8]
  unfold fromUtf8
  rw [same]
  simp [String.fromUTF8?, String.fromUTF8, text.isValidUTF8]

end DfeClickhouse.Library

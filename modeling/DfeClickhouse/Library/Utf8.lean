import DfeClickhouse.Library.Bytes

/-!
# UTF-8, character by character

A string's bytes are those of its characters, one after the other.  An ASCII
character is its own byte; the bytes of every other one are outside of ASCII, so
replacing ASCII bytes in a UTF-8 text is the same as replacing ASCII characters.
-/

namespace DfeClickhouse.Library

/-- The UTF-8 bytes of characters. -/
def encode (text : List Char) : Bytes := text.flatMap String.utf8EncodeChar

@[simp] theorem encode_nil : encode [] = [] := rfl

theorem encode_cons (char : Char) (rest : List Char) :
    encode (char :: rest) = encode [char] ++ encode rest := by
  simp [encode]

@[simp, grind =] theorem encode_append (front back : List Char) :
    encode (front ++ back) = encode front ++ encode back :=
  List.flatMap_append

theorem encode_intercalate (separator : List Char) (parts : List (List Char)) :
    encode (separator.intercalate parts) = (encode separator).intercalate (parts.map encode) := by
  induction parts with
  | nil => rfl
  | cons first rest ih =>
      cases rest with
      | nil => simp [List.intercalate_singleton]
      | cons second rest =>
          rw [List.map_cons, List.map_cons, List.intercalate_cons_cons,
            List.intercalate_cons_cons, encode_append, encode_append, ih, List.map_cons]

theorem utf8_eq_encode (text : String) : utf8 text = encode text.toList := by
  rw [utf8, ← String.utf8Encode_toList, List.utf8Encode, encode, List.data_toByteArray]

theorem utf8_of_fromUtf8 {bytes : Bytes} {text : String} (decoded : fromUtf8 bytes = some text) :
    bytes = encode text.toList := by
  unfold fromUtf8 String.fromUTF8? at decoded
  split at decoded
  · cases decoded
    rw [← utf8_eq_encode, utf8]
    rfl
  · cases decoded

@[simp] theorem fromUtf8_encode (text : List Char) :
    fromUtf8 (encode text) = some (String.ofList text) := by
  rw [← fromUtf8_utf8, utf8_eq_encode, String.toList_ofList]

theorem encode_ascii {char : Char} (ascii : char.toNat < 0x80) :
    encode [char] = [UInt8.ofNat char.toNat] := by
  have small : char.val.toNat ≤ 0x7F := Nat.le_of_lt_succ ascii
  rw [encode, List.flatMap_singleton, String.utf8EncodeChar, if_pos small]
  rfl

/-- The bytes of a character outside of ASCII are outside of ASCII. -/
theorem le_of_mem_encode {char : Char} (wide : 0x80 ≤ char.toNat) {byte : UInt8}
    (member : byte ∈ encode [char]) : 0x80 ≤ byte.toNat := by
  have large : ¬ char.val.toNat ≤ 0x7F := Nat.not_le.mpr wide
  rw [encode, List.flatMap_singleton, String.utf8EncodeChar, if_neg large] at member
  split at member
  all_goals try split at member
  all_goals
    simp only [List.mem_cons, List.not_mem_nil, or_false] at member
    casesm* _ ∨ _
    all_goals
      subst_vars
      rw [UInt8.toNat_ofNat']
      omega

/-- Replacing the ASCII bytes of a text replaces its ASCII characters. -/
theorem encode_flatMap_bytes {replace : UInt8 → Bytes} {replaceChar : Char → List Char}
    (ascii : ∀ char : Char, char.toNat < 0x80 →
      replace (UInt8.ofNat char.toNat) = encode (replaceChar char))
    (wide : ∀ char : Char, 0x80 ≤ char.toNat → replaceChar char = [char])
    (others : ∀ byte : UInt8, 0x80 ≤ byte.toNat → replace byte = [byte]) (text : List Char) :
    (encode text).flatMap replace = encode (text.flatMap replaceChar) := by
  induction text with
  | nil => rfl
  | cons char rest ih =>
      rw [encode_cons, List.flatMap_append, List.flatMap_cons, encode_append, ih]
      congr 1
      by_cases small : char.toNat < 0x80
      · rw [encode_ascii small, List.flatMap_singleton, ascii char small]
      · have kept : ∀ byte ∈ encode [char], replace byte = [byte] := fun byte member =>
          others byte (le_of_mem_encode (by omega) member)
        rw [wide char (by omega), List.flatMap_congr kept, List.flatMap_singleton']

end DfeClickhouse.Library

import DfeClickhouse.Library.JsonString
import DfeClickhouse.Native.JsonValidity

/-!
# Quoting can be undone

The bytes of a text, quoted, are a string of the JSON grammar; its reader gives the bytes
back, so two texts are never quoted alike.
-/

namespace DfeClickhouse.Native

open Library JsonString

theorem unitOf_ascii : ∀ code < 0x80, unitOf (quoteChar (Char.ofNat code)) = some code := by
  decide

/-- Every character is quoted as one part that stands for it. -/
theorem part_quoteChar (char : Char) : JsonString.Part (quoteChar char) char.toNat := by
  by_cases ascii : char.toNat < 0x80
  · apply part_of_unitOf
    have known := unitOf_ascii char.toNat ascii
    rwa [Char.ofNat_toNat] at known
  · have plain : isUnescaped char = true := by
      have notQuote : char ≠ '"' := by
        rintro rfl
        exact ascii (by decide)
      have notBackslash : char ≠ '\\' := by
        rintro rfl
        exact ascii (by decide)
      have printable : 0x20 ≤ char.toNat := by omega
      simp [isUnescaped, notQuote, notBackslash, printable]
    rw [quoteChar, if_neg ascii]
    exact .unescaped plain

theorem jsonQuoteBytes_encode (text : List Char) :
    jsonQuoteBytes (encode text) = encode ('"' :: (text.flatMap quoteChar ++ ['"'])) := by
  rw [jsonQuoteBytes, flatMap_jsonQuoteByte, encode_cons, encode_append, List.append_assoc]
  rfl

/-- The quoted bytes of a text are a string of the grammar and are read back, and no other
text is quoted alike. -/
structure QuotesBack (bytes : Bytes) : Prop where
  literal : ∃ text, fromUtf8 (jsonQuoteBytes bytes) = some text ∧ IsString text.toList
  unquoted : unquoteBytes (jsonQuoteBytes bytes) = some bytes
  injective : ∀ other, (fromUtf8 other).isSome = true →
    jsonQuoteBytes bytes = jsonQuoteBytes other → bytes = other

@[simp] theorem unquoteBytes_jsonQuoteBytes (text : List Char) :
    unquoteBytes (jsonQuoteBytes (encode text)) = some (encode text) := by
  have read := (unquote_spelled text fun char _ => part_quoteChar char).2
  rw [unquoteBytes, jsonQuoteBytes_encode, fromUtf8_encode, Option.bind_some,
    String.toList_ofList, read, Option.map_some]

/-- Quoting a valid UTF-8 byte string can be undone. -/
theorem quotesBack_of_utf8 {bytes : Bytes} (valid : (fromUtf8 bytes).isSome = true) :
    QuotesBack bytes := by
  obtain ⟨text, decoded⟩ := Option.isSome_iff_exists.mp valid
  obtain rfl := utf8_of_fromUtf8 decoded
  constructor
  · have isString := (unquote_spelled text.toList fun char _ => part_quoteChar char).1
    refine ⟨String.ofList ('"' :: (text.toList.flatMap quoteChar ++ ['"'])), ?_, ?_⟩
    · rw [jsonQuoteBytes_encode, fromUtf8_encode]
    · rwa [String.toList_ofList]
  · exact unquoteBytes_jsonQuoteBytes text.toList
  · intro other validOther same
    obtain ⟨otherText, decodedOther⟩ := Option.isSome_iff_exists.mp validOther
    obtain rfl := utf8_of_fromUtf8 decodedOther
    have read := unquoteBytes_jsonQuoteBytes text.toList
    rw [same, unquoteBytes_jsonQuoteBytes] at read
    exact (Option.some.inj read).symm

/-- A quotation mark, a control character and a character outside of ASCII. -/
theorem quotesBack_of_utf8_marks : QuotesBack (utf8 "\"\x01é") :=
  quotesBack_of_utf8 (by rw [fromUtf8_utf8]; rfl)

end DfeClickhouse.Native

import DfeClickhouse.Library.DecimalText
import DfeClickhouse.Library.Utf8
import DfeClickhouse.Native.RenderAgreement

/-!
# Validity of the rendered JSON

The renderer joins its texts by hand.  Numbers, strings, `null`, arrays and tuples
come out as JSON values, and so do maps whose keys are rendered in quotes.  A map key
is rendered like any other value, though: an entry whose key is a number, `null`, an
array or a map is no member of a JSON object, and the document around it is not valid.
-/

namespace DfeClickhouse.Native

open Library RowValue Json

/-- The bytes spell a text that is read as one value, if it is `valid`, and that is
refused otherwise; it opens with a quote if it is `quoted`. -/
def Shows (bytes : Bytes) (valid quoted : Bool) : Prop :=
  ∃ text first, bytes = encode text ∧
    (valid = true → IsValue text) ∧ (valid = false → NoValue text) ∧
    firstVisible text = some first ∧ first ≠ '\x7d' ∧ (first = '"' ↔ quoted = true)

theorem Shows.validJson {bytes : Bytes} {valid quoted : Bool} (shown : Shows bytes valid quoted) :
    validJson bytes = valid := by
  obtain ⟨text, first, rfl, isValue, noValue, _⟩ := shown
  rw [Json.validJson, fromUtf8_encode]
  dsimp only
  rw [String.toList_ofList]
  cases valid with
  | true => exact isValue_iff_isDocument.mp (isValue rfl)
  | false => exact not_isDocument_of_noValue (noValue rfl)

theorem shows_of_isValue {bytes : Bytes} {text : List Char} {first : Char} {quoted : Bool}
    (spelled : bytes = encode text) (isValue : IsValue text)
    (opens : firstVisible text = some first) (outside : first ≠ '\x7d')
    (quote : first = '"' ↔ quoted = true) : Shows bytes true quoted :=
  ⟨text, first, spelled, fun _ => isValue, nofun, opens, outside, quote⟩

theorem shows_null : Shows (utf8 "null") true false :=
  shows_of_isValue (utf8_eq_encode "null") (isValue_iff_isDocument.mpr rfl) rfl
    (by decide) (by decide)

/-- A number is shown without quotes. -/
theorem shows_number {text : String} {sign whole fraction : List Char}
    (split : text.toList = sign ++ (whole ++ fraction)) (signed : sign = [] ∨ sign = ['-'])
    (isWhole : IsWhole whole) (isFraction : IsFraction fraction) :
    Shows (utf8 text) true false := by
  obtain ⟨first, opens, unquoted, outside⟩ := firstVisible_number signed isWhole fraction
  rw [← split] at opens
  refine shows_of_isValue (utf8_eq_encode text) ?_ opens outside (by simp [unquoted])
  rw [split]
  exact isValue_number signed isWhole isFraction

theorem shows_int (value : Int) : Shows (utf8 (toString value)) true false := by
  have split : (toString value).toList =
      (if value < 0 then ['-'] else []) ++ (Nat.toDigits 10 value.natAbs ++ []) := by
    rw [toList_toString_int, List.append_nil]
  refine shows_number split ?_ (isWhole_toDigits _) (.inl rfl)
  split
  · exact .inr rfl
  · exact .inl rfl

theorem shows_nat (value : Nat) : Shows (utf8 (toString value)) true false :=
  shows_int value

theorem shows_float (value : Binary64) : Shows (utf8 (formatFloatJson value)) true false := by
  unfold formatFloatJson
  split
  · exact shows_null
  · rename_i finite
    simp only [Bool.or_eq_true, not_or, Bool.not_eq_true] at finite
    obtain ⟨sign, whole, fraction, split, signed, isWhole, isFraction⟩ :=
      Binary64.display_number finite.1 finite.2
    exact shows_number split signed isWhole isFraction

theorem shows_quoted {bytes : Bytes} {text : List Char} (spelled : bytes = encode text)
    (inside : StaysInString text) : Shows ([0x22] ++ bytes ++ [0x22]) true true := by
  have between : [0x22] ++ bytes ++ [0x22] = encode ('"' :: (text ++ ['"'])) := by
    rw [encode_cons, encode_append, spelled, List.append_assoc]
    rfl
  exact shows_of_isValue between (isValue_quoted inside) rfl (by decide) (by decide)

/-- The characters a quoted character is rendered with. -/
def quoteChar (char : Char) : List Char :=
  if char.toNat < 0x80 then
    (jsonQuoteByte (UInt8.ofNat char.toNat)).map fun byte => Char.ofNat byte.toNat
  else
    [char]

theorem jsonQuoteByte_ascii : ∀ code < 0x80,
    jsonQuoteByte (UInt8.ofNat code) = encode (quoteChar (Char.ofNat code)) := by
  decide

theorem staysInString_ascii : ∀ code < 0x80, StaysInString (quoteChar (Char.ofNat code)) := by
  decide

theorem staysInString_quoteChar (char : Char) : StaysInString (quoteChar char) := by
  by_cases ascii : char.toNat < 0x80
  · have shown := staysInString_ascii char.toNat ascii
    rw [Char.ofNat_toNat] at shown
    exact shown
  · rw [quoteChar, if_neg ascii]
    apply staysInString_plain
    · rintro rfl
      exact ascii (by decide)
    · rintro rfl
      exact ascii (by decide)
    · omega

theorem jsonQuoteByte_wide {byte : UInt8} (wide : 0x80 ≤ byte.toNat) :
    jsonQuoteByte byte = [byte] := by
  have other (code : UInt8) (ascii : code.toNat < 0x80) : byte ≠ code := by
    rintro rfl
    omega
  have printable : ¬ byte < 0x20 := by
    rw [UInt8.lt_iff_toNat_lt]
    have code : (0x20 : UInt8).toNat = 0x20 := rfl
    omega
  rw [jsonQuoteByte, if_neg (other _ (by decide)), if_neg (other _ (by decide)),
    if_neg (other _ (by decide)), if_neg (other _ (by decide)), if_neg (other _ (by decide)),
    if_neg printable]

/-- Quoting the bytes of a text quotes its characters. -/
theorem flatMap_jsonQuoteByte (text : List Char) :
    (encode text).flatMap jsonQuoteByte = encode (text.flatMap quoteChar) := by
  apply encode_flatMap_bytes
  · intro char ascii
    rw [jsonQuoteByte_ascii char.toNat ascii, Char.ofNat_toNat]
  · intro char wide
    rw [quoteChar, if_neg (by omega)]
  · intro byte wide
    exact jsonQuoteByte_wide wide

/-- Quoting the bytes of a text shows a string. -/
theorem shows_jsonQuoteBytes {bytes : Bytes} (spelled : (fromUtf8 bytes).isSome = true) :
    Shows (jsonQuoteBytes bytes) true true := by
  obtain ⟨text, decoded⟩ := Option.isSome_iff_exists.mp spelled
  have quoted : bytes.flatMap jsonQuoteByte = encode (text.toList.flatMap quoteChar) := by
    rw [utf8_of_fromUtf8 decoded]
    exact flatMap_jsonQuoteByte text.toList
  exact shows_quoted quoted (staysInString_flatMap fun char _ => staysInString_quoteChar char)

/-- A character that stands for itself in a string. -/
def isPlain (char : Char) : Bool :=
  char != '"' && char != '\\' && 0x20 ≤ char.toNat

theorem shows_quotedText {text : String} (plain : ∀ char ∈ text.toList, isPlain char = true) :
    Shows (quotedText text) true true := by
  have spelled : quotedText text = [0x22] ++ utf8 text ++ [0x22] := by
    rw [quotedText, utf8_eq_encode, String.toList_append, String.toList_append, encode_append,
      encode_append, utf8_eq_encode]
    rfl
  have each : StaysInString (text.toList.flatMap fun char => [char]) := by
    apply staysInString_flatMap
    intro char member
    have allowed := plain char member
    simp only [isPlain, Bool.and_eq_true, bne_iff_ne, decide_eq_true_eq] at allowed
    exact staysInString_plain allowed.1.1 allowed.1.2 allowed.2
  rw [List.flatMap_singleton'] at each
  rw [spelled]
  exact shows_quoted (utf8_eq_encode text) each

theorem isPlain_digitChar : ∀ digit < 16, isPlain (Nat.digitChar digit) = true := by
  decide

theorem isPlain_toDigits {base value : Nat} (least : 1 < base) (greatest : base ≤ 16) :
    ∀ char ∈ Nat.toDigits base value, isPlain char = true := by
  induction value using Nat.strong_induction_on with
  | _ value ih =>
      by_cases small : value < base
      · rw [Nat.toDigits_of_lt_base small]
        intro char member
        rw [List.mem_singleton.mp member]
        exact isPlain_digitChar value (by omega)
      · rw [Nat.toDigits_of_base_le least (by omega)]
        intro char member
        rcases List.mem_append.mp member with member | member
        · exact ih (value / base) (Nat.div_lt_self (by omega) least) char member
        · rw [List.mem_singleton.mp member]
          have remainder : value % base < base := Nat.mod_lt value (by omega)
          exact isPlain_digitChar _ (by omega)

theorem isPlain_hexText (width value : Nat) :
    ∀ char ∈ (hexText width value).toList, isPlain char = true := by
  intro char member
  rw [hexText, String.toList_ofList] at member
  rcases List.mem_append.mp member with zero | digit
  · rw [List.eq_of_mem_replicate zero]
    rfl
  · exact isPlain_toDigits (by decide) (by decide) char digit

theorem isPlain_toString (value : Nat) :
    ∀ char ∈ (toString value).toList, isPlain char = true := by
  rw [show (toString value).toList = Nat.toDigits 10 value from Nat.toList_repr]
  exact isPlain_toDigits (by decide) (by decide)

theorem isPlain_append {front back : String}
    (frontPlain : ∀ char ∈ front.toList, isPlain char = true)
    (backPlain : ∀ char ∈ back.toList, isPlain char = true) :
    ∀ char ∈ (front ++ back).toList, isPlain char = true := by
  rw [String.toList_append]
  exact List.forall_mem_append.mpr ⟨frontPlain, backPlain⟩

theorem isPlain_ipv4Text (address : Nat) :
    ∀ char ∈ (ipv4Text address).toList, isPlain char = true := by
  have dot : ∀ char ∈ ".".toList, isPlain char = true := List.all_eq_true.mp rfl
  have part (front : String) (value : Nat) (plain : ∀ char ∈ front.toList, isPlain char = true) :
      ∀ char ∈ (front ++ "." ++ toString value).toList, isPlain char = true :=
    isPlain_append (isPlain_append plain dot) (isPlain_toString value)
  rw [ipv4Text]
  exact part _ _ (part _ _ (part _ _ (isPlain_toString _)))

theorem isPlain_segmentsText (segments : List Nat) :
    ∀ char ∈ (segmentsText segments).toList, isPlain char = true := by
  rw [segmentsText, String.toList_intercalate]
  induction segments with
  | nil => simp
  | cons segment segments ih =>
      cases segments with
      | nil => simpa using isPlain_hexText 1 segment
      | cons second segments =>
          rw [List.map_cons, List.map_cons, List.map_cons, List.map_cons,
            List.intercalate_cons_cons]
          intro char member
          rcases List.mem_append.mp member with member | later
          · rcases List.mem_append.mp member with shown | colon
            · exact isPlain_hexText 1 segment char shown
            · rw [List.mem_singleton.mp colon]
              rfl
          · exact ih char later

theorem isPlain_ipv6Text (bytes : Bytes) :
    ∀ char ∈ (ipv6Text bytes).toList, isPlain char = true := by
  unfold ipv6Text
  dsimp only
  split
  · exact isPlain_append (List.all_eq_true.mp rfl) (isPlain_ipv4Text _)
  · split
    · exact isPlain_append (isPlain_append (isPlain_segmentsText _) (List.all_eq_true.mp rfl))
        (isPlain_segmentsText _)
    · exact isPlain_segmentsText _

theorem isPlain_uuidText (bytes : Bytes) :
    ∀ char ∈ (uuidText bytes).toList, isPlain char = true := by
  have digits := isPlain_append (isPlain_hexText 16 (leNat (bytes.take 8)))
    (isPlain_hexText 16 (leNat (bytes.drop 8)))
  unfold uuidText
  dsimp only
  generalize (hexText 16 (leNat (bytes.take 8)) ++ hexText 16 (leNat (bytes.drop 8))).toList =
    hex at digits
  have hyphen : isPlain '-' = true := rfl
  have front (count : Nat) : ∀ char ∈ hex.take count, isPlain char = true :=
    fun char member => digits char (List.mem_of_mem_take member)
  have back (count : Nat) : ∀ char ∈ hex.drop count, isPlain char = true :=
    fun char member => digits char (List.mem_of_mem_drop member)
  have middle (skipped count : Nat) : ∀ char ∈ (hex.drop skipped).take count, isPlain char = true :=
    fun char member => back skipped char (List.mem_of_mem_take member)
  simp only [String.toList_ofList, List.forall_mem_append, List.forall_mem_cons]
  exact ⟨⟨⟨⟨front 8, hyphen, middle 8 4⟩, hyphen, middle 12 4⟩, hyphen, middle 16 4⟩,
    hyphen, back 20⟩

theorem isPlain_join (texts : List String)
    (each : ∀ text ∈ texts, ∀ char ∈ text.toList, isPlain char = true) :
    ∀ char ∈ (String.join texts).toList, isPlain char = true := by
  rw [String.toList_join]
  intro char member
  obtain ⟨text, listed, held⟩ := List.mem_flatMap.mp member
  exact each text listed char held

/-- The text of a JSON document opens with a quote. -/
def opensQuoted (bytes : Bytes) : Bool :=
  (fromUtf8 bytes).bind (fun text => firstVisible text.toList) == some '"'

mutual

/-- The strings inside a value are UTF-8, and its JSON texts are valid. -/
def payloadsValid : ColumnType → RowValue → Bool
  | .string, value | .json, value | .fixedString _, value => (fromUtf8 value.bytes).isSome
  | .newJson, value | .variant _, value | .dynamic, value => validJson value.bytes
  | .nullable inner, value =>
      match value with
      | present held => payloadsValid inner held
      | _ => true
  | .lowCardinality inner, value | .simpleAggregateFunction inner, value =>
      payloadsValid inner value
  | .array inner, value => value.elements.all fun element => payloadsValid inner element
  | .map keyType valType, value => value.elements.all fun entry =>
      payloadsValid keyType entry.entryKey && payloadsValid valType entry.entryValue
  | .tuple types, value => fieldPayloadsValid types value.fields
  | _, _ => true

/-- The payloads of tuple fields. -/
def fieldPayloadsValid : List ColumnType → List RowValue → Bool
  | type :: types, field :: fields => payloadsValid type field && fieldPayloadsValid types fields
  | _, _ => true

end

/-- The value is rendered in quotes. -/
def quoted : ColumnType → RowValue → Bool
  | .string, _ | .json, _ | .fixedString _, _ | .uuid, _ | .iPv4, _ | .iPv6, _ => true
  | .int256, _ | .uInt256, _ | .decimal256 .., _ => true
  | .newJson, value | .variant _, value | .dynamic, value => opensQuoted value.bytes
  | .nullable inner, value =>
      match value with
      | present held => quoted inner held
      | _ => false
  | .lowCardinality inner, value | .simpleAggregateFunction inner, value => quoted inner value
  | _, _ => false

mutual

/-- Every key of every map inside a value is rendered in quotes.  A quoted key is no
map itself and has none inside. -/
def keysQuoted : ColumnType → RowValue → Bool
  | .nullable inner, value =>
      match value with
      | present held => keysQuoted inner held
      | _ => true
  | .lowCardinality inner, value | .simpleAggregateFunction inner, value => keysQuoted inner value
  | .array inner, value => value.elements.all fun element => keysQuoted inner element
  | .map keyType valType, value => value.elements.all fun entry =>
      quoted keyType entry.entryKey && keysQuoted valType entry.entryValue
  | .tuple types, value => fieldKeysQuoted types value.fields
  | _, _ => true

/-- The keys of the maps inside tuple fields. -/
def fieldKeysQuoted : List ColumnType → List RowValue → Bool
  | type :: types, field :: fields => keysQuoted type field && fieldKeysQuoted types fields
  | _, _ => true

end

theorem keysQuoted_of_fixed {colType : ColumnType} {width : Nat}
    (fixed : colType.fixedSize = some width) (value : RowValue) :
    keysQuoted colType value = true := by
  cases colType
  all_goals first
    | cases fixed
      done
    | rfl

theorem keysQuoted_of_quoted {colType : ColumnType} {value : RowValue}
    (inQuotes : quoted colType value = true) : keysQuoted colType value = true := by
  induction colType using ColumnType.induction_forms generalizing value with
  | nullable inner ih =>
      cases value with
      | present held => exact ih inQuotes
      | _ => cases inQuotes
  | lowCardinality inner ih | simpleAggregateFunction inner ih => exact ih inQuotes
  | array | tuple | map => cases inQuotes
  | fixed colType width fixed => exact keysQuoted_of_fixed fixed value
  | _ => rfl

theorem rowbinaryToJson_fixed {colType : ColumnType} {width : Nat} {text : Bytes → Bytes}
    {bytes : Bytes} (renderer : rowbinaryToJsonInner colType = renderFixed width text)
    (sized : bytes.length = width) : rowbinaryToJson bytes colType = text bytes := by
  have alone := @renders_fixed width text bytes sized []
  rw [List.append_nil, ← renderer] at alone
  rw [rowbinaryToJson, alone]

theorem shows_scalar {colType : ColumnType} {width : Nat} (fixed : colType.fixedSize = some width)
    {bytes : Bytes} (sized : bytes.length = width)
    (payload : payloadsValid colType (raw bytes) = true) :
    Shows (rowbinaryToJson bytes colType) true (quoted colType (raw bytes)) := by
  have hex : ∀ char ∈ (String.join (bytes.reverse.map fun byte => hexText 2 byte.toNat)).toList,
      isPlain char = true := by
    apply isPlain_join
    intro text member
    obtain ⟨byte, _, rfl⟩ := List.mem_map.mp member
    exact isPlain_hexText 2 byte.toNat
  have shown {text : Bytes → Bytes} (renderer : rowbinaryToJsonInner colType =
      renderFixed width text) :
      rowbinaryToJson bytes colType = text bytes := rowbinaryToJson_fixed renderer sized
  cases colType with
  | uInt8 | uInt16 | date | uInt32 | time | dateTime | uInt64 | uInt128 =>
      cases fixed
      rw [shown rfl]
      exact shows_nat _
  | int8 | enum8 | int16 | enum16 | int32 | decimal32 | date32 | int64 | time64 | decimal64
  | dateTime64 | int128 | decimal128 =>
      cases fixed
      rw [shown rfl]
      exact shows_int _
  | float32 | float64 | bFloat16 =>
      cases fixed
      rw [shown rfl]
      exact shows_float _
  | int256 | uInt256 | decimal256 =>
      cases fixed
      rw [shown rfl]
      exact shows_quotedText hex
  | uuid =>
      cases fixed
      rw [shown rfl]
      exact shows_quotedText (isPlain_uuidText bytes)
  | iPv4 =>
      cases fixed
      rw [shown rfl]
      exact shows_quotedText (isPlain_ipv4Text _)
  | iPv6 =>
      cases fixed
      rw [shown rfl]
      exact shows_quotedText (isPlain_ipv6Text bytes)
  | fixedString =>
      cases fixed
      rw [shown rfl]
      exact shows_jsonQuoteBytes payload
  | _ => cases fixed

theorem shows_spliced {bytes : Bytes} (valid : validJson bytes = true) :
    Shows bytes true (opensQuoted bytes) := by
  unfold validJson at valid
  split at valid
  · rename_i text decoded
    have isValue := isValue_iff_isDocument.mpr valid
    obtain ⟨first, opens, outside⟩ := isValue.exists_first
    refine shows_of_isValue (utf8_of_fromUtf8 decoded) isValue opens outside ?_
    simp [opensQuoted, decoded, opens]
  · cases valid

/-- The bytes spell one item of an array or an object, or a text that is refused. -/
def ShowsItem (kind : Nesting) (bytes : Bytes) (valid : Bool) : Prop :=
  ∃ text, bytes = encode text ∧ (valid = true → kind.IsItem text) ∧
    (valid = false → kind.NoItem text)

/-- The same for all items. -/
def ShowsItems (kind : Nesting) (parts : List Bytes) (valid : Bool) : Prop :=
  ∃ items : List (List Char), parts = items.map encode ∧
    (∀ item ∈ items, kind.IsItem item ∨ kind.NoItem item) ∧
    (valid = true → ∀ item ∈ items, kind.IsItem item) ∧
    (valid = false → ∃ item ∈ items, kind.NoItem item)

theorem showsItems_nil (kind : Nesting) : ShowsItems kind [] true :=
  ⟨[], rfl, by simp, by simp, nofun⟩

theorem ShowsItem.cons {kind : Nesting} {part : Bytes} {parts : List Bytes} {valid valids : Bool}
    (first : ShowsItem kind part valid) (rest : ShowsItems kind parts valids) :
    ShowsItems kind (part :: parts) (valid && valids) := by
  obtain ⟨item, rfl, isItem, noItem⟩ := first
  obtain ⟨items, rfl, each, allItems, someNoItem⟩ := rest
  refine ⟨item :: items, rfl, ?_, ?_, ?_⟩
  · refine List.forall_mem_cons.mpr ⟨?_, each⟩
    cases valid with
    | true => exact .inl (isItem rfl)
    | false => exact .inr (noItem rfl)
  · intro both
    rw [Bool.and_eq_true] at both
    exact List.forall_mem_cons.mpr ⟨isItem both.1, allItems both.2⟩
  · intro either
    rcases Bool.and_eq_false_iff.mp either with failing | failing
    · exact ⟨item, by simp, noItem failing⟩
    · obtain ⟨other, member, fails⟩ := someNoItem failing
      exact ⟨other, by simp [member], fails⟩

theorem showsItems_map {α : Type} {kind : Nesting} {elements : List α} {shown : α → Bytes}
    {valid : α → Bool}
    (each : ∀ element ∈ elements, ShowsItem kind (shown element) (valid element)) :
    ShowsItems kind (elements.map shown) (elements.all valid) := by
  induction elements with
  | nil => exact showsItems_nil kind
  | cons element elements ih =>
      rw [List.map_cons, List.all_cons]
      exact (each element (by simp)).cons (ih fun element member => each element (by simp [member]))

/-- Items between brackets. -/
theorem ShowsItems.bracketed {kind : Nesting} {parts : List Bytes} {valid : Bool}
    (shown : ShowsItems kind parts valid) {opening closing : String}
    (opens : opening.toList = [kind.opening]) (closes : closing.toList = [kind.closing]) :
    Shows (bracketed opening closing parts) valid false := by
  obtain ⟨items, rfl, each, allItems, someNoItem⟩ := shown
  refine ⟨kind.bracket items, kind.opening, ?_, ?_, ?_, kind.firstVisible_bracket items, ?_, ?_⟩
  · have joined : encode (kind.bracket items) =
        encode [kind.opening] ++ ((encode [',']).intercalate (items.map encode) ++
          encode [kind.closing]) := by
      rw [Nesting.bracket, encode_cons, encode_append, encode_intercalate]
    rw [joined, Native.bracketed, utf8_eq_encode, utf8_eq_encode, utf8_eq_encode, opens, closes,
      List.append_assoc]
    rfl
  · intro all
    exact Nesting.isValue_bracket (allItems all)
  · intro failing
    exact Nesting.noValue_bracket each (someNoItem failing)
  · cases kind
    all_goals decide
  · cases kind
    all_goals decide

theorem Shows.element {bytes : Bytes} {valid inQuotes : Bool} (shown : Shows bytes valid inQuotes) :
    ShowsItem .array bytes valid := by
  obtain ⟨text, _, spelled, isValue, noValue, _⟩ := shown
  exact ⟨text, spelled, fun holds => isItem_element (isValue holds),
    fun fails => noItem_element (noValue fails)⟩

/-- An entry of a map is a member of an object if its key is in quotes and its value is
valid. -/
theorem Shows.entry {key value : Bytes} {keyValid keyQuoted valid inQuotes : Bool}
    (keyShown : Shows key keyValid keyQuoted) (sound : keyQuoted = true → keyValid = true)
    (shown : Shows value valid inQuotes) :
    ShowsItem .object (key ++ utf8 ":" ++ value) (keyQuoted && valid) := by
  obtain ⟨keyText, first, rfl, keyIsValue, _, opens, outside, quote⟩ := keyShown
  obtain ⟨text, _, rfl, isValue, noValue, _⟩ := shown
  refine ⟨Json.entry keyText text, ?_, ?_, ?_⟩
  · rw [Json.entry, encode_append, encode_cons, utf8_eq_encode, List.append_assoc]
    rfl
  · intro both
    rw [Bool.and_eq_true] at both
    rw [quote.mpr both.1] at opens
    exact isItem_entry (isKey_of_quoted (keyIsValue (sound both.1)) opens) (isValue both.2)
  · intro either
    by_cases unquoted : keyQuoted = true
    · rw [unquoted, Bool.true_and] at either
      rw [quote.mpr unquoted] at opens
      exact noItem_of_noValue (isKey_of_quoted (keyIsValue (sound unquoted)) opens)
        (noValue either)
    · exact noItem_of_noKey (noKey_of_unquoted opens (mt quote.mp unquoted) outside) text

theorem showsItems_fieldTexts {types : List ColumnType} {fields : List RowValue}
    (each : ∀ type ∈ types, ∀ field, ReadAs type field → payloadsValid type field = true →
      Shows (jsonOf type field) (keysQuoted type field) (quoted type field))
    (read : FieldsReadAs types fields) (payloads : fieldPayloadsValid types fields = true) :
    ShowsItems .array (fieldTexts types fields) (fieldKeysQuoted types fields) := by
  induction types generalizing fields with
  | nil =>
      obtain rfl : fields = [] := read
      exact showsItems_nil .array
  | cons type types ih =>
      obtain ⟨field, others, rfl, fieldRead, othersRead⟩ := read
      rw [fieldPayloadsValid, Bool.and_eq_true] at payloads
      rw [fieldTexts, fieldKeysQuoted]
      exact (each type (by simp) field fieldRead payloads.1).element.cons
        (ih (fun type member => each type (by simp [member])) othersRead payloads.2)

/-- The text of a value is a JSON value exactly if the keys inside are in quotes. -/
theorem shows_jsonOf {colType : ColumnType} {value : RowValue} (read : ReadAs colType value)
    (payloads : payloadsValid colType value = true) :
    Shows (jsonOf colType value) (keysQuoted colType value) (quoted colType value) := by
  induction colType using ColumnType.induction_forms generalizing value with
  | fixed colType width fixed =>
      obtain ⟨bytes, rfl, sized⟩ := (readAs_of_fixed fixed).mp read
      rw [(exists_renderFixed fixed).2, keysQuoted_of_fixed fixed]
      exact shows_scalar fixed sized payloads
  | string | json => exact shows_jsonQuoteBytes payloads
  | newJson | dynamic | variant => exact shows_spliced payloads
  | point =>
      obtain ⟨bytes, rfl, sized⟩ := read
      have coordinates : ShowsItems .array
          [utf8 (formatFloatJson (scalarOfBytes 8 (bytes.take 8))),
            utf8 (formatFloatJson (scalarOfBytes 8 (bytes.drop 8)))] true :=
        (shows_float _).element.cons ((shows_float _).element.cons (showsItems_nil .array))
      have shown : jsonOf .point (raw bytes) = _ := rowbinaryToJson_fixed rfl sized
      rw [shown]
      exact coordinates.bracketed rfl rfl
  | nullable inner ih =>
      rcases read with rfl | ⟨held, rfl, heldRead⟩
      · exact shows_null
      · exact ih heldRead payloads
  | lowCardinality inner ih | simpleAggregateFunction inner ih => exact ih read payloads
  | array inner ih =>
      obtain ⟨elements, rfl, _, elementsRead⟩ := read
      rw [payloadsValid, List.all_eq_true] at payloads
      have items : ShowsItems .array (elements.map fun element => jsonOf inner element)
          (elements.all fun element => keysQuoted inner element) :=
        showsItems_map fun element member =>
          (ih (elementsRead element member) (payloads element member)).element
      exact items.bracketed rfl rfl
  | map keyType valType keyIh valIh =>
      obtain ⟨entries, rfl, _, entriesRead⟩ := read
      rw [payloadsValid, List.all_eq_true] at payloads
      have items : ShowsItems .object
          (entries.map fun entry =>
            jsonOf keyType entry.entryKey ++ utf8 ":" ++ jsonOf valType entry.entryValue)
          (entries.all fun entry =>
            quoted keyType entry.entryKey && keysQuoted valType entry.entryValue) := by
        apply showsItems_map
        intro entry member
        have entryPayloads := payloads entry member
        rw [Bool.and_eq_true] at entryPayloads
        obtain ⟨key, held, rfl, keyRead, heldRead⟩ := entriesRead entry member
        exact (keyIh keyRead entryPayloads.1).entry keysQuoted_of_quoted
          (valIh heldRead entryPayloads.2)
      exact items.bracketed rfl rfl
  | tuple types ih =>
      obtain ⟨fields, rfl, fieldsRead⟩ := read
      exact (showsItems_fieldTexts (fun type member field => ih type member) fieldsRead
        payloads).bracketed rfl rfl

/-- A cell of the reader is rendered as a valid JSON document exactly if the keys of the
maps inside are rendered in quotes, given that its strings are UTF-8 and its JSON texts
valid. -/
theorem validJson_rowbinaryToJson (colType : ColumnType) (count depth : Nat) (input : Bytes)
    {cells : ColumnData} {unread : Bytes}
    (read : readColumnAt colType count depth input = .ok (cells, unread)) (cell : ByteString)
    (member : cell.bytes ∈ cells) :
    (∃ value, ReadAs colType value ∧ value.rowBinary = cell.bytes) ∧
      ∀ value, ReadAs colType value → value.rowBinary = cell.bytes →
        payloadsValid colType value = true →
          (validJson (rowbinaryToJson cell.bytes colType) = true ↔
            keysQuoted colType value = true) := by
  constructor
  · exact (yields_readColumnAt colType count depth input cells unread read).2 _ member
  · intro value valueRead same payloads
    have small := cell.bounded
    rw [← same] at small
    have rendered := renders_value valueRead small []
    rw [List.append_nil, same] at rendered
    rw [rowbinaryToJson, rendered, (shows_jsonOf valueRead payloads).validJson]

/-- The entry of the number 9 under a key, in a map with one entry. -/
def keyedCell : ByteString where
  bytes := [1, 1, 0x6B, 9]
  bounded := by decide

/-- A map under a string key renders as an object. -/
theorem validJson_rowbinaryToJson_string :
    validJson (rowbinaryToJson keyedCell.bytes (.map .string .uInt8)) = true := by
  have read : readColumnAt (.map .string .uInt8) 1 0 (natLe 8 1 ++ [1, 0x6B] ++ [9]) =
      .ok ([keyedCell.bytes], []) := rfl
  have entry : ReadAs (.map .string .uInt8) (list [record [text [0x6B], raw [9]]]) := by
    refine ⟨_, rfl, by decide, ?_⟩
    intro entry member
    rw [List.mem_singleton.mp member]
    exact ⟨text [0x6B], raw [9], rfl, ⟨[0x6B], rfl, by decide⟩, ⟨[9], rfl, rfl⟩⟩
  exact ((validJson_rowbinaryToJson (.map .string .uInt8) 1 0 _ read keyedCell
    (by simp)).2 _ entry rfl (by decide)).mpr rfl

/-- The entry of the number 2 under the key 1, in a map with one entry. -/
def numberedCell : ByteString where
  bytes := [1, 1, 2]
  bounded := by decide

/-- A map under a numeric key renders as `{1:2}`. -/
theorem not_validJson_numbered :
    readColumnAt (.map .uInt8 .uInt8) 1 0 (natLe 8 1 ++ [1] ++ [2]) =
      .ok ([numberedCell.bytes], []) ∧
    ReadAs (.map .uInt8 .uInt8) (list [record [raw [1], raw [2]]]) ∧
    (list [record [raw [1], raw [2]]]).rowBinary = numberedCell.bytes ∧
    payloadsValid (.map .uInt8 .uInt8) (list [record [raw [1], raw [2]]]) = true ∧
    rowbinaryToJson numberedCell.bytes (.map .uInt8 .uInt8) = utf8 "\x7b1:2\x7d" ∧
    validJson (rowbinaryToJson numberedCell.bytes (.map .uInt8 .uInt8)) = false := by
  refine ⟨rfl, ⟨_, rfl, by decide, ?_⟩, rfl, rfl, by decide, by decide⟩
  intro entry member
  rw [List.mem_singleton.mp member]
  exact ⟨raw [1], raw [2], rfl, ⟨[1], rfl, rfl⟩, ⟨[2], rfl, rfl⟩⟩

end DfeClickhouse.Native

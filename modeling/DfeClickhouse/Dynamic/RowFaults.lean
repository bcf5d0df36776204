import DfeClickhouse.Dynamic.CellFaults
import DfeClickhouse.Dynamic.RowBoundaries

/-!
# Faults of the dynamic encoder

The encoder with its buffer passed along and every operation unchecked.  A row is taken
apart into the pieces the encoder comes to one after the other; a run faults exactly where
a type string nests too deeply for its counter, a power of ten for ticks is past an `i64`,
or the buffer would be longer than the address space admits.  The texts the JSON library
renders are its own, and so is the memory they take.
-/

namespace DfeClickhouse.Dynamic

open Library
open Native (putString encodeVarUint)

/-- The greatest length of a buffer, `isize::MAX`. -/
def maxBuffer : Nat := 2 ^ 63 - 1

/-- Append bytes to a buffer. -/
def extendFromSlice (buffer bytes : Bytes) : Faulty DynamicError Bytes :=
  if buffer.length + bytes.length ≤ maxBuffer then pure (buffer ++ bytes)
  else Faulty.fault .capacity

/-- Append zeros to a buffer, its new length computed in `usize`. -/
def resizeBy (buffer : Bytes) (more : Nat) : Faulty DynamicError Bytes := do
  let length ← Faulty.unsigned 64 ((buffer.length + more : Nat) : Int)
  if length ≤ maxBuffer then pure (buffer ++ List.replicate more 0)
  else Faulty.fault .capacity

/-- A fixed string, its padding appended in place. -/
def fixedStringFaulty (width : Nat) (text : Bytes) (col : String) (buffer : Bytes) :
    Faulty DynamicError Bytes :=
  if width < text.length then
    Faulty.plain (encErr col ("FixedString(" ++ toString width ++ ") value out of range: " ++
      toString text.length ++ " bytes"))
  else do
    let buffer ← extendFromSlice buffer text
    let padding ← Faulty.sub width text.length
    resizeBy buffer padding

/-- The cell of a value behind a buffer. -/
def cellFaulty (json : JsonText) (info : TypeInfo) (value : Value) (col : String)
    (buffer : Bytes) : Faulty DynamicError Bytes :=
  if encodingTag info = .fixedString then
    fixedStringFaulty (info.fixedSize.getD 1) (utf8 (valueToStr json value)) col buffer
  else do
    let bytes ← scalarCellFaulty json info value col
    extendFromSlice buffer bytes

def writeDefaultFaulty (info : TypeInfo) (col : String) (buffer : Bytes) :
    Faulty DynamicError Bytes :=
  if info.base = "Decimal".toList then
    resizeBy buffer (decimalDefaultWidth (info.precision.getD 38))
  else
    match info.tag with
    | .json => extendFromSlice buffer (putString (utf8 "\x7b\x7d"))
    | .point | .variant | .dynamic | .unknown => Faulty.refuse (unsupported col info)
    | _ =>
        match ParsedType.fixedByteSize info with
        | some size => resizeBy buffer size
        | none => extendFromSlice buffer (encodeVarUint 0)

/-- A step of the encoder over its buffer. -/
abbrev BufferStep := Bytes → Faulty DynamicError Bytes

def encodeFlaggedFaulty (info : TypeInfo) (col : String) (value : Value)
    (typed : Value → BufferStep) : BufferStep := fun buffer =>
  match info.nullable, value with
  | true, .null => extendFromSlice buffer [1]
  | true, value => do
      let buffer ← extendFromSlice buffer [0]
      typed value buffer
  | false, .null => writeDefaultFaulty info col buffer
  | false, value => typed value buffer

def encodeArrayFaulty (col : String) (item : Value → BufferStep) : Value → BufferStep
  | .array items, buffer => do
      let buffer ← extendFromSlice buffer (encodeVarUint items.length)
      items.foldlM (fun buffer value => item value buffer) buffer
  | _, _ => Faulty.plain (encErr col "expected array")

def encodeMapFaulty (col : String) (key : TypeInfo) (value : Value → BufferStep) :
    Value → BufferStep
  | .object entries, buffer =>
      if key.tag ≠ .string ∨ key.nullable then
        Faulty.refuse (unsupported col key)
      else do
        let buffer ← extendFromSlice buffer (encodeVarUint entries.length)
        entries.foldlM (fun buffer entry => do
          let buffer ← extendFromSlice buffer (putString (utf8 entry.1))
          value entry.2 buffer) buffer
  | _, _ => Faulty.plain (encErr col "expected object for Map")

def encodeValueFaulty (json : JsonText) (col : String) : ParsedType → Value → BufferStep
  | .plain info, value =>
      encodeFlaggedFaulty info col value fun value => cellFaulty json info value col
  | .array info element, value =>
      encodeFlaggedFaulty info col value
        (encodeArrayFaulty col (encodeValueFaulty json col element))
  | .map info key val, value =>
      encodeFlaggedFaulty info col value
        (encodeMapFaulty col key.info (encodeValueFaulty json col val))

def DynamicRow.encodeColumnFaulty (json : JsonText) (dynamicRow : DynamicRow)
    (col : ColumnDef) : BufferStep := fun buffer =>
  match dynamicRow.rawFor col with
  | some bytes => do
      let buffer ← extendFromSlice buffer (if col.ty.info.nullable then [0] else [])
      extendFromSlice buffer (putString bytes)
  | none =>
      encodeValueFaulty json col.name col.ty ((dynamicRow.row.lookup col.name).getD .null) buffer

def DynamicRow.encodeIntoFaulty (json : JsonText) (dynamicRow : DynamicRow) : BufferStep :=
  fun buffer =>
    dynamicRow.columns.foldlM
      (fun buffer col => dynamicRow.encodeColumnFaulty json col buffer) buffer

/-- A piece of a row, named by what it is made from. -/
inductive Part
  /-- A flag, a count, a key or a raw text. -/
  | bytes (data : Bytes)
  /-- A value of a type without a type below it. -/
  | cell (col : String) (info : TypeInfo) (value : Value)
  /-- The zero value of a column that has none. -/
  | missing (col : String) (info : TypeInfo)
  /-- A value the type does not take. -/
  | misfit (error : DynamicError)

def flaggedParts (info : TypeInfo) (col : String) (value : Value) (typed : Value → List Part) :
    List Part :=
  match info.nullable, value with
  | true, .null => [.bytes [1]]
  | true, value => .bytes [0] :: typed value
  | false, .null => [.missing col info]
  | false, value => typed value

def arrayParts (col : String) (item : Value → List Part) : Value → List Part
  | .array items => .bytes (encodeVarUint items.length) :: items.flatMap item
  | _ => [.misfit (.encodingError col "expected array")]

def mapParts (col : String) (key : TypeInfo) (value : Value → List Part) : Value → List Part
  | .object entries =>
      if key.tag ≠ .string ∨ key.nullable then
        [.misfit (unsupported col key)]
      else
        .bytes (encodeVarUint entries.length) ::
          entries.flatMap fun entry => .bytes (putString (utf8 entry.1)) :: value entry.2
  | _ => [.misfit (.encodingError col "expected object for Map")]

/-- The pieces of a value of a type. -/
def valueParts (col : String) : ParsedType → Value → List Part
  | .plain info, value => flaggedParts info col value fun value => [.cell col info value]
  | .array info element, value =>
      flaggedParts info col value (arrayParts col (valueParts col element))
  | .map info key val, value =>
      flaggedParts info col value (mapParts col key.info (valueParts col val))

namespace DynamicRow

def columnParts (dynamicRow : DynamicRow) (col : ColumnDef) : List Part :=
  match dynamicRow.rawFor col with
  | some bytes =>
      [.bytes (if col.ty.info.nullable then [0] else []), .bytes (putString bytes)]
  | none => valueParts col.name col.ty ((dynamicRow.row.lookup col.name).getD .null)

/-- The pieces of a row, the rejected ones and those after them included. -/
def parts (dynamicRow : DynamicRow) : List Part :=
  dynamicRow.columns.flatMap dynamicRow.columnParts

end DynamicRow

namespace Part

/-- The bytes of a piece, or the error it is rejected with. -/
def outcome (json : JsonText) : Part → Except DynamicError Bytes
  | bytes data => .ok data
  | cell col info value => scalarCell json info value col
  | missing col info => defaultCell info col
  | misfit error => .error error

/-- The encoder's step for a piece. -/
def write (json : JsonText) : Part → BufferStep
  | bytes data, buffer => extendFromSlice buffer data
  | cell col info value, buffer => cellFaulty json info value col buffer
  | missing col info, buffer => writeDefaultFaulty info col buffer
  | misfit error, _ => Faulty.refuse error

/-- The ticks of a piece overflow. -/
def overflows : Part → Bool
  | cell _ info value => ticksOverflow info value
  | _ => false

/-- How many bytes an accepted piece takes, told by its type and the texts in it. -/
def size (json : JsonText) : Part → Nat
  | bytes data => data.length
  | cell _ info value =>
      match encodingTag info with
      | .fixedString => info.fixedSize.getD 1
      | .string => (putString (utf8 (valueToStr json value))).length
      | .json => (putString (jsonDocument json value)).length
      | tag => (tagWidth tag).getD 0
  | missing _ info =>
      if info.base = "Decimal".toList then decimalDefaultWidth (info.precision.getD 38)
      else if info.tag = .json then (putString (utf8 "\x7b\x7d")).length
      else (ParsedType.fixedByteSize info).getD (encodeVarUint 0).length
  | misfit _ => 0

end Part

/-- Append the pieces of a row to a buffer, one after the other. -/
def writeParts (json : JsonText) (parts : List Part) : BufferStep :=
  fun buffer => parts.foldlM (fun buffer part => part.write json buffer) buffer

theorem foldlM_flatMap {α β γ : Type} (step : γ → β → Faulty DynamicError γ)
    (spread : α → List β) (items : List α) (start : γ) :
    (items.flatMap spread).foldlM step start =
      items.foldlM (fun state item => (spread item).foldlM step state) start := by
  induction items generalizing start with
  | nil => rfl
  | cons item items ih =>
      rw [List.flatMap_cons, List.foldlM_append, List.foldlM_cons]
      congr 1
      funext state
      exact ih state

@[simp]
theorem writeParts_cons (json : JsonText) (part : Part) (parts : List Part) (buffer : Bytes) :
    writeParts json (part :: parts) buffer =
      part.write json buffer >>= writeParts json parts :=
  List.foldlM_cons

@[simp] theorem writeParts_singleton (json : JsonText) (part : Part) (buffer : Bytes) :
    writeParts json [part] buffer = part.write json buffer := by
  rw [writeParts_cons]
  exact bind_pure _

/-- Pieces of many items are written item by item. -/
theorem writeParts_flatMap {α : Type} (json : JsonText) (spread : α → List Part) (items : List α)
    (buffer : Bytes) :
    writeParts json (items.flatMap spread) buffer =
      items.foldlM (fun buffer item => writeParts json (spread item) buffer) buffer :=
  foldlM_flatMap ..

theorem writeParts_flagged (json : JsonText) (info : TypeInfo) (col : String) (value : Value)
    (typed : Value → List Part) :
    writeParts json (flaggedParts info col value typed) =
      encodeFlaggedFaulty info col value fun value => writeParts json (typed value) := by
  funext buffer
  unfold flaggedParts encodeFlaggedFaulty
  cases info.nullable <;> cases value <;>
    first
    | exact writeParts_singleton ..
    | exact writeParts_cons ..
    | rfl

theorem writeParts_array (json : JsonText) (col : String) (item : Value → List Part)
    (value : Value) :
    writeParts json (arrayParts col item value) =
      encodeArrayFaulty col (fun value => writeParts json (item value)) value := by
  funext buffer
  cases value with
  | array items =>
      rw [arrayParts, encodeArrayFaulty, writeParts_cons]
      congr 1
      funext buffer
      exact writeParts_flatMap ..
  | _ => rfl

theorem writeParts_map (json : JsonText) (col : String) (key : TypeInfo)
    (val : Value → List Part) (value : Value) :
    writeParts json (mapParts col key val value) =
      encodeMapFaulty col key (fun value => writeParts json (val value)) value := by
  funext buffer
  cases value with
  | object entries =>
      rw [mapParts, encodeMapFaulty]
      split
      · rfl
      · rw [writeParts_cons]
        congr 1
        funext buffer
        rw [writeParts_flatMap]
        rfl
  | _ => rfl

theorem writeParts_value (json : JsonText) (col : String) (ty : ParsedType) (value : Value) :
    writeParts json (valueParts col ty value) = encodeValueFaulty json col ty value := by
  induction ty generalizing value with
  | plain info =>
      rw [valueParts, encodeValueFaulty, writeParts_flagged]
      congr 1
      funext value buffer
      exact writeParts_singleton ..
  | array info element ih =>
      rw [valueParts, encodeValueFaulty, writeParts_flagged]
      congr 1
      funext value
      rw [writeParts_array]
      congr 1
      exact funext ih
  | map info key val _ ih =>
      rw [valueParts, encodeValueFaulty, writeParts_flagged]
      congr 1
      funext value
      rw [writeParts_map]
      congr 1
      exact funext ih

/-- The encoder appends the pieces of its row in order. -/
theorem writeParts_row (json : JsonText) (dynamicRow : DynamicRow) :
    writeParts json dynamicRow.parts = dynamicRow.encodeIntoFaulty json := by
  funext buffer
  rw [DynamicRow.parts, writeParts_flatMap, DynamicRow.encodeIntoFaulty]
  congr 1
  funext buffer column
  rw [DynamicRow.columnParts, DynamicRow.encodeColumnFaulty]
  cases dynamicRow.rawFor column with
  | none => exact congrFun (writeParts_value ..) buffer
  | some bytes =>
      rw [writeParts_cons]
      congr 1
      funext buffer
      exact writeParts_singleton ..

/-- A step appends these bytes where there is room for them, and faults elsewhere. -/
def Appends (step : BufferStep) (bytes : Bytes) : Prop :=
  ∀ buffer, (buffer.length + bytes.length ≤ maxBuffer → step buffer = pure (buffer ++ bytes)) ∧
    (¬ buffer.length + bytes.length ≤ maxBuffer → Faulty.Faults (step buffer))

theorem appends_extendFromSlice (bytes : Bytes) :
    Appends (fun buffer => extendFromSlice buffer bytes) bytes := by
  intro buffer
  constructor
  · exact fun room => if_pos room
  · intro full
    exact ⟨.capacity, if_neg full⟩

theorem appends_resizeBy (more : Nat) :
    Appends (fun buffer => resizeBy buffer more) (List.replicate more 0) := by
  intro buffer
  rw [List.length_replicate]
  constructor
  · intro room
    have fits : ((buffer.length + more : Nat) : Int) < 2 ^ 64 := by
      rw [maxBuffer] at room
      omega
    simp only [resizeBy, Faulty.unsigned_of_fits (Int.natCast_nonneg _) fits, pure_bind,
      Int.toNat_natCast, if_pos room]
  · intro full
    dsimp only [resizeBy]
    by_cases fits : ((buffer.length + more : Nat) : Int) < 2 ^ 64
    · rw [Faulty.unsigned_of_fits (Int.natCast_nonneg _) fits, pure_bind, Int.toNat_natCast,
        if_neg full]
      exact Faulty.faults_fault .capacity
    · rw [Faulty.unsigned, if_neg fun both => fits both.2]
      exact (Faulty.faults_fault .overflow).bind _

/-- Appending twice is appending once. -/
theorem Appends.then {first second : BufferStep} {front back : Bytes}
    (appendsFront : Appends first front) (appendsBack : Appends second back) :
    Appends (fun buffer => first buffer >>= second) (front ++ back) := by
  intro buffer
  rw [List.length_append]
  constructor
  · intro room
    have written := (appendsFront buffer).1 (by omega)
    have longer := (appendsBack (buffer ++ front)).1 (by rw [List.length_append]; omega)
    rw [List.append_assoc] at longer
    simp only [written, pure_bind, longer]
  · intro full
    by_cases room : buffer.length + front.length ≤ maxBuffer
    · have written := (appendsFront buffer).1 room
      simp only [written, pure_bind]
      exact (appendsBack (buffer ++ front)).2 (by rw [List.length_append]; omega)
    · exact ((appendsFront buffer).2 room).bind _

/-- A step appends the bytes of an outcome, or returns its error. -/
def Performs (step : BufferStep) : Except DynamicError Bytes → Prop
  | .ok bytes => Appends step bytes
  | .error error => ∀ buffer, step buffer = Faulty.refuse error

theorem performs_extend (outcome : Except DynamicError Bytes) :
    Performs (fun buffer => Faulty.plain outcome >>= extendFromSlice buffer) outcome := by
  cases outcome with
  | ok bytes => exact appends_extendFromSlice bytes
  | error error => exact fun _ => rfl

theorem performs_fixedStringFaulty (width : Nat) (text : Bytes) (col : String) :
    Performs (fixedStringFaulty width text col) (fixedStringBytes width text col) := by
  by_cases long : width < text.length
  · rw [fixedStringBytes, if_pos long]
    exact fun _ => if_pos long
  · have same : fixedStringFaulty width text col = fun buffer =>
        extendFromSlice buffer text >>= fun buffer => resizeBy buffer (width - text.length) := by
      funext buffer
      simp only [fixedStringFaulty, if_neg long,
        Faulty.sub_of_le (Nat.le_of_not_lt long), pure_bind]
    rw [same, fixedStringBytes, if_neg long]
    exact (appends_extendFromSlice text).then (appends_resizeBy _)

theorem performs_cellFaulty {json : JsonText} {info : TypeInfo} {value : Value}
    (fits : ticksOverflow info value = false) (col : String) :
    Performs (cellFaulty json info value col) (scalarCell json info value col) := by
  by_cases fixed : encodingTag info = .fixedString
  · have same : cellFaulty json info value col =
        fixedStringFaulty (info.fixedSize.getD 1) (utf8 (valueToStr json value)) col := by
      funext buffer
      rw [cellFaulty, if_pos fixed]
    rw [same, scalarCell, fixed]
    exact performs_fixedStringFaulty ..
  · have same : cellFaulty json info value col = fun buffer =>
        Faulty.plain (scalarCell json info value col) >>= extendFromSlice buffer := by
      funext buffer
      rw [cellFaulty, if_neg fixed, scalarCellFaulty_eq fits]
    rw [same]
    exact performs_extend _

theorem performs_writeDefaultFaulty (info : TypeInfo) (col : String) :
    Performs (writeDefaultFaulty info col) (defaultCell info col) := by
  change Performs (fun buffer => writeDefaultFaulty info col buffer) _
  unfold writeDefaultFaulty defaultCell
  by_cases decimal : info.base = "Decimal".toList
  · simp only [if_pos decimal]
    exact appends_resizeBy _
  · simp only [if_neg decimal]
    cases info.tag
    case json => exact appends_extendFromSlice _
    case point | variant | dynamic | unknown => exact fun _ => rfl
    all_goals
      cases ParsedType.fixedByteSize info with
      | none => exact appends_extendFromSlice _
      | some size => exact appends_resizeBy size

/-- A piece whose ticks fit is appended, or rejected with its error. -/
theorem Part.performs {json : JsonText} {part : Part} (fits : part.overflows = false) :
    Performs (part.write json) (part.outcome json) := by
  cases part with
  | bytes data => exact appends_extendFromSlice data
  | cell col info value => exact performs_cellFaulty fits col
  | missing col info => exact performs_writeDefaultFaulty info col
  | misfit error => exact fun _ => rfl

theorem Part.faults_write {json : JsonText} {part : Part} (spills : part.overflows = true)
    (buffer : Bytes) : Faulty.Faults (part.write json buffer) := by
  cases part with
  | cell col info value =>
      have notFixed : encodingTag info ≠ .fixedString := by
        intro fixed
        cases value <;> simp [overflows, ticksOverflow, fixed] at spills
      rw [write, cellFaulty, if_neg notFixed]
      exact (faults_scalarCellFaulty spills col).bind _
  | _ => cases spills

/-- An accepted cell takes the bytes its type tells. -/
theorem length_scalarCell {json : JsonText} {info : TypeInfo} {value : Value} {col : String}
    {bytes : Bytes} (accepted : scalarCell json info value col = .ok bytes) :
    bytes.length = (Part.cell col info value).size json := by
  cases width : tagWidth (encodingTag info) with
  | some width' =>
      have fixed : cellWidth info = some width' := by
        rw [cellWidth]
        split
        · rename_i tag
          rw [tag] at width
          cases width
        · exact width
      rw [sized_scalarCell fixed value col bytes accepted, Part.size]
      split
      case h_4 => rw [width, Option.getD_some]
      all_goals
        rename_i tag
        rw [tag] at width
        cases width
  | none =>
      rw [Part.size]
      rw [scalarCell] at accepted
      cases tag : encodingTag info <;> rw [tag] at width accepted <;> dsimp only at accepted ⊢
      case fixedString => exact sized_fixedStringBytes _ _ col bytes accepted
      case string | json =>
        cases accepted
        rfl
      case array | map | point | variant | dynamic | unknown => cases accepted
      all_goals cases width

theorem length_defaultCell {json : JsonText} {info : TypeInfo} {col : String} {bytes : Bytes}
    (accepted : defaultCell info col = .ok bytes) :
    bytes.length = (Part.missing col info).size json := by
  rw [Part.size]
  unfold defaultCell at accepted
  by_cases decimal : info.base = "Decimal".toList
  · rw [if_pos decimal] at accepted
    cases accepted
    rw [if_pos decimal, List.length_replicate]
  · rw [if_neg decimal] at accepted
    rw [if_neg decimal]
    cases tag : info.tag <;> rw [tag] at accepted <;> dsimp only at accepted
    case json =>
      cases accepted
      rw [if_pos rfl]
    case point | variant | dynamic | unknown => cases accepted
    all_goals
      rw [if_neg (by decide)]
      cases sized : ParsedType.fixedByteSize info with
      | none =>
          rw [sized] at accepted
          cases accepted
          rfl
      | some size =>
          rw [sized] at accepted
          cases accepted
          exact List.length_replicate

theorem Part.length_of_outcome {json : JsonText} {part : Part} {bytes : Bytes}
    (accepted : part.outcome json = .ok bytes) : bytes.length = part.size json := by
  cases part with
  | bytes data =>
      cases accepted
      rfl
  | cell col info value => exact length_scalarCell accepted
  | missing col info => exact length_defaultCell accepted
  | misfit error => cases accepted

/-- The pieces of a row, up to the first one that is rejected, have ticks that fit and take
no more bytes than a buffer of the given length has room for. -/
def PartsFit (json : JsonText) : Nat → List Part → Prop
  | _, [] => True
  | length, part :: parts =>
      part.overflows = false ∧
        ((part.outcome json).isOk = true →
          length + part.size json ≤ maxBuffer ∧ PartsFit json (length + part.size json) parts)

/-- A row is written without a fault exactly when its pieces fit. -/
theorem not_faults_writeParts_iff {json : JsonText} {parts : List Part} {buffer : Bytes} :
    ¬ Faulty.Faults (writeParts json parts buffer) ↔ PartsFit json buffer.length parts := by
  induction parts generalizing buffer with
  | nil => exact iff_of_true (Faulty.not_faults_plain (.ok buffer)) trivial
  | cons part parts ih =>
      rw [writeParts_cons, PartsFit]
      cases spills : part.overflows with
      | true =>
          have faults := @Part.faults_write json part spills buffer
          exact iff_of_false (fun none => none (faults.bind _)) fun fits => nomatch fits.1
      | false =>
          have performs := @Part.performs json part spills
          rw [and_iff_right rfl]
          cases outcome : part.outcome json with
          | error error =>
              rw [outcome] at performs
              rw [performs buffer]
              exact iff_of_true (Faulty.not_faults_plain (.error error)) fun ok => nomatch ok
          | ok bytes =>
              rw [outcome] at performs
              have size := Part.length_of_outcome outcome
              by_cases room : buffer.length + bytes.length ≤ maxBuffer
              · rw [(performs buffer).1 room, pure_bind, ih, List.length_append, ← size]
                exact ⟨fun fits _ => ⟨room, fits⟩, fun fits => (fits rfl).2⟩
              · have faults := (performs buffer).2 room
                refine iff_of_false (fun none => none (faults.bind _)) fun fits => ?_
                rw [← size] at fits
                exact room (fits rfl).1

/-- The writer of a piece. -/
def Part.put (json : JsonText) (part : Part) : CellWriter := do
  let bytes ← Writer.ofExcept (part.outcome json)
  Writer.put bytes

/-- Append what a writer writes to a buffer. -/
def appended (buffer : Bytes) (writer : CellWriter) : Except DynamicError Bytes :=
  writer.result.map fun _ => buffer ++ writer.written

@[simp] theorem appended_put (buffer bytes : Bytes) (writer : CellWriter) :
    appended buffer (Writer.put bytes >>= fun _ => writer) = appended (buffer ++ bytes) writer := by
  show Except.map (fun _ => buffer ++ (bytes ++ writer.written)) writer.result = _
  rw [← List.append_assoc]
  rfl

theorem each_flagged (json : JsonText) (info : TypeInfo) (col : String) (value : Value)
    (typed : Value → List Part) :
    Writer.each (Part.put json) (flaggedParts info col value typed) =
      encodeFlagged info col value fun value => Writer.each (Part.put json) (typed value) := by
  unfold flaggedParts encodeFlagged
  cases info.nullable <;> cases value <;>
    first
    | exact Writer.each_singleton ..
    | rfl

theorem each_array (json : JsonText) (col : String) (item : Value → List Part) (value : Value) :
    Writer.each (Part.put json) (arrayParts col item value) =
      encodeArray col (fun value => Writer.each (Part.put json) (item value)) value := by
  cases value with
  | array items =>
      rw [arrayParts, encodeArray, Writer.each, Writer.each_flatMap]
      rfl
  | _ => rfl

theorem each_map (json : JsonText) (col : String) (key : TypeInfo) (val : Value → List Part)
    (value : Value) :
    Writer.each (Part.put json) (mapParts col key val value) =
      encodeMap col key (fun value => Writer.each (Part.put json) (val value)) value := by
  cases value with
  | object entries =>
      rw [mapParts, encodeMap]
      split
      · rfl
      · rw [Writer.each, Writer.each_flatMap]
        rfl
  | _ => rfl

theorem each_value (json : JsonText) (col : String) (ty : ParsedType) (value : Value) :
    Writer.each (Part.put json) (valueParts col ty value) = encodeValue json col ty value := by
  induction ty generalizing value with
  | plain info =>
      rw [valueParts, encodeValue, each_flagged]
      congr 1
      funext value
      exact Writer.each_singleton ..
  | array info element ih =>
      rw [valueParts, encodeValue, each_flagged]
      congr 1
      funext value
      rw [each_array]
      congr 1
      exact funext ih
  | map info key val _ ih =>
      rw [valueParts, encodeValue, each_flagged]
      congr 1
      funext value
      rw [each_map]
      congr 1
      exact funext ih

theorem each_row (json : JsonText) (dynamicRow : DynamicRow) :
    Writer.each (Part.put json) dynamicRow.parts = dynamicRow.encodeInto json := by
  rw [DynamicRow.parts, Writer.each_flatMap, DynamicRow.encodeInto]
  congr 1
  funext column
  rw [DynamicRow.columnParts, DynamicRow.encodeColumn]
  cases dynamicRow.rawFor column with
  | none => exact each_value ..
  | some bytes =>
      rw [Writer.each, Writer.each_singleton]
      rfl

/-- Pieces that fit are appended as the checked encoder appends them. -/
theorem writeParts_eq {json : JsonText} {parts : List Part} {buffer : Bytes}
    (fits : PartsFit json buffer.length parts) :
    writeParts json parts buffer =
      Faulty.plain (appended buffer (Writer.each (Part.put json) parts)) := by
  induction parts generalizing buffer with
  | nil =>
      show _ = Faulty.plain (.ok (buffer ++ []))
      rw [List.append_nil]
      rfl
  | cons part parts ih =>
      have performs := @Part.performs json part fits.1
      have fits := fits.2
      rw [writeParts_cons]
      cases outcome : part.outcome json with
      | error error =>
          rw [outcome] at performs
          have written : Writer.each (Part.put json) (part :: parts) = Writer.fail error := by
            rw [Writer.each, Part.put, outcome]
            rfl
          rw [performs buffer, written]
          rfl
      | ok bytes =>
          rw [outcome] at performs fits
          have fits := fits rfl
          rw [← Part.length_of_outcome outcome] at fits
          have written : Writer.each (Part.put json) (part :: parts) =
              Writer.put bytes >>= fun _ => Writer.each (Part.put json) parts := by
            rw [Writer.each, Part.put, outcome]
            rfl
          rw [(performs buffer).1 fits.1, pure_bind, ih (by rw [List.length_append]; exact fits.2),
            written]
          rw [appended_put]

/-- The encoder with its operations unchecked is the encoder, where it does not fault. -/
theorem encodeIntoFaulty_eq {json : JsonText} {dynamicRow : DynamicRow} {buffer : Bytes}
    (fits : PartsFit json buffer.length dynamicRow.parts) :
    dynamicRow.encodeIntoFaulty json buffer =
      Faulty.plain (appended buffer (dynamicRow.encodeInto json)) := by
  rw [← writeParts_row, ← each_row, writeParts_eq fits]

/-- A column whose type string is parsed unchecked. -/
def ColumnDef.newFaulty (header : String × String) : Faulty DynamicError ColumnDef := do
  let ty ← ParsedType.parseFaulty header.2
  pure { name := header.1, ty := ty }

/-- Parse the types of the columns and append the cells of a row to a buffer. -/
def encodeFaulty (json : JsonText) (row : List (String × Value)) (raw : Option (String × Bytes))
    (headers : List (String × String)) (buffer : Bytes) : Faulty DynamicError Bytes := do
  let columns ← headers.mapM ColumnDef.newFaulty
  DynamicRow.encodeIntoFaulty json { row, columns, raw } buffer

/-- The row of columns with these names and type strings. -/
def rowOf (row : List (String × Value)) (raw : Option (String × Bytes))
    (headers : List (String × String)) : DynamicRow :=
  { row, columns := headers.map fun header => ColumnDef.new header.1 header.2, raw }

theorem mapM_newFaulty {headers : List (String × String)}
    (fits : ∀ header ∈ headers, ParsedType.ParensFit header.2.toList) :
    headers.mapM ColumnDef.newFaulty =
      pure (headers.map fun header => ColumnDef.new header.1 header.2) := by
  induction headers with
  | nil => rfl
  | cons header headers ih =>
      have first := @ParsedType.parseFaulty_eq DynamicError header.2 (fits header (by simp))
      rw [List.mapM_cons, ColumnDef.newFaulty, first, ih fun other member =>
        fits other (by simp [member])]
      rfl

theorem faults_mapM_newFaulty {headers : List (String × String)} {header : String × String}
    (member : header ∈ headers) (deep : ¬ ParsedType.ParensFit header.2.toList) :
    Faulty.Faults (headers.mapM ColumnDef.newFaulty) := by
  induction headers with
  | nil => cases member
  | cons first headers ih =>
      rw [List.mapM_cons]
      by_cases fits : ParsedType.ParensFit first.2.toList
      · have parsed := @ParsedType.parseFaulty_eq DynamicError first.2 fits
        have later : header ∈ headers := by
          rcases List.mem_cons.mp member with rfl | later
          · exact absurd fits deep
          · exact later
        rw [ColumnDef.newFaulty, parsed, pure_bind, pure_bind]
        exact (ih later).bind _
      · have faults := @ParsedType.faults_parseFaulty DynamicError first.2 fits
        exact (faults.bind _).bind _

/-- Encoding returns a result or an error, and neither panics nor wraps, exactly when the
parentheses of every map's arguments fit their counter and the pieces of the row fit. -/
theorem encodeFaulty_plain_iff (json : JsonText) (row : List (String × Value))
    (raw : Option (String × Bytes)) (headers : List (String × String)) (buffer : Bytes) :
    (∃ outcome, encodeFaulty json row raw headers buffer = Faulty.plain outcome) ↔
      (∀ header ∈ headers, ParsedType.ParensFit header.2.toList) ∧
        PartsFit json buffer.length (rowOf row raw headers).parts := by
  rw [← Faulty.not_faults_iff]
  by_cases fits : ∀ header ∈ headers, ParsedType.ParensFit header.2.toList
  · rw [and_iff_right fits, encodeFaulty, mapM_newFaulty fits, pure_bind, ← writeParts_row]
    exact not_faults_writeParts_iff
  · refine iff_of_false (fun none => none ?_) fun both => fits both.1
    push Not at fits
    obtain ⟨header, member, deep⟩ := fits
    exact (faults_mapM_newFaulty member deep).bind _

/-- One column of timestamps with nineteen places. -/
def tickHeaders : List (String × String) :=
  [("t", "DateTime64(19)")]

def tickRow : List (String × Value) :=
  [("t", .string "2024-01-01 00:00:00")]

/-- A timestamp with nineteen places has no ticks: ten to the nineteenth overflows. -/
theorem encodeFaulty_fails_ticks :
    ¬ ∃ outcome, encodeFaulty plainTexts tickRow none tickHeaders [] = Faulty.plain outcome := by
  have overflow : encodeFaulty plainTexts tickRow none tickHeaders [] =
      Faulty.fault .overflow := rfl
  rw [overflow]
  rintro ⟨outcome, same⟩
  cases outcome <;> cases same

end DfeClickhouse.Dynamic

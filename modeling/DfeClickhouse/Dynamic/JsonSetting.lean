import DfeClickhouse.Library.Postcondition
import DfeClickhouse.Dynamic.PostedRows

/-!
# The JSON setting of an INSERT

The encoder writes a JSON value as text behind its length, which the server reads only
under a setting of the INSERT.  The setting is posted for a schema with a JSON column; the
encoder reaches JSON below arrays and maps too.
-/

namespace DfeClickhouse.Dynamic

open Library
open Native (putString encodeVarUint)

/-- A piece of a row: a JSON text, which is sent behind its length, or other bytes. -/
inductive Piece
  | json (text : Bytes)
  | other (bytes : Bytes)
  deriving DecidableEq

def Piece.bytes : Piece → Bytes
  | json text => putString text
  | other bytes => bytes

abbrev PieceWriter := Writer Piece DynamicError Unit

/-- The piece of a value that is not NULL. -/
def scalarPiece (json : JsonText) (info : TypeInfo) (value : Value) (col : String) :
    Except DynamicError Piece :=
  if encodingTag info = .json then .ok (.json (jsonDocument json value))
  else do return .other (← scalarCell json info value col)

/-- The piece of a column that has no value. -/
def defaultPiece (info : TypeInfo) (col : String) : Except DynamicError Piece :=
  if encodingTag info = .json then .ok (.json (utf8 "\x7b\x7d"))
  else do return .other (← defaultCell info col)

def putPiece (piece : Except DynamicError Piece) : PieceWriter := do
  let piece ← Writer.ofExcept piece
  Writer.put [piece]

def flaggedPieces (info : TypeInfo) (col : String) (value : Value)
    (typed : Value → PieceWriter) : PieceWriter :=
  match info.nullable, value with
  | true, .null => Writer.put [.other [1]]
  | true, value => do
      Writer.put [.other [0]]
      typed value
  | false, .null => putPiece (defaultPiece info col)
  | false, value => typed value

def arrayPieces (col : String) (item : Value → PieceWriter) : Value → PieceWriter
  | .array items => do
      Writer.put [.other (encodeVarUint items.length)]
      Writer.each item items
  | _ => Writer.ofExcept (encErr col "expected array")

def mapPieces (col : String) (key : TypeInfo) (value : Value → PieceWriter) :
    Value → PieceWriter
  | .object entries =>
      if key.tag ≠ .string ∨ key.nullable then
        Writer.fail (unsupported col key)
      else do
        Writer.put [.other (encodeVarUint entries.length)]
        Writer.each (fun entry => do
          Writer.put [.other (putString (utf8 entry.1))]
          value entry.2) entries
  | _ => Writer.ofExcept (encErr col "expected object for Map")

/-- The encoder of a value, in pieces. -/
def valuePieces (json : JsonText) (col : String) : ParsedType → Value → PieceWriter
  | .plain info, value =>
      flaggedPieces info col value fun value => putPiece (scalarPiece json info value col)
  | .array info element, value =>
      flaggedPieces info col value (arrayPieces col (valuePieces json col element))
  | .map info key val, value =>
      flaggedPieces info col value (mapPieces col key.info (valuePieces json col val))

namespace DynamicRow

/-- The value a row has for a column. -/
def valueFor (dynamicRow : DynamicRow) (column : ColumnDef) : Value :=
  (dynamicRow.row.lookup column.name).getD .null

/-- The cell of a column, in pieces. -/
def columnPieces (json : JsonText) (dynamicRow : DynamicRow) (column : ColumnDef) :
    PieceWriter :=
  match dynamicRow.rawFor column with
  | some bytes => do
      Writer.put [.other (if column.ty.info.nullable then [0] else [])]
      Writer.put
        [if column.ty.info.tag = .json then .json bytes else .other (putString bytes)]
  | none => valuePieces json column.name column.ty (dynamicRow.valueFor column)

/-- The encoder of a row, in pieces. -/
def pieces (json : JsonText) (dynamicRow : DynamicRow) : PieceWriter :=
  Writer.each (dynamicRow.columnPieces json) dynamicRow.columns

end DynamicRow

theorem spell_putPiece {piece : Except DynamicError Piece} {cell : Except DynamicError Bytes}
    (same : piece.map Piece.bytes = cell) :
    (putPiece piece).spell Piece.bytes = (do
      let bytes ← Writer.ofExcept cell
      Writer.put bytes) := by
  subst same
  cases piece with
  | ok piece =>
      show Writer.mk ([piece].flatMap Piece.bytes) _ = Writer.mk ([] ++ piece.bytes) _
      rw [List.flatMap_singleton]
      rfl
  | error error => rfl

@[simp]
theorem scalarPiece_bytes (json : JsonText) (info : TypeInfo) (value : Value) (col : String) :
    (scalarPiece json info value col).map Piece.bytes = scalarCell json info value col := by
  rw [scalarPiece]
  split
  · rename_i tag
    rw [scalarCell, tag]
    rfl
  · cases scalarCell json info value col <;> rfl

theorem tag_of_json {info : TypeInfo} (json : encodingTag info = .json) :
    info.base ≠ "Decimal".toList ∧ info.tag = .json := by
  rw [encodingTag] at json
  split at json
  · rw [decimalTagForPrecision] at json
    split_ifs at json
  · exact ⟨‹_›, json⟩

@[simp] theorem defaultPiece_bytes (info : TypeInfo) (col : String) :
    (defaultPiece info col).map Piece.bytes = defaultCell info col := by
  rw [defaultPiece]
  split
  · rename_i tag
    have ⟨sized, tag⟩ := tag_of_json tag
    rw [defaultCell, if_neg sized, tag]
    rfl
  · cases defaultCell info col <;> rfl

theorem spell_flaggedPieces (info : TypeInfo) (col : String) (value : Value)
    (typed : Value → PieceWriter) :
    (flaggedPieces info col value typed).spell Piece.bytes =
      encodeFlagged info col value fun value => (typed value).spell Piece.bytes := by
  unfold flaggedPieces encodeFlagged
  cases info.nullable <;> cases value <;>
    first
    | exact spell_putPiece (defaultPiece_bytes info col)
    | rfl

theorem spell_arrayPieces (col : String) (item : Value → PieceWriter) (value : Value) :
    (arrayPieces col item value).spell Piece.bytes =
      encodeArray col (fun value => (item value).spell Piece.bytes) value := by
  cases value with
  | array items =>
      rw [arrayPieces, encodeArray, Writer.spell_bind, Writer.spell_each, Writer.spell_put,
        List.flatMap_singleton]
      rfl
  | _ => rfl

theorem spell_mapPieces (col : String) (key : TypeInfo) (val : Value → PieceWriter)
    (value : Value) :
    (mapPieces col key val value).spell Piece.bytes =
      encodeMap col key (fun value => (val value).spell Piece.bytes) value := by
  cases value with
  | object entries =>
      rw [mapPieces, encodeMap]
      split
      · rfl
      · rw [Writer.spell_bind, Writer.spell_each, Writer.spell_put, List.flatMap_singleton]
        congr 1
  | _ => rfl

@[simp]
theorem spell_valuePieces (json : JsonText) (col : String) (ty : ParsedType) (value : Value) :
    (valuePieces json col ty value).spell Piece.bytes = encodeValue json col ty value := by
  induction ty generalizing value with
  | plain info =>
      rw [valuePieces, encodeValue, spell_flaggedPieces]
      congr 1
      funext value
      exact spell_putPiece (scalarPiece_bytes json info value col)
  | array info element ih =>
      rw [valuePieces, encodeValue, spell_flaggedPieces]
      congr 1
      funext value
      rw [spell_arrayPieces]
      congr 1
      exact funext ih
  | map info key val _ ih =>
      rw [valuePieces, encodeValue, spell_flaggedPieces]
      congr 1
      funext value
      rw [spell_mapPieces]
      congr 1
      exact funext ih

/-- The pieces of a row are the row as the encoder writes it, and fail where it does. -/
@[simp] theorem spell_pieces (json : JsonText) (dynamicRow : DynamicRow) :
    (dynamicRow.pieces json).spell Piece.bytes = dynamicRow.encodeInto json := by
  rw [DynamicRow.pieces, DynamicRow.encodeInto, Writer.spell_each]
  congr 1
  funext column
  rw [DynamicRow.columnPieces, DynamicRow.encodeColumn]
  cases dynamicRow.rawFor column with
  | none => exact spell_valuePieces json column.name column.ty _
  | some bytes =>
      simp only [Writer.spell_bind, Writer.spell_put, List.flatMap_singleton]
      congr 1
      funext _
      split <;> rfl

/-- The value holds something for a JSON type, for the type itself or for one below it. -/
def ParsedType.reachesJson : ParsedType → Value → Bool
  | ty, .null => !ty.info.nullable && encodingTag ty.info == .json
  | .plain info, _ => encodingTag info == .json
  | .array _ element, .array items => items.any element.reachesJson
  | .map _ _ val, .object entries => entries.any fun entry => val.reachesJson entry.2
  | .array .., _ | .map .., _ => false

/-- The value holds something for a JSON type, as an element of an array or as a value of a
map, at any depth. -/
def ParsedType.holdsNestedJson : ParsedType → Value → Bool
  | .array _ element, .array items => items.any element.reachesJson
  | .map _ _ val, .object entries => entries.any fun entry => val.reachesJson entry.2
  | _, _ => false

/-- A column written from a value holds something for a JSON type below its own. -/
def DynamicRow.holdsNestedJson (dynamicRow : DynamicRow) : Prop :=
  ∃ column ∈ dynamicRow.columns, dynamicRow.rawFor column = none ∧
    column.ty.holdsNestedJson (dynamicRow.valueFor column) = true

/-- Without a JSON column, JSON is reached in an element of an array or a value of a map. -/
theorem reachesJson_eq_holdsNestedJson {ty : ParsedType} (other : ty.info.tag ≠ .json)
    (value : Value) : ty.reachesJson value = ty.holdsNestedJson value := by
  have own : (encodingTag ty.info == .json) = false :=
    beq_eq_false_iff_ne.mpr fun json => other (tag_of_json json).2
  have null : (!ty.info.nullable && encodingTag ty.info == .json) = false := by
    rw [own, Bool.and_false]
  cases ty <;> cases value <;> first | rfl | exact null | exact own

/-- A JSON text is among the pieces. -/
def HasJson (pieces : List Piece) : Prop :=
  ∃ text, .json text ∈ pieces

theorem not_hasJson_other (bytes : Bytes) : ¬ HasJson [.other bytes] := by
  rintro ⟨text, member⟩
  cases List.mem_singleton.mp member

@[simp] theorem hasJson_other_append {bytes : Bytes} {pieces : List Piece} :
    HasJson ([.other bytes] ++ pieces) ↔ HasJson pieces := by
  constructor
  · rintro ⟨text, member⟩
    rcases List.mem_append.mp member with single | later
    · cases List.mem_singleton.mp single
    · exact ⟨text, later⟩
  · rintro ⟨text, member⟩
    exact ⟨text, List.mem_append_right _ member⟩

theorem hasJson_each_iff {α : Type} {writer : α → PieceWriter} {items : List α}
    {pieces : List Piece} (writes : Writer.Writes (Writer.each writer items) pieces) :
    HasJson pieces ↔ ∃ item ∈ items, HasJson (writer item).written := by
  constructor
  · rintro ⟨text, member⟩
    obtain ⟨item, inside, member⟩ := (Writer.mem_each_iff writes).mp member
    exact ⟨item, inside, text, member⟩
  · rintro ⟨item, inside, text, member⟩
    exact ⟨text, (Writer.mem_each_iff writes).mpr ⟨item, inside, member⟩⟩

/-- A piece behind a piece of other bytes. -/
theorem writes_other_bind_iff {bytes : Bytes} {next : Unit → PieceWriter} {pieces : List Piece} :
    Writer.Writes (Writer.put [.other bytes] >>= next) pieces ↔
      ∃ rest, Writer.Writes (next ()) rest ∧ pieces = [.other bytes] ++ rest :=
  Writer.writes_put_bind_iff

/-- A piece is JSON exactly for the types whose pieces are documents. -/
theorem hasJson_putPiece {documents : Prop} [Decidable documents] {document : Bytes}
    {cell : Except DynamicError Bytes} {pieces : List Piece}
    (writes : Writer.Writes (putPiece (if documents then .ok (.json document)
      else do return .other (← cell))) pieces) :
    HasJson pieces ↔ documents := by
  obtain ⟨piece, written, writes⟩ := Writer.writes_ofExcept_bind_iff.mp writes
  rw [Writer.writes_put_iff.mp writes]
  split at written
  · cases written
    exact iff_of_true ⟨_, List.mem_singleton_self _⟩ ‹_›
  · obtain ⟨bytes, -, same⟩ := Reader.ok_bind_iff.mp written
    cases same
    exact iff_of_false (not_hasJson_other bytes) ‹_›

theorem hasJson_scalar {json : JsonText} {info : TypeInfo} {value : Value} {col : String}
    {pieces : List Piece}
    (writes : Writer.Writes (putPiece (scalarPiece json info value col)) pieces) :
    HasJson pieces ↔ encodingTag info = .json :=
  hasJson_putPiece writes

theorem hasJson_default {info : TypeInfo} {col : String} {pieces : List Piece}
    (writes : Writer.Writes (putPiece (defaultPiece info col)) pieces) :
    HasJson pieces ↔ encodingTag info = .json :=
  hasJson_putPiece writes

/-- JSON in a value that is not NULL is what its type writes for it. -/
theorem hasJson_present {info : TypeInfo} {col : String} {value : Value}
    {typed : Value → PieceWriter} {pieces : List Piece} (present : value ≠ .null)
    (writes : Writer.Writes (flaggedPieces info col value typed) pieces) :
    ∃ body, Writer.Writes (typed value) body ∧ (HasJson pieces ↔ HasJson body) := by
  have flagged : (flaggedPieces info col value typed) =
      if info.nullable then (do Writer.put [.other [0]]; typed value) else typed value := by
    unfold flaggedPieces
    cases info.nullable <;> cases value <;> first | rfl | exact (present rfl).elim
  rw [flagged] at writes
  split at writes
  · obtain ⟨body, bodyWrites, rfl⟩ := writes_other_bind_iff.mp writes
    exact ⟨body, bodyWrites, hasJson_other_append⟩
  · exact ⟨pieces, writes, Iff.rfl⟩

/-- JSON for NULL is the empty document of a JSON column that takes no NULL. -/
theorem hasJson_null {info : TypeInfo} {col : String} {typed : Value → PieceWriter}
    {pieces : List Piece}
    (writes : Writer.Writes (flaggedPieces info col .null typed) pieces) :
    HasJson pieces ↔ (!info.nullable && encodingTag info == .json) = true := by
  unfold flaggedPieces at writes
  cases nullable : info.nullable with
  | true =>
      rw [nullable] at writes
      rw [Writer.writes_put_iff.mp writes]
      exact iff_of_false (not_hasJson_other [1]) Bool.false_ne_true
  | false =>
      rw [nullable] at writes
      rw [hasJson_default writes, Bool.not_false, Bool.true_and, beq_iff_eq]

/-- The encoder writes a JSON text for a value exactly when the value reaches a JSON type. -/
theorem hasJson_valuePieces {json : JsonText} {col : String} {ty : ParsedType} {value : Value}
    {pieces : List Piece} (writes : Writer.Writes (valuePieces json col ty value) pieces) :
    HasJson pieces ↔ ty.reachesJson value = true := by
  induction ty generalizing value pieces with
  | plain info =>
      by_cases null : value = .null
      · subst null
        exact hasJson_null writes
      · obtain ⟨body, bodyWrites, same⟩ := hasJson_present null writes
        have reached : (ParsedType.plain info).reachesJson value =
            (encodingTag info == .json) := by
          cases value <;> first | rfl | exact (null rfl).elim
        rw [same, hasJson_scalar bodyWrites, reached, beq_iff_eq]
  | array info element ih =>
      by_cases null : value = .null
      · subst null
        exact hasJson_null writes
      · obtain ⟨body, bodyWrites, same⟩ := hasJson_present null writes
        rw [same]
        cases value with
        | array items =>
            obtain ⟨rest, itemsWrite, rfl⟩ := writes_other_bind_iff.mp bodyWrites
            rw [hasJson_other_append, hasJson_each_iff itemsWrite, ParsedType.reachesJson,
              List.any_eq_true]
            apply exists_congr
            intro item
            apply and_congr_right
            exact fun member => ih (Writer.writes_of_mem_each itemsWrite member)
        | _ =>
            obtain ⟨_, impossible⟩ := bodyWrites.2
            cases impossible
  | map info key val _ ih =>
      by_cases null : value = .null
      · subst null
        exact hasJson_null writes
      · obtain ⟨body, bodyWrites, same⟩ := hasJson_present null writes
        rw [same]
        cases value with
        | object entries =>
            rw [mapPieces] at bodyWrites
            split at bodyWrites
            · exact absurd bodyWrites Writer.not_writes_fail
            · obtain ⟨rest, entriesWrite, rfl⟩ := writes_other_bind_iff.mp bodyWrites
              rw [hasJson_other_append, hasJson_each_iff entriesWrite, ParsedType.reachesJson,
                List.any_eq_true]
              apply exists_congr
              intro entry
              apply and_congr_right
              intro member
              obtain ⟨held, heldWrites, split⟩ :=
                writes_other_bind_iff.mp (Writer.writes_of_mem_each entriesWrite member)
              rw [split, hasJson_other_append]
              exact ih heldWrites
        | _ =>
            obtain ⟨_, impossible⟩ := bodyWrites.2
            cases impossible

/-- A write is sent as these pieces. -/
def PiecesOf (env : Env) (columns : List ColumnDef) (op : WriteOp) (row : List Piece) : Prop :=
  Writer.Writes ((op.against columns).pieces env.json) row

/-- The schema has no JSON column, and the row holds JSON in an array or a map. -/
def NestedJsonAlone (schema : DynamicSchema) (dynamicRow : DynamicRow) : Prop :=
  (∀ column ∈ schema.columns, column.ty.info.tag ≠ .json) ∧ dynamicRow.holdsNestedJson

variable {env : Env} {database table : String} {columns : List ColumnDef}
  {schema : DynamicSchema} {op : WriteOp} {ops : List WriteOp} {after : DynamicInsert}
  {result : Except DynamicError Unit}

theorem hasJsonColumns_eq_false_iff :
    schema.hasJsonColumns = false ↔ ∀ column ∈ schema.columns, column.ty.info.tag ≠ .json := by
  simp [DynamicSchema.hasJsonColumns]

/-- The rows of some writes are their pieces, spelled out. -/
theorem pieces_of_encodes {rows : List Bytes}
    (encodes : List.Forall₂ (EncodesTo env columns) ops rows) :
    ∃ pieces, List.Forall₂ (PiecesOf env columns) ops pieces ∧
      rows = pieces.map fun row => row.flatMap Piece.bytes := by
  induction encodes with
  | nil => exact ⟨[], .nil, rfl⟩
  | @cons op row ops rows first _ ih =>
      rw [EncodesTo, ← spell_pieces] at first
      obtain ⟨writes, rfl⟩ := Writer.writes_spell_iff.mp first
      obtain ⟨later, each, rfl⟩ := ih
      exact ⟨_ :: later, .cons writes each, rfl⟩

theorem hasJson_columnPieces {json : JsonText} {dynamicRow : DynamicRow} {column : ColumnDef}
    {pieces : List Piece} (other : column.ty.info.tag ≠ .json)
    (writes : Writer.Writes (dynamicRow.columnPieces json column) pieces) :
    HasJson pieces ↔ dynamicRow.rawFor column = none ∧
      column.ty.holdsNestedJson (dynamicRow.valueFor column) = true := by
  rw [DynamicRow.columnPieces] at writes
  cases raw : dynamicRow.rawFor column with
  | none =>
      rw [raw] at writes
      rw [hasJson_valuePieces writes, reachesJson_eq_holdsNestedJson other]
      exact (and_iff_right rfl).symm
  | some bytes =>
      simp only [raw, if_neg other] at writes
      obtain ⟨body, bodyWrites, rfl⟩ := writes_other_bind_iff.mp writes
      rw [hasJson_other_append, Writer.writes_put_iff.mp bodyWrites]
      refine iff_of_false (not_hasJson_other _) ?_
      rintro ⟨⟨⟩, _⟩

/-- Without a JSON column a row sends JSON exactly when it holds some in an array or a map. -/
theorem hasJson_row_iff {row : List Piece} (writes : PiecesOf env columns op row)
    (other : ∀ column ∈ columns, column.ty.info.tag ≠ .json) :
    HasJson row ↔ (op.against columns).holdsNestedJson := by
  rw [hasJson_each_iff writes]
  apply exists_congr
  intro column
  apply and_congr_right
  exact fun member =>
    hasJson_columnPieces (other column member) (Writer.writes_of_mem_each writes member)

/-- The rows send JSON texts under the setting alone, exactly when none of them holds JSON in
an array or a map beside a schema without a JSON column. -/
theorem setting_covers_iff {pieces : List (List Piece)}
    (chosen : ∀ column ∈ columns, column ∈ schema.columns)
    (each : List.Forall₂ (PiecesOf env columns) ops pieces) :
    ((∃ row ∈ pieces, HasJson row) → schema.hasJsonColumns = true) ↔
      ∀ op ∈ ops, ¬ NestedJsonAlone schema (op.against columns) := by
  constructor
  · rintro covered op member ⟨none, held⟩
    obtain ⟨row, inside, writes⟩ := Reader.exists_left_of_mem each.flip member
    have other := fun column member => none column (chosen column member)
    have setting := covered ⟨row, inside, (hasJson_row_iff writes other).mpr held⟩
    rw [hasJsonColumns_eq_false_iff.mpr none] at setting
    cases setting
  · rintro covered ⟨row, member, sends⟩
    by_contra unset
    have none := hasJsonColumns_eq_false_iff.mp (Bool.eq_false_iff.mpr unset)
    obtain ⟨op, inside, writes⟩ := Reader.exists_left_of_mem each member
    have other := fun column member => none column (chosen column member)
    exact covered op inside ⟨none, (hasJson_row_iff writes other).mp sends⟩

/-- What an end posts is what the sink holds, with the setting of its schema. -/
theorem FinishStep.posted {full sql : String} {setting : Bool} {held rows : List Bytes}
    {answer : Except UpstreamError Unit} {used : List Call}
    (step : FinishStep full (posting env database table schema columns held) used result)
    (posted : .endFormatted sql setting rows answer ∈ used) :
    setting = schema.hasJsonColumns ∧ rows = held := by
  cases step with
  | rejected | accepted =>
      cases List.mem_singleton.mp posted
      exact ⟨rfl, rfl⟩

/-- What an end over HTTP posts comes from the sink that is open. -/
theorem EndStep.posted {insert : DynamicInsert} {sql : String} {setting : Bool}
    {rows : List Bytes} {answer : Except UpstreamError Unit} {used : List Call}
    {ended : Except DynamicError Nat} (step : EndStep insert used ended)
    (posted : .endFormatted sql setting rows answer ∈ used) :
    ∃ active settled result, insert.active = some active ∧
      FinishStep insert.fullTable active.sink settled result ∧
      .endFormatted sql setting rows answer ∈ settled := by
  cases step with
  | unopened => cases posted
  | finished isOpen step | failed isOpen step => exact ⟨_, _, _, isOpen, step, posted⟩
  | invalidated isOpen step =>
      refine ⟨_, _, _, isOpen, step, (List.mem_append.mp posted).resolve_right ?_⟩
      intro other
      cases List.mem_singleton.mp other

/-- What a run over HTTP posts is its accepted rows, in pieces.  They are posted under the
setting wherever a JSON text is among the pieces, exactly when no row holds JSON in an array
or a map alone. -/
theorem jsonSetting_iff (run : InsertRun env .http database table) {ending : List Call}
    {ended : Except DynamicError Nat} {sql : String} {setting : Bool} {rows : List Bytes}
    {answer : Except UpstreamError Unit}
    (ran : (DynamicInsert.endInsert run.written).run ending = .done (ended, after) [])
    (posted : .endFormatted sql setting rows answer ∈ ending) :
    ∃ schema columns pieces, run.written.schema = some schema ∧
      FixedBy run.ops run.outcomes schema columns ∧
      List.Forall₂ (PiecesOf env columns) (accepted run.ops run.outcomes) pieces ∧
      rows = (pieces.map fun row => row.flatMap Piece.bytes) ∧
      (((∃ row ∈ pieces, HasJson row) → setting = true) ↔
        ∀ op ∈ accepted run.ops run.outcomes, ¬ NestedJsonAlone schema (op.against columns)) := by
  obtain ⟨_, fixed⟩ := run.ledger
  have sink := run.buffering.sink
  obtain ⟨used, split, step⟩ := endInsert_step ran
  rw [List.append_nil] at split
  subst split
  obtain ⟨⟨columns, held⟩, settled, result, isOpen, step, posted⟩ := step.posted posted
  rw [isOpen] at sink fixed
  obtain ⟨schema, buffered, known, rfl, encodes⟩ := sink
  obtain ⟨⟨_, isKnown, fixed⟩, _⟩ := fixed
  obtain rfl := Option.some.inj (known.symm.trans isKnown)
  obtain ⟨rfl, rfl⟩ := step.posted posted
  obtain ⟨pieces, each, same⟩ := pieces_of_encodes encodes
  refine ⟨schema, columns, pieces, known, fixed, each, same, setting_covers_iff ?_ each⟩
  obtain ⟨_, _, _, _, _, rfl⟩ := fixed
  exact fun column member => (List.mem_filter.mp member).1

/-- Every compound value is rendered as the empty object. -/
def emptyObjects : JsonText where
  float _ := "0"
  compound _ := "\x7b\x7d"

def documentEnv : Env where
  json := emptyObjects
  sqlEscapeIdentifier name := "`" ++ name ++ "`"

/-- A document and the tags beside it. -/
def documentSchema : DynamicSchema :=
  ⟨"db.t", [.new "doc" "JSON", .new "tags" "Array(JSON)"]⟩

def documentRow : WriteOp :=
  ⟨[("doc", .string "\x7b\x7d"), ("tags", .array [.null])], none⟩

def documentSql : String :=
  (DynamicInsert.http "db" "t").insertSql documentEnv documentSchema.columns "RowBinary"

/-- An insert over HTTP of a document, with the schema in the cache. -/
def documentRun : InsertRun documentEnv .http "db" "t" where
  opening := []
  insert := .http "db" "t"
  opened := by rfl
  ops := [documentRow]
  writing := [.cacheGet "db.t" (some documentSchema)]
  outcomes := [.ok ()]
  written :=
    { DynamicInsert.http "db" "t" with
      schema := some documentSchema
      active := some ⟨documentSchema.columns,
        .http documentSql true [[2, 0x7B, 0x7D, 1, 2, 0x7B, 0x7D]]⟩
      rowsWritten := 1 }
  wrote := by rfl

/-- A schema with a JSON column covers the documents in its arrays. -/
theorem jsonSetting_document :
    ∃ columns, FixedBy [documentRow] [.ok ()] documentSchema columns ∧
      ∀ op ∈ [documentRow], ¬ NestedJsonAlone documentSchema (op.against columns) := by
  have ended : (DynamicInsert.endInsert documentRun.written).run
      [.endFormatted documentSql true [[2, 0x7B, 0x7D, 1, 2, 0x7B, 0x7D]] (.ok ())] =
        .done (.ok 1, { documentRun.written with active := none }) [] := rfl
  obtain ⟨schema, columns, _, known, fixed, _, _, covered⟩ :=
    jsonSetting_iff documentRun ended (List.mem_singleton_self _)
  obtain rfl : schema = documentSchema := (Option.some.inj known).symm
  exact ⟨columns, fixed, covered.mp fun _ => rfl⟩

/-- The elements of an array of documents are sent as texts without the setting. -/
def tagsSchema : DynamicSchema :=
  ⟨"db.t", [.new "tags" "Array(JSON)"]⟩

def tagsRow : WriteOp :=
  ⟨[("tags", .array [.string "\x7b\x7d"])], none⟩

def tagsSql : String :=
  (DynamicInsert.http "db" "t").insertSql documentEnv tagsSchema.columns "RowBinary"

def tagsRun : InsertRun documentEnv .http "db" "t" where
  opening := []
  insert := .http "db" "t"
  opened := by rfl
  ops := [tagsRow]
  writing := [.cacheGet "db.t" (some tagsSchema)]
  outcomes := [.ok ()]
  written :=
    { DynamicInsert.http "db" "t" with
      schema := some tagsSchema
      active := some ⟨tagsSchema.columns, .http tagsSql false [[1, 2, 0x7B, 0x7D]]⟩
      rowsWritten := 1 }
  wrote := by rfl

/-- The row is posted with the text of its tag, and without the setting. -/
theorem jsonSetting_fails_tags :
    (DynamicInsert.endInsert tagsRun.written).run
        [.endFormatted tagsSql false [[1, 2, 0x7B, 0x7D]] (.ok ())] =
      .done (.ok 1, { tagsRun.written with active := none }) [] ∧
    accepted tagsRun.ops tagsRun.outcomes = [tagsRow] ∧
    PiecesOf documentEnv tagsSchema.columns tagsRow [.other [1], .json (utf8 "\x7b\x7d")] ∧
    [Piece.other [1], .json (utf8 "\x7b\x7d")].flatMap Piece.bytes = [1, 2, 0x7B, 0x7D] :=
  ⟨rfl, rfl, ⟨by decide +kernel, (), rfl⟩, by decide +kernel⟩

end DfeClickhouse.Dynamic

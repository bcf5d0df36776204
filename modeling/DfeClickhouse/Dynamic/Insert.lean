import DfeClickhouse.Dynamic.Classify
import DfeClickhouse.Dynamic.RowBoundaries
import DfeClickhouse.Dynamic.SchemaCache
import DfeClickhouse.Library.Method
import DfeClickhouse.Native.Encode

/-!
# Dynamic inserts

A dynamic insert into one table, over HTTP or TCP.  The first row that gets so far fixes
the columns and opens the sink; rows are encoded against these columns from then on.
What the insert does outside of itself (the shared cache, the queries, the connection) is
a call with an answer.
-/

namespace DfeClickhouse.Dynamic

open Library Native

deriving instance DecidableEq for ColumnDef, DynamicSchema

/-- A row of the `system.columns` projection. -/
structure SysColumn where
  name : String
  colType : String
  defaultKind : String

/-- What a dynamic insert does outside of itself, with the answer it gets. -/
inductive Call
  | cacheGet (table : String) (found : Option DynamicSchema)
  | cacheInsert (table : String) (schema : DynamicSchema)
  | cacheInvalidate (table : String)
  /-- The schema query over HTTP. -/
  | fetchAll (sql : String) (answer : Except UpstreamError (List SysColumn))
  /-- The schema query over TCP, as the rows of its three columns. -/
  | fetchColumns (sql : String) (answer : Except Error (List SysColumn))
  /-- Open an INSERT over TCP: the revision of the server. -/
  | insertNative (sql : String) (answer : Except Error Nat)
  | sendBlock (columnBytes : Bytes) (numColumns numRows : Nat) (answer : Except Error Unit)
  | finish (answer : Except Error Unit)
  | abort
  /-- Finish an INSERT over HTTP: its statement, whether JSON is read as a string, and the
  rows that were buffered. -/
  | endFormatted (sql : String) (jsonAsString : Bool) (rows : List Bytes)
      (answer : Except UpstreamError Unit)

/-- What the insert takes from outside the repository: the texts of JSON values, and the
quoting of identifiers. -/
structure Env where
  json : JsonText
  sqlEscapeIdentifier : String → String

namespace Env

variable (env : Env)

def escapeIdent (name : String) : String :=
  env.sqlEscapeIdentifier name

/-- A text as a string literal: what stands between the delimiters of the identifier. -/
def quoteLiteral (value : String) : String :=
  let escaped := (env.sqlEscapeIdentifier value).toList
  "'" ++ String.ofList ((escaped.drop 1).dropLast) ++ "'"

/-- The projection a schema is read from. -/
def systemColumnsSql (database table : String) : String :=
  "SELECT name, type AS col_type, default_kind FROM system.columns WHERE database = " ++
    env.quoteLiteral database ++ " AND table = " ++ env.quoteLiteral table ++
    " ORDER BY position"

end Env

/-- Rows to schema; without any there is no such table. -/
def schemaFromSystemColumns (fullTable : String) (rows : List SysColumn) :
    Except DynamicError DynamicSchema :=
  let columns := rows.map fun row => ColumnDef.withDefaultKind row.name row.colType row.defaultKind
  if columns.isEmpty then .error (.emptySchema fullTable)
  else .ok ⟨fullTable, columns⟩

/-- Whether a column is of the JSON type. -/
def DynamicSchema.hasJsonColumns (schema : DynamicSchema) : Bool :=
  schema.columns.any fun column => column.ty.info.tag = .json

/-- Flush a block at this many encoded bytes. -/
def blockFlushBytes : Nat := 2 ^ 20

/-- Flush a block at this many rows. -/
def defaultInsertBlockRows : Nat := 1000000

/-- Rows held for the next block, and emptied buffers for those after. -/
structure RowBlock where
  rows : List Bytes := []
  spare : List Bytes := []
  bytes : Nat := 0

namespace RowBlock

/-- Encode a row into a recycled buffer.  A row that fails gives its buffer back. -/
def push (block : RowBlock) (json : JsonText) (row : DynamicRow) :
    Except DynamicError Unit × RowBlock :=
  -- the buffer is cleared, so what it held is of no matter
  let spare := block.spare.dropLast
  let encoded := row.encodeInto json
  match encoded.result with
  | .error error => (.error error, { block with spare := spare ++ [encoded.written] })
  | .ok () =>
      (.ok (), { rows := block.rows ++ [encoded.written], spare := spare,
                 bytes := block.bytes + encoded.written.length })

def isFull (block : RowBlock) (rowCap : Nat) : Bool :=
  blockFlushBytes ≤ block.bytes || rowCap ≤ block.rows.length

/-- Take the rows for a send and keep their buffers. -/
def recycle (block : RowBlock) : RowBlock :=
  { rows := [], spare := block.spare ++ block.rows, bytes := 0 }

end RowBlock

/-- The transport of an insert. -/
inductive Backend
  | http
  | tcp
  deriving DecidableEq

/-- The sink opened on the first write. -/
inductive OpenSink
  | http (sql : String) (jsonAsString : Bool) (rows : List Bytes)
  | tcp (native : List ColumnSchema) (serverRevision : Nat) (block : RowBlock)

/-- The columns fixed by the first row, and the sink. -/
structure Active where
  columns : List ColumnDef
  sink : OpenSink

/-- A dynamic insert into one table. -/
structure DynamicInsert where
  backend : Backend
  database : String
  table : String
  schema : Option DynamicSchema := none
  active : Option Active := none
  rowsWritten : Nat := 0

namespace DynamicInsert

/-- Over HTTP the schema is read on the first write. -/
def http (database table : String) : DynamicInsert :=
  { backend := .http, database := database, table := table }

/-- Over TCP the caller has it. -/
def tcp (database table : String) (schema : DynamicSchema) : DynamicInsert :=
  { backend := .tcp, database := database, table := table, schema := some schema }

def fullTable (insert : DynamicInsert) : String :=
  Dynamic.fullTable insert.database insert.table

end DynamicInsert

section Calls

variable {σ δ : Type}

def cacheGet (table : String) : Method Call σ δ (Option DynamicSchema) :=
  Method.await fun call =>
    match call with
    | .cacheGet asked found => if asked = table then some found else none
    | _ => none

def cacheInsert (table : String) (schema : DynamicSchema) : Method Call σ δ Unit :=
  Method.await fun call =>
    match call with
    | .cacheInsert key held => if key = table ∧ held = schema then some () else none
    | _ => none

def cacheInvalidate (table : String) : Method Call σ δ Unit :=
  Method.await fun call =>
    match call with
    | .cacheInvalidate key => if key = table then some () else none
    | _ => none

def fetchAll (sql : String) : Method Call σ δ (Except UpstreamError (List SysColumn)) :=
  Method.await fun call =>
    match call with
    | .fetchAll asked answer => if asked = sql then some answer else none
    | _ => none

def fetchColumns (sql : String) : Method Call σ δ (Except Error (List SysColumn)) :=
  Method.await fun call =>
    match call with
    | .fetchColumns asked answer => if asked = sql then some answer else none
    | _ => none

def insertNative (sql : String) : Method Call σ δ (Except Error Nat) :=
  Method.await fun call =>
    match call with
    | .insertNative asked answer => if asked = sql then some answer else none
    | _ => none

def sessionSendBlock (columnBytes : Bytes) (numColumns numRows : Nat) :
    Method Call σ δ (Except Error Unit) :=
  Method.await fun call =>
    match call with
    | .sendBlock bytes columns rows answer =>
        if bytes = columnBytes ∧ columns = numColumns ∧ rows = numRows then some answer else none
    | _ => none

def sessionFinish : Method Call σ δ (Except Error Unit) :=
  Method.await fun call =>
    match call with
    | .finish answer => some answer
    | _ => none

def sessionAbort : Method Call σ δ Unit :=
  Method.await fun call =>
    match call with
    | .abort => some ()
    | _ => none

def endFormatted (sql : String) (jsonAsString : Bool) (rows : List Bytes) :
    Method Call σ δ (Except UpstreamError Unit) :=
  Method.await fun call =>
    match call with
    | .endFormatted statement setting held answer =>
        if statement = sql ∧ setting = jsonAsString ∧ held = rows then some answer else none
    | _ => none

end Calls

/-- A method of something that a dynamic insert drives. -/
abbrev Driven (σ : Type) := Method Call σ DynamicError

/-- Read the schema of a table over HTTP. -/
def fetchDynamicSchema {σ : Type} (env : Env) (database table : String) :
    Driven σ DynamicSchema := do
  let full := fullTable database table
  match ← fetchAll (env.systemColumnsSql database table) with
  | .error source => Method.throw (.schemaFetch full source)
  | .ok rows => Method.ofExcept (schemaFromSystemColumns full rows)

/-- Transpose the rows of a block and send it.  A block that cannot be transposed keeps its
rows; one that cannot be sent does not. -/
def sendBlock (native : List ColumnSchema) (serverRevision : Nat) (full : String) :
    Driven RowBlock Unit := do
  let block ← Method.get
  if block.rows.isEmpty then
    return ()
  match encodeColumns block.rows native serverRevision with
  | .error error => Method.throw (classifyError full error)
  | .ok bytes =>
      Method.modify RowBlock.recycle
      match ← sessionSendBlock bytes native.length block.rows.length with
      | .error error => Method.throw (classifyError full error)
      | .ok () => return ()

/-- The columns of an INSERT: those in the row, those written raw, and those without a
default. -/
def selectColumns (row : List (String × Value)) (rawNames : List String)
    (schema : DynamicSchema) : List ColumnDef :=
  schema.columns.filter fun column =>
    (row.lookup column.name).isSome || rawNames.contains column.name || !column.hasDefault

namespace DynamicInsert

/-- Load the schema, from the cache or from the server. -/
def ensureSchema (env : Env) : Driven DynamicInsert Unit := do
  let insert ← Method.get
  match insert.schema, insert.backend with
  | some _, _ => return ()
  | none, .tcp => return ()
  | none, .http =>
      match ← cacheGet insert.fullTable with
      | some cached => Method.modify fun insert => { insert with schema := some cached }
      | none =>
          let fetched ← fetchDynamicSchema env insert.database insert.table
          cacheInsert insert.fullTable fetched
          Method.modify fun insert => { insert with schema := some fetched }

/-- The statement of an INSERT. -/
def insertSql (env : Env) (insert : DynamicInsert) (columns : List ColumnDef) (format : String) :
    String :=
  "INSERT INTO " ++ env.escapeIdent insert.database ++ "." ++ env.escapeIdent insert.table ++
    " (" ++ ", ".intercalate (columns.map fun column => env.escapeIdent column.name) ++
    ") FORMAT " ++ format

/-- Open the sink for some columns. -/
def openSink (env : Env) (insert : DynamicInsert) (schema : DynamicSchema)
    (columns : List ColumnDef) : Driven DynamicInsert OpenSink :=
  match insert.backend with
  | .http => return .http (insert.insertSql env columns "RowBinary") schema.hasJsonColumns []
  | .tcp => do
      match ColumnSchema.fromHeaders (headers columns) with
      | .error error => Method.throw (classifyError insert.fullTable error)
      | .ok native =>
          match ← insertNative (insert.insertSql env columns "Native") with
          | .error error => Method.throw (classifyError insert.fullTable error)
          | .ok serverRevision => return .tcp native serverRevision {}

/-- On the first row, fix the columns and open the sink. -/
def ensureActive (env : Env) (row : List (String × Value)) (rawNames : List String) :
    Driven DynamicInsert Unit := do
  let insert ← Method.get
  if insert.active.isSome then
    return ()
  match insert.schema with
  | none => Method.throw (.encodingError "" "schema not available after fetch")
  | some schema =>
      let columns := selectColumns row rawNames schema
      if columns.isEmpty then
        Method.throw (.encodingError "" "no columns to insert for this row")
      let sink ← openSink env insert schema columns
      Method.modify fun insert => { insert with active := some ⟨columns, sink⟩ }

/-- Hold a row for the next block, and send the block once it is full. -/
def pushRow (env : Env) (native : List ColumnSchema) (serverRevision : Nat) (full : String)
    (row : DynamicRow) : Driven RowBlock Unit := do
  let block ← Method.get
  let (pushed, block) := block.push env.json row
  Method.modify fun _ => block
  Method.ofExcept pushed
  if block.isFull defaultInsertBlockRows then
    sendBlock native serverRevision full

/-- Hand a row to the sink. -/
def sinkRow (env : Env) (row : DynamicRow) (columns : List ColumnDef) :
    OpenSink → Driven DynamicInsert Unit
  | .http sql jsonAsString rows =>
      match (row.encodeInto env.json).result with
      | .error error => Method.throw error
      | .ok () => Method.modify fun insert =>
          { insert with
            active := some ⟨columns, .http sql jsonAsString
              (rows ++ [(row.encodeInto env.json).written])⟩ }
  | .tcp native serverRevision block => do
      let insert ← Method.get
      Method.focus (fun _ => block)
        (fun insert block =>
          { insert with active := some ⟨columns, .tcp native serverRevision block⟩ })
        (pushRow env native serverRevision insert.fullTable row)

/-- Write a row; one of its columns may be given as raw text. -/
def write (env : Env) (row : List (String × Value)) (rawNames : List String)
    (passthrough : Option (String × Bytes)) : Driven DynamicInsert Unit := do
  ensureSchema env
  ensureActive env row rawNames
  let insert ← Method.get
  match insert.active with
  | none => Method.throw (.encodingError "" "insert sink not initialised")
  | some active =>
      sinkRow env ⟨row, active.columns, passthrough⟩ active.columns active.sink
      Method.modify fun insert => { insert with rowsWritten := insert.rowsWritten + 1 }

def writeMap (env : Env) (row : List (String × Value)) : Driven DynamicInsert Unit :=
  write env row [] none

def writeMapWithRaw (env : Env) (row : List (String × Value)) (passthrough : String × Bytes) :
    Driven DynamicInsert Unit :=
  write env row [passthrough.1] (some passthrough)

/-- Drop the cached schema.  Over TCP the caller owns it. -/
def invalidateSchema : Driven DynamicInsert Unit := do
  let insert ← Method.get
  match insert.backend with
  | .http =>
      cacheInvalidate insert.fullTable
      Method.modify fun insert => { insert with schema := none }
  | .tcp => return ()

/-- Finish the open sink. -/
def finishSink (full : String) : OpenSink → Driven DynamicInsert Unit
  | .http sql jsonAsString rows => do
      match ← endFormatted sql jsonAsString rows with
      | .error error => Method.throw (classifyError full (.ofUpstream error))
      | .ok () => return ()
  | .tcp native serverRevision block => do
      -- the block is a local of the call
      match ← Method.attempt (Method.focus (fun _ => block) (fun insert _ => insert)
          (sendBlock native serverRevision full)) with
      | .error error =>
          sessionAbort
          Method.throw error
      | .ok () =>
          match ← sessionFinish with
          | .error error => Method.throw (classifyError full error)
          | .ok () => return ()

/-- `end`: flush and finish the INSERT, returning the number of rows written. -/
def endInsert : Driven DynamicInsert Nat := do
  let insert ← Method.get
  Method.modify fun insert => { insert with active := none }
  let outcome ← Method.attempt (match insert.active with
    | none => pure ()
    | some active => finishSink insert.fullTable active.sink)
  match outcome with
  | .error error =>
      if variant error = .schemaMismatch then
        invalidateSchema
      Method.throw error
  | .ok () => return insert.rowsWritten

end DynamicInsert

/-- One write: a row, and the raw text of one column if it is given. -/
structure WriteOp where
  row : List (String × Value)
  raw : Option (String × Bytes) := none

namespace WriteOp

def rawNames (op : WriteOp) : List String :=
  op.raw.toList.map Prod.fst

/-- The row of a write, against some columns. -/
def against (op : WriteOp) (columns : List ColumnDef) : DynamicRow :=
  ⟨op.row, columns, op.raw⟩

def write (env : Env) (op : WriteOp) : Driven DynamicInsert Unit :=
  match op.raw with
  | none => DynamicInsert.writeMap env op.row
  | some passthrough => DynamicInsert.writeMapWithRaw env op.row passthrough

theorem write_eq (env : Env) (op : WriteOp) :
    op.write env = DynamicInsert.write env op.row op.rawNames op.raw := by
  obtain ⟨row, raw⟩ := op
  cases raw <;> rfl

end WriteOp

/-- Open a dynamic insert through a client.  Over TCP the schema is read here, from the
cache or from the server. -/
def dynamicInsert (env : Env) (transport : Backend) (database table : String) :
    Method Call Unit Error DynamicInsert :=
  match transport with
  | .http => return .http database table
  | .tcp => do
      let full := fullTable database table
      match ← cacheGet full with
      | some cached => return .tcp database table cached
      | none =>
          match ← fetchColumns (env.systemColumnsSql database table) with
          | .error error => Method.throw error
          | .ok rows =>
              match schemaFromSystemColumns full rows with
              | .error error => Method.throw (.dynamic error)
              | .ok fetched =>
                  cacheInsert full fetched
                  return .tcp database table fetched

section CallRuns

variable {σ δ α β : Type} {object after : σ} {calls rest : List Call} {result : Except δ β}

theorem run_call_iff {ready : Call → Option α} {make : α → Call}
    (only : ∀ call value, ready call = some value ↔ call = make value)
    {next : α → Method Call σ δ β} :
    ((Method.await ready >>= next) object).run calls = .done (result, after) rest ↔
      ∃ value left, calls = make value :: left ∧
        (next value object).run left = .done (result, after) rest := by
  rw [Method.run_await_bind_iff]
  constructor
  · rintro ⟨call, value, left, rfl, taken, ran⟩
    rw [(only call value).mp taken]
    exact ⟨value, left, rfl, ran⟩
  · rintro ⟨value, left, rfl, ran⟩
    exact ⟨make value, value, left, rfl, (only _ _).mpr rfl, ran⟩

theorem run_cacheGet_iff {table : String} {next : Option DynamicSchema → Method Call σ δ β} :
    ((cacheGet table >>= next) object).run calls = .done (result, after) rest ↔
      ∃ answer left, calls = .cacheGet table answer :: left ∧
        (next answer object).run left = .done (result, after) rest := by
  apply run_call_iff
  intro call value
  cases call <;> simp

theorem run_cacheInsert_iff {table : String} {schema : DynamicSchema}
    {next : Unit → Method Call σ δ β} :
    ((cacheInsert table schema >>= next) object).run calls = .done (result, after) rest ↔
      ∃ answer left, calls = .cacheInsert table schema :: left ∧
        (next answer object).run left = .done (result, after) rest := by
  apply run_call_iff
  intro call value
  cases call <;> simp

theorem run_cacheInvalidate_iff {table : String} {next : Unit → Method Call σ δ β} :
    ((cacheInvalidate table >>= next) object).run calls = .done (result, after) rest ↔
      ∃ answer left, calls = .cacheInvalidate table :: left ∧
        (next answer object).run left = .done (result, after) rest := by
  apply run_call_iff
  intro call value
  cases call <;> simp

theorem run_fetchAll_iff {sql : String}
    {next : Except UpstreamError (List SysColumn) → Method Call σ δ β} :
    ((fetchAll sql >>= next) object).run calls = .done (result, after) rest ↔
      ∃ answer left, calls = .fetchAll sql answer :: left ∧
        (next answer object).run left = .done (result, after) rest := by
  apply run_call_iff
  intro call value
  cases call <;> simp

theorem run_fetchColumns_iff {sql : String}
    {next : Except Error (List SysColumn) → Method Call σ δ β} :
    ((fetchColumns sql >>= next) object).run calls = .done (result, after) rest ↔
      ∃ answer left, calls = .fetchColumns sql answer :: left ∧
        (next answer object).run left = .done (result, after) rest := by
  apply run_call_iff
  intro call value
  cases call <;> simp

theorem run_insertNative_iff {sql : String} {next : Except Error Nat → Method Call σ δ β} :
    ((insertNative sql >>= next) object).run calls = .done (result, after) rest ↔
      ∃ answer left, calls = .insertNative sql answer :: left ∧
        (next answer object).run left = .done (result, after) rest := by
  apply run_call_iff
  intro call value
  cases call <;> simp

theorem run_sessionSendBlock_iff {columnBytes : Bytes} {numColumns numRows : Nat}
    {next : Except Error Unit → Method Call σ δ β} :
    ((sessionSendBlock columnBytes numColumns numRows >>= next) object).run calls =
      .done (result, after) rest ↔
      ∃ answer left, calls = .sendBlock columnBytes numColumns numRows answer :: left ∧
        (next answer object).run left = .done (result, after) rest := by
  apply run_call_iff
  intro call value
  cases call <;> simp [and_assoc]

theorem run_sessionFinish_iff {next : Except Error Unit → Method Call σ δ β} :
    ((sessionFinish >>= next) object).run calls = .done (result, after) rest ↔
      ∃ answer left, calls = .finish answer :: left ∧
        (next answer object).run left = .done (result, after) rest := by
  apply run_call_iff
  intro call value
  cases call <;> simp

theorem run_sessionAbort_iff {next : Unit → Method Call σ δ β} :
    ((sessionAbort >>= next) object).run calls = .done (result, after) rest ↔
      ∃ answer left, calls = .abort :: left ∧
        (next answer object).run left = .done (result, after) rest := by
  apply run_call_iff
  intro call value
  cases call <;> simp

theorem run_endFormatted_iff {sql : String} {jsonAsString : Bool} {rows : List Bytes}
    {next : Except UpstreamError Unit → Method Call σ δ β} :
    ((endFormatted sql jsonAsString rows >>= next) object).run calls = .done (result, after) rest ↔
      ∃ answer left, calls = .endFormatted sql jsonAsString rows answer :: left ∧
        (next answer object).run left = .done (result, after) rest := by
  apply run_call_iff
  intro call value
  cases call <;> simp [and_assoc]

end CallRuns

end DfeClickhouse.Dynamic

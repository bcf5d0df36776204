import DfeClickhouse.Dynamic.InsertSteps
import DfeClickhouse.Dynamic.RowErrors

/-!
# Recovery from a stale schema

Over whole runs of a dynamic insert, with other callers at the same cache: an insert over
HTTP that ends with a schema mismatch has dropped the cached schema.  An insert over TCP
leaves the cache to its caller.
-/

namespace DfeClickhouse.Dynamic

open Library Native

/-- A dynamic insert that was opened through a client, and the writes to it. -/
structure InsertRun (env : Env) (transport : Backend) (database table : String) where
  opening : List Call
  insert : DynamicInsert
  opened : (dynamicInsert env transport database table ()).run opening =
    .done (.ok insert, ()) []
  ops : List WriteOp
  writing : List Call
  outcomes : List (Except DynamicError Unit)
  written : DynamicInsert
  wrote : (Method.outcomes (WriteOp.write env) ops insert).run writing =
    .done (outcomes, written) []

/-- The shared cache and the clock move with a call of the insert.  Other callers may have
used the cache before it, and time may have passed. -/
def CacheMoves (state : DynamicSchemaCache × Nat) (call : Call)
    (next : DynamicSchemaCache × Nat) : Prop :=
  ∃ others : List CacheOp,
    let seen := others.foldl CacheOp.apply state
    match call with
    | .cacheGet table found => found = seen.1.get table seen.2 ∧ next = seen
    | .cacheInsert table schema => next = (seen.1.insert table schema seen.2, seen.2)
    | .cacheInvalidate table => next = (seen.1.invalidate table, seen.2)
    | _ => next = seen

/-- Whether a call is one to the cache. -/
def Call.isCache : Call → Bool
  | .cacheGet .. | .cacheInsert .. | .cacheInvalidate .. => true
  | _ => false

/-- An outcome that is a schema mismatch. -/
def IsMismatch {α : Type} (outcome : Except DynamicError α) : Prop :=
  ∃ error, outcome = .error error ∧ variant error = .schemaMismatch

/-- Whenever a write or the end of an insert comes back with a schema mismatch, the cache
has no entry for the table. -/
def RecoversFromMismatch (env : Env) (transport : Backend) : Prop :=
  ∀ database table (run : InsertRun env transport database table) start final,
    (∀ outcome, run.outcomes.getLast? = some outcome → IsMismatch outcome →
      Script.Runs CacheMoves start (run.opening ++ run.writing) final →
      final.1.inner.lookup (fullTable database table) = none) ∧
    ∀ ending outcome after, (DynamicInsert.endInsert run.written).run ending =
        .done (outcome, after) [] → IsMismatch outcome →
      Script.Runs CacheMoves start (run.opening ++ run.writing ++ ending) final →
      final.1.inner.lookup (fullTable database table) = none

def OpenSink.backend : OpenSink → Backend
  | .http .. => .http
  | .tcp .. => .tcp

/-- An insert into a table over a transport. -/
structure IsInto (transport : Backend) (database table : String) (insert : DynamicInsert) :
    Prop where
  backend : insert.backend = transport
  database : insert.database = database
  table : insert.table = table
  sink : ∀ active, insert.active = some active → active.sink.backend = transport

variable {env : Env} {transport : Backend} {database table : String}
  {insert after : DynamicInsert} {op : WriteOp} {used : List Call}
  {result : Except DynamicError Unit}

theorem IsInto.fullTable (into : IsInto transport database table insert) :
    insert.fullTable = Dynamic.fullTable database table := by
  rw [DynamicInsert.fullTable, into.database, into.table]

theorem SchemaStep.isInto (step : SchemaStep env insert used result after)
    (into : IsInto transport database table insert) : IsInto transport database table after := by
  cases step <;> exact ⟨into.backend, into.database, into.table, into.sink⟩

theorem OpenStep.backend {schema : DynamicSchema} {columns : List ColumnDef} {sink : OpenSink}
    (step : OpenStep env insert schema columns used (.ok sink)) :
    sink.backend = insert.backend := by
  cases step with
  | http backend => exact backend.symm
  | tcp backend => exact backend.symm

theorem ActiveStep.isInto (step : ActiveStep env op insert used result after)
    (into : IsInto transport database table insert) : IsInto transport database table after := by
  cases step with
  | held => exact into
  | refused => exact into
  | unopened => exact into
  | opened closed known step =>
      refine ⟨into.backend, into.database, into.table, ?_⟩
      rintro _ ⟨⟩
      exact step.backend.trans into.backend

theorem SinkStep.backend {full : String} {row : DynamicRow} {sink later : OpenSink}
    (step : SinkStep env full row sink used result later) : later.backend = sink.backend := by
  cases step <;> rfl

theorem WriteStep.isInto (step : WriteStep env op insert used result after)
    (into : IsInto transport database table insert) : IsInto transport database table after := by
  cases step with
  | noSchema schema => exact schema.isInto into
  | noSink schema active => exact active.isInto (schema.isInto into)
  | written schema active isOpen step =>
      have ready := active.isInto (schema.isInto into)
      refine ⟨ready.backend, ready.database, ready.table, ?_⟩
      rintro _ ⟨⟩
      exact step.backend.trans (ready.sink _ isOpen)

theorem isInto_of_opened {calls rest : List Call}
    (opened : (dynamicInsert env transport database table ()).run calls =
      .done (.ok insert, ()) rest) : IsInto transport database table insert := by
  have closed : ∀ active, (none : Option Active) = some active →
      active.sink.backend = transport := by
    rintro _ ⟨⟩
  rcases dynamicInsert_run opened with ⟨rfl, rfl⟩ | ⟨rfl, schema, rfl⟩
  · exact ⟨rfl, rfl, rfl, closed⟩
  · exact ⟨rfl, rfl, rfl, closed⟩

/-- What each write yields from an insert into the table, all writes yield; every one of
them keeps what the insert is into. -/
theorem InsertRun.keeps {holds : List (Except DynamicError Unit) → List Call → Prop}
    (run : InsertRun env transport database table) (start : holds [] [])
    (each : ∀ outcomes history op insert used result after,
      IsInto transport database table insert → holds outcomes history →
      WriteStep env op insert used result after →
      holds (outcomes ++ [result]) (history ++ used)) :
    IsInto transport database table run.written ∧ holds run.outcomes run.writing := by
  apply @Method.outcomes_keeps _ _ _ _ _ (WriteOp.write env)
    (fun _ outcomes history insert =>
      IsInto transport database table insert ∧ holds outcomes history) _ [] run.ops [] run.outcomes
      [] run.writing [] run.insert run.written
  · exact ⟨isInto_of_opened run.opened, start⟩
  · simpa using run.wrote
  · rintro _ outcomes history insert op used rest result after ⟨into, held⟩ ran
    obtain ⟨taken, split, step⟩ := write_step ran
    obtain rfl := List.append_cancel_right split
    exact ⟨step.isInto into, each outcomes history op insert used result after into held step⟩

theorem Blames.not_mismatch {col : String} {error : DynamicError} (blames : Blames col error) :
    variant error ≠ .schemaMismatch := by
  intro mismatch
  rcases blames with ⟨_, rfl⟩ | ⟨_, rfl⟩ <;> cases mismatch

theorem SchemaStep.not_mismatch (step : SchemaStep env insert used result after) :
    ¬ IsMismatch result := by
  rintro ⟨error, rfl, mismatch⟩
  cases step with
  | unread => cases mismatch
  | absent unknown http empty =>
      unfold schemaFromSystemColumns at empty
      dsimp only at empty
      split at empty
      · cases empty
        cases mismatch
      · cases empty

/-- A write over HTTP sends nothing, and so never learns that the schema is stale. -/
theorem WriteStep.not_mismatch (step : WriteStep env op insert used result after)
    (into : IsInto .http database table insert) : ¬ IsMismatch result := by
  cases step with
  | noSchema schema => exact schema.not_mismatch
  | noSink schema active =>
      have loaded := schema.isInto into
      rintro ⟨_, ⟨⟩, mismatch⟩
      cases active with
      | refused => cases mismatch
      | unopened closed step =>
          cases step with
          | untyped backend | unopened backend =>
              rw [loaded.backend] at backend
              cases backend
  | written schema active isOpen step =>
      have ready := active.isInto (schema.isInto into)
      rintro ⟨error, rfl, mismatch⟩
      cases step with
      | rejected failed =>
          obtain ⟨column, _, blames⟩ := blames_of_encodeInto failed
          exact blames.not_mismatch mismatch
      | pushed step => cases ready.sink _ isOpen

/-- The entry of a table is gone once it is invalidated. -/
theorem lookup_invalidated {start final : DynamicSchemaCache × Nat} {calls : List Call}
    {table : String}
    (runs : Script.Runs CacheMoves start (calls ++ [.cacheInvalidate table]) final) :
    final.1.inner.lookup table = none := by
  obtain ⟨middle, _, next, ⟨others, rfl⟩, rfl⟩ := Script.runs_append_iff.mp runs
  rw [DynamicSchemaCache.invalidate, lookup_filter_ne, if_pos rfl]

theorem recoversFromMismatch_http (env : Env) : RecoversFromMismatch env .http := by
  intro database table run start final
  have clean : IsInto .http database table run.written ∧
      ∀ outcome ∈ run.outcomes, ¬ IsMismatch outcome := by
    apply @InsertRun.keeps _ _ _ _ (fun outcomes _ => ∀ outcome ∈ outcomes, ¬ IsMismatch outcome)
    · intro outcome member
      cases member
    · intro outcomes history op insert used result after into held step outcome member
      rcases List.mem_append.mp member with member | member
      · exact held outcome member
      · rw [List.mem_singleton.mp member]
        exact step.not_mismatch into
  obtain ⟨into, clean⟩ := clean
  constructor
  · intro outcome last mismatch
    exact absurd mismatch (clean outcome (List.mem_of_getLast? last))
  · intro ending outcome after ran mismatch runs
    obtain ⟨used, split, step⟩ := endInsert_step ran
    rw [List.append_nil] at split
    subst split
    obtain ⟨error, rfl, stale⟩ := mismatch
    cases step with
    | failed isOpen step kept =>
        have tcp := kept stale
        rw [into.backend] at tcp
        cases tcp
    | invalidated isOpen step http =>
        rw [← into.fullTable]
        rw [← List.append_assoc] at runs
        exact lookup_invalidated runs

/-- No call is one to the cache. -/
def LeavesCache (calls : List Call) : Prop :=
  ∀ call ∈ calls, call.isCache = false

theorem leavesCache_nil : LeavesCache [] := by
  intro call member
  cases member

theorem LeavesCache.append {first second : List Call} (before : LeavesCache first)
    (later : LeavesCache second) : LeavesCache (first ++ second) := by
  intro call member
  rcases List.mem_append.mp member with member | member
  · exact before call member
  · exact later call member

theorem leavesCache_single {call : Call} (other : call.isCache = false) : LeavesCache [call] := by
  intro member isMember
  rw [List.mem_singleton.mp isMember]
  exact other

theorem SchemaStep.leavesCache (step : SchemaStep env insert used result after)
    (tcp : insert.backend = .tcp) : LeavesCache used := by
  cases step with
  | held => exact leavesCache_nil
  | cached unknown http | unread unknown http | absent unknown http | fetched unknown http =>
      rw [tcp] at http
      cases http

theorem OpenStep.leavesCache {schema : DynamicSchema} {columns : List ColumnDef}
    {opened : Except DynamicError OpenSink}
    (step : OpenStep env insert schema columns used opened) : LeavesCache used := by
  cases step with
  | http | untyped => exact leavesCache_nil
  | unopened | tcp => exact leavesCache_single rfl

theorem ActiveStep.leavesCache (step : ActiveStep env op insert used result after) :
    LeavesCache used := by
  cases step with
  | held | refused => exact leavesCache_nil
  | unopened closed step | opened closed known step => exact step.leavesCache

theorem SendStep.leavesCache {native : List ColumnSchema} {serverRevision : Nat} {full : String}
    {block later : RowBlock} (step : SendStep native serverRevision full block used result later) :
    LeavesCache used := by
  cases step with
  | nothing | jammed => exact leavesCache_nil
  | sent => exact leavesCache_single rfl

theorem SinkStep.leavesCache {full : String} {row : DynamicRow} {sink later : OpenSink}
    (step : SinkStep env full row sink used result later) : LeavesCache used := by
  cases step with
  | rejected | buffered => exact leavesCache_nil
  | pushed step =>
      cases step with
      | rejected | held => exact leavesCache_nil
      | flushed writes isFull send => exact send.leavesCache

theorem WriteStep.leavesCache (step : WriteStep env op insert used result after)
    (into : IsInto .tcp database table insert) : LeavesCache used := by
  cases step with
  | noSchema schema => exact schema.leavesCache into.backend
  | noSink schema active => exact (schema.leavesCache into.backend).append active.leavesCache
  | written schema active isOpen step =>
      exact (schema.leavesCache into.backend).append (active.leavesCache.append step.leavesCache)

theorem FinishStep.leavesCache {full : String} {sink : OpenSink}
    (step : FinishStep full sink used result) : LeavesCache used := by
  cases step with
  | rejected | accepted => exact leavesCache_single rfl
  | unsent send => exact send.leavesCache.append (leavesCache_single rfl)
  | finished send answer => exact send.leavesCache.append (leavesCache_single rfl)

theorem EndStep.leavesCache {ended : Except DynamicError Nat} (step : EndStep insert used ended)
    (into : IsInto .tcp database table insert) : LeavesCache used := by
  cases step with
  | unopened => exact leavesCache_nil
  | finished isOpen step | failed isOpen step => exact step.leavesCache
  | invalidated isOpen step http =>
      rw [into.backend] at http
      cases http

/-- Once it is open, an insert over TCP makes no call to the cache. -/
theorem InsertRun.leavesCache (run : InsertRun env .tcp database table) :
    IsInto .tcp database table run.written ∧ LeavesCache run.writing := by
  apply @InsertRun.keeps _ _ _ _ (fun _ history => LeavesCache history)
  · exact leavesCache_nil
  · intro outcomes history op insert used result after into held step
    exact held.append (step.leavesCache into)

/-- Over HTTP a schema mismatch leaves no entry for the table in the cache.  Over TCP the
caller owns the schema: neither the writes nor the end of an insert touch the cache. -/
theorem schemaMismatch_recovery (env : Env) :
    RecoversFromMismatch env .http ∧
      ∀ database table (run : InsertRun env .tcp database table),
        LeavesCache run.writing ∧
          ∀ ending outcome after, (DynamicInsert.endInsert run.written).run ending =
            .done (outcome, after) [] → LeavesCache ending := by
  refine ⟨recoversFromMismatch_http env, fun database table run => ?_⟩
  obtain ⟨into, quiet⟩ := run.leavesCache
  refine ⟨quiet, fun ending outcome after ran => ?_⟩
  obtain ⟨used, split, step⟩ := endInsert_step ran
  rw [List.append_nil] at split
  subst split
  exact step.leavesCache into

/-- Identifiers in backticks, and no texts of compound values. -/
def plainEnv : Env where
  json := plainTexts
  sqlEscapeIdentifier name := "`" ++ name ++ "`"

/-- A table of one number. -/
def numberSchema : DynamicSchema :=
  ⟨"db.t", [.withDefaultKind "n" "UInt8" ""]⟩

/-- The server does not know the column any more. -/
def unknownColumn : Error :=
  .serverException 16 none "No such column n in table db.t" none

def numberSql : String :=
  plainEnv.systemColumnsSql "db" "t"

def numberRow : WriteOp :=
  ⟨[("n", .number (.posInt 7))], none⟩

def formattedSql : String :=
  (DynamicInsert.http "db" "t").insertSql plainEnv numberSchema.columns "RowBinary"

/-- An insert over HTTP that has read the schema. -/
def bufferedRun : InsertRun plainEnv .http "db" "t" where
  opening := []
  insert := .http "db" "t"
  opened := by rfl
  ops := [numberRow]
  writing := [.cacheGet "db.t" none, .fetchAll numberSql (.ok [⟨"n", "UInt8", ""⟩]),
    .cacheInsert "db.t" numberSchema]
  outcomes := [.ok ()]
  written :=
    { DynamicInsert.http "db" "t" with
      schema := some numberSchema
      active := some ⟨numberSchema.columns, .http formattedSql false [[7]]⟩
      rowsWritten := 1 }
  wrote := by rfl

def unknownColumnBody : UpstreamError :=
  .badResponse "Code: 16. DB::Exception: No such column n. (NO_SUCH_COLUMN_IN_TABLE)"

theorem schemaMismatch_recovery_unknownColumn :
    ∀ start final, Script.Runs CacheMoves start (bufferedRun.writing ++
        [.endFormatted formattedSql false [[7]] (.error unknownColumnBody),
          .cacheInvalidate "db.t"]) final →
      final.1.inner.lookup "db.t" = none := by
  intro start final runs
  exact ((schemaMismatch_recovery plainEnv).1 "db" "t" bufferedRun start final).2 _
    (.error (.schemaMismatch "db.t" (Error.ofUpstream unknownColumnBody).display)) _ rfl
    ⟨_, rfl, rfl⟩ runs

def numberInsertSql : String :=
  (DynamicInsert.tcp "db" "t" numberSchema).insertSql plainEnv numberSchema.columns "Native"

/-- An insert whose statement is rejected. -/
def rejectedRun : InsertRun plainEnv .tcp "db" "t" where
  opening := [.cacheGet "db.t" none, .fetchColumns numberSql (.ok [⟨"n", "UInt8", ""⟩]),
    .cacheInsert "db.t" numberSchema]
  insert := .tcp "db" "t" numberSchema
  opened := by rfl
  ops := [numberRow]
  writing := [.insertNative numberInsertSql (.error unknownColumn)]
  outcomes := [.error (.schemaMismatch "db.t" unknownColumn.display)]
  written := .tcp "db" "t" numberSchema
  wrote := by rfl

/-- The rejected insert leaves the stale schema in the cache. -/
theorem recoversFromMismatch_fails_tcp : ¬ RecoversFromMismatch plainEnv .tcp := by
  intro recovers
  have gone := (recovers "db" "t" rejectedRun (⟨[], 300⟩, 0)
    ((⟨[], 300⟩ : DynamicSchemaCache).insert "db.t" numberSchema 0, 0)).1 _ rfl ⟨_, rfl, rfl⟩
      ⟨_, ⟨[], rfl, rfl⟩, _, ⟨[], rfl⟩, _, ⟨[], rfl⟩, _, ⟨[], rfl⟩, rfl⟩
  cases gone

end DfeClickhouse.Dynamic

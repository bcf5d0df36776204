import DfeClickhouse.Dynamic.Insert

/-!
# What the methods of a dynamic insert can do

One relation for each method: the calls it makes, its outcome, and the insert after it.
-/

namespace DfeClickhouse.Dynamic

open Library Native

variable {env : Env} {calls rest : List Call} {result : Except DynamicError Unit}

/-- The outcome of a call that is classified when it fails. -/
def classified (full : String) : Except Error Unit → Except DynamicError Unit
  | .ok () => .ok ()
  | .error error => .error (classifyError full error)

/-- A send of the rows of a block. -/
inductive SendStep (native : List ColumnSchema) (serverRevision : Nat) (full : String)
    (block : RowBlock) : List Call → Except DynamicError Unit → RowBlock → Prop
  | nothing (empty : block.rows = []) : SendStep native serverRevision full block [] (.ok ()) block
  | jammed {error : Error}
    (refused : encodeColumns block.rows native serverRevision = .error error) :
      SendStep native serverRevision full block [] (.error (classifyError full error)) block
  | sent {bytes : Bytes} (nonempty : block.rows ≠ [])
      (encoded : encodeColumns block.rows native serverRevision = .ok bytes)
      (answer : Except Error Unit) :
      SendStep native serverRevision full block
        [.sendBlock bytes native.length block.rows.length answer] (classified full answer)
        block.recycle

theorem sendBlock_step {native : List ColumnSchema} {serverRevision : Nat} {full : String}
    {block after : RowBlock}
    (ran : (sendBlock native serverRevision full block).run calls = .done (result, after) rest) :
    ∃ used, calls = used ++ rest ∧ SendStep native serverRevision full block used result after := by
  rw [sendBlock, Method.run_get_bind] at ran
  split at ran
  · rename_i empty
    obtain ⟨rfl, rfl, rfl⟩ := Method.run_pure_iff.mp ran
    exact ⟨[], rfl, .nothing (List.isEmpty_iff.mp empty)⟩
  · rename_i nonempty
    cases encoded : encodeColumns block.rows native serverRevision with
    | error error =>
        rw [encoded] at ran
        obtain ⟨rfl, rfl, rfl⟩ := Method.run_throw_iff.mp ran
        exact ⟨[], rfl, .jammed encoded⟩
    | ok bytes =>
        rw [encoded] at ran
        dsimp only at ran
        rw [Method.run_modify_bind] at ran
        have held : block.rows ≠ [] := fun empty => nonempty (List.isEmpty_iff.mpr empty)
        obtain ⟨answer, left, rfl, answered⟩ := run_sessionSendBlock_iff.mp ran
        have step := @SendStep.sent _ _ full _ _ held encoded answer
        cases answer with
        | error error =>
            obtain ⟨rfl, rfl, rfl⟩ := Method.run_throw_iff.mp answered
            exact ⟨_, rfl, step⟩
        | ok value =>
            obtain ⟨rfl, rfl, rfl⟩ := Method.run_pure_iff.mp answered
            exact ⟨_, rfl, step⟩

theorem push_of_failed {block : RowBlock} {row : DynamicRow} {error : DynamicError}
    (failed : (row.encodeInto env.json).result = .error error) :
    (block.push env.json row).1 = .error error ∧ (block.push env.json row).2.rows = block.rows := by
  simp only [RowBlock.push, failed, and_self]

theorem push_of_writes {block : RowBlock} {row : DynamicRow} {bytes : Bytes}
    (writes : Writer.Writes (row.encodeInto env.json) bytes) :
    (block.push env.json row).1 = .ok () ∧
      (block.push env.json row).2.rows = block.rows ++ [bytes] := by
  obtain ⟨rfl, value, succeeded⟩ := writes
  simp only [RowBlock.push, succeeded, and_self]

/-- A row that is handed to a block. -/
inductive RowStep (env : Env) (native : List ColumnSchema) (serverRevision : Nat) (full : String)
    (row : DynamicRow) (block : RowBlock) :
    List Call → Except DynamicError Unit → RowBlock → Prop
  | rejected {error : DynamicError} (failed : (row.encodeInto env.json).result = .error error) :
      RowStep env native serverRevision full row block [] (.error error)
        (block.push env.json row).2
  | held {bytes : Bytes} (writes : Writer.Writes (row.encodeInto env.json) bytes) :
      RowStep env native serverRevision full row block [] (.ok ()) (block.push env.json row).2
  | flushed {bytes : Bytes} {used : List Call} {result : Except DynamicError Unit}
      {after : RowBlock} (writes : Writer.Writes (row.encodeInto env.json) bytes)
      (isFull : (block.push env.json row).2.isFull defaultInsertBlockRows = true)
      (send : SendStep native serverRevision full (block.push env.json row).2 used result after) :
      RowStep env native serverRevision full row block used result after

theorem pushRow_step {native : List ColumnSchema} {serverRevision : Nat} {full : String}
    {row : DynamicRow} {block after : RowBlock}
    (ran : (DynamicInsert.pushRow env native serverRevision full row block).run calls =
      .done (result, after) rest) :
    ∃ used, calls = used ++ rest ∧
      RowStep env native serverRevision full row block used result after := by
  rw [DynamicInsert.pushRow, Method.run_get_bind, Method.run_modify_bind] at ran
  cases encoded : (row.encodeInto env.json).result with
  | error error =>
      rw [(push_of_failed encoded).1] at ran
      obtain ⟨_, threw, rfl⟩ | ⟨_, _, _, threw, _⟩ := Method.run_bind_iff.mp ran
      · obtain ⟨⟨⟩, rfl, rfl⟩ := Method.run_throw_iff.mp threw
        exact ⟨[], rfl, .rejected encoded⟩
      · obtain ⟨⟨⟩, _⟩ := Method.run_throw_iff.mp threw
  | ok value =>
      have writes : Writer.Writes (row.encodeInto env.json) (row.encodeInto env.json).written :=
        ⟨rfl, value, encoded⟩
      rw [(push_of_writes writes).1] at ran
      obtain ⟨_, went, rfl⟩ | ⟨_, _, _, went, ran⟩ := Method.run_bind_iff.mp ran
      · obtain ⟨⟨⟩, _⟩ := Method.run_ofExcept_iff.mp went
      · obtain ⟨⟨⟩, rfl, rfl⟩ := Method.run_ofExcept_iff.mp went
        split at ran
        · rename_i isFull
          obtain ⟨used, rfl, send⟩ := sendBlock_step ran
          exact ⟨used, rfl, .flushed writes isFull send⟩
        · obtain ⟨rfl, rfl, rfl⟩ := Method.run_pure_iff.mp ran
          exact ⟨[], rfl, .held writes⟩

variable {insert after : DynamicInsert} {op : WriteOp}

/-- The schema is held, cached, or read. -/
inductive SchemaStep (env : Env) (insert : DynamicInsert) :
    List Call → Except DynamicError Unit → DynamicInsert → Prop
  | held (known : insert.schema.isSome = true ∨ insert.backend = .tcp) :
      SchemaStep env insert [] (.ok ()) insert
  | cached (unknown : insert.schema = none) (http : insert.backend = .http)
    (schema : DynamicSchema) :
      SchemaStep env insert [.cacheGet insert.fullTable (some schema)] (.ok ())
        { insert with schema := some schema }
  | unread (unknown : insert.schema = none) (http : insert.backend = .http)
    (source : UpstreamError) :
      SchemaStep env insert [.cacheGet insert.fullTable none,
          .fetchAll (env.systemColumnsSql insert.database insert.table) (.error source)]
        (.error (.schemaFetch insert.fullTable source)) insert
  | absent (unknown : insert.schema = none) (http : insert.backend = .http)
      {rows : List SysColumn} {error : DynamicError}
      (empty : schemaFromSystemColumns insert.fullTable rows = .error error) :
      SchemaStep env insert [.cacheGet insert.fullTable none,
          .fetchAll (env.systemColumnsSql insert.database insert.table) (.ok rows)]
        (.error error) insert
  | fetched (unknown : insert.schema = none) (http : insert.backend = .http)
      {rows : List SysColumn} {schema : DynamicSchema}
      (read : schemaFromSystemColumns insert.fullTable rows = .ok schema) :
      SchemaStep env insert [.cacheGet insert.fullTable none,
          .fetchAll (env.systemColumnsSql insert.database insert.table) (.ok rows),
          .cacheInsert insert.fullTable schema]
        (.ok ()) { insert with schema := some schema }

theorem fetchDynamicSchema_run {database table : String}
    {outcome : Except DynamicError DynamicSchema}
    (ran : (fetchDynamicSchema env database table insert).run calls = .done (outcome, after) rest) :
    after = insert ∧ ∃ answer,
      calls = .fetchAll (env.systemColumnsSql database table) answer :: rest ∧
      outcome = match answer with
        | .error source => .error (.schemaFetch (fullTable database table) source)
        | .ok rows => schemaFromSystemColumns (fullTable database table) rows := by
  obtain ⟨answer, left, rfl, answered⟩ := run_fetchAll_iff.mp ran
  cases answer with
  | error source =>
      obtain ⟨rfl, rfl, rfl⟩ := Method.run_throw_iff.mp answered
      exact ⟨rfl, _, rfl, rfl⟩
  | ok rows =>
      obtain ⟨rfl, rfl, rfl⟩ := Method.run_ofExcept_iff.mp answered
      exact ⟨rfl, _, rfl, rfl⟩

theorem ensureSchema_step
    (ran : (DynamicInsert.ensureSchema env insert).run calls = .done (result, after) rest) :
    ∃ used, calls = used ++ rest ∧ SchemaStep env insert used result after := by
  rw [DynamicInsert.ensureSchema, Method.run_get_bind] at ran
  cases known : insert.schema with
  | some schema =>
      rw [known] at ran
      obtain ⟨rfl, rfl, rfl⟩ := Method.run_pure_iff.mp ran
      exact ⟨[], rfl, .held (.inl (by rw [known]; rfl))⟩
  | none =>
      rw [known] at ran
      cases backend : insert.backend with
      | tcp =>
          rw [backend] at ran
          obtain ⟨rfl, rfl, rfl⟩ := Method.run_pure_iff.mp ran
          exact ⟨[], rfl, .held (.inr backend)⟩
      | http =>
          rw [backend] at ran
          obtain ⟨found, left, rfl, asked⟩ := run_cacheGet_iff.mp ran
          cases found with
          | some schema =>
              obtain ⟨rfl, rfl, rfl⟩ := Method.run_modify_iff.mp asked
              exact ⟨_, rfl, .cached known backend schema⟩
          | none =>
              obtain ⟨error, failed, rfl⟩ | ⟨schema, middle, left', read, keeping⟩ :=
                Method.run_bind_iff.mp asked
              · obtain ⟨rfl, answer, rfl, same⟩ := fetchDynamicSchema_run failed
                cases answer with
                | error source =>
                    cases same
                    exact ⟨_, rfl, .unread known backend source⟩
                | ok rows => exact ⟨_, rfl, .absent known backend same.symm⟩
              · obtain ⟨rfl, answer, rfl, same⟩ := fetchDynamicSchema_run read
                obtain ⟨_, left, rfl, kept⟩ := run_cacheInsert_iff.mp keeping
                obtain ⟨rfl, rfl, rfl⟩ := Method.run_modify_iff.mp kept
                cases answer with
                | error source => cases same
                | ok rows => exact ⟨_, rfl, .fetched known backend same.symm⟩

/-- What opening a sink for some columns can do. -/
inductive OpenStep (env : Env) (insert : DynamicInsert) (schema : DynamicSchema)
    (columns : List ColumnDef) : List Call → Except DynamicError OpenSink → Prop
  | http (backend : insert.backend = .http) :
      OpenStep env insert schema columns []
        (.ok (.http (insert.insertSql env columns "RowBinary") schema.hasJsonColumns []))
  | untyped (backend : insert.backend = .tcp) (error : Error) :
      OpenStep env insert schema columns [] (.error (classifyError insert.fullTable error))
  | unopened (backend : insert.backend = .tcp) (error : Error) :
      OpenStep env insert schema columns
        [.insertNative (insert.insertSql env columns "Native") (.error error)]
        (.error (classifyError insert.fullTable error))
  | tcp (backend : insert.backend = .tcp) {native : List ColumnSchema}
      (typed : ColumnSchema.fromHeaders (headers columns) = .ok native) (serverRevision : Nat) :
      OpenStep env insert schema columns
        [.insertNative (insert.insertSql env columns "Native") (.ok serverRevision)]
        (.ok (.tcp native serverRevision {}))

theorem openSink_step {schema : DynamicSchema} {columns : List ColumnDef}
    {opened : Except DynamicError OpenSink} {object : DynamicInsert}
    (ran : (DynamicInsert.openSink env insert schema columns object).run calls =
      .done (opened, after) rest) :
    after = object ∧ ∃ used, calls = used ++ rest ∧
      OpenStep env insert schema columns used opened := by
  rw [DynamicInsert.openSink] at ran
  cases backend : insert.backend with
  | http =>
      rw [backend] at ran
      obtain ⟨rfl, rfl, rfl⟩ := Method.run_pure_iff.mp ran
      exact ⟨rfl, [], rfl, .http backend⟩
  | tcp =>
      rw [backend] at ran
      cases typed : ColumnSchema.fromHeaders (headers columns) with
      | error error =>
          simp only [typed] at ran
          obtain ⟨rfl, rfl, rfl⟩ := Method.run_throw_iff.mp ran
          exact ⟨rfl, [], rfl, .untyped backend error⟩
      | ok native =>
          simp only [typed] at ran
          obtain ⟨answer, left, rfl, answered⟩ := run_insertNative_iff.mp ran
          cases answer with
          | error error =>
              obtain ⟨rfl, rfl, rfl⟩ := Method.run_throw_iff.mp answered
              exact ⟨rfl, _, rfl, .unopened backend error⟩
          | ok serverRevision =>
              obtain ⟨rfl, rfl, rfl⟩ := Method.run_pure_iff.mp answered
              exact ⟨rfl, _, rfl, .tcp backend typed serverRevision⟩

/-- The sink is open already, is refused, or is opened for the columns of the row. -/
inductive ActiveStep (env : Env) (op : WriteOp) (insert : DynamicInsert) :
    List Call → Except DynamicError Unit → DynamicInsert → Prop
  | held (isOpen : insert.active.isSome = true) : ActiveStep env op insert [] (.ok ()) insert
  | refused (closed : insert.active = none) (message : String) :
      ActiveStep env op insert [] (.error (.encodingError "" message)) insert
  | unopened (closed : insert.active = none) {schema : DynamicSchema} {used : List Call}
      {error : DynamicError}
      (step : OpenStep env insert schema (selectColumns op.row op.rawNames schema) used
        (.error error)) :
      ActiveStep env op insert used (.error error) insert
  | opened (closed : insert.active = none) {schema : DynamicSchema}
      (known : insert.schema = some schema) {used : List Call} {sink : OpenSink}
      (step : OpenStep env insert schema (selectColumns op.row op.rawNames schema) used
        (.ok sink)) :
      ActiveStep env op insert used (.ok ())
        { insert with active := some ⟨selectColumns op.row op.rawNames schema, sink⟩ }

theorem ensureActive_step
    (ran : (DynamicInsert.ensureActive env op.row op.rawNames insert).run calls =
      .done (result, after) rest) :
    ∃ used, calls = used ++ rest ∧ ActiveStep env op insert used result after := by
  rw [DynamicInsert.ensureActive, Method.run_get_bind] at ran
  cases closed : insert.active with
  | some active =>
      rw [closed] at ran
      obtain ⟨rfl, rfl, rfl⟩ := Method.run_pure_iff.mp ran
      exact ⟨[], rfl, .held (by rw [closed]; rfl)⟩
  | none =>
      rw [closed] at ran
      simp only [Option.isSome_none, Bool.false_eq_true, if_false] at ran
      cases known : insert.schema with
      | none =>
          rw [known] at ran
          obtain ⟨rfl, rfl, rfl⟩ := Method.run_throw_iff.mp ran
          exact ⟨[], rfl, .refused closed _⟩
      | some schema =>
          rw [known] at ran
          dsimp only at ran
          split at ran
          · obtain ⟨_, threw, rfl⟩ | ⟨_, _, _, threw, _⟩ := Method.run_bind_iff.mp ran
            · obtain ⟨⟨⟩, rfl, rfl⟩ := Method.run_throw_iff.mp threw
              exact ⟨[], rfl, .refused closed _⟩
            · obtain ⟨⟨⟩, _⟩ := Method.run_throw_iff.mp threw
          · obtain ⟨_, failed, rfl⟩ | ⟨sink, _, _, opened, setting⟩ := Method.run_bind_iff.mp ran
            · obtain ⟨rfl, used, rfl, step⟩ := openSink_step failed
              exact ⟨used, rfl, .unopened closed step⟩
            · obtain ⟨rfl, used, rfl, step⟩ := openSink_step opened
              obtain ⟨rfl, rfl, rfl⟩ := Method.run_modify_iff.mp setting
              exact ⟨used, rfl, .opened closed known step⟩

/-- A row that is handed to an open sink. -/
inductive SinkStep (env : Env) (full : String) (row : DynamicRow) :
    OpenSink → List Call → Except DynamicError Unit → OpenSink → Prop
  | rejected {sql : String} {jsonAsString : Bool} {rows : List Bytes} {error : DynamicError}
      (failed : (row.encodeInto env.json).result = .error error) :
      SinkStep env full row (.http sql jsonAsString rows) [] (.error error)
        (.http sql jsonAsString rows)
  | buffered {sql : String} {jsonAsString : Bool} {rows : List Bytes} {bytes : Bytes}
      (writes : Writer.Writes (row.encodeInto env.json) bytes) :
      SinkStep env full row (.http sql jsonAsString rows) [] (.ok ())
        (.http sql jsonAsString (rows ++ [bytes]))
  | pushed {native : List ColumnSchema} {serverRevision : Nat} {block after : RowBlock}
      {used : List Call} {result : Except DynamicError Unit}
      (step : RowStep env native serverRevision full row block used result after) :
      SinkStep env full row (.tcp native serverRevision block) used result
        (.tcp native serverRevision after)

theorem sinkRow_step {row : DynamicRow} {columns : List ColumnDef} {sink : OpenSink}
    (isOpen : insert.active = some ⟨columns, sink⟩)
    (ran : (DynamicInsert.sinkRow env row columns sink insert).run calls =
      .done (result, after) rest) :
    ∃ used later, calls = used ++ rest ∧ SinkStep env insert.fullTable row sink used result later ∧
      after = { insert with active := some ⟨columns, later⟩ } := by
  cases sink with
  | http sql jsonAsString rows =>
      rw [DynamicInsert.sinkRow] at ran
      cases encoded : (row.encodeInto env.json).result with
      | error error =>
          simp only [encoded] at ran
          obtain ⟨rfl, rfl, rfl⟩ := Method.run_throw_iff.mp ran
          refine ⟨[], _, rfl, .rejected encoded, ?_⟩
          rw [← isOpen]
      | ok value =>
          simp only [encoded] at ran
          obtain ⟨rfl, rfl, rfl⟩ := Method.run_modify_iff.mp ran
          exact ⟨[], _, rfl, .buffered ⟨rfl, value, encoded⟩, rfl⟩
  | tcp native serverRevision block =>
      rw [DynamicInsert.sinkRow, Method.run_get_bind] at ran
      obtain ⟨block', pushed, rfl⟩ := Method.run_focus_iff.mp ran
      obtain ⟨used, rfl, step⟩ := pushRow_step pushed
      exact ⟨used, _, rfl, .pushed step, rfl⟩

/-- The rows counted after a write. -/
def counted (rowsWritten : Nat) : Except DynamicError Unit → Nat
  | .ok () => rowsWritten + 1
  | .error _ => rowsWritten

/-- A write: without a schema, without a sink, or with its row handed to the sink. -/
inductive WriteStep (env : Env) (op : WriteOp) (insert : DynamicInsert) :
    List Call → Except DynamicError Unit → DynamicInsert → Prop
  | noSchema {asked : List Call} {error : DynamicError} {after : DynamicInsert}
      (schema : SchemaStep env insert asked (.error error) after) :
      WriteStep env op insert asked (.error error) after
  | noSink {asked opening : List Call} {error : DynamicError} {loaded after : DynamicInsert}
      (schema : SchemaStep env insert asked (.ok ()) loaded)
      (active : ActiveStep env op loaded opening (.error error) after) :
      WriteStep env op insert (asked ++ opening) (.error error) after
  | written {asked opening used : List Call} {loaded ready : DynamicInsert}
      {columns : List ColumnDef} {sink later : OpenSink} {result : Except DynamicError Unit}
      (schema : SchemaStep env insert asked (.ok ()) loaded)
      (active : ActiveStep env op loaded opening (.ok ()) ready)
      (isOpen : ready.active = some ⟨columns, sink⟩)
      (step : SinkStep env ready.fullTable (op.against columns) sink used result later) :
      WriteStep env op insert (asked ++ (opening ++ used)) result
        { ready with
          active := some ⟨columns, later⟩
          rowsWritten := counted ready.rowsWritten result }

theorem write_step (ran : (op.write env insert).run calls = .done (result, after) rest) :
    ∃ used, calls = used ++ rest ∧ WriteStep env op insert used result after := by
  rw [WriteOp.write_eq, DynamicInsert.write] at ran
  obtain ⟨_, unread, rfl⟩ | ⟨_, loaded, _, read, ensuring⟩ := Method.run_bind_iff.mp ran
  · obtain ⟨asked, rfl, schema⟩ := ensureSchema_step unread
    exact ⟨asked, rfl, .noSchema schema⟩
  obtain ⟨asked, rfl, schema⟩ := ensureSchema_step read
  obtain ⟨_, unopened, rfl⟩ | ⟨_, ready, _, opened, handing⟩ := Method.run_bind_iff.mp ensuring
  · obtain ⟨opening, rfl, active⟩ := ensureActive_step unopened
    exact ⟨asked ++ opening, by simp, .noSink schema active⟩
  obtain ⟨opening, rfl, active⟩ := ensureActive_step opened
  rw [Method.run_get_bind] at handing
  cases isOpen : ready.active with
  | none =>
      cases active with
      | held found =>
          rw [isOpen] at found
          cases found
      | opened => cases isOpen
  | some held =>
      obtain ⟨columns, sink⟩ := held
      simp only [isOpen] at handing
      obtain ⟨_, failed, rfl⟩ | ⟨_, middle, _, handed, counting⟩ := Method.run_bind_iff.mp handing
      · obtain ⟨used, later, rfl, step, rfl⟩ := sinkRow_step isOpen failed
        have whole := WriteStep.written schema active isOpen step
        exact ⟨asked ++ (opening ++ used), by simp, whole⟩
      · obtain ⟨used, later, rfl, step, rfl⟩ := sinkRow_step isOpen handed
        obtain ⟨rfl, rfl, rfl⟩ := Method.run_modify_iff.mp counting
        have whole := WriteStep.written schema active isOpen step
        exact ⟨asked ++ (opening ++ used), by simp, whole⟩

/-- What finishing an open sink can do. -/
inductive FinishStep (full : String) : OpenSink → List Call → Except DynamicError Unit → Prop
  | rejected {sql : String} {jsonAsString : Bool} {rows : List Bytes} (error : UpstreamError) :
      FinishStep full (.http sql jsonAsString rows)
        [.endFormatted sql jsonAsString rows (.error error)]
        (.error (classifyError full (.ofUpstream error)))
  | accepted {sql : String} {jsonAsString : Bool} {rows : List Bytes} :
      FinishStep full (.http sql jsonAsString rows) [.endFormatted sql jsonAsString rows (.ok ())]
        (.ok ())
  | unsent {native : List ColumnSchema} {serverRevision : Nat} {block after : RowBlock}
      {used : List Call} {error : DynamicError}
      (send : SendStep native serverRevision full block used (.error error) after) :
      FinishStep full (.tcp native serverRevision block) (used ++ [.abort]) (.error error)
  | finished {native : List ColumnSchema} {serverRevision : Nat} {block after : RowBlock}
      {used : List Call} (send : SendStep native serverRevision full block used (.ok ()) after)
      (answer : Except Error Unit) :
      FinishStep full (.tcp native serverRevision block) (used ++ [.finish answer])
        (classified full answer)

theorem finishSink_step {full : String} {sink : OpenSink}
    (ran : (DynamicInsert.finishSink full sink insert).run calls = .done (result, after) rest) :
    after = insert ∧ ∃ used, calls = used ++ rest ∧ FinishStep full sink used result := by
  cases sink with
  | http sql jsonAsString rows =>
      obtain ⟨answer, left, rfl, answered⟩ := run_endFormatted_iff.mp ran
      cases answer with
      | error error =>
          obtain ⟨rfl, rfl, rfl⟩ := Method.run_throw_iff.mp answered
          exact ⟨rfl, _, rfl, .rejected error⟩
      | ok value =>
          obtain ⟨rfl, rfl, rfl⟩ := Method.run_pure_iff.mp answered
          exact ⟨rfl, _, rfl, .accepted⟩
  | tcp native serverRevision block =>
      obtain ⟨_, looked, _⟩ | ⟨outcome, middle, left, looked, settling⟩ :=
        Method.run_bind_iff.mp ran
      · obtain ⟨_, _, ⟨⟩⟩ := Method.run_attempt_iff.mp looked
      obtain ⟨_, sending, ⟨⟩⟩ := Method.run_attempt_iff.mp looked
      obtain ⟨block', sent, rfl⟩ := Method.run_focus_iff.mp sending
      obtain ⟨used, rfl, send⟩ := sendBlock_step sent
      cases outcome with
      | error error =>
          obtain ⟨_, left, rfl, thrown⟩ := run_sessionAbort_iff.mp settling
          obtain ⟨rfl, rfl, rfl⟩ := Method.run_throw_iff.mp thrown
          exact ⟨rfl, used ++ [.abort], by simp, .unsent send⟩
      | ok value =>
          obtain ⟨answer, left, rfl, answered⟩ := run_sessionFinish_iff.mp settling
          have step := FinishStep.finished send answer
          cases answer with
          | error error =>
              obtain ⟨rfl, rfl, rfl⟩ := Method.run_throw_iff.mp answered
              exact ⟨rfl, used ++ [.finish (.error error)], by simp, step⟩
          | ok value =>
              obtain ⟨rfl, rfl, rfl⟩ := Method.run_pure_iff.mp answered
              exact ⟨rfl, used ++ [.finish (.ok value)], by simp, step⟩

/-- Only over HTTP is the cached schema dropped. -/
theorem invalidateSchema_run
    (ran : (DynamicInsert.invalidateSchema insert).run calls = .done (result, after) rest) :
    result = .ok () ∧ ∃ used, calls = used ++ rest ∧
      ((insert.backend = .http ∧ used = [.cacheInvalidate insert.fullTable]) ∨
        (insert.backend = .tcp ∧ used = [])) := by
  rw [DynamicInsert.invalidateSchema, Method.run_get_bind] at ran
  cases backend : insert.backend with
  | http =>
      rw [backend] at ran
      obtain ⟨_, left, rfl, dropped⟩ := run_cacheInvalidate_iff.mp ran
      obtain ⟨rfl, rfl, rfl⟩ := Method.run_modify_iff.mp dropped
      exact ⟨rfl, _, rfl, .inl ⟨rfl, rfl⟩⟩
  | tcp =>
      rw [backend] at ran
      obtain ⟨rfl, rfl, rfl⟩ := Method.run_pure_iff.mp ran
      exact ⟨rfl, [], rfl, .inr ⟨rfl, rfl⟩⟩

/-- What the end of an insert can do. -/
inductive EndStep (insert : DynamicInsert) : List Call → Except DynamicError Nat → Prop
  | unopened (closed : insert.active = none) : EndStep insert [] (.ok insert.rowsWritten)
  | finished {active : Active} {used : List Call} (isOpen : insert.active = some active)
      (step : FinishStep insert.fullTable active.sink used (.ok ())) :
      EndStep insert used (.ok insert.rowsWritten)
  | failed {active : Active} {used : List Call} {error : DynamicError}
      (isOpen : insert.active = some active)
      (step : FinishStep insert.fullTable active.sink used (.error error))
      (kept : variant error = .schemaMismatch → insert.backend = .tcp) :
      EndStep insert used (.error error)
  | invalidated {active : Active} {used : List Call} {error : DynamicError}
      (isOpen : insert.active = some active)
      (step : FinishStep insert.fullTable active.sink used (.error error))
      (http : insert.backend = .http) (mismatch : variant error = .schemaMismatch) :
      EndStep insert (used ++ [.cacheInvalidate insert.fullTable]) (.error error)

theorem endInsert_step {ended : Except DynamicError Nat}
    (ran : (DynamicInsert.endInsert insert).run calls = .done (ended, after) rest) :
    ∃ used, calls = used ++ rest ∧ EndStep insert used ended := by
  rw [DynamicInsert.endInsert, Method.run_get_bind, Method.run_modify_bind] at ran
  obtain ⟨_, looked, _⟩ | ⟨outcome, middle, left, looked, settling⟩ := Method.run_bind_iff.mp ran
  · obtain ⟨_, _, ⟨⟩⟩ := Method.run_attempt_iff.mp looked
  obtain ⟨_, finishing, ⟨⟩⟩ := Method.run_attempt_iff.mp looked
  cases isOpen : insert.active with
  | none =>
      rw [isOpen] at finishing
      obtain ⟨rfl, rfl, rfl⟩ := Method.run_pure_iff.mp finishing
      obtain ⟨rfl, rfl, rfl⟩ := Method.run_pure_iff.mp settling
      exact ⟨[], rfl, .unopened isOpen⟩
  | some active =>
      rw [isOpen] at finishing
      obtain ⟨rfl, used, rfl, step⟩ := finishSink_step finishing
      cases outcome with
      | ok value =>
          obtain ⟨rfl, rfl, rfl⟩ := Method.run_pure_iff.mp settling
          exact ⟨used, rfl, .finished isOpen step⟩
      | error error =>
          dsimp only at settling
          split at settling
          · rename_i mismatch
            obtain ⟨_, failed, _⟩ | ⟨_, middle, left, invalidating, thrown⟩ :=
              Method.run_bind_iff.mp settling
            · obtain ⟨⟨⟩, _⟩ := invalidateSchema_run failed
            obtain ⟨rfl, rfl, rfl⟩ := Method.run_throw_iff.mp thrown
            obtain ⟨_, dropping, rfl, ⟨http, rfl⟩ | ⟨tcp, rfl⟩⟩ := invalidateSchema_run invalidating
            · exact ⟨used ++ [.cacheInvalidate insert.fullTable], by simp [DynamicInsert.fullTable],
                .invalidated isOpen step http mismatch⟩
            · exact ⟨used, rfl, .failed isOpen step fun _ => tcp⟩
          · rename_i other
            obtain ⟨rfl, rfl, rfl⟩ := Method.run_throw_iff.mp settling
            exact ⟨used, rfl, .failed isOpen step fun mismatch => absurd mismatch other⟩

/-- An insert that was opened is new; over TCP it has a schema. -/
theorem dynamicInsert_run {transport : Backend} {database table : String}
    (opened : (dynamicInsert env transport database table ()).run calls =
      .done (.ok insert, ()) rest) :
    (transport = .http ∧ insert = .http database table) ∨
      (transport = .tcp ∧ ∃ schema, insert = .tcp database table schema) := by
  cases transport with
  | http =>
      obtain ⟨⟨⟩, _⟩ := Method.run_pure_iff.mp opened
      exact .inl ⟨rfl, rfl⟩
  | tcp =>
      obtain ⟨found, left, rfl, asked⟩ := run_cacheGet_iff.mp opened
      cases found with
      | some schema =>
          obtain ⟨⟨⟩, _⟩ := Method.run_pure_iff.mp asked
          exact .inr ⟨rfl, schema, rfl⟩
      | none =>
          obtain ⟨answer, left, rfl, answered⟩ := run_fetchColumns_iff.mp asked
          cases answer with
          | error error => obtain ⟨⟨⟩, _⟩ := Method.run_throw_iff.mp answered
          | ok rows =>
              cases read : schemaFromSystemColumns (fullTable database table) rows with
              | error error =>
                  simp only [read] at answered
                  obtain ⟨⟨⟩, _⟩ := Method.run_throw_iff.mp answered
              | ok schema =>
                  simp only [read] at answered
                  obtain ⟨_, left, rfl, kept⟩ := run_cacheInsert_iff.mp answered
                  obtain ⟨⟨⟩, _⟩ := Method.run_pure_iff.mp kept
                  exact .inr ⟨rfl, schema, rfl⟩

end DfeClickhouse.Dynamic

import DfeClickhouse.Dynamic.InsertAccounting

/-!
# The rows of a dynamic insert over HTTP

Over HTTP the writes send nothing: their rows are buffered, and posted by the end with the
statement of the columns that the first row has fixed.
-/

namespace DfeClickhouse.Dynamic

open Library Native

/-- A call that looks a schema up. -/
def Call.isLookup : Call → Bool
  | .cacheGet .. | .cacheInsert .. | .fetchAll .. => true
  | _ => false

/-- The sink over HTTP for some columns of a schema, with the rows it holds. -/
def posting (env : Env) (database table : String) (schema : DynamicSchema)
    (columns : List ColumnDef) (rows : List Bytes) : OpenSink :=
  .http ((DynamicInsert.http database table).insertSql env columns "RowBinary")
    schema.hasJsonColumns rows

/-- What is known of an insert over HTTP after some writes: each accepted row is buffered,
in order, and nothing was sent. -/
structure Buffering (env : Env) (database table : String) (ops : List WriteOp)
    (outcomes : List (Except DynamicError Unit)) (history : List Call) (insert : DynamicInsert) :
    Prop where
  sized : ops.length = outcomes.length
  into : IsInto .http database table insert
  counts : insert.rowsWritten = (accepted ops outcomes).length
  lookups : ∀ call ∈ history, call.isLookup = true
  sink : match insert.active with
    | none => accepted ops outcomes = []
    | some ⟨columns, sink⟩ => ∃ schema rows, insert.schema = some schema ∧
        sink = posting env database table schema columns rows ∧
        List.Forall₂ (EncodesTo env columns) (accepted ops outcomes) rows

variable {env : Env} {database table : String} {insert after : DynamicInsert} {op : WriteOp}
  {ops : List WriteOp} {outcomes : List (Except DynamicError Unit)} {used history : List Call}
  {result : Except DynamicError Unit} {columns : List ColumnDef} {schema : DynamicSchema}

theorem SchemaStep.lookups (step : SchemaStep env insert used result after) :
    ∀ call ∈ used, call.isLookup = true := by
  cases step with
  | held => exact List.forall_mem_nil _
  | cached => exact List.forall_mem_singleton.mpr rfl
  | unread | absent => exact List.forall_mem_cons.mpr ⟨rfl, List.forall_mem_singleton.mpr rfl⟩
  | fetched =>
      exact List.forall_mem_cons.mpr ⟨rfl, List.forall_mem_cons.mpr
        ⟨rfl, List.forall_mem_singleton.mpr rfl⟩⟩

theorem SchemaStep.rowsWritten (step : SchemaStep env insert used result after) :
    after.rowsWritten = insert.rowsWritten := by
  cases step <;> rfl

/-- A schema is only looked up where there is none. -/
theorem SchemaStep.unknown {error : DynamicError}
    (step : SchemaStep env insert used (.error error) after) : insert.schema = none := by
  cases step with
  | unread unknown | absent unknown => exact unknown

/-- Opening a sink over HTTP asks nothing and cannot fail. -/
theorem OpenStep.posts {opened : Except DynamicError OpenSink}
    (step : OpenStep env insert schema columns used opened)
    (into : IsInto .http database table insert) :
    used = [] ∧ opened = .ok (posting env database table schema columns []) := by
  cases step with
  | http =>
      have statement : insert.insertSql env columns "RowBinary" =
          (DynamicInsert.http database table).insertSql env columns "RowBinary" := by
        unfold DynamicInsert.insertSql DynamicInsert.http
        rw [into.database, into.table]
      refine ⟨rfl, ?_⟩
      rw [posting, statement]
  | untyped tcp | unopened tcp | tcp tcp =>
      rw [into.backend] at tcp
      cases tcp

/-- An encoded row is buffered, any other leaves the buffer as it was. -/
theorem SinkStep.posts {full : String} {rows : List Bytes} {later : OpenSink}
    (step : SinkStep env full (op.against columns)
      (posting env database table schema columns rows) used result later)
    (sized : ops.length = outcomes.length)
    (encodes : List.Forall₂ (EncodesTo env columns) (accepted ops outcomes) rows) :
    used = [] ∧ ∃ rows', later = posting env database table schema columns rows' ∧
      List.Forall₂ (EncodesTo env columns) (accepted (ops ++ [op]) (outcomes ++ [result]))
        rows' := by
  rw [accepted_append sized]
  cases step with
  | rejected failed =>
      refine ⟨rfl, rows, rfl, ?_⟩
      change List.Forall₂ _ (_ ++ []) _
      rwa [List.append_nil]
  | buffered writes => exact ⟨rfl, _, rfl, List.rel_append encodes (.cons writes .nil)⟩

namespace Buffering

/-- A write that opens no sink. -/
theorem unopened {error : DynamicError}
    (buffering : Buffering env database table ops outcomes history insert)
    (into : IsInto .http database table after) (closed : insert.active = none)
    (still : after.active = none) (same : after.rowsWritten = insert.rowsWritten)
    (lookups : ∀ call ∈ used, call.isLookup = true) :
    Buffering env database table (ops ++ [op]) (outcomes ++ [.error error]) (history ++ used)
      after := by
  have nothing := buffering.sink
  rw [closed] at nothing
  have unchanged : accepted (ops ++ [op]) (outcomes ++ [.error error]) = accepted ops outcomes := by
    rw [accepted_append buffering.sized]
    exact List.append_nil _
  refine ⟨by simp [buffering.sized], into, ?_, ?_, ?_⟩
  · rw [same, unchanged, buffering.counts]
  · exact List.forall_mem_append.mpr ⟨buffering.lookups, lookups⟩
  · rw [still, unchanged]
    exact nothing

/-- An insert without a schema has no sink. -/
theorem closed_of_noSchema {error : DynamicError}
    (buffering : Buffering env database table ops outcomes history insert)
    (step : SchemaStep env insert used (.error error) after) : insert.active = none := by
  cases isOpen : insert.active with
  | none => rfl
  | some active =>
      have sink := buffering.sink
      rw [isOpen] at sink
      obtain ⟨schema, _, known, _⟩ := sink
      rw [step.unknown] at known
      cases known

theorem write (buffering : Buffering env database table ops outcomes history insert)
    (step : WriteStep env op insert used result after) :
    Buffering env database table (ops ++ [op]) (outcomes ++ [result]) (history ++ used) after := by
  have into := step.isInto buffering.into
  cases step with
  | noSchema schema =>
      have closed := buffering.closed_of_noSchema schema
      exact buffering.unopened into closed (schema.active.trans closed) schema.rowsWritten
        schema.lookups
  | noSink schema active =>
      have loaded := schema.isInto buffering.into
      cases active with
      | refused closed =>
          rw [List.append_nil]
          exact buffering.unopened into (schema.active.symm.trans closed) closed schema.rowsWritten
            schema.lookups
      | unopened closed opening =>
          obtain ⟨_, ⟨⟩⟩ := opening.posts loaded
  | written schema active isOpen step =>
      have loaded := schema.isInto buffering.into
      have counts : ∀ result, counted insert.rowsWritten result =
          (accepted (ops ++ [op]) (outcomes ++ [result])).length := by
        intro result
        rw [accepted_append buffering.sized, List.length_append, ← buffering.counts]
        exact counted_eq _ op result
      cases active with
      | held found =>
          have sink := buffering.sink
          rw [← schema.active, isOpen] at sink
          obtain ⟨known, rows, isKnown, rfl, encodes⟩ := sink
          obtain ⟨rfl, rfl⟩ := schema.of_known isKnown
          obtain ⟨rfl, rows, rfl, encodes⟩ := step.posts buffering.sized encodes
          refine ⟨by simp [buffering.sized], into, counts _, ?_, known, rows, isKnown, rfl, encodes⟩
          simpa using buffering.lookups
      | opened closed known opening =>
          cases isOpen
          have nothing := buffering.sink
          rw [← schema.active, closed] at nothing
          obtain ⟨rfl, ⟨⟩⟩ := opening.posts loaded
          have none : ∀ columns, List.Forall₂ (EncodesTo env columns)
              (accepted ops outcomes) [] := by
            intro columns
            rw [nothing]
            exact .nil
          obtain ⟨rfl, rows, rfl, encodes⟩ := step.posts buffering.sized (none _)
          refine ⟨by simp [buffering.sized], into, ?_, ?_, _, rows, known, rfl, encodes⟩
          · rw [← counts, ← schema.rowsWritten]
          · rw [List.nil_append, List.append_nil]
            exact List.forall_mem_append.mpr ⟨buffering.lookups, schema.lookups⟩

end Buffering

theorem InsertRun.buffering (run : InsertRun env .http database table) :
    Buffering env database table run.ops run.outcomes run.writing run.written := by
  apply @Method.outcomes_keeps _ _ _ _ _ (WriteOp.write env) (Buffering env database table) _ []
    run.ops [] run.outcomes [] run.writing [] run.insert run.written
  · obtain ⟨_, same⟩ | ⟨⟨⟩, _⟩ := dynamicInsert_run run.opened
    have into := isInto_of_opened run.opened
    rw [same] at into ⊢
    exact ⟨rfl, into, rfl, List.forall_mem_nil _, rfl⟩
  · simpa using run.wrote
  · intro ops outcomes history insert op used rest result after buffering ran
    obtain ⟨taken, split, step⟩ := write_step ran
    obtain rfl := List.append_cancel_right split
    exact buffering.write step

end DfeClickhouse.Dynamic

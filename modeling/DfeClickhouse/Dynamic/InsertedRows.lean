import DfeClickhouse.Dynamic.SchemaRecovery

/-!
# The rows of a dynamic insert

The first row that opens the sink fixes the columns.  Every row that is accepted
afterwards is handed on as the cells of these columns, with the values of that row.
-/

namespace DfeClickhouse.Dynamic

open Library Native

/-- The writes that came back without an error. -/
def accepted : List WriteOp → List (Except DynamicError Unit) → List WriteOp
  | op :: ops, .ok () :: outcomes => op :: accepted ops outcomes
  | _ :: ops, .error _ :: outcomes => accepted ops outcomes
  | _, _ => []

/-- A block that was handed to the connection: its rows, their columns, and the answer. -/
structure SentBlock where
  rows : List Bytes
  columnBytes : Bytes
  answer : Except Error Unit

def SentBlock.call (native : List ColumnSchema) (block : SentBlock) : Call :=
  .sendBlock block.columnBytes native.length block.rows.length block.answer

/-- The rows an open sink has taken, in their order: what is buffered for the end, or the
rows of the blocks that were sent and those held for the next. -/
def Carries (history : List Call) : OpenSink → List Bytes → Prop
  | .http _ _ rows, carried => carried = rows
  | .tcp native serverRevision block, carried =>
      ∃ (before : List Call) (sql : String) (blocks : List SentBlock),
        history = before ++ .insertNative sql (.ok serverRevision) ::
          blocks.map (SentBlock.call native) ∧
        (∀ sent ∈ blocks, encodeColumns sent.rows native serverRevision = .ok sent.columnBytes) ∧
        carried = blocks.flatMap SentBlock.rows ++ block.rows

/-- A cell holds the value a row has for the column: the raw text, the value under the
name of the column, or NULL. -/
def HoldsValue (env : Env) (op : WriteOp) (column : ColumnDef) (cell : Bytes) : Prop :=
  match (op.against [column]).rawFor column with
  | some text => cell = (if column.ty.info.nullable then [0] else []) ++ putString text
  | none => Writer.Writes (encodeValue env.json column.name column.ty
      ((op.row.lookup column.name).getD .null)) cell

/-- A row is the cells of some columns with the values of a write. -/
def HoldsValues (env : Env) (columns : List ColumnDef) (op : WriteOp) (row : Bytes) : Prop :=
  ∃ cells, List.Forall₂ (HoldsValue env op) columns cells ∧ row = cells.flatten

theorem holdsValues_of_writes {env : Env} {columns : List ColumnDef} {op : WriteOp} {row : Bytes}
    (writes : Writer.Writes ((op.against columns).encodeInto env.json) row) :
    HoldsValues env columns op row := by
  obtain ⟨cells, each, rfl⟩ := Writer.writes_each_iff.mp writes
  refine ⟨cells, ?_, rfl⟩
  apply each.imp
  intro column cell writes
  unfold DynamicRow.encodeColumn at writes
  have same : (op.against columns).rawFor column = (op.against [column]).rawFor column := rfl
  rw [HoldsValue]
  rw [same] at writes
  cases raw : (op.against [column]).rawFor column with
  | some text =>
      rw [raw] at writes
      obtain ⟨rest, second, rfl⟩ := Writer.writes_put_bind_iff.mp writes
      rw [Writer.writes_put_iff.mp second]
  | none =>
      rw [raw] at writes
      exact writes

variable {env : Env} {transport : Backend} {database table : String}
  {insert after : DynamicInsert} {op : WriteOp} {used history : List Call}
  {result : Except DynamicError Unit}

theorem SendStep.carries {native : List ColumnSchema} {serverRevision : Nat} {full : String}
    {block later : RowBlock} {carried : List Bytes}
    (step : SendStep native serverRevision full block used result later)
    (carries : Carries history (.tcp native serverRevision block) carried) :
    Carries (history ++ used) (.tcp native serverRevision later) carried := by
  obtain ⟨before, sql, blocks, split, encoded, rows⟩ := carries
  cases step with
  | nothing | jammed =>
      refine ⟨before, sql, blocks, ?_, encoded, rows⟩
      rw [List.append_nil]
      exact split
  | @sent bytes nonempty transposed answer =>
      refine ⟨before, sql, blocks ++ [⟨block.rows, bytes, answer⟩], ?_, ?_, ?_⟩
      · rw [split, List.map_append, List.append_assoc, List.cons_append]
        rfl
      · intro sent member
        rcases List.mem_append.mp member with member | member
        · exact encoded sent member
        · rw [List.mem_singleton.mp member]
          exact transposed
      · rw [rows, List.flatMap_append]
        simp [RowBlock.recycle]

/-- The sink takes a row that was encoded, whether or not the write comes back with an
error; one that was not encoded comes back with an error. -/
theorem SinkStep.carries {full : String} {row : DynamicRow} {sink later : OpenSink}
    {carried : List Bytes} (step : SinkStep env full row sink used result later)
    (carries : Carries history sink carried) :
    (∃ bytes, Writer.Writes (row.encodeInto env.json) bytes ∧
        Carries (history ++ used) later (carried ++ [bytes])) ∨
      (∃ error, result = .error error) ∧ Carries (history ++ used) later carried := by
  have holding : ∀ {native serverRevision block bytes},
      Carries history (.tcp native serverRevision block) carried →
      Writer.Writes (row.encodeInto env.json) bytes →
      Carries history (.tcp native serverRevision (block.push env.json row).2)
        (carried ++ [bytes]) := by
    rintro native serverRevision block bytes ⟨before, sql, blocks, split, encoded, rows⟩ writes
    refine ⟨before, sql, blocks, split, encoded, ?_⟩
    rw [(push_of_writes writes).2, rows, List.append_assoc]
  cases step with
  | rejected failed => exact .inr ⟨⟨_, rfl⟩, carries⟩
  | @buffered _ _ rows bytes writes =>
      refine .inl ⟨bytes, writes, ?_⟩
      change carried = rows at carries
      rw [carries]
      rfl
  | pushed step =>
      cases step with
      | rejected failed =>
          refine .inr ⟨⟨_, rfl⟩, ?_⟩
          obtain ⟨before, sql, blocks, split, encoded, rows⟩ := carries
          refine ⟨before, sql, blocks, ?_, encoded, ?_⟩
          · rw [List.append_nil]
            exact split
          · rw [(push_of_failed failed).2]
            exact rows
      | @held bytes writes =>
          refine .inl ⟨bytes, writes, ?_⟩
          rw [List.append_nil]
          exact holding carries writes
      | @flushed bytes _ _ _ writes isFull send =>
          exact .inl ⟨bytes, writes, send.carries (holding carries writes)⟩

/-- The columns were fixed by a write that no accepted one comes before. -/
def FixedBy (ops : List WriteOp) (outcomes : List (Except DynamicError Unit))
    (schema : DynamicSchema) (columns : List ColumnDef) : Prop :=
  ∃ failed first later, ops = failed ++ first :: later ∧
    accepted failed (outcomes.take failed.length) = [] ∧
    columns = selectColumns first.row first.rawNames schema

/-- What is known of an insert after some writes: without a sink none was accepted, and a
sink has taken the rows that were accepted, in order. -/
def Ledger (env : Env) (ops : List WriteOp) (outcomes : List (Except DynamicError Unit))
    (history : List Call) (insert : DynamicInsert) : Prop :=
  ops.length = outcomes.length ∧
    match insert.active with
    | none => accepted ops outcomes = []
    | some ⟨columns, sink⟩ =>
        (∃ schema, insert.schema = some schema ∧ FixedBy ops outcomes schema columns) ∧
          ∃ carried rows, Carries history sink carried ∧ rows.Sublist carried ∧
            List.Forall₂ (HoldsValues env columns) (accepted ops outcomes) rows

theorem accepted_append {ops later : List WriteOp}
    {outcomes outcomes' : List (Except DynamicError Unit)} (sized : ops.length = outcomes.length) :
    accepted (ops ++ later) (outcomes ++ outcomes') =
      accepted ops outcomes ++ accepted later outcomes' := by
  induction ops generalizing outcomes with
  | nil =>
      obtain rfl := List.length_eq_zero_iff.mp sized.symm
      rfl
  | cons op ops ih =>
      cases outcomes with
      | nil => cases sized
      | cons outcome outcomes =>
          have later := ih (Nat.succ.inj sized)
          cases outcome with
          | ok value =>
              simp only [List.cons_append, accepted]
              rw [later]
          | error error =>
              simp only [List.cons_append, accepted]
              exact later

theorem FixedBy.append {ops : List WriteOp} {outcomes : List (Except DynamicError Unit)}
    {schema : DynamicSchema} {columns : List ColumnDef}
    (sized : ops.length = outcomes.length) (fixed : FixedBy ops outcomes schema columns)
    (op : WriteOp) (result : Except DynamicError Unit) :
    FixedBy (ops ++ [op]) (outcomes ++ [result]) schema columns := by
  obtain ⟨failed, first, later, rfl, none, same⟩ := fixed
  refine ⟨failed, first, later ++ [op], by simp, ?_, same⟩
  have short : failed.length ≤ outcomes.length := by
    rw [← sized]
    simp
  rw [List.take_append_of_le_length short]
  exact none

/-- The ledger of an insert whose sink takes one more row. -/
theorem Ledger.sink {ops : List WriteOp} {outcomes : List (Except DynamicError Unit)}
    {columns : List ColumnDef} {full : String} {sink later : OpenSink} {carried rows : List Bytes}
    (sized : ops.length = outcomes.length)
    (step : SinkStep env full (op.against columns) sink used result later)
    (carries : Carries history sink carried) (ordered : rows.Sublist carried)
    (holds : List.Forall₂ (HoldsValues env columns) (accepted ops outcomes) rows) :
    ∃ carried' rows', Carries (history ++ used) later carried' ∧ rows'.Sublist carried' ∧
      List.Forall₂ (HoldsValues env columns) (accepted (ops ++ [op]) (outcomes ++ [result]))
        rows' := by
  rw [accepted_append sized]
  rcases step.carries carries with ⟨bytes, writes, carries'⟩ | ⟨⟨error, rfl⟩, carries'⟩
  · cases result with
    | ok value =>
        refine ⟨carried ++ [bytes], rows ++ [bytes], carries', ordered.append_right _, ?_⟩
        exact List.rel_append holds (.cons (holdsValues_of_writes writes) .nil)
    | error error =>
        refine ⟨carried ++ [bytes], rows, carries', ordered.trans (List.sublist_append_left ..), ?_⟩
        simpa [accepted] using holds
  · refine ⟨carried, rows, carries', ordered, ?_⟩
    simpa [accepted] using holds

theorem OpenStep.carries {schema : DynamicSchema} {columns : List ColumnDef} {sink : OpenSink}
    (step : OpenStep env insert schema columns used (.ok sink)) (history : List Call) :
    Carries (history ++ used) sink [] := by
  cases step with
  | http => rfl
  | tcp => exact ⟨history, _, [], rfl, by simp, rfl⟩

/-- A write that fails before its row is handed on leaves the ledger as it is. -/
theorem Ledger.unchanged {ops : List WriteOp} {outcomes : List (Except DynamicError Unit)}
    {error : DynamicError} (ledger : Ledger env ops outcomes history insert)
    (closed : insert.active = none) (still : after.active = none) :
    Ledger env (ops ++ [op]) (outcomes ++ [.error error]) (history ++ used) after := by
  obtain ⟨sized, none⟩ := ledger
  rw [closed] at none
  refine ⟨by simp [sized], ?_⟩
  rw [still]
  dsimp only at none ⊢
  rw [accepted_append sized, none]
  rfl

theorem SchemaStep.active (step : SchemaStep env insert used result after) :
    after.active = insert.active := by
  cases step <;> rfl

/-- A schema that is known is kept, without a call. -/
theorem SchemaStep.of_known {schema : DynamicSchema}
    (step : SchemaStep env insert used result after) (known : insert.schema = some schema) :
    used = [] ∧ after = insert := by
  cases step with
  | held => exact ⟨rfl, rfl⟩
  | cached unknown | unread unknown | absent unknown | fetched unknown =>
      rw [known] at unknown
      cases unknown

/-- An insert that fails to load a schema has no sink. -/
theorem Ledger.closed_of_noSchema {ops : List WriteOp}
    {outcomes : List (Except DynamicError Unit)} {error : DynamicError}
    (ledger : Ledger env ops outcomes history insert)
    (step : SchemaStep env insert used (.error error) after) : insert.active = none := by
  cases isOpen : insert.active with
  | none => rfl
  | some active =>
      obtain ⟨_, entries⟩ := ledger
      rw [isOpen] at entries
      obtain ⟨⟨schema, known, _⟩, _⟩ := entries
      cases step with
      | unread unknown | absent unknown =>
          rw [known] at unknown
          cases unknown

theorem Ledger.write {ops : List WriteOp} {outcomes : List (Except DynamicError Unit)}
    (ledger : Ledger env ops outcomes history insert)
    (step : WriteStep env op insert used result after) :
    Ledger env (ops ++ [op]) (outcomes ++ [result]) (history ++ used) after := by
  have sized := ledger.1
  cases step with
  | noSchema schema =>
      have closed := ledger.closed_of_noSchema schema
      exact ledger.unchanged closed (schema.active.trans closed)
  | noSink schema active =>
      cases active with
      | refused closed | unopened closed =>
          exact ledger.unchanged (schema.active.symm.trans closed) closed
  | @written asked opening handed loaded ready columns sink later _ schema active isOpen step =>
      refine ⟨by simp [sized], ?_⟩
      dsimp only
      cases active with
      | held found =>
          have same := schema.active
          rw [isOpen] at same
          obtain ⟨_, entries⟩ := ledger
          rw [← same] at entries
          obtain ⟨⟨known, isKnown, fixed⟩, carried, rows, carries, ordered, holds⟩ := entries
          obtain ⟨rfl, rfl⟩ := schema.of_known isKnown
          refine ⟨⟨known, isKnown, fixed.append sized op result⟩, ?_⟩
          exact Ledger.sink sized step carries ordered holds
      | opened closed known opening =>
          have before : insert.active = none := schema.active.symm.trans closed
          obtain ⟨_, nothing⟩ := ledger
          rw [before] at nothing
          dsimp only at nothing
          cases isOpen
          refine ⟨⟨_, known, ops, op, [], rfl, ?_, rfl⟩, ?_⟩
          · rw [sized, List.take_left]
            exact nothing
          · rw [← List.append_assoc, ← List.append_assoc]
            apply Ledger.sink sized step (opening.carries (history ++ asked)) (List.Sublist.refl [])
            rw [nothing]
            exact .nil

/-- The ledger of a whole run. -/
theorem InsertRun.ledger (run : InsertRun env transport database table) :
    Ledger env run.ops run.outcomes run.writing run.written := by
  apply @Method.outcomes_keeps _ _ _ _ _ (WriteOp.write env) (Ledger env) _ [] run.ops []
    run.outcomes [] run.writing [] run.insert run.written
  · have closed : run.insert.active = none := by
      rcases dynamicInsert_run run.opened with ⟨_, same⟩ | ⟨_, schema, same⟩ <;> rw [same] <;> rfl
    refine ⟨rfl, ?_⟩
    rw [closed]
    rfl
  · simpa using run.wrote
  · intro ops outcomes history insert op used rest result after ledger ran
    obtain ⟨taken, split, step⟩ := write_step ran
    obtain rfl := List.append_cancel_right split
    exact ledger.write step

/-- No row is accepted without a sink.  The columns are fixed by the write that opens it,
and every accepted row is handed on, in order, as the cells of these columns with the
values of that row.  A column with a default that the opening row does not have is not
among them. -/
theorem acceptedRows_follow (run : InsertRun env transport database table) :
    (run.written.active = none → accepted run.ops run.outcomes = []) ∧
      ∀ columns sink, run.written.active = some ⟨columns, sink⟩ →
        (∃ schema failed first later, run.written.schema = some schema ∧
          run.ops = failed ++ first :: later ∧
          accepted failed (run.outcomes.take failed.length) = [] ∧
          ∀ column, column ∈ columns ↔ column ∈ schema.columns ∧
            ((first.row.lookup column.name).isSome = true ∨ column.name ∈ first.rawNames ∨
              column.hasDefault = false)) ∧
        ∃ carried rows, Carries run.writing sink carried ∧ rows.Sublist carried ∧
          List.Forall₂ (HoldsValues env columns) (accepted run.ops run.outcomes) rows := by
  obtain ⟨_, entries⟩ := run.ledger
  constructor
  · intro closed
    rw [closed] at entries
    exact entries
  · intro columns sink isOpen
    rw [isOpen] at entries
    obtain ⟨⟨schema, known, failed, first, later, split, none, rfl⟩, carried⟩ := entries
    refine ⟨⟨schema, failed, first, later, known, split, none, fun column => ?_⟩, carried⟩
    rw [selectColumns, List.mem_filter]
    simp [or_assoc]

/-- Every accepted row is handed on with each of its values that names a column of the
schema, and without the columns with a default that it does not have. -/
def KeepsSuppliedValues (run : InsertRun env transport database table) : Prop :=
  ∀ columns sink schema, run.written.active = some ⟨columns, sink⟩ →
    run.written.schema = some schema →
    ∀ op ∈ accepted run.ops run.outcomes, ∀ column ∈ schema.columns,
      ((op.row.lookup column.name).isSome = true → column ∈ columns) ∧
      (column.hasDefault = true → op.row.lookup column.name = none →
        column.name ∉ op.rawNames → column ∉ columns)

/-- A required column and one with a default. -/
def pairTable : DynamicSchema :=
  ⟨"db.t", [.withDefaultKind "a" "UInt8" "", .withDefaultKind "b" "UInt8" "DEFAULT"]⟩

def oneValue : WriteOp :=
  ⟨[("a", .number (.posInt 1))], none⟩

def twoValues : WriteOp :=
  ⟨[("a", .number (.posInt 2)), ("b", .number (.posInt 3))], none⟩

/-- The second row has a value that the first one has not. -/
def widenedRun : InsertRun plainEnv .tcp "db" "t" where
  opening := [.cacheGet "db.t" (some pairTable)]
  insert := .tcp "db" "t" pairTable
  opened := by rfl
  ops := [oneValue, twoValues]
  writing := [.insertNative ((DynamicInsert.tcp "db" "t" pairTable).insertSql plainEnv
    [.withDefaultKind "a" "UInt8" ""] "Native") (.ok 54473)]
  outcomes := [.ok (), .ok ()]
  written :=
    { DynamicInsert.tcp "db" "t" pairTable with
      active := some ⟨[.withDefaultKind "a" "UInt8" ""],
        .tcp [⟨"a", "UInt8", .uInt8⟩] 54473 ⟨[[1], [2]], [], 2⟩⟩
      rowsWritten := 2 }
  wrote := by rfl

theorem acceptedRows_follow_widened :
    ∃ carried rows, Carries widenedRun.writing
        (.tcp [⟨"a", "UInt8", .uInt8⟩] 54473 ⟨[[1], [2]], [], 2⟩) carried ∧
      rows.Sublist carried ∧
      List.Forall₂ (HoldsValues plainEnv [.withDefaultKind "a" "UInt8" ""]) [oneValue, twoValues]
        rows :=
  ((acceptedRows_follow widenedRun).2 _ _ rfl).2

/-- The rows in the other order: the second is sent with a zero for the column it lacks. -/
def narrowedRun : InsertRun plainEnv .tcp "db" "t" where
  opening := [.cacheGet "db.t" (some pairTable)]
  insert := .tcp "db" "t" pairTable
  opened := by rfl
  ops := [twoValues, oneValue]
  writing := [.insertNative ((DynamicInsert.tcp "db" "t" pairTable).insertSql plainEnv
    pairTable.columns "Native") (.ok 54473)]
  outcomes := [.ok (), .ok ()]
  written :=
    { DynamicInsert.tcp "db" "t" pairTable with
      active := some ⟨pairTable.columns,
        .tcp [⟨"a", "UInt8", .uInt8⟩, ⟨"b", "UInt8", .uInt8⟩] 54473 ⟨[[2, 3], [1, 0]], [], 4⟩⟩
      rowsWritten := 2 }
  wrote := by rfl

/-- Both rows are accepted.  In one order a value of the second is dropped, in the other one
the second is sent with a column it does not have. -/
theorem keepsSuppliedValues_fails :
    ¬ KeepsSuppliedValues widenedRun ∧ ¬ KeepsSuppliedValues narrowedRun := by
  have column : .withDefaultKind "b" "UInt8" "DEFAULT" ∈ pairTable.columns := by simp [pairTable]
  constructor
  · intro keeps
    have member : twoValues ∈ accepted widenedRun.ops widenedRun.outcomes := by
      simp [widenedRun, accepted]
    have kept := (keeps _ _ pairTable rfl rfl twoValues member _ column).1 (by decide)
    exact absurd kept (by decide +kernel)
  · intro keeps
    have member : oneValue ∈ accepted narrowedRun.ops narrowedRun.outcomes := by
      simp [narrowedRun, accepted]
    exact (keeps _ _ pairTable rfl rfl oneValue member _ column).2 rfl rfl
      List.not_mem_nil column

end DfeClickhouse.Dynamic

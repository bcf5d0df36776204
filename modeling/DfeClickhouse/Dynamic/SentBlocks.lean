import DfeClickhouse.Dynamic.InsertAccounting

/-!
# The blocks of an insert on the wire

A block that an insert hands to its connection has rows, and no more than fill one block: the
rows of a block that stays behind are fewer, unless it cannot be transposed, and then it is
never handed on.  The connection writes no block past its cap.
-/

namespace DfeClickhouse.Tcp.Actor

open Library Script

variable {kind : ClientPacket → Prop}

end DfeClickhouse.Tcp.Actor

namespace DfeClickhouse.Dynamic

open Library Native
open Tcp (Actor ClientPacket ConnectionCmd Query written)

/-- A block that is handed on has rows, and no more than fill one. -/
def Filled : Call → Prop
  | .sendBlock _ _ numRows _ => 1 ≤ numRows ∧ numRows ≤ defaultInsertBlockRows
  | _ => True

/-- The rows start with some that cannot be transposed. -/
def Jammed (native : List ColumnSchema) (serverRevision : Nat) (rows : List Bytes) : Prop :=
  ∃ start more error, rows = start ++ more ∧
    encodeColumns start native serverRevision = .error error

theorem Jammed.refused {native : List ColumnSchema} {serverRevision : Nat} {rows : List Bytes}
    (jammed : Jammed native serverRevision rows) {bytes : Bytes} :
    encodeColumns rows native serverRevision ≠ .ok bytes := by
  obtain ⟨start, more, error, rfl, refused⟩ := jammed
  intro encoded
  obtain ⟨part, written⟩ := encodeColumns_start encoded
  rw [refused] at written
  cases written

/-- What a block holds between two writes. -/
def Underfull (native : List ColumnSchema) (serverRevision : Nat) (block : RowBlock) : Prop :=
  block.rows.length < defaultInsertBlockRows ∨ Jammed native serverRevision block.rows

/-- What an insert holds between two writes. -/
def Settled (insert : DynamicInsert) : Prop :=
  ∀ columns native serverRevision block,
    insert.active = some ⟨columns, .tcp native serverRevision block⟩ →
    Underfull native serverRevision block

variable {env : Env} {native : List ColumnSchema} {serverRevision : Nat} {full : String}
  {block later : RowBlock} {calls used rest : List Call} {result : Except DynamicError Unit}

theorem SendStep.filled (step : SendStep native serverRevision full block used result later)
    (bounded : block.rows.length ≤ defaultInsertBlockRows ∨
      Jammed native serverRevision block.rows) :
    (∀ call ∈ used, Filled call) ∧ Underfull native serverRevision later := by
  cases step with
  | nothing empty =>
      refine ⟨List.forall_mem_nil _, .inl ?_⟩
      rw [empty]
      decide
  | jammed refused =>
      exact ⟨List.forall_mem_nil _, .inr ⟨_, [], _, (List.append_nil _).symm, refused⟩⟩
  | sent nonempty encoded answer =>
      have within := bounded.resolve_right fun jammed => jammed.refused encoded
      refine ⟨List.forall_mem_singleton.mpr ⟨List.length_pos_iff.mpr nonempty, within⟩, .inl ?_⟩
      exact Nat.zero_lt_succ _

/-- A row goes to a block that is sent when it is full. -/
theorem pushRow_filled {row : DynamicRow}
    (ran : (DynamicInsert.pushRow env native serverRevision full row block).run calls =
      .done (result, later) rest) (underfull : Underfull native serverRevision block) :
    ∃ used, calls = used ++ rest ∧ (∀ call ∈ used, Filled call) ∧
      Underfull native serverRevision later := by
  rw [DynamicInsert.pushRow, Method.run_get_bind, Method.run_modify_bind] at ran
  cases encoded : (row.encodeInto env.json).result with
  | error error =>
      obtain ⟨failed, same⟩ := push_of_failed encoded
      rw [failed] at ran
      obtain ⟨_, threw, rfl⟩ | ⟨_, _, _, threw, _⟩ := Method.run_bind_iff.mp ran
      · obtain ⟨⟨⟩, rfl, rfl⟩ := Method.run_throw_iff.mp threw
        refine ⟨[], rfl, List.forall_mem_nil _, ?_⟩
        rw [Underfull, same]
        exact underfull
      · obtain ⟨⟨⟩, _⟩ := Method.run_throw_iff.mp threw
  | ok value =>
      obtain ⟨pushed, same⟩ := push_of_writes ⟨rfl, value, encoded⟩
      have bounded : (block.push env.json row).2.rows.length ≤ defaultInsertBlockRows ∨
          Jammed native serverRevision (block.push env.json row).2.rows := by
        rw [same]
        rcases underfull with few | ⟨start, more, error, split, refused⟩
        · left
          rw [List.length_append]
          exact few
        · exact .inr ⟨start, more ++ [_], error, by rw [split, List.append_assoc], refused⟩
      rw [pushed] at ran
      obtain ⟨_, went, rfl⟩ | ⟨_, _, _, went, ran⟩ := Method.run_bind_iff.mp ran
      · obtain ⟨⟨⟩, _⟩ := Method.run_ofExcept_iff.mp went
      · obtain ⟨⟨⟩, rfl, rfl⟩ := Method.run_ofExcept_iff.mp went
        split at ran
        · obtain ⟨used, rfl, send⟩ := sendBlock_step ran
          exact ⟨used, rfl, send.filled bounded⟩
        · rename_i notFull
          obtain ⟨rfl, rfl, rfl⟩ := Method.run_pure_iff.mp ran
          refine ⟨[], rfl, List.forall_mem_nil _, .inl ?_⟩
          simp only [RowBlock.isFull, Bool.or_eq_true, decide_eq_true_eq, not_or] at notFull
          exact Nat.lt_of_not_le notFull.2

variable {insert after : DynamicInsert} {op : WriteOp}

theorem sinkRow_filled {row : DynamicRow} {columns : List ColumnDef} {sink : OpenSink}
    (isOpen : insert.active = some ⟨columns, sink⟩)
    (ran : (DynamicInsert.sinkRow env row columns sink insert).run calls =
      .done (result, after) rest) (settled : Settled insert) :
    ∃ used, calls = used ++ rest ∧ (∀ call ∈ used, Filled call) ∧ Settled after := by
  cases sink with
  | http sql jsonAsString rows =>
      obtain ⟨used, later, rfl, step, rfl⟩ := sinkRow_step isOpen ran
      cases step <;> exact ⟨[], rfl, List.forall_mem_nil _, fun _ _ _ _ held => by cases held⟩
  | tcp native serverRevision block =>
      rw [DynamicInsert.sinkRow, Method.run_get_bind] at ran
      obtain ⟨block', pushed, rfl⟩ := Method.run_focus_iff.mp ran
      obtain ⟨used, rfl, filled, underfull⟩ := pushRow_filled pushed (settled _ _ _ _ isOpen)
      refine ⟨used, rfl, filled, ?_⟩
      rintro _ _ _ _ ⟨⟩
      exact underfull

theorem SchemaStep.filled (step : SchemaStep env insert used result after) :
    ∀ call ∈ used, Filled call := by
  cases step <;> simp [Filled]

theorem OpenStep.filled {schema : DynamicSchema} {columns : List ColumnDef}
    {opened : Except DynamicError OpenSink}
    (step : OpenStep env insert schema columns used opened) :
    (∀ call ∈ used, Filled call) ∧ ∀ native serverRevision block,
      opened = .ok (.tcp native serverRevision block) → Underfull native serverRevision block := by
  cases step with
  | http | untyped =>
      refine ⟨List.forall_mem_nil _, ?_⟩
      rintro _ _ _ ⟨⟩
  | unopened =>
      refine ⟨List.forall_mem_singleton.mpr trivial, ?_⟩
      rintro _ _ _ ⟨⟩
  | tcp =>
      refine ⟨List.forall_mem_singleton.mpr trivial, ?_⟩
      rintro _ _ _ ⟨⟩
      exact .inl (Nat.zero_lt_succ _)

theorem ActiveStep.filled (step : ActiveStep env op insert used result after)
    (settled : Settled insert) : (∀ call ∈ used, Filled call) ∧ Settled after := by
  cases step with
  | held | refused => exact ⟨List.forall_mem_nil _, settled⟩
  | unopened _ opening => exact ⟨opening.filled.1, settled⟩
  | opened _ _ opening =>
      refine ⟨opening.filled.1, ?_⟩
      rintro _ _ _ _ ⟨⟩
      exact opening.filled.2 _ _ _ rfl

theorem write_filled (ran : (op.write env insert).run calls = .done (result, after) rest)
    (settled : Settled insert) :
    ∃ used, calls = used ++ rest ∧ (∀ call ∈ used, Filled call) ∧ Settled after := by
  rw [WriteOp.write_eq, DynamicInsert.write] at ran
  obtain ⟨_, unread, rfl⟩ | ⟨_, loaded, _, read, ensuring⟩ := Method.run_bind_iff.mp ran
  · obtain ⟨asked, rfl, schema⟩ := ensureSchema_step unread
    exact ⟨asked, rfl, schema.filled, fun _ _ _ _ held => settled _ _ _ _ (schema.active ▸ held)⟩
  obtain ⟨asked, rfl, schema⟩ := ensureSchema_step read
  have settled : Settled loaded := fun _ _ _ _ held => settled _ _ _ _ (schema.active ▸ held)
  obtain ⟨_, unopened, rfl⟩ | ⟨_, ready, _, opened, handing⟩ := Method.run_bind_iff.mp ensuring
  · obtain ⟨opening, rfl, active⟩ := ensureActive_step unopened
    obtain ⟨filled, settled⟩ := active.filled settled
    exact ⟨asked ++ opening, by simp, List.forall_mem_append.mpr ⟨schema.filled, filled⟩, settled⟩
  obtain ⟨opening, rfl, active⟩ := ensureActive_step opened
  obtain ⟨opened, settled⟩ := active.filled settled
  have before := List.forall_mem_append.mpr ⟨schema.filled, opened⟩
  rw [Method.run_get_bind] at handing
  cases isOpen : ready.active with
  | none =>
      simp only [isOpen] at handing
      obtain ⟨rfl, rfl, rfl⟩ := Method.run_throw_iff.mp handing
      exact ⟨asked ++ opening, by simp, before, settled⟩
  | some held =>
      obtain ⟨columns, sink⟩ := held
      simp only [isOpen] at handing
      obtain ⟨_, failed, rfl⟩ | ⟨_, middle, _, handed, counting⟩ := Method.run_bind_iff.mp handing
      · obtain ⟨used, rfl, filled, settled⟩ := sinkRow_filled isOpen failed settled
        exact ⟨asked ++ opening ++ used, by simp, List.forall_mem_append.mpr ⟨before, filled⟩,
          settled⟩
      · obtain ⟨used, rfl, filled, settled⟩ := sinkRow_filled isOpen handed settled
        obtain ⟨rfl, rfl, rfl⟩ := Method.run_modify_iff.mp counting
        exact ⟨asked ++ opening ++ used, by simp, List.forall_mem_append.mpr ⟨before, filled⟩,
          settled⟩

variable {transport : Backend} {database table : String}

/-- The blocks of a run of writes. -/
theorem InsertRun.filled (run : InsertRun env transport database table) :
    (∀ call ∈ run.writing, Filled call) ∧ Settled run.written := by
  apply @Method.outcomes_keeps _ _ _ _ _ (WriteOp.write env)
    (fun _ _ history insert => (∀ call ∈ history, Filled call) ∧ Settled insert) _ [] run.ops []
    run.outcomes [] run.writing [] run.insert run.written
  · refine ⟨List.forall_mem_nil _, ?_⟩
    rintro _ _ _ _ held
    rcases dynamicInsert_run run.opened with ⟨_, same⟩ | ⟨_, schema, same⟩ <;> rw [same] at held <;>
      cases held
  · simpa using run.wrote
  · intro ops outcomes history insert op used rest result after held ran
    obtain ⟨taken, split, filled, settled⟩ := write_filled ran held.2
    obtain rfl := List.append_cancel_right split
    exact ⟨List.forall_mem_append.mpr ⟨held.1, filled⟩, settled⟩

theorem FinishStep.filled {sink : OpenSink} (step : FinishStep full sink used result)
    (underfull : ∀ native serverRevision block, sink = .tcp native serverRevision block →
      Underfull native serverRevision block) : ∀ call ∈ used, Filled call := by
  cases step with
  | rejected | accepted => exact List.forall_mem_singleton.mpr trivial
  | unsent send =>
      have sent := (send.filled ((underfull _ _ _ rfl).imp_left Nat.le_of_lt)).1
      exact List.forall_mem_append.mpr ⟨sent, List.forall_mem_singleton.mpr trivial⟩
  | finished send =>
      have sent := (send.filled ((underfull _ _ _ rfl).imp_left Nat.le_of_lt)).1
      exact List.forall_mem_append.mpr ⟨sent, List.forall_mem_singleton.mpr trivial⟩

variable {link next : Link}

end DfeClickhouse.Dynamic

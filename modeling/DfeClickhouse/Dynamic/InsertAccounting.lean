import DfeClickhouse.Dynamic.InsertedRows
import DfeClickhouse.Native.BlockPrefix
import DfeClickhouse.Native.BlockRoundTrip
import DfeClickhouse.Tcp.InsertSession
import DfeClickhouse.Tcp.Pool

/-!
# Accounting of a dynamic insert over TCP

A dynamic insert together with the actor of its connection and the packets on the wire.
When the end of an insert returns a count, the rows of the Data blocks are the rows of
the writes that were accepted, unless a block past the cap took rows with it.
-/

namespace DfeClickhouse.Dynamic

open Library Native
open Tcp (Actor ClientPacket ConnectionCmd Query poisonOnError written)

/-! ## The connection -/

/-- The connection of an insert: its actor, unless it is gone, and the packets on the wire
since the INSERT was begun. -/
structure Link where
  actor : Option Actor := none
  wire : List ClientPacket := []

namespace Link

/-- A command of the session is answered by the actor, or lost with it.  The flag may have
been set since the last command. -/
def Answers (link : Link) (cmd : ConnectionCmd) (answer : Except Error Unit) (next : Link) : Prop :=
  (∃ actor poisoned events after, link.actor = some actor ∧
    (actor.poisoned = true → poisoned = true) ∧
    ({ actor with poisoned }.handle cmd).run events = .done (.answered answer, after) [] ∧
    next = ⟨some (poisonOnError after answer), link.wire ++ written events⟩) ∨
  (∃ error, answer = .error error) ∧ next.actor = none

/-- The connection moves with a call of the insert.  An INSERT is opened on some connection
of the pool; one that is not opened leaves the insert without. -/
def Moves (link : Link) (call : Call) (next : Link) : Prop :=
  match call with
  | .insertNative sql (.ok _) =>
      ∃ actor query events columns after, query.query = sql ∧
        (Actor.handle actor (.beginInsert query)).run events =
          .done (.opened (.ok columns), after) [] ∧
        next = ⟨some after, written events⟩
  | .insertNative _ (.error _) => next = {}
  | .sendBlock columnBytes numColumns numRows answer =>
      link.Answers (.sendInsertBlock columnBytes numColumns numRows) answer next
  | .finish answer => link.Answers .finishInsert answer next
  | .abort => next = { link with actor := link.actor.map Actor.poison }
  | _ => next = link

end Link

/-! ## Exactly once -/

def SentBlock.packet (native : List ColumnSchema) (block : SentBlock) : ClientPacket :=
  .dataBlock block.columnBytes native.length block.rows.length

/-- A wire carries some rows: after the Query and the empty block stand the Data blocks of
the rows, and then what ends them. -/
def Wired (native : List ColumnSchema) (serverRevision : Nat) (wire ending : List ClientPacket)
    (rows : List Bytes) : Prop :=
  ∃ (query : Query) (blocks : List SentBlock),
    wire = .query query :: .emptyBlock :: (blocks.map (SentBlock.packet native) ++ ending) ∧
    (∀ block ∈ blocks, encodeColumns block.rows native serverRevision = .ok block.columnBytes) ∧
    rows = blocks.flatMap SentBlock.rows

/-- A row is what a write encodes to against some columns. -/
def EncodesTo (env : Env) (columns : List ColumnDef) (op : WriteOp) (row : Bytes) : Prop :=
  Writer.Writes ((op.against columns).encodeInto env.json) row

variable {env : Env} {database table : String}

/-- The count is that of the accepted writes, and the Data blocks between the Query and the
sentinel carry their rows, each once and in order. -/
def Accounted (run : InsertRun env .tcp database table) (count : Nat) (wire : List ClientPacket) :
    Prop :=
  count = (accepted run.ops run.outcomes).length ∧
    match run.written.active with
    | none => count = 0 ∧ wire = []
    | some ⟨_, .http ..⟩ => False
    | some ⟨columns, .tcp native serverRevision _⟩ =>
        ColumnSchema.fromHeaders (headers columns) = .ok native ∧
          ∃ rows, Wired native serverRevision wire [.emptyBlock] rows ∧
            List.Forall₂ (EncodesTo env columns) (accepted run.ops run.outcomes) rows

/-- Whenever the end of an insert returns a count, the rows are accounted for. -/
def ExactlyOnce (env : Env) : Prop :=
  ∀ database table (run : InsertRun env .tcp database table) ending count after final,
    (DynamicInsert.endInsert run.written).run ending = .done (.ok count, after) [] →
    Script.Runs Link.Moves {} (run.writing ++ ending) final →
    Accounted run count final.wire

/-- A write does not fill the block past the cap while it holds rows of earlier writes. -/
def FitsCap (env : Env) (insert : DynamicInsert) (op : WriteOp) : Prop :=
  ∀ columns native serverRevision block row bytes,
    insert.active = some ⟨columns, .tcp native serverRevision block⟩ → block.rows ≠ [] →
    EncodesTo env columns op row →
    (block.push env.json (op.against columns)).2.isFull defaultInsertBlockRows = true →
    encodeColumns (block.rows ++ [row]) native serverRevision = .ok bytes →
    bytes.length ≤ Actor.maxInsertBlockBytes

/-! ## What is known of an open sink -/

/-- The account of a sink: its INSERT is over, its block cannot be transposed, or the rows
of the accepted writes are on the wire and in the block. -/
inductive SinkAccount (env : Env) (columns : List ColumnDef) (native : List ColumnSchema)
    (serverRevision : Nat) (ops : List WriteOp) (block : RowBlock) (link : Link) : Prop
  | dead (idle : ∀ actor, link.actor = some actor → actor.state = .idle)
  | jammed {start more : List Bytes} {error : Error} (held : block.rows = start ++ more)
      (refused : encodeColumns start native serverRevision = .error error)
  | sound {actor : Actor} (sent : List Bytes) (present : link.actor = some actor)
      (active : actor.state = .insertActive)
      (wired : Wired native serverRevision link.wire [] sent)
      (rows : List.Forall₂ (EncodesTo env columns) ops (sent ++ block.rows))

variable {columns : List ColumnDef} {native : List ColumnSchema} {serverRevision : Nat}
  {full : String} {ops : List WriteOp} {op : WriteOp} {block later : RowBlock}
  {link next : Link} {used : List Call}

namespace SinkAccount

theorem push {row : Bytes} (account : SinkAccount env columns native serverRevision ops block link)
    (encodes : EncodesTo env columns op row) :
    SinkAccount env columns native serverRevision (ops ++ [op])
      (block.push env.json (op.against columns)).2 link := by
  have held := (@push_of_writes _ block _ _ encodes).2
  cases account with
  | dead idle => exact .dead idle
  | @jammed start more error split refused =>
      have longer : (block.push env.json (op.against columns)).2.rows =
          start ++ (more ++ [row]) := by
        rw [held, split, List.append_assoc]
      exact .jammed longer refused
  | sound sent present active wired rows =>
      refine .sound sent present active wired ?_
      rw [held, ← List.append_assoc]
      exact List.rel_append rows (.cons encodes .nil)

/-- Only the rows of the block matter. -/
theorem congr (account : SinkAccount env columns native serverRevision ops block link)
    (same : later.rows = block.rows) :
    SinkAccount env columns native serverRevision ops later link := by
  cases account with
  | dead idle => exact .dead idle
  | jammed split refused => exact .jammed (same.trans split) refused
  | sound sent present active wired rows =>
      refine .sound sent present active wired ?_
      rw [same]
      exact rows

/-- A block that is transposed is not jammed: it is sent for an INSERT that is over, or one
that is open. -/
theorem of_encoded {bytes : Bytes}
    (account : SinkAccount env columns native serverRevision ops block link)
    (encoded : encodeColumns block.rows native serverRevision = .ok bytes) :
    (∀ actor, link.actor = some actor → actor.state = .idle) ∨
      ∃ actor sent, link.actor = some actor ∧ actor.state = .insertActive ∧
        Wired native serverRevision link.wire [] sent ∧
        List.Forall₂ (EncodesTo env columns) ops (sent ++ block.rows) := by
  cases account with
  | dead idle => exact .inl idle
  | jammed split refused =>
      rw [split] at encoded
      obtain ⟨part, written⟩ := encodeColumns_start encoded
      rw [refused] at written
      cases written
  | sound sent present active wired rows => exact .inr ⟨_, sent, present, active, wired, rows⟩

end SinkAccount

/-! ## Blocks -/

theorem Wired.send {bytes : Bytes} {rows sent : List Bytes} {wire : List ClientPacket}
    (wired : Wired native serverRevision wire [] sent)
    (encoded : encodeColumns rows native serverRevision = .ok bytes) :
    Wired native serverRevision (wire ++ [.dataBlock bytes native.length rows.length]) []
      (sent ++ rows) := by
  obtain ⟨query, blocks, rfl, each, rfl⟩ := wired
  refine ⟨query, blocks ++ [⟨rows, bytes, .ok ()⟩], ?_, ?_, ?_⟩
  · simp [SentBlock.packet]
  · intro block member
    rcases List.mem_append.mp member with member | member
    · exact each block member
    · rw [List.mem_singleton.mp member]
      exact encoded
  · simp

theorem Wired.finish {sent : List Bytes} {wire : List ClientPacket}
    (wired : Wired native serverRevision wire [] sent) :
    Wired native serverRevision (wire ++ [.emptyBlock]) [.emptyBlock] sent := by
  obtain ⟨query, blocks, rfl, each, rows⟩ := wired
  refine ⟨query, blocks, ?_, each, rows⟩
  simp

/-- What a block brings a connection to. -/
inductive BlockAnswer (link : Link) (columnBytes : Bytes) (numColumns numRows : Nat) (next : Link) :
    Except Error Unit → Prop
  | sent {actor after : Actor} (present : link.actor = some actor)
      (active : actor.state = .insertActive) (still : next.actor = some after)
      (going : after.state = .insertActive)
      (wire : next.wire = link.wire ++ [.dataBlock columnBytes numColumns numRows]) :
      BlockAnswer link columnBytes numColumns numRows next (.ok ())
  | ended (error : Error) (idle : ∀ actor, next.actor = some actor → actor.state = .idle) :
      BlockAnswer link columnBytes numColumns numRows next (.error error)
  | overCap {actor after : Actor} (error : Error) (present : link.actor = some actor)
      (still : next.actor = some after) (same : after.state = actor.state)
      (wire : next.wire = link.wire)
      (past : Actor.maxInsertBlockBytes < columnBytes.length) :
      BlockAnswer link columnBytes numColumns numRows next (.error error)

theorem Link.Answers.ofBlock {columnBytes : Bytes} {numColumns numRows : Nat}
    {answer : Except Error Unit}
    (answers : link.Answers (.sendInsertBlock columnBytes numColumns numRows) answer next) :
    BlockAnswer link columnBytes numColumns numRows next answer := by
  rcases answers with ⟨actor, poisoned, events, after, present, _, ran, rfl⟩ | ⟨⟨error, rfl⟩, gone⟩
  · obtain ⟨_, ⟨⟩, outcome, refused⟩ := Actor.handle_send ran
    generalize written events = packets at outcome
    cases outcome with
    | sent isOpen =>
        cases active : actor.state with
        | idle =>
            obtain ⟨_, ⟨⟩⟩ := refused active
        | insertActive =>
            exact .sent present active rfl (isOpen.trans active) rfl
    | ended error closed =>
        apply BlockAnswer.ended
        rintro _ ⟨⟩
        exact (Tcp.Pooled.poisonOnError_state _ _).trans closed
    | overCap error past =>
        exact .overCap error present rfl (Tcp.Pooled.poisonOnError_state _ _)
          (List.append_nil _) past
  · apply BlockAnswer.ended
    intro actor present
    rw [gone] at present
    cases present

/-- A send that comes back leaves no rows behind. -/
theorem SendStep.account_ok (step : SendStep native serverRevision full block used (.ok ()) later)
    (moved : Script.Runs Link.Moves link used next)
    (account : SinkAccount env columns native serverRevision ops block link) :
    SinkAccount env columns native serverRevision ops later next ∧ later.rows = [] := by
  generalize outcome : (Except.ok () : Except DynamicError Unit) = result at step
  cases step with
  | nothing empty =>
      cases moved
      exact ⟨account, empty⟩
  | jammed => cases outcome
  | sent nonempty encoded answer =>
      obtain ⟨_, answers, rfl⟩ := moved
      refine ⟨?_, rfl⟩
      rcases account.of_encoded encoded with idle | ⟨actor, sent, present, active, wired, rows⟩
      · cases Link.Answers.ofBlock answers with
        | sent present active =>
            rw [idle _ present] at active
            cases active
        | ended => cases outcome
        | overCap => cases outcome
      · cases Link.Answers.ofBlock answers with
        | sent _ _ still going wire =>
            refine .sound (sent ++ block.rows) still going ?_ ?_
            · rw [wire]
              exact wired.send encoded
            · rw [RowBlock.recycle, List.append_nil]
              exact rows
        | ended => cases outcome
        | overCap => cases outcome

/-- A send that fails leaves the rows where they were, ends the INSERT, or drops a block past
the cap.  Such a block may hold no row of an earlier write. -/
theorem SendStep.account_error {row : Bytes} {pushed : RowBlock} {error : DynamicError}
    (step : SendStep native serverRevision full pushed used (.error error) later)
    (moved : Script.Runs Link.Moves link used next)
    (account : SinkAccount env columns native serverRevision ops block link)
    (held : pushed.rows = block.rows ++ [row])
    (fits : ∀ bytes, block.rows ≠ [] →
      encodeColumns (block.rows ++ [row]) native serverRevision = .ok bytes →
      bytes.length ≤ Actor.maxInsertBlockBytes) :
    SinkAccount env columns native serverRevision ops later next := by
  generalize outcome : (Except.error error : Except DynamicError Unit) = result at step
  cases step with
  | nothing => cases outcome
  | jammed refused => exact .jammed (List.append_nil _).symm refused
  | sent nonempty encoded answer =>
      obtain ⟨_, answers, rfl⟩ := moved
      rw [held] at encoded answers
      obtain ⟨part, transposed⟩ := encodeColumns_start encoded
      rcases account.of_encoded transposed with idle | ⟨actor, sent, present, active, wired, rows⟩
      · cases Link.Answers.ofBlock answers with
        | sent => cases outcome
        | ended error idle => exact .dead idle
        | overCap error present still same =>
            apply SinkAccount.dead
            intro actor found
            rw [still] at found
            cases found
            exact same.trans (idle _ present)
      · cases Link.Answers.ofBlock answers with
        | sent => cases outcome
        | ended error idle => exact .dead idle
        | overCap error found still same wire past =>
            have alone : block.rows = [] := by
              by_contra others
              exact absurd (fits _ others encoded) (Nat.not_le.mpr past)
            rw [present] at found
            cases found
            refine .sound sent still (same.trans active) ?_ ?_
            · rw [wire]
              exact wired
            · rw [alone] at rows
              exact rows

/-! ## Writes -/

theorem RowStep.account {result : Except DynamicError Unit}
    (step : RowStep env native serverRevision full (op.against columns) block used result later)
    (moved : Script.Runs Link.Moves link used next)
    (account : SinkAccount env columns native serverRevision ops block link)
    (fits : ∀ row bytes, block.rows ≠ [] → EncodesTo env columns op row →
      (block.push env.json (op.against columns)).2.isFull defaultInsertBlockRows = true →
      encodeColumns (block.rows ++ [row]) native serverRevision = .ok bytes →
      bytes.length ≤ Actor.maxInsertBlockBytes) :
    SinkAccount env columns native serverRevision (ops ++ accepted [op] [result]) later next := by
  cases step with
  | rejected failed =>
      cases moved
      change SinkAccount env columns native serverRevision (ops ++ []) _ _
      rw [List.append_nil]
      exact account.congr (push_of_failed failed).2
  | held encodes =>
      cases moved
      exact account.push encodes
  | @flushed row _ _ _ encodes isFull send =>
      cases result with
      | ok value => exact (send.account_ok moved (account.push encodes)).1
      | error error =>
          change SinkAccount env columns native serverRevision (ops ++ []) _ _
          rw [List.append_nil]
          apply send.account_error moved account (push_of_writes encodes).2
          intro bytes others
          exact fits row bytes others encodes isFull

/-- What is known of an insert and its connection after some writes. -/
structure Account (env : Env) (ops : List WriteOp) (outcomes : List (Except DynamicError Unit))
    (insert : DynamicInsert) (link : Link) : Prop where
  sized : ops.length = outcomes.length
  backend : insert.backend = .tcp
  counts : insert.rowsWritten = (accepted ops outcomes).length
  sink : match insert.active with
    | none => accepted ops outcomes = [] ∧ link.wire = []
    | some ⟨_, .http ..⟩ => False
    | some ⟨columns, .tcp native serverRevision block⟩ =>
        ColumnSchema.fromHeaders (headers columns) = .ok native ∧
          SinkAccount env columns native serverRevision (accepted ops outcomes) block link

/-- Over TCP the schema is there. -/
theorem SchemaStep.of_tcp {insert after : DynamicInsert} {result : Except DynamicError Unit}
    (step : SchemaStep env insert used result after) (tcp : insert.backend = .tcp) :
    used = [] ∧ after = insert ∧ result = .ok () := by
  cases step with
  | held => exact ⟨rfl, rfl, rfl⟩
  | cached _ http | unread _ http | absent _ http | fetched _ http =>
      rw [tcp] at http
      cases http

theorem counted_eq (rowsWritten : Nat) (op : WriteOp) (result : Except DynamicError Unit) :
    counted rowsWritten result = rowsWritten + (accepted [op] [result]).length := by
  cases result <;> rfl

theorem OpenStep.wire {insert : DynamicInsert} {schema : DynamicSchema} {error : DynamicError}
    (step : OpenStep env insert schema columns used (.error error))
    (moved : Script.Runs Link.Moves link used next) (quiet : link.wire = []) : next.wire = [] := by
  generalize outcome : (Except.error error : Except DynamicError OpenSink) = result at step
  cases step with
  | http | tcp => cases outcome
  | untyped =>
      cases moved
      exact quiet
  | unopened =>
      obtain ⟨_, rfl, rfl⟩ := moved
      rfl

/-- A sink that was just opened has sent nothing. -/
theorem OpenStep.account {insert : DynamicInsert} {schema : DynamicSchema} {sink : OpenSink}
    (step : OpenStep env insert schema columns used (.ok sink)) (tcp : insert.backend = .tcp)
    (moved : Script.Runs Link.Moves link used next) :
    ∃ native serverRevision, sink = .tcp native serverRevision {} ∧
      ColumnSchema.fromHeaders (headers columns) = .ok native ∧
      SinkAccount env columns native serverRevision [] {} next := by
  cases step with
  | http http =>
      rw [tcp] at http
      cases http
  | @tcp _ native typed serverRevision =>
      obtain ⟨_, ⟨actor, query, events, echoed, after, _, ran, rfl⟩, rfl⟩ := moved
      obtain ⟨packets, active⟩ := Actor.handle_begin ran
      refine ⟨native, serverRevision, rfl, typed, .sound [] rfl active ?_ .nil⟩
      exact ⟨query, [], packets, by simp, rfl⟩

namespace Account

variable {insert after : DynamicInsert} {outcomes : List (Except DynamicError Unit)}
  {result : Except DynamicError Unit}

/-- A write that opens no sink. -/
theorem unopened {error : DynamicError} (account : Account env ops outcomes insert link)
    (closed : insert.active = none) (quiet : next.wire = []) :
    Account env (ops ++ [op]) (outcomes ++ [.error error]) insert next := by
  have none := account.sink
  rw [closed] at none
  have same : accepted (ops ++ [op]) (outcomes ++ [.error error]) = accepted ops outcomes := by
    rw [accepted_append account.sized]
    exact List.append_nil _
  refine ⟨by simp [account.sized], account.backend, ?_, ?_⟩
  · rw [same]
    exact account.counts
  · rw [closed, same]
    exact ⟨none.1, quiet⟩

/-- A write whose row is handed to an open sink. -/
theorem handed (account : Account env ops outcomes insert link)
    (ready : after.backend = .tcp ∧ after.rowsWritten = insert.rowsWritten)
    (typed : ColumnSchema.fromHeaders (headers columns) = .ok native)
    (sink : SinkAccount env columns native serverRevision
      (accepted ops outcomes ++ accepted [op] [result]) later next) :
    Account env (ops ++ [op]) (outcomes ++ [result])
      { after with
        active := some ⟨columns, .tcp native serverRevision later⟩
        rowsWritten := counted after.rowsWritten result } next := by
  refine ⟨by simp [account.sized], ready.1, ?_, typed, ?_⟩
  · rw [accepted_append account.sized, List.length_append, ← account.counts, ← ready.2]
    exact counted_eq _ op result
  · rw [accepted_append account.sized]
    exact sink

theorem write (account : Account env ops outcomes insert link)
    (step : WriteStep env op insert used result after)
    (moved : Script.Runs Link.Moves link used next) (fits : FitsCap env insert op) :
    Account env (ops ++ [op]) (outcomes ++ [result]) after next := by
  cases step with
  | noSchema schema =>
      obtain ⟨_, _, ⟨⟩⟩ := schema.of_tcp account.backend
  | noSink schema active =>
      obtain ⟨rfl, rfl, _⟩ := schema.of_tcp account.backend
      have sink := account.sink
      cases active with
      | refused closed =>
          cases moved
          rw [closed] at sink
          exact account.unopened closed sink.2
      | unopened closed step =>
          rw [closed] at sink
          exact account.unopened closed (step.wire moved sink.2)
  | written schema active isOpen step =>
      obtain ⟨rfl, rfl, _⟩ := schema.of_tcp account.backend
      rw [List.nil_append] at moved
      obtain ⟨middle, opening, handing⟩ := Script.runs_append_iff.mp moved
      cases active with
      | held =>
          cases opening
          have sink := account.sink
          rw [isOpen] at sink
          cases step with
          | rejected | buffered => exact sink.elim
          | pushed step =>
              apply account.handed ⟨account.backend, rfl⟩ sink.1
              apply step.account handing sink.2
              intro row bytes others encodes isFull encoded
              exact fits _ _ _ _ row bytes isOpen others encodes isFull encoded
      | opened closed known opened =>
          cases isOpen
          have sink := account.sink
          rw [closed] at sink
          obtain ⟨native, serverRevision, rfl, typed, fresh⟩ :=
            opened.account account.backend opening
          rw [← sink.1] at fresh
          cases step with
          | pushed step =>
              apply account.handed ⟨account.backend, rfl⟩ typed
              apply step.account handing fresh
              intro _ _ others
              exact absurd rfl others

end Account

/-! ## The end -/

/-- An account with no rows held is settled by a finish that comes back. -/
theorem SinkAccount.finish
    (account : SinkAccount env columns native serverRevision ops block link)
    (empty : block.rows = []) (moved : link.Answers .finishInsert (.ok ()) next) :
    ∃ rows, Wired native serverRevision next.wire [.emptyBlock] rows ∧
      List.Forall₂ (EncodesTo env columns) ops rows := by
  rcases moved with ⟨actor, poisoned, events, after, present, _, ran, rfl⟩ | ⟨⟨_, ⟨⟩⟩, _⟩
  obtain ⟨active, packets⟩ := Actor.handle_finish ran
  cases account with
  | dead idle =>
      have closed := idle actor present
      dsimp only at active
      rw [active] at closed
      cases closed
  | jammed held refused =>
      rw [empty] at held
      obtain ⟨rfl, _⟩ := List.append_eq_nil_iff.mp held.symm
      simp [encodeColumns] at refused
  | sound sent _ _ wired rows =>
      refine ⟨sent, ?_, ?_⟩
      · dsimp only
        rw [packets]
        exact wired.finish
      · rw [empty, List.append_nil] at rows
        exact rows

theorem InsertRun.account (run : InsertRun env .tcp database table)
    (fits : Method.Meets (WriteOp.write env) (FitsCap env) run.ops run.insert run.writing) :
    ∀ link, Script.Runs Link.Moves {} run.writing link →
      Account env run.ops run.outcomes run.written link := by
  apply @Method.outcomes_keeps_meeting _ _ _ _ _ (WriteOp.write env) (FitsCap env)
    (fun ops outcomes history insert => ∀ link, Script.Runs Link.Moves {} history link →
      Account env ops outcomes insert link) _ [] run.ops [] run.outcomes [] run.writing []
    run.insert run.written
  · rintro _ rfl
    obtain ⟨_, schema, same⟩ := (dynamicInsert_run run.opened).resolve_left nofun
    rw [same]
    exact ⟨rfl, rfl, rfl, rfl, rfl⟩
  · simpa using fits
  · simpa using run.wrote
  · intro ops outcomes history insert op used rest result after held fits ran link moved
    obtain ⟨taken, split, step⟩ := write_step ran
    obtain rfl := List.append_cancel_right split
    obtain ⟨middle, before, moved⟩ := Script.runs_append_iff.mp moved
    exact (held middle before).write step moved fits

/-- In every run whose writes all fit, an end that returns a count has delivered exactly the
rows of the accepted writes. -/
theorem accounted_of_fitsCap (run : InsertRun env .tcp database table)
    (fits : Method.Meets (WriteOp.write env) (FitsCap env) run.ops run.insert run.writing)
    {ending : List Call} {count : Nat} {after : DynamicInsert} {final : Link}
    (ended : (DynamicInsert.endInsert run.written).run ending = .done (.ok count, after) [])
    (moved : Script.Runs Link.Moves {} (run.writing ++ ending) final) :
    Accounted run count final.wire := by
  obtain ⟨link, before, moved⟩ := Script.runs_append_iff.mp moved
  have account := run.account fits link before
  obtain ⟨used, split, step⟩ := endInsert_step ended
  rw [List.append_nil] at split
  subst split
  have sink := account.sink
  unfold Accounted
  cases step with
  | unopened closed =>
      cases moved
      refine ⟨account.counts, ?_⟩
      rw [closed] at sink ⊢
      refine ⟨?_, sink.2⟩
      rw [account.counts, sink.1]
      rfl
  | @finished active used isOpen step =>
      refine ⟨account.counts, ?_⟩
      obtain ⟨columns, opened⟩ := active
      rw [isOpen] at sink ⊢
      cases opened with
      | http => exact sink
      | tcp native serverRevision block =>
          refine ⟨sink.1, ?_⟩
          generalize outcome : (Except.ok () : Except DynamicError Unit) = result at step
          cases step with
          | unsent => cases outcome
          | finished send answer =>
              obtain ⟨middle, sending, _, finishing, rfl⟩ := Script.runs_append_iff.mp moved
              obtain ⟨settled, empty⟩ := send.account_ok sending sink.2
              cases answer with
              | error error => cases outcome
              | ok value => exact settled.finish empty finishing

/-- The statement of the widened rows. -/
def widenedQuery : Query :=
  { queryId := ""
    query := (DynamicInsert.tcp "db" "t" pairTable).insertSql plainEnv
      [.withDefaultKind "a" "UInt8" ""] "Native" }

def widenedBytes : Bytes :=
  [1, 97, 5, 85, 73, 110, 116, 56, 0, 1, 2]

theorem accounted_of_fitsCap_widened :
    Accounted widenedRun 2
      [.query widenedQuery, .emptyBlock, .dataBlock widenedBytes 1 2, .emptyBlock] := by
  have fits : Method.Meets (WriteOp.write plainEnv) (FitsCap plainEnv) widenedRun.ops
      widenedRun.insert widenedRun.writing := by
    refine ⟨?_, ?_⟩
    · intro _ _ _ _ _ _ isOpen
      cases isOpen
    · rintro _ _ _ ⟨⟩
      refine ⟨?_, ?_⟩
      · rintro _ _ _ _ _ _ ⟨⟩ _ _ isFull
        have impossible : false = true := isFull
        cases impossible
      · intro _ _ _ _
        trivial
  have ended : (DynamicInsert.endInsert widenedRun.written).run
      [.sendBlock widenedBytes 1 2 (.ok ()), .finish (.ok ())] =
        .done (.ok 2, { widenedRun.written with active := none }) [] := rfl
  have moved : Script.Runs Link.Moves {} (widenedRun.writing ++
      [.sendBlock widenedBytes 1 2 (.ok ()), .finish (.ok ())])
      ⟨some {}, [.query widenedQuery, .emptyBlock, .dataBlock widenedBytes 1 2, .emptyBlock]⟩ :=
    ⟨_, ⟨{}, widenedQuery, [.wrote (.query widenedQuery), .wrote .emptyBlock,
        .received (.packet (.data 0 [("a", "UInt8")]))], _, _, rfl, rfl, rfl⟩,
      _, .inl ⟨_, false, [.empty, .wrote (.dataBlock widenedBytes 1 2)], _, rfl, id, rfl, rfl⟩,
      _, .inl ⟨_, false, [.wrote .emptyBlock, .received (.packet .endOfStream)], _, rfl,
        id, rfl, rfl⟩,
      rfl⟩
  exact accounted_of_fitsCap widenedRun fits ended moved

/-! ## Rows that are lost -/

def textTable : DynamicSchema :=
  ⟨"db.t", [.withDefaultKind "s" "String" ""]⟩

def textColumn : ColumnSchema :=
  ⟨"s", "String", .string⟩

def textRow (text : String) : WriteOp :=
  ⟨[("s", .string text)], none⟩

theorem encodesTo_textRow (text : String) :
    EncodesTo plainEnv textTable.columns (textRow text) (putString (utf8 text)) :=
  ⟨List.append_nil _, (), rfl⟩

/-- The block of an empty text and another one. -/
def textBlock (text : String) : Bytes :=
  writeColumnHeader 54473 textColumn ++ (putString [] ++ putString (utf8 text))

theorem encodeColumns_texts {text : String} (small : (utf8 text).length ≤ maxStringSize) :
    encodeColumns ([putString []] ++ [putString (utf8 text)]) [textColumn] 54473 =
      .ok (textBlock text) := by
  have typed : ∀ record ∈ [[RowValue.text []], [.text (utf8 text)]],
      List.Forall₂ RowValue.HasType ([textColumn].map ColumnSchema.colType) record := by
    intro record member
    rcases List.mem_pair.mp member with rfl | rfl
    · exact .cons ⟨[], rfl, Nat.zero_le _⟩ .nil
    · exact .cons ⟨utf8 text, rfl, small⟩ .nil
  have same : [putString []] ++ [putString (utf8 text)] =
      [[RowValue.text []], [.text (utf8 text)]].map RowValue.rowBinaries := by
    simp [RowValue.rowBinaries, RowValue.rowBinary]
  rw [same, encodeColumns_eq_writeColumns (by simp) (by simp) typed]
  simp [writeColumns, writeColValues, textColumn, textBlock, writeColPrefixes, RowValue.rowBinary,
    bind, Except.bind, pure, Except.pure]

/-- The error of a block past the cap. -/
def capError (bytes : Bytes) : Error :=
  .custom ("tcp: INSERT block of " ++ toString bytes.length ++ " bytes exceeds the " ++
    toString Actor.maxInsertBlockBytes ++ " byte cap; split the batch into smaller blocks")

/-- A block that holds an empty text. -/
def heldText : RowBlock :=
  { rows := [putString []], bytes := 1 }

/-- A block whose rows were taken for a send. -/
def recycledText (text : String) : RowBlock :=
  { spare := [putString [], putString (utf8 text)] }

/-- A text that fills the block: both rows are taken, whatever comes of the send. -/
theorem pushRow_flushes {text : String} (long : 2 ^ 29 ≤ (utf8 text).length)
    (small : (utf8 text).length ≤ maxStringSize) (error : Error) :
    (DynamicInsert.pushRow plainEnv [textColumn] 54473 "db.t"
        ((textRow text).against textTable.columns) heldText).run
      [.sendBlock (textBlock text) 1 2 (.error error)] =
      .done (.error (classifyError "db.t" error), recycledText text) [] := by
  have pushed : heldText.push plainEnv.json ((textRow text).against textTable.columns) =
      (.ok (), ⟨[putString [], putString (utf8 text)], [],
        1 + (putString (utf8 text)).length⟩) := by
    obtain ⟨same, _, ran⟩ := encodesTo_textRow text
    simp only [RowBlock.push, ran, same]
    rfl
  have isFull : RowBlock.isFull
      ⟨[putString [], putString (utf8 text)], [], 1 + (putString (utf8 text)).length⟩
      defaultInsertBlockRows = true := by
    have longer : blockFlushBytes ≤ 1 + (putString (utf8 text)).length := by
      simp only [blockFlushBytes, putString, List.length_append]
      omega
    simp [RowBlock.isFull, longer]
  have encoded := encodeColumns_texts small
  simp only [List.cons_append, List.nil_append] at encoded
  rw [DynamicInsert.pushRow, Method.run_get_bind, pushed]
  dsimp only
  rw [Method.run_modify_bind]
  apply Method.run_bind_iff.mpr
  refine .inr ⟨(), _, _, rfl, ?_⟩
  rw [if_pos isFull, sendBlock, Method.run_get_bind]
  simp only [List.isEmpty_cons, Bool.false_eq_true, if_false]
  rw [encoded]
  dsimp only
  rw [Method.run_modify_bind]
  exact run_sessionSendBlock_iff.mpr ⟨.error error, [], rfl, rfl⟩

def textInsert (block : RowBlock) : DynamicInsert :=
  { DynamicInsert.tcp "db" "t" textTable with
    active := some ⟨textTable.columns, .tcp [textColumn] 54473 block⟩
    rowsWritten := 1 }

def textQuery : Query :=
  { queryId := ""
    query := (DynamicInsert.tcp "db" "t" textTable).insertSql plainEnv textTable.columns "Native" }

theorem write_flushes {text : String} (long : 2 ^ 29 ≤ (utf8 text).length)
    (small : (utf8 text).length ≤ maxStringSize) (error : Error) :
    ((textRow text).write plainEnv (textInsert heldText)).run
      [.sendBlock (textBlock text) 1 2 (.error error)] =
      .done (.error (classifyError "db.t" error), textInsert (recycledText text)) [] := by
  rw [WriteOp.write_eq, DynamicInsert.write]
  apply Method.run_bind_iff.mpr
  refine .inr ⟨(), _, _, rfl, ?_⟩
  apply Method.run_bind_iff.mpr
  refine .inr ⟨(), _, _, rfl, ?_⟩
  rw [Method.run_get_bind]
  apply Method.run_bind_iff.mpr
  refine .inl ⟨_, ?_, rfl⟩
  rw [DynamicInsert.sinkRow, Method.run_get_bind]
  apply Method.run_focus_iff.mpr
  exact ⟨recycledText text, pushRow_flushes long small error, rfl⟩

/-- An empty text is accepted; the next text is refused with the block of both. -/
def overCapRun (text : String) (long : 2 ^ 29 ≤ (utf8 text).length)
    (small : (utf8 text).length ≤ maxStringSize) : InsertRun plainEnv .tcp "db" "t" where
  opening := [.cacheGet "db.t" (some textTable)]
  insert := .tcp "db" "t" textTable
  opened := by rfl
  ops := [textRow "", textRow text]
  writing := [.insertNative textQuery.query (.ok 54473),
    .sendBlock (textBlock text) 1 2 (.error (capError (textBlock text)))]
  outcomes := [.ok (), .error (classifyError "db.t" (capError (textBlock text)))]
  written := textInsert (recycledText text)
  wrote := by
    apply Script.run_bind_iff.mpr
    refine ⟨(.ok (), textInsert heldText), _, rfl, ?_⟩
    apply Script.run_bind_iff.mpr
    refine ⟨([.error _], textInsert (recycledText text)), [], ?_, rfl⟩
    apply Script.run_bind_iff.mpr
    exact ⟨_, _, write_flushes long small _, rfl⟩

theorem overCap_textBlock {text : String} (long : 2 ^ 29 ≤ (utf8 text).length) :
    Actor.maxInsertBlockBytes < (textBlock text).length := by
  have empty : (putString []).length = 1 := rfl
  simp only [Actor.maxInsertBlockBytes, textBlock, List.length_append, empty]
  simp only [putString, List.length_append]
  omega

/-- An actor in an INSERT. -/
def inInsert (poisoned : Bool) : Actor :=
  { state := .insertActive, poisoned }

theorem handle_overCap {bytes : Bytes} (past : Actor.maxInsertBlockBytes < bytes.length)
    (numColumns numRows : Nat) :
    ((inInsert false).handle (.sendInsertBlock bytes numColumns numRows)).run [] =
      .done (.answered (.error (capError bytes)), inInsert false) [] := by
  have refused : (inInsert false).doSendInsertBlock bytes numColumns numRows =
      pure (.error (capError bytes), inInsert false) := if_pos past
  apply Script.run_bind_iff.mpr
  rw [refused]
  exact ⟨_, [], rfl, rfl⟩

/-- The end of that insert returns one row, and no row is on the wire. -/
theorem exactlyOnce_fails_of_long {text : String} (long : 2 ^ 29 ≤ (utf8 text).length)
    (small : (utf8 text).length ≤ maxStringSize) : ¬ ExactlyOnce plainEnv := by
  have ended : (DynamicInsert.endInsert (overCapRun text long small).written).run
      [.finish (.ok ())] = .done (.ok 1,
        { textInsert (recycledText text) with active := none }) [] := rfl
  have moved : Script.Runs Link.Moves {}
      ((overCapRun text long small).writing ++ [.finish (.ok ())])
      ⟨some { poisoned := true }, [.query textQuery, .emptyBlock, .emptyBlock]⟩ :=
    ⟨_, ⟨{}, textQuery, [.wrote (.query textQuery), .wrote .emptyBlock,
        .received (.packet (.data 0 [("s", "String")]))], _, inInsert false, rfl, rfl, rfl⟩,
      _, .inl ⟨_, false, [], _, rfl, id, handle_overCap (overCap_textBlock long) 1 2, rfl⟩,
      _, .inl ⟨inInsert true, true, [.wrote .emptyBlock, .received (.packet .endOfStream)], _, rfl,
        id, rfl, rfl⟩,
      rfl⟩
  intro exactly
  obtain ⟨_, _, rows, ⟨query, blocks, wire, _, rfl⟩, each⟩ :=
    exactly "db" "t" (overCapRun text long small) _ _ _ _ ended moved
  cases blocks with
  | nil => cases each
  | cons block blocks => cases wire

@[simp] theorem length_utf8_letters (count : Nat) :
    (utf8 (String.ofList (List.replicate count 'a'))).length = count := by
  have each : ((List.replicate count 'a').flatMap String.utf8EncodeChar).length = count := by
    induction count with
    | zero => rfl
    | succ count ih =>
        rw [List.replicate_succ, List.flatMap_cons, List.length_append, ih]
        exact Nat.add_comm 1 count
  rw [utf8, String.toByteArray_ofList, List.utf8Encode]
  simpa using each

/-- A long text after an empty one: the empty one is accepted, counted and lost. -/
theorem exactlyOnce_fails_overCap : ¬ ExactlyOnce plainEnv := by
  have sized := length_utf8_letters (2 ^ 29)
  apply @exactlyOnce_fails_of_long (String.ofList (List.replicate (2 ^ 29) 'a'))
  · rw [sized]
  · rw [sized, maxStringSize]
    omega

end DfeClickhouse.Dynamic

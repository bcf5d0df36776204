import DfeClickhouse.Tcp.InsertState

/-!
# What an INSERT session writes

The packets each command of an INSERT session puts on the wire, by its answer.
-/

namespace DfeClickhouse.Tcp

open Library Script

/-- The packets that are on the wire. -/
def written (events : List Event) : List ClientPacket :=
  events.filterMap fun event =>
    match event with
    | .wrote packet => some packet
    | _ => none

theorem written_append_of_not {history : List Event} {event : Event}
    (other : event.isWrite = false) : written (history ++ [event]) = written history := by
  rw [written, List.filterMap_append]
  cases event <;> first | exact List.append_nil _ | cases other

@[simp, grind =] theorem written_append_wrote (history : List Event) (packet : ClientPacket) :
    written (history ++ [.wrote packet]) = written history ++ [packet] := by
  rw [written, List.filterMap_append]
  rfl

namespace Actor

variable {actor after : Actor} {packets : List ClientPacket} {events : List Event}

/-- A packet is on the wire, or its write has failed and it is not. -/
theorem ensures_writes_cases (packet : ClientPacket) :
    Ensures record (written · = packets) (write packet) (fun _ => True)
      fun result history => (result = .ok () ∧ written history = packets ++ [packet]) ∨
        ((∃ error, result = .error error) ∧ written history = packets) := by
  apply Ensures.await fun _ _ => trivial
  rintro history event _ result rfl rfl taken
  cases event with
  | wrote sent =>
      dsimp only at taken
      split at taken
      · rename_i same
        cases taken
        rw [← same]
        exact .inl ⟨rfl, written_append_wrote history sent⟩
      · cases taken
  | writeFailed sent error =>
      dsimp only at taken
      split at taken
      · cases taken
        refine .inr ⟨⟨error, rfl⟩, ?_⟩
        rw [written, List.filterMap_append]
        exact List.append_nil _
      · cases taken
  | _ => cases taken

theorem ensures_writes (packet : ClientPacket) :
    Ensures record (written · = packets) (write packet) (fun _ => True)
      fun result history => result = .ok () → written history = packets ++ [packet] := by
  apply (ensures_writes_cases packet).consequence fun _ held => held
  rintro result history (⟨_, wrote⟩ | ⟨⟨error, rfl⟩, _⟩)
  · exact fun _ => wrote
  · rintro ⟨⟩

/-- A loop that takes no write leaves the wire alone. -/
theorem ensures_silent {σ α : Type} {on : σ → Event → Option (Verdict σ α)} {good : α → Prop}
    (each : ∀ state event verdict, on state event = some verdict →
      event.isWrite = false ∧ verdict.Meets (fun _ => True) good) (state : σ) :
    Ensures record (written · = packets) (loop on state) (fun _ => True)
      fun value history => written history = packets ∧ good value := by
  apply @Ensures.loop _ _ _ _ _ _ on fun _ history => written history = packets
  · intro _ _ _
    trivial
  · rintro state history event _ verdict same rfl taken
    obtain ⟨quiet, next⟩ := each state event verdict taken
    have kept := (written_append_of_not quiet).trans same
    cases verdict with
    | again later => exact kept
    | stop value => exact ⟨kept, next⟩

theorem ensures_drain_silent (actor : Actor) :
    Ensures record (written · = packets) actor.drainToEndOfStream (fun _ => True)
      fun _ history => written history = packets := by
  have loops : Ensures record (written · = packets) (loop actor.drainOn ()) (fun _ => True)
      fun _ history => written history = packets ∧ True := by
    apply ensures_silent
    intro state event verdict taken
    unfold drainOn at taken
    split at taken <;> cases taken <;> exact ⟨rfl, trivial⟩
  apply loops.consequence
  · intro history same
    exact same
  · intro _ history post
    exact post.1

theorem ensures_begin_writes (actor : Actor) (query : Query) :
    Ensures record (written · = []) (actor.doBeginInsert query) (fun _ => True)
      fun result history => ∀ columns, result.1 = .ok columns →
        written history = [.query query, .emptyBlock] := by
  have issues : Ensures record (written · = []) (issueQuery query) (fun _ => True)
      fun result history => result = .ok () →
        written history = [.query query, .emptyBlock] := by
    apply (ensures_writes _).bind
    intro result
    cases result with
    | error error =>
        apply Ensures.pure
        rintro _ _ ⟨⟩
    | ok value =>
        apply (ensures_writes _).consequence
        · intro history wrote
          exact wrote rfl
        · intro result history wrote
          exact wrote
  apply issues.bind
  intro result
  cases result with
  | error error =>
      apply Ensures.pure
      rintro _ _ _ ⟨⟩
  | ok value =>
      have loops : Ensures record (written · = [.query query, .emptyBlock]) (loop actor.beginOn ())
          (fun _ => True) fun _ history => written history =
            [.query query, .emptyBlock] ∧ True := by
        apply ensures_silent
        intro state event verdict taken
        unfold beginOn at taken
        split at taken <;> cases taken
        all_goals first
          | exact ⟨rfl, trivial⟩
          | exact ⟨rfl, onIdle_meets trivial trivial⟩
      apply loops.consequence
      · intro history wrote
        exact wrote rfl
      · intro result history post _ _
        exact post.1

/-- The Query and the empty block are on the wire of an INSERT that is opened. -/
theorem handle_begin {query : Query} {columns : List (String × String)}
    (ran : (actor.handle (.beginInsert query)).run events =
      .done (.opened (.ok columns), after) []) :
    written events = [.query query, .emptyBlock] ∧ after.state = .insertActive := by
  have advances := (ensures_handle actor (.beginInsert query)).of_done ran
  refine ⟨?_, advances.state.mpr (.inl ⟨query, columns, rfl, rfl⟩)⟩
  have ensures : Ensures record (written · = []) (actor.handle (.beginInsert query)) (fun _ => True)
      fun result history => result.1 = .opened (.ok columns) →
        written history = [.query query, .emptyBlock] := by
    unfold handle
    split
    · apply Ensures.pure
      rintro _ _ ⟨⟩
    · split <;> rename_i state same <;> cases same
      · apply Ensures.pure
        rintro _ _ ⟨⟩
      · apply (ensures_begin_writes actor query).bind
        rintro ⟨result, after⟩
        cases result with
        | error error =>
            apply Ensures.pure
            rintro _ _ ⟨⟩
        | ok columns' =>
            apply Ensures.pure
            intro history wrote _
            exact wrote columns' rfl
  exact ensures.of_start rfl ran rfl

/-- What comes of a block: it is on the wire, the INSERT is over, or the block is past the
cap and nothing has happened. -/
inductive SendOutcome (actor : Actor) (columnBytes : Bytes) (numColumns numRows : Nat) :
    Except Error Unit → Actor → List ClientPacket → Prop
  | sent {after : Actor} (isOpen : after.state = actor.state) :
      SendOutcome actor columnBytes numColumns numRows (.ok ()) after
        [.dataBlock columnBytes numColumns numRows]
  | ended {after : Actor} {packets : List ClientPacket} (error : Error)
      (closed : after.state = .idle) :
      SendOutcome actor columnBytes numColumns numRows (.error error) after packets
  | overCap (error : Error) (past : maxInsertBlockBytes < columnBytes.length) :
      SendOutcome actor columnBytes numColumns numRows (.error error) actor []

theorem ensures_send_writes (actor : Actor) (columnBytes : Bytes) (numColumns numRows : Nat) :
    Ensures record (written · = []) (actor.doSendInsertBlock columnBytes numColumns numRows)
      (fun _ => True) fun result history =>
        SendOutcome actor columnBytes numColumns numRows result.1 result.2 (written history) := by
  unfold doSendInsertBlock
  split
  · rename_i past
    apply Ensures.pure
    intro history quiet
    rw [quiet]
    exact .overCap _ past
  · have queued : Ensures record (written · = []) (loop actor.queuedOn ()) (fun _ => True)
        fun queued history => written history = [] ∧
          ∀ error after, queued = some (error, after) → after.state = .idle := by
      apply ensures_silent
      intro state event verdict taken
      unfold queuedOn at taken
      split at taken <;> cases taken
      all_goals first
        | exact ⟨rfl, trivial⟩
        | refine ⟨rfl, ?_⟩
          rintro _ _ ⟨⟩
          try rfl
    apply queued.bind
    intro found
    cases found with
    | some failure =>
        apply Ensures.pure
        intro history post
        exact .ended _ (post.2 _ _ rfl)
    | none =>
        apply Ensures.bind
        · apply (ensures_writes _).strengthen
          intro history post
          exact post.1
        · intro result
          cases result with
          | error error =>
              apply Ensures.pure
              intro history _
              exact .ended _ rfl
          | ok value =>
              apply Ensures.pure
              intro history wrote
              rw [wrote rfl]
              exact .sent rfl

theorem handle_send {columnBytes : Bytes} {numColumns numRows : Nat} {reply : Reply}
    (ran : (actor.handle (.sendInsertBlock columnBytes numColumns numRows)).run events =
      .done (reply, after) []) :
    ∃ answer, reply = .answered answer ∧
      SendOutcome actor columnBytes numColumns numRows answer after (written events) ∧
      (actor.state = .idle → ∃ error, answer = .error error) := by
  have ensures : Ensures record (written · = [])
      (actor.handle (.sendInsertBlock columnBytes numColumns numRows)) (fun _ => True)
      fun result history => ∃ answer, result.1 = .answered answer ∧
        SendOutcome actor columnBytes numColumns numRows answer result.2 (written history) ∧
        (actor.state = .idle → ∃ error, answer = .error error) := by
    unfold handle
    split
    · rename_i rejected
      simp [ConnectionCmd.continuesInsert] at rejected
    · split <;> rename_i state same <;> cases same
      · apply Ensures.pure
        intro history _
        exact ⟨_, rfl, .ended _ state, fun _ => ⟨_, rfl⟩⟩
      · apply (ensures_send_writes actor columnBytes numColumns numRows).bind
        rintro ⟨result, after⟩
        apply Ensures.pure
        intro history outcome
        refine ⟨result, rfl, outcome, ?_⟩
        intro idle
        rw [state] at idle
        cases idle
  exact ensures.of_start rfl ran

/-- A finish puts the empty block of an open INSERT on the wire, or it writes nothing and is
answered with an error. -/
theorem handle_finish_cases {reply : Reply}
    (ran : (actor.handle .finishInsert).run events = .done (reply, after) []) :
    (actor.state = .insertActive ∧ written events = [.emptyBlock]) ∨
      (written events = [] ∧ ∃ error, reply = .answered (.error error)) := by
  have ensures : Ensures record (written · = []) (actor.handle .finishInsert) (fun _ => True)
      fun result history => (actor.state = .insertActive ∧ written history = [.emptyBlock]) ∨
        (written history = [] ∧ ∃ error, result.1 = .answered (.error error)) := by
    unfold handle
    split
    · rename_i rejected
      simp [ConnectionCmd.continuesInsert] at rejected
    · split <;> rename_i state same <;> cases same
      · apply Ensures.pure
        intro history nothing
        exact .inr ⟨nothing, _, rfl⟩
      · have finishes : Ensures record (written · = []) actor.doFinishInsert (fun _ => True)
            fun result history => written history = [.emptyBlock] ∨
              (written history = [] ∧ ∃ error, result.1 = .error error) := by
          apply (ensures_writes_cases _).bind
          intro result
          cases result with
          | error error =>
              apply Ensures.pure
              rintro history (⟨⟨⟩, _⟩ | ⟨_, nothing⟩)
              exact .inr ⟨nothing, error, rfl⟩
          | ok value =>
              apply (ensures_drain_silent actor).consequence
              · rintro history (⟨_, wrote⟩ | ⟨⟨_, ⟨⟩⟩, _⟩)
                exact wrote
              · intro result history same
                exact .inl same
        apply finishes.bind
        rintro ⟨result, after⟩
        apply Ensures.pure
        rintro history (wrote | ⟨nothing, error, failed⟩)
        · exact .inl ⟨state, wrote⟩
        · exact .inr ⟨nothing, error, congrArg Reply.answered failed⟩
  exact ensures.of_start rfl ran

/-- Only an open INSERT is finished, with the empty block on the wire. -/
theorem handle_finish
    (ran : (actor.handle .finishInsert).run events = .done (.answered (.ok ()), after) []) :
    actor.state = .insertActive ∧ written events = [.emptyBlock] := by
  apply (handle_finish_cases ran).resolve_right
  rintro ⟨_, error, ⟨⟩⟩

end Actor

end DfeClickhouse.Tcp

import DfeClickhouse.Tcp.Actor

/-!
# Writes and the state of an INSERT

Over whole runs of commands: nothing is written after a broken write, and an INSERT is
open exactly between its begin and what ends it.
-/

namespace DfeClickhouse.Tcp

open Library Script

namespace Event

/-- Whether the event is the outcome of a write. -/
def isWrite : Event → Bool
  | .wrote _ | .writeFailed .. => true
  | _ => false

/-- Whether the event is a write that failed. -/
def isBrokenWrite : Event → Bool
  | .writeFailed .. => true
  | _ => false

/-- Whether the event ends an INSERT: an Exception of the server, a reader that failed or
is gone, or a broken write. -/
def endsInsert : Event → Bool
  | .received (.packet (.exception _)) | .received (.error _) | .closed | .writeFailed .. => true
  | _ => false

end Event

/-- No event of a kind has happened. -/
def Free (kind : Event → Bool) (history : List Event) : Prop :=
  ∀ event ∈ history, kind event = false

theorem free_nil (kind : Event → Bool) : Free kind [] := by
  intro event member
  cases member

theorem Free.append {kind : Event → Bool} {history : List Event} {event : Event}
    (free : Free kind history) (other : kind event = false) : Free kind (history ++ [event]) := by
  intro later member
  rcases List.mem_append.mp member with member | member
  · exact free later member
  · rw [List.mem_singleton.mp member]
    exact other

theorem not_free {kind : Event → Bool} {history : List Event} {event : Event}
    (one : kind event = true) : ¬ Free kind (history ++ [event]) := by
  intro free
  have other := free event (by simp)
  rw [one] at other
  cases other

theorem Free.weaken {kind other : Event → Bool} {history : List Event} (free : Free kind history)
    (implies : ∀ event, other event = true → kind event = true) : Free other history := by
  intro event member
  have quiet := free event member
  cases found : other event with
  | false => rfl
  | true => rw [implies event found] at quiet; cases quiet

/-- The flag never goes back. -/
def Actor.Keeps (actor after : Actor) : Prop :=
  after.state = actor.state ∧ (actor.poisoned = true → after.poisoned = true)

namespace Actor

variable {actor : Actor}

theorem keeps_refl (actor : Actor) : actor.Keeps actor :=
  ⟨rfl, id⟩

theorem keeps_poison (actor : Actor) : actor.Keeps actor.poison :=
  ⟨rfl, fun _ => rfl⟩

/-! ## Awaits -/

theorem ensures_write (packet : ClientPacket) :
    Ensures record (Free Event.isBrokenWrite) (write packet) (fun _ => True)
      fun result history => result = .ok () → Free Event.isBrokenWrite history := by
  apply Ensures.await fun _ _ => trivial
  rintro history event _ result free rfl taken rfl
  cases event with
  | wrote written => exact free.append rfl
  | writeFailed written error =>
      dsimp only at taken
      split at taken <;> cases taken
  | _ => cases taken

theorem ensures_issueQuery (query : Query) :
    Ensures record (Free Event.isBrokenWrite) (issueQuery query) (fun _ => True)
      fun result history => result = .ok () → Free Event.isBrokenWrite history := by
  apply (ensures_write _).bind
  intro result
  cases result with
  | error error =>
      apply Ensures.pure
      rintro _ _ ⟨⟩
  | ok value =>
      apply (ensures_write _).strengthen
      intro history free
      exact free rfl

/-- A loop takes no write, and stops with what each of its stops yields. -/
theorem ensures_loop {σ α : Type} {on : σ → Event → Option (Verdict σ α)} {inv : σ → Prop}
    {good : α → Prop}
    (each : ∀ state event verdict, inv state → on state event = some verdict →
      event.isBrokenWrite = false ∧ verdict.Meets inv good) {state : σ} (start : inv state) :
    Ensures record (Free Event.isBrokenWrite) (loop on state) (fun _ => True)
      fun value history => Free Event.isBrokenWrite history ∧ good value := by
  have loops : Ensures record (fun history => Free Event.isBrokenWrite history ∧ inv state)
      (loop on state) (fun _ => True)
      fun value history => Free Event.isBrokenWrite history ∧ good value := by
    apply @Ensures.loop _ _ _ _ _ _ on fun state history =>
      Free Event.isBrokenWrite history ∧ inv state
    · intro _ _ _
      trivial
    · rintro state history event _ verdict ⟨free, held⟩ rfl taken
      obtain ⟨quiet, next⟩ := each state event verdict held taken
      cases verdict with
      | again later => exact ⟨free.append quiet, next⟩
      | stop value => exact ⟨free.append quiet, next⟩
  apply loops.strengthen
  intro history free
  exact ⟨free, start⟩

/-! ## Commands that leave the state alone -/

/-- What a computation does to the actor: the flag stays set, and a broken write sets
it. -/
def Breaks (actor after : Actor) (history : List Event) : Prop :=
  actor.Keeps after ∧ (after.poisoned = true ∨ Free Event.isBrokenWrite history)

theorem breaks_poison (actor : Actor) (history : List Event) : actor.Breaks actor.poison history :=
  ⟨keeps_poison actor, .inl rfl⟩

theorem onIdle_meets {σ α : Type} {state : σ} {timedOut : Error → Actor → α} {going : σ → Prop}
    {stopped : α → Prop} (goes : going state) (stops : stopped (timedOut .timedOut actor.poison)) :
    (actor.onIdle state timedOut).Meets going stopped := by
  unfold onIdle
  split
  · exact stops
  · exact goes

theorem ensures_drain (actor : Actor) :
    Ensures record (Free Event.isBrokenWrite) actor.drainToEndOfStream (fun _ => True)
      fun result history => Free Event.isBrokenWrite history ∧ actor.Keeps result.2 := by
  apply @ensures_loop _ _ _ (fun _ => True) _ _ _ trivial
  intro state event verdict _ taken
  unfold drainOn at taken
  split at taken <;> cases taken
  all_goals first
    | exact ⟨rfl, keeps_refl actor⟩
    | exact ⟨rfl, keeps_poison actor⟩
    | exact ⟨rfl, trivial⟩

theorem ensures_cancelAndDrain (actor : Actor) :
    Ensures record (Free Event.isBrokenWrite) actor.cancelAndDrain (fun _ => True)
      fun after history => actor.Breaks after history := by
  apply (ensures_write _).bind
  intro result
  cases result with
  | error error =>
      apply Ensures.pure
      intro history _
      exact breaks_poison actor history
  | ok value =>
      apply Ensures.bind
      · apply (ensures_drain actor).strengthen
        intro history free
        exact free rfl
      · intro result
        apply Ensures.pure
        rintro history ⟨free, keeps⟩
        exact ⟨keeps, .inr free⟩

theorem ensures_doPing (actor : Actor) :
    Ensures record (Free Event.isBrokenWrite) actor.doPing (fun _ => True)
      fun result history => actor.Breaks result.2 history := by
  apply (ensures_write _).bind
  intro result
  cases result with
  | error error =>
      apply Ensures.pure
      intro history _
      exact breaks_poison actor history
  | ok value =>
      have loops : Ensures record (Free Event.isBrokenWrite) (loop actor.pingOn ())
          (fun _ => True) fun result history =>
            Free Event.isBrokenWrite history ∧ actor.Keeps result.2 := by
        apply @ensures_loop _ _ _ (fun _ => True) _ _ _ trivial
        intro state event verdict _ taken
        unfold pingOn at taken
        split at taken <;> cases taken
        all_goals first
          | exact ⟨rfl, keeps_refl actor⟩
          | exact ⟨rfl, keeps_poison actor⟩
          | exact ⟨rfl, trivial⟩
          | exact ⟨rfl, onIdle_meets trivial (keeps_poison actor)⟩
      apply loops.consequence
      · intro history free
        exact free rfl
      · intro result history post
        exact ⟨post.2, .inr post.1⟩

theorem ensures_doExecuteQuery (actor : Actor) (query : Query) :
    Ensures record (Free Event.isBrokenWrite) (actor.doExecuteQuery query) (fun _ => True)
      fun result history => actor.Breaks result.2 history := by
  apply (ensures_issueQuery _).bind
  intro result
  cases result with
  | error error =>
      apply Ensures.pure
      intro history _
      exact breaks_poison actor history
  | ok value =>
      have loops : Ensures record (Free Event.isBrokenWrite) (loop actor.queryOn ())
          (fun _ => True) fun ended history => Free Event.isBrokenWrite history ∧
            ∀ reply after, ended = .replied reply after → actor.Keeps after := by
        apply @ensures_loop _ _ _ (fun _ => True) _ _ _ trivial
        intro state event verdict _ taken
        unfold queryOn at taken
        split at taken <;> cases taken
        all_goals first
          | exact ⟨rfl, trivial⟩
          | refine ⟨rfl, ?_⟩
            rintro _ _ ⟨⟩
            done
          | refine ⟨rfl, ?_⟩
            rintro _ _ ⟨⟩
            first | exact keeps_refl actor | exact keeps_poison actor
          | refine ⟨rfl, onIdle_meets trivial ?_⟩
            rintro _ _ ⟨⟩
            exact keeps_poison actor
      apply Ensures.bind
      · apply loops.strengthen
        intro history free
        exact free rfl
      · intro ended
        cases ended with
        | replied reply after =>
            apply Ensures.pure
            rintro history ⟨free, keeps⟩
            exact ⟨keeps reply after rfl, .inr free⟩
        | callerGone =>
            apply Ensures.bind
            · apply (ensures_cancelAndDrain actor).strengthen
              intro history post
              exact post.1
            · intro after
              apply Ensures.pure
              intro history post
              exact post

theorem ensures_doBeginInsert (actor : Actor) (query : Query) :
    Ensures record (Free Event.isBrokenWrite) (actor.doBeginInsert query) (fun _ => True)
      fun result history => actor.Breaks result.2 history ∧
        (∀ columns, result.1 = .ok columns → Free Event.isBrokenWrite history) := by
  apply (ensures_issueQuery _).bind
  intro result
  cases result with
  | error error =>
      apply Ensures.pure
      intro history _
      refine ⟨breaks_poison actor history, ?_⟩
      rintro columns ⟨⟩
  | ok value =>
      have loops : Ensures record (Free Event.isBrokenWrite) (loop actor.beginOn ())
          (fun _ => True) fun result history => Free Event.isBrokenWrite history ∧
            actor.Keeps result.2 := by
        apply @ensures_loop _ _ _ (fun _ => True) _ _ _ trivial
        intro state event verdict _ taken
        unfold beginOn at taken
        split at taken <;> cases taken
        all_goals first
          | exact ⟨rfl, keeps_refl actor⟩
          | exact ⟨rfl, keeps_poison actor⟩
          | exact ⟨rfl, trivial⟩
          | exact ⟨rfl, onIdle_meets trivial (keeps_poison actor)⟩
      apply loops.consequence
      · intro history free
        exact free rfl
      · intro result history post
        exact ⟨⟨post.2, .inr post.1⟩, fun _ _ => post.1⟩

/-- The actor a last frame leaves behind is the one it was sent by. -/
def Streaming.KeepsLast (actor : Actor) (streaming : Streaming) : Prop :=
  ∀ frame after, streaming.sending = some (.last frame after) → actor.Keeps after

theorem keepsLast_lastFrame {streaming : Streaming} {frame : Frame} {after : Actor}
    (keeps : actor.Keeps after) {good : StreamEnd → Prop} :
    (lastFrame streaming frame after).Meets (Streaming.KeepsLast actor) good := by
  rintro _ _ ⟨⟩
  exact keeps

theorem streamOn_meets {streaming : Streaming} {event : Event}
    {verdict : Verdict Streaming StreamEnd} (held : Streaming.KeepsLast actor streaming)
    (taken : actor.streamOn streaming event = some verdict) :
    event.isBrokenWrite = false ∧ verdict.Meets (Streaming.KeepsLast actor) fun ended =>
      ∀ frames after, ended = .over frames after → actor.Keeps after := by
  unfold streamOn at taken
  split at taken
  · unfold forwardOn at taken
    split at taken <;> cases taken
    all_goals
      refine ⟨rfl, ?_⟩
      rintro _ _ ⟨⟩
  · rename_i frame after sending
    unfold lastOn at taken
    split at taken <;> cases taken
    all_goals
      refine ⟨rfl, ?_⟩
      rintro _ _ ⟨⟩
      exact held frame after sending
  · rename_i sending
    unfold packetOn at taken
    split at taken
    case h_2 =>
      cases taken
      refine ⟨rfl, ?_⟩
      split
      · exact keepsLast_lastFrame (keeps_poison actor)
      · exact held
    all_goals cases taken
    all_goals first
      | exact ⟨rfl, held⟩
      | exact ⟨rfl, keepsLast_lastFrame (keeps_refl actor)⟩
      | exact ⟨rfl, keepsLast_lastFrame (keeps_poison actor)⟩
      | refine ⟨rfl, ?_⟩
        rintro _ _ ⟨⟩

theorem ensures_sendFrame {kind : Event → Bool} (sent : kind .sent = false)
    (gone : kind .callerGone = false) :
    Ensures record (Free kind) sendFrame (Free kind) fun _ history => Free kind history := by
  apply Ensures.await fun _ free => free
  rintro history event _ taken free rfl resolved
  cases event with
  | sent => exact free.append sent
  | callerGone => exact free.append gone
  | _ => cases resolved

theorem ensures_doExecuteStream (actor : Actor) (query : Query) :
    Ensures record (Free Event.isBrokenWrite) (actor.doExecuteStream query) (fun _ => True)
      fun result history => actor.Breaks result.2 history := by
  apply (ensures_issueQuery _).bind
  intro result
  cases result with
  | error error =>
      apply @Ensures.bind _ _ _ _ _ _ _ _ _ fun _ _ => True
      · apply Ensures.await
        · intro _ _
          trivial
        · intro _ _ _ _ _ _ _
          trivial
      · intro taken
        apply Ensures.pure
        intro history _
        exact breaks_poison actor history
  | ok value =>
      have loops : Ensures record (Free Event.isBrokenWrite) (loop actor.streamOn {})
          (fun _ => True) fun ended history => Free Event.isBrokenWrite history ∧
            ∀ frames after, ended = .over frames after → actor.Keeps after := by
        apply ensures_loop fun _ _ _ => streamOn_meets
        rintro _ _ ⟨⟩
      apply Ensures.bind
      · apply loops.strengthen
        intro history free
        exact free rfl
      · intro ended
        cases ended with
        | «over» frames after =>
            apply Ensures.pure
            rintro history ⟨free, keeps⟩
            exact ⟨keeps frames after rfl, .inr free⟩
        | callerGone frames =>
            apply Ensures.bind
            · apply (ensures_cancelAndDrain actor).strengthen
              intro history post
              exact post.1
            · intro after
              apply Ensures.pure
              intro history post
              exact post

/-! ## Commands of an INSERT -/

/-- What sending a block does: the INSERT stays open where nothing has ended it, and is
over where something has. -/
def Continues (actor after : Actor) (history : List Event) : Prop :=
  (actor.poisoned = true → after.poisoned = true) ∧
    (after.state = actor.state ∧ Free Event.endsInsert history ∨
      after.state = .idle ∧ ¬ Free Event.endsInsert history ∧
        (after.poisoned = true ∨ Free Event.isBrokenWrite history))

/-- What is queued ends the INSERT with an error, or not at all. -/
theorem ensures_queued (actor : Actor) :
    Ensures record (Free Event.endsInsert) (loop actor.queuedOn ()) (fun _ => True)
      fun queued history =>
        match queued with
        | some (_, after) => actor.Continues after history
        | none => Free Event.endsInsert history := by
  apply @Ensures.loop _ _ _ _ _ _ actor.queuedOn fun _ history => Free Event.endsInsert history
  · intro _ _ _
    trivial
  · rintro state history event _ verdict free rfl taken
    have unbroken : Free Event.isBrokenWrite history := by
      apply free.weaken
      intro event broken
      cases event <;> first | rfl | cases broken
    unfold queuedOn at taken
    split at taken <;> cases taken
    · exact ⟨id, .inr ⟨rfl, not_free rfl, .inr (unbroken.append rfl)⟩⟩
    · rename_i packet other
      apply free.append
      cases packet <;> first | rfl | exact absurd rfl (other _)
    · exact ⟨fun _ => rfl, .inr ⟨rfl, not_free rfl, .inl rfl⟩⟩
    · exact free.append rfl
    · exact ⟨fun _ => rfl, .inr ⟨rfl, not_free rfl, .inl rfl⟩⟩

/-- Writing a block ends the INSERT exactly when it fails. -/
theorem ensures_wroteBlock (columnBytes : Bytes) (numColumns numRows : Nat) :
    Ensures record (Free Event.endsInsert) (write (.dataBlock columnBytes numColumns numRows))
      (fun _ => True) fun result history =>
        match result with
        | .ok () => Free Event.endsInsert history
        | .error _ => ¬ Free Event.endsInsert history := by
  apply Ensures.await fun _ _ => trivial
  rintro history event _ result free rfl taken
  cases event with
  | wrote written =>
      dsimp only at taken
      split at taken <;> cases taken
      exact free.append rfl
  | writeFailed written error =>
      dsimp only at taken
      split at taken <;> cases taken
      exact not_free rfl
  | _ => cases taken

theorem ensures_doSendInsertBlock (actor : Actor) (columnBytes : Bytes)
    (numColumns numRows : Nat) :
    Ensures record (Free Event.endsInsert) (actor.doSendInsertBlock columnBytes numColumns numRows)
      (fun _ => True) fun result history => actor.Continues result.2 history := by
  unfold doSendInsertBlock
  split
  · apply Ensures.pure
    intro history free
    exact ⟨id, .inl ⟨rfl, free⟩⟩
  · apply Ensures.bind (ensures_queued actor)
    intro queued
    cases queued with
    | some failure =>
        apply Ensures.pure
        intro history post
        exact post
    | none =>
        apply Ensures.bind (ensures_wroteBlock columnBytes numColumns numRows)
        intro result
        cases result with
        | error error =>
            apply Ensures.pure
            intro history ended
            exact ⟨fun _ => rfl, .inr ⟨rfl, ended, .inl rfl⟩⟩
        | ok value =>
            apply Ensures.pure
            intro history free
            exact ⟨id, .inl ⟨rfl, free⟩⟩

theorem ensures_doFinishInsert (actor : Actor) :
    Ensures record (Free Event.isBrokenWrite) actor.doFinishInsert (fun _ => True)
      fun result history => actor.Breaks result.2 history := by
  apply (ensures_write _).bind
  intro result
  cases result with
  | error error =>
      apply Ensures.pure
      intro history _
      exact breaks_poison actor history
  | ok value =>
      apply (ensures_drain actor).consequence
      · intro history free
        exact free rfl
      · intro result history post
        exact ⟨post.2, .inr post.1⟩

end Actor

/-! ## One command -/

/-- A BeginInsert that succeeds. -/
def Opens (cmd : ConnectionCmd) (reply : Reply) : Prop :=
  ∃ query columns, cmd = .beginInsert query ∧ reply = .opened (.ok columns)

/-- A FinishInsert, or a block that meets an Exception, a reader failure or a broken
write. -/
def Ends (cmd : ConnectionCmd) (events : List Event) : Prop :=
  cmd = .finishInsert ∨
    (∃ columnBytes numColumns numRows, cmd = .sendInsertBlock columnBytes numColumns numRows) ∧
      ¬ Free Event.endsInsert events

/-- Whether a command is out of state or rejected as poisoned. -/
def Actor.refuses (actor : Actor) (cmd : ConnectionCmd) : Bool :=
  actor.poisoned && !cmd.continuesInsert || cmd.continuesInsert != (actor.state == .insertActive)

/-- What a command does to the actor. -/
structure Advances (actor : Actor) (cmd : ConnectionCmd) (reply : Reply) (after : Actor)
    (events : List Event) : Prop where
  flag : actor.poisoned = true → after.poisoned = true
  unbroken : Free Event.isBrokenWrite events ∨ after.poisoned = true ∧ after.state = .idle
  state : after.state = .insertActive ↔
    Opens cmd reply ∨ actor.state = .insertActive ∧ ¬ Ends cmd events

namespace Actor

variable {actor : Actor} {cmd : ConnectionCmd}

/-- What comes of a refusal: nothing on the socket, and the actor as it was. -/
def Untouched (actor : Actor) (result : Reply × Actor) (history : List Event) : Prop :=
  Free Event.isWrite history ∧ result.2 = actor ∧ ∀ columns, result.1 ≠ .opened (.ok columns)

theorem ensures_refuse {kind : Event → Bool} (sent : kind .sent = false)
    (gone : kind .callerGone = false) (cmd : ConnectionCmd) (error : Error) :
    Ensures record (Free kind)
      (do let reply ← cmd.refuse error; return (reply, actor)) (Free kind)
      fun result history => Free kind history ∧ result.2 = actor ∧
        ∀ columns, result.1 ≠ .opened (.ok columns) := by
  have refuses : Ensures record (Free kind) (cmd.refuse error) (Free kind)
      fun reply history => Free kind history ∧ ∀ columns, reply ≠ .opened (.ok columns) := by
    cases cmd with
    | executeStream query =>
        apply (ensures_sendFrame sent gone).bind
        intro taken
        apply Ensures.pure
        intro history free
        exact ⟨free, nofun⟩
    | _ =>
        apply Ensures.pure
        intro history free
        exact ⟨free, nofun⟩
  apply refuses.bind
  intro reply
  apply Ensures.pure
  intro history ⟨free, unopened⟩
  exact ⟨free, rfl, unopened⟩

/-- A refused command takes no event but the fate of the frame it is answered with. -/
theorem ensures_refused_free {kind : Event → Bool} (sent : kind .sent = false)
    (gone : kind .callerGone = false) (refused : actor.refuses cmd = true) :
    Ensures record (Free kind) (actor.handle cmd) (Free kind)
      fun result history => Free kind history ∧ result.2 = actor ∧
        ∀ columns, result.1 ≠ .opened (.ok columns) := by
  unfold handle
  split
  · exact ensures_refuse sent gone cmd _
  · rename_i unpoisoned
    unfold refuses at refused
    rw [Bool.eq_false_iff.mpr unpoisoned, Bool.false_or] at refused
    split
    all_goals first
      | exact ensures_refuse sent gone _ _
      | rename_i state
        rw [state] at refused
        cases refused

theorem ensures_refused (refused : actor.refuses cmd = true) :
    Ensures record (Free Event.isWrite) (actor.handle cmd) (Free Event.isWrite)
      actor.Untouched :=
  ensures_refused_free rfl rfl refused

theorem Untouched.advances {reply : Reply} {after : Actor} {events : List Event}
    (untouched : actor.Untouched (reply, after) events)
    (idle : actor.state = .insertActive → cmd.continuesInsert = false) :
    Advances actor cmd reply after events := by
  obtain ⟨free, rfl, unopened⟩ := untouched
  constructor
  · exact id
  · left
    apply free.weaken
    intro event broken
    cases event <;> first | rfl | cases broken
  · constructor
    · intro active
      refine .inr ⟨active, ?_⟩
      rintro (rfl | ⟨⟨_, _, _, rfl⟩, _⟩)
      · cases idle active
      · cases idle active
    · rintro (⟨_, columns, _, opened⟩ | ⟨active, _⟩)
      · exact absurd opened (unopened columns)
      · exact active

/-- A command that leaves the state alone. -/
theorem Breaks.advances {reply : Reply} {after : Actor} {events : List Event}
    (breaks : actor.Breaks after events) (idle : actor.state = .idle)
    (unopened : ¬ Opens cmd reply) : Advances actor cmd reply after events := by
  obtain ⟨⟨state, flag⟩, unbroken⟩ := breaks
  constructor
  · exact flag
  · rcases unbroken with poisoned | free
    · exact .inr ⟨poisoned, state.trans idle⟩
    · exact .inl free
  · rw [state, idle]
    simp [unopened]

theorem ensures_begin (query : Query) (idle : actor.state = .idle) :
    Ensures record (Free Event.isBrokenWrite)
      (do
        let (result, actor) ← actor.doBeginInsert query
        match result with
        | .ok columns => return (.opened (.ok columns), { actor with state := .insertActive })
        | .error error => return (.opened (.error error), actor))
      (fun _ => True) fun result history =>
        Advances actor (.beginInsert query) result.1 result.2 history := by
  apply (ensures_doBeginInsert actor query).bind
  rintro ⟨result, after⟩
  cases result with
  | ok columns =>
      apply Ensures.pure
      intro history ⟨breaks, free⟩
      constructor
      · exact breaks.1.2
      · exact .inl (free columns rfl)
      · simp [Opens]
  | error error =>
      apply Ensures.pure
      intro history ⟨breaks, free⟩
      apply breaks.advances idle
      rintro ⟨_, _, _, ⟨⟩⟩

theorem ensures_send (columnBytes : Bytes) (numColumns numRows : Nat)
    (active : actor.state = .insertActive) :
    Ensures record (Free Event.endsInsert)
      (do
        let (result, actor) ← actor.doSendInsertBlock columnBytes numColumns numRows
        return (.answered result, actor))
      (fun _ => True) fun result history =>
        Advances actor (.sendInsertBlock columnBytes numColumns numRows) result.1 result.2
          history := by
  apply (ensures_doSendInsertBlock actor columnBytes numColumns numRows).bind
  rintro ⟨result, after⟩
  apply Ensures.pure
  rintro history ⟨flag, ⟨state, free⟩ | ⟨state, ended, unbroken⟩⟩
  · constructor
    · exact flag
    · left
      apply free.weaken
      intro event broken
      cases event <;> first | rfl | cases broken
    · dsimp only at state
      simp [Opens, Ends, state, active, free]
  · constructor
    · exact flag
    · rcases unbroken with poisoned | free
      · exact .inr ⟨poisoned, state⟩
      · exact .inl free
    · dsimp only at state
      simp [Opens, Ends, state, ended]

theorem ensures_finish :
    Ensures record (Free Event.isBrokenWrite)
      (do
        let (result, actor) ← actor.doFinishInsert
        return (.answered result, { actor with state := .idle }))
      (fun _ => True) fun result history =>
        Advances actor .finishInsert result.1 result.2 history := by
  apply (ensures_doFinishInsert actor).bind
  rintro ⟨result, after⟩
  apply Ensures.pure
  rintro history ⟨⟨_, flag⟩, unbroken⟩
  constructor
  · exact flag
  · rcases unbroken with poisoned | free
    · exact .inr ⟨poisoned, rfl⟩
    · exact .inl free
  · simp [Opens, Ends]

/-- Nothing has happened when a command starts. -/
theorem ensures_fresh {kind : Event → Bool} {program : ActorScript (Reply × Actor)}
    {post : Reply × Actor → List Event → Prop}
    (ensures : Ensures record (Free kind) program (fun _ => True) post) :
    Ensures record (· = []) program (fun _ => True) post := by
  apply ensures.strengthen
  rintro _ rfl
  exact free_nil kind

theorem ensures_handle (actor : Actor) (cmd : ConnectionCmd) :
    Ensures record (· = []) (actor.handle cmd) (fun _ => True) fun result history =>
      Advances actor cmd result.1 result.2 history := by
  by_cases refused : actor.refuses cmd = true
  · apply @ensures_fresh Event.isWrite
    apply ((ensures_refused refused).waiting fun _ _ => trivial).consequence
    · intro history free
      exact free
    · intro result history untouched
      apply untouched.advances
      intro active
      unfold refuses at refused
      rw [active] at refused
      revert refused
      cases cmd.continuesInsert <;> simp
  · unfold refuses at refused
    rw [Bool.or_eq_true, not_or] at refused
    unfold handle
    rw [if_neg refused.1]
    have inState := refused.2
    split
    all_goals rename_i state
    all_goals rw [state] at inState
    case h_7 =>
      apply ensures_fresh
      apply (ensures_doPing actor).bind
      intro result
      apply Ensures.pure
      intro history breaks
      apply breaks.advances state
      rintro ⟨_, _, ⟨⟩, _⟩
    case h_8 query =>
      apply ensures_fresh
      apply (ensures_doExecuteQuery actor query).bind
      intro result
      apply Ensures.pure
      intro history breaks
      apply breaks.advances state
      rintro ⟨_, _, ⟨⟩, _⟩
    case h_9 query => exact ensures_fresh (ensures_begin query state)
    case h_10 columnBytes numColumns numRows =>
      exact ensures_fresh (ensures_send columnBytes numColumns numRows state)
    case h_11 => exact ensures_fresh ensures_finish
    case h_12 query =>
      apply ensures_fresh
      apply (ensures_doExecuteStream actor query).bind
      intro result
      apply Ensures.pure
      intro history breaks
      apply breaks.advances state
      rintro ⟨_, _, ⟨⟩, _⟩
    all_goals exact absurd rfl inState

end Actor

/-! ## Runs of commands -/

/-- What happens to an actor between its start and its end. -/
inductive Entry
  /-- The handle or the reader sets the flag.  The actor reads it only when a command
  starts, so this stands between commands. -/
  | poisoned
  | handled (cmd : ConnectionCmd) (events : List Event) (reply : Reply)

def Actor.Step (actor : Actor) (entry : Entry) (after : Actor) : Prop :=
  match entry with
  | .poisoned => after = actor.poison
  | .handled cmd events reply => (actor.handle cmd).run events = .done (reply, after) []

namespace Entry

/-- A write of the command was broken. -/
def Broke : Entry → Prop
  | .poisoned => False
  | .handled _ events _ => ¬ Free Event.isBrokenWrite events

def Opens : Entry → Prop
  | .poisoned => False
  | .handled cmd _ reply => Tcp.Opens cmd reply

def Ends : Entry → Prop
  | .poisoned => False
  | .handled cmd events _ => Tcp.Ends cmd events

end Entry

/-- An INSERT was opened, and nothing has ended it since. -/
def InsertOpen (entries : List Entry) : Prop :=
  ∃ before opening since, entries = before ++ opening :: since ∧ opening.Opens ∧
    ∀ later ∈ since, ¬ later.Ends

@[simp] theorem insertOpen_append_iff {entries : List Entry} {entry : Entry} :
    InsertOpen (entries ++ [entry]) ↔ entry.Opens ∨ InsertOpen entries ∧ ¬ entry.Ends := by
  constructor
  · rintro ⟨before, opening, since, split, opens, quiet⟩
    rcases List.eq_nil_or_concat since with rfl | ⟨since, last, rfl⟩
    · obtain ⟨-, same⟩ := List.append_inj' split rfl
      cases same
      exact .inl opens
    · rw [List.concat_eq_append] at split quiet
      rw [← List.cons_append, ← List.append_assoc] at split
      obtain ⟨rfl, same⟩ := List.append_inj' split rfl
      cases same
      refine .inr ⟨⟨before, opening, since, rfl, opens, ?_⟩, ?_⟩
      · intro later member
        exact quiet later (List.mem_append_left _ member)
      · exact quiet entry (by simp)
  · rintro (opens | ⟨⟨before, opening, since, rfl, opens, quiet⟩, going⟩)
    · exact ⟨entries, entry, [], rfl, opens, by simp⟩
    · refine ⟨before, opening, since ++ [entry], by simp, opens, ?_⟩
      intro later member
      rcases List.mem_append.mp member with member | member
      · exact quiet later member
      · rw [List.mem_singleton.mp member]
        exact going

/-- What holds between commands, of the entries so far and the actor. -/
structure Between (entries : List Entry) (actor : Actor) : Prop where
  active : actor.state = .insertActive ↔ InsertOpen entries
  broken : (∃ entry ∈ entries, entry.Broke) → actor.poisoned = true ∧ actor.state = .idle

/-- An actor that is poisoned outside of an INSERT refuses every command. -/
theorem Actor.refuses_of_dead {actor : Actor} (poisoned : actor.poisoned = true)
    (idle : actor.state = .idle) (cmd : ConnectionCmd) : actor.refuses cmd = true := by
  unfold refuses
  rw [poisoned, idle]
  cases cmd.continuesInsert <;> rfl

/-- The events a command has taken so far: it has been answered, or still waits. -/
def Actor.Takes (actor : Actor) (cmd : ConnectionCmd) (events : List Event) : Prop :=
  (actor.handle cmd).run events = .waiting ∨
    ∃ reply after, (actor.handle cmd).run events = .done (reply, after) []

theorem Actor.refused_untouched {actor : Actor} {cmd : ConnectionCmd} {events : List Event}
    (refused : actor.refuses cmd = true) :
    (actor.Takes cmd events → Free Event.isWrite events) ∧
      ∀ reply after, (actor.handle cmd).run events = .done (reply, after) [] → after = actor := by
  have ensures := (ensures_refused refused).consequence
    (fun history (fresh : history = []) => fresh ▸ free_nil _) fun _ _ untouched => untouched
  constructor
  · rintro (waits | ⟨reply, after, ran⟩)
    · exact ensures.of_waiting waits
    · exact (ensures.of_done ran).1
  · intro reply after ran
    exact (ensures.of_done ran).2.1

theorem Between.step {entries : List Entry} {actor after : Actor} {entry : Entry}
    (between : Between entries actor) (stepped : actor.Step entry after) :
    Between (entries ++ [entry]) after := by
  cases entry with
  | poisoned =>
      cases stepped
      constructor
      · rw [insertOpen_append_iff, Actor.poison_state, between.active]
        simp [Entry.Opens, Entry.Ends]
      · rintro ⟨entry, member, broke⟩
        rcases List.mem_append.mp member with member | member
        · exact ⟨rfl, (between.broken ⟨entry, member, broke⟩).2⟩
        · rw [List.mem_singleton.mp member] at broke
          cases broke
  | handled cmd events reply =>
      have advances := (Actor.ensures_handle actor cmd).of_done stepped
      constructor
      · rw [advances.state, insertOpen_append_iff, between.active]
        rfl
      · rintro ⟨entry, member, broke⟩
        rcases List.mem_append.mp member with member | member
        · obtain ⟨poisoned, idle⟩ := between.broken ⟨entry, member, broke⟩
          have refused := Actor.refuses_of_dead poisoned idle cmd
          rw [(Actor.refused_untouched refused).2 reply after stepped]
          exact ⟨poisoned, idle⟩
        · rw [List.mem_singleton.mp member] at broke
          rcases advances.unbroken with free | dead
          · exact absurd free broke
          · exact dead

theorem Between.start {actor : Actor} (idle : actor.state = .idle) : Between [] actor := by
  constructor
  · rw [idle]
    constructor
    · intro active
      cases active
    · rintro ⟨before, opening, since, split, _⟩
      cases before <;> cases split
  · rintro ⟨entry, member, _⟩
    cases member

theorem Actor.Step.flag {actor after : Actor} {entry : Entry} (stepped : actor.Step entry after)
    (poisoned : actor.poisoned = true) : after.poisoned = true := by
  cases entry with
  | poisoned =>
      cases stepped
      rfl
  | handled cmd events reply => exact ((ensures_handle actor cmd).of_done stepped).flag poisoned

/-- In every run from a fresh actor, whatever its awaits resolve to: no command writes
after one whose write broke; an INSERT is open exactly from a BeginInsert that succeeds
until what ends it; a refused command writes nothing and leaves the actor as it is; and
the flag stays set. -/
theorem insertState_exact {readTimeout : Option Nat} {entries : List Entry} {actor : Actor}
    (runs : Runs Actor.Step { readTimeout } entries actor) :
    ((∃ entry ∈ entries, entry.Broke) →
      ∀ cmd events, actor.Takes cmd events → Free Event.isWrite events) ∧
    (actor.state = .insertActive ↔ InsertOpen entries) ∧
    (∀ cmd events, actor.refuses cmd = true →
      (actor.Takes cmd events → Free Event.isWrite events) ∧
      ∀ reply after, (actor.handle cmd).run events = .done (reply, after) [] → after = actor) ∧
    ∀ later after, Runs Actor.Step actor later after → actor.poisoned = true →
      after.poisoned = true := by
  have between : Between entries actor := by
    apply @Runs.keeps _ _ Actor.Step Between _ [] entries _ actor (Between.start rfl) runs
    intro history world entry next held stepped
    exact held.step stepped
  refine ⟨?_, between.active, ?_, ?_⟩
  · intro broke cmd events
    obtain ⟨poisoned, idle⟩ := between.broken broke
    exact (Actor.refused_untouched (Actor.refuses_of_dead poisoned idle cmd)).1
  · intro cmd events refused
    exact Actor.refused_untouched refused
  · intro later after runs' poisoned
    apply @Runs.keeps _ _ Actor.Step (fun _ actor => actor.poisoned = true) _ [] later _ after
      poisoned runs'
    intro history world entry next set stepped
    exact stepped.flag set

/-- An INSERT is opened, and the write of its block breaks. -/
def brokenBlock : List Entry :=
  let insert : Query := { queryId := "", query := "INSERT INTO t VALUES" }
  let columns := [("a", "UInt8")]
  [.handled (.beginInsert insert)
    [.wrote (.query insert), .wrote .emptyBlock, .received (.packet (.data 0 columns))]
    (.opened (.ok columns)),
   .handled (.sendInsertBlock [] 1 1) [.empty, .writeFailed (.dataBlock [] 1 1) .timedOut]
    (.answered (.error .timedOut))]

theorem insertState_exact_brokenBlock :
    Runs Actor.Step { readTimeout := none } brokenBlock (Actor.broken {}) ∧
      ∀ cmd events, (Actor.broken {}).Takes cmd events → Free Event.isWrite events := by
  have runs : Runs Actor.Step { readTimeout := none } brokenBlock (Actor.broken {}) :=
    ⟨_, rfl, _, rfl, rfl⟩
  refine ⟨runs, (insertState_exact runs).1 ⟨_, .tail _ (.head _), ?_⟩⟩
  intro free
  cases free (.writeFailed (.dataBlock [] 1 1) .timedOut) (.tail _ (.head _))

end DfeClickhouse.Tcp

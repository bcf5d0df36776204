import DfeClickhouse.Tcp.InsertSession
import DfeClickhouse.Tcp.Retry

/-!
# Statements without rows

A statement is one command of a pooled connection.  It is tried again, on another
connection and after a transient failure of the transport, only for a caller that says it
may be repeated.  However an attempt goes, it puts the statement on its wire at most once.
-/

namespace DfeClickhouse.Tcp

open Library Script

section Attempts

variable {α : Type} {attempt : Nat → Except Error α}

/-- The attempts that are made from `index` on, with so many retries left. -/
def attemptsFrom (attempt : Nat → Except Error α) (index : Nat) : Nat → List Nat
  | 0 => [index]
  | retries + 1 =>
      match attempt index with
      | .ok _ => [index]
      | .error error =>
          if isRetriableTransport error then index :: attemptsFrom attempt (index + 1) retries
          else [index]

/-- The attempts that are made under a policy. -/
def attemptsWith (retry : Option RetryPolicy) (attempt : Nat → Except Error α) : List Nat :=
  match retry with
  | some policy =>
      if 1 < policy.maxAttempts then attemptsFrom attempt 0 (policy.maxAttempts - 1) else [0]
  | none => [0]

/-- How many attempts a policy allows. -/
def allowedAttempts : Option RetryPolicy → Nat
  | some policy => max 1 policy.maxAttempts
  | none => 1

/-- A failure that another attempt may mend. -/
def Transient (result : Except Error α) : Prop :=
  ∃ error, result = .error error ∧ isRetriableTransport error = true

/-- The attempts made end with the one whose result is returned, after transient failures
alone; the last one fails so only where no retry is left. -/
structure EndsAt (attempt : Nat → Except Error α) (allowed last : Nat) (made : List Nat)
    (result : Except Error α) : Prop where
  made : made = List.range (last + 1)
  within : last < allowed
  result : result = attempt last
  before : ∀ index < last, Transient (attempt index)
  spent : Transient (attempt last) → last + 1 = allowed

theorem retryFrom_ends (index retries : Nat) :
    ∃ count ≤ retries, attemptsFrom attempt index retries = List.range' index (count + 1) ∧
      retryFrom attempt index retries = attempt (index + count) ∧
      (∀ earlier < count, Transient (attempt (index + earlier))) ∧
      (Transient (attempt (index + count)) → count = retries) := by
  induction retries generalizing index with
  | zero => exact ⟨0, Nat.le_refl 0, rfl, rfl, by nofun, fun _ => rfl⟩
  | succ retries ih =>
      rw [attemptsFrom, retryFrom]
      cases tried : attempt index with
      | ok value =>
          refine ⟨0, Nat.zero_le _, rfl, tried.symm, by nofun, ?_⟩
          rintro ⟨error, failed, -⟩
          rw [Nat.add_zero, tried] at failed
          cases failed
      | error error =>
          dsimp only
          split
          · rename_i retriable
            obtain ⟨count, fewer, made, result, before, spent⟩ := ih (index + 1)
            have shift : ∀ later, index + 1 + later = index + (later + 1) := by
              intro later
              omega
            rw [shift] at result spent
            refine ⟨count + 1, by omega, ?_, result, ?_, ?_⟩
            · rw [made]
              rfl
            · intro earlier below
              cases earlier with
              | zero => exact ⟨error, tried, retriable⟩
              | succ earlier =>
                  rw [← shift]
                  exact before earlier (by omega)
            · intro transient
              rw [spent transient]
          · rename_i terminal
            refine ⟨0, Nat.zero_le _, rfl, tried.symm, by nofun, ?_⟩
            rintro ⟨other, failed, retriable⟩
            rw [Nat.add_zero, tried] at failed
            cases failed
            exact absurd retriable terminal

theorem single_ends : ∃ last, EndsAt attempt 1 last [0] (attempt 0) :=
  ⟨0, rfl, Nat.one_pos, rfl, by nofun, fun _ => rfl⟩

theorem retryWith_ends (retry : Option RetryPolicy) :
    ∃ last, EndsAt attempt (allowedAttempts retry) last (attemptsWith retry attempt)
      (retryWith retry attempt) := by
  cases retry with
  | none => exact single_ends
  | some policy =>
      unfold attemptsWith retryWith allowedAttempts
      dsimp only
      split
      · obtain ⟨count, within, made, result, before, spent⟩ :=
          @retryFrom_ends α attempt 0 (policy.maxAttempts - 1)
        simp only [Nat.zero_add] at result before spent
        refine ⟨count, made.trans List.range_eq_range'.symm, by omega, result, before, ?_⟩
        intro transient
        have all := spent transient
        omega
      · rw [Nat.max_eq_left (by omega)]
        exact single_ends

end Attempts

namespace Actor

variable {query : Query} {packets : List ClientPacket} {history : List Event}

/-- What a statement may put on the wire: the Query, the block that ends its input, and a
Cancel. -/
def StatementWire (query : Query) (history : List Event) : Prop :=
  written history <+: [.query query, .emptyBlock, .cancel]

/-- An event that leaves a statement running. -/
def passes : Event → Bool
  | .idle => true
  | .received (.packet .endOfStream) | .received (.packet (.exception _)) => false
  | .received (.packet _) => true
  | _ => false

/-- The server has got all of a statement and said nothing yet that ends it. -/
def Running (query : Query) (history : List Event) : Prop :=
  ∃ passed, history = .wrote (.query query) :: .wrote .emptyBlock :: passed ∧
    ∀ event ∈ passed, passes event = true

/-- The server has got all of a statement, and has ended its response to it. -/
def Completed (query : Query) (history : List Event) : Prop :=
  ∃ running, Running query running ∧ history = running ++ [.received (.packet .endOfStream)]

theorem Running.written (running : Running query history) :
    written history = [.query query, .emptyBlock] := by
  obtain ⟨passed, rfl, each⟩ := running
  have silent : Tcp.written passed = [] := by
    apply List.filterMap_eq_nil_iff.mpr
    intro event member
    have passing := each event member
    cases event <;> first | rfl | cases passing
  show ClientPacket.query query :: .emptyBlock :: Tcp.written passed = _
  rw [silent]

theorem Running.append (running : Running query history) {event : Event}
    (passing : passes event = true) : Running query (history ++ [event]) := by
  obtain ⟨passed, rfl, each⟩ := running
  refine ⟨passed ++ [event], rfl, List.forall_mem_append.mpr ⟨each, ?_⟩⟩
  exact List.forall_mem_singleton.mpr passing

theorem Running.wire (running : Running query history) : StatementWire query history := by
  rw [StatementWire, running.written]
  exact ⟨[.cancel], rfl⟩

theorem Completed.wire (completed : Completed query history) : StatementWire query history := by
  obtain ⟨running, holds, rfl⟩ := completed
  rw [StatementWire, written_append_of_not rfl]
  exact holds.wire

/-- A write ends with its packet on the wire, or in an error. -/
def AfterWrite (before : List Event → Prop) (packet : ClientPacket) :
    Except Error Unit → List Event → Prop
  | .ok (), history => ∃ earlier, before earlier ∧ history = earlier ++ [.wrote packet]
  | .error error, history =>
      ∃ earlier, before earlier ∧ history = earlier ++ [.writeFailed packet error]

theorem ensures_write_after (before : List Event → Prop) (packet : ClientPacket) :
    Ensures record before (write packet) before (AfterWrite before packet) := by
  apply Ensures.await fun _ held => held
  rintro history event _ result held rfl taken
  cases event with
  | wrote sent =>
      dsimp only at taken
      split at taken
      · rename_i same
        cases taken
        exact ⟨history, held, by rw [same]⟩
      · cases taken
  | writeFailed sent error =>
      dsimp only at taken
      split at taken
      · rename_i same
        cases taken
        exact ⟨history, held, by rw [same]⟩
      · cases taken
  | _ => cases taken

theorem ensures_issueQuery_wire (query : Query) :
    Ensures record (· = []) (issueQuery query) (StatementWire query) fun result history =>
      (result = .ok () → Running query history) ∧ StatementWire query history := by
  have first : Ensures record (· = []) (write (.query query)) (StatementWire query)
      (AfterWrite (· = []) (.query query)) := by
    apply (ensures_write_after _ _).waiting
    rintro _ rfl
    exact List.nil_prefix
  apply first.bind
  intro result
  cases result with
  | error error =>
      apply Ensures.pure
      rintro _ ⟨_, rfl, rfl⟩
      exact ⟨by nofun, List.nil_prefix⟩
  | ok value =>
      have second : Ensures record (AfterWrite (· = []) (.query query) (.ok ())) (write .emptyBlock)
          (StatementWire query)
          (AfterWrite (AfterWrite (· = []) (.query query) (.ok ())) .emptyBlock) := by
        apply (ensures_write_after _ _).waiting
        rintro _ ⟨_, rfl, rfl⟩
        exact ⟨_, rfl⟩
      apply second.consequence
      · intro _ held
        exact held
      · intro result history after
        cases result with
        | error error =>
            obtain ⟨_, ⟨_, rfl, rfl⟩, rfl⟩ := after
            exact ⟨by nofun, _, rfl⟩
        | ok value =>
            obtain ⟨_, ⟨_, rfl, rfl⟩, rfl⟩ := after
            have running : Running query [.wrote (.query query), .wrote .emptyBlock] :=
              ⟨[], rfl, by nofun⟩
            exact ⟨fun _ => running, running.wire⟩

theorem ensures_drain_wire (actor : Actor) :
    Ensures record (written · = packets) actor.drainToEndOfStream (written · = packets)
      fun _ history => written history = packets := by
  apply @Ensures.loop _ _ _ _ _ _ actor.drainOn fun _ history => written history = packets
  · intro _ _ same
    exact same
  · rintro _ history event _ verdict same rfl taken
    have quiet : event.isWrite = false := by
      unfold drainOn at taken
      split at taken <;> cases taken <;> rfl
    have kept := (written_append_of_not quiet).trans same
    cases verdict <;> exact kept

/-- The caller of a running statement has gone. -/
def Abandoned (query : Query) (history : List Event) : Prop :=
  ∃ running, Running query running ∧ history = running ++ [.callerGone]

theorem Abandoned.written (abandoned : Abandoned query history) :
    written history = [.query query, .emptyBlock] := by
  obtain ⟨running, holds, rfl⟩ := abandoned
  rw [written_append_of_not rfl]
  exact holds.written

theorem ensures_cancel_wire (actor : Actor) (query : Query) :
    Ensures record (Abandoned query) actor.cancelAndDrain (StatementWire query)
      fun _ => StatementWire query := by
  have first : Ensures record (Abandoned query) (write .cancel) (StatementWire query)
      (AfterWrite (Abandoned query) .cancel) := by
    apply (ensures_write_after _ _).waiting
    intro history abandoned
    rw [StatementWire, abandoned.written]
    exact ⟨_, rfl⟩
  apply first.bind
  intro result
  cases result with
  | error error =>
      apply Ensures.pure
      rintro _ ⟨earlier, abandoned, rfl⟩
      have same : Tcp.written (earlier ++ [.writeFailed .cancel error]) = Tcp.written earlier := by
        rw [Tcp.written, List.filterMap_append]
        exact List.append_nil _
      rw [StatementWire, same, abandoned.written]
      exact ⟨_, rfl⟩
  | ok value =>
      have drains := @ensures_drain_wire [.query query, .emptyBlock, .cancel] actor
      have rest : Ensures record (AfterWrite (Abandoned query) .cancel (.ok ()))
          actor.drainToEndOfStream (StatementWire query) fun _ => StatementWire query := by
        apply (drains.waiting _).consequence
        · rintro _ ⟨earlier, abandoned, rfl⟩
          rw [written_append_wrote, abandoned.written]
          rfl
        · intro _ history same
          rw [StatementWire, same]
        · intro history same
          rw [StatementWire, same]
      apply rest.bind
      intro result
      exact Ensures.pure fun _ held => held

/-- What was done when the loop of a statement ends. -/
def LoopEnd (query : Query) : QueryEnd → List Event → Prop
  | .replied result _, history =>
      StatementWire query history ∧ (result = .ok () → Completed query history)
  | .callerGone, history => Abandoned query history

theorem ensures_queryOn_wire (actor : Actor) (query : Query) :
    Ensures record (Running query) (loop actor.queryOn ()) (StatementWire query)
      (LoopEnd query) := by
  apply @Ensures.loop _ _ _ _ _ _ actor.queryOn fun _ => Running query
  · intro _ _ running
    exact running.wire
  · rintro _ history event _ verdict running rfl taken
    have failed : ∀ error actor, event.isWrite = false →
        LoopEnd query (.replied (.error error) actor) (history ++ [event]) := by
      intro error actor quiet
      refine ⟨?_, fun impossible => by cases impossible⟩
      rw [StatementWire, written_append_of_not quiet]
      exact running.wire
    unfold queryOn at taken
    split at taken <;> cases taken
    · exact ⟨history, running, rfl⟩
    · unfold onIdle
      split
      · exact failed _ actor rfl
      · exact running.append rfl
    · have completed : Completed query (history ++ [.received (.packet .endOfStream)]) :=
        ⟨history, running, rfl⟩
      exact ⟨completed.wire, fun _ => completed⟩
    · exact failed _ actor rfl
    · rename_i packet notEnd notException
      apply running.append
      unfold passes
      split <;> simp_all
    · exact failed _ actor rfl
    · exact failed _ actor rfl

theorem ensures_execute_wire (actor : Actor) (query : Query) :
    Ensures record (· = []) (actor.doExecuteQuery query) (StatementWire query)
      fun result history => StatementWire query history ∧
        (result.1 = some (.ok ()) → Completed query history) := by
  apply (ensures_issueQuery_wire query).bind
  intro result
  cases result with
  | error error =>
      apply Ensures.pure
      rintro history ⟨-, wire⟩
      exact ⟨wire, by nofun⟩
  | ok value =>
      refine ((ensures_queryOn_wire actor query).strengthen ?_).bind ?_
      · rintro _ ⟨running, -⟩
        exact running rfl
      · intro ended
        cases ended with
        | replied result after =>
            apply Ensures.pure
            rintro history ⟨wire, completed⟩
            refine ⟨wire, ?_⟩
            rintro ⟨⟩
            exact completed rfl
        | callerGone =>
            apply (ensures_cancel_wire actor query).bind
            intro after
            apply Ensures.pure
            intro history wire
            exact ⟨wire, by nofun⟩

theorem ensures_handle_wire (actor : Actor) (query : Query) :
    Ensures record (· = []) (actor.handle (.executeQuery query)) (StatementWire query)
      fun result history => StatementWire query history ∧
        (result.1 = .answered (.ok ()) → Completed query history) := by
  have refused : ∀ error, Ensures record (· = [])
      (pure (Reply.answered (.error error), actor) : ActorScript (Reply × Actor))
      (StatementWire query) fun result history => StatementWire query history ∧
        (result.1 = .answered (.ok ()) → Completed query history) := by
    intro error
    apply Ensures.pure
    rintro _ rfl
    exact ⟨List.nil_prefix, by nofun⟩
  unfold handle
  split
  · exact refused _
  · split <;> rename_i state same <;> cases same
    · exact refused _
    · apply (ensures_execute_wire actor query).bind
      rintro ⟨result, after⟩
      apply Ensures.pure
      rintro history ⟨wire, completed⟩
      refine ⟨wire, ?_⟩
      intro answered
      apply completed
      cases result with
      | none => cases answered
      | some result => exact congrArg some (Reply.answered.inj answered)

end Actor

/-- A connection as an attempt acquires it for a statement: whether its actor takes
commands, the actor when it starts this one, and the events it takes from then on, up to its
reply or to its own end. -/
structure StatementConnection (query : Query) where
  accepting : Bool
  actor : Actor
  events : List Event
  taken : (actor.handle (.executeQuery query)).Takes events

namespace StatementConnection

variable {query : Query}

/-- Send the command and wait for the reply.  A caller that goes away waits no longer. -/
def executeQuery (conn : StatementConnection query) : Except Error Unit :=
  if conn.accepting then
    match (conn.actor.handle (.executeQuery query)).run conn.events with
    | .done (.answered result, _) _ => result
    | _ => .error (.custom "tcp: connection actor dropped execute_query reply")
  else .error (.custom "tcp: connection actor closed")

/-- The packets the statement puts on the wire. -/
def wire (conn : StatementConnection query) : List ClientPacket :=
  if conn.accepting then written conn.events else []

/-- What an attempt puts on its wire starts with the statement and has it once. -/
theorem wire_start (conn : StatementConnection query) :
    conn.wire <+: [.query query, .emptyBlock, .cancel] := by
  unfold wire
  split
  · have ensures := Actor.ensures_handle_wire conn.actor query
    exact ensures.of_takes (fun _ _ held => held.1) conn.taken
  · exact List.nil_prefix

/-- A statement succeeds where the server has got all of it and has ended its response. -/
theorem completed_of_ok {conn : StatementConnection query}
    (succeeded : conn.executeQuery = .ok ()) :
    Actor.Completed query conn.events ∧ conn.wire = [.query query, .emptyBlock] := by
  unfold executeQuery at succeeded
  split at succeeded
  · rename_i accepting
    split at succeeded
    · rename_i result after rest ran
      subst succeeded
      obtain ⟨waits⟩ | ⟨_, all⟩ := conn.taken
      · rw [ran] at waits
        cases waits
      · rw [ran] at all
        cases all
        have completed := ((Actor.ensures_handle_wire conn.actor query).of_done ran).2 rfl
        refine ⟨completed, ?_⟩
        obtain ⟨running, holds, ended⟩ := completed
        rw [wire, if_pos accepting, ended, written_append_of_not rfl]
        exact holds.written
    · cases succeeded
  · cases succeeded

end StatementConnection

/-- Only a statement that may be repeated is tried again. -/
def effectiveRetry (retry : Option RetryPolicy) (idempotent : Bool) : Option RetryPolicy :=
  if idempotent then retry else none

/-- Acquire a connection and run a statement. -/
def executeQueryViaPool {query : Query} (get : Nat → Except Error (StatementConnection query))
    (retry : Option RetryPolicy) (idempotent : Bool) : Except Error Unit :=
  runWithRetry get (effectiveRetry retry idempotent) fun conn => conn.executeQuery

section Statements

variable {query : Query} (get : Nat → Except Error (StatementConnection query))
  (retry : Option RetryPolicy) (idempotent : Bool)

/-- One attempt of a statement. -/
def attemptVia (index : Nat) : Except Error Unit := do
  let conn ← get index
  conn.executeQuery

/-- The packets of one attempt. -/
def wireOf (index : Nat) : List ClientPacket :=
  match get index with
  | .ok conn => conn.wire
  | .error _ => []

def isQuery : ClientPacket → Bool
  | .query _ => true
  | _ => false

/-- The attempts of a statement. -/
def attemptsMade : List Nat :=
  attemptsWith (effectiveRetry retry idempotent) (attemptVia get)

/-- A statement over a pool: its attempts, what they put on their wires, and what its success
stands for. -/
structure Executed (last : Nat) : Prop where
  ends : EndsAt (attemptVia get) (if idempotent then allowedAttempts retry else 1) last
    (attemptsMade get retry idempotent) (executeQueryViaPool get retry idempotent)
  wire : ∀ index, wireOf get index <+: [.query query, .emptyBlock, .cancel]
  queries : ((attemptsMade get retry idempotent).flatMap (wireOf get)).countP isQuery ≤
    if idempotent then allowedAttempts retry else 1
  completed : executeQueryViaPool get retry idempotent = .ok () →
    ∃ conn, get last = .ok conn ∧ Actor.Completed query conn.events ∧
      conn.wire = [.query query, .emptyBlock]

theorem wireOf_start (index : Nat) : wireOf get index <+: [.query query, .emptyBlock, .cancel] := by
  unfold wireOf
  split
  · exact StatementConnection.wire_start _
  · exact List.nil_prefix

theorem countP_wireOf_le (index : Nat) : (wireOf get index).countP isQuery ≤ 1 :=
  (wireOf_start get index).sublist.countP_le

theorem countP_flatMap_wireOf_le (indices : List Nat) :
    (indices.flatMap (wireOf get)).countP isQuery ≤ indices.length := by
  induction indices with
  | nil => exact Nat.le_refl 0
  | cons index indices ih =>
      rw [List.flatMap_cons, List.countP_append, List.length_cons]
      have one := countP_wireOf_le get index
      omega

/-- A statement is put on a wire at most once an attempt, so at most once in all where it may
not be repeated; each attempt but the last has failed with a transient error; and success is
an EndOfStream that the last connection received after it had sent all of the statement. -/
theorem executeQueryViaPool_executed : ∃ last, Executed get retry idempotent last := by
  have allowed : allowedAttempts (effectiveRetry retry idempotent) =
      if idempotent then allowedAttempts retry else 1 := by
    cases idempotent <;> rfl
  obtain ⟨last, ends⟩ :=
    @retryWith_ends Unit (attemptVia get) (effectiveRetry retry idempotent)
  rw [allowed] at ends
  refine ⟨last, ends, wireOf_start get, ?_, ?_⟩
  · have counted := countP_flatMap_wireOf_le get (attemptsMade get retry idempotent)
    have made : (attemptsMade get retry idempotent).length = last + 1 := by
      rw [attemptsMade, ends.made, List.length_range]
    have within := ends.within
    omega
  · intro succeeded
    have attempted : attemptVia get last = .ok () := ends.result.symm.trans succeeded
    unfold attemptVia at attempted
    cases acquired : get last with
    | error error =>
        rw [acquired] at attempted
        cases attempted
    | ok conn =>
        rw [acquired] at attempted
        exact ⟨conn, rfl, StatementConnection.completed_of_ok attempted⟩

end Statements

/-- A statement whose response the server ends at once. -/
def runningStatement : StatementConnection Actor.selectOne where
  accepting := true
  actor := {}
  events := [.wrote (.query Actor.selectOne), .wrote .emptyBlock, .received (.packet .endOfStream)]
  taken := .inr ⟨_, rfl⟩

def brokenThenRunning (index : Nat) : Except Error (StatementConnection Actor.selectOne) :=
  if index = 0 then .error brokenPipe else .ok runningStatement

/-- A statement that succeeds in its second attempt. -/
theorem executeQueryViaPool_executed_second :
    executeQueryViaPool brokenThenRunning (some { maxAttempts := 2 }) true = .ok () ∧
      ∃ last conn, brokenThenRunning last = .ok conn ∧
        Actor.Completed Actor.selectOne conn.events ∧
        conn.wire = [.query Actor.selectOne, .emptyBlock] := by
  have succeeded : executeQueryViaPool brokenThenRunning (some { maxAttempts := 2 }) true =
      .ok () := rfl
  obtain ⟨last, executed⟩ :=
    executeQueryViaPool_executed brokenThenRunning (some { maxAttempts := 2 }) true
  obtain ⟨conn, acquired, completed⟩ := executed.completed succeeded
  exact ⟨succeeded, last, conn, acquired, completed⟩

end DfeClickhouse.Tcp

import DfeClickhouse.Tcp.Cursor

/-!
# Retries

An operation on a pooled connection is tried again where its error is that of a
transient transport failure.  A streaming SELECT is over as an attempt once its command
is queued, so a failure to issue the query is never tried again.
-/

namespace DfeClickhouse.Tcp

open Library Script

/-- How often an operation is tried, the first time included. -/
structure RetryPolicy where
  maxAttempts : Nat := 3

section Attempts

variable {α : Type}

/-- Try from `index` on, with so many retries left. -/
def retryFrom (attempt : Nat → Except Error α) (index : Nat) : Nat → Except Error α
  | 0 => attempt index
  | retries + 1 =>
      match attempt index with
      | .ok value => .ok value
      | .error error =>
          if isRetriableTransport error then retryFrom attempt (index + 1) retries
          else .error error

/-- Without a policy, or with a single attempt, there is one pass. -/
def retryWith (retry : Option RetryPolicy) (attempt : Nat → Except Error α) : Except Error α :=
  match retry with
  | some policy =>
      if 1 < policy.maxAttempts then retryFrom attempt 0 (policy.maxAttempts - 1)
      else attempt 0
  | none => attempt 0

/-- Failures that are tried again lead to the attempt after them. -/
theorem retryFrom_reaches {attempt : Nat → Except Error α} {start retries count : Nat}
    (fails : ∀ index, start ≤ index → index < start + count →
      ∃ error, attempt index = .error error ∧ isRetriableTransport error = true) :
    retryFrom attempt start (retries + count) = retryFrom attempt (start + count) retries := by
  induction count generalizing start with
  | zero => rfl
  | succ count ih =>
      obtain ⟨error, failed, retriable⟩ := fails start (Nat.le_refl _) (by omega)
      rw [← Nat.add_assoc, retryFrom, failed]
      dsimp only
      rw [if_pos retriable, ih, Nat.add_assoc, Nat.add_comm 1]
      intro index low high
      exact fails index (by omega) (by omega)

/-- The first success is the result. -/
theorem retryFrom_ok {attempt : Nat → Except Error α} {index : Nat} {value : α}
    (succeeds : attempt index = .ok value) (retries : Nat) :
    retryFrom attempt index retries = .ok value := by
  cases retries with
  | zero => exact succeeds
  | succ retries => rw [retryFrom, succeeds]

end Attempts

/-- Acquire a connection and run an operation on it. -/
def runWithRetry {α β : Type} (get : Nat → Except Error α) (retry : Option RetryPolicy)
    (op : α → Except Error β) : Except Error β :=
  retryWith retry fun index => do
    let conn ← get index
    op conn

/-- A connection as it is acquired: whether its actor takes commands, the actor when it
starts the command, and what its awaits meet meanwhile. -/
structure PooledConnection where
  accepting : Bool
  actor : Actor
  events : List Event

/-- A cursor that holds the pool's slot. -/
structure PooledCursor where
  cursor : TcpRawCursor
  poolSlot : PooledConnection

namespace PooledConnection

/-- The channel the actor fills for a streaming SELECT. -/
def results (conn : PooledConnection) (query : Query) : Receiver :=
  match (conn.actor.handle (.executeStream query)).run conn.events with
  | .done (.streamed frames, _) _ => { frames, closed := true }
  | _ => { frames := conn.actor.framesSoFar query conn.events, closed := false }

/-- Open a cursor: queue the command and wrap the receiver. -/
def executeStreamCursor (conn : PooledConnection) (query : Query) : Except Error TcpRawCursor :=
  if conn.accepting then .ok { rx := conn.results query }
  else .error (.custom "tcp: connection actor closed")

end PooledConnection

/-- Acquire a connection and open a streaming SELECT. -/
def executeStreamViaPool (get : Nat → Except Error PooledConnection) (query : Query)
    (retry : Option RetryPolicy) : Except Error PooledCursor :=
  runWithRetry get retry fun conn => do
    let cursor ← conn.executeStreamCursor query
    return { cursor, poolSlot := conn }

namespace PooledConnection

/-- The actor issues the query. -/
def Issues (conn : PooledConnection) (query : Query) : Prop :=
  conn.actor.refuses (.executeStream query) = false ∧
    ∃ rest, (Actor.issueQuery query).run conn.events = .done (.ok ()) rest

/-- The actor finds its connection poisoned, or a write of the query fails.  Its caller
waits for the frame. -/
def FailsToIssue (conn : PooledConnection) (query : Query) (error : Error) : Prop :=
  conn.actor.poisoned = true ∧ conn.events = [.sent] ∧
      error = .transient "tcp: connection is poisoned; command not sent" ∨
    conn.actor.poisoned = false ∧ conn.actor.state = .idle ∧
      (Actor.issueQuery query).run conn.events = .done (.error error) [.sent]

variable {conn : PooledConnection} {query : Query} {error : Error}

/-- The failure is the only frame of the stream. -/
theorem FailsToIssue.results (fails : conn.FailsToIssue query error) :
    conn.results query = { frames := [.error error], closed := true } := by
  unfold PooledConnection.results
  rcases fails with ⟨poisoned, events, rfl⟩ | ⟨unpoisoned, idle, failed⟩
  · unfold Actor.handle
    rw [if_pos (by rw [poisoned]; rfl), events]
    rfl
  · have ran : (conn.actor.doExecuteStream query).run conn.events =
        .done ([.error error], conn.actor.poison) [] := run_bind failed
    unfold Actor.handle
    rw [if_neg (by rw [unpoisoned]; nofun), idle]
    dsimp only
    rw [run_bind ran]
    rfl

theorem FailsToIssue.not_issues (fails : conn.FailsToIssue query error) : ¬ conn.Issues query := by
  rintro ⟨accepted, rest, issued⟩
  rcases fails with ⟨poisoned, -, -⟩ | ⟨-, -, failed⟩
  · rw [Actor.refuses, poisoned] at accepted
    cases accepted
  · rw [failed] at issued
    cases issued

end PooledConnection

/-- A run in which a connection fails before any packet of the response, with an error
that is to be tried again, and a later attempt's connection works. -/
structure IssueFailure (policy : RetryPolicy) (get : Nat → Except Error PooledConnection)
    (query : Query) (conn : PooledConnection) (error : Error) : Prop where
  attempts : 2 ≤ policy.maxAttempts
  retriable : isRetriableTransport error = true
  fails : conn.FailsToIssue query error
  accepting : conn.accepting = true
  reached : ∃ index, get index = .ok conn ∧
    (∀ earlier < index, ∃ cause, get earlier = .error cause ∧ isRetriableTransport cause = true) ∧
    ∃ later working, index < later ∧ later < policy.maxAttempts ∧ get later = .ok working ∧
      working.accepting = true ∧ working.Issues query

/-- The call ends with a cursor over a connection on which the query was issued, and the
error does not surface from it. -/
def Recovers (policy : RetryPolicy) (get : Nat → Except Error PooledConnection) (query : Query)
    (error : Error) : Prop :=
  ∃ held, executeStreamViaPool get query (some policy) = .ok held ∧ held.poolSlot.Issues query ∧
    ∀ after, held.cursor.nextBlock ≠ some (.error error, after)

/-- The call ends with a cursor over the connection that failed, and the first block of
it is the error. -/
theorem executeStreamViaPool_of_issueFailure {policy : RetryPolicy}
    {get : Nat → Except Error PooledConnection} {query : Query} {conn : PooledConnection}
    {error : Error} (failure : IssueFailure policy get query conn error) :
    ∃ held, executeStreamViaPool get query (some policy) = .ok held ∧ held.poolSlot = conn ∧
      ∃ after, held.cursor.nextBlock = some (.error error, after) := by
  obtain ⟨index, acquired, earlier, later, working, before, inPolicy, -⟩ := failure.reached
  refine ⟨⟨{ rx := conn.results query }, conn⟩, ?_, rfl, ?_⟩
  · unfold executeStreamViaPool runWithRetry retryWith
    dsimp only
    obtain ⟨retries, count⟩ : ∃ retries, policy.maxAttempts - 1 = retries + index :=
      ⟨policy.maxAttempts - 1 - index, by omega⟩
    have retried : 1 < policy.maxAttempts := failure.attempts
    rw [if_pos retried, count, retryFrom_reaches]
    · apply retryFrom_ok
      rw [Nat.zero_add, acquired]
      change (do
        let cursor ← conn.executeStreamCursor query
        return (⟨cursor, conn⟩ : PooledCursor)) = _
      rw [PooledConnection.executeStreamCursor, if_pos failure.accepting]
      rfl
    · intro attempt _ below
      obtain ⟨cause, failed, retriable⟩ := earlier attempt (by omega)
      exact ⟨cause, by rw [failed]; rfl, retriable⟩
  · dsimp only
    rw [failure.fails.results]
    exact ⟨_, rfl⟩

/-- The issue failure of a streaming SELECT is never inside the retried region. -/
theorem not_recovers {policy : RetryPolicy} {get : Nat → Except Error PooledConnection}
    {query : Query} {conn : PooledConnection} {error : Error}
    (failure : IssueFailure policy get query conn error) : ¬ Recovers policy get query error := by
  rintro ⟨held, returned, issued, -⟩
  obtain ⟨other, returned', slot, -⟩ := executeStreamViaPool_of_issueFailure failure
  rw [returned] at returned'
  cases returned'
  rw [slot] at issued
  exact failure.fails.not_issues issued

/-- A connection that dies in the pool unnoticed, then one that works. -/
def poisonedThenWorking (index : Nat) : Except Error PooledConnection :=
  if index = 0 then
    .ok { accepting := true, actor := { poisoned := true }, events := [.sent] }
  else
    .ok { accepting := true, actor := {}, events := Actor.selectOneEvents }

theorem not_recovers_poisonedThenWorking :
    ¬ Recovers { maxAttempts := 2 } poisonedThenWorking Actor.selectOne
      (.transient "tcp: connection is poisoned; command not sent") := by
  apply not_recovers
  constructor
  case conn => exact { accepting := true, actor := { poisoned := true }, events := [.sent] }
  · exact Nat.le_refl 2
  · rfl
  · exact .inl ⟨rfl, rfl, rfl⟩
  · rfl
  · refine ⟨0, rfl, by nofun, 1, _, by decide, by decide, rfl, rfl, rfl, _, rfl⟩

/-- The server has closed the connection. -/
def brokenPipe : Error :=
  .other (.io .brokenPipe "Broken pipe (os error 32)")

/-- A write of the query that fails is not tried again on the connection after it. -/
def brokenThenWorking (index : Nat) : Except Error PooledConnection :=
  if index = 0 then
    .ok { accepting := true, actor := {}, events :=
      [.writeFailed (.query Actor.selectOne) brokenPipe, .sent] }
  else
    .ok { accepting := true, actor := {}, events := Actor.selectOneEvents }

theorem recovers_fails_brokenThenWorking :
    ∃ conn, IssueFailure { maxAttempts := 2 } brokenThenWorking Actor.selectOne conn brokenPipe ∧
      ¬ Recovers { maxAttempts := 2 } brokenThenWorking Actor.selectOne brokenPipe := by
  refine ⟨_, ⟨Nat.le_refl 2, rfl, .inr ⟨rfl, rfl, rfl⟩, rfl, 0, rfl, by nofun, 1, _, by decide,
    by decide, rfl, rfl, rfl, _, rfl⟩, ?_⟩
  rintro ⟨held, returned, -, quiet⟩
  cases returned
  exact quiet _ rfl

end DfeClickhouse.Tcp

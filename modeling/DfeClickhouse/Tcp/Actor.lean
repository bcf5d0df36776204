import DfeClickhouse.Library.Script
import DfeClickhouse.Tcp.Packet

/-!
# The connection actor

One task owns the write half of a connection and handles one command at a time.  What
its awaits resolve to is a script: the outcome of each write, the messages of the
reader task in their order, the idle timer and the callers that go away.
-/

namespace DfeClickhouse.Tcp

open Library Native

/-- Whether an INSERT is open between commands. -/
inductive ActorState
  | idle
  | insertActive
  deriving DecidableEq, Repr

/-- What an await of the actor resolves to. -/
inductive Event
  /-- The packet is on the wire. -/
  | wrote (packet : ClientPacket)
  /-- The write fails or outlasts its deadline. -/
  | writeFailed (packet : ClientPacket) (error : Error)
  | received (message : ReaderMessage)
  /-- The reader task is gone and its channel is empty. -/
  | closed
  /-- Nothing is queued right now. -/
  | empty
  /-- The idle timer fires. -/
  | idle
  /-- The caller has dropped its receiver. -/
  | callerGone
  /-- The caller's channel takes a frame. -/
  | sent
  /-- The drain takes longer than its bound. -/
  | drainTimedOut

/-- The actor, with the flag it shares with its handle and its reader. -/
structure Actor where
  state : ActorState := .idle
  poisoned : Bool := false
  /-- The deadline of an operation, if one is configured. -/
  readTimeout : Option Nat := none

/-- A frame of a streamed result. -/
abbrev Frame := Except Error ServerPacket

/-- A computation of the actor. -/
abbrev ActorScript := Script Event

namespace Actor

def poison (actor : Actor) : Actor :=
  { actor with poisoned := true }

@[simp] theorem poison_state (actor : Actor) : actor.poison.state = actor.state := rfl

@[simp] theorem poison_poisoned (actor : Actor) : actor.poison.poisoned = true := rfl

/-- Write one packet. -/
def write (packet : ClientPacket) : ActorScript (Except Error Unit) :=
  Script.await fun event =>
    match event with
    | .wrote written => if written = packet then some (.ok ()) else none
    | .writeFailed written error => if written = packet then some (.error error) else none
    | _ => none

/-- Write the Query packet and the empty block that ends the pre-query phase. -/
def issueQuery (query : Query) : ActorScript (Except Error Unit) := do
  match ← write (.query query) with
  | .error error => return .error error
  | .ok () => write .emptyBlock

/-- Hand a frame to the caller: whether it was taken. -/
def sendFrame : ActorScript Bool :=
  Script.await fun event =>
    match event with
    | .sent => some true
    | .callerGone => some false
    | _ => none

/-- The idle timer is a deadline only where one is configured; otherwise the wait
resumes. -/
def onIdle {σ α : Type} (actor : Actor) (state : σ) (timedOut : Error → Actor → α) :
    Verdict σ α :=
  match actor.readTimeout with
  | some _ => .stop (timedOut .timedOut actor.poison)
  | none => .again state

def pingOn (actor : Actor) (_ : Unit) : Event → Option (Verdict Unit (Except Error Unit × Actor))
  | .idle => some (actor.onIdle () fun error actor => (.error error, actor))
  | .received (.packet .pong) => some (.stop (.ok (), actor))
  | .received (.packet (.exception exc)) => some (.stop (.error exc.intoError, actor))
  | .received (.packet _) => some (.again ())
  | .received (.error error) => some (.stop (.error error, actor.poison))
  | .closed =>
      some (.stop (.error (.custom "tcp: reader sub-task exited mid-ping"), actor.poison))
  | _ => none

/-- Send a Ping and wait for the Pong. -/
def doPing (actor : Actor) : ActorScript (Except Error Unit × Actor) := do
  match ← write .ping with
  | .error error => return (.error error, actor.poison)
  | .ok () => Script.loop actor.pingOn ()

def drainOn (actor : Actor) (_ : Unit) : Event → Option (Verdict Unit (Except Error Unit × Actor))
  | .received (.packet .endOfStream) => some (.stop (.ok (), actor))
  | .received (.packet (.exception exc)) => some (.stop (.error exc.intoError, actor))
  | .received (.packet _) => some (.again ())
  | .received (.error error) => some (.stop (.error error, actor.poison))
  | .closed =>
      some (.stop (.error (.custom "tcp: reader sub-task exited mid-drain"), actor.poison))
  | .drainTimedOut =>
      some (.stop (.error (.custom "tcp: drain to EndOfStream exceeded 30s timeout"),
        actor.poison))
  | _ => none

/-- Drain response packets until the stream ends. -/
def drainToEndOfStream (actor : Actor) : ActorScript (Except Error Unit × Actor) :=
  Script.loop actor.drainOn ()

/-- Send a Cancel and drain. -/
def cancelAndDrain (actor : Actor) : ActorScript Actor := do
  match ← write .cancel with
  | .error _ => return actor.poison
  | .ok () =>
      let (_, actor) ← actor.drainToEndOfStream
      return actor

/-- How the loop of a query ends: with a reply, or without its caller. -/
inductive QueryEnd
  | replied (result : Except Error Unit) (actor : Actor)
  | callerGone

def queryOn (actor : Actor) (_ : Unit) : Event → Option (Verdict Unit QueryEnd)
  | .callerGone => some (.stop .callerGone)
  | .idle => some (actor.onIdle () fun error actor => .replied (.error error) actor)
  | .received (.packet .endOfStream) => some (.stop (.replied (.ok ()) actor))
  | .received (.packet (.exception exc)) =>
      some (.stop (.replied (.error exc.intoError) actor))
  | .received (.packet _) => some (.again ())
  | .received (.error error) => some (.stop (.replied (.error error) actor.poison))
  | .closed =>
      some (.stop (.replied (.error (.custom "tcp: reader sub-task exited mid-query"))
        actor.poison))
  | _ => none

/-- Run a query and drain its response; a caller that goes away cancels it.  Without a
caller there is no reply. -/
def doExecuteQuery (actor : Actor) (query : Query) :
    ActorScript (Option (Except Error Unit) × Actor) := do
  match ← issueQuery query with
  | .error error => return (some (.error error), actor.poison)
  | .ok () =>
      match ← Script.loop actor.queryOn () with
      | .replied result actor => return (some result, actor)
      | .callerGone =>
          let actor ← actor.cancelAndDrain
          return (none, actor)

def beginOn (actor : Actor) (_ : Unit) :
    Event → Option (Verdict Unit (Except Error (List (String × String)) × Actor))
  | .idle => some (actor.onIdle () fun error actor => (.error error, actor))
  | .received (.packet (.data _ columns)) => some (.stop (.ok columns, actor))
  | .received (.packet (.dataBlock block)) =>
      some (.stop (.error (.badResponse ("tcp: server sent payload Data block (num_rows=" ++
        toString block.numRows ++ ") before INSERT schema block")), actor.poison))
  | .received (.packet (.exception exc)) => some (.stop (.error exc.intoError, actor))
  | .received (.packet .endOfStream) =>
      some (.stop (.error (.badResponse ("tcp: server returned EndOfStream before INSERT " ++
        "schema block (was this INSERT ... SELECT?)")), actor))
  | .received (.packet _) => some (.again ())
  | .received (.error error) => some (.stop (.error error, actor.poison))
  | .closed =>
      some (.stop (.error (.custom "tcp: reader sub-task exited mid begin_insert"),
        actor.poison))
  | _ => none

/-- Open an INSERT: the columns of the schema block. -/
def doBeginInsert (actor : Actor) (query : Query) :
    ActorScript (Except Error (List (String × String)) × Actor) := do
  match ← issueQuery query with
  | .error error => return (.error error, actor.poison)
  | .ok () => Script.loop actor.beginOn ()

/-- Cap on one block of an INSERT. -/
def maxInsertBlockBytes : Nat := 512 * 1024 * 1024

/-- Return to `Idle` and poison. -/
def broken (actor : Actor) : Actor :=
  { actor with state := .idle, poisoned := true }

@[simp] theorem broken_state (actor : Actor) : actor.broken.state = .idle := rfl

@[simp] theorem broken_poisoned (actor : Actor) : actor.broken.poisoned = true := rfl

/-- What is queued while an INSERT is open: an error and the actor after it, or nothing
that speaks against the next block. -/
def queuedOn (actor : Actor) (_ : Unit) : Event → Option (Verdict Unit (Option (Error × Actor)))
  | .received (.packet (.exception exc)) =>
      some (.stop (some (exc.intoError, { actor with state := .idle })))
  | .received (.packet _) => some (.again ())
  | .received (.error error) => some (.stop (some (error, actor.broken)))
  | .empty => some (.stop none)
  | .closed => some (.stop (some (.custom "tcp: reader sub-task exited mid-INSERT", actor.broken)))
  | _ => none

/-- Send one block of an open INSERT. -/
def doSendInsertBlock (actor : Actor) (columnBytes : Bytes) (numColumns numRows : Nat) :
    ActorScript (Except Error Unit × Actor) :=
  if maxInsertBlockBytes < columnBytes.length then
    return (.error (.custom ("tcp: INSERT block of " ++ toString columnBytes.length ++
      " bytes exceeds the " ++ toString maxInsertBlockBytes ++
      " byte cap; split the batch into smaller blocks")), actor)
  else do
    match ← Script.loop actor.queuedOn () with
    | some (error, actor) => return (.error error, actor)
    | none =>
        match ← write (.dataBlock columnBytes numColumns numRows) with
        | .error error => return (.error error, actor.broken)
        | .ok () => return (.ok (), actor)

/-- End an INSERT: the empty block, then the rest of the response. -/
def doFinishInsert (actor : Actor) : ActorScript (Except Error Unit × Actor) := do
  match ← write .emptyBlock with
  | .error error => return (.error error, actor.poison)
  | .ok () => actor.drainToEndOfStream

/-- A frame on its way to the caller: one of many, or the last. -/
inductive Sending
  | forward (packet : ServerPacket)
  | last (frame : Frame) (actor : Actor)

/-- The frames the caller has taken, and the one on its way. -/
structure Streaming where
  frames : List Frame := []
  sending : Option Sending := none

/-- How the loop of a stream ends. -/
inductive StreamEnd
  | over (frames : List Frame) (actor : Actor)
  | callerGone (frames : List Frame)

/-- The last frame of a stream. -/
def lastFrame (streaming : Streaming) (frame : Frame) (actor : Actor) :
    Verdict Streaming StreamEnd :=
  .again { streaming with sending := some (.last frame actor) }

/-- A frame is on its way, and more may follow. -/
def forwardOn (streaming : Streaming) (packet : ServerPacket) :
    Event → Option (Verdict Streaming StreamEnd)
  | .sent => some (.again { frames := streaming.frames ++ [.ok packet] })
  | .callerGone => some (.stop (.callerGone streaming.frames))
  | _ => none

/-- The last frame is on its way; the stream is over whether or not it lands. -/
def lastOn (streaming : Streaming) (frame : Frame) (actor : Actor) :
    Event → Option (Verdict Streaming StreamEnd)
  | .sent => some (.stop (.over (streaming.frames ++ [frame]) actor))
  | .callerGone => some (.stop (.over streaming.frames actor))
  | _ => none

/-- No frame is on its way. -/
def packetOn (actor : Actor) (streaming : Streaming) :
    Event → Option (Verdict Streaming StreamEnd)
  | .callerGone => some (.stop (.callerGone streaming.frames))
  | .idle => some (
      match actor.readTimeout with
      | some _ => lastFrame streaming (.error .timedOut) actor.poison
      | none => .again streaming)
  | .received (.packet .endOfStream) => some (lastFrame streaming (.ok .endOfStream) actor)
  | .received (.packet (.exception exc)) =>
      some (lastFrame streaming (.error exc.intoError) actor)
  | .received (.packet .pong) | .received (.packet .log)
  | .received (.packet .profileEvents) => some (.again streaming)
  | .received (.packet packet) =>
      some (.again { streaming with sending := some (.forward packet) })
  | .received (.error error) => some (lastFrame streaming (.error error) actor.poison)
  | .closed =>
      some (lastFrame streaming
        (.error (.custom "tcp: reader sub-task exited mid-stream")) actor.poison)
  | _ => none

def streamOn (actor : Actor) (streaming : Streaming) (event : Event) :
    Option (Verdict Streaming StreamEnd) :=
  match streaming.sending with
  | some (.forward packet) => forwardOn streaming packet event
  | some (.last frame after) => lastOn streaming frame after event
  | none => actor.packetOn streaming event

/-- Run a streaming SELECT: the frames its caller takes. -/
def doExecuteStream (actor : Actor) (query : Query) : ActorScript (List Frame × Actor) := do
  match ← issueQuery query with
  | .error error =>
      let taken ← sendFrame
      return (if taken then [.error error] else [], actor.poison)
  | .ok () =>
      match ← Script.loop actor.streamOn {} with
      | .over frames actor => return (frames, actor)
      | .callerGone frames =>
          let actor ← actor.cancelAndDrain
          return (frames, actor)

end Actor

/-- The commands of a connection. -/
inductive ConnectionCmd
  | ping
  | executeQuery (query : Query)
  | beginInsert (query : Query)
  | sendInsertBlock (columnBytes : Bytes) (numColumns numRows : Nat)
  | finishInsert
  | executeStream (query : Query)

/-- What the caller of a command gets. -/
inductive Reply
  | answered (result : Except Error Unit)
  | opened (result : Except Error (List (String × String)))
  | streamed (frames : List Frame)
  /-- The caller went away before. -/
  | unheard

/-- Whether a command belongs to an INSERT that is open. -/
def ConnectionCmd.continuesInsert : ConnectionCmd → Bool
  | .sendInsertBlock .. | .finishInsert => true
  | _ => false

/-- Answer a command with an error, without touching the socket. -/
def ConnectionCmd.refuse (cmd : ConnectionCmd) (error : Error) : ActorScript Reply :=
  match cmd with
  | .ping | .executeQuery _ | .sendInsertBlock .. | .finishInsert => return .answered (.error error)
  | .beginInsert _ => return .opened (.error error)
  | .executeStream _ => do
      let taken ← Actor.sendFrame
      return .streamed (if taken then [.error error] else [])

/-- Answer a command of a poisoned connection. -/
def rejectPoisoned (cmd : ConnectionCmd) : ActorScript Reply :=
  cmd.refuse (.transient "tcp: connection is poisoned; command not sent")

/-- Handle one command. -/
def Actor.handle (actor : Actor) (cmd : ConnectionCmd) : ActorScript (Reply × Actor) :=
  if actor.poisoned && !cmd.continuesInsert then do
    let reply ← rejectPoisoned cmd
    return (reply, actor)
  else
    match actor.state, cmd with
    | .insertActive, .ping | .insertActive, .executeQuery _ | .insertActive, .executeStream _ => do
        let reply ← cmd.refuse (.custom "tcp: actor busy in INSERT")
        return (reply, actor)
    | .insertActive, .beginInsert _ => do
        let reply ← cmd.refuse (.custom "tcp: actor already in INSERT")
        return (reply, actor)
    | .idle, .sendInsertBlock .. | .idle, .finishInsert => do
        let reply ← cmd.refuse (.custom "tcp: no INSERT session active")
        return (reply, actor)
    | .idle, .ping => do
        let (result, actor) ← actor.doPing
        return (.answered result, actor)
    | .idle, .executeQuery query => do
        let (result, actor) ← actor.doExecuteQuery query
        return (result.elim .unheard .answered, actor)
    | .idle, .beginInsert query => do
        let (result, actor) ← actor.doBeginInsert query
        match result with
        | .ok columns => return (.opened (.ok columns), { actor with state := .insertActive })
        | .error error => return (.opened (.error error), actor)
    | .insertActive, .sendInsertBlock columnBytes numColumns numRows => do
        let (result, actor) ← actor.doSendInsertBlock columnBytes numColumns numRows
        return (.answered result, actor)
    | .insertActive, .finishInsert => do
        let (result, actor) ← actor.doFinishInsert
        return (.answered result, { actor with state := .idle })
    | .idle, .executeStream query => do
        let (frames, actor) ← actor.doExecuteStream query
        return (.streamed frames, actor)

end DfeClickhouse.Tcp

import DfeClickhouse.Tcp.InsertState

/-!
# Streamed results

A cursor takes the frames of a streaming SELECT from the channel the actor fills, and
`fetchBlocks` collects its blocks.  A stream that is cut short is an error.
-/

namespace DfeClickhouse.Tcp

open Library Native Script

/-- The receiving end of a stream's channel: what is in it, and whether its sender is
gone. -/
structure Receiver where
  frames : List Frame
  closed : Bool

/-- A whole-block cursor. -/
structure TcpRawCursor where
  rx : Receiver
  /-- An EndOfStream or an error has been seen. -/
  done : Bool := false
  /-- Only after an EndOfStream. -/
  sawEos : Bool := false

/-- The block a packet carries; the schema block has no values. -/
def ServerPacket.block? : ServerPacket → Option DecodedBlock
  | .data numRows columns => some { columns := [], schema := columns, numRows }
  | .dataBlock block => some block
  | _ => none

namespace TcpRawCursor

/-- Pull frames until one is a block or the last. -/
def pull (closed sawEos : Bool) :
    List Frame → Option (Except Error (Option DecodedBlock) × TcpRawCursor)
  | [] =>
      if closed then
        some (if sawEos then .ok none
            else .error (.custom "tcp: connection actor exited before EndOfStream"),
          { rx := { frames := [], closed }, done := true, sawEos })
      else
        none
  | .error error :: rest =>
      some (.error error, { rx := { frames := rest, closed }, done := true, sawEos })
  | .ok .endOfStream :: rest =>
      some (.ok none, { rx := { frames := rest, closed }, done := true, sawEos := true })
  | .ok packet :: rest =>
      match packet.block? with
      | some block => some (.ok (some block), { rx := { frames := rest, closed }, sawEos })
      | none => pull closed sawEos rest

/-- The next block, `none` after the last one; no answer while the channel is empty and
open. -/
def nextBlock (cursor : TcpRawCursor) :
    Option (Except Error (Option DecodedBlock) × TcpRawCursor) :=
  if cursor.done then some (.ok none, cursor)
  else pull cursor.rx.closed cursor.sawEos cursor.rx.frames

theorem pull_shrinks {closed sawEos : Bool} {frames : List Frame} {block : DecodedBlock}
    {cursor : TcpRawCursor} (pulled : pull closed sawEos frames = some (.ok (some block), cursor)) :
    cursor.rx.frames.length < frames.length := by
  induction frames with
  | nil =>
      rw [pull] at pulled
      split at pulled
      · split at pulled <;> cases pulled
      · cases pulled
  | cons frame frames ih =>
      unfold pull at pulled
      split at pulled
      case h_1 impossible => cases impossible
      case h_2 => cases pulled
      case h_3 => cases pulled
      case h_4 same =>
        cases same
        split at pulled
        · cases pulled
          exact Nat.lt_succ_self _
        · exact Nat.lt_succ_of_lt (ih pulled)

theorem nextBlock_shrinks {cursor next : TcpRawCursor} {block : DecodedBlock}
    (pulled : cursor.nextBlock = some (.ok (some block), next)) :
    next.rx.frames.length < cursor.rx.frames.length := by
  unfold nextBlock at pulled
  split at pulled
  · cases pulled
  · exact pull_shrinks pulled

/-- Collect every block, the header block included. -/
def fetchBlocks (cursor : TcpRawCursor) (blocks : List DecodedBlock) :
    Option (Except Error (List DecodedBlock)) :=
  match pulled : cursor.nextBlock with
  | none => none
  | some (.error error, _) => some (.error error)
  | some (.ok none, _) => some (.ok blocks)
  | some (.ok (some block), next) =>
      have := nextBlock_shrinks pulled
      fetchBlocks next (blocks ++ [block])
termination_by cursor.rx.frames.length

variable {closed : Bool} {frames : List Frame} {blocks : List DecodedBlock}

theorem fetchBlocks_eq (cursor : TcpRawCursor) (blocks : List DecodedBlock) :
    cursor.fetchBlocks blocks =
      match cursor.nextBlock with
      | none => none
      | some (.error error, _) => some (.error error)
      | some (.ok none, _) => some (.ok blocks)
      | some (.ok (some block), next) => next.fetchBlocks (blocks ++ [block]) := by
  rw [fetchBlocks]
  split <;> simp only [*]

theorem fetchBlocks_nil :
    fetchBlocks { rx := { frames := [], closed } } blocks =
      if closed then some (.error (.custom "tcp: connection actor exited before EndOfStream"))
      else none := by
  rw [fetchBlocks_eq]
  cases closed <;> rfl

@[simp] theorem fetchBlocks_error (error : Error) :
    fetchBlocks { rx := { frames := .error error :: frames, closed } } blocks =
      some (.error error) := by
  rw [fetchBlocks_eq]
  rfl

theorem fetchBlocks_endOfStream :
    fetchBlocks { rx := { frames := .ok .endOfStream :: frames, closed } } blocks =
      some (.ok blocks) := by
  rw [fetchBlocks_eq]
  rfl

theorem fetchBlocks_packet {packet : ServerPacket} (more : packet ≠ .endOfStream) :
    fetchBlocks { rx := { frames := .ok packet :: frames, closed } } blocks =
      fetchBlocks { rx := { frames, closed } } (blocks ++ packet.block?.toList) := by
  cases packet with
  | endOfStream => exact absurd rfl more
  | data numRows columns =>
      rw [fetchBlocks_eq]
      rfl
  | dataBlock block =>
      rw [fetchBlocks_eq]
      rfl
  | _ =>
      rw [fetchBlocks_eq, fetchBlocks_eq { rx := { frames, closed } }]
      simp [nextBlock, pull, ServerPacket.block?]

/-- Frames before the end of a stream yield their blocks. -/
theorem fetchBlocks_append {packets : List ServerPacket}
    (more : ∀ packet ∈ packets, packet ≠ .endOfStream) :
    fetchBlocks { rx := { frames := packets.map .ok ++ frames, closed } } blocks =
      fetchBlocks { rx := { frames, closed } } (blocks ++ packets.filterMap (·.block?)) := by
  induction packets generalizing blocks with
  | nil => simp
  | cons packet packets ih =>
      rw [List.map_cons, List.cons_append, fetchBlocks_packet (more packet List.mem_cons_self),
        ih fun later member => more later (List.mem_cons_of_mem _ member), List.append_assoc]
      cases found : packet.block? <;> simp [found]

/-- Without an EndOfStream among the frames there is no result. -/
theorem fetchBlocks_ne_ok (short : .ok .endOfStream ∉ frames) (out : List DecodedBlock) :
    fetchBlocks { rx := { frames, closed } } blocks ≠ some (.ok out) := by
  induction frames generalizing blocks with
  | nil =>
      rw [fetchBlocks_nil]
      cases closed <;> simp
  | cons frame frames ih =>
      rw [List.mem_cons, not_or] at short
      cases frame with
      | error error =>
          rw [fetchBlocks_error]
          simp
      | ok packet =>
          have more : packet ≠ .endOfStream := by
            rintro rfl
            exact short.1 rfl
          rw [fetchBlocks_packet more]
          exact ih short.2

end TcpRawCursor

namespace Event

/-- The packet of an event that a stream hands on before its end. -/
def forwarded : Event → Option ServerPacket
  | .received (.packet .pong) | .received (.packet .log) | .received (.packet .profileEvents)
  | .received (.packet .endOfStream) | .received (.packet (.exception _)) => none
  | .received (.packet packet) => some packet
  | _ => none

/-- The block of a Data or DataBlock packet. -/
def block? : Event → Option DecodedBlock
  | .received (.packet packet) => packet.block?
  | _ => none

theorem block?_eq (event : Event) : event.block? = event.forwarded.bind (·.block?) := by
  cases event with
  | received message =>
      cases message with
      | packet packet => cases packet <;> rfl
      | error error => rfl
  | _ => rfl

theorem forwarded_ne_endOfStream {event : Event} {packet : ServerPacket}
    (found : event.forwarded = some packet) : packet ≠ .endOfStream := by
  cases event with
  | received message =>
      cases message with
      | packet received =>
          cases received
          all_goals cases found
          all_goals nofun
      | error error => cases found
  | _ => cases found

end Event

namespace Actor

/-- Whether an event ends a stream: its EndOfStream, an Exception, a failure of the
reader or of a write, the caller's end, or the idle timer where it is a deadline. -/
def endsStream (actor : Actor) : Event → Bool
  | .received (.packet .endOfStream) | .received (.packet (.exception _)) | .received (.error _)
  | .closed | .writeFailed .. | .callerGone => true
  | .idle => actor.readTimeout.isSome
  | _ => false

/-- The frames in the channel while the actor has not returned. -/
def framesSoFar (actor : Actor) (query : Query) (events : List Event) : List Frame :=
  match (issueQuery query).run events with
  | .done (.ok ()) rest => (loopReached actor.streamOn {} rest).frames
  | _ => []

/-- The channel of a stream after the events: the actor has returned and is done with
it, or has not; then it may have been dropped together with its end of the channel. -/
def streamReceiver (actor : Actor) (query : Query) (events : List Event) (dropped : Bool) :
    Receiver :=
  match (actor.doExecuteStream query).run events with
  | .done (frames, _) _ => { frames, closed := true }
  | _ => { frames := actor.framesSoFar query events, closed := dropped }

/-- The EndOfStream arrives, and is handed on, before anything else that ends the
stream; the blocks are those that arrived before it. -/
def Completes (actor : Actor) (events : List Event) (blocks : List DecodedBlock) : Prop :=
  ∃ before rest, events = before ++ .received (.packet .endOfStream) :: .sent :: rest ∧
    Free actor.endsStream before ∧ blocks = before.filterMap Event.block?

variable {actor : Actor}

/-- Two ways to find the first event of a kind are one. -/
theorem first_unique {kind : Event → Bool} {before before' after after' : List Event}
    {event event' : Event} (free : Free kind before) (first : kind event = true)
    (free' : Free kind before') (first' : kind event' = true)
    (same : before ++ event :: after = before' ++ event' :: after') :
    before = before' ∧ event = event' ∧ after = after' := by
  induction before generalizing before' with
  | nil =>
      cases before' with
      | nil =>
          cases same
          exact ⟨rfl, rfl, rfl⟩
      | cons head before' =>
          obtain ⟨rfl, -⟩ := List.cons.inj same
          rw [free' _ List.mem_cons_self] at first
          cases first
  | cons head before ih =>
      cases before' with
      | nil =>
          obtain ⟨rfl, -⟩ := List.cons.inj same
          rw [free _ List.mem_cons_self] at first'
          cases first'
      | cons head' before' =>
          obtain ⟨rfl, tails⟩ := List.cons.inj same
          obtain ⟨rfl, rest⟩ := ih (fun later member => free later (List.mem_cons_of_mem _ member))
            (fun later member => free' later (List.mem_cons_of_mem _ member)) tails
          exact ⟨rfl, rest⟩

/-- Nothing that has not met the end of a stream completes it. -/
theorem not_completes_of_free {events : List Event} (free : Free actor.endsStream events)
    (blocks : List DecodedBlock) : ¬ actor.Completes events blocks := by
  rintro ⟨before, rest, rfl, -, -⟩
  cases free (.received (.packet .endOfStream)) (by simp)

theorem completes_iff {before after : List Event} {event : Event} {blocks : List DecodedBlock}
    (free : Free actor.endsStream before) (first : actor.endsStream event = true) :
    actor.Completes (before ++ event :: after) blocks ↔
      event = .received (.packet .endOfStream) ∧ (∃ rest, after = .sent :: rest) ∧
        blocks = before.filterMap Event.block? := by
  constructor
  · rintro ⟨before', rest, same, free', rfl⟩
    obtain ⟨rfl, rfl, rfl⟩ := first_unique free first free' rfl same
    exact ⟨rfl, ⟨rest, rfl⟩, rfl⟩
  · rintro ⟨rfl, ⟨rest, rfl⟩, rfl⟩
    exact ⟨before, rest, rfl, free, rfl⟩

/-- The frames a stream hands on for the events before its end. -/
def handed (events : List Event) : List Frame :=
  (events.filterMap Event.forwarded).map .ok

@[simp, grind =] theorem handed_append_one (events : List Event) (event : Event) :
    handed (events ++ [event]) = handed events ++ event.forwarded.toList.map .ok := by
  unfold handed
  cases found : event.forwarded <;> simp [found]

theorem endOfStream_not_mem_handed (events : List Event) : .ok .endOfStream ∉ handed events := by
  intro member
  obtain ⟨packet, found, same⟩ := List.mem_map.mp member
  obtain ⟨event, -, forwarded⟩ := List.mem_filterMap.mp found
  cases same
  exact Event.forwarded_ne_endOfStream forwarded rfl

/-- The stream goes on, and nothing of it is handed on yet. -/
def Quiet (actor : Actor) (events : List Event) : Prop :=
  Free actor.endsStream events ∧ handed events = []

/-- The stream has ended other than with an EndOfStream. -/
def Cut (actor : Actor) (events : List Event) : Prop :=
  ∃ before event after, events = before ++ event :: after ∧ Free actor.endsStream before ∧
    actor.endsStream event = true ∧ event ≠ .received (.packet .endOfStream)

theorem Cut.append {events : List Event} (cut : actor.Cut events) (event : Event) :
    actor.Cut (events ++ [event]) := by
  obtain ⟨before, first, after, rfl, free, ends, other⟩ := cut
  exact ⟨before, first, after ++ [event], by simp, free, ends, other⟩

theorem Cut.of_free {events : List Event} {event : Event} (free : Free actor.endsStream events)
    (ends : actor.endsStream event = true) (other : event ≠ .received (.packet .endOfStream)) :
    actor.Cut (events ++ [event]) :=
  ⟨events, event, [], rfl, free, ends, other⟩

/-- The stream is not complete. -/
def Short (actor : Actor) (events : List Event) : Prop :=
  ∀ blocks, ¬ actor.Completes events blocks

theorem Cut.short {events : List Event} (cut : actor.Cut events) : actor.Short events := by
  obtain ⟨before, first, after, rfl, free, ends, other⟩ := cut
  intro blocks complete
  exact other ((completes_iff free ends).mp complete).1

/-- How a stream ends: with its EndOfStream handed on, or short of it. -/
def Ended (actor : Actor) (frames : List Frame) (events : List Event) : Prop :=
  (∃ before, events = before ++ [.received (.packet .endOfStream), .sent] ∧
    Free actor.endsStream before ∧ frames = handed before ++ [.ok .endOfStream]) ∨
  .ok .endOfStream ∉ frames ∧ actor.Short events

/-- What the loop of a stream has handed on, and what is on its way. -/
def Streams (actor : Actor) (streaming : Streaming) (events : List Event) : Prop :=
  match streaming.sending with
  | none => Free actor.endsStream events ∧ streaming.frames = handed events
  | some (.forward packet) =>
      Free actor.endsStream events ∧ streaming.frames ++ [.ok packet] = handed events
  | some (.last frame _) =>
      ∃ before event, events = before ++ [event] ∧ Free actor.endsStream before ∧
        actor.endsStream event = true ∧ streaming.frames = handed before ∧
        (event = .received (.packet .endOfStream) ∧ frame = .ok .endOfStream ∨
          event ≠ .received (.packet .endOfStream) ∧ ∃ error, frame = .error error)

theorem Streams.short {streaming : Streaming} {events : List Event}
    (streams : actor.Streams streaming events) : actor.Short events := by
  unfold Streams at streams
  split at streams
  · exact not_completes_of_free streams.1
  · exact not_completes_of_free streams.1
  · obtain ⟨before, event, rfl, free, ends, -⟩ := streams
    intro blocks complete
    obtain ⟨-, ⟨rest, sent⟩, -⟩ := (completes_iff free ends).mp complete
    cases sent

/-- Nothing but the EndOfStream has the EndOfStream as its frame. -/
theorem Streams.frames_short {streaming : Streaming} {events : List Event}
    (streams : actor.Streams streaming events) : .ok .endOfStream ∉ streaming.frames := by
  unfold Streams at streams
  split at streams
  · rw [streams.2]
    exact endOfStream_not_mem_handed events
  · intro member
    apply endOfStream_not_mem_handed events
    rw [← streams.2]
    exact List.mem_append_left _ member
  · obtain ⟨before, event, rfl, -, -, frames, -⟩ := streams
    rw [frames]
    exact endOfStream_not_mem_handed before

/-- What the loop of a stream ends with. -/
def EndsWith (actor : Actor) (ended : StreamEnd) (events : List Event) : Prop :=
  match ended with
  | .over frames _ => actor.Ended frames events
  | .callerGone frames => .ok .endOfStream ∉ frames ∧ actor.Cut events

theorem forwardOn_streams {streaming : Streaming} {packet : ServerPacket} {events : List Event}
    {event : Event} {verdict : Verdict Streaming StreamEnd}
    (sending : streaming.sending = some (.forward packet))
    (streams : actor.Streams streaming events)
    (taken : forwardOn streaming packet event = some verdict) :
    verdict.Meets (actor.Streams · (events ++ [event])) (actor.EndsWith · (events ++ [event])) := by
  have short := streams.frames_short
  unfold Streams at streams
  rw [sending] at streams
  obtain ⟨free, frames⟩ := streams
  unfold forwardOn at taken
  split at taken <;> cases taken
  · refine ⟨free.append rfl, ?_⟩
    rw [handed_append_one, frames]
    simp [Event.forwarded]
  · exact ⟨short, .of_free free rfl nofun⟩

theorem lastOn_streams {streaming : Streaming} {frame : Frame} {after : Actor}
    {events : List Event} {event : Event} {verdict : Verdict Streaming StreamEnd}
    (sending : streaming.sending = some (.last frame after))
    (streams : actor.Streams streaming events)
    (taken : lastOn streaming frame after event = some verdict) :
    verdict.Meets (actor.Streams · (events ++ [event])) (actor.EndsWith · (events ++ [event])) := by
  have short := streams.frames_short
  unfold Streams at streams
  rw [sending] at streams
  obtain ⟨before, last, rfl, free, ends, frames, kind⟩ := streams
  have moved : before ++ [last] ++ [event] = before ++ last :: [event] := by simp
  rw [moved]
  unfold lastOn at taken
  split at taken <;> cases taken
  · rcases kind with ⟨rfl, rfl⟩ | ⟨other, error, rfl⟩
    · exact .inl ⟨before, rfl, free, by rw [frames]⟩
    · refine .inr ⟨?_, Cut.short ⟨before, last, [.sent], rfl, free, ends, other⟩⟩
      intro member
      rcases List.mem_append.mp member with member | member
      · exact short member
      · cases List.mem_singleton.mp member
  · refine .inr ⟨short, ?_⟩
    intro blocks complete
    obtain ⟨-, ⟨rest, sent⟩, -⟩ := (completes_iff free ends).mp complete
    cases sent

theorem packetOn_streams {streaming : Streaming} {events : List Event} {event : Event}
    {verdict : Verdict Streaming StreamEnd} (sending : streaming.sending = none)
    (streams : actor.Streams streaming events)
    (taken : actor.packetOn streaming event = some verdict) :
    verdict.Meets (actor.Streams · (events ++ [event])) (actor.EndsWith · (events ++ [event])) := by
  have short := streams.frames_short
  unfold Streams at streams
  rw [sending] at streams
  obtain ⟨free, frames⟩ := streams
  have goes : actor.endsStream event = false → event.forwarded = none →
      actor.Streams streaming (events ++ [event]) := by
    intro quiet unforwarded
    unfold Streams
    rw [sending]
    refine ⟨free.append quiet, ?_⟩
    rw [handed_append_one, unforwarded, frames]
    simp
  have fails : actor.endsStream event = true → event ≠ .received (.packet .endOfStream) →
      ∀ error after, (lastFrame streaming (.error error) after).Meets
        (actor.Streams · (events ++ [event])) (actor.EndsWith · (events ++ [event])) := by
    intro ends other error after
    exact ⟨events, event, rfl, free, ends, frames, .inr ⟨other, error, rfl⟩⟩
  unfold packetOn at taken
  split at taken
  · cases taken
    exact ⟨short, .of_free free rfl (by simp)⟩
  · cases taken
    split
    · rename_i deadline
      exact fails (by simp [endsStream, deadline]) (by simp) _ _
    · rename_i deadline
      exact goes (by simp [endsStream, deadline]) rfl
  · cases taken
    exact ⟨events, _, rfl, free, rfl, frames, .inl ⟨rfl, rfl⟩⟩
  · cases taken
    exact fails rfl (by simp) _ _
  · cases taken
    exact goes rfl rfl
  · cases taken
    exact goes rfl rfl
  · cases taken
    exact goes rfl rfl
  · rename_i packet _ notException _ _ _
    cases taken
    have forwarded : Event.forwarded (.received (.packet packet)) = some packet := by
      cases packet <;> first | rfl | contradiction | exact absurd rfl (notException _)
    refine ⟨free.append ?_, ?_⟩
    · cases packet <;> first | rfl | contradiction
    · rw [handed_append_one, forwarded, ← frames]
      rfl
  · cases taken
    exact fails rfl (by simp) _ _
  · cases taken
    exact fails rfl (by simp) _ _
  · cases taken

theorem streamOn_streams {streaming : Streaming} {events : List Event} {event : Event}
    {verdict : Verdict Streaming StreamEnd} (streams : actor.Streams streaming events)
    (taken : actor.streamOn streaming event = some verdict) :
    verdict.Meets (actor.Streams · (events ++ [event])) (actor.EndsWith · (events ++ [event])) := by
  unfold streamOn at taken
  split at taken
  · exact forwardOn_streams ‹_› streams taken
  · exact lastOn_streams ‹_› streams taken
  · exact packetOn_streams ‹_› streams taken

/-- A write leaves the stream quiet, or cuts it. -/
def Issues (actor : Actor) (result : Except Error Unit) (events : List Event) : Prop :=
  match result with
  | .ok () => actor.Quiet events
  | .error _ => actor.Cut events

theorem ensures_write_issues (packet : ClientPacket) :
    Ensures record actor.Quiet (write packet) actor.Short actor.Issues := by
  apply Ensures.await
  · intro events quiet
    exact not_completes_of_free quiet.1
  · rintro events event _ result ⟨free, nothing⟩ rfl taken
    cases event with
    | wrote written =>
        dsimp only at taken
        split at taken <;> cases taken
        refine ⟨free.append rfl, ?_⟩
        rw [handed_append_one, nothing]
        rfl
    | writeFailed written error =>
        dsimp only at taken
        split at taken <;> cases taken
        exact .of_free free rfl nofun
    | _ => cases taken

theorem ensures_issueQuery_issues (query : Query) :
    Ensures record actor.Quiet (issueQuery query) actor.Short actor.Issues := by
  apply (ensures_write_issues _).bind
  intro result
  cases result with
  | error error =>
      apply Ensures.pure
      intro events cut
      exact cut
  | ok value => exact ensures_write_issues _

/-- Whatever follows, a stream that is cut stays cut. -/
theorem ensures_cut {α : Type} {frames : List Frame} (program : ActorScript α) :
    Ensures record (fun events => .ok .endOfStream ∉ frames ∧ actor.Cut events) program
      actor.Short fun _ events => .ok .endOfStream ∉ frames ∧ actor.Cut events := by
  apply Ensures.waiting
  · apply Ensures.stable
    rintro events event _ ⟨short, cut⟩ rfl
    exact ⟨short, cut.append event⟩
  · intro events ⟨_, cut⟩
    exact cut.short

theorem ensures_stream (query : Query) :
    Ensures record (· = []) (actor.doExecuteStream query) actor.Short
      fun result events => actor.Ended result.1 events := by
  apply Ensures.bind
  · apply (ensures_issueQuery_issues query).strengthen
    rintro _ rfl
    exact ⟨free_nil _, rfl⟩
  · intro result
    cases result with
    | error error =>
        apply Ensures.bind
        · apply (@ensures_cut actor _ [] sendFrame).consequence
          · intro events cut
            exact ⟨List.not_mem_nil, cut⟩
          · intro taken events cut
            exact cut.2
        · intro taken
          apply Ensures.pure
          intro events cut
          exact .inr ⟨by cases taken <;> simp, cut.short⟩
    | ok value =>
        have loops : Ensures record actor.Quiet (loop actor.streamOn {}) actor.Short
            actor.EndsWith := by
          apply (@Ensures.loop _ _ _ _ record _ actor.streamOn actor.Streams actor.EndsWith
            ?_ ?_ {}).strengthen
          intro events quiet
          exact ⟨quiet.1, quiet.2.symm⟩
          · intro streaming events streams
            exact streams.short
          · rintro streaming events event _ verdict streams rfl taken
            exact streamOn_streams streams taken
        apply loops.bind
        intro ended
        cases ended with
        | «over» frames after =>
            apply Ensures.pure
            intro events ended
            exact ended
        | callerGone frames =>
            apply (ensures_cut actor.cancelAndDrain).bind
            intro after
            apply Ensures.pure
            intro events ⟨short, cut⟩
            exact .inr ⟨short, cut.short⟩

/-- No frame but the last is the EndOfStream. -/
theorem framesSoFar_short (query : Query) (events : List Event) :
    .ok .endOfStream ∉ actor.framesSoFar query events := by
  unfold framesSoFar
  split
  · rename_i rest _
    have streams : ∃ taken, actor.Streams (loopReached actor.streamOn {} rest) taken := by
      apply @loopReached_keeps _ _ _ actor.streamOn fun streaming => ∃ taken,
        actor.Streams streaming taken
      · rintro streaming event later ⟨taken, streams⟩ went
        exact ⟨taken ++ [event], streamOn_streams streams went⟩
      · exact ⟨[], free_nil _, rfl⟩
    obtain ⟨taken, streams⟩ := streams
    exact streams.frames_short
  · exact List.not_mem_nil

/-- What was handed on before an EndOfStream has the blocks that arrived before it. -/
theorem fetchBlocks_handed (events : List Event) :
    TcpRawCursor.fetchBlocks
        { rx := { frames := handed events ++ [.ok .endOfStream], closed := true } } [] =
      some (.ok (events.filterMap Event.block?)) := by
  have more : ∀ packet ∈ events.filterMap Event.forwarded, packet ≠ .endOfStream := by
    intro packet member
    obtain ⟨event, -, forwarded⟩ := List.mem_filterMap.mp member
    exact Event.forwarded_ne_endOfStream forwarded
  have blocks : Event.block? = fun event => event.forwarded.bind (·.block?) := by
    funext event
    exact event.block?_eq
  rw [handed, TcpRawCursor.fetchBlocks_append more, TcpRawCursor.fetchBlocks_endOfStream,
    List.filterMap_filterMap, blocks, List.nil_append]

/-- The events the actor has taken for a stream: it has returned, or still waits. -/
def TakesStream (actor : Actor) (query : Query) (events : List Event) : Prop :=
  (actor.doExecuteStream query).run events = .waiting ∨
    ∃ result, (actor.doExecuteStream query).run events = .done result []

def selectOne : Query := { queryId := "", query := "SELECT 1" }

/-- A schema block and a Progress packet, then the EndOfStream. -/
def selectOneEvents : List Event :=
  [.wrote (.query selectOne), .wrote .emptyBlock, .received (.packet (.data 0 [("1", "UInt8")])),
    .sent, .received (.packet .progress), .sent, .received (.packet .endOfStream), .sent]

end Actor

end DfeClickhouse.Tcp

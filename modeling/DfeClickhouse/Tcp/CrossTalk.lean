import DfeClickhouse.Tcp.Exchange
import DfeClickhouse.Tcp.InsertState

/-!
# Commands and their packets

Over whole runs of commands on one connection: a command that reaches the socket finds
nothing of an earlier one, and every packet it takes was sent for it.
-/

namespace DfeClickhouse.Tcp

open Library Script

namespace Exchange

variable {exchange next : Exchange} {request : Request} {owner : Nat}

/-- Whatever packet was taken, the answer is under way or over. -/
theorem After.outstanding {packet : ServerPacket}
    (after : After request owner next (.received (.packet packet))) :
    next.Outstanding request owner := by
  change if request.isEnd packet = true then next.Clear else next.Outstanding request owner at after
  split at after
  · exact .inr after
  · exact after

/-- What a command leaves behind: the state as it was and, unless the connection is poisoned,
nothing under way. -/
def Leaves (actor after : Actor) (exchange : Exchange) : Prop :=
  exchange.Own ∧ after.state = actor.state ∧ (after.poisoned = false → exchange.Clear)

/-- An answer is under way, and every packet taken so far was its own. -/
def Under (request : Request) (command : Nat) (exchange : Exchange) : Prop :=
  exchange.Own ∧ exchange.Outstanding request command

/-- Nothing is under way. -/
def Ready (exchange : Exchange) : Prop :=
  exchange.Own ∧ exchange.Clear

theorem Leaves.arrives {actor after : Actor} (leaves : Leaves actor after exchange)
    (arrivals : Relation.ReflTransGen Arrives exchange next) : Leaves actor after next := by
  obtain ⟨own, same, clear⟩ := leaves
  refine ⟨own.arrives arrivals, same, ?_⟩
  intro fine
  rw [(clear fine).arrives arrivals]
  exact clear fine

theorem leaves_poison {actor : Actor} (own : exchange.Own) : Leaves actor actor.poison exchange :=
  ⟨own, rfl, nofun⟩

end Exchange

open Exchange

namespace Actor

variable {actor : Actor} {command : Nat} {request : Request}

/-! ## Awaits -/

/-- A request on a connection that is ready. -/
theorem ensures_ask {packet : ClientPacket} (asks : packet.asks = some request) :
    Ensures (Moves command) Ready (write packet) Own fun result exchange =>
      exchange.Own ∧ (result = .ok () → exchange.Outstanding request command) := by
  apply Ensures.await fun _ ready => ready.1
  intro exchange event next result ready moved taken
  obtain ⟨own, clear⟩ := ready
  have kept := (Outstanding.moves (@Or.inr (exchange.Pending request command) _ clear) own moved).1
  refine ⟨kept, ?_⟩
  rintro rfl
  obtain ⟨middle, arrivals, handled⟩ := moved
  obtain rfl := clear.arrives arrivals
  cases event with
  | wrote sent =>
      cases handled
      dsimp only at taken
      split at taken
      · rename_i same
        rw [same]
        exact clear.ask asks
      · cases taken
  | writeFailed sent error =>
      dsimp only at taken
      split at taken <;> cases taken
  | _ => cases taken

/-- A packet that asks for nothing, while an answer is under way. -/
theorem ensures_tell {packet : ClientPacket} (quiet : packet.asks = none) :
    Ensures (Moves command) (Under request command) (write packet) Own fun result exchange =>
      exchange.Own ∧ (result = .ok () → exchange.Outstanding request command) := by
  apply Ensures.await fun _ under => under.1
  intro exchange event next result under moved taken
  obtain ⟨kept, after⟩ := under.2.moves under.1 moved
  refine ⟨kept, ?_⟩
  rintro rfl
  cases event with
  | wrote sent =>
      dsimp only at taken
      split at taken
      · rename_i same
        exact after (same ▸ quiet)
      · cases taken
  | writeFailed sent error =>
      dsimp only at taken
      split at taken <;> cases taken
  | _ => cases taken

theorem ensures_asked (query : Query) :
    Ensures (Moves command) Ready (issueQuery query) Own fun result exchange =>
      exchange.Own ∧ (result = .ok () → exchange.Outstanding .query command) := by
  apply (ensures_ask rfl).bind
  intro result
  cases result with
  | error error =>
      apply Ensures.pure
      intro exchange post
      exact ⟨post.1, nofun⟩
  | ok value =>
      apply (ensures_tell rfl).strengthen
      intro exchange post
      exact ⟨post.1, post.2 rfl⟩

/-- Only packets arrive while a frame is handed to the caller. -/
theorem ensures_frame {holds : Exchange → Prop} (own : ∀ exchange, holds exchange → exchange.Own)
    (stays : ∀ exchange next, holds exchange → Relation.ReflTransGen Arrives exchange next →
      holds next) :
    Ensures (Moves command) holds sendFrame Own fun _ => holds := by
  apply Ensures.await own
  rintro exchange event next taken held ⟨middle, arrivals, handled⟩ resolved
  cases event with
  | sent | callerGone =>
      cases handled
      exact stays exchange _ held arrivals
  | _ => cases resolved

/-- A loop over the packets of an answer. -/
theorem ensures_answers {σ α : Type} {on : σ → Event → Option (Verdict σ α)}
    {good : α → Exchange → Prop}
    (each : ∀ state event verdict next, on state event = some verdict →
      After request command next event →
      verdict.Meets (fun _ => next.Outstanding request command) (good · next)) (state : σ) :
    Ensures (Moves command) (Under request command) (loop on state) Own
      fun value exchange => exchange.Own ∧ good value exchange := by
  apply @Ensures.loop _ _ _ _ _ _ on fun _ => Under request command
  · intro _ _ under
    exact under.1
  · intro state exchange event next verdict under moved taken
    obtain ⟨kept, after⟩ := under.2.moves under.1 moved
    have meets := each state event verdict next taken after
    cases verdict with
    | again later => exact ⟨kept, meets⟩
    | stop value => exact ⟨kept, meets⟩

/-! ## Commands -/

theorem ensures_drain_leaves (actor : Actor) :
    Ensures (Moves command) (Under .query command) actor.drainToEndOfStream Own
      fun result exchange => Leaves actor result.2 exchange := by
  apply ensures_answers
  intro state event verdict next taken after
  unfold drainOn at taken
  split at taken <;> cases taken
  · exact ⟨rfl, fun _ => after⟩
  · exact ⟨rfl, fun _ => after⟩
  · exact after.outstanding
  all_goals exact ⟨rfl, nofun⟩

theorem ensures_cancel_leaves (actor : Actor) :
    Ensures (Moves command) (Under .query command) actor.cancelAndDrain Own
      fun after exchange => Leaves actor after exchange := by
  apply (ensures_tell rfl).bind
  intro result
  cases result with
  | error error =>
      apply Ensures.pure
      intro exchange post
      exact leaves_poison post.1
  | ok value =>
      apply Ensures.bind
      · apply (ensures_drain_leaves actor).strengthen
        intro exchange post
        exact ⟨post.1, post.2 rfl⟩
      · intro result
        apply Ensures.pure
        intro exchange leaves
        exact leaves

theorem ensures_ping_leaves (actor : Actor) :
    Ensures (Moves command) Ready actor.doPing Own
      fun result exchange => Leaves actor result.2 exchange := by
  apply (ensures_ask rfl).bind
  intro result
  cases result with
  | error error =>
      apply Ensures.pure
      intro exchange post
      exact leaves_poison post.1
  | ok value =>
      have loops : Ensures (Moves command) (Under .ping command) (loop actor.pingOn ()) Own
          fun result exchange => Leaves actor result.2 exchange := by
        apply ensures_answers
        intro state event verdict next taken after
        unfold pingOn at taken
        split at taken <;> cases taken
        · exact onIdle_meets after ⟨rfl, nofun⟩
        · exact ⟨rfl, fun _ => after⟩
        · exact ⟨rfl, fun _ => after⟩
        · exact after.outstanding
        all_goals exact ⟨rfl, nofun⟩
      apply loops.strengthen
      intro exchange post
      exact ⟨post.1, post.2 rfl⟩

/-- The wait for a query's answer ends with the actor as it was, or with its caller gone. -/
theorem ensures_queried_leaves (actor : Actor) :
    Ensures (Moves command) (Under .query command) (loop actor.queryOn ()) Own
      fun ended exchange => exchange.Own ∧
        match ended with
        | .replied _ after => after.state = actor.state ∧
            (after.poisoned = false → exchange.Clear)
        | .callerGone => exchange.Outstanding .query command := by
  apply ensures_answers
  intro state event verdict next taken after
  unfold queryOn at taken
  split at taken <;> cases taken
  · exact after
  · exact onIdle_meets after ⟨rfl, fun clear => absurd clear (by simp)⟩
  · exact ⟨rfl, fun _ => after⟩
  · exact ⟨rfl, fun _ => after⟩
  · exact after.outstanding
  all_goals exact ⟨rfl, fun clear => absurd clear (by simp)⟩

theorem ensures_query_leaves (actor : Actor) (query : Query) :
    Ensures (Moves command) Ready (actor.doExecuteQuery query) Own
      fun result exchange => Leaves actor result.2 exchange := by
  apply (ensures_asked query).bind
  intro result
  cases result with
  | error error =>
      apply Ensures.pure
      intro exchange post
      exact leaves_poison post.1
  | ok value =>
      apply Ensures.bind
      · apply (ensures_queried_leaves actor).strengthen
        intro exchange post
        exact ⟨post.1, post.2 rfl⟩
      · intro ended
        cases ended with
        | replied reply after =>
            apply Ensures.pure
            intro exchange leaves
            exact leaves
        | callerGone =>
            apply Ensures.bind
            · exact ensures_cancel_leaves actor
            · intro after
              apply Ensures.pure
              intro exchange leaves
              exact leaves

/-- An INSERT that is opened has its answer under way; one that is not leaves nothing. -/
def Begun (actor : Actor) (command : Nat)
    (result : Except Error (List (String × String)) × Actor) (exchange : Exchange) : Prop :=
  match result.1 with
  | .ok _ => exchange.Outstanding .query command
  | .error _ => result.2.state = actor.state ∧ (result.2.poisoned = false → exchange.Clear)

theorem ensures_begin_leaves (actor : Actor) (query : Query) :
    Ensures (Moves command) Ready (actor.doBeginInsert query) Own
      fun result exchange => exchange.Own ∧ actor.Begun command result exchange := by
  apply (ensures_asked query).bind
  intro result
  cases result with
  | error error =>
      apply Ensures.pure
      intro exchange post
      exact ⟨post.1, rfl, nofun⟩
  | ok value =>
      have loops : Ensures (Moves command) (Under .query command) (loop actor.beginOn ()) Own
          fun result exchange => exchange.Own ∧ actor.Begun command result exchange := by
        apply ensures_answers
        intro state event verdict next taken after
        unfold beginOn at taken
        split at taken <;> cases taken
        · exact onIdle_meets after ⟨rfl, nofun⟩
        · exact after.outstanding
        · exact ⟨rfl, nofun⟩
        · exact ⟨rfl, fun _ => after⟩
        · exact ⟨rfl, fun _ => after⟩
        · exact after.outstanding
        all_goals exact ⟨rfl, nofun⟩
      apply loops.strengthen
      intro exchange post
      exact ⟨post.1, post.2 rfl⟩

/-- Between commands: an open INSERT has its answer under way, and otherwise nothing is left
unless the connection is poisoned. -/
def Settled (actor : Actor) (session : Nat) (exchange : Exchange) : Prop :=
  match actor.state with
  | .insertActive => exchange.Outstanding .query session
  | .idle => actor.poisoned = false → exchange.Clear

/-- What is queued leaves the exchange as the actor's state says, or still outstanding. -/
theorem ensures_queued_settled (actor : Actor) :
    Ensures (Moves command) (Under .query command) (loop actor.queuedOn ()) Own
      fun queued exchange => exchange.Own ∧
        match queued with
        | some (_, after) => after.Settled command exchange
        | none => exchange.Outstanding .query command := by
  apply ensures_answers
  intro state event verdict next taken after
  unfold queuedOn at taken
  split at taken <;> cases taken
  · exact fun _ => after
  · exact after.outstanding
  · intro clear
    cases clear
  · exact after
  · intro clear
    cases clear

theorem ensures_send_settled (actor : Actor) (active : actor.state = .insertActive)
    (columnBytes : Bytes) (numColumns numRows : Nat) :
    Ensures (Moves command) (Under .query command)
      (actor.doSendInsertBlock columnBytes numColumns numRows) Own
      fun result exchange => exchange.Own ∧ result.2.Settled command exchange := by
  have stays : ∀ exchange : Exchange, exchange.Outstanding .query command →
      actor.Settled command exchange := by
    intro exchange outstanding
    rw [Settled, active]
    exact outstanding
  unfold doSendInsertBlock
  split
  · apply Ensures.pure
    intro exchange under
    exact ⟨under.1, stays exchange under.2⟩
  · apply (ensures_queued_settled actor).bind
    intro found
    cases found with
    | some failure =>
        apply Ensures.pure
        intro exchange post
        exact post
    | none =>
        apply (ensures_tell rfl).bind
        intro result
        cases result with
        | error error =>
            apply Ensures.pure
            intro exchange post
            refine ⟨post.1, ?_⟩
            intro clear
            cases clear
        | ok value =>
            apply Ensures.pure
            intro exchange post
            exact ⟨post.1, stays exchange (post.2 rfl)⟩

theorem ensures_finish_leaves (actor : Actor) :
    Ensures (Moves command) (Under .query command) actor.doFinishInsert Own
      fun result exchange => Leaves actor result.2 exchange := by
  apply (ensures_tell rfl).bind
  intro result
  cases result with
  | error error =>
      apply Ensures.pure
      intro exchange post
      exact leaves_poison post.1
  | ok value =>
      apply (ensures_drain_leaves actor).strengthen
      intro exchange post
      exact ⟨post.1, post.2 rfl⟩

/-- A stream with its last frame on the way has nothing under way any more. -/
def Streaming.Holds (actor : Actor) (command : Nat) (streaming : Streaming)
    (exchange : Exchange) : Prop :=
  match streaming.sending with
  | some (.last _ after) => Leaves actor after exchange
  | _ => Under .query command exchange

/-- What a stream leaves: nothing where it is over, its answer where its caller is gone. -/
def StreamEnd.Holds (actor : Actor) (command : Nat) (ended : StreamEnd) (exchange : Exchange) :
    Prop :=
  match ended with
  | .over _ after => Leaves actor after exchange
  | .callerGone _ => Under .query command exchange

theorem streamOn_holds {streaming : Streaming} {exchange next : Exchange} {event : Event}
    {verdict : Verdict Streaming StreamEnd}
    (holds : Streaming.Holds actor command streaming exchange)
    (moved : Moves command exchange event next)
    (taken : actor.streamOn streaming event = some verdict) :
    verdict.Meets (Streaming.Holds actor command · next)
      (StreamEnd.Holds actor command · next) := by
  unfold streamOn at taken
  unfold Streaming.Holds at holds
  split at taken
  · rename_i packet sending
    rw [sending] at holds
    obtain ⟨own, after⟩ := holds.2.moves holds.1 moved
    unfold forwardOn at taken
    split at taken <;> cases taken
    · exact ⟨own, after⟩
    · exact ⟨own, after⟩
  · rename_i frame later sending
    rw [sending] at holds
    obtain ⟨middle, arrivals, handled⟩ := moved
    have leaves := Exchange.Leaves.arrives holds arrivals
    unfold lastOn at taken
    split at taken <;> cases taken <;> cases handled
    · exact leaves
    · exact leaves
  · rename_i sending
    rw [sending] at holds
    obtain ⟨own, after⟩ := holds.2.moves holds.1 moved
    have goesOn : next.Outstanding .query command →
        Streaming.Holds actor command streaming next := by
      intro outstanding
      rw [Streaming.Holds, sending]
      exact ⟨own, outstanding⟩
    unfold packetOn at taken
    split at taken
    case h_2 =>
      cases taken
      split
      · exact leaves_poison own
      · exact goesOn after
    all_goals cases taken
    · exact ⟨own, after⟩
    · exact ⟨own, rfl, fun _ => after⟩
    · exact ⟨own, rfl, fun _ => after⟩
    all_goals first
      | exact goesOn after.outstanding
      | exact ⟨own, after.outstanding⟩
      | exact leaves_poison own

theorem ensures_stream_leaves (actor : Actor) (query : Query) :
    Ensures (Moves command) Ready (actor.doExecuteStream query) Own
      fun result exchange => Leaves actor result.2 exchange := by
  apply (ensures_asked query).bind
  intro result
  cases result with
  | error error =>
      have frame : Ensures (Moves command) Own sendFrame Own fun _ => Own := by
        apply ensures_frame
        · intro exchange own
          exact own
        · intro exchange next own arrivals
          exact own.arrives arrivals
      apply Ensures.bind
      · apply frame.strengthen
        intro exchange post
        exact post.1
      · intro taken
        apply Ensures.pure
        intro exchange own
        exact leaves_poison own
  | ok value =>
      have loops : Ensures (Moves command) (Streaming.Holds actor command {})
          (loop actor.streamOn {}) Own (StreamEnd.Holds actor command) := by
        apply Ensures.loop
        · intro streaming exchange holds
          unfold Streaming.Holds at holds
          split at holds <;> exact holds.1
        · intro streaming exchange event next verdict holds moved taken
          exact streamOn_holds holds moved taken
      apply Ensures.bind
      · apply loops.strengthen
        intro exchange post
        exact ⟨post.1, post.2 rfl⟩
      · intro ended
        cases ended with
        | «over» frames after =>
            apply Ensures.pure
            intro exchange leaves
            exact leaves
        | callerGone frames =>
            apply (ensures_cancel_leaves actor).bind
            intro after
            apply Ensures.pure
            intro exchange leaves
            exact leaves

/-! ## One command -/

/-- What holds between commands. -/
def Rests (actor : Actor) (session : Nat) (exchange : Exchange) : Prop :=
  exchange.Own ∧ actor.Settled session exchange

theorem Rests.arrives {session : Nat} {exchange next : Exchange}
    (rests : actor.Rests session exchange)
    (arrivals : Relation.ReflTransGen Arrives exchange next) : actor.Rests session next := by
  refine ⟨rests.1.arrives arrivals, ?_⟩
  have settled := rests.2
  unfold Settled at settled ⊢
  split at settled
  · exact settled.arrives arrivals
  · intro fine
    rw [(settled fine).arrives arrivals]
    exact settled fine

/-- The command an INSERT belongs to, after a reply. -/
def sessionAfter (command session : Nat) : Reply → Nat
  | .opened (.ok _) => command
  | _ => session

theorem ensures_refuse_rests (cmd : ConnectionCmd) (error : Error) (session : Nat) :
    Ensures (Moves command) (actor.Rests session)
      (do let reply ← cmd.refuse error; return (reply, actor)) Own
      fun result exchange => result.2.Rests (sessionAfter command session result.1) exchange := by
  have refuses : Ensures (Moves command) (actor.Rests session) (cmd.refuse error) Own
      fun reply exchange => actor.Rests (sessionAfter command session reply) exchange := by
    cases cmd with
    | executeStream query =>
        have frame : Ensures (Moves command) (actor.Rests session) sendFrame Own
            fun _ => actor.Rests session := by
          apply ensures_frame
          · intro exchange rests
            exact rests.1
          · intro exchange next rests arrivals
            exact rests.arrives arrivals
        apply frame.bind
        intro taken
        apply Ensures.pure
        intro exchange rests
        exact rests
    | _ =>
        apply Ensures.pure
        intro exchange rests
        exact rests
  apply refuses.bind
  intro reply
  apply Ensures.pure
  intro exchange rests
  exact rests

theorem rests_of_leaves {after : Actor} {session : Nat} {exchange : Exchange}
    (leaves : Leaves actor after exchange) (idle : actor.state = .idle) :
    after.Rests session exchange := by
  obtain ⟨own, same, clear⟩ := leaves
  refine ⟨own, ?_⟩
  rw [Settled, same, idle]
  exact clear

/-- The number of a command: the blocks and the finish of an INSERT count as the command
that opened it. -/
def serial (session next : Nat) (cmd : ConnectionCmd) : Nat :=
  if cmd.continuesInsert then session else next

/-- A command that reaches the socket of an idle connection finds it ready. -/
theorem Rests.ready {session : Nat} {exchange : Exchange} (rests : actor.Rests session exchange)
    (idle : actor.state = .idle) (fine : actor.poisoned = false) : exchange.Ready := by
  obtain ⟨own, settled⟩ := rests
  rw [Settled, idle] at settled
  exact ⟨own, settled fine⟩

theorem Rests.under {session : Nat} {exchange : Exchange} (rests : actor.Rests session exchange)
    (active : actor.state = .insertActive) : Under .query session exchange := by
  obtain ⟨own, settled⟩ := rests
  rw [Settled, active] at settled
  exact ⟨own, settled⟩

theorem ensures_handle_rests (actor : Actor) (cmd : ConnectionCmd) (session next : Nat) :
    Ensures (Moves (serial session next cmd)) (actor.Rests session) (actor.handle cmd) Own
      fun result exchange =>
        result.2.Rests (sessionAfter (serial session next cmd) session result.1) exchange := by
  unfold handle
  split
  · exact ensures_refuse_rests cmd _ session
  · rename_i taken
    have fine : cmd.continuesInsert = false → actor.poisoned = false := by
      intro fresh
      rw [fresh] at taken
      simpa using taken
    split
    all_goals rename_i state
    case h_7 =>
      apply Ensures.bind
      · apply (ensures_ping_leaves actor).strengthen
        intro exchange rests
        exact rests.ready state (fine rfl)
      · intro result
        apply Ensures.pure
        intro exchange leaves
        exact rests_of_leaves leaves state
    case h_8 query =>
      apply Ensures.bind
      · apply (ensures_query_leaves actor query).strengthen
        intro exchange rests
        exact rests.ready state (fine rfl)
      · rintro ⟨result, after⟩
        apply Ensures.pure
        intro exchange leaves
        cases result with
        | none => exact rests_of_leaves leaves state
        | some answer => exact rests_of_leaves leaves state
    case h_9 query =>
      apply Ensures.bind
      · apply (ensures_begin_leaves actor query).strengthen
        intro exchange rests
        exact rests.ready state (fine rfl)
      · rintro ⟨result, after⟩
        cases result with
        | ok columns =>
            apply Ensures.pure
            intro exchange begun
            exact begun
        | error error =>
            apply Ensures.pure
            intro exchange begun
            exact rests_of_leaves begun state
    case h_10 columnBytes numColumns numRows =>
      apply Ensures.bind
      · apply (ensures_send_settled actor state columnBytes numColumns numRows).strengthen
        intro exchange rests
        exact rests.under state
      · intro result
        apply Ensures.pure
        intro exchange settled
        exact settled
    case h_11 =>
      apply Ensures.bind
      · apply (ensures_finish_leaves actor).strengthen
        intro exchange rests
        exact rests.under state
      · intro result
        apply Ensures.pure
        intro exchange leaves
        exact ⟨leaves.1, leaves.2.2⟩
    case h_12 query =>
      apply Ensures.bind
      · apply (ensures_stream_leaves actor query).strengthen
        intro exchange rests
        exact rests.ready state (fine rfl)
      · intro result
        apply Ensures.pure
        intro exchange leaves
        exact rests_of_leaves leaves state
    all_goals exact ensures_refuse_rests _ _ session

end Actor

/-! ## Runs of commands -/

/-- A connection: the actor, what is between it and the server, and the numbers of its last
command and of the one that opened its last INSERT. -/
structure System where
  actor : Actor
  exchange : Exchange := {}
  commands : Nat := 0
  session : Nat := 0

/-- What happens on a connection. -/
inductive Happening
  /-- The handle or the reader sets the flag. -/
  | poisoned
  /-- A packet arrives between commands. -/
  | arrived
  | handled (cmd : ConnectionCmd) (events : List Event) (reply : Reply)

namespace System

/-- The number a command is handled under. -/
def serial (system : System) (cmd : ConnectionCmd) : Nat :=
  Actor.serial system.session (system.commands + 1) cmd

def Step (system : System) (happening : Happening) (next : System) : Prop :=
  match happening with
  | .poisoned => next = { system with actor := system.actor.poison }
  | .arrived => ∃ exchange, Arrives system.exchange exchange ∧ next = { system with exchange }
  | .handled cmd events reply =>
      ∃ after exchange, (system.actor.handle cmd).run events = .done (reply, after) [] ∧
        Runs (Moves (system.serial cmd)) system.exchange events exchange ∧
        next =
          { actor := after
            exchange
            commands := if cmd.continuesInsert then system.commands else system.commands + 1
            session := Actor.sessionAfter (system.serial cmd) system.session reply }

theorem step_rests {system next : System} {happening : Happening}
    (rests : system.actor.Rests system.session system.exchange)
    (stepped : system.Step happening next) : next.actor.Rests next.session next.exchange := by
  cases happening with
  | poisoned =>
      cases stepped
      refine ⟨rests.1, ?_⟩
      have settled := rests.2
      unfold Actor.Settled at settled ⊢
      dsimp only
      rw [Actor.poison_state]
      split at settled
      · exact settled
      · exact nofun
  | arrived =>
      obtain ⟨exchange, arrives, rfl⟩ := stepped
      exact rests.arrives (.single arrives)
  | handled cmd events reply =>
      obtain ⟨after, exchange, ran, moved, rfl⟩ := stepped
      have ensures := system.actor.ensures_handle_rests cmd system.session (system.commands + 1)
      exact (ensures system.exchange events rests).1 _ events [] (by simp) ran exchange moved

theorem runs_rests {readTimeout : Option Nat} {happenings : List Happening} {system : System}
    (runs : Runs Step { actor := { readTimeout } } happenings system) :
    system.actor.Rests system.session system.exchange := by
  apply @Runs.keeps _ _ Step
    (fun _ system => system.actor.Rests system.session system.exchange) _ [] happenings
      _ system _ runs
  · intro history world happening next rests stepped
    exact step_rests rests stepped
  · exact ⟨nofun, fun _ => ⟨rfl, rfl⟩⟩

end System

/-- Whether an event is a write or takes a packet. -/
def Event.touches : Event → Bool
  | .wrote _ | .writeFailed .. | .received (.packet _) => true
  | _ => false

/-- In every run, whatever the awaits resolve to and however the packets arrive: a Ping, a
query, a stream or a new INSERT that is not rejected as poisoned finds nothing of an earlier
command queued or to be sent, or finds an INSERT open and is refused without a write or a
packet; and every packet a command takes was sent for that command. -/
theorem noCrossTalk {readTimeout : Option Nat} {happenings : List Happening} {system : System}
    (runs : Runs System.Step { actor := { readTimeout } } happenings system) :
    (∀ cmd, cmd.continuesInsert = false → system.actor.poisoned = false →
      system.actor.state = .idle ∧ system.exchange.Clear ∨
      system.actor.state = .insertActive ∧
        ∀ events, system.actor.Takes cmd events → Free Event.touches events) ∧
    ∀ cmd events exchange, system.actor.Takes cmd events →
      Runs (Moves (system.serial cmd)) system.exchange events exchange → exchange.Own := by
  have rests := System.runs_rests runs
  constructor
  · intro cmd fresh fine
    cases state : system.actor.state with
    | idle => exact .inl ⟨rfl, (rests.ready state fine).2⟩
    | insertActive =>
        refine .inr ⟨rfl, ?_⟩
        have refused : system.actor.refuses cmd = true := by
          rw [Actor.refuses, fresh, state]
          simp
        have ensures := @Actor.ensures_refused_free _ _ Event.touches rfl rfl refused
        rintro events (waits | ⟨reply, after, ran⟩)
        · exact (ensures [] events (free_nil _)).2 waits events (runs_record_iff.mpr rfl)
        · exact (ensures.of_start (free_nil _) ran).1
  · intro cmd events exchange takes moved
    have ensures := system.actor.ensures_handle_rests cmd system.session (system.commands + 1)
    obtain ⟨returns, waits⟩ := ensures system.exchange events rests
    rcases takes with waiting | ⟨reply, after, ran⟩
    · exact waits waiting exchange moved
    · exact (returns _ events [] (by simp) ran exchange moved).1

def selectOneQuery : Query :=
  { queryId := "", query := "SELECT 1" }

/-- A stream whose caller goes away. -/
def droppedStream : List Happening :=
  [.handled (.executeStream selectOneQuery)
    [.wrote (.query selectOneQuery), .wrote .emptyBlock, .callerGone, .wrote .cancel,
      .received (.packet .endOfStream)] (.streamed [])]

/-- The connection after it. -/
def afterDroppedStream : System where
  actor := {}
  exchange := { taken := [⟨⟨1, .endOfStream⟩, 1⟩] }
  commands := 1

theorem noCrossTalk_droppedStream :
    Runs System.Step { actor := { readTimeout := none } } droppedStream afterDroppedStream ∧
      afterDroppedStream.exchange.Clear := by
  have arrives : Relation.ReflTransGen Arrives { owed := [(1, .query)] }
      { inbox := [⟨1, .endOfStream⟩] } :=
    .single ⟨1, .query, [], .endOfStream, rfl, rfl⟩
  have runs : Runs System.Step { actor := { readTimeout := none } } droppedStream
      afterDroppedStream :=
    ⟨_, ⟨_, _, rfl, ⟨_, ⟨_, .refl, rfl⟩, _, ⟨_, .refl, rfl⟩, _, ⟨_, .refl, rfl⟩, _, ⟨_, .refl, rfl⟩,
      _, ⟨_, arrives, 1, [], rfl, rfl⟩, rfl⟩, rfl⟩, rfl⟩
  refine ⟨runs, ?_⟩
  rcases (noCrossTalk runs).1 .ping rfl rfl with ⟨_, clear⟩ | ⟨active, _⟩
  · exact clear
  · cases active

/-- Every command but those of an open INSERT starts with nothing queued or to be sent, unless
the connection is poisoned. -/
def StartsClear : Prop :=
  ∀ (readTimeout : Option Nat) (happenings : List Happening) (system : System)
    (cmd : ConnectionCmd), Runs System.Step { actor := { readTimeout } } happenings system →
    cmd.continuesInsert = false → system.actor.poisoned = false → system.exchange.Clear

def insertQuery : Query :=
  { queryId := "", query := "INSERT INTO t FORMAT Native" }

/-- A Ping while an INSERT is open: the end of the INSERT is still to be sent. -/
theorem startsClear_fails_busy : ¬ StartsClear := by
  intro starts
  have arrives : Relation.ReflTransGen Arrives { owed := [(1, .query)] }
      { inbox := [⟨1, .data 0 [("a", "UInt8")]⟩], owed := [(1, .query)] } :=
    .single ⟨1, .query, [], .data 0 [("a", "UInt8")], rfl, rfl⟩
  have runs : Runs System.Step { actor := { readTimeout := none } }
      [.handled (.beginInsert insertQuery) [.wrote (.query insertQuery), .wrote .emptyBlock,
        .received (.packet (.data 0 [("a", "UInt8")]))] (.opened (.ok [("a", "UInt8")]))]
      { actor := { state := .insertActive }
        exchange := { owed := [(1, .query)], taken := [⟨⟨1, .data 0 [("a", "UInt8")]⟩, 1⟩] }
        commands := 1
        session := 1 } :=
    ⟨_, ⟨_, _, rfl, ⟨_, ⟨_, .refl, rfl⟩, _, ⟨_, .refl, rfl⟩, _, ⟨_, arrives, 1, [], rfl, rfl⟩, rfl⟩,
      rfl⟩, rfl⟩
  have clear := starts none _ _ .ping runs rfl rfl
  cases clear.2

end DfeClickhouse.Tcp

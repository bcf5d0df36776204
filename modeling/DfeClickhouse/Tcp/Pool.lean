import DfeClickhouse.Library.Machine
import DfeClickhouse.Tcp.InsertState

/-!
# Pooled connections

One connection of the pool, its actor and the caller that has it checked out.  The
caller's future, session or cursor may be dropped wherever it waits; the actor handles
what was queued all the same.
-/

namespace DfeClickhouse.Tcp

open Library Script

/-- Why a recycled connection is refused, or `none` to reuse it. -/
def recycleRefusal (maxLifetime : Option Nat) (createdElapsed : Nat) (isAlive : Bool) :
    Option String :=
  if maxLifetime.any fun max => max ≤ createdElapsed then some "connection exceeded max_lifetime"
  else if isAlive then none
  else some "connection poisoned"

/-- Poison the connection unless the server merely rejected the statement. -/
def poisonUnlessServerRejected (actor : Actor) : Error → Actor
  | .serverException .. => actor
  | _ => actor.poison

/-- The actor after its caller has looked at a result. -/
def poisonOnError {α : Type} (actor : Actor) : Except Error α → Actor
  | .ok _ => actor
  | .error error => poisonUnlessServerRejected actor error

/-- Who has the connection. -/
inductive Holder
  /-- Nobody: its object is in the pool. -/
  | pool
  /-- A caller that has not called anything yet. -/
  | acquired
  /-- A caller whose future waits for the command to be queued, then for the reply. -/
  | calling (cmd : ConnectionCmd) (queued : Bool)
  /-- A `TcpInsertSession` that is not settled. -/
  | session
  /-- A `TcpRawCursor` with its pool slot. -/
  | cursor

/-- A connection of the pool. -/
structure Pooled where
  actor : Actor
  holder : Holder
  queue : List ConnectionCmd := []
  /-- The command in the actor's hands, and the flag when it took it. -/
  current : Option (ConnectionCmd × Bool) := none
  /-- The reply to the command that was queued last. -/
  answered : Option Reply := none

/-- What the pool, the caller, the actor and the reader do. -/
inductive Pooled.Action
  | acquire (maxLifetime : Option Nat) (createdElapsed : Nat)
  /-- The caller, or its session, starts a call. -/
  | call (cmd : ConnectionCmd)
  /-- The command is in the channel. -/
  | enqueue
  /-- The caller gets the reply. -/
  | hear
  /-- The actor is gone: the channel is closed, or the reply is lost. -/
  | lose
  /-- The future, the session or the cursor is dropped. -/
  | drop
  /-- The session is aborted. -/
  | abort
  /-- The actor takes the next command. -/
  | take
  /-- The actor is done with it, after these events. -/
  | finish (events : List Event)
  /-- The reader fails. -/
  | poison

namespace Pooled

/-- The object goes back. -/
def release (pooled : Pooled) (actor : Actor) : Pooled :=
  { pooled with actor, holder := .pool }

/-- What dropping does: the guards of an INSERT poison before the object goes back; a
block's future leaves its session behind. -/
def dropped (pooled : Pooled) : Option Pooled :=
  match pooled.holder with
  | .pool => none
  | .calling (.sendInsertBlock ..) _ => some { pooled with holder := .session }
  | .calling (.beginInsert _) _ | .calling .finishInsert _ | .session =>
      some (pooled.release pooled.actor.poison)
  | .acquired | .calling .. | .cursor => some (pooled.release pooled.actor)

/-- What an error of the channel does. -/
def lost (pooled : Pooled) : Option Pooled :=
  match pooled.holder with
  | .calling (.sendInsertBlock ..) _ =>
      some { pooled with actor := pooled.actor.poison, holder := .session }
  | .calling .. => some (pooled.release pooled.actor.poison)
  | _ => none

/-- What the reply to a call does. -/
def heard (pooled : Pooled) (cmd : ConnectionCmd) : Reply → Option Pooled
  | .opened (.ok _) =>
      match cmd with
      | .beginInsert _ => some { pooled with holder := .session }
      | _ => none
  | .opened (.error error) =>
      match cmd with
      | .beginInsert _ => some (pooled.release (poisonUnlessServerRejected pooled.actor error))
      | _ => none
  | .answered result =>
      match cmd with
      | .executeQuery _ | .finishInsert =>
          some (pooled.release (poisonOnError pooled.actor result))
      | .sendInsertBlock .. =>
          some { pooled with actor := poisonOnError pooled.actor result, holder := .session }
      | _ => none
  | _ => none

/-- Whether a command may be called by a holder. -/
def mayCall : Holder → ConnectionCmd → Bool
  | .acquired, .executeQuery _ | .acquired, .executeStream _ | .acquired, .beginInsert _ => true
  | .session, .sendInsertBlock .. | .session, .finishInsert => true
  | _, _ => false

/-- One step of the connection. -/
def step (pooled : Pooled) : Action → Option Pooled
  | .acquire maxLifetime createdElapsed =>
      match pooled.holder, recycleRefusal maxLifetime createdElapsed !pooled.actor.poisoned with
      | .pool, none => some { pooled with holder := .acquired }
      | _, _ => none
  | .call cmd =>
      if mayCall pooled.holder cmd then some { pooled with holder := .calling cmd false } else none
  | .enqueue =>
      match pooled.holder with
      | .calling cmd false =>
          let holder := match cmd with
            | .executeStream _ => .cursor
            | _ => .calling cmd true
          some { pooled with holder, queue := pooled.queue ++ [cmd], answered := none }
      | _ => none
  | .hear =>
      match pooled.holder, pooled.answered with
      | .calling cmd true, some reply => pooled.heard cmd reply
      | _, _ => none
  | .lose => pooled.lost
  | .drop => pooled.dropped
  | .abort =>
      match pooled.holder with
      | .session => some (pooled.release pooled.actor.poison)
      | _ => none
  | .take =>
      match pooled.current, pooled.queue with
      | none, cmd :: queue =>
          some { pooled with queue, current := some (cmd, pooled.actor.poisoned) }
      | _, _ => none
  | .finish events =>
      match pooled.current with
      | none => none
      | some (cmd, poisoned) =>
          match ({ pooled.actor with poisoned }.handle cmd).run events with
          | .done (reply, after) [] =>
              some { pooled with
                -- Someone else may have set the flag meanwhile.
                actor := { after with poisoned := after.poisoned || pooled.actor.poisoned }
                current := none
                answered := if pooled.queue = [] then some reply else none }
          | _ => none
  | .poison => some { pooled with actor := pooled.actor.poison }

/-- A connection that was just opened for a caller. -/
def fresh (readTimeout : Option Nat) : Pooled where
  actor := { readTimeout }
  holder := .acquired

/-- The commands the actor has not answered yet. -/
def pending (pooled : Pooled) : List ConnectionCmd :=
  pooled.current.toList.map (·.1) ++ pooled.queue

/-- Whether a command leaves an idle actor idle, whatever comes of it. -/
def isPlain : ConnectionCmd → Bool
  | .ping | .executeQuery _ | .executeStream _ => true
  | _ => false

/-- The actor is idle, and no INSERT waits for it. -/
def Calm (pooled : Pooled) : Prop :=
  pooled.actor.state = .idle ∧ ∀ cmd ∈ pooled.pending, isPlain cmd = true

/-- What is required before the object goes back. -/
def Returnable (pooled : Pooled) : Prop :=
  pooled.actor.poisoned = true ∨ pooled.Calm

/-- A BeginInsert is the last command: it waits for an idle actor, or was answered. -/
def Opening (pooled : Pooled) : Prop :=
  (pooled.actor.state = .idle ∧ pooled.answered = none ∧ ∃ before query,
    pooled.pending = before ++ [.beginInsert query] ∧ ∀ cmd ∈ before, isPlain cmd = true) ∨
  pooled.pending = [] ∧ ∃ reply, pooled.answered = some reply ∧
    ((∀ columns, reply ≠ .opened (.ok columns)) → pooled.actor.state = .idle)

/-- A FinishInsert is the last command: it waits, or the actor is idle after it. -/
def Closing (pooled : Pooled) : Prop :=
  (pooled.answered = none ∧ ∃ before, pooled.pending = before ++ [.finishInsert]) ∨
  pooled.pending = [] ∧ pooled.actor.state = .idle

/-- What holds at each stage of the caller. -/
def Invariant (pooled : Pooled) : Prop :=
  match pooled.holder with
  | .calling (.beginInsert _) true => pooled.actor.poisoned = true ∨ pooled.Opening
  | .calling .finishInsert true => pooled.Closing
  | .calling (.sendInsertBlock ..) _ | .calling .finishInsert false | .session => True
  | _ => pooled.Returnable

variable {pooled next : Pooled}

theorem take_cases (stepped : pooled.step .take = some next) :
    ∃ cmd queue, pooled.current = none ∧ pooled.queue = cmd :: queue ∧
      next = { pooled with queue, current := some (cmd, pooled.actor.poisoned) } := by
  unfold step at stepped
  dsimp only at stepped
  split at stepped
  · rename_i cmd queue current queued
    cases stepped
    exact ⟨cmd, queue, current, queued, rfl⟩
  · cases stepped

theorem finish_cases {events : List Event} (stepped : pooled.step (.finish events) = some next) :
    ∃ cmd poisoned reply after, pooled.current = some (cmd, poisoned) ∧
      Advances { pooled.actor with poisoned } cmd reply after events ∧
      next = { pooled with
        actor := { after with poisoned := after.poisoned || pooled.actor.poisoned }
        current := none
        answered := if pooled.queue = [] then some reply else none } := by
  unfold step at stepped
  dsimp only at stepped
  split at stepped
  · cases stepped
  · rename_i cmd poisoned current
    split at stepped
    · rename_i reply after ran
      cases stepped
      exact ⟨cmd, poisoned, reply, after, current,
        (Actor.ensures_handle _ cmd).of_done ran, rfl⟩
    · cases stepped

/-- A command that opens no INSERT leaves an idle actor idle. -/
theorem idle_of_advances {actor after : Actor} {cmd : ConnectionCmd} {reply : Reply}
    {events : List Event} (advances : Advances actor cmd reply after events)
    (idle : actor.state = .idle) (unopened : ¬ Opens cmd reply) : after.state = .idle := by
  cases state : after.state with
  | idle => rfl
  | insertActive =>
      rcases advances.state.mp state with opens | ⟨active, -⟩
      · exact absurd opens unopened
      · rw [idle] at active
        cases active

/-- What the actor and the reader do by themselves. -/
def Action.isActors : Action → Bool
  | .take | .finish _ | .poison => true
  | _ => false

/-- The actor handles what is queued, and its caller's stage stays. -/
theorem actors_holder {action : Action} (actors : action.isActors = true)
    (stepped : pooled.step action = some next) : next.holder = pooled.holder := by
  cases action with
  | take =>
      obtain ⟨_, _, -, -, rfl⟩ := take_cases stepped
      rfl
  | finish events =>
      obtain ⟨_, _, _, _, -, -, rfl⟩ := finish_cases stepped
      rfl
  | poison =>
      cases stepped
      rfl
  | _ => cases actors

theorem actors_poisoned {action : Action} (actors : action.isActors = true)
    (poisoned : pooled.actor.poisoned = true) (stepped : pooled.step action = some next) :
    next.actor.poisoned = true := by
  cases action with
  | take =>
      obtain ⟨_, _, -, -, rfl⟩ := take_cases stepped
      exact poisoned
  | finish events =>
      obtain ⟨_, _, _, _, -, -, rfl⟩ := finish_cases stepped
      simp [poisoned]
  | poison =>
      cases stepped
      rfl
  | _ => cases actors

theorem actors_calm {action : Action} (actors : action.isActors = true) (calm : pooled.Calm)
    (stepped : pooled.step action = some next) : next.Calm := by
  obtain ⟨idle, plain⟩ := calm
  cases action with
  | take =>
      obtain ⟨cmd, queue, current, queued, rfl⟩ := take_cases stepped
      refine ⟨idle, ?_⟩
      simpa [pending, current, queued] using plain
  | finish events =>
      obtain ⟨cmd, poisoned, reply, after, current, advances, rfl⟩ := finish_cases stepped
      have stays : after.state = .idle := by
        apply idle_of_advances advances
        · exact idle
        · rintro ⟨query, columns, rfl, -⟩
          cases plain (.beginInsert query) (by simp [pending, current])
      refine ⟨stays, ?_⟩
      intro later member
      exact plain later (by simp_all [pending])
  | poison =>
      cases stepped
      exact ⟨idle, plain⟩
  | _ => cases actors

/-- The last of the pending commands is in the actor's hands only if nothing is queued. -/
theorem pending_cases {cmd last : ConnectionCmd} {poisoned : Bool} {before : List ConnectionCmd}
    (current : pooled.current = some (cmd, poisoned))
    (pending : pooled.pending = before ++ [last]) :
    before = [] ∧ cmd = last ∧ pooled.queue = [] ∨
      ∃ rest, before = cmd :: rest ∧ pooled.queue = rest ++ [last] := by
  rw [Pooled.pending, current] at pending
  change cmd :: pooled.queue = before ++ [last] at pending
  cases before with
  | nil =>
      obtain ⟨rfl, queue⟩ := List.cons.inj pending
      exact .inl ⟨rfl, rfl, queue⟩
  | cons head rest =>
      obtain ⟨rfl, queue⟩ := List.cons.inj pending
      exact .inr ⟨rest, rfl, queue⟩

theorem actors_opening {action : Action} (actors : action.isActors = true)
    (opening : pooled.Opening) (stepped : pooled.step action = some next) : next.Opening := by
  cases action with
  | take =>
      obtain ⟨cmd, queue, current, queued, rfl⟩ := take_cases stepped
      have same : Pooled.pending { pooled with
          queue, current := some (cmd, pooled.actor.poisoned) } = pooled.pending := by
        simp [pending, current, queued]
      unfold Opening at opening ⊢
      rw [same]
      exact opening
  | finish events =>
      obtain ⟨cmd, poisoned, reply, after, current, advances, rfl⟩ := finish_cases stepped
      rcases opening with ⟨idle, -, before, query, pending, plain⟩ | ⟨pending, -⟩
      · rcases pending_cases current pending with ⟨-, rfl, queue⟩ | ⟨rest, rfl, queue⟩
        · refine .inr ⟨by simpa [Pooled.pending] using queue, reply, by simp [queue], ?_⟩
          intro unopened
          apply idle_of_advances advances
          · exact idle
          · rintro ⟨_, columns, -, opened⟩
            exact unopened columns opened
        · refine .inl ⟨?_, by simp [queue], rest, query, by simpa [Pooled.pending] using queue, ?_⟩
          · apply idle_of_advances advances
            · exact idle
            · rintro ⟨_, _, rfl, -⟩
              cases plain _ List.mem_cons_self
          · intro later member
            exact plain later (List.mem_cons_of_mem _ member)
      · simp [Pooled.pending, current] at pending
  | poison =>
      cases stepped
      exact opening
  | _ => cases actors

theorem actors_closing {action : Action} (actors : action.isActors = true)
    (closing : pooled.Closing) (stepped : pooled.step action = some next) : next.Closing := by
  cases action with
  | take =>
      obtain ⟨cmd, queue, current, queued, rfl⟩ := take_cases stepped
      have same : Pooled.pending { pooled with
          queue, current := some (cmd, pooled.actor.poisoned) } = pooled.pending := by
        simp [pending, current, queued]
      unfold Closing at closing ⊢
      rw [same]
      exact closing
  | finish events =>
      obtain ⟨cmd, poisoned, reply, after, current, advances, rfl⟩ := finish_cases stepped
      rcases closing with ⟨-, before, pending⟩ | ⟨pending, -⟩
      · rcases pending_cases current pending with ⟨-, rfl, queue⟩ | ⟨rest, rfl, queue⟩
        · refine .inr ⟨by simpa [Pooled.pending] using queue, ?_⟩
          cases state : after.state with
          | idle => rfl
          | insertActive =>
              rcases advances.state.mp state with ⟨_, _, opens, -⟩ | ⟨-, going⟩
              · cases opens
              · exact absurd (.inl rfl) going
        · exact .inl ⟨by simp [queue], rest, by simpa [Pooled.pending] using queue⟩
      · simp [Pooled.pending, current] at pending
  | poison =>
      cases stepped
      exact closing
  | _ => cases actors

/-- The invariant is kept while the caller waits. -/
theorem actors_invariant {action : Action} (actors : action.isActors = true)
    (held : pooled.Invariant) (stepped : pooled.step action = some next) : next.Invariant := by
  unfold Invariant at held ⊢
  rw [actors_holder actors stepped]
  split at held
  · rcases held with poisoned | opening
    · exact .inl (actors_poisoned actors poisoned stepped)
    · exact .inr (actors_opening actors opening stepped)
  · exact actors_closing actors held stepped
  · trivial
  · trivial
  · trivial
  · rcases held with poisoned | calm
    · exact .inl (actors_poisoned actors poisoned stepped)
    · exact .inr (actors_calm actors calm stepped)

theorem release_poisoned (pooled : Pooled) : (pooled.release pooled.actor.poison).Invariant :=
  .inl rfl

/-- An object goes back from where the actor is calm. -/
theorem release_returnable {actor : Actor} (state : actor.state = pooled.actor.state)
    (flag : pooled.actor.poisoned = true → actor.poisoned = true)
    (returnable : pooled.Returnable) : (pooled.release actor).Invariant := by
  rcases returnable with poisoned | ⟨idle, plain⟩
  · exact .inl (flag poisoned)
  · exact .inr ⟨state.trans idle, plain⟩

@[simp] theorem poisonUnlessServerRejected_state (actor : Actor) (error : Error) :
    (poisonUnlessServerRejected actor error).state = actor.state := by
  unfold poisonUnlessServerRejected
  split <;> rfl

theorem poisonUnlessServerRejected_flag {actor : Actor} (error : Error)
    (poisoned : actor.poisoned = true) :
    (poisonUnlessServerRejected actor error).poisoned = true := by
  unfold poisonUnlessServerRejected
  split
  · exact poisoned
  · rfl

@[simp, grind =] theorem poisonOnError_state {α : Type} (actor : Actor) (result : Except Error α) :
    (poisonOnError actor result).state = actor.state := by
  cases result with
  | ok value => rfl
  | error error => exact poisonUnlessServerRejected_state actor error

theorem poisonOnError_flag {α : Type} {actor : Actor} (result : Except Error α)
    (poisoned : actor.poisoned = true) : (poisonOnError actor result).poisoned = true := by
  cases result with
  | ok value => exact poisoned
  | error error => exact poisonUnlessServerRejected_flag error poisoned

theorem dropped_invariant (held : pooled.Invariant) (stepped : pooled.dropped = some next) :
    next.Invariant := by
  have returns : pooled.Returnable → (pooled.release pooled.actor).Invariant :=
    release_returnable rfl id
  unfold dropped at stepped
  unfold Invariant at held
  split at stepped <;> cases stepped
  case h_2 => trivial
  case h_6 holder => exact returns (by rw [holder] at held; exact held)
  case h_7 cmd queued notSend notBegin notFinish holder =>
    rw [holder] at held
    cases cmd with
    | sendInsertBlock => exact absurd rfl (notSend _ _ _)
    | beginInsert => exact absurd rfl (notBegin _)
    | finishInsert => exact absurd rfl notFinish
    | _ => exact returns held
  case h_8 holder => exact returns (by rw [holder] at held; exact held)
  all_goals exact release_poisoned pooled

theorem lost_invariant (stepped : pooled.lost = some next) : next.Invariant := by
  unfold lost at stepped
  split at stepped <;> cases stepped
  · trivial
  · exact release_poisoned pooled

/-- A reply that is there has ended a BeginInsert. -/
theorem Opening.heard {reply : Reply} (opening : pooled.Opening)
    (answered : pooled.answered = some reply)
    (unopened : ∀ columns, reply ≠ .opened (.ok columns)) :
    pooled.Calm := by
  rcases opening with ⟨-, unanswered, -⟩ | ⟨pending, other, answered', idle⟩
  · rw [answered] at unanswered
    cases unanswered
  · rw [answered] at answered'
    cases answered'
    exact ⟨idle unopened, by simp [pending]⟩

theorem Closing.heard {reply : Reply} (closing : pooled.Closing)
    (answered : pooled.answered = some reply) : pooled.Calm := by
  rcases closing with ⟨unanswered, -⟩ | ⟨pending, idle⟩
  · rw [answered] at unanswered
    cases unanswered
  · exact ⟨idle, by simp [pending]⟩

theorem heard_invariant {cmd : ConnectionCmd} {reply : Reply} (held : pooled.Invariant)
    (holder : pooled.holder = .calling cmd true) (answered : pooled.answered = some reply)
    (stepped : pooled.heard cmd reply = some next) : next.Invariant := by
  unfold Invariant at held
  rw [holder] at held
  unfold heard at stepped
  cases reply with
  | opened result =>
      cases cmd with
      | beginInsert query =>
          cases result with
          | ok columns =>
              cases stepped
              trivial
          | error error =>
              cases stepped
              apply release_returnable (poisonUnlessServerRejected_state _ error)
                (poisonUnlessServerRejected_flag error)
              rcases held with poisoned | opening
              · exact .inl poisoned
              · exact .inr (opening.heard answered nofun)
      | _ => cases result <;> cases stepped
  | answered result =>
      have releases : pooled.Returnable →
          (pooled.release (poisonOnError pooled.actor result)).Invariant :=
        release_returnable (poisonOnError_state _ result) (poisonOnError_flag result)
      cases cmd with
      | executeQuery query =>
          cases stepped
          exact releases held
      | finishInsert =>
          cases stepped
          exact releases (.inr (Closing.heard held answered))
      | sendInsertBlock columnBytes numColumns numRows =>
          cases stepped
          trivial
      | _ => cases stepped
  | _ => cases stepped

/-- A plain command waits behind what is pending. -/
theorem calm_append {cmd : ConnectionCmd} {holder : Holder} (plain : isPlain cmd = true)
    (calm : pooled.Calm) :
    Calm { pooled with holder, queue := pooled.queue ++ [cmd], answered := none } := by
  refine ⟨calm.1, ?_⟩
  intro later member
  rw [pending, ← List.append_assoc] at member
  rcases List.mem_append.mp member with member | member
  · exact calm.2 later member
  · rw [List.mem_singleton.mp member]
    exact plain

theorem enqueue_invariant (held : pooled.Invariant)
    (stepped : pooled.step .enqueue = some next) : next.Invariant := by
  unfold step at stepped
  dsimp only at stepped
  split at stepped
  · rename_i cmd holder
    unfold Invariant at held
    rw [holder] at held
    cases cmd with
    | executeStream query =>
        cases stepped
        exact held.imp id (calm_append rfl)
    | executeQuery query =>
        cases stepped
        exact held.imp id (calm_append rfl)
    | ping =>
        cases stepped
        exact held.imp id (calm_append rfl)
    | sendInsertBlock columnBytes numColumns numRows =>
        cases stepped
        trivial
    | beginInsert query =>
        cases stepped
        rcases held with poisoned | ⟨idle, plain⟩
        · exact .inl poisoned
        · exact .inr (.inl ⟨idle, rfl, pooled.pending, query, by simp [pending], plain⟩)
    | finishInsert =>
        cases stepped
        exact .inl ⟨rfl, pooled.pending, by simp [pending]⟩
  · cases stepped

/-- A call starts where its holder may make it. -/
theorem call_invariant {cmd : ConnectionCmd} (held : pooled.Invariant)
    (stepped : pooled.step (.call cmd) = some next) : next.Invariant := by
  unfold step at stepped
  dsimp only at stepped
  split at stepped
  · rename_i may
    cases stepped
    unfold mayCall at may
    unfold Invariant at held
    split at may
    all_goals first
      | trivial
      | rename_i holder
        rw [holder] at held
        exact held
  · cases stepped

theorem step_invariant {action : Action} (held : pooled.Invariant)
    (stepped : pooled.step action = some next) : next.Invariant := by
  cases action with
  | acquire maxLifetime createdElapsed =>
      unfold step at stepped
      dsimp only at stepped
      split at stepped
      · rename_i holder _
        cases stepped
        unfold Invariant at held
        rw [holder] at held
        exact held
      · cases stepped
  | call cmd => exact call_invariant held stepped
  | enqueue => exact enqueue_invariant held stepped
  | hear =>
      unfold step at stepped
      dsimp only at stepped
      split at stepped
      · rename_i cmd reply holder answered
        exact heard_invariant held holder answered stepped
      · cases stepped
  | lose => exact lost_invariant stepped
  | drop => exact dropped_invariant held stepped
  | abort =>
      unfold step at stepped
      dsimp only at stepped
      split at stepped <;> cases stepped
      exact release_poisoned pooled
  | take => exact actors_invariant rfl held stepped
  | finish events => exact actors_invariant rfl held stepped
  | poison => exact actors_invariant rfl held stepped

/-- A poisoned connection is never handed out again. -/
theorem acquire_refused (poisoned : pooled.actor.poisoned = true) (maxLifetime : Option Nat)
    (createdElapsed : Nat) : pooled.step (.acquire maxLifetime createdElapsed) = none := by
  unfold step
  rw [poisoned]
  dsimp only
  split
  · rename_i unrefused
    unfold recycleRefusal at unrefused
    split at unrefused <;> cases unrefused
  · rfl

/-- Whenever the object of a connection is in the pool, the connection is poisoned and
not handed out again, or the actor is idle once it has handled what is queued. -/
theorem returned_idle {readTimeout : Option Nat} {actions : List Action}
    (runs : Machine.run step (fresh readTimeout) actions = some pooled)
    (returned : pooled.holder = .pool) :
    (pooled.actor.poisoned = true ∧
      ∀ maxLifetime createdElapsed, pooled.step (.acquire maxLifetime createdElapsed) = none) ∨
    ∀ later final, (∀ action ∈ later, action.isActors = true) →
      Machine.run step pooled later = some final → final.pending = [] →
      final.actor.state = .idle := by
  have held : pooled.Invariant := by
    apply Machine.run_keeps ?_ ?_ runs
    · intro pooled action next held stepped
      exact step_invariant held stepped
    · exact .inr ⟨rfl, by simp [fresh, pending]⟩
  unfold Invariant at held
  rw [returned] at held
  rcases held with poisoned | calm
  · exact .inl ⟨poisoned, acquire_refused poisoned⟩
  · right
    intro later final actors handled _
    have calm' : final.Calm := by
      apply Machine.run_keeps_of_mem ?_ calm handled
      intro pooled action next member calm stepped
      exact actors_calm (actors action member) calm stepped
    exact calm'.1

/-- The caller goes away while the actor opens an INSERT. -/
def abandonedInsert : List Action :=
  let insert : Query := { queryId := "", query := "INSERT INTO t VALUES" }
  [.call (.beginInsert insert), .enqueue, .take, .drop,
    .finish [.wrote (.query insert), .wrote .emptyBlock,
      .received (.packet (.data 0 [("a", "UInt8")]))]]

/-- Its INSERT is open, and the connection is not handed out again. -/
theorem returned_idle_abandonedInsert :
    ∃ pooled, Machine.run step (fresh none) abandonedInsert = some pooled ∧
      pooled.holder = .pool ∧ pooled.actor.state = .insertActive ∧
      ((pooled.actor.poisoned = true ∧
        ∀ maxLifetime createdElapsed, pooled.step (.acquire maxLifetime createdElapsed) = none) ∨
      ∀ later final, (∀ action ∈ later, action.isActors = true) →
        Machine.run step pooled later = some final → final.pending = [] →
        final.actor.state = .idle) := by
  obtain ⟨pooled, runs⟩ : ∃ pooled, Machine.run step (fresh none) abandonedInsert = some pooled :=
    ⟨_, rfl⟩
  have state : pooled.holder = .pool ∧ pooled.actor.state = .insertActive := by
    cases runs
    exact ⟨rfl, rfl⟩
  exact ⟨pooled, runs, state.1, state.2, returned_idle runs state.1⟩

end Pooled

end DfeClickhouse.Tcp

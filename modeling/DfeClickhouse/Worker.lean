import DfeClickhouse.Library.Machine

/-!
# Command workers

A worker's task takes commands from a bounded channel, one at a time, until it finds
the shutdown signal.  The signal, the senders and the task interleave at every poll.
-/

namespace DfeClickhouse

open Library

variable {C : Type}

/-- Where the task of a worker stands. -/
inductive Worker.Phase (C : Type)
  /-- About to poll the shutdown signal, the first branch of the select. -/
  | selecting
  /-- The signal was not there; about to poll the command channel. -/
  | unsignalled
  /-- The channel was empty as well; only a tick or a wake-up goes on. -/
  | parked
  | handling (cmd : C)
  | idling
  /-- Out of the loop, in `on_shutdown`. -/
  | stopping
  | exited

/-- A worker, its channel and its shutdown signal. -/
structure Worker (C : Type) where
  /-- How many commands the channel holds. -/
  capacity : Nat
  /-- Whether an idle interval is configured. -/
  ticking : Bool
  phase : Worker.Phase C := .selecting
  queue : List C := []
  shutdown : Bool := false
  /-- The commands whose send has completed, in order. -/
  sent : List C := []
  /-- The commands passed to `handle`, in order. -/
  handled : List C := []

/-- What the senders, the owner and the task do. -/
inductive Worker.Action (C : Type)
  | send (cmd : C)
  /-- `WorkerControl` is dropped or shut down. -/
  | signal
  /-- Poll the shutdown signal. -/
  | poll
  /-- Poll the command channel. -/
  | recv
  /-- The channel is closed: its owner and all handles are gone. -/
  | disconnect
  /-- The idle interval elapses. -/
  | tick
  /-- A parked select is polled again. -/
  | wake
  /-- `handle` or `on_idle` returns. -/
  | finish
  /-- `on_shutdown` returns. -/
  | exit

namespace Worker

/-- One step of the system. -/
def step (worker : Worker C) : Action C → Option (Worker C)
  | .send cmd =>
      match worker.phase with
      | .exited => none
      | _ =>
          if worker.queue.length < worker.capacity then
            some { worker with queue := worker.queue ++ [cmd], sent := worker.sent ++ [cmd] }
          else none
  | .signal => if worker.shutdown then none else some { worker with shutdown := true }
  | .poll =>
      match worker.phase with
      | .selecting =>
          some { worker with phase := if worker.shutdown then .stopping else .unsignalled }
      | _ => none
  | .recv =>
      match worker.phase, worker.queue with
      | .unsignalled, cmd :: queue =>
          some { worker with
            phase := .handling cmd
            queue := queue
            handled := worker.handled ++ [cmd] }
      | .unsignalled, [] => some { worker with phase := .parked }
      | _, _ => none
  | .disconnect =>
      match worker.phase, worker.queue with
      | .unsignalled, [] =>
          if worker.shutdown then some { worker with phase := .stopping } else none
      | _, _ => none
  | .tick =>
      match worker.phase with
      | .parked => if worker.ticking then some { worker with phase := .idling } else none
      | _ => none
  | .wake =>
      match worker.phase with
      | .parked => some { worker with phase := .selecting }
      | _ => none
  | .finish =>
      match worker.phase with
      | .handling _ | .idling => some { worker with phase := .selecting }
      | _ => none
  | .exit =>
      match worker.phase with
      | .stopping => some { worker with phase := .exited }
      | _ => none

/-- A worker that was just spawned. -/
def spawn (capacity : Nat) (ticking : Bool) : Worker C where
  capacity := capacity
  ticking := ticking

/-- The loop is over. -/
def isStopped (worker : Worker C) : Bool :=
  match worker.phase with
  | .stopping | .exited => true
  | _ => false

/-- How many more commands the task takes before it looks at the signal. -/
def allowance (worker : Worker C) : Nat :=
  match worker.phase with
  | .unsignalled => 1
  | _ => 0

/-- Whether nothing waits in the channel that the task would not take any more. -/
def isQuiet (worker : Worker C) : Bool :=
  worker.queue.length ≤ worker.allowance

variable {start before after final : Worker C} {action : Action C}

/-- Everything a step can do: complete a send, set the signal, take a command, or only
move the task.  The task does not pass the signal once it is set, and does not leave the
channel while a command is in it. -/
theorem step_cases (stepped : before.step action = some after) :
    (∃ cmd, after = { before with
        queue := before.queue ++ [cmd]
        sent := before.sent ++ [cmd] }) ∨
      (before.shutdown = false ∧ after = { before with shutdown := true }) ∨
      (∃ cmd queue, before.phase = .unsignalled ∧ before.queue = cmd :: queue ∧
        after = { before with
          phase := .handling cmd
          queue := queue
          handled := before.handled ++ [cmd] }) ∨
      ∃ phase, after = { before with phase := phase } ∧
        (phase = .unsignalled → before.shutdown = false) ∧
        (before.phase = .unsignalled → before.queue = []) := by
  cases action with
  | send cmd =>
      rw [step] at stepped
      split at stepped
      · cases stepped
      · split at stepped
        · cases stepped
          exact .inl ⟨cmd, rfl⟩
        · cases stepped
  | signal =>
      rw [step] at stepped
      split at stepped
      · cases stepped
      · rename_i unset
        cases stepped
        exact .inr (.inl ⟨eq_false_of_ne_true unset, rfl⟩)
  | poll =>
      rw [step] at stepped
      split at stepped
      · rename_i selecting
        cases stepped
        refine .inr (.inr (.inr ⟨_, rfl, ?_, ?_⟩))
        · cases before.shutdown <;> simp
        · simp [selecting]
      · cases stepped
  | recv =>
      rw [step] at stepped
      split at stepped
      · rename_i cmd queue unsignalled waiting
        cases stepped
        exact .inr (.inr (.inl ⟨cmd, queue, unsignalled, waiting, rfl⟩))
      · rename_i unsignalled empty
        cases stepped
        exact .inr (.inr (.inr ⟨_, rfl, by simp, fun _ => empty⟩))
      · cases stepped
  | disconnect =>
      rw [step] at stepped
      split at stepped
      · rename_i unsignalled empty
        split at stepped
        · cases stepped
          exact .inr (.inr (.inr ⟨_, rfl, by simp, fun _ => empty⟩))
        · cases stepped
      · cases stepped
  | tick =>
      rw [step] at stepped
      split at stepped
      · rename_i parked
        split at stepped
        · cases stepped
          exact .inr (.inr (.inr ⟨_, rfl, by simp, by simp [parked]⟩))
        · cases stepped
      · cases stepped
  | wake =>
      rw [step] at stepped
      split at stepped
      · rename_i parked
        cases stepped
        exact .inr (.inr (.inr ⟨_, rfl, by simp, by simp [parked]⟩))
      · cases stepped
  | finish =>
      rw [step] at stepped
      split at stepped
      · rename_i handling
        cases stepped
        exact .inr (.inr (.inr ⟨_, rfl, by simp, by simp [handling]⟩))
      · rename_i idling
        cases stepped
        exact .inr (.inr (.inr ⟨_, rfl, by simp, by simp [idling]⟩))
      · cases stepped
  | exit =>
      rw [step] at stepped
      split at stepped
      · rename_i stopping
        cases stepped
        exact .inr (.inr (.inr ⟨_, rfl, by simp, by simp [stopping]⟩))
      · cases stepped

/-- Every command is handled or waits, in the order of the sends. -/
def Accounts (worker : Worker C) : Prop :=
  worker.sent = worker.handled ++ worker.queue

theorem accounts_step (accounts : before.Accounts) (stepped : before.step action = some after) :
    after.Accounts := by
  rw [Accounts] at accounts
  rcases step_cases stepped with
    ⟨cmd, rfl⟩ | ⟨_, rfl⟩ | ⟨cmd, queue, _, waiting, rfl⟩ | ⟨phase, rfl, _⟩
  · simp [Accounts, accounts]
  · exact accounts
  · simp [Accounts, accounts, waiting]
  · exact accounts

theorem allowance_of_unsignalled (unsignalled : before.phase = .unsignalled) :
    before.allowance = 1 := by
  rw [allowance, unsignalled]

/-- A task with an allowance is about to take a command. -/
theorem unsignalled_of_allowance (allowed : before.allowance ≠ 0) :
    before.phase = .unsignalled := by
  unfold allowance at allowed
  split at allowed
  · assumption
  · exact absurd rfl allowed

/-- What a signalled worker still does: it takes no more than the allowance it had, and
what it may still take is in front of its channel. -/
structure Winding (signalled worker : Worker C) : Prop where
  shutdown : worker.shutdown = true
  accounts : worker.Accounts
  sent : signalled.sent <+: worker.sent
  kept : signalled.handled <+: worker.handled
  bounded : worker.handled.length + worker.allowance ≤
    signalled.handled.length + signalled.allowance
  /-- What was waiting within the allowance has been taken, or still can be. -/
  taken : signalled.handled.length + min signalled.allowance signalled.queue.length ≤
    worker.handled.length + min worker.allowance worker.queue.length

theorem winding_step {signalled : Worker C} (winding : Winding signalled before)
    (stepped : before.step action = some after) : Winding signalled after := by
  have accounts := accounts_step winding.accounts stepped
  obtain ⟨shutdown, _, sent, kept, bounded, taken⟩ := winding
  rcases step_cases stepped with
    ⟨cmd, rfl⟩ | ⟨unset, rfl⟩ | ⟨cmd, queue, unsignalled, waiting, rfl⟩ |
      ⟨phase, rfl, passes, leaves⟩
  · refine ⟨shutdown, accounts, sent.trans (List.prefix_append ..), kept, bounded, ?_⟩
    change _ ≤ before.handled.length + min before.allowance _
    rw [List.length_append]
    omega
  · rw [unset] at shutdown
    cases shutdown
  · rw [allowance_of_unsignalled unsignalled, waiting, List.length_cons] at taken
    rw [allowance_of_unsignalled unsignalled] at bounded
    refine ⟨shutdown, accounts, sent, kept.trans (List.prefix_append ..), ?_, ?_⟩
    · change (before.handled ++ [cmd]).length + 0 ≤ _
      rw [List.length_append, List.length_singleton]
      exact bounded
    · change _ ≤ (before.handled ++ [cmd]).length + min 0 _
      rw [List.length_append, List.length_singleton]
      omega
  · have stays : allowance { before with phase := phase } = 0 := by
      cases phase with
      | unsignalled =>
          rw [passes rfl] at shutdown
          cases shutdown
      | _ => rfl
    refine ⟨shutdown, accounts, sent, kept, ?_, ?_⟩
    · rw [stays]
      exact Nat.le_trans (Nat.le_add_right ..) bounded
    · rw [stays]
      by_cases idle : before.allowance = 0
      · rw [idle] at taken
        exact taken
      · rw [leaves (unsignalled_of_allowance idle)] at taken
        simpa using taken

/-- A signal winds the worker down. -/
theorem winding_signal (accounts : before.Accounts) (stepped : before.step .signal = some after) :
    Winding before after := by
  rw [step] at stepped
  split at stepped
  · cases stepped
  · cases stepped
    exact ⟨rfl, accounts, List.prefix_rfl, List.prefix_rfl, Nat.le_refl _, Nat.le_refl _⟩

/-- Commands sent before the signal are handled before the task leaves its loop exactly
when none of them waits in the channel beyond the one that a poll under way still
takes. -/
theorem drains_iff_isQuiet {capacity : Nat} {ticking : Bool} {earlier later : List (Action C)}
    (runs : Machine.run step (spawn capacity ticking) earlier = some before)
    (signalled : before.step .signal = some after)
    (winds : Machine.run step after later = some final) (stopped : final.isStopped = true) :
    before.sent <+: final.handled ↔ before.isQuiet = true := by
  have initial : (spawn capacity ticking : Worker C).Accounts := rfl
  have accounts : before.Accounts :=
    Machine.run_keeps (fun _ _ _ => accounts_step) initial runs
  have winding : Winding before final :=
    Machine.run_keeps (fun _ _ _ => winding_step) (winding_signal accounts signalled) winds
  have spent : final.allowance = 0 := by
    unfold isStopped at stopped
    unfold allowance
    split at stopped <;> simp_all
  obtain ⟨_, ends, sent, kept, bounded, taken⟩ := winding
  rw [spent] at bounded taken
  have lengths := congrArg List.length accounts
  rw [List.length_append] at lengths
  rw [isQuiet, decide_eq_true_eq]
  constructor
  · intro drained
    have := drained.length_le
    omega
  · intro quiet
    apply List.prefix_of_prefix_length_le sent
    · rw [ends]
      exact List.prefix_append ..
    · omega

theorem drains_iff_isQuiet_taken : ∃ before after final : Worker Nat,
    Machine.run step (spawn 16 false) [.send 7, .poll, .recv] = some before ∧
      before.step .signal = some after ∧
      Machine.run step after [.send 8, .finish, .poll] = some final ∧
      final.isStopped = true ∧ before.sent <+: final.handled := by
  refine ⟨_, _, _, rfl, rfl, rfl, rfl, ?_⟩
  exact (@drains_iff_isQuiet Nat _ _ _ 16 false [.send 7, .poll, .recv] [.send 8, .finish, .poll]
    rfl rfl rfl rfl).mpr rfl

/-- A command that waits when the signal is set is not handled. -/
theorem drains_fails_waiting : ∃ before after final : Worker Nat,
    Machine.run step (spawn 16 false) [.send 7] = some before ∧
      before.step .signal = some after ∧ Machine.run step after [.poll] = some final ∧
      final.isStopped = true ∧ ¬ before.sent <+: final.handled := by
  refine ⟨_, _, _, rfl, rfl, rfl, rfl, ?_⟩
  decide

end Worker

end DfeClickhouse

import DfeClickhouse.Tcp.Actor

/-!
# What the server sends

The packets between the server and the actor, each with the command it is sent for.  The
server answers the requests of a connection in their order, each by any packets that do
not end it and then one that does.
-/

namespace DfeClickhouse.Tcp

open Library Script

/-- What the server answers. -/
inductive Request
  | ping
  | query
  deriving DecidableEq

/-- Whether a packet is the last of an answer: a Ping is answered by a Pong or an Exception,
a Query up to EndOfStream or an Exception.  The schema block of an INSERT is one of the
packets before. -/
def Request.isEnd : Request → ServerPacket → Bool
  | .ping, .pong | .ping, .exception _ => true
  | .query, .endOfStream | .query, .exception _ => true
  | _, _ => false

/-- What a packet of the client asks for.  A Cancel, a block and the empty block are no
requests of their own. -/
def ClientPacket.asks : ClientPacket → Option Request
  | .query _ => some .query
  | .ping => some .ping
  | _ => none

/-- A packet, and the command it is sent for. -/
structure Item where
  owner : Nat
  packet : ServerPacket

/-- A packet that a command has taken. -/
structure Taken extends Item where
  command : Nat

/-- The packets that are queued for the actor, the requests the server has not answered to
their end, and the packets that were taken. -/
structure Exchange where
  inbox : List Item := []
  owed : List (Nat × Request) := []
  taken : List Taken := []

namespace Exchange

/-- The server sends a packet for the request it is at. -/
def Arrives (exchange next : Exchange) : Prop :=
  ∃ owner request rest packet, exchange.owed = (owner, request) :: rest ∧
    next = { exchange with
      inbox := exchange.inbox ++ [⟨owner, packet⟩]
      owed := if request.isEnd packet then rest else exchange.owed }

/-- The server gets a packet of a command. -/
def ask (exchange : Exchange) (command : Nat) (packet : ClientPacket) : Exchange :=
  match packet.asks with
  | some request => { exchange with owed := exchange.owed ++ [(command, request)] }
  | none => exchange

/-- What an event of a command does.  A write that fails may have reached the server. -/
def Handles (command : Nat) (exchange : Exchange) (event : Event) (next : Exchange) : Prop :=
  match event with
  | .wrote packet => next = exchange.ask command packet
  | .writeFailed packet _ => next = exchange ∨ next = exchange.ask command packet
  | .received (.packet packet) => ∃ owner rest, exchange.inbox = ⟨owner, packet⟩ :: rest ∧
      next = { exchange with
        inbox := rest
        taken := exchange.taken ++ [⟨⟨owner, packet⟩, command⟩] }
  | .empty => exchange.inbox = [] ∧ next = exchange
  | _ => next = exchange

/-- Any packets arrive before an event. -/
def Moves (command : Nat) (exchange : Exchange) (event : Event) (next : Exchange) : Prop :=
  ∃ middle, Relation.ReflTransGen Arrives exchange middle ∧ Handles command middle event next

/-- Nothing is queued, and nothing is to be sent. -/
def Clear (exchange : Exchange) : Prop :=
  exchange.inbox = [] ∧ exchange.owed = []

/-- Every packet that was taken was sent for the command that took it. -/
def Own (exchange : Exchange) : Prop :=
  ∀ taken ∈ exchange.taken, taken.owner = taken.command

/-- The answer to one request is under way, and nothing else: its end is to be sent, or is
the last packet that is queued. -/
def Pending (request : Request) (owner : Nat) (exchange : Exchange) : Prop :=
  ∃ before, (∀ item ∈ before, item.owner = owner ∧ request.isEnd item.packet = false) ∧
    (exchange.inbox = before ∧ exchange.owed = [(owner, request)] ∨
      ∃ last, request.isEnd last.packet = true ∧ last.owner = owner ∧
        exchange.inbox = before ++ [last] ∧ exchange.owed = [])

variable {exchange next : Exchange} {request : Request} {owner command : Nat} {event : Event}

theorem Own.arrives (own : exchange.Own)
    (arrivals : Relation.ReflTransGen Arrives exchange next) : next.Own := by
  induction arrivals with
  | refl => exact own
  | tail _ step ih =>
      obtain ⟨_, _, _, _, _, rfl⟩ := step
      exact ih

theorem Clear.arrives (clear : exchange.Clear)
    (arrivals : Relation.ReflTransGen Arrives exchange next) : next = exchange := by
  induction arrivals with
  | refl => rfl
  | tail _ step ih =>
      obtain ⟨_, _, _, _, owed, _⟩ := step
      rw [ih, clear.2] at owed
      cases owed

theorem Pending.arrive (pending : exchange.Pending request owner)
    (arrives : Arrives exchange next) :
    next.Pending request owner := by
  obtain ⟨sender, asked, rest, packet, owed, rfl⟩ := arrives
  obtain ⟨before, each, ⟨inbox, single⟩ | ⟨last, _, _, _, none⟩⟩ := pending
  · rw [single] at owed
    cases owed
    cases ended : request.isEnd packet with
    | true =>
        refine ⟨before, each, .inr ⟨⟨owner, packet⟩, ended, rfl, ?_, ?_⟩⟩
        · rw [← inbox]
        · rfl
    | false =>
        refine ⟨before ++ [⟨owner, packet⟩], ?_, .inl ⟨?_, ?_⟩⟩
        · intro item member
          rcases List.mem_append.mp member with member | member
          · exact each item member
          · rw [List.mem_singleton.mp member]
            exact ⟨rfl, ended⟩
        · rw [← inbox]
        · exact single
  · rw [none] at owed
    cases owed

theorem Pending.arrives (pending : exchange.Pending request owner)
    (arrivals : Relation.ReflTransGen Arrives exchange next) : next.Pending request owner := by
  induction arrivals with
  | refl => exact pending
  | tail _ step ih => exact ih.arrive step

/-- An answer is under way, or nothing is. -/
def Outstanding (request : Request) (owner : Nat) (exchange : Exchange) : Prop :=
  exchange.Pending request owner ∨ exchange.Clear

theorem Outstanding.arrives (outstanding : exchange.Outstanding request owner)
    (arrivals : Relation.ReflTransGen Arrives exchange next) :
    next.Outstanding request owner := by
  rcases outstanding with pending | clear
  · exact .inl (pending.arrives arrivals)
  · rw [clear.arrives arrivals]
    exact .inr clear

/-- The next packet is one of the answer, and the last of it leaves nothing behind. -/
theorem Outstanding.take {item : Item} {rest : List Item} {taken : List Taken}
    (outstanding : exchange.Outstanding request owner) (queued : exchange.inbox = item :: rest) :
    item.owner = owner ∧
      if request.isEnd item.packet = true then
        Clear { exchange with inbox := rest, taken := taken }
      else Outstanding request owner { exchange with inbox := rest, taken := taken } := by
  have goesOn : ∀ {before : List Item}, request.isEnd item.packet = false →
      (∀ item ∈ before, item.owner = owner ∧ request.isEnd item.packet = false) →
      (rest = before ∧ exchange.owed = [(owner, request)] ∨
        ∃ last, request.isEnd last.packet = true ∧ last.owner = owner ∧
          rest = before ++ [last] ∧ exchange.owed = []) →
      if request.isEnd item.packet = true then
        Clear { exchange with inbox := rest, taken := taken }
      else Outstanding request owner { exchange with inbox := rest, taken := taken } := by
    intro before goes each left
    rw [if_neg (by rw [goes]; exact Bool.false_ne_true)]
    exact .inl ⟨before, each, left⟩
  rcases outstanding with ⟨before, each, ⟨inbox, owed⟩ | ⟨last, ends, mine, inbox, owed⟩⟩ | clear
  · rw [inbox] at queued
    subst queued
    obtain ⟨mine, goes⟩ := each item (by simp)
    exact ⟨mine, goesOn goes (fun item member => each item (by simp [member])) (.inl ⟨rfl, owed⟩)⟩
  · rw [inbox] at queued
    cases before with
    | nil =>
        cases queued
        refine ⟨mine, ?_⟩
        rw [if_pos ends]
        exact ⟨rfl, owed⟩
    | cons first before =>
        cases queued
        obtain ⟨his, goes⟩ := each item (by simp)
        exact ⟨his, goesOn goes (fun item member => each item (by simp [member]))
          (.inr ⟨last, ends, mine, rfl, owed⟩)⟩
  · rw [clear.1] at queued
    cases queued

theorem ask_of_none {packet : ClientPacket} (quiet : packet.asks = none) :
    exchange.ask command packet = exchange := by
  rw [ask, quiet]

theorem Own.ask (own : exchange.Own) (command : Nat) (packet : ClientPacket) :
    (exchange.ask command packet).Own := by
  unfold Exchange.ask
  split <;> exact own

/-- A request to a server that has nothing to answer is the one it answers. -/
theorem Clear.ask {packet : ClientPacket} (clear : exchange.Clear)
    (asks : packet.asks = some request) :
      (exchange.ask command packet).Outstanding request command := by
  rw [Exchange.ask, asks]
  refine .inl ⟨[], nofun, .inl ⟨clear.1, ?_⟩⟩
  dsimp only
  rw [clear.2]
  rfl

/-- What an event makes of an answer that is under way. -/
def After (request : Request) (owner : Nat) (next : Exchange) : Event → Prop
  | .received (.packet packet) =>
      if request.isEnd packet = true then next.Clear else next.Outstanding request owner
  | .wrote packet => packet.asks = none → next.Outstanding request owner
  | .writeFailed .. => True
  | _ => next.Outstanding request owner

theorem Outstanding.moves (outstanding : exchange.Outstanding request command)
    (own : exchange.Own) (moved : Moves command exchange event next) :
    next.Own ∧ After request command next event := by
  obtain ⟨middle, arrivals, handled⟩ := moved
  have queued := outstanding.arrives arrivals
  have kept := own.arrives arrivals
  cases event with
  | wrote packet =>
      cases handled
      refine ⟨kept.ask command packet, ?_⟩
      intro quiet
      rw [ask_of_none quiet]
      exact queued
  | writeFailed packet error =>
      refine ⟨?_, trivial⟩
      rcases handled with rfl | rfl
      · exact kept
      · exact kept.ask command packet
  | received message =>
      cases message with
      | error error =>
          cases handled
          exact ⟨kept, queued⟩
      | packet packet =>
          obtain ⟨owner, rest, inbox, rfl⟩ := handled
          obtain ⟨mine, after⟩ := queued.take inbox
          refine ⟨?_, after⟩
          intro taken member
          rcases List.mem_append.mp member with member | member
          · exact kept taken member
          · rw [List.mem_singleton.mp member]
            exact mine
  | empty =>
      obtain ⟨_, rfl⟩ := handled
      exact ⟨kept, queued⟩
  | _ =>
      cases handled
      exact ⟨kept, queued⟩

end Exchange

end DfeClickhouse.Tcp

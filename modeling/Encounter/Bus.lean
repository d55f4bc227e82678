import Encounter.Event
import Encounter.Table

/-!
# The event bus

Each topic has a broadcast channel. An event is sent on the channel of its topic, and a receiver
subscribes to the channel of one topic; one function says which channel that is. Publishing is best
effort: an event that is sent while a channel has no receivers is dropped.
-/

namespace Encounter

/-- Broadcast channels of some capacity, as their users see them: a state and what may be done with
it. A channel tells its receivers apart by numbers. -/
structure Broadcast where
  State : Type
  /-- A channel without receivers. -/
  create : State
  /-- Adds a receiver and gives it a number. -/
  subscribe : State → Nat × State
  /-- Sends an event to the receivers there are. -/
  send : State → Event → State
  /-- Takes the next event for a receiver. -/
  receive : State → Nat → Option Event × State
  /-- Drops a receiver. -/
  drop : State → Nat → State

/-- Channels that keep a queue for each receiver, however long it grows; none for one that was
dropped. -/
abbrev Broadcast.queues : Broadcast where
  State := List (Option (List Event))
  create := []
  subscribe state := (state.length, state ++ [some []])
  send state event := state.map (Option.map (· ++ [event]))
  receive state number :=
    match state[number]? with
    | some (some (event :: rest)) => (some event, state.set number (some rest))
    | _ => (none, state)
  drop state number := state.set number none

namespace Topic

/-- Place of a topic in the order dialogue, effect, session. -/
def rank : Topic → Nat
  | dialogue => 0
  | effect => 1
  | session => 2

/-- Topics of equal rank are equal. -/
theorem rank_injective (a b : Topic) (h : rank a = rank b) : a = b := by
  cases a <;> cases b <;> first | rfl | cases h

instance : Ord Topic := ⟨compareOn rank⟩
instance : Std.TransOrd Topic := inferInstanceAs (Std.TransCmp (compareOn rank))
instance : Std.LawfulEqOrd Topic := lawfulEqCmp_compareOn rank_injective

end Topic

/-- The sending half of a channel of the bus, named by the place of the channel. -/
structure Sender where
  place : Fin 3
  deriving DecidableEq, Repr

/-- The receiving half of a channel of the bus: where it was subscribed and its number there. -/
structure Receiver where
  sender : Sender
  number : Nat
  deriving DecidableEq, Repr

/-- The senders of the bus, one per topic. -/
structure EventBus where
  dialogue : Sender
  effect : Sender
  session : Sender
  deriving DecidableEq, Repr

/-- The sender that serves a topic. -/
def EventBus.sender (senders : EventBus) : Topic → Sender
  | .dialogue => senders.dialogue
  | .effect => senders.effect
  | .session => senders.session

/-- The bus with its channels, and the receivers that its users hold, numbered from 0 in the order in
which they got them. -/
structure Bus (net : Broadcast) where
  senders : EventBus
  channels : Vector net.State 3
  receivers : List Receiver

namespace Bus

variable {net : Broadcast}

/-- Three channels, and no receiver. -/
def empty : Bus net :=
  ⟨⟨⟨0⟩, ⟨1⟩, ⟨2⟩⟩, #v[net.create, net.create, net.create], []⟩

/-- The channel of a sender. -/
def channel (bus : Bus net) (sender : Sender) : net.State := bus.channels[sender.place]

/-- Puts the channel of a sender in another state. -/
def setChannel (bus : Bus net) (sender : Sender) (state : net.State) : Bus net :=
  { bus with channels := bus.channels.set sender.place state }

/-- Publishes an event on the channel of its topic. -/
def publish (bus : Bus net) (event : Event) : Bus net :=
  let sender := bus.senders.sender event.topic
  bus.setChannel sender (net.send (bus.channel sender) event)

/-- A new receiver on the channel of a topic. -/
def listen (bus : Bus net) (topic : Topic) : Receiver × Bus net :=
  let sender := bus.senders.sender topic
  let (number, state) := net.subscribe (bus.channel sender)
  (⟨sender, number⟩, bus.setChannel sender state)

/-- Gives up a receiver. -/
def discard (bus : Bus net) (receiver : Receiver) : Bus net :=
  bus.setChannel receiver.sender (net.drop (bus.channel receiver.sender) receiver.number)

/-- One more receiver for the table: it goes under its topic, and a receiver that it replaces there is
given up. -/
def collect (state : Table Topic Receiver × Bus net) (topic : Topic) :
    Table Topic Receiver × Bus net :=
  let (receiver, bus) := state.2.listen topic
  (state.1.insert topic receiver,
    match state.1.find? topic with
    | some replaced => bus.discard replaced
    | none => bus)

/-- Subscribes once for each entry of a list, and collects the receivers by topic. -/
def listenEach (bus : Bus net) (topics : List Topic) : Table Topic Receiver × Bus net :=
  topics.foldl collect (∅, bus)

/-- Subscribes to a topic; the number of the receiver is the number of receivers before. -/
def subscribe (bus : Bus net) (topic : Topic) : Bus net :=
  let (receiver, bus) := bus.listen topic
  { bus with receivers := bus.receivers ++ [receiver] }

/-- Subscribes to the topics of a list; the receivers are numbered in the order of their topics. -/
def subscribeMultiple (bus : Bus net) (topics : List Topic) : Bus net :=
  let (table, bus) := bus.listenEach topics
  { bus with receivers := bus.receivers ++ table.values }

/-- Takes the next event of a receiver, if one is there. -/
def receive (bus : Bus net) (number : Nat) : Option Event × Bus net :=
  match bus.receivers[number]? with
  | none => (none, bus)
  | some receiver =>
    let (event, state) := net.receive (bus.channel receiver.sender) receiver.number
    (event, bus.setChannel receiver.sender state)

end Bus

end Encounter

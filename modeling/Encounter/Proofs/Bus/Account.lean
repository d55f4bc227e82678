import Encounter.Bus
import Encounter.Proofs.Table.Filled

/-!
# Receivers of the bus

What is relied on of the channels of a bus is an account of them (`Broadcast.Account`): which
receivers a channel has, and what each has yet to take. On a well-formed bus the topics have
different channels and the receivers are different ones, each known to its channel. Then an operation
on one receiver or one topic leaves all other receivers as they are, and a list of topics makes one
new receiver for each topic in it, whatever the number of times it is listed.
-/

namespace Encounter

/-- What channels promise. A receiver that is there when an event is sent has the event to take
behind those that it has not taken yet, unless it is behind by the capacity already. -/
structure Broadcast.Account (net : Broadcast) where
  /-- How many events a receiver may leave untaken. -/
  capacity : Nat
  /-- Is there a receiver with that number? -/
  Live : net.State → Nat → Prop
  /-- The events that a receiver has yet to take; none are known of one that was behind too far. -/
  pending : net.State → Nat → Option (List Event)
  not_live_subscribe : ∀ state, ¬Live state (net.subscribe state).1
  live_subscribe : ∀ state number,
    Live (net.subscribe state).2 number ↔ number = (net.subscribe state).1 ∨ Live state number
  pending_subscribe : ∀ state number, pending (net.subscribe state).2 number =
    if number = (net.subscribe state).1 then some [] else pending state number
  live_send : ∀ state event number, Live (net.send state event) number ↔ Live state number
  pending_send : ∀ {state number waiting} event, pending state number = some waiting →
    waiting.length < capacity → pending (net.send state event) number = some (waiting ++ [event])
  live_receive : ∀ state other number, Live (net.receive state other).2 number ↔ Live state number
  receive_of_pending : ∀ {state number waiting}, pending state number = some waiting →
    (net.receive state number).1 = waiting.head? ∧
    pending (net.receive state number).2 number = some waiting.tail
  pending_receive_of_ne : ∀ state {number other}, number ≠ other →
    pending (net.receive state other).2 number = pending state number
  live_drop_of_ne : ∀ state {number other}, number ≠ other →
    (Live (net.drop state other) number ↔ Live state number)
  pending_drop_of_ne : ∀ state {number other}, number ≠ other →
    pending (net.drop state other) number = pending state number

namespace Broadcast

/-- The queue of a receiver that was not dropped. -/
private def queue (state : queues.State) (number : Nat) : Option (List Event) :=
  state[number]?.join

private theorem queue_subscribe (state : queues.State) (number : Nat) :
    queue (queues.subscribe state).2 number =
      if number = (queues.subscribe state).1 then some [] else queue state number := by
  simp only [queue, List.getElem?_append, List.getElem?_singleton]
  grind

private theorem queue_send (state : queues.State) (event : Event) (number : Nat) :
    queue (queues.send state event) number = (queue state number).map (· ++ [event]) := by
  simp only [queue, List.getElem?_map]
  cases state[number]? <;> rfl

private theorem queue_set_of_ne {number other : Nat} (h : number ≠ other) (state : queues.State)
    (left : Option (List Event)) : queue (state.set other left) number = queue state number := by
  rw [queue, List.getElem?_set_ne h.symm, queue]

/-- Taking an event is taking the front of the queue. -/
private theorem receive_of_queue {state : queues.State} {number : Nat} {waiting : List Event}
    (h : queue state number = some waiting) :
    (queues.receive state number).1 = waiting.head? ∧
      queue (queues.receive state number).2 number = some waiting.tail := by
  have hget : state[number]? = some (some waiting) := by
    cases hentry : state[number]? <;> simp_all [queue]
  have hlt : number < state.length := (List.getElem?_eq_some_iff.1 hget).1
  cases waiting <;> simp only [hget, queue, List.getElem?_set_self hlt] <;> exact ⟨rfl, rfl⟩

private theorem queue_receive_of_ne {number other : Nat} (h : number ≠ other)
    (state : queues.State) : queue (queues.receive state other).2 number = queue state number := by
  simp only [queues]
  split
  · exact queue_set_of_ne h state _
  · rfl

private theorem isSome_queue_receive (state : queues.State) (other number : Nat) :
    (queue (queues.receive state other).2 number).isSome ↔ (queue state number).isSome := by
  by_cases h : number = other
  · subst h
    cases hqueue : queue state number with
    | some waiting => simp [(receive_of_queue hqueue).2]
    | none =>
      have hsame : (queues.receive state number).2 = state := by
        simp only [queues]
        split
        · next hget => simp [queue, hget] at hqueue
        · rfl
      rw [hsame, hqueue]
  · rw [queue_receive_of_ne h]

/-- With queues each receiver has its queue to take, so they are right for any capacity. -/
def queuesAccount (capacity : Nat) : queues.Account where
  capacity := capacity
  Live state number := (queue state number).isSome
  pending := queue
  not_live_subscribe state := by simp [queue]
  live_subscribe state number := by
    rw [queue_subscribe]
    split <;> simp [*]
  pending_subscribe := queue_subscribe
  live_send state event number := by rw [queue_send, Option.isSome_map]
  pending_send event h _ := by
    rw [queue_send, h]
    rfl
  live_receive := isSome_queue_receive
  receive_of_pending := receive_of_queue
  pending_receive_of_ne state _ _ h := queue_receive_of_ne h state
  live_drop_of_ne state _ _ h := by rw [queue_set_of_ne h]
  pending_drop_of_ne state _ _ h := queue_set_of_ne h state none

end Broadcast

namespace Bus

section Account

variable {net : Broadcast} (account : net.Account) (bus : Bus net)

/-- The events that a receiver has yet to take, unless it was behind too far. -/
def waiting (receiver : Receiver) : Option (List Event) :=
  account.pending (bus.channel receiver.sender) receiver.number

/-- Is the receiver known to its channel? -/
def Holds (receiver : Receiver) : Prop :=
  account.Live (bus.channel receiver.sender) receiver.number

/-- The topics have different channels, and the receivers are different ones that were not given
up. -/
structure WF : Prop where
  senders : ∀ topic other, bus.senders.sender topic = bus.senders.sender other → topic = other
  nodup : bus.receivers.Nodup
  holds : ∀ receiver ∈ bus.receivers, bus.Holds account receiver

end Account

variable {net : Broadcast} {account : net.Account} {bus : Bus net}

@[simp] theorem senders_setChannel (sender : Sender) (state : net.State) :
    (bus.setChannel sender state).senders = bus.senders := rfl

@[simp] theorem receivers_setChannel (sender : Sender) (state : net.State) :
    (bus.setChannel sender state).receivers = bus.receivers := rfl

private theorem channel_setChannel (sender other : Sender) (state : net.State) :
    (bus.setChannel sender state).channel other =
      if other = sender then state else bus.channel other := by
  obtain ⟨place⟩ := sender
  obtain ⟨otherPlace⟩ := other
  simp only [channel, setChannel, Sender.mk.injEq]
  split
  · next h => simp [h]
  · next h => exact Vector.getElem_set_ne _ _ fun heq => h (Fin.ext heq.symm)

/-- A new receiver was not there before. -/
private theorem not_holds_listen (topic : Topic) : ¬bus.Holds account (bus.listen topic).1 :=
  account.not_live_subscribe _

private theorem holds_listen (account : net.Account) (bus : Bus net) (topic : Topic)
    (receiver : Receiver) :
    (bus.listen topic).2.Holds account receiver ↔
      receiver = (bus.listen topic).1 ∨ bus.Holds account receiver := by
  obtain ⟨sender, number⟩ := receiver
  simp only [Holds, listen, channel_setChannel, Receiver.mk.injEq]
  split
  · next h => simp [h, account.live_subscribe]
  · next h => simp [h]

/-- A new receiver has nothing to take, and the others have what they had. -/
private theorem waiting_listen (account : net.Account) (bus : Bus net) (topic : Topic)
    (receiver : Receiver) :
    (bus.listen topic).2.waiting account receiver =
      if receiver = (bus.listen topic).1 then some [] else bus.waiting account receiver := by
  obtain ⟨sender, number⟩ := receiver
  simp only [waiting, listen, channel_setChannel, Receiver.mk.injEq]
  split
  · next h => simp [h, account.pending_subscribe]
  · next h => simp [h]

/-- Receivers on one channel are told apart by their numbers. -/
private theorem number_ne {receiver other : Receiver} (h : receiver ≠ other)
    (hsender : receiver.sender = other.sender) : receiver.number ≠ other.number := by
  intro hnumber
  apply h
  cases receiver
  cases other
  simp_all

private theorem holds_discard_of_ne {receiver other : Receiver} (h : receiver ≠ other) :
    (bus.discard other).Holds account receiver ↔ bus.Holds account receiver := by
  simp only [Holds, discard, channel_setChannel]
  split
  · next hsender =>
    rw [hsender]
    exact account.live_drop_of_ne _ (number_ne h hsender)
  · rfl

private theorem waiting_discard_of_ne {receiver other : Receiver} (h : receiver ≠ other) :
    (bus.discard other).waiting account receiver = bus.waiting account receiver := by
  simp only [waiting, discard, channel_setChannel]
  split
  · next hsender =>
    rw [hsender]
    exact account.pending_drop_of_ne _ (number_ne h hsender)
  · rfl

private theorem holds_publish (event : Event) (receiver : Receiver) :
    (bus.publish event).Holds account receiver ↔ bus.Holds account receiver := by
  simp only [Holds, publish, channel_setChannel]
  split
  · next h => rw [account.live_send, h]
  · rfl

/-- An event is for the receivers on the channel that serves its topic. -/
theorem waiting_publish {event : Event} {receiver : Receiver} {events : List Event}
    (h : bus.waiting account receiver = some events)
    (hroom : receiver.sender = bus.senders.sender event.topic → events.length < account.capacity) :
    (bus.publish event).waiting account receiver =
      some (if receiver.sender = bus.senders.sender event.topic then events ++ [event] else events) := by
  simp only [waiting, publish, channel_setChannel]
  split
  · next hsender =>
    rw [waiting, hsender] at h
    exact account.pending_send event h (hroom hsender)
  · exact h

private theorem holds_receive (number : Nat) (receiver : Receiver) :
    (bus.receive number).2.Holds account receiver ↔ bus.Holds account receiver := by
  unfold receive
  split
  · rfl
  · simp only [Holds, channel_setChannel]
    split
    · next h => rw [account.live_receive, h]
    · rfl

/-- A receiver takes the first event that it has to take. -/
theorem receive_of_waiting {number : Nat} {receiver : Receiver} {events : List Event}
    (hreceiver : bus.receivers[number]? = some receiver)
    (h : bus.waiting account receiver = some events) :
    (bus.receive number).1 = events.head? ∧
      (bus.receive number).2.waiting account receiver = some events.tail := by
  simp only [receive, hreceiver, waiting, channel_setChannel, if_pos]
  exact account.receive_of_pending h

theorem waiting_receive_of_ne {number : Nat} {receiver : Receiver}
    (h : bus.receivers[number]? ≠ some receiver) :
    (bus.receive number).2.waiting account receiver = bus.waiting account receiver := by
  unfold receive
  split
  · rfl
  · next other hother =>
    have hne : receiver ≠ other := fun heq => h (hother.trans (congrArg some heq.symm))
    simp only [waiting, channel_setChannel]
    split
    · next hsender =>
      rw [hsender]
      exact account.pending_receive_of_ne _ (number_ne hne hsender)
    · rfl

@[simp] theorem receivers_receive (number : Nat) :
    (bus.receive number).2.receivers = bus.receivers := by
  unfold receive
  split <;> rfl

@[simp] theorem senders_receive (number : Nat) :
    (bus.receive number).2.senders = bus.senders := by
  unfold receive
  split <;> rfl

/-- What becomes of a bus when topics get receivers: there is one more for each, on the channel of
the topic and with nothing to take, and the others have what they had. -/
structure Joined (account : net.Account) (bus : Bus net) (topics : List Topic) (next : Bus net) :
    Prop where
  wf : next.WF account
  senders : next.senders = bus.senders
  kept : ∀ receiver ∈ bus.receivers, next.waiting account receiver = bus.waiting account receiver
  added : ∃ added : List Receiver, next.receivers = bus.receivers ++ added ∧
    added.map Receiver.sender = topics.map bus.senders.sender ∧
    ∀ receiver ∈ added, next.waiting account receiver = some []

/-- A receiver that is not known to its channel yet is none of the bus. -/
private theorem WF.ne_of_not_holds {receiver other : Receiver} (h : bus.WF account)
    (hmem : receiver ∈ bus.receivers) (hnew : ¬bus.Holds account other) : receiver ≠ other := by
  rintro rfl
  exact hnew (h.holds receiver hmem)

theorem joined_subscribe (h : bus.WF account) (topic : Topic) :
    Joined account bus [topic] (bus.subscribe topic) := by
  have hnew : ∀ receiver ∈ bus.receivers, receiver ≠ (bus.listen topic).1 :=
    fun receiver hmem => h.ne_of_not_holds hmem (not_holds_listen topic)
  have hwaiting := waiting_listen account bus topic
  have hholds := holds_listen account bus topic
  refine ⟨⟨h.senders, ?_, ?_⟩, rfl, ?_, [(bus.listen topic).1], rfl, rfl, ?_⟩
  · show (bus.receivers ++ [_]).Nodup
    simpa [List.nodup_append] using ⟨h.nodup, hnew⟩
  · intro receiver hmem
    rcases List.mem_append.1 hmem with hold | hlast
    · exact (hholds receiver).2 (.inr (h.holds receiver hold))
    · exact (hholds receiver).2 (.inl (List.mem_singleton.1 hlast))
  · intro receiver hmem
    exact (hwaiting receiver).trans (if_neg (hnew receiver hmem))
  · intro receiver hmem
    exact (hwaiting receiver).trans (if_pos (List.mem_singleton.1 hmem))

/-- The topics of a list, each once, in the order dialogue, effect, session. -/
def distinct (topics : List Topic) : List Topic :=
  [Topic.dialogue, .effect, .session].filter fun topic => topics.contains topic

theorem mem_distinct {topic : Topic} {topics : List Topic} :
    topic ∈ distinct topics ↔ topic ∈ topics := by
  cases topic <;> simp [distinct]

theorem nodup_distinct (topics : List Topic) : (distinct topics).Nodup :=
  List.Pairwise.filter _ (by decide)

/-- A table with those keys lists the topics once and in order. -/
private theorem keys_eq_distinct {table : Table Topic Receiver} {topics : List Topic}
    (h : ∀ topic, (table.find? topic).isSome ↔ topic ∈ topics) : table.keys = distinct topics := by
  have hascending : (distinct topics).Pairwise fun a b => compare a b = .lt :=
    List.Pairwise.filter _ (by decide)
  have hperm : table.keys.Perm (distinct topics) := by
    apply (List.perm_ext_iff_of_nodup table.nodup_keys (nodup_distinct topics)).2
    intro topic
    rw [← Table.isSome_find?_iff, h, mem_distinct]
  apply hperm.eq_of_pairwise _ table.ascending_keys hascending
  intro topic other _ _ hlt hgt
  exact absurd hgt (Std.OrientedCmp.not_lt_of_lt hlt)

/-- What subscribing to topics one after the other leads to: the table has a receiver for each topic,
new on the channel of the topic, and all receivers of the bus have what they had. -/
structure Collected (account : net.Account) (bus : Bus net) (topics : List Topic)
    (state : Table Topic Receiver × Bus net) : Prop where
  senders : state.2.senders = bus.senders
  receivers : state.2.receivers = bus.receivers
  listed : ∀ topic, (state.1.find? topic).isSome ↔ topic ∈ topics
  found : ∀ {topic receiver}, state.1.find? topic = some receiver →
    receiver.sender = bus.senders.sender topic ∧ receiver ∉ bus.receivers ∧
    state.2.Holds account receiver ∧ state.2.waiting account receiver = some []
  kept : ∀ receiver ∈ bus.receivers, state.2.Holds account receiver ∧
    state.2.waiting account receiver = bus.waiting account receiver

section Collect

variable {topics : List Topic} {state : Table Topic Receiver × Bus net}

private theorem senders_collect (topic : Topic) :
    (collect state topic).2.senders = state.2.senders := by
  simp only [collect]
  split <;> rfl

private theorem receivers_collect (topic : Topic) :
    (collect state topic).2.receivers = state.2.receivers := by
  simp only [collect]
  split <;> rfl

/-- One more entry touches the new receiver and the one that it replaces only. -/
private theorem collect_of_ne (account : net.Account) {topic : Topic} {receiver : Receiver}
    (h : state.1.find? topic ≠ some receiver) :
    ((collect state topic).2.Holds account receiver ↔
      (state.2.listen topic).2.Holds account receiver) ∧
    (collect state topic).2.waiting account receiver =
      (state.2.listen topic).2.waiting account receiver := by
  simp only [collect]
  split
  · next replaced hreplaced =>
    have hne : receiver ≠ replaced := fun heq => h (hreplaced.trans (by rw [heq]))
    exact ⟨holds_discard_of_ne hne, waiting_discard_of_ne hne⟩
  · exact ⟨Iff.rfl, rfl⟩

/-- One more entry keeps to the description. Its receiver takes the place of one for the same topic,
if there was one, and all others are on other channels. -/
theorem Collected.collect (hwf : bus.WF account) (h : Collected account bus topics state)
    (topic : Topic) : Collected account bus (topics ++ [topic]) (collect state topic) := by
  have hnew : ¬state.2.Holds account (state.2.listen topic).1 := not_holds_listen topic
  have hholds := holds_listen account state.2 topic
  have hwaiting := waiting_listen account state.2 topic
  refine ⟨(senders_collect topic).trans h.senders, (receivers_collect topic).trans h.receivers,
    ?_, ?_, ?_⟩
  · intro other
    show ((state.1.insert topic _).find? other).isSome ↔ _
    rw [Table.find?_insert]
    by_cases hother : other = topic <;> simp [hother, h.listed]
  · intro other receiver hfound
    rcases Table.find?_insert_eq_some_iff.1 hfound with ⟨rfl, rfl⟩ | ⟨hother, hold⟩
    · have hkept : state.1.find? other ≠ some (state.2.listen other).1 :=
        fun hsame => hnew (h.found hsame).2.2.1
      have hframe := collect_of_ne account hkept
      refine ⟨congrArg (fun senders => senders.sender other) h.senders, ?_,
        hframe.1.2 ((hholds _).2 (.inl rfl)), hframe.2.trans ((hwaiting _).trans (if_pos rfl))⟩
      exact fun hmem => hnew (h.kept _ hmem).1
    · obtain ⟨hsender, hmem, hheld, hnothing⟩ := h.found hold
      have hkept : state.1.find? topic ≠ some receiver := fun hsame =>
        hother (hwf.senders _ _ (hsender.symm.trans (h.found hsame).1))
      have hframe := collect_of_ne account hkept
      refine ⟨hsender, hmem, hframe.1.2 ((hholds _).2 (.inr hheld)), ?_⟩
      rw [hframe.2, hwaiting, if_neg (by rintro rfl; exact hnew hheld), hnothing]
  · intro receiver hmem
    obtain ⟨hheld, hsame⟩ := h.kept receiver hmem
    have hkept : state.1.find? topic ≠ some receiver := fun hfound => (h.found hfound).2.1 hmem
    have hframe := collect_of_ne account hkept
    refine ⟨hframe.1.2 ((hholds _).2 (.inr hheld)), ?_⟩
    rw [hframe.2, hwaiting, if_neg (by rintro rfl; exact hnew hheld), hsame]

private theorem collected_listenEach (hwf : bus.WF account) (topics : List Topic) :
    Collected account bus topics (bus.listenEach topics) := by
  have hall : ∀ (seen rest : List Topic) (state : Table Topic Receiver × Bus net),
      Collected account bus seen state →
      Collected account bus (seen ++ rest) (rest.foldl Bus.collect state) := by
    intro seen rest
    induction rest generalizing seen with
    | nil => intro state h; simpa using h
    | cons topic rest ih =>
      intro state h
      have hnext := ih (seen ++ [topic]) _ (h.collect hwf topic)
      rwa [List.append_assoc] at hnext
  apply hall [] topics (∅, bus)
  refine ⟨rfl, rfl, fun topic => ?_, fun hfound => ?_, fun receiver hmem => ?_⟩
  · have hnone : (∅ : Table Topic Receiver).find? topic = none := rfl
    simp [hnone]
  · cases hfound
  · exact ⟨hwf.holds receiver hmem, rfl⟩

/-- Receivers for different topics are on different channels. -/
private theorem nodup_values (hwf : bus.WF account) (h : Collected account bus topics state) :
    state.1.values.Nodup := by
  apply List.pairwise_map.2
  apply state.1.ascending.imp_of_mem
  intro entry other hentry hother hlt hsame
  have hsender : bus.senders.sender entry.1 = bus.senders.sender other.1 := by
    rw [← (h.found (Table.find?_eq_some_iff.2 hentry)).1, hsame,
      (h.found (Table.find?_eq_some_iff.2 hother)).1]
  rw [hwf.senders _ _ hsender] at hlt
  simp [Std.ReflCmp.compare_self] at hlt

end Collect

/-- A list of topics makes one receiver for each topic in it, however often it is listed. -/
theorem joined_subscribeMultiple (h : bus.WF account) (topics : List Topic) :
    Joined account bus (distinct topics) (bus.subscribeMultiple topics) := by
  have hall := collected_listenEach h topics
  have hentries : ∀ {entry}, entry ∈ (bus.listenEach topics).1.entries →
      (bus.listenEach topics).1.find? entry.1 = some entry.2 := Table.find?_eq_some_iff.2
  have hvalues : ∀ receiver ∈ (bus.listenEach topics).1.values,
      receiver ∉ bus.receivers ∧ (bus.listenEach topics).2.Holds account receiver ∧
      (bus.listenEach topics).2.waiting account receiver = some [] := by
    intro receiver hmem
    obtain ⟨topic, hfound⟩ := Table.mem_values.1 hmem
    exact (hall.found hfound).2
  refine ⟨⟨?_, ?_, ?_⟩, hall.senders, fun receiver hmem => (hall.kept receiver hmem).2,
    (bus.listenEach topics).1.values, congrArg (· ++ _) hall.receivers, ?_,
    fun receiver hmem => (hvalues receiver hmem).2.2⟩
  · intro topic other hsame
    apply h.senders
    rwa [← hall.senders]
  · show ((bus.listenEach topics).2.receivers ++ (bus.listenEach topics).1.values).Nodup
    rw [hall.receivers]
    apply List.nodup_append.2 ⟨h.nodup, nodup_values h hall, _⟩
    rintro receiver hold _ hnew rfl
    exact (hvalues receiver hnew).1 hold
  · intro receiver hmem
    rcases List.mem_append.1 hmem with hold | hnew
    · exact (hall.kept receiver (hall.receivers ▸ hold)).1
    · exact (hvalues receiver hnew).2.1
  · rw [← keys_eq_distinct hall.listed]
    simp only [Table.values, Table.keys, List.map_map]
    apply List.map_congr_left
    intro entry hmem
    exact (hall.found (hentries hmem)).1

theorem wf_empty : (empty : Bus net).WF account where
  senders topic other h := by cases topic <;> cases other <;> simp_all [empty, EventBus.sender]
  nodup := List.nodup_nil
  holds _ h := absurd h List.not_mem_nil

theorem wf_publish (h : bus.WF account) (event : Event) : (bus.publish event).WF account where
  senders := h.senders
  nodup := h.nodup
  holds receiver hmem := (holds_publish event receiver).2 (h.holds receiver hmem)

theorem wf_receive (h : bus.WF account) (number : Nat) : (bus.receive number).2.WF account where
  senders := by simpa using h.senders
  nodup := by simpa using h.nodup
  holds receiver hmem := (holds_receive number receiver).2 (h.holds receiver (by simpa using hmem))

end Bus

end Encounter

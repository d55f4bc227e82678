import Encounter.Proofs.Bus.Account

/-!
# What receivers get

To a receiver the bus is an inbox: an event of its topic goes in at the back, what the receiver takes
goes out at the front, and nothing else is done to it (`Bus.Inbox`). The bus keeps to that for each
receiver as long as the receiver keeps up with the events of its topic. So what it took and what is
pending are together the events of its topic since it subscribed, whatever else is done with the bus.
-/

namespace Encounter
namespace Bus

/-- What may be done with a bus. -/
inductive Act where
  | subscribe (topic : Topic)
  | subscribeMultiple (topics : List Topic)
  | publish (event : Event)
  | receive (number : Nat)
  deriving DecidableEq, Repr

namespace Act

/-- The topics for which receivers are added, in the order of their numbers. -/
def added : Act → List Topic
  | subscribe topic => [topic]
  | subscribeMultiple topics => distinct topics
  | publish _ => []
  | receive _ => []

/-- The event that is published. -/
def event? : Act → Option Event
  | publish event => some event
  | _ => none

/-- What an act is to the receiver with the number if it is the only one of its bus and if no other
topic has events: there it has number 0. -/
def alone? (number : Nat) (topic : Topic) : Act → Option Act
  | publish event => if event.topic = topic then some (publish event) else none
  | receive other => if other = number then some (receive 0) else none
  | _ => none

end Act

variable {net : Broadcast}

/-- The bus after an act. -/
def act (bus : Bus net) : Act → Bus net
  | .subscribe topic => bus.subscribe topic
  | .subscribeMultiple topics => bus.subscribeMultiple topics
  | .publish event => bus.publish event
  | .receive number => (bus.receive number).2

/-- The bus after acts from left to right. -/
def after (bus : Bus net) (acts : List Act) : Bus net := acts.foldl act bus

/-- What an act hands to the receiver with the number. -/
def handed (bus : Bus net) (number : Nat) : Act → List Event
  | .receive other => if other = number then (bus.receive number).1.toList else []
  | _ => []

/-- What the receiver with the number takes during acts. -/
def taken (number : Nat) : Bus net → List Act → List Event
  | _, [] => []
  | bus, act :: acts => bus.handed number act ++ taken number (bus.act act) acts

/-- The events of a topic that are published during acts. -/
def published (topic : Topic) (acts : List Act) : List Event :=
  (acts.filterMap Act.event?).filter fun event => event.topic = topic

/-- Does a receiver, behind by some events at the start, keep up with its topic? When an event of the
topic is published, it is behind by less than the capacity. -/
def KeepsUp (bus : Bus net) (capacity behind number : Nat) (topic : Topic) (acts : List Act) : Prop :=
  ∀ earlier event rest, acts = earlier ++ .publish event :: rest → event.topic = topic →
    behind + (published topic earlier).length < (taken number bus earlier).length + capacity

private theorem after_cons (bus : Bus net) (act : Act) (acts : List Act) :
    bus.after (act :: acts) = (bus.act act).after acts := rfl

theorem after_append (bus : Bus net) (acts later : List Act) :
    bus.after (acts ++ later) = (bus.after acts).after later := List.foldl_append

private theorem taken_append (number : Nat) (bus : Bus net) (acts later : List Act) :
    taken number bus (acts ++ later) =
      taken number bus acts ++ taken number (bus.after acts) later := by
  induction acts generalizing bus with
  | nil => rfl
  | cons act acts ih => rw [List.cons_append, taken, taken, ih, List.append_assoc, after_cons]

private theorem published_append (topic : Topic) (acts later : List Act) :
    published topic (acts ++ later) = published topic acts ++ published topic later := by
  rw [published, List.filterMap_append, List.filter_append, published, published]

private theorem published_cons (topic : Topic) (act : Act) (acts : List Act) :
    published topic (act :: acts) = published topic [act] ++ published topic acts :=
  published_append topic [act] acts

section Receivers

variable {account : net.Account} {bus : Bus net} {number : Nat}

theorem wf_act (h : bus.WF account) (act : Act) : (bus.act act).WF account := by
  cases act with
  | subscribe topic => exact (joined_subscribe h topic).wf
  | subscribeMultiple topics => exact (joined_subscribeMultiple h topics).wf
  | publish event => exact wf_publish h event
  | receive number => exact wf_receive h number

theorem wf_after (h : bus.WF account) (acts : List Act) : (bus.after acts).WF account := by
  induction acts generalizing bus with
  | nil => exact h
  | cons act acts ih => exact ih (wf_act h act)

/-- The senders are chosen once. -/
private theorem senders_act (h : bus.WF account) (act : Act) :
    (bus.act act).senders = bus.senders := by
  cases act with
  | subscribe topic => exact (joined_subscribe h topic).senders
  | subscribeMultiple topics => exact (joined_subscribeMultiple h topics).senders
  | publish event => rfl
  | receive number => exact senders_receive number

/-- Receivers are only ever added, on the channels of the topics that are asked for. -/
theorem receivers_act (h : bus.WF account) (act : Act) :
    ∃ added : List Receiver, (bus.act act).receivers = bus.receivers ++ added ∧
      added.map Receiver.sender = act.added.map bus.senders.sender ∧
      ∀ receiver ∈ added, (bus.act act).waiting account receiver = some [] := by
  cases act with
  | subscribe topic => exact (joined_subscribe h topic).added
  | subscribeMultiple topics => exact (joined_subscribeMultiple h topics).added
  | publish event => exact ⟨[], (List.append_nil _).symm, rfl, fun _ hmem => by cases hmem⟩
  | receive number =>
    refine ⟨[], ?_, rfl, fun _ hmem => by cases hmem⟩
    exact (receivers_receive number).trans (List.append_nil _).symm

private theorem length_act (h : bus.WF account) (act : Act) :
    (bus.act act).receivers.length = bus.receivers.length + act.added.length := by
  obtain ⟨added, hreceivers, hsenders, -⟩ := receivers_act h act
  have hlength := congrArg List.length hsenders
  simp only [List.length_map] at hlength
  rw [hreceivers, List.length_append, hlength]

/-- A number without a receiver takes nothing. -/
private theorem handed_of_le (h : bus.receivers.length ≤ number) (act : Act) :
    bus.handed number act = [] := by
  cases act with
  | receive other =>
    by_cases hother : other = number
    · simp [handed, hother, receive, List.getElem?_eq_none h]
    · simp [handed, hother]
  | _ => rfl

private theorem length_le_after (h : bus.WF account) (acts : List Act) :
    bus.receivers.length ≤ (bus.after acts).receivers.length := by
  induction acts generalizing bus with
  | nil => exact Nat.le_refl _
  | cons act acts ih =>
    have hact := length_act h act
    have hrest := ih (wf_act h act)
    rw [after_cons]
    omega

/-- Nothing is taken under a number before it has a receiver. -/
private theorem taken_of_le {acts : List Act} (h : bus.WF account)
    (hnumber : (bus.after acts).receivers.length ≤ number) : taken number bus acts = [] := by
  induction acts generalizing bus with
  | nil => rfl
  | cons act acts ih =>
    have hbefore := Nat.le_trans (length_le_after h (act :: acts)) hnumber
    rw [taken, ih (wf_act h act) hnumber, handed_of_le hbefore]
    rfl

end Receivers

/-- A receiver as it is meant: a topic, and the events of the topic that are yet to be taken. -/
structure Inbox where
  topic : Topic
  events : List Event

namespace Inbox

/-- What an act does to the inbox of the receiver with the number. -/
def act (number : Nat) (inbox : Inbox) : Act → Inbox
  | .publish event =>
    if inbox.topic = event.topic then { inbox with events := inbox.events ++ [event] } else inbox
  | .receive other => if other = number then { inbox with events := inbox.events.tail } else inbox
  | _ => inbox

/-- What an act takes out of the inbox of the receiver with the number. -/
def handed (number : Nat) (inbox : Inbox) : Act → List Event
  | .receive other => if other = number then inbox.events.head?.toList else []
  | _ => []

/-- Is there room for one more event if the act brings one? -/
def Room (capacity : Nat) (inbox : Inbox) (act : Act) : Prop :=
  ∀ event, act = .publish event → event.topic = inbox.topic → inbox.events.length < capacity

variable {number : Nat} {inbox : Inbox}

/-- What is taken comes from the front, and what is published under the topic goes to the back. -/
private theorem handed_append_events (number : Nat) (inbox : Inbox) (act : Act) :
    inbox.handed number act ++ (inbox.act number act).events =
      inbox.events ++ published inbox.topic [act] := by
  cases act with
  | subscribe topic => exact (List.append_nil _).symm
  | subscribeMultiple topics => exact (List.append_nil _).symm
  | publish event =>
    by_cases htopic : inbox.topic = event.topic
    · simp [handed, Inbox.act, published, Act.event?, htopic]
    · simp [handed, Inbox.act, published, Act.event?, htopic, Ne.symm htopic]
  | receive other =>
    by_cases hother : other = number
    · cases hevents : inbox.events <;>
        simp [handed, Inbox.act, published, Act.event?, hother, hevents]
    · simp [handed, Inbox.act, published, Act.event?, hother]

private theorem topic_act (number : Nat) (inbox : Inbox) (act : Act) :
    (inbox.act number act).topic = inbox.topic := by
  cases act with
  | publish event =>
    simp only [Inbox.act]
    split <;> rfl
  | receive other =>
    simp only [Inbox.act]
    split <;> rfl
  | _ => rfl

/-- An act that is nothing to a receiver leaves it as it is. -/
private theorem act_of_alone?_eq_none {act : Act} (h : act.alone? number inbox.topic = none) :
    inbox.act number act = inbox ∧ inbox.handed number act = [] := by
  cases act with
  | publish event =>
    have htopic : event.topic ≠ inbox.topic := by simpa [Act.alone?] using h
    simp [Inbox.act, handed, Ne.symm htopic]
  | receive other =>
    have hother : other ≠ number := by simpa [Act.alone?] using h
    simp [Inbox.act, handed, hother]
  | _ => exact ⟨rfl, rfl⟩

/-- Any other act is the same to a receiver that is alone. -/
private theorem act_of_alone?_eq_some {act left : Act}
    (h : act.alone? number inbox.topic = some left) :
    inbox.act number act = inbox.act 0 left ∧ inbox.handed number act = inbox.handed 0 left ∧
      ∀ capacity, inbox.Room capacity act → inbox.Room capacity left := by
  cases act with
  | publish event =>
    obtain ⟨-, rfl⟩ : event.topic = inbox.topic ∧ Act.publish event = left := by
      simpa [Act.alone?] using h
    exact ⟨rfl, rfl, fun _ hroom => hroom⟩
  | receive other =>
    obtain ⟨rfl, rfl⟩ : other = number ∧ Act.receive 0 = left := by simpa [Act.alone?] using h
    exact ⟨by simp [Inbox.act], by simp [handed], fun _ _ _ hpublish => by cases hpublish⟩
  | _ => cases h

end Inbox

section Inbox

variable {account : net.Account} {bus : Bus net} {number : Nat} {inbox : Inbox}

/-- Does the bus treat the receiver with the number as that inbox? The receiver is on the channel of
the topic, and the events are what it has yet to take. -/
def Shows (account : net.Account) (bus : Bus net) (number : Nat) (inbox : Inbox) : Prop :=
  ∃ receiver, bus.receivers[number]? = some receiver ∧
    receiver.sender = bus.senders.sender inbox.topic ∧
    bus.waiting account receiver = some inbox.events

/-- Acts that add receivers are nothing to those that were there. -/
private theorem Joined.shows {topics : List Topic} {next : Bus net}
    (hjoined : Joined account bus topics next) (h : bus.Shows account number inbox) :
    next.Shows account number inbox := by
  obtain ⟨receiver, hget, hsender, hwaiting⟩ := h
  obtain ⟨added, hreceivers, -, -⟩ := hjoined.added
  refine ⟨receiver, ?_, ?_, ?_⟩
  · rw [hreceivers, List.getElem?_append_left (List.getElem?_eq_some_iff.1 hget).1, hget]
  · rw [hjoined.senders, hsender]
  · rw [hjoined.kept receiver (List.mem_of_getElem? hget), hwaiting]

/-- An act does to a receiver what it does to the inbox. -/
theorem shows_act (hwf : bus.WF account) (h : bus.Shows account number inbox) {act : Act}
    (hroom : inbox.Room account.capacity act) :
    (bus.act act).Shows account number (inbox.act number act) := by
  cases act with
  | subscribe topic => exact (joined_subscribe hwf topic).shows h
  | subscribeMultiple topics => exact (joined_subscribeMultiple hwf topics).shows h
  | publish event =>
    obtain ⟨receiver, hget, hsender, hwaiting⟩ := h
    -- The channel of the receiver serves the topic of the event exactly if the topics are the same.
    have hsame : receiver.sender = bus.senders.sender event.topic ↔ inbox.topic = event.topic := by
      rw [hsender]
      exact ⟨hwf.senders _ _, congrArg _⟩
    have hnext := waiting_publish hwaiting fun heq => hroom event rfl (hsame.1 heq).symm
    refine ⟨receiver, hget, ?_, hnext.trans ?_⟩
    · rw [Inbox.topic_act]
      exact hsender
    · simp only [Inbox.act, hsame]
      split <;> rfl
  | receive other =>
    obtain ⟨receiver, hget, hsender, hwaiting⟩ := h
    refine ⟨receiver, (congrArg (·[number]?) (receivers_receive other)).trans hget, ?_, ?_⟩
    · rw [Inbox.topic_act]
      exact (congrArg (EventBus.sender · _) (senders_receive other)).symm ▸ hsender
    · by_cases hother : other = number
      · subst hother
        simp only [Inbox.act, if_pos]
        exact (receive_of_waiting hget hwaiting).2
      · have hne : bus.receivers[other]? ≠ some receiver := by
          intro hsame
          have hlt := (List.getElem?_eq_some_iff.1 hsame).1
          exact hother ((List.getElem?_inj hlt hwf.nodup).1 (hsame.trans hget.symm))
        simp only [Inbox.act, if_neg hother]
        exact (waiting_receive_of_ne hne).trans hwaiting

private theorem handed_of_shows (h : bus.Shows account number inbox) (act : Act) :
    bus.handed number act = inbox.handed number act := by
  obtain ⟨receiver, hget, -, hwaiting⟩ := h
  cases act with
  | receive other => rw [handed, Inbox.handed, (receive_of_waiting hget hwaiting).1]
  | _ => rfl

/-- A receiver that is added has nothing to take. -/
private theorem shows_added (h : bus.WF account) {act : Act} {i : Nat} {topic : Topic}
    (htopic : act.added[i]? = some topic) :
    (bus.act act).Shows account (bus.receivers.length + i) ⟨topic, []⟩ := by
  obtain ⟨added, hreceivers, hsenders, hnothing⟩ := receivers_act h act
  have hget : (added.map Receiver.sender)[i]? = some (bus.senders.sender topic) := by
    rw [hsenders, List.getElem?_map, htopic]
    rfl
  rw [List.getElem?_map] at hget
  obtain ⟨receiver, hreceiver, hsender⟩ := Option.map_eq_some_iff.1 hget
  refine ⟨receiver, ?_, ?_, hnothing receiver (List.mem_of_getElem? hreceiver)⟩
  · rw [hreceivers, List.getElem?_append_right (Nat.le_add_right _ _), Nat.add_sub_cancel_left,
      hreceiver]
  · rw [hsender, senders_act h]

/-- Nobody falls behind by more events than there are. -/
theorem keepsUp_of_length_le {capacity : Nat} {topic : Topic} {acts : List Act}
    (h : (published topic acts).length ≤ capacity) : bus.KeepsUp capacity 0 number topic acts := by
  rintro earlier event rest rfl htopic
  rw [published_append, published_cons, List.length_append, List.length_append] at h
  have hone : published topic [.publish event] = [event] := by simp [published, Act.event?, htopic]
  rw [hone, List.length_singleton] at h
  omega

private theorem KeepsUp.room {capacity : Nat} {act : Act} {acts : List Act}
    (h : bus.KeepsUp capacity inbox.events.length number inbox.topic (act :: acts)) :
    inbox.Room capacity act := by
  rintro event rfl htopic
  simpa [published, taken] using h [] event acts rfl htopic

theorem KeepsUp.next {capacity : Nat} {act : Act} {acts : List Act}
    (h : bus.KeepsUp capacity inbox.events.length number inbox.topic (act :: acts))
    (hhanded : bus.handed number act = inbox.handed number act) :
    (bus.act act).KeepsUp capacity (inbox.act number act).events.length number inbox.topic acts := by
  intro earlier event rest hacts htopic
  have hbefore := h (act :: earlier) event rest (by rw [hacts, List.cons_append]) htopic
  have hstep := congrArg List.length (inbox.handed_append_events number act)
  rw [taken, hhanded, published_cons, List.length_append, List.length_append] at hbefore
  rw [List.length_append, List.length_append] at hstep
  omega

/-- What a receiver takes during acts and what is pending in the end are what was pending and what is
published under its topic. -/
theorem taken_append_pending (hwf : bus.WF account) (h : bus.Shows account number inbox)
    {acts : List Act}
    (hkeeps : bus.KeepsUp account.capacity inbox.events.length number inbox.topic acts) :
    ∃ pending, (bus.after acts).Shows account number ⟨inbox.topic, pending⟩ ∧
      taken number bus acts ++ pending = inbox.events ++ published inbox.topic acts := by
  induction acts generalizing bus inbox with
  | nil => exact ⟨inbox.events, h, (List.append_nil _).symm⟩
  | cons act acts ih =>
    have hhanded := handed_of_shows h act
    have hnext := hkeeps.next hhanded
    rw [← Inbox.topic_act number inbox act] at hnext
    obtain ⟨pending, hafter, htaken⟩ := ih (wf_act hwf act) (shows_act hwf h hkeeps.room) hnext
    rw [Inbox.topic_act] at hafter htaken
    refine ⟨pending, hafter, ?_⟩
    rw [taken, hhanded, List.append_assoc, htaken, ← List.append_assoc,
      Inbox.handed_append_events, List.append_assoc, ← published_cons]

/-- A receiver takes what it would take without the others and without events of other topics. -/
theorem taken_eq_alone {lone : Bus net} (hwf : bus.WF account) (hlonely : lone.WF account)
    (h : bus.Shows account number inbox) (hlone : lone.Shows account 0 inbox) {acts : List Act}
    (hkeeps : bus.KeepsUp account.capacity inbox.events.length number inbox.topic acts) :
    taken number bus acts =
      taken 0 lone (acts.filterMap (Act.alone? number inbox.topic)) := by
  induction acts generalizing bus lone inbox with
  | nil => rfl
  | cons act acts ih =>
    have hhanded := handed_of_shows h act
    have hshows := shows_act hwf h hkeeps.room
    have hnext := hkeeps.next hhanded
    rw [taken, hhanded, List.filterMap_cons]
    cases halone : act.alone? number inbox.topic with
    | none =>
      obtain ⟨hsame, hnothing⟩ := Inbox.act_of_alone?_eq_none halone
      rw [hsame] at hshows hnext
      rw [hnothing, ih (wf_act hwf act) hlonely hshows hlone hnext]
      rfl
    | some left =>
      obtain ⟨hsame, htakes, hroom⟩ := Inbox.act_of_alone?_eq_some halone
      have hlater := shows_act hlonely hlone (hroom _ hkeeps.room)
      rw [← hsame] at hlater
      rw [← Inbox.topic_act number inbox act] at hnext
      have hrest := ih (wf_act hwf act) (wf_act hlonely left) hshows hlater hnext
      rw [Inbox.topic_act] at hrest
      rw [hrest, htakes, ← handed_of_shows hlone]
      rfl

end Inbox

/-- Every receiver sees exactly the later events of its topic, on channels that keep their account.
An act adds one receiver per distinct topic that it asks for, numbered on from those before. Whatever
happens later, as long as such a receiver keeps up with its topic: what it took and then what is
pending for it are the events of the topic published since, in order and each once; the next one
taken is the first of them that was not; and it takes them as if it were alone on the bus with the
events of its topic. -/
theorem delivery_exact (account : net.Account) (before : List Act) (act : Act) (later : List Act) :
    let first := (empty.after before : Bus net).receivers.length
    let joined : Bus net := empty.after (before ++ [act])
    let bus := joined.after later
    joined.receivers.length = first + act.added.length ∧
    (∀ topics, (distinct topics).Nodup ∧ ∀ topic, topic ∈ distinct topics ↔ topic ∈ topics) ∧
    ∀ i topic, act.added[i]? = some topic →
      joined.KeepsUp account.capacity 0 (first + i) topic later →
      let due := published topic later
      let got := taken (first + i) (empty : Bus net) (before ++ act :: later)
      (∃ receiver pending, bus.receivers[first + i]? = some receiver ∧
        receiver.sender = bus.senders.sender topic ∧
        bus.waiting account receiver = some pending ∧ got ++ pending = due) ∧
      (bus.receive (first + i)).1 = due[got.length]? ∧
      got = taken 0 (empty.subscribe topic : Bus net)
        (later.filterMap (Act.alone? (first + i) topic)) := by
  intro first joined bus
  have hempty : (empty : Bus net).WF account := wf_empty
  have hbefore : (empty.after before : Bus net).WF account := wf_after hempty before
  have hjoined : joined = (empty.after before : Bus net).act act := after_append _ _ _
  refine ⟨?_, fun topics => ⟨nodup_distinct topics, fun topic => mem_distinct⟩, ?_⟩
  · rw [hjoined]
    exact length_act hbefore act
  · intro i topic htopic hkeeps due got
    -- The receiver is there right after the act, and it took nothing before.
    have hstart : joined.Shows account (first + i) ⟨topic, []⟩ := by
      rw [hjoined]
      exact shows_added hbefore htopic
    have hwf : joined.WF account := wf_after hempty _
    have hgot : got = taken (first + i) joined later := by
      show taken (first + i) empty (before ++ act :: later) = _
      rw [taken_append, taken_of_le hempty (Nat.le_add_right _ _), taken,
        handed_of_le (Nat.le_add_right _ _), hjoined]
      rfl
    obtain ⟨pending, ⟨receiver, hget, hsender, hwaiting⟩, hdue⟩ :=
      taken_append_pending hwf hstart hkeeps
    rw [← hgot] at hdue
    refine ⟨⟨receiver, pending, hget, hsender, hwaiting, hdue⟩, ?_, ?_⟩
    · have hall : due = got ++ pending := hdue.symm
      rw [(receive_of_waiting hget hwaiting).1, hall, List.getElem?_append_right (Nat.le_refl _),
        Nat.sub_self, ← List.head?_eq_getElem?]
    · rw [hgot]
      have hlone : ((empty : Bus net).act (.subscribe topic)).Shows account 0 ⟨topic, []⟩ :=
        shows_added (i := 0) hempty rfl
      exact taken_eq_alone hwf (wf_act hempty (.subscribe topic)) hstart hlone hkeeps

/-- Of three topics one is named twice, so there are receivers 1 and 2 behind receiver 0. The last of
them misses the first start, takes the second, and has the end to come. -/
theorem delivery_exact_session :
    let subject : Subject := ⟨⟨1⟩, ⟨1⟩, .npc ⟨1012112⟩ ⟨910010400⟩⟩
    let started : Event := ⟨subject, .started⟩
    let ended : Event := ⟨subject, .ended .completed⟩
    let joined : Bus .queues := empty.after ([.publish started, .subscribe .effect] ++
      [.subscribeMultiple [.session, .effect, .session]])
    let later := [.publish started, .publish ⟨subject, .effected (.chat "hello")⟩, .receive 0,
      .receive 2, .publish ended]
    joined.KeepsUp 100 0 2 .session later ∧
    (∃ receiver pending, (joined.after later).receivers[2]? = some receiver ∧
      receiver.sender = (joined.after later).senders.sender .session ∧
      (joined.after later).waiting (Broadcast.queuesAccount 100) receiver = some pending ∧
      [started] ++ pending = [started, ended]) ∧
    ((joined.after later).receive 2).1 = some ended := by
  intro subject started ended joined later
  have hkeeps : joined.KeepsUp 100 0 2 .session later := keepsUp_of_length_le (by decide)
  have hfirst : (empty.after [.publish started, .subscribe .effect] :
      Bus .queues).receivers.length + 1 = 2 := by decide +kernel
  have hgot : taken 2 (empty : Bus .queues) ([.publish started, .subscribe .effect] ++
      .subscribeMultiple [.session, .effect, .session] :: later) = [started] := by decide +kernel
  have hdue : published .session later = [started, ended] := by decide +kernel
  obtain ⟨hpending, hnext, -⟩ := (delivery_exact (Broadcast.queuesAccount 100)
    [.publish started, .subscribe .effect] (.subscribeMultiple [.session, .effect, .session])
    later).2.2 1 .session rfl hkeeps
  rw [hfirst, hgot, hdue] at hpending hnext
  exact ⟨hkeeps, hpending, hnext⟩

end Bus
end Encounter

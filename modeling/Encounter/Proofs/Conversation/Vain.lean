import Encounter.Proofs.Conversation.Exclusive

/-!
# Requests in vain

A trigger or a reply is in vain if it is refused or, for a trigger, if no script answers it. Just
these requests leave the engine as it is, down to the last queue. So a run may as well be without
them (`Engine.after_fruitful`): however many replies did not answer a prompt, the next one that does
is taken as if it were the first.
-/

namespace Encounter

/-- Does the command ask for something to happen in a session? -/
def Command.isRequest : Command → Bool
  | trigger _ _ => true
  | respond _ _ => true
  | _ => false

/-- Did nothing come of a request that is answered so? -/
def inVain : Except EngineError Answer → Bool
  | .error _ => true
  | .ok (.triggered .unbound) => true
  | .ok _ => false

namespace Engine

variable {engine : Engine}

/-- A trigger changes the engine unless it is in vain. -/
private theorem handle_trigger_eq_self_iff (engine : Engine) (player : PlayerId)
    (trigger : Trigger) :
    (engine.handle (.trigger player trigger)).1 = engine ↔
      inVain (engine.handle (.trigger player trigger)).2 = true := by
  -- Either way of accepting a trigger gives away a number.
  have hcounts : ∀ next : Engine, next.table.next = ⟨engine.table.next.val + 1⟩ → next ≠ engine := by
    rintro next hnext rfl
    exact Nat.succ_ne_self _ (congrArg SessionId.val hnext).symm
  cases ha : engine.accepting with
  | false => simp [handle_of_not_accepting ha, inVain]
  | true =>
    rw [handle_trigger ha]
    obtain ⟨script, view, -, -, -, -, he⟩ | ⟨id, session, -, -, -, he⟩ | ⟨result, hresult, he⟩ :=
      engine.trigger_cases player trigger
    · rw [he]
      exact iff_of_false (hcounts _ rfl) Bool.false_ne_true
    · rw [he]
      exact iff_of_false (hcounts _ rfl) Bool.false_ne_true
    · rw [he]
      refine iff_of_true rfl ?_
      cases result with
      | error error => rfl
      | ok outcome =>
        cases outcome with
        | unbound => rfl
        | started id => cases hresult _ rfl
        | queued id => cases hresult _ rfl

/-- A reply changes the engine unless it is in vain. -/
private theorem handle_respond_eq_self_iff (engine : Engine) (player : PlayerId) (reply : Reply) :
    (engine.handle (.respond player reply)).1 = engine ↔
      inVain (engine.handle (.respond player reply)).2 = true := by
  cases ha : engine.accepting with
  | false => simp [handle_of_not_accepting ha, inVain]
  | true =>
    rw [handle_respond ha]
    obtain ⟨id, session, prompt, next, hs, -, -, he⟩ | ⟨error, he⟩ :=
      engine.respond_cases player reply
    · obtain ⟨hf, -, hwaits⟩ := SessionTable.of_suspendedOf?_eq_some hs
      have hne : engine.resume id session (Script.answer prompt next reply) ≠ engine := by
        intro hsame
        exact find?_resume_ne hf hwaits _ (hsame.symm ▸ hf)
      rw [he]
      exact iff_of_false hne Bool.false_ne_true
    · rw [he]
      exact iff_of_true rfl rfl

/-- A request leaves the engine as it is exactly if it is in vain. -/
private theorem handle_eq_self_iff (engine : Engine) {command : Command}
    (h : command.isRequest = true) :
    (engine.handle command).1 = engine ↔ inVain (engine.handle command).2 = true := by
  cases command with
  | trigger player trigger => exact engine.handle_trigger_eq_self_iff player trigger
  | respond player reply => exact engine.handle_respond_eq_self_iff player reply
  | disconnect | playerMoved | sessions | shutdown => cases h

/-- Is the act a request in vain? -/
def isVain (engine : Engine) : Act → Bool
  | .command command => command.isRequest && inVain (engine.handle command).2
  | _ => false

/-- The acts of a run but for the requests in vain. -/
def fruitful (engine : Engine) : List Act → List Act
  | [] => []
  | act :: acts =>
    if engine.isVain act then fruitful (engine.act act) acts
    else act :: fruitful (engine.act act) acts

private theorem act_of_isVain {act : Act} (h : engine.isVain act = true) :
    engine.act act = engine := by
  cases act with
  | command command =>
    obtain ⟨hrequest, hvain⟩ := Bool.and_eq_true_iff.1 h
    exact (engine.handle_eq_self_iff hrequest).2 hvain
  | notice | poll | unpark | edit => cases h

/-- Without the requests in vain a run leads to the same state. -/
theorem after_fruitful (engine : Engine) (acts : List Act) :
    engine.after (engine.fruitful acts) = engine.after acts := by
  induction acts generalizing engine with
  | nil => rfl
  | cons act acts ih =>
    rw [fruitful]
    split
    · next hvain =>
      -- What follows starts from the engine as it was before the request.
      have hsame := act_of_isVain hvain
      have hrest := ih (engine.act act)
      rw [hsame] at hrest ⊢
      exact hrest.trans (congrArg (fun next => after next acts) hsame).symm
    · exact ih (engine.act act)

/-- While a dialogue is open, the replies that its prompt does not accept are all in vain. -/
private theorem after_mismatches {id : SessionId} {session : Session} {prompt : Prompt}
    {next : prompt.kind.Answer → Script Unit} (haccepting : engine.accepting = true)
    (hdialogue : engine.table.suspendedOf? session.player = some (id, session))
    (hphase : session.phase = .suspended prompt next) {replies : List Reply}
    (hnone : ∀ reply ∈ replies, prompt.accepts reply = false) :
    engine.after (replies.map fun reply => .command (.respond session.player reply)) = engine ∧
      ∀ reply ∈ replies, (engine.handle (.respond session.player reply)).2 =
        .error (.replyMismatch session.player prompt.kind reply) := by
  have hrefused : ∀ reply, prompt.accepts reply = false →
      engine.handle (.respond session.player reply) =
        (engine, .error (.replyMismatch session.player prompt.kind reply)) := by
    intro reply hr
    rw [handle_respond haccepting, respond_of_waiting hdialogue hphase, hr]
    rfl
  refine ⟨?_, fun reply hr => congrArg Prod.snd (hrefused reply (hnone reply hr))⟩
  induction replies with
  | nil => rfl
  | cons reply replies ih =>
    rw [List.forall_mem_cons] at hnone
    have hfirst : engine.act (.command (.respond session.player reply)) = engine :=
      congrArg Prod.fst (hrefused reply hnone.1)
    show after (engine.act _) _ = engine
    rw [hfirst]
    exact ih hnone.2

/-- Whatever happened in whatever order, a trigger or a reply leaves the engine as it is exactly if
it is refused or, for a trigger, if no script answers it; the engine then comes to rest as if it had
not come. In what follows, too, such requests may be left out. While a session waits on a prompt, all
replies of its player that the prompt does not accept are refused as mismatches, in any number, and
leave the session waiting; the next reply that the prompt accepts resumes it as if they had never
been sent. -/
theorem requests_in_vain (registry : Registry) (world : World) (acts : List Act) :
    let engine := (new registry world).after acts
    (∀ command, command.isRequest = true →
      ((engine.handle command).1 = engine ↔ inVain (engine.handle command).2 = true) ∧
      (inVain (engine.handle command).2 = true → (engine.perform command).1 = engine.settle)) ∧
    (∀ later, engine.after (engine.fruitful later) = engine.after later) ∧
    ∀ id session prompt next, engine.table.find? id = some session →
      session.phase = .suspended prompt next →
      ∀ replies : List Reply, (∀ reply ∈ replies, prompt.accepts reply = false) →
      let tried := engine.after (replies.map fun reply => .command (.respond session.player reply))
      tried = engine ∧
      (∀ reply ∈ replies, (engine.handle (.respond session.player reply)).2 =
        .error (.replyMismatch session.player prompt.kind reply)) ∧
      ∀ reply, prompt.accepts reply = true → tried.handle (.respond session.player reply) =
        (engine.resume id session (Script.answer prompt next reply), .ok .resumed) := by
  intro engine
  have hone : engine.table.OneDialogue :=
    (changes_after (new registry world) acts).oneDialogue SessionTable.oneDialogue_empty
  refine ⟨?_, engine.after_fruitful, ?_⟩
  · intro command hrequest
    have hiff := engine.handle_eq_self_iff hrequest
    refine ⟨hiff, fun hvain => ?_⟩
    exact congrArg settle (hiff.2 hvain)
  · intro id session prompt next hf hphase replies hnone tried
    have haccepting : engine.accepting = true :=
      @accepting_of_find?_after (new registry world) rfl acts _ _ hf
    have hwaits : session.isSuspended = true := by simp [Session.isSuspended, hphase, Phase.prompt?]
    have hdialogue := hone.suspendedOf? hf hwaits
    obtain ⟨hsame, hanswers⟩ := after_mismatches haccepting hdialogue hphase hnone
    refine ⟨hsame, hanswers, ?_⟩
    intro reply hr
    show (engine.after _).handle _ = _
    rw [hsame, handle_respond haccepting, respond_of_waiting hdialogue hphase, if_pos hr]
    rfl

/-- A selection and an answer leave the sign to be read, and it is put away as if there had been
neither. -/
theorem requests_in_vain_sign :
    let tried := signIsRead.after
      [.command (.respond ⟨1⟩ (.selection 0)), .command (.respond ⟨1⟩ (.answer 1))]
    tried = signIsRead ∧ (tried.handle (.respond ⟨1⟩ .dismissed)).2 = .ok .resumed := by
  obtain ⟨next, hf⟩ := find?_signIsRead
  obtain ⟨acts, -, he⟩ := (new errandRegistry errandWorld).exists_acts_play
    [.command (.trigger ⟨1⟩ (.npc ⟨1⟩ ⟨5⟩)), .command (.trigger ⟨1⟩ (.reactor ⟨2⟩ ⟨5⟩))]
  have hvain := requests_in_vain errandRegistry errandWorld acts
  rw [he] at hvain
  obtain ⟨-, -, hsign⟩ := hvain
  obtain ⟨hsame, -, hnext⟩ := hsign ⟨2⟩ _ _ next hf rfl [.selection 0, .answer 1] (by decide)
  exact ⟨hsame, congrArg Prod.snd (hnext .dismissed rfl)⟩

end Engine
end Encounter

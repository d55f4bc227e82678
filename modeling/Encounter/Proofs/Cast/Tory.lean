import Encounter.Proofs.Script.Refusal
import Encounter.Proofs.Script.Warps

/-!
# What Tory does

Tory's transcript on each of her maps, for any player, party and replies. She never fails by herself:
only a reply that is missing or does not fit ends her script early.
-/

namespace Encounter.Tory

/-- The number of entries of members who count at the gate. -/
def qualified (map : MapId) (members : List PartyMember) : Nat :=
  (members.filter fun member => member.map = map ∧ 10 ≤ member.level).length

/-- What Tory answers to a player who wants to go: the first thing that is wrong, if anything is. -/
def parkText (ctx : Context) : String :=
  match ctx.party with
  | none => notInPartyText
  | some party =>
    if party.leader ≠ ctx.player.id then notLeaderText
    else if qualified ctx.map.id party.members < 3 ∨ 6 < qualified ctx.map.id party.members then
      wrongPartySizeText
    else notReadyText

/-- The gate counts members of level ten or more. -/
private theorem countOn_gate (party : PartyView) (map : MapId) :
    party.countOn map primroseHillGate.levels = qualified map party.members := by
  have htop (level : UInt8) : level ≤ 255 :=
    UInt8.le_iff_toNat_le.2 (Nat.le_of_lt_succ level.toNat_lt)
  rw [PartyView.countOn, List.countP_eq_length_filter, qualified]
  congr 2
  funext member
  rw [Bool.eq_iff_iff]
  simp only [primroseHillGate, LevelRange.contains, Bool.and_eq_true, beq_iff_eq,
    decide_eq_true_iff, htop, and_true]
  exact and_congr_right fun _ => decide_eq_true_iff

private theorem gateText_check (ctx : Context) :
    gateText (primroseHillGate.check ctx.player ctx.map.id ctx.party) = parkText ctx := by
  unfold parkText
  cases hparty : ctx.party with
  | none => rfl
  | some party =>
    simp only [PartyGate.check, countOn_gate, PartyView.isLeader]
    by_cases hleads : party.leader = ctx.player.id
    · by_cases hsize : qualified ctx.map.id party.members < 3 ∨
          6 < qualified ctx.map.id party.members
      · simp [hleads, hsize, primroseHillGate, PartyGate.maxPartySize, gateText]
      · simp [hleads, hsize, primroseHillGate, PartyGate.maxPartySize, gateText]
    · simp [hleads, gateText]

/-- The menu at the park has one link. -/
private theorem options_helpMenu :
    Prompt.options ⟨.askMenu, helpMenuText⟩ = [⟨0, "Yes, I will go."⟩] := by
  decide +kernel

/-- So the menu takes the selection of that link and no other reply. -/
private theorem read_helpMenu : Prompt.read ⟨.askMenu, helpMenuText⟩ (.selection 0) = .ok 0 := by
  have hoffered : Prompt.accepts ⟨.askMenu, helpMenuText⟩ (.selection 0) = true := by
    rw [Prompt.accepts, options_helpMenu]
    rfl
  simp only [Prompt.read, hoffered, if_true]

private theorem eq_of_accepts_helpMenu (reply : Reply)
    (h : Prompt.accepts ⟨.askMenu, helpMenuText⟩ reply = true) : reply = .selection 0 := by
  cases reply with
  | dismissed => cases h
  | answer raw => cases h
  | selection index =>
    simp only [Prompt.accepts, options_helpMenu, List.isEmpty_cons, List.any_cons, List.any_nil,
      Bool.or_false, Bool.false_or, beq_self_eq_true, Bool.true_and, beq_iff_eq] at h
    rw [← h]

/-- A page is put away and takes no other reply. -/
private theorem eq_of_accepts_page {kind : PromptKind} (hpage : kind = .sayNext ∨ kind = .say)
    {text : String} (reply : Reply) (h : Prompt.accepts ⟨kind, text⟩ reply = true) :
    reply = .dismissed := by
  obtain rfl | rfl := hpage <;> cases reply <;> first | rfl | cases h

/-- The calls that Tory makes at the park. -/
theorem run_entrance (ctx : Context) :
    entrance.run ctx = .ask ⟨.sayNext, introText⟩ fun _ =>
      .ask ⟨.askMenu, helpMenuText⟩ fun choice =>
        if choice ≠ 0 then .done () else .ask ⟨.say, parkText ctx⟩ .done := by
  rw [← gateText_check]
  rfl

/-- At the park nothing happens but prompts. The third one comes after the first two were answered
in the one way that leads there, and only a third such answer ends the script well. -/
theorem replay_entrance (ctx : Context) (replies : List Reply) :
    ((entrance.run ctx).replay replies).effects = [] ∧
    ((entrance.run ctx).replay replies).prompts <+:
      [⟨.sayNext, introText⟩, ⟨.askMenu, helpMenuText⟩, ⟨.say, parkText ctx⟩] ∧
    (((entrance.run ctx).replay replies).prompts.length = 3 ↔
      [.dismissed, .selection 0] <+: replies) ∧
    (((entrance.run ctx).replay replies).result = .ok () ↔
      [.dismissed, .selection 0, .dismissed] <+: replies) := by
  rw [run_entrance]
  obtain ⟨rest, rfl, hintro⟩ | ⟨hstays, error, hintro⟩ := Script.replay_ask_of_sole
    ⟨.sayNext, introText⟩ _ rfl (eq_of_accepts_page (.inl rfl)) replies
  · rw [hintro]
    obtain ⟨rest, rfl, hmenu⟩ | ⟨hstays, error, hmenu⟩ := Script.replay_ask_of_sole
      ⟨.askMenu, helpMenuText⟩ _ read_helpMenu eq_of_accepts_helpMenu rest
    · rw [hmenu, if_neg (not_not.2 rfl)]
      simp only [List.cons_prefix_cons, true_and, List.nil_prefix, iff_true]
      obtain ⟨rest, rfl, hanswer⟩ | ⟨hstays, error, hanswer⟩ := Script.replay_ask_of_sole
        ⟨.say, parkText ctx⟩ _ rfl (eq_of_accepts_page (.inr rfl)) rest
      · rw [hanswer]
        exact ⟨rfl, List.prefix_refl _, rfl, iff_of_true rfl ⟨rest, rfl⟩⟩
      · rw [hanswer]
        exact ⟨rfl, List.prefix_refl _, rfl, iff_of_false nofun hstays⟩
    · rw [hmenu]
      simp only [List.cons_prefix_cons, true_and]
      refine ⟨rfl, ⟨[_], rfl⟩, iff_of_false nofun hstays, iff_of_false nofun fun hmore => ?_⟩
      exact hstays ((List.prefix_append [_] [_]).trans hmore)
  · rw [hintro]
    refine ⟨rfl, ⟨[_, _], rfl⟩, iff_of_false nofun fun hmore => ?_,
      iff_of_false nofun fun hmore => ?_⟩
    · exact hstays ((List.prefix_append [_] [_]).trans hmore)
    · exact hstays ((List.prefix_append [_] [_, _]).trans hmore)

/-- She gives the answer that the quest is not ready to the leaders of fitting parties only. -/
private theorem parkText_eq_notReady_iff (ctx : Context) :
    parkText ctx = notReadyText ↔ ∃ party, ctx.party = some party ∧
      party.leader = ctx.player.id ∧ 3 ≤ qualified ctx.map.id party.members ∧
      qualified ctx.map.id party.members ≤ 6 := by
  have hparty : notInPartyText ≠ notReadyText := by decide +kernel
  have hleader : notLeaderText ≠ notReadyText := by decide +kernel
  have hsize : wrongPartySizeText ≠ notReadyText := by decide +kernel
  unfold parkText
  cases ctx.party with
  | none => simp [hparty]
  | some party =>
    simp only [Option.some.injEq, exists_eq_left']
    split
    · next hnot => simp [hleader, hnot]
    · next hleads =>
      rw [ne_eq, not_not] at hleads
      split
      · next hcount =>
        refine iff_of_false hsize ?_
        omega
      · next hcount =>
        refine iff_of_true rfl ⟨hleads, ?_⟩
        omega

/-- The calls that Tory makes where players choose. -/
theorem run_offeredReturn (ctx : Context) :
    offeredReturn.run ctx = .ask ⟨.askYesNo, offerReturnText⟩ fun answer =>
      if answer.isYes then .emit (.changeMap henesysPark (some ⟨0⟩)) (.done ()) else .done () := rfl

/-- Where players choose, the warp follows exactly the answer yes. -/
theorem replay_offeredReturn (ctx : Context) (replies : List Reply) :
    ((offeredReturn.run ctx).replay replies).entries =
      .prompt ⟨.askYesNo, offerReturnText⟩ ::
        if replies.head? = some (.answer 1) then [.effect (.changeMap henesysPark (some ⟨0⟩))]
        else [] := by
  rw [run_offeredReturn]
  cases replies with
  | nil => rfl
  | cons reply rest =>
    cases reply with
    | dismissed => rfl
    | selection index => rfl
    | answer raw =>
      simp only [Script.replay, Prompt.read, YesNo.ofRaw]
      by_cases hyes : raw = 1
      · simp [hyes, YesNo.isYes, Script.replay, Transcript.cons]
      · simp [hyes, YesNo.isYes, Script.replay, Transcript.cons]

/-- Where players are forced back nobody is asked. -/
theorem replay_forcedReturn (ctx : Context) (replies : List Reply) :
    (forcedReturn.run ctx).replay replies =
      ⟨[.effect (.changeMap henesysPark none), .effect (.chat warpedBackText)], .ok ()⟩ := rfl

private theorem run_at_park {ctx : Context} (h : ctx.map.id = henesysPark) :
    script.run ctx = entrance.run ctx := by
  rw [run_script, h]
  rfl

private theorem run_where_forced {ctx : Context} (h : ctx.map.id = forcedReturnMap) :
    script.run ctx = forcedReturn.run ctx := by
  rw [run_script, h]
  rfl

private theorem run_where_offered {ctx : Context} (h : ctx.map.id = offeredReturnMap) :
    script.run ctx = offeredReturn.run ctx := by
  rw [run_script, h]
  rfl

/-- On any other map Tory does nothing. -/
private theorem run_elsewhere {ctx : Context}
    (h : ctx.map.id ∉ [henesysPark, forcedReturnMap, offeredReturnMap]) :
    script.run ctx = .done () := by
  simp only [List.mem_cons, List.not_mem_nil, or_false, not_or] at h
  rw [run_script, find?_branches, if_neg h.2.2, if_neg h.2.1, if_neg h.1]

/-- Tory never gives up by herself. -/
theorem neverFails_script (ctx : Context) : (script.run ctx).NeverFails := by
  by_cases h : ctx.map.id ∈ [henesysPark, forcedReturnMap, offeredReturnMap]
  · simp only [List.mem_cons, List.not_mem_nil, or_false] at h
    obtain hpark | hforced | hoffered := h
    · rw [run_at_park hpark, run_entrance]
      intro _ choice
      dsimp only
      split
      · trivial
      · exact fun _ => trivial
    · rw [run_where_forced hforced]
      trivial
    · rw [run_where_offered hoffered, run_offeredReturn]
      intro answer
      cases answer <;> trivial
  · rw [run_elsewhere h]
    trivial

/-- What Tory does, for any player, party and replies. On the map of the forced return she warps the
player to the park, without a portal, and says so in the chat. On the map of the offered return she
asks once, and warps the player to portal 0 of the park exactly if the first reply is the answer 1.
At the park she has no effect and shows at most a page, a menu and a page. The last one is reached
exactly if the first two replies are to dismiss the page and to select link 0; its text is that the
quest is not ready if the player leads a party with three to six entries of members on the map of
level 10 or more, and otherwise names the first of party, lead and size that is missing; and the run
is a success exactly if that page is dismissed as well. On other maps nothing happens at all. The
first prompt whose reply is missing or does not fit is the last thing that happens, and the run ends
with the error for it: the player disconnected, the menu does not offer the selection, or the reply
is not of the kind. Without such a prompt the run is a success. -/
theorem replay_script (ctx : Context) (replies : List Reply) :
    let run := (script.run ctx).replay replies
    (ctx.map.id = ⟨910010400⟩ →
      run.entries =
        [.effect (.changeMap ⟨100000200⟩ none),
          .effect (.chat "You have been warped to Henesys Park.")] ∧
      run.result = .ok ()) ∧
    (ctx.map.id = ⟨910010100⟩ →
      run.entries =
        .prompt ⟨.askYesNo, "Would you like go to #rHenesys Park#k?"⟩ ::
          if replies.head? = some (.answer 1) then
            [.effect (.changeMap ⟨100000200⟩ (some ⟨0⟩))]
          else []) ∧
    (ctx.map.id = ⟨100000200⟩ →
      run.effects = [] ∧
      run.prompts <+:
        [⟨.sayNext, introText⟩, ⟨.askMenu, helpMenuText⟩, ⟨.say, parkText ctx⟩] ∧
      (run.prompts.length = 3 ↔ [.dismissed, .selection 0] <+: replies) ∧
      (run.result = .ok () ↔ [.dismissed, .selection 0, .dismissed] <+: replies) ∧
      (parkText ctx = notReadyText ↔ ∃ party, ctx.party = some party ∧
        party.leader = ctx.player.id ∧ 3 ≤ qualified ctx.map.id party.members ∧
        qualified ctx.map.id party.members ≤ 6)) ∧
    (ctx.map.id ∉ [⟨100000200⟩, ⟨910010400⟩, ⟨910010100⟩] →
      run.entries = [] ∧ run.result = .ok ()) ∧
    (∀ (i : Nat) prompt error, run.prompts[i]? = some prompt →
      prompt.failure? replies[i]? = some error →
      run.entries.getLast? = some (.prompt prompt) ∧ run.prompts.length = i + 1 ∧
        run.result = .error error) ∧
    ((∀ (i : Nat) prompt, run.prompts[i]? = some prompt → prompt.failure? replies[i]? = none) →
      run.result = .ok ()) := by
  refine ⟨?_, ?_, ?_, ?_, ?_, ?_⟩
  · intro hforced
    rw [run_where_forced hforced, replay_forcedReturn]
    exact ⟨rfl, rfl⟩
  · intro hoffered
    rw [run_where_offered hoffered]
    exact replay_offeredReturn ctx replies
  · intro hpark
    rw [run_at_park hpark]
    obtain ⟨heffects, hprompts, hthird, hends⟩ := replay_entrance ctx replies
    exact ⟨heffects, hprompts, hthird, hends, parkText_eq_notReady_iff ctx⟩
  · intro helse
    rw [run_elsewhere helse]
    exact ⟨rfl, rfl⟩
  · intro i prompt error hshown hfails
    exact Script.replay_of_failure? hshown hfails
  · intro hfits
    obtain ⟨value, hresult⟩ := (neverFails_script ctx).result_ok hfits
    exact hresult

end Encounter.Tory

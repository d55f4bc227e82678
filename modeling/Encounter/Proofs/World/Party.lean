import Encounter.Proofs.World.Change

/-!
# Parties

A party is kept under its leader, who comes first on its roster, and nobody is on two rosters. So a
player has one party or none: which one does not depend on the order in which parties are searched.
Leaving, going away and forming a party are described by what becomes of every party.
-/

namespace Encounter

namespace Party

/-- The party without those who are gone. -/
def without (party : Party) (gone : List PlayerId) : Party :=
  { party with roster := party.roster.filter fun member => decide (member ∉ gone) }

variable (party : Party)

@[simp] theorem mem_roster_without {gone : List PlayerId} {id : PlayerId} :
    id ∈ (party.without gone).roster ↔ id ∈ party.roster ∧ id ∉ gone := by
  simp [without]

/-- A party of which nobody is gone stays as it is. -/
private theorem without_of_forall_notMem {gone : List PlayerId}
    (h : ∀ id ∈ party.roster, id ∉ gone) :
    party.without gone = party := by
  have hroster : (party.without gone).roster = party.roster :=
    List.filter_eq_self.2 fun id hid => decide_eq_true (h id hid)
  exact congrArg (Party.mk party.leader) hroster

@[simp] theorem without_nil : party.without [] = party :=
  party.without_of_forall_notMem fun _ _ => List.not_mem_nil

/-- Some leave after others. -/
theorem without_without (first second : List PlayerId) :
    (party.without first).without second = party.without (first ++ second) := by
  simp only [without, List.filter_filter, List.mem_append, not_or, Bool.decide_and, Bool.and_comm]

/-- Only who is gone matters, not in which order they went. -/
private theorem without_congr {gone gone' : List PlayerId} (h : ∀ id, id ∈ gone ↔ id ∈ gone') :
    party.without gone = party.without gone' := by
  simp only [without, h]

end Party

namespace World

variable {world : World}

/-- Each party is kept under its leader, who comes first on its roster, and nobody is on the rosters
of two parties. -/
structure PartiesWF (world : World) : Prop where
  leads {key : PlayerId} {party : Party} (h : world.parties.find? key = some party) :
    party.leader = key ∧ party.roster.head? = some key
  alone {id key other : PlayerId} {party rival : Party} (h : world.parties.find? key = some party)
    (hrival : world.parties.find? other = some rival) (hid : id ∈ party.roster)
    (hid' : id ∈ rival.roster) : key = other

/-- Some players left: the parties that they led are disbanded, and the others are without them. -/
def Parted (gone : List PlayerId) (world next : World) : Prop :=
  ∀ key, next.parties.find? key =
    if key ∈ gone then none else (world.parties.find? key).map (·.without gone)

/-- A party that is left is one of before, less those who are gone. -/
theorem Parted.of_find? {gone : List PlayerId} {next : World} (h : Parted gone world next)
    {key : PlayerId} {left : Party} (hleft : next.parties.find? key = some left) :
    key ∉ gone ∧ ∃ party, world.parties.find? key = some party ∧ party.without gone = left := by
  rw [h] at hleft
  split at hleft
  · cases hleft
  · next hkey => exact ⟨hkey, Option.map_eq_some_iff.1 hleft⟩

namespace PartiesWF

/-- Only the table of parties matters. -/
theorem of_parties_eq (h : world.PartiesWF) {next : World} (hparties : next.parties = world.parties) :
    next.PartiesWF := by
  constructor
  · rw [hparties]
    exact h.leads
  · rw [hparties]
    exact h.alone

/-- A leader is on the roster. -/
private theorem leader_mem (h : world.PartiesWF) {key : PlayerId} {party : Party}
    (hparty : world.parties.find? key = some party) : key ∈ party.roster :=
  List.mem_of_mem_head? (h.leads hparty).2

/-- Parties stay well-formed when some players leave. -/
theorem parted (h : world.PartiesWF) {gone : List PlayerId} {next : World}
    (hgone : Parted gone world next) : next.PartiesWF := by
  constructor
  · intro key left hleft
    obtain ⟨hkey, party, hparty, rfl⟩ := hgone.of_find? hleft
    obtain ⟨hleader, hhead⟩ := h.leads hparty
    refine ⟨hleader, ?_⟩
    cases hroster : party.roster with
    | nil => simp [hroster] at hhead
    | cons first rest =>
      have hfirst : first = key := by simpa [hroster] using hhead
      simp [Party.without, hroster, hfirst, hkey]
  · intro id key other left left' hleft hleft' hid hid'
    obtain ⟨-, party, hparty, rfl⟩ := hgone.of_find? hleft
    obtain ⟨-, rival, hrival, rfl⟩ := hgone.of_find? hleft'
    exact h.alone hparty hrival (party.mem_roster_without.1 hid).1 (rival.mem_roster_without.1 hid').1

/-- Parties are well-formed with one more whose members are in no other. -/
theorem insert (h : world.PartiesWF) {leader : PlayerId} {roster : List PlayerId}
    (hhead : roster.head? = some leader)
    (hfree : ∀ {key rival}, world.parties.find? key = some rival → ∀ id ∈ roster,
      id ∉ rival.roster) :
    { world with parties := world.parties.insert leader ⟨leader, roster⟩ }.PartiesWF := by
  constructor
  · intro key other hother
    rcases Table.find?_insert_eq_some_iff.1 hother with ⟨rfl, rfl⟩ | ⟨-, hold⟩
    · exact ⟨rfl, hhead⟩
    · exact h.leads hold
  · intro id key key' other other' hother hother' hid hid'
    rcases Table.find?_insert_eq_some_iff.1 hother with ⟨hkey, rfl⟩ | ⟨-, hold⟩ <;>
      rcases Table.find?_insert_eq_some_iff.1 hother' with ⟨hkey', rfl⟩ | ⟨-, hold'⟩
    · exact hkey.trans hkey'.symm
    · exact absurd hid' (hfree hold' id hid)
    · exact absurd hid (hfree hold id hid')
    · exact h.alone hold hold' hid hid'

end PartiesWF

/-- Who leads a party is on no other roster, so there is nobody to strike from the others. -/
private theorem PartiesWF.map_without_of_leads (h : world.PartiesWF) {id key : PlayerId}
    {party : Party} (hparty : world.parties.find? id = some party) (hkey : key ≠ id) :
    (world.parties.find? key).map (·.without [id]) = world.parties.find? key := by
  cases hrival : world.parties.find? key with
  | none => rfl
  | some rival =>
    have hnot : ∀ member ∈ rival.roster, member ∉ [id] := by
      intro member hmember hid
      rw [List.mem_singleton.1 hid] at hmember
      exact hkey (h.alone hrival hparty hmember (h.leader_mem hparty))
    rw [Option.map_some, rival.without_of_forall_notMem hnot]

/-- A player who leaves disbands the party that they lead and is struck from the others. -/
theorem parted_leaveParty (h : world.PartiesWF) (id : PlayerId) :
    Parted [id] world (world.leaveParty id) := by
  intro key
  simp only [List.mem_singleton]
  unfold leaveParty
  split
  · next hleads =>
    obtain ⟨party, hparty⟩ := Option.isSome_iff_exists.1 hleads
    refine (Table.find?_erase _ _ _).trans ?_
    split
    · rfl
    · next hkey => exact (h.map_without_of_leads hparty hkey).symm
  · next hleads =>
    have hwithout : (fun party : Party => { party with roster := party.roster.filter (· != id) }) =
        (·.without [id]) := by
      funext party
      simp only [Party.without, List.mem_singleton]
      congr 1
      exact List.filter_congr fun member _ => by simp [bne, Bool.beq_eq_decide_eq]
    refine (Table.find?_mapValues _ _ _).trans ?_
    rw [hwithout]
    split
    · next heq =>
      have hnone : world.parties.find? id = none := Option.not_isSome_iff_eq_none.1 hleads
      rw [heq, hnone, Option.map_none]
    · rfl

/-- Going away is leaving, as far as parties are concerned. -/
theorem parted_removePlayer (h : world.PartiesWF) (id : PlayerId) :
    Parted [id] world (world.removePlayer id) := parted_leaveParty h id

/-- Some leave or go away one by one. -/
theorem parted_foldl {leave : World → PlayerId → World}
    (hleave : ∀ {world : World}, world.PartiesWF → ∀ id, Parted [id] world (leave world id))
    (h : world.PartiesWF) (ids : List PlayerId) : Parted ids world (ids.foldl leave world) := by
  induction ids generalizing world with
  | nil =>
    intro key
    simp
  | cons id ids ih =>
    intro key
    have hleft := hleave h id
    rw [List.foldl_cons, ih (h.parted hleft), hleft]
    by_cases hkey : key = id
    · simp [hkey]
    · simp [hkey, Function.comp_def, Party.without_without]

/-! ## Forming a party -/

/-- Those who form a party leave theirs first, and the new party is kept under its leader. -/
theorem find?_formParty (h : world.PartiesWF) (leader : PlayerId) (members : List PlayerId)
    (key : PlayerId) :
    (world.formParty leader members).parties.find? key =
      if key = leader then some ⟨leader, leader :: members.filter (· != leader)⟩
      else if key ∈ members then none
      else (world.parties.find? key).map (·.without (leader :: members)) := by
  refine (Table.find?_insert _ _ _ _).trans ?_
  split
  · rfl
  · next hkey =>
    have hsame : ∀ id, id ∈ leader :: members.filter (· != leader) ↔ id ∈ leader :: members := by
      intro id
      by_cases hid : id = leader <;> simp [hid]
    have hwithout : (fun party : Party => party.without (leader :: members.filter (· != leader))) =
        (·.without (leader :: members)) := by
      funext party
      exact party.without_congr hsame
    rw [parted_foldl parted_leaveParty h, hwithout]
    simp only [hsame, List.mem_cons, hkey, false_or]

namespace PartiesWF

/-- Parties are well-formed when a new one is formed. -/
theorem formParty (h : world.PartiesWF) (leader : PlayerId) (members : List PlayerId) :
    (world.formParty leader members).PartiesWF := by
  have hleft := parted_foldl parted_leaveParty h (leader :: members.filter (· != leader))
  apply (h.parted hleft).insert (by rfl)
  intro key rival hrival id hid hid'
  obtain ⟨-, party, -, rfl⟩ := hleft.of_find? hrival
  exact (party.mem_roster_without.1 hid').2 hid

/-- Parties stay well-formed at every change. -/
theorem change (h : world.PartiesWF) (change : Change) : (world.change change).PartiesWF := by
  cases change with
  | arrived player => exact ⟨h.leads, h.alone⟩
  | departed id => exact h.parted (parted_removePlayer h id)
  | formed leader members => exact h.formParty leader members
  | left id => exact h.parted (parted_leaveParty h id)
  | placed spot position => exact ⟨h.leads, h.alone⟩
  | cleared map => exact ⟨h.leads, h.alone⟩
  | effected origin effect => exact h.of_parties_eq (world.parties_apply origin effect)

/-- Parties stay well-formed during changes. -/
theorem after (h : world.PartiesWF) (changes : List Change) : (world.after changes).PartiesWF := by
  induction changes generalizing world with
  | nil => exact h
  | cons change changes ih => exact ih (h.change change)

end PartiesWF

/-- Parties are well-formed in the world without parties. -/
theorem partiesWF_empty : empty.PartiesWF where
  leads h := by cases h
  alone h := by cases h

/-- With at most one hit, a search finds the same in every order. -/
private theorem find?_eq_of_perm {α : Type} {order order' : List α} {p : α → Bool}
    (hperm : order.Perm order') (honce : ∀ a ∈ order, ∀ b ∈ order, p a → p b → a = b) :
    order.find? p = order'.find? p := by
  cases ha : order.find? p with
  | none =>
    refine (List.find?_eq_none.2 fun a hmem => ?_).symm
    exact List.find?_eq_none.1 ha a (hperm.mem_iff.2 hmem)
  | some a =>
    have hmem := List.mem_of_find?_eq_some ha
    cases hb : order'.find? p with
    | none => exact absurd (List.find?_some ha) (List.find?_eq_none.1 hb a (hperm.mem_iff.1 hmem))
    | some b =>
      have hmem' := hperm.mem_iff.2 (List.mem_of_find?_eq_some hb)
      rw [honce a hmem b hmem' (List.find?_some ha) (List.find?_some hb)]

namespace PartiesWF

/-- No player is on the rosters of two of the parties that are kept. -/
theorem once (h : world.PartiesWF) {id : PlayerId} :
    ∀ party ∈ world.parties.values, ∀ rival ∈ world.parties.values,
      party.roster.contains id → rival.roster.contains id → party = rival := by
  intro party hparty rival hrival hid hid'
  obtain ⟨key, hkey⟩ := Table.mem_values.1 hparty
  obtain ⟨other, hother⟩ := Table.mem_values.1 hrival
  cases h.alone hkey hother (List.contains_iff_mem.1 hid) (List.contains_iff_mem.1 hid')
  exact Option.some.inj (hkey.symm.trans hother)

/-- A player's party is the one on whose roster the player is. -/
theorem party?_eq_some (h : world.PartiesWF) {id key : PlayerId} {party : Party}
    (hparty : world.parties.find? key = some party) (hid : id ∈ party.roster) :
    world.party? id = some party := by
  have hmem := Table.mem_values.2 ⟨key, hparty⟩
  cases hfound : world.party? id with
  | none => exact absurd (List.contains_iff_mem.2 hid) (List.find?_eq_none.1 hfound party hmem)
  | some rival =>
    have hid' : rival.roster.contains id :=
      List.find?_some (p := fun party : Party => party.roster.contains id) hfound
    rw [h.once rival (List.mem_of_find?_eq_some hfound) party hmem hid' (List.contains_iff_mem.2 hid)]

end PartiesWF

/-- Who has a party is on its roster. -/
theorem isSome_partyOf?_iff {id : PlayerId} :
    (world.partyOf? id).isSome ↔
      ∃ key party, world.parties.find? key = some party ∧ id ∈ party.roster := by
  rw [partyOf?, Option.isSome_map, party?, List.find?_isSome]
  constructor
  · rintro ⟨party, hmem, hid⟩
    obtain ⟨key, hparty⟩ := Table.mem_values.1 hmem
    exact ⟨key, party, hparty, List.contains_iff_mem.1 hid⟩
  · rintro ⟨key, party, hparty, hid⟩
    exact ⟨party, Table.mem_values.2 ⟨key, hparty⟩, List.contains_iff_mem.2 hid⟩

/-- Who has no party is on no roster. -/
theorem partyOf?_eq_none_iff {id : PlayerId} :
    world.partyOf? id = none ↔
      ∀ key party, world.parties.find? key = some party → id ∉ party.roster := by
  rw [← Option.not_isSome_iff_eq_none, isSome_partyOf?_iff]
  simp only [not_exists, not_and]

/-- Who was in a disbanded party has none. -/
theorem Parted.partyOf?_eq_none {gone : List PlayerId} {next : World} (hgone : Parted gone world next)
    (h : world.PartiesWF) {key id : PlayerId} {party : Party}
    (hparty : world.parties.find? key = some party) (hkey : key ∈ gone) (hid : id ∈ party.roster) :
    next.partyOf? id = none := by
  refine partyOf?_eq_none_iff.2 fun other left hleft hid' => ?_
  obtain ⟨hother, rival, hrival, rfl⟩ := hgone.of_find? hleft
  have heq : key = other := h.alone hparty hrival hid (rival.mem_roster_without.1 hid').1
  exact hother (heq ▸ hkey)

/-- Everybody is without a party when the leader leaves, and the other parties stay. -/
private theorem Parted.of_leads {id : PlayerId} {next : World} (hgone : Parted [id] world next)
    (h : world.PartiesWF) {party : Party} (hparty : world.parties.find? id = some party) :
    (∀ member ∈ party.roster, next.partyOf? member = none) ∧ next.parties.find? id = none ∧
      ∀ key ≠ id, next.parties.find? key = world.parties.find? key := by
  refine ⟨fun member => hgone.partyOf?_eq_none h hparty List.mem_cons_self, ?_, ?_⟩
  · rw [hgone, if_pos List.mem_cons_self]
  · intro key hkey
    rw [hgone, h.map_without_of_leads hparty hkey]
    simp [hkey]

/-- Only the player is missing from the parties when one leaves who leads none. -/
private theorem Parted.of_follows {id : PlayerId} {next : World} (hgone : Parted [id] world next)
    (hnone : world.parties.find? id = none) (key : PlayerId) :
    next.parties.find? key = (world.parties.find? key).map (·.without [id]) := by
  rw [hgone]
  split
  · next hkey => rw [List.mem_singleton.1 hkey, hnone, Option.map_none]
  · rfl

/-- Who was in a party of those who form another, and does not come along, has none. -/
private theorem partyOf?_formParty_eq_none (h : world.PartiesWF) {leader : PlayerId}
    {members : List PlayerId} {key id : PlayerId} {party : Party}
    (hparty : world.parties.find? key = some party) (hkey : key ∈ leader :: members)
    (hid : id ∈ party.roster) (hstays : id ∉ leader :: members) :
    (world.formParty leader members).partyOf? id = none := by
  refine partyOf?_eq_none_iff.2 fun other left hleft hid' => ?_
  rw [find?_formParty h] at hleft
  split at hleft
  · cases hleft
    exact hstays ((List.filter_sublist.cons_cons leader).subset hid')
  · next hother =>
    split at hleft
    · cases hleft
    · next hother' =>
      obtain ⟨rival, hrival, rfl⟩ := Option.map_eq_some_iff.1 hleft
      have heq : key = other := h.alone hparty hrival hid (rival.mem_roster_without.1 hid').1
      rw [heq] at hkey
      exact (List.mem_cons.1 hkey).elim hother hother'

/-- A party of which nobody comes along stays. -/
private theorem find?_formParty_of_forall_notMem (h : world.PartiesWF) {leader : PlayerId}
    {members : List PlayerId} {key : PlayerId} {party : Party}
    (hparty : world.parties.find? key = some party)
    (hnot : ∀ id ∈ leader :: members, id ∉ party.roster) :
    (world.formParty leader members).parties.find? key = some party := by
  have hkey : key ∉ leader :: members := fun hkey => hnot key hkey (h.leader_mem hparty)
  have hsame := party.without_of_forall_notMem fun id hid hgone => hnot id hgone hid
  rw [find?_formParty h, if_neg fun heq => hkey (List.mem_cons.2 (.inl heq)),
    if_neg fun hmem => hkey (List.mem_cons.2 (.inr hmem)), hparty, Option.map_some, hsame]

/-- The snapshot of a player's party has an entry for every connected member on the roster. -/
theorem partyOf?_of_mem (h : world.PartiesWF) {id key : PlayerId} {party : Party}
    (hparty : world.parties.find? key = some party) (hid : id ∈ party.roster) :
    world.partyOf? id = some ⟨key, party.roster.filterMap fun member =>
      (world.players.find? member).map fun profile => ⟨member, profile.map, profile.level⟩⟩ := by
  have hmember : world.member? = fun member =>
      (world.players.find? member).map fun profile => ⟨member, profile.map, profile.level⟩ := by
    funext member
    simp only [member?, player?, Option.map_map, Function.comp_def]
  rw [partyOf?, h.party?_eq_some hparty hid, Option.map_some, (h.leads hparty).1, hmember]

/-- Membership in parties is a partial function, whatever changes were made. Each party is kept under
its leader, who comes first on its roster, and nobody is on two rosters, so a search finds the same
party in every order. Just those on a roster have a party, and its snapshot has an entry for each
place of a connected member on the roster, in order, with map and level of now. A leader who leaves
or goes away leaves all members without a party, and somebody else is only struck from the roster.
Those who form a party are out of theirs, which is disbanded if they led it; other parties stay. -/
theorem party_membership (changes : List Change) :
    let world := empty.after changes
    (∀ key party, world.parties.find? key = some party →
      party.leader = key ∧ party.roster.head? = some key) ∧
    (∀ id key other party rival, world.parties.find? key = some party →
      world.parties.find? other = some rival → id ∈ party.roster → id ∈ rival.roster →
      key = other) ∧
    (∀ id (order : List Party), order.Perm world.parties.values →
      (order.find? fun party => party.roster.contains id) = world.party? id) ∧
    (∀ id, (world.partyOf? id).isSome ↔
      ∃ key party, world.parties.find? key = some party ∧ id ∈ party.roster) ∧
    (∀ id key party, world.parties.find? key = some party → id ∈ party.roster →
      world.partyOf? id = some ⟨key, party.roster.filterMap fun member =>
        (world.players.find? member).map fun profile => ⟨member, profile.map, profile.level⟩⟩) ∧
    (∀ id, ∀ next ∈ [world.leaveParty id, world.removePlayer id],
      (∀ party, world.parties.find? id = some party →
        (∀ member ∈ party.roster, next.partyOf? member = none) ∧
        next.parties.find? id = none ∧
        ∀ key ≠ id, next.parties.find? key = world.parties.find? key) ∧
      (world.parties.find? id = none →
        ∀ key, next.parties.find? key = (world.parties.find? key).map (·.without [id]))) ∧
    ∀ leader members,
      let next := world.formParty leader members
      next.parties.find? leader = some ⟨leader, leader :: members.filter (· != leader)⟩ ∧
      (∀ key ∈ members, key ≠ leader → next.parties.find? key = none) ∧
      (∀ key party, world.parties.find? key = some party → key ∉ leader :: members →
        next.parties.find? key = some (party.without (leader :: members))) ∧
      (∀ key, world.parties.find? key = none → key ≠ leader → next.parties.find? key = none) ∧
      (∀ key party, world.parties.find? key = some party →
        (∀ id ∈ leader :: members, id ∉ party.roster) → next.parties.find? key = some party) ∧
      ∀ key party, world.parties.find? key = some party → key ∈ leader :: members →
        ∀ id ∈ party.roster, id ∉ leader :: members → next.partyOf? id = none := by
  intro world
  have h : world.PartiesWF := partiesWF_empty.after changes
  refine ⟨fun _ _ => h.leads, fun _ _ _ _ _ => h.alone, ?_, fun _ => isSome_partyOf?_iff,
    fun _ _ _ => partyOf?_of_mem h, ?_, ?_⟩
  · intro id order horder
    exact (find?_eq_of_perm horder.symm h.once).symm
  · intro id next hnext
    have hgone : Parted [id] world next := by
      rcases List.mem_cons.1 hnext with rfl | hnext
      · exact parted_leaveParty h id
      · rw [List.mem_singleton.1 hnext]
        exact parted_removePlayer h id
    exact ⟨fun _ => hgone.of_leads h, hgone.of_follows⟩
  · intro leader members next
    have hfind := find?_formParty h leader members
    refine ⟨?_, ?_, ?_, ?_, fun _ _ => find?_formParty_of_forall_notMem h,
      fun _ _ hparty hkey _ => partyOf?_formParty_eq_none h hparty hkey⟩
    · rw [hfind, if_pos rfl]
    · intro key hmem hne
      rw [hfind, if_neg hne, if_pos hmem]
    · intro key party hparty hkey
      rw [List.mem_cons, not_or] at hkey
      rw [hfind, if_neg hkey.1, if_neg hkey.2, hparty, Option.map_some]
    · intro key hnone hne
      rw [hfind, if_neg hne, hnone, Option.map_none, ite_self]

end World
end Encounter

import Mathlib.Data.Finset.Card
import Mathlib.Data.List.Induction
import Encounter.PartyGate
import Encounter.Proofs.World.Crowd

/-!
# How often a player is counted

A roster takes the names as they are given when the party is formed; only the leader is struck from
them. So a player who is named twice has two entries in every snapshot of the party, until they leave
or go away. Sizes and counts are numbers of players exactly as long as nobody else is named twice.
-/

namespace Encounter

namespace PartyView

/-- The players who have an entry. -/
def players (party : PartyView) : Finset PlayerId := (party.members.map PartyMember.id).toFinset

/-- The players who have an entry on the map with a level in the range. -/
def playersOn (party : PartyView) (map : MapId) (levels : LevelRange) : Finset PlayerId :=
  ((party.members.filter fun member => member.map == map && levels.contains member.level).map
    PartyMember.id).toFinset

end PartyView

/-- A gate is open for the leader of a party that has as many fitting members on the map as it
asks for. -/
theorem PartyGate.check_eq_ok_iff (gate : PartyGate) (player : PlayerView) (map : MapId)
    (party : PartyView) :
    gate.check player map (some party) = .ok () ↔
      party.isLeader player.id = true ∧ gate.min ≤ party.countOn map gate.levels ∧
        party.countOn map gate.levels ≤ gate.max := by
  cases hleads : party.isLeader player.id <;> simp [check, hleads]

/-- A party as it is formed: the leader, and the others in the order in which they are named. -/
def Party.gathered (leader : PlayerId) (named : List PlayerId) : Party :=
  ⟨leader, leader :: named.filter (· != leader)⟩

/-- The leader is on the roster once, and everybody else as often as they were named. -/
private theorem Party.count_gathered (leader : PlayerId) (named : List PlayerId) (id : PlayerId) :
    (gathered leader named).roster.count id = if id = leader then 1 else named.count id := by
  rw [gathered, List.count_cons]
  by_cases hid : id = leader
  · subst hid
    have hnone : id ∉ named.filter (· != id) := by simp
    simp [List.count_eq_zero_of_not_mem hnone]
  · have hkept : (named.filter (· != leader)).count id = named.count id :=
      List.count_filter (bne_iff_ne.2 hid)
    rw [if_neg hid, if_neg (by simpa using Ne.symm hid), Nat.add_zero, hkept]

namespace World

variable {world : World}

/-- Those whom a change takes out of their parties. -/
def Change.parting : Change → List PlayerId
  | .departed id => [id]
  | .left id => [id]
  | .formed leader named => leader :: named
  | .arrived _ | .placed _ _ | .cleared _ | .effected _ _ => []

/-- A party that is there after a change was formed by it, or was there before and has lost those
who parted. -/
private theorem find?_parties_change (h : world.PartiesWF) {change : Change} {key : PlayerId}
    {party : Party} (hparty : (world.change change).parties.find? key = some party) :
    (∃ named, change = .formed key named ∧ party = .gathered key named) ∨
      key ∉ change.parting ∧ ∃ former, world.parties.find? key = some former ∧
        party = former.without change.parting := by
  have hparted : Parted change.parting world (world.change change) →
      key ∉ change.parting ∧ ∃ former, world.parties.find? key = some former ∧
        party = former.without change.parting := fun hgone => by
    obtain ⟨hkey, former, hformer, rfl⟩ := hgone.of_find? hparty
    exact ⟨hkey, former, hformer, rfl⟩
  have hsame : change.parting = [] → (world.change change).parties = world.parties →
      Parted change.parting world (world.change change) := fun hnone hparties key => by
    simp [hnone, hparties]
  cases change with
  | arrived player => exact .inr (hparted (hsame rfl rfl))
  | departed id => exact .inr (hparted (parted_removePlayer h id))
  | left id => exact .inr (hparted (parted_leaveParty h id))
  | placed spot position => exact .inr (hparted (hsame rfl rfl))
  | cleared map => exact .inr (hparted (hsame rfl rfl))
  | effected origin effect =>
    exact .inr (hparted (hsame rfl (world.parties_apply origin effect)))
  | formed leader named =>
    have hfind : _ = some party := hparty
    rw [change, find?_formParty h] at hfind
    split at hfind
    · next hkey =>
      cases hkey
      exact .inl ⟨named, rfl, (Option.some.inj hfind).symm⟩
    · next hkey =>
      split at hfind
      · cases hfind
      · next hnamed =>
        obtain ⟨former, hformer, rfl⟩ := Option.map_eq_some_iff.1 hfind
        exact .inr ⟨by simp [Change.parting, hkey, hnamed], former, hformer, rfl⟩

/-- A party has those on its roster who were named when it was last formed, less those who parted
since. -/
private theorem find?_parties_after {changes : List Change} {key : PlayerId} {party : Party}
    (hparty : (empty.after changes).parties.find? key = some party) :
    ∃ before named since, changes = before ++ .formed key named :: since ∧
      key ∉ since.flatMap Change.parting ∧
      party = (Party.gathered key named).without (since.flatMap Change.parting) := by
  induction changes using List.reverseRecOn generalizing party with
  | nil => cases hparty
  | append_singleton changes change ih =>
    rw [after_append] at hparty
    obtain ⟨named, rfl, rfl⟩ | ⟨hkey, former, hformer, rfl⟩ :=
      find?_parties_change (partiesWF_empty.after changes) hparty
    · exact ⟨changes, named, [], rfl, List.not_mem_nil, (Party.without_nil _).symm⟩
    · obtain ⟨before, named, since, rfl, hstayed, rfl⟩ := ih hformer
      refine ⟨before, named, since ++ [change], by simp, ?_, ?_⟩
      · simpa [hkey] using hstayed
      · simp [Party.without_without]

/-- A snapshot has the entries of those who were named when the party was last formed, less those who
parted since. -/
private theorem partyOf?_after {changes : List Change} {id : PlayerId} {view : PartyView}
    (h : (empty.after changes).partyOf? id = some view) :
    ∃ before named since, changes = before ++ .formed view.leader named :: since ∧
      view.leader ∉ since.flatMap Change.parting ∧
      view.members = ((Party.gathered view.leader named).without
        (since.flatMap Change.parting)).roster.filterMap (empty.after changes).member? := by
  obtain ⟨party, hfound, rfl⟩ := Option.map_eq_some_iff.1 h
  obtain ⟨key, hparty⟩ := Table.mem_values.1 (List.mem_of_find?_eq_some hfound)
  obtain rfl : party.leader = key := ((partiesWF_empty.after changes).leads hparty).1
  obtain ⟨before, named, since, hchanges, hstayed, hroster⟩ := find?_parties_after hparty
  exact ⟨before, named, since, hchanges, hstayed, by rw [← hroster]⟩

/-- The entries that pass belong to those on the roster whose entry passes, in order. -/
private theorem map_id_filter_entries (world : World) (roster : List PlayerId)
    (p : PartyMember → Bool) :
    ((roster.filterMap world.member?).filter p).map PartyMember.id =
      roster.filter fun id => (world.member? id).any p := by
  induction roster with
  | nil => rfl
  | cons id roster ih =>
    cases hmember : world.member? id with
    | none => simp [hmember, ih]
    | some member =>
      have hid : member.id = id := (world.of_member?_eq_some hmember).1
      by_cases hp : p member = true <;> simp [hmember, hp, hid, ih]

end World

/-- Nobody of them but the leader was named more often than once. -/
def NamedOnce (leader : PlayerId) (named : List PlayerId) (players : Finset PlayerId) : Prop :=
  ∀ player ∈ players, player ≠ leader → named.count player = 1

namespace Party

variable {leader : PlayerId} {named gone : List PlayerId}

/-- Of those who count and have not gone, the leader is on the roster once and everybody else as
often as they were named. -/
private theorem count_without_gathered (p : PlayerId → Bool) (id : PlayerId) :
    (((gathered leader named).without gone).roster.filter p).count id =
      if p id = false ∨ id ∈ gone then 0 else if id = leader then 1 else named.count id := by
  by_cases hout : p id = false ∨ id ∈ gone
  · have hnone : id ∉ ((gathered leader named).without gone).roster.filter p := by
      simp only [List.mem_filter, mem_roster_without, not_and]
      intro hmem hp
      exact hout.elim (by simp [hp]) hmem.2
    rw [if_pos hout, List.count_eq_zero_of_not_mem hnone]
  · rw [not_or, Bool.not_eq_false] at hout
    have hstays : ((gathered leader named).without gone).roster.count id =
        (gathered leader named).roster.count id := List.count_filter (decide_eq_true hout.2)
    rw [if_neg (by simpa using hout), List.count_filter hout.1, hstays, count_gathered]

/-- So nobody counts twice exactly if nobody who counts was named twice. -/
private theorem nodup_without_gathered_iff (p : PlayerId → Bool) :
    (((gathered leader named).without gone).roster.filter p).Nodup ↔
      NamedOnce leader named (((gathered leader named).without gone).roster.filter p).toFinset := by
  rw [List.nodup_iff_count_eq_one]
  simp only [NamedOnce, List.mem_toFinset]
  refine forall₂_congr fun id hid => ?_
  obtain ⟨hmem, hp⟩ := List.mem_filter.1 hid
  have hout : ¬ (p id = false ∨ id ∈ gone) := by
    simpa [hp] using ((gathered leader named).mem_roster_without.1 hmem).2
  rw [count_without_gathered, if_neg hout]
  by_cases hleader : id = leader <;> simp [hleader]

end Party

namespace World

/-- The snapshot of a party has an entry for every place of a connected player on the roster: one for
the leader, and for everybody else as many as the party's leader named them when forming it, unless
they left it or went away since. So the entries belong to distinct players, and the size and the
counts of the party, by which gates decide, are numbers of distinct players, exactly if none of those
who are counted, the leader apart, was named more than once. -/
theorem member_entries_exact (changes : List Change) {id : PlayerId} {view : PartyView}
    (h : (empty.after changes).partyOf? id = some view) :
    ∃ before named since, changes = before ++ .formed view.leader named :: since ∧
      view.leader ∉ since.flatMap Change.parting ∧
      (∀ player, (view.members.map PartyMember.id).count player =
        if (empty.after changes).player? player = none ∨ player ∈ since.flatMap Change.parting then 0
        else if player = view.leader then 1 else named.count player) ∧
      ((view.members.map PartyMember.id).Nodup ↔ NamedOnce view.leader named view.players) ∧
      (view.size = view.players.card ↔ NamedOnce view.leader named view.players) ∧
      ∀ map levels,
        (view.countOn map levels = (view.playersOn map levels).card ↔
          NamedOnce view.leader named (view.playersOn map levels)) ∧
        (NamedOnce view.leader named (view.playersOn map levels) →
          ∀ (least most : Nat) (player : PlayerView),
            PartyGate.check ⟨least, most, levels⟩ player map (some view) = .ok () ↔
              view.isLeader player.id = true ∧ least ≤ (view.playersOn map levels).card ∧
                (view.playersOn map levels).card ≤ most) := by
  obtain ⟨before, named, since, hchanges, hstayed, hmembers⟩ := partyOf?_after h
  have hentries : ∀ p, (view.members.filter p).map PartyMember.id = _ := fun p => by
    rw [hmembers, map_id_filter_entries]
  have honce : ∀ p, (((view.members.filter p).map PartyMember.id).toFinset.card =
      (view.members.filter p).length ↔
        NamedOnce view.leader named ((view.members.filter p).map PartyMember.id).toFinset) := by
    intro p
    rw [← List.length_map PartyMember.id, hentries, ← Party.nodup_without_gathered_iff]
    exact Multiset.toFinset_card_eq_card_iff_nodup
  have hall : view.members.filter (fun _ => true) = view.members := List.filter_true _
  have hsize := honce fun _ => true
  rw [hall] at hsize
  refine ⟨before, named, since, hchanges, hstayed, fun player => ?_, ?_, ?_, fun map levels => ?_⟩
  · have hknown : ((empty.after changes).member? player).any (fun _ => true) = false ↔
        (empty.after changes).player? player = none := by
      simp [member?]
    rw [← hall, hentries, Party.count_without_gathered]
    simp only [hknown]
  · rw [← List.length_map PartyMember.id] at hsize
    exact Multiset.toFinset_card_eq_card_iff_nodup.symm.trans hsize
  · rw [eq_comm]
    exact hsize
  · have hcount : (view.playersOn map levels).card = view.countOn map levels ↔
        NamedOnce view.leader named (view.playersOn map levels) := by
      rw [PartyView.countOn, List.countP_eq_length_filter]
      exact honce _
    refine ⟨eq_comm.trans hcount, fun hnamed least most player => ?_⟩
    rw [hcount.2 hnamed, PartyGate.check_eq_ok_iff]

/-- The second player is named twice by the first. -/
def twins : List Change :=
  [.arrived ⟨⟨1⟩, "first", 30, ⟨5⟩⟩, .arrived ⟨⟨2⟩, "second", 30, ⟨5⟩⟩, .formed ⟨1⟩ [⟨2⟩, ⟨2⟩]]

/-- The snapshot has three entries, two of which belong to the second player. -/
def twinsView : PartyView := ⟨⟨1⟩, [⟨⟨1⟩, ⟨5⟩, 30⟩, ⟨⟨2⟩, ⟨5⟩, 30⟩, ⟨⟨2⟩, ⟨5⟩, 30⟩]⟩

private theorem partyOf?_twins :
    (empty.after twins).partyOf? ⟨1⟩ = some twinsView := by decide +kernel

/-- Two players make up a party of size three. -/
theorem member_entries_exact_twins :
    (empty.after twins).partyOf? ⟨1⟩ = some twinsView ∧ twinsView.size ≠ twinsView.players.card ∧
      ∃ before named since, twins = before ++ .formed ⟨1⟩ named :: since ∧
        ¬ NamedOnce ⟨1⟩ named twinsView.players := by
  have hsize : twinsView.size ≠ twinsView.players.card := by decide
  obtain ⟨before, named, since, hchanges, -, -, -, hexact, -⟩ :=
    member_entries_exact twins partyOf?_twins
  exact ⟨partyOf?_twins, hsize, before, named, since, hchanges, fun hnamed => hsize (hexact.2 hnamed)⟩

/-- So it is not true that nobody ever has two entries. -/
theorem not_every_member_once : ¬ ∀ (changes : List Change) (id : PlayerId) (view : PartyView),
    (empty.after changes).partyOf? id = some view →
      (view.members.map PartyMember.id).Nodup := by
  intro h
  have htwins := h twins ⟨1⟩ twinsView partyOf?_twins
  revert htwins
  decide

end World
end Encounter

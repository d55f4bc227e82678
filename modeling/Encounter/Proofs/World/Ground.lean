import Encounter.Proofs.World.Change

/-!
# What lies on the ground

Drops fall onto the map of the trigger, at the spot where its reactor was last placed, and lie there
in the order in which they fell until everything on the map is picked up at once. So whatever fell
onto a map was picked up or still lies there.
-/

namespace Encounter
namespace World

/-- Where a reactor was last placed during changes, the newest of them first. -/
def lastPlaced (spot : ReactorSpot) : List Change → Option Position
  | [] => none
  | .placed other position :: past => if other = spot then some position else lastPlaced spot past
  | _ :: past => lastPlaced spot past

/-- Where drops land if reactors are placed so: at the reactor of the trigger, or at the origin of the
map for an NPC and for a reactor without a place. -/
def landing (placed : ReactorSpot → Option Position) (trigger : Trigger) : Position :=
  match trigger.kind with
  | .reactor => (placed ⟨trigger.map, ⟨trigger.key.id⟩⟩).getD .origin
  | .npc => .origin

/-- What a change lets fall onto a map if reactors are placed so. -/
def Change.falls (placed : ReactorSpot → Option Position) (map : MapId) :
    Change → List DropPlacement
  | .effected origin (.dropItems request) =>
    if origin.trigger.map = map then request.layout (landing placed origin.trigger) else []
  | _ => []

/-- What a change takes from a map. -/
def taken (world : World) (map : MapId) : Change → List DropPlacement
  | .cleared other => if other = map then (world.pickUp other).1 else []
  | _ => []

/-- What falls onto a map during changes, after others of which the newest comes first. -/
def fallen (map : MapId) : (past : List Change) → List Change → List DropPlacement
  | _, [] => []
  | past, change :: changes =>
    change.falls (lastPlaced · past) map ++ fallen map (change :: past) changes

/-- What is picked up from a map during changes. -/
def pickedUp (map : MapId) : World → List Change → List DropPlacement
  | _, [] => []
  | world, change :: changes => world.taken map change ++ pickedUp map (world.change change) changes

variable (world : World)

/-- A change that places a reactor is the only one that moves it. -/
theorem find?_reactors_change {spot : ReactorSpot} {past : List Change}
    (h : world.reactors.find? spot = lastPlaced spot past) (change : Change) :
    (world.change change).reactors.find? spot = lastPlaced spot (change :: past) := by
  cases change with
  | placed other position =>
    refine (Table.find?_insert _ _ _ _).trans ?_
    simp only [lastPlaced, h, eq_comm]
  | departed id =>
    have hreactors := world.reactors_leaveParty id
    exact (congrArg (Table.find? · spot) hreactors).trans h
  | formed leader members =>
    have hreactors := (world.tables_formParty leader members).2.1
    exact (congrArg (Table.find? · spot) hreactors).trans h
  | left id =>
    have hreactors := world.reactors_leaveParty id
    exact (congrArg (Table.find? · spot) hreactors).trans h
  | arrived player => exact h
  | cleared map => exact h
  | effected origin effect => cases effect <;> exact h

/-- Drops lie behind those of before, on the map where they fall. -/
private theorem groundDrops_addDrops (fallen map : MapId) (drops : List DropPlacement) :
    (world.addDrops fallen drops).groundDrops map =
      world.groundDrops map ++ if fallen = map then drops else [] := by
  refine (congrArg (Option.getD · []) (Table.find?_insert _ _ _ _)).trans ?_
  by_cases h : map = fallen
  · subst h
    simp
  · simp [h, Ne.symm h, groundDrops]

/-- An effect takes nothing away. -/
private theorem groundDrops_apply (map : MapId) (origin : Origin) (effect : Effect) :
    (world.apply origin effect).groundDrops map =
      world.groundDrops map ++ (Change.effected origin effect).falls world.reactors.find? map := by
  cases effect with
  | chat text => exact (List.append_nil _).symm
  | changeMap other portal => exact (List.append_nil _).symm
  | dropItems request =>
    exact world.groundDrops_addDrops origin.trigger.map map
      (request.layout (world.dropPoint origin.trigger))

/-- Nothing lies on a map that was cleared; elsewhere everything stays. -/
theorem groundDrops_clearGround (cleared map : MapId) :
    (world.clearGround cleared).groundDrops map =
      if cleared = map then [] else world.groundDrops map := by
  refine (congrArg (Option.getD · []) (Table.find?_erase _ _ _)).trans ?_
  by_cases h : map = cleared
  · simp [h]
  · simp [h, Ne.symm h, groundDrops]

/-- A change lets drops fall behind what lies there, or takes everything. -/
theorem groundDrops_change (map : MapId) (change : Change) :
    world.groundDrops map ++ change.falls world.reactors.find? map =
      world.taken map change ++ (world.change change).groundDrops map := by
  cases change with
  | effected origin effect => exact (world.groundDrops_apply map origin effect).symm
  | cleared other =>
    have hclear := world.groundDrops_clearGround other map
    rw [show (world.change (.cleared other)).groundDrops map = _ from hclear]
    by_cases h : other = map <;> simp [taken, Change.falls, pickUp, h]
  | departed id => simp [taken, Change.falls, change, removePlayer, groundDrops]
  | formed leader members =>
    have hground := (world.tables_formParty leader members).2.2
    simp [taken, Change.falls, change, groundDrops, hground]
  | left id => simp [taken, Change.falls, change, groundDrops]
  | arrived player => exact List.append_nil _
  | placed spot position => exact List.append_nil _

/-- Whatever falls onto a map while changes are made was there after them or taken. -/
private theorem pickedUp_append_groundDrops (map : MapId) {past : List Change}
    (h : ∀ spot, world.reactors.find? spot = lastPlaced spot past) (changes : List Change) :
    pickedUp map world changes ++ (world.after changes).groundDrops map =
      world.groundDrops map ++ fallen map past changes := by
  induction changes generalizing world past with
  | nil => exact (List.append_nil _).symm
  | cons change changes ih =>
    have hnext := fun spot => world.find?_reactors_change (h spot) change
    have hplaced : world.reactors.find? = (lastPlaced · past) := funext h
    calc pickedUp map world (change :: changes) ++ (world.after (change :: changes)).groundDrops map
        = world.taken map change ++ (pickedUp map (world.change change) changes ++
            ((world.change change).after changes).groundDrops map) := List.append_assoc _ _ _
      _ = world.taken map change ++ ((world.change change).groundDrops map ++
            fallen map (change :: past) changes) := by rw [ih _ hnext]
      _ = world.groundDrops map ++ change.falls world.reactors.find? map ++
            fallen map (change :: past) changes := by
          rw [← List.append_assoc, world.groundDrops_change]
      _ = world.groundDrops map ++ fallen map past (change :: changes) := by
          rw [hplaced, List.append_assoc]
          rfl

/-- Effects for one player leave parties, reactors and the other players, and only let drops fall. -/
theorem after_effects {player : PlayerId} {changes : List Change}
    (h : ∀ change ∈ changes, ∃ origin effect, change = .effected origin effect ∧
      origin.player = player) :
    (world.after changes).parties = world.parties ∧
      (world.after changes).reactors = world.reactors ∧
      (∀ id ≠ player, (world.after changes).players.find? id = world.players.find? id) ∧
      ∀ map, (world.after changes).groundDrops map = world.groundDrops map ++
        changes.flatMap (Change.falls world.reactors.find? map) := by
  induction changes generalizing world with
  | nil => exact ⟨rfl, rfl, fun _ _ => rfl, fun _ => (List.append_nil _).symm⟩
  | cons change changes ih =>
    obtain ⟨⟨origin, effect, rfl, horigin⟩, hrest⟩ := List.forall_mem_cons.1 h
    obtain ⟨hparties, hreactors, hplayers, hground⟩ := ih (world.apply origin effect) hrest
    have hsame : (world.apply origin effect).reactors = world.reactors := by cases effect <;> rfl
    refine ⟨hparties.trans (world.parties_apply origin effect), hreactors.trans hsame, ?_, ?_⟩
    · intro id hother
      exact (hplayers id hother).trans (world.find?_players_apply (horigin ▸ hother) effect)
    · intro map
      refine (hground map).trans ?_
      rw [groundDrops_apply, hsame, List.flatMap_cons, List.append_assoc]

/-- A change alters what lies on a map only if drops fall there or everything is picked up. -/
private theorem of_groundDrops_change_ne {map : MapId} {change : Change}
    (h : (world.change change).groundDrops map ≠ world.groundDrops map) :
    change = .cleared map ∨
      ∃ origin request, change = .effected origin (.dropItems request) ∧
        origin.trigger.map = map := by
  have hstays (hfalls : change.falls world.reactors.find? map = [])
      (htaken : world.taken map change = []) : False := by
    have hchange := world.groundDrops_change map change
    rw [hfalls, htaken, List.append_nil, List.nil_append] at hchange
    exact h hchange.symm
  cases change with
  | cleared other =>
    by_cases heq : other = map
    · exact .inl (congrArg Change.cleared heq)
    · exact (hstays rfl (if_neg heq)).elim
  | effected origin effect =>
    cases effect with
    | dropItems request =>
      by_cases heq : origin.trigger.map = map
      · exact .inr ⟨origin, request, rfl, heq⟩
      · exact (hstays (if_neg heq) rfl).elim
    | chat text => exact (hstays rfl rfl).elim
    | changeMap other portal => exact (hstays rfl rfl).elim
  | arrived | departed | formed | left | placed => exact (hstays rfl rfl).elim

/-- Ground drops are conserved: what was picked up from a map in the course of changes, and then what
lies there, is what fell there, in order. Nothing but drops and pick-ups changes the ground. -/
theorem ground_conserved (changes : List Change) (map : MapId) :
    pickedUp map empty changes ++ (empty.after changes).groundDrops map = fallen map [] changes ∧
      ∀ (world : World) (change : Change) (other : MapId),
        (world.change change).groundDrops other ≠ world.groundDrops other →
        change = .cleared other ∨ ∃ origin request,
          change = .effected origin (.dropItems request) ∧ origin.trigger.map = other := by
  constructor
  · exact empty.pickedUp_append_groundDrops map (fun _ => rfl) changes
  · intro world change other
    exact world.of_groundDrops_change_ne

end World
end Encounter

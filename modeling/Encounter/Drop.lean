import Encounter.Ident

/-!
# Item and meso drops

A drop request names items and a chance of mesos. `DropRequest.layout` scatters it around a point:
the first drop lands on the point, the others alternate between its right and its left and move
outwards.
-/

namespace Encounter

/-- A stack of an item. -/
structure ItemDrop where
  item : ItemId
  quantity : UInt32
  deriving DecidableEq, Repr

/-- An amount of mesos between two bounds, dropped by chance. -/
structure MesoDrop where
  min : UInt32
  max : UInt32
  /-- Chance in parts per million. -/
  chance : UInt32
  deriving DecidableEq, Repr

/-- Can the mesos drop at all? -/
def MesoDrop.isEnabled (mesos : MesoDrop) : Bool := mesos.chance > 0 && mesos.max > 0

/-- What a script asks to drop. -/
structure DropRequest where
  mesos : MesoDrop
  items : List ItemDrop
  deriving DecidableEq, Repr

/-- One thing on the ground. -/
inductive DroppedKind where
  | item (drop : ItemDrop)
  | mesos (drop : MesoDrop)
  deriving DecidableEq, Repr

/-- One thing on the ground and the point where it lies. -/
structure DropPlacement where
  kind : DroppedKind
  position : Position
  deriving DecidableEq, Repr

namespace DropRequest

/-- Asks for mesos only. -/
def ofMesos (min max chance : UInt32) : DropRequest := ⟨⟨min, max, chance⟩, []⟩

/-- Asks for one more stack of an item. -/
def withItem (request : DropRequest) (item : ItemId) (quantity : UInt32) : DropRequest :=
  { request with items := request.items ++ [⟨item, quantity⟩] }

/-- Reads item and quantity pairs; an odd number out is refused. -/
def itemsOfPairs? : List UInt32 → Option (List ItemDrop)
  | [] => some []
  | [_] => none
  | item :: quantity :: rest => (itemsOfPairs? rest).map (⟨⟨item⟩, quantity⟩ :: ·)

/-- Reads a flat list of numbers: least and most mesos, their chance, then pairs of an item and its
quantity. -/
def ofArgs? : List UInt32 → Option DropRequest
  | min :: max :: chance :: pairs => (itemsOfPairs? pairs).map fun items => ⟨⟨min, max, chance⟩, items⟩
  | _ => none

/-- The sideways distance of a slot, counted from 1: even slots lie to the right, odd ones to the
left, and the first one nowhere. -/
def spread (slot step : Int32) : Int32 :=
  if slot % 2 = 0 then step * (slot + 1) / 2 else -(step * (slot / 2))

/-- Distance between neighbouring items on one side. -/
def itemSpread : Int32 := 25

/-- Distance that places the mesos. -/
def mesoSpread : Int32 := 40

/-- The slot of the drop at an index. -/
def slotAt (index : Nat) : Int32 := Int32.ofNat index + 1

/-- Places items, the first of which has that index. -/
def placeItems (origin : Position) : (index : Nat) → List ItemDrop → List DropPlacement
  | _, [] => []
  | index, drop :: rest =>
    ⟨.item drop, origin.offsetX (spread (slotAt index) itemSpread)⟩ ::
      placeItems origin (index + 1) rest

/-- Scatters the items around a point in order, then the mesos if they can drop. -/
def layout (request : DropRequest) (origin : Position) : List DropPlacement :=
  let placed := placeItems origin 0 request.items
  if request.mesos.isEnabled then
    placed ++ [⟨.mesos request.mesos, origin.offsetX (spread (slotAt placed.length) mesoSpread)⟩]
  else placed

end DropRequest

end Encounter

import Encounter.Script.Basic

/-!
# The Amherst scrap box

Hitting the box drops the two things that Pio collects: a rusty screw and an old wooden board.
-/

namespace Encounter.ScrapBox

/-- The reactor's number. -/
def reactor : ReactorId := ⟨2000⟩

/-- A rusty screw. -/
def rustyScrew : ItemId := ⟨4031161⟩

/-- An old wooden board. -/
def oldWoodenBoard : ItemId := ⟨4031162⟩

/-- How many of each the box drops. -/
def questItemQuantity : UInt32 := 1000000

/-- What the box drops. -/
def drops : DropRequest :=
  ⟨⟨0, 0, 0⟩, [⟨rustyScrew, questItemQuantity⟩, ⟨oldWoodenBoard, questItemQuantity⟩]⟩

/-- The script of the box. -/
def script : NamedScript := ⟨"amherst_scrap_box", fun _ => Script.dropItems drops⟩

end Encounter.ScrapBox

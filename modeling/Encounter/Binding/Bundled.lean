import Encounter.Binding.Load

/-!
# The binding file of the cast
-/

namespace Encounter.Binding

/-- The content of the binding file that comes with the cast. -/
def bundledText : String := "\n".intercalate
  ["// Trigger bindings: which script answers which NPC or reactor.",
    "(",
    "    bindings: [",
    "        // Tory, Henesys Park / Primrose Hill",
    "        (kind: Npc, id: 1012112, script: \"moonrabbit\"),",
    "        // Amherst scrap box",
    "        (kind: Reactor, id: 2000, script: \"amherst_scrap_box\"),",
    "    ],",
    ")",
    ""]

end Encounter.Binding

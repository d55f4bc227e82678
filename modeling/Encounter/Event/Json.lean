import Encounter.Event
import Encounter.Json.Text

/-!
# Events as JSON

An event is written as an object whose single field is the name of its topic; alternatives inside it
are written the same way, and one that carries nothing as its name alone. Reading back takes the
fields of an object in any order and a missing portal for none.
-/

namespace Encounter

/-- The name of a kind in JSON. -/
def TriggerKind.jsonName : TriggerKind → String
  | npc => "Npc"
  | reactor => "Reactor"

/-- A kind as JSON. -/
def TriggerKind.toJson (kind : TriggerKind) : Json := .text kind.jsonName

/-- Reads a kind. -/
def TriggerKind.ofJson? (json : Json) : Option TriggerKind :=
  match json.variant? with
  | some (name, content) =>
    if !Json.isUnit content then none
    else if name = npc.jsonName then some npc
    else if name = reactor.jsonName then some reactor
    else none
  | none => none

/-- A key as JSON. -/
def TriggerKey.toJson (key : TriggerKey) : Json :=
  .object [("kind", key.kind.toJson), ("id", .ofWord key.id)]

/-- Reads a key. -/
def TriggerKey.ofJson? (json : Json) : Option TriggerKey :=
  match json.record? ["kind", "id"] with
  | some [some kind, some id] => do return ⟨← TriggerKind.ofJson? kind, ← id.word?⟩
  | _ => none

/-- A trigger as JSON. -/
def Trigger.toJson (trigger : Trigger) : Json :=
  .object [("key", trigger.key.toJson), ("map", .ofWord trigger.map.val)]

/-- Reads a trigger. -/
def Trigger.ofJson? (json : Json) : Option Trigger :=
  match json.record? ["key", "map"] with
  | some [some key, some map] => do return ⟨← TriggerKey.ofJson? key, ⟨← map.word?⟩⟩
  | _ => none

/-- The name of a kind of prompt in JSON. -/
def PromptKind.jsonName : PromptKind → String
  | sayNext => "SayNext"
  | say => "Say"
  | askMenu => "AskMenu"
  | askYesNo => "AskYesNo"

/-- All kinds of prompts. -/
def PromptKind.all : List PromptKind := [sayNext, say, askMenu, askYesNo]

/-- A prompt as JSON. -/
def Prompt.toJson (prompt : Prompt) : Json := .single prompt.kind.jsonName (.text prompt.text)

/-- Reads a prompt. -/
def Prompt.ofJson? (json : Json) : Option Prompt :=
  match json.variant? with
  | some (name, some content) => do
    return ⟨← PromptKind.all.find? fun kind => kind.jsonName == name, ← content.text?⟩
  | _ => none

/-- A stack of an item as JSON. -/
def ItemDrop.toJson (drop : ItemDrop) : Json :=
  .object [("item", .ofWord drop.item.val), ("quantity", .ofWord drop.quantity)]

/-- Reads a stack of an item. -/
def ItemDrop.ofJson? (json : Json) : Option ItemDrop :=
  match json.record? ["item", "quantity"] with
  | some [some item, some quantity] => do return ⟨⟨← item.word?⟩, ← quantity.word?⟩
  | _ => none

/-- Mesos as JSON. -/
def MesoDrop.toJson (drop : MesoDrop) : Json :=
  .object [("min", .ofWord drop.min), ("max", .ofWord drop.max), ("chance", .ofWord drop.chance)]

/-- Reads mesos. -/
def MesoDrop.ofJson? (json : Json) : Option MesoDrop :=
  match json.record? ["min", "max", "chance"] with
  | some [some min, some max, some chance] => do
    return ⟨← min.word?, ← max.word?, ← chance.word?⟩
  | _ => none

/-- A drop request as JSON. -/
def DropRequest.toJson (request : DropRequest) : Json :=
  .object [("mesos", request.mesos.toJson), ("items", .list (request.items.map ItemDrop.toJson))]

/-- Reads a drop request. -/
def DropRequest.ofJson? (json : Json) : Option DropRequest :=
  match json.record? ["mesos", "items"] with
  | some [some mesos, some items] => do
    return ⟨← MesoDrop.ofJson? mesos, ← (← items.list?).mapM ItemDrop.ofJson?⟩
  | _ => none

/-- A portal, or null for none, as JSON. -/
def portalToJson : Option PortalId → Json
  | none => .null
  | some portal => .ofByte portal.val

/-- An effect as JSON. -/
def Effect.toJson : Effect → Json
  | chat text => .single "Chat" (.text text)
  | changeMap map portal =>
    .single "ChangeMap" (.object [("map", .ofWord map.val), ("portal", portalToJson portal)])
  | dropItems request => .single "DropItems" request.toJson

/-- Reads an effect. -/
def Effect.ofJson? (json : Json) : Option Effect :=
  match json.variant? with
  | some ("Chat", some content) => content.text?.map chat
  | some ("ChangeMap", some content) =>
    match content.fields? ["map", "portal"] with
    | some [some map, portal] => do
      return changeMap ⟨← map.word?⟩ (← Json.optional? (fun json => json.byte?.map PortalId.mk) portal)
    | _ => none
  | some ("DropItems", some content) => (DropRequest.ofJson? content).map dropItems
  | _ => none

/-- The name of a reason in JSON. -/
def CancelReason.jsonName : CancelReason → String
  | disconnected => "Disconnected"
  | mapChanged => "MapChanged"
  | conversationOpen => "ConversationOpen"
  | shutdown => "Shutdown"

/-- A reason as JSON. -/
def CancelReason.toJson (reason : CancelReason) : Json := .text reason.jsonName

/-- Reads a reason. -/
def CancelReason.ofJson? (json : Json) : Option CancelReason :=
  match json.variant? with
  | some (name, content) =>
    if Json.isUnit content then all.find? fun reason => reason.jsonName == name else none
  | none => none

/-- An outcome as JSON. -/
def Outcome.toJson : Outcome → Json
  | completed => .text "Completed"
  | cancelled reason => .single "Cancelled" reason.toJson
  | failed message => .single "Failed" (.text message)

/-- Reads an outcome. -/
def Outcome.ofJson? (json : Json) : Option Outcome :=
  match json.variant? with
  | some ("Completed", content) => if Json.isUnit content then some completed else none
  | some ("Cancelled", some content) => (CancelReason.ofJson? content).map cancelled
  | some ("Failed", some content) => content.text?.map failed
  | _ => none

/-- The fields that every event has. -/
def Subject.toFields (subject : Subject) : List (String × Json) :=
  [("session", .ofNat subject.session.val), ("player", .ofWord subject.player.val),
    ("trigger", subject.trigger.toJson)]

/-- The names of the fields that every event has. -/
def Subject.fieldNames : List String := ["session", "player", "trigger"]

/-- Reads the fields that every event has. -/
def Subject.ofValues? (session player trigger : Json) : Option Subject := do
  return ⟨⟨← session.natBelow? UInt64.size⟩, ⟨← player.word?⟩, ← Trigger.ofJson? trigger⟩

/-- An event as JSON. -/
def Event.toJson (event : Event) : Json :=
  .single event.topic.name <|
    match event.happening with
    | .prompted prompt =>
      .single "Prompted" (.object (event.subject.toFields ++ [("prompt", prompt.toJson)]))
    | .effected effect => .object (event.subject.toFields ++ [("effect", effect.toJson)])
    | .started => .single "Started" (.object event.subject.toFields)
    | .ended outcome =>
      .single "Ended" (.object (event.subject.toFields ++ [("outcome", outcome.toJson)]))

/-- Reads an event under the topic "Dialogue". -/
def Event.ofDialogue? (json : Json) : Option Event :=
  match json.variant? with
  | some ("Prompted", some content) =>
    match content.fields? (Subject.fieldNames ++ ["prompt"]) with
    | some [some session, some player, some trigger, some prompt] => do
      return ⟨← Subject.ofValues? session player trigger, .prompted (← Prompt.ofJson? prompt)⟩
    | _ => none
  | _ => none

/-- Reads an event under the topic "Effect". -/
def Event.ofEffect? (json : Json) : Option Event :=
  match json.record? (Subject.fieldNames ++ ["effect"]) with
  | some [some session, some player, some trigger, some effect] => do
    return ⟨← Subject.ofValues? session player trigger, .effected (← Effect.ofJson? effect)⟩
  | _ => none

/-- Reads an event under the topic "Session". -/
def Event.ofSession? (json : Json) : Option Event :=
  match json.variant? with
  | some ("Started", some content) =>
    match content.fields? Subject.fieldNames with
    | some [some session, some player, some trigger] => do
      return ⟨← Subject.ofValues? session player trigger, .started⟩
    | _ => none
  | some ("Ended", some content) =>
    match content.fields? (Subject.fieldNames ++ ["outcome"]) with
    | some [some session, some player, some trigger, some outcome] => do
      return ⟨← Subject.ofValues? session player trigger, .ended (← Outcome.ofJson? outcome)⟩
    | _ => none
  | _ => none

/-- Reads an event. -/
def Event.ofJson? (json : Json) : Option Event :=
  match json.variant? with
  | some ("Dialogue", some content) => ofDialogue? content
  | some ("Effect", some content) => ofEffect? content
  | some ("Session", some content) => ofSession? content
  | _ => none

/-- The JSON text of an event. -/
def Event.toText (event : Event) : String := event.toJson.render

/-- Reads an event from a JSON text. -/
def Event.ofText? (s : String) : Option Event := (Json.read? s).bind ofJson?

end Encounter

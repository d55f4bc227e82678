import Encounter.Event.Json
import Encounter.Proofs.Json.Rearranged

/-!
# Events survive their JSON form

Each part of an event is read back from its JSON value, also if that value is rearranged: one lemma
for each type, from triggers and effects up to events.
-/

namespace Encounter

namespace Json

/-- An alternative with content is read by its name. -/
private theorem variant?_single (name : String) (content : Json) :
    (single name content).variant? = some (name, some content) := rfl

variable {json : Json}

private theorem natBelow?_of_rearranged {n bound : Nat} (hn : n < bound)
    (h : (ofNat n).Rearranged json) : json.natBelow? bound = some n := by
  rw [← h.eq_of_isAtom (.inl rfl), ofNat, natBelow?, if_pos hn]

private theorem word?_of_rearranged {n : UInt32} (h : (ofWord n).Rearranged json) :
    json.word? = some n := by
  rw [word?, natBelow?_of_rearranged n.toNat_lt h, Option.map_some, UInt32.ofNat_toNat]

private theorem byte?_of_rearranged {n : UInt8} (h : (ofByte n).Rearranged json) :
    json.byte? = some n := by
  rw [byte?, natBelow?_of_rearranged n.toNat_lt h, Option.map_some, UInt8.ofNat_toNat]

private theorem text?_of_rearranged {s : String} (h : (text s).Rearranged json) :
    json.text? = some s := by
  rw [← h.eq_of_isAtom (.inl rfl), text?]

end Json

variable {json : Json}

private theorem TriggerKind.ofJson?_of_rearranged {kind : TriggerKind}
    (h : kind.toJson.Rearranged json) :
    ofJson? json = some kind := by
  rw [← h.eq_of_isAtom (.inl rfl)]
  cases kind <;> rfl

private theorem TriggerKey.ofJson?_of_rearranged {key : TriggerKey}
    (h : key.toJson.Rearranged json) :
    ofJson? json = some key := by
  have hread : key.toJson.fields? ["kind", "id"] =
      some ([key.kind.toJson, .ofWord key.id].map some) := rfl
  obtain ⟨found, -, hrecord, hvalues⟩ := h.exists_fields hread (by decide)
  obtain _ | ⟨hkind, _ | ⟨hid, _ | _⟩⟩ := hvalues
  simp only [ofJson?, hrecord, List.map_cons, List.map_nil,
    TriggerKind.ofJson?_of_rearranged hkind, Json.word?_of_rearranged hid]
  rfl

theorem Trigger.ofJson?_of_rearranged {trigger : Trigger} (h : trigger.toJson.Rearranged json) :
    ofJson? json = some trigger := by
  have hread : trigger.toJson.fields? ["key", "map"] =
      some ([trigger.key.toJson, .ofWord trigger.map.val].map some) := rfl
  obtain ⟨found, -, hrecord, hvalues⟩ := h.exists_fields hread (by decide)
  obtain _ | ⟨hkey, _ | ⟨hmap, _ | _⟩⟩ := hvalues
  simp only [ofJson?, hrecord, List.map_cons, List.map_nil,
    TriggerKey.ofJson?_of_rearranged hkey, Json.word?_of_rearranged hmap]
  rfl

private theorem PromptKind.jsonName_ne_portal (kind : PromptKind) : kind.jsonName ≠ "portal" := by
  cases kind <;> decide

/-- The kind of a prompt is found by its name. -/
private theorem PromptKind.find?_jsonName (kind : PromptKind) :
    (all.find? fun other => other.jsonName == kind.jsonName) = some kind := by
  cases kind <;> rfl

theorem Prompt.ofJson?_of_rearranged {prompt : Prompt} (h : prompt.toJson.Rearranged json) :
    ofJson? json = some prompt := by
  obtain ⟨content, rfl, hcontent⟩ := h.exists_single prompt.kind.jsonName_ne_portal
  simp only [ofJson?, Json.variant?_single, PromptKind.find?_jsonName,
    Json.text?_of_rearranged hcontent]
  rfl

private theorem ItemDrop.ofJson?_of_rearranged {drop : ItemDrop} (h : drop.toJson.Rearranged json) :
    ofJson? json = some drop := by
  have hread : drop.toJson.fields? ["item", "quantity"] =
      some ([.ofWord drop.item.val, .ofWord drop.quantity].map some) := rfl
  obtain ⟨found, -, hrecord, hvalues⟩ := h.exists_fields hread (by decide)
  obtain _ | ⟨hitem, _ | ⟨hquantity, _ | _⟩⟩ := hvalues
  simp only [ofJson?, hrecord, List.map_cons, List.map_nil, Json.word?_of_rearranged hitem,
    Json.word?_of_rearranged hquantity]
  rfl

private theorem MesoDrop.ofJson?_of_rearranged {mesos : MesoDrop}
    (h : mesos.toJson.Rearranged json) :
    ofJson? json = some mesos := by
  have hread : mesos.toJson.fields? ["min", "max", "chance"] =
      some ([.ofWord mesos.min, .ofWord mesos.max, .ofWord mesos.chance].map some) := rfl
  obtain ⟨found, -, hrecord, hvalues⟩ := h.exists_fields hread (by decide)
  obtain _ | ⟨hmin, _ | ⟨hmax, _ | ⟨hchance, _ | _⟩⟩⟩ := hvalues
  simp only [ofJson?, hrecord, List.map_cons, List.map_nil, Json.word?_of_rearranged hmin,
    Json.word?_of_rearranged hmax, Json.word?_of_rearranged hchance]
  rfl

/-- A list of items is read item by item. -/
private theorem ItemDrop.mapM_ofJson?_of_rearranged {drops : List ItemDrop}
    (h : (Json.list (drops.map toJson)).Rearranged json) :
    ∃ items, json.list? = some items ∧ items.mapM ofJson? = some drops := by
  obtain ⟨items, rfl, hitems⟩ := h.exists_list
  refine ⟨items, rfl, Json.mapM_eq_some_iff.2 ?_⟩
  rw [List.forall₂_map_left_iff] at hitems
  exact hitems.flip.imp fun _ _ hitem => ofJson?_of_rearranged hitem

theorem DropRequest.ofJson?_of_rearranged {request : DropRequest}
    (h : request.toJson.Rearranged json) : ofJson? json = some request := by
  have hread : request.toJson.fields? ["mesos", "items"] =
      some ([request.mesos.toJson, .list (request.items.map ItemDrop.toJson)].map some) := rfl
  obtain ⟨found, -, hrecord, hvalues⟩ := h.exists_fields hread (by decide)
  obtain _ | ⟨hmesos, _ | ⟨hitems, _ | _⟩⟩ := hvalues
  obtain ⟨items, hlist, hdrops⟩ := ItemDrop.mapM_ofJson?_of_rearranged hitems
  simp only [ofJson?, hrecord, List.map_cons, List.map_nil,
    MesoDrop.ofJson?_of_rearranged hmesos, hlist]
  simp [hdrops]

/-- A portal is read back, and none also if the field was left out. -/
private theorem optional?_of_kept {portal : Option PortalId} {found : Option Json}
    (h : Json.Kept "portal" (some (portalToJson portal)) found) :
    Json.optional? (fun json => json.byte?.map PortalId.mk) found = some portal := by
  generalize hvalue : some (portalToJson portal) = value at h
  cases h with
  | absent => cases hvalue
  | @present before after hjson =>
    obtain rfl := Option.some.inj hvalue
    cases portal with
    | none =>
      obtain rfl : Json.null = after := hjson.eq_of_isAtom (.inl rfl)
      rfl
    | some portal =>
      obtain rfl : Json.ofByte portal.val = after := hjson.eq_of_isAtom (.inl rfl)
      have hbyte : (Json.ofByte portal.val).byte? = some portal.val :=
        Json.byte?_of_rearranged (.refl _)
      show ((Json.ofByte portal.val).byte?.map PortalId.mk).map some = _
      rw [hbyte]
      rfl
  | leftOut =>
    cases portal with
    | none => rfl
    | some portal => cases hvalue

/-- A change of map is read whether or not a missing portal is written. -/
private theorem Effect.ofJson?_changeMap {map : MapId} {portal : Option PortalId} {content : Json}
    (h : (Json.object [("map", .ofWord map.val), ("portal", portalToJson portal)]).Rearranged
      content) :
    ofJson? (.single "ChangeMap" content) = some (changeMap map portal) := by
  obtain ⟨fields, rfl, hfields⟩ := h.exists_object
  obtain ⟨_, htarget, hmap⟩ := hfields "map" _ rfl
  obtain ⟨found, hfound, hportal⟩ := hfields "portal" _ rfl
  cases hmap with
  | @present _ target hmap =>
    have hread : (Json.object fields).fields? ["map", "portal"] = some [some target, found] := by
      simp only [Json.fields?, List.mapM_cons, List.mapM_nil, htarget, hfound]
      rfl
    simp only [ofJson?, Json.variant?_single, hread, Json.word?_of_rearranged hmap,
      optional?_of_kept hportal]
    rfl

theorem Effect.ofJson?_of_rearranged {effect : Effect} (h : effect.toJson.Rearranged json) :
    ofJson? json = some effect := by
  cases effect with
  | chat text =>
    obtain ⟨content, rfl, hcontent⟩ := h.exists_single (by decide)
    simp only [ofJson?, Json.variant?_single, Json.text?_of_rearranged hcontent]
    rfl
  | changeMap map portal =>
    obtain ⟨content, rfl, hcontent⟩ := h.exists_single (by decide)
    exact ofJson?_changeMap hcontent
  | dropItems request =>
    obtain ⟨content, rfl, hcontent⟩ := h.exists_single (by decide)
    simp only [ofJson?, Json.variant?_single, DropRequest.ofJson?_of_rearranged hcontent]
    rfl

private theorem CancelReason.ofJson?_of_rearranged {reason : CancelReason}
    (h : reason.toJson.Rearranged json) : ofJson? json = some reason := by
  rw [← h.eq_of_isAtom (.inl rfl)]
  cases reason <;> rfl

theorem Outcome.ofJson?_of_rearranged {outcome : Outcome} (h : outcome.toJson.Rearranged json) :
    ofJson? json = some outcome := by
  cases outcome with
  | completed =>
    rw [← h.eq_of_isAtom (.inl rfl)]
    rfl
  | cancelled reason =>
    obtain ⟨content, rfl, hcontent⟩ := h.exists_single (by decide)
    simp only [ofJson?, Json.variant?_single, CancelReason.ofJson?_of_rearranged hcontent]
    rfl
  | failed message =>
    obtain ⟨content, rfl, hcontent⟩ := h.exists_single (by decide)
    simp only [ofJson?, Json.variant?_single, Json.text?_of_rearranged hcontent]
    rfl

/-! ## Events -/

/-- The values of the fields that every event has. -/
def Subject.values (subject : Subject) : List Json :=
  [.ofNat subject.session.val, .ofWord subject.player.val, subject.trigger.toJson]

private theorem Subject.ofValues?_of_rearranged {subject : Subject}
    (hsession : subject.session.val < UInt64.size) {session player trigger : Json}
    (h : List.Forall₂ Json.Rearranged subject.values [session, player, trigger]) :
    ofValues? session player trigger = some subject := by
  obtain _ | ⟨hnumber, _ | ⟨hplayer, _ | ⟨htrigger, _ | _⟩⟩⟩ := h
  simp only [ofValues?, Json.natBelow?_of_rearranged hsession hnumber,
    Json.word?_of_rearranged hplayer, Trigger.ofJson?_of_rearranged htrigger]
  rfl

/-- The fields that every event has are read together with one of its own. -/
theorem Subject.exists_values {subject : Subject} (hsession : subject.session.val < UInt64.size)
    (name : String) {value content : Json} (hname : "portal" ∉ fieldNames ++ [name])
    (hread : (Json.object (subject.toFields ++ [(name, value)])).fields? (fieldNames ++ [name]) =
      some ((subject.values ++ [value]).map some))
    (h : (Json.object (subject.toFields ++ [(name, value)])).Rearranged content) :
    ∃ session player trigger other,
      content.fields? (fieldNames ++ [name]) =
        some [some session, some player, some trigger, some other] ∧
      content.record? (fieldNames ++ [name]) =
        some [some session, some player, some trigger, some other] ∧
      ofValues? session player trigger = some subject ∧ value.Rearranged other := by
  obtain ⟨found, hfields, hrecord, hvalues⟩ := h.exists_fields hread hname
  have hvalues : List.Forall₂ Json.Rearranged
      [.ofNat subject.session.val, .ofWord subject.player.val, subject.trigger.toJson, value]
      found := hvalues
  obtain _ | ⟨hnumber, _ | ⟨hplayer, _ | ⟨htrigger, _ | ⟨hother, _ | _⟩⟩⟩⟩ := hvalues
  have hsubject := ofValues?_of_rearranged hsession
    (.cons hnumber (.cons hplayer (.cons htrigger .nil)))
  exact ⟨_, _, _, _, hfields, hrecord, hsubject, hother⟩

private theorem Event.ofDialogue?_of_rearranged {subject : Subject}
    (hsession : subject.session.val < UInt64.size) {prompt : Prompt} (h : (Json.single "Prompted"
      (.object (subject.toFields ++ [("prompt", prompt.toJson)]))).Rearranged json) :
    ofDialogue? json = some ⟨subject, .prompted prompt⟩ := by
  obtain ⟨content, rfl, hcontent⟩ := h.exists_single (by decide)
  obtain ⟨_, _, _, _, hfields, -, hsubject, hprompt⟩ :=
    Subject.exists_values hsession "prompt" (by decide) rfl hcontent
  simp only [ofDialogue?, Json.variant?_single, hfields, hsubject,
    Prompt.ofJson?_of_rearranged hprompt]
  rfl

private theorem Event.ofEffect?_of_rearranged {subject : Subject}
    (hsession : subject.session.val < UInt64.size) {effect : Effect}
    (h : (Json.object (subject.toFields ++ [("effect", effect.toJson)])).Rearranged json) :
    ofEffect? json = some ⟨subject, .effected effect⟩ := by
  obtain ⟨_, _, _, _, -, hrecord, hsubject, heffect⟩ :=
    Subject.exists_values hsession "effect" (by decide) rfl h
  simp only [ofEffect?, hrecord, hsubject, Effect.ofJson?_of_rearranged heffect]
  rfl

private theorem Event.ofSession?_started {subject : Subject}
    (hsession : subject.session.val < UInt64.size)
    (h : (Json.single "Started" (.object subject.toFields)).Rearranged json) :
    ofSession? json = some ⟨subject, .started⟩ := by
  obtain ⟨content, rfl, hcontent⟩ := h.exists_single (by decide)
  have hread : (Json.object subject.toFields).fields? Subject.fieldNames =
      some (subject.values.map some) := rfl
  obtain ⟨found, hfields, -, hvalues⟩ := hcontent.exists_fields hread (by decide)
  obtain ⟨_, _, _, rfl⟩ := List.length_eq_three.1 hvalues.length_eq.symm
  simp only [ofSession?, Json.variant?_single, hfields, List.map_cons, List.map_nil,
    Subject.ofValues?_of_rearranged hsession hvalues]
  rfl

private theorem Event.ofSession?_ended {subject : Subject}
    (hsession : subject.session.val < UInt64.size) {outcome : Outcome}
    (h : (Json.single "Ended"
      (.object (subject.toFields ++ [("outcome", outcome.toJson)]))).Rearranged json) :
    ofSession? json = some ⟨subject, .ended outcome⟩ := by
  obtain ⟨content, rfl, hcontent⟩ := h.exists_single (by decide)
  obtain ⟨_, _, _, _, hfields, -, hsubject, houtcome⟩ :=
    Subject.exists_values hsession "outcome" (by decide) rfl hcontent
  simp only [ofSession?, Json.variant?_single, hfields, hsubject,
    Outcome.ofJson?_of_rearranged houtcome]
  rfl

private theorem Topic.name_ne_portal (topic : Topic) : topic.name ≠ "portal" := by
  cases topic <;> decide

/-- An event is read back however its JSON is rearranged. -/
theorem Event.ofJson?_of_rearranged {event : Event} (hsession : event.session.val < UInt64.size)
    (h : event.toJson.Rearranged json) : ofJson? json = some event := by
  obtain ⟨content, rfl, hcontent⟩ := h.exists_single event.topic.name_ne_portal
  obtain ⟨subject, happening⟩ := event
  cases happening with
  | prompted prompt => exact ofDialogue?_of_rearranged hsession hcontent
  | effected effect => exact ofEffect?_of_rearranged hsession hcontent
  | started => exact ofSession?_started hsession hcontent
  | ended outcome => exact ofSession?_ended hsession hcontent

/-- Every event whose session has a number of 64 bits survives its JSON form. The form is an object
whose only field has the name of the topic; reading it gives the event, and so does reading its text,
with all escapes. The same event is read from every value that is rearranged, with the fields of
objects in another order or portals that are null left out, and from every text of such a value. -/
theorem Event.survives_json (event : Event) (hsession : event.session.val < UInt64.size) :
    (∃ content, event.toJson = .object [(event.topic.name, content)]) ∧
    ofJson? event.toJson = some event ∧
    ofText? event.toText = some event ∧
    ∀ json, event.toJson.Rearranged json →
      ofJson? json = some event ∧ ofText? json.render = some event ∧
        ∀ text, Json.read? text = some json → ofText? text = some event := by
  have hread : ∀ json text, event.toJson.Rearranged json → Json.read? text = some json →
      ofText? text = some event := by
    intro json text h htext
    rw [ofText?, htext]
    exact ofJson?_of_rearranged hsession h
  refine ⟨⟨_, rfl⟩, ofJson?_of_rearranged hsession (.refl _), ?_, ?_⟩
  · exact hread _ _ (.refl _) (Json.read?_render _)
  · intro json h
    exact ⟨ofJson?_of_rearranged hsession h, hread json _ h (Json.read?_render json),
      fun text => hread json text h⟩

/-- A warp to where players spawn. -/
def spawnWarp : Event := ⟨⟨⟨7⟩, ⟨1⟩, .npc ⟨9⟩ ⟨5⟩⟩, .effected (.changeMap ⟨3⟩ none)⟩

/-- The warp with its fields from last to first, and without the portal. -/
def spawnWarpJson : Json :=
  .single "Effect" (.object [("effect", .single "ChangeMap" (.object [("map", .ofWord 3)])),
    ("trigger", (Trigger.npc ⟨9⟩ ⟨5⟩).toJson), ("player", .ofWord 1), ("session", .ofNat 7)])

private theorem rearranged_spawnWarpJson : spawnWarp.toJson.Rearranged spawnWarpJson := by
  apply Json.Rearranged.field [] [] "Effect"
  apply Json.Rearranged.trans
  · apply Json.Rearranged.field (Subject.toFields _) [] "effect"
    apply Json.Rearranged.field [] [] "ChangeMap"
    exact .leaveOut [("map", .ofWord 3)] []
  · exact .reorder (List.reverse_perm _).symm

/-- The warp is read from that form of it. -/
theorem spawnWarp_survives_json :
    spawnWarp.session.val < UInt64.size ∧ Event.ofJson? spawnWarpJson = some spawnWarp ∧
      Event.ofText? spawnWarpJson.render = some spawnWarp := by
  have hsession : spawnWarp.session.val < UInt64.size := by decide
  obtain ⟨-, -, -, hsame⟩ := spawnWarp.survives_json hsession
  obtain ⟨hjson, htext, -⟩ := hsame spawnWarpJson rearranged_spawnWarpJson
  exact ⟨hsession, hjson, htext⟩

end Encounter

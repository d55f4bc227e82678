import Mathlib.Data.List.Forall2
import Encounter.Proofs.Json.Text

/-!
# Fields in another order

A record is read by the names of its fields, so it does not matter in what order they stand, and a
portal that is null may be left out. `Json.Rearranged` says that two values differ in nothing else;
the lemmas say what is found where in the second one.
-/

namespace Encounter.Json

/-- The second value is the first one with fields of objects in another order and with portals left
out that are null, at any depth. -/
inductive Rearranged : Json → Json → Prop where
  | refl (json : Json) : Rearranged json json
  | trans {first middle last : Json} (h : Rearranged first middle) (h' : Rearranged middle last) :
      Rearranged first last
  | reorder {fields others : List (String × Json)} (h : fields.Perm others) :
      Rearranged (.object fields) (.object others)
  | leaveOut (before after : List (String × Json)) :
      Rearranged (.object (before ++ ("portal", .null) :: after)) (.object (before ++ after))
  | field (before after : List (String × Json)) (name : String) {value other : Json}
      (h : Rearranged value other) :
      Rearranged (.object (before ++ (name, value) :: after))
        (.object (before ++ (name, other) :: after))
  | item (before after : List Json) {value other : Json} (h : Rearranged value other) :
      Rearranged (.list (before ++ value :: after)) (.list (before ++ other :: after))

/-- What is found of the name of a field, by what is found of that name in the others. -/
def beside (value : Json) : Option (Option Json) → Option (Option Json)
  | some none => some (some value)
  | _ => none

/-- A field is found unless there is another one of its name. -/
private theorem field?_cons (key name : String) (value : Json) (fields : List (String × Json)) :
    field? ((key, value) :: fields) name =
      if key = name then beside value (field? fields name) else field? fields name := by
  unfold field?
  rw [List.filter_cons]
  by_cases hkey : key = name
  · simp only [hkey, beq_self_eq_true, if_true]
    cases fields.filter fun field => field.1 == name with
    | nil => rfl
    | cons field rest => cases rest <;> rfl
  · simp [hkey]

/-- The order of the fields makes no difference. -/
private theorem field?_perm {fields others : List (String × Json)} (h : fields.Perm others)
    (name : String) : field? fields name = field? others name := by
  induction h with
  | nil => rfl
  | cons field _ ih => rw [field?_cons, field?_cons, ih]
  | swap first second fields =>
    rw [field?_cons, field?_cons, field?_cons, field?_cons]
    split
    · split
      · -- Of two fields with one name neither is found.
        obtain _ | _ | value := field? fields name <;> rfl
      · rfl
    · rfl
  | trans _ _ ih ih' => exact ih.trans ih'

/-- A field is found wherever it stands. -/
private theorem field?_insert (before after : List (String × Json)) (key name : String)
    (value : Json) :
    field? (before ++ (key, value) :: after) name =
      if key = name then beside value (field? (before ++ after) name)
      else field? (before ++ after) name := by
  rw [field?_perm List.perm_middle, field?_cons]

/-- A field that is found has a name of its own. -/
private theorem of_beside_eq_some {value : Json} {found : Option (Option Json)}
    {result : Option Json} (h : beside value found = some result) :
    found = some none ∧ result = some value := by
  obtain _ | _ | other := found
  · cases h
  · exact ⟨rfl, (Option.some.inj h).symm⟩
  · cases h

/-- Reading all items is reading item by item. -/
theorem mapM_eq_some_iff {α β : Type} {read : α → Option β} {items : List α} {values : List β} :
    items.mapM read = some values ↔
      List.Forall₂ (fun item value => read item = some value) items values := by
  induction items generalizing values with
  | nil => cases values <;> simp
  | cons item items ih =>
    simp only [List.mapM_cons, Option.bind_eq_bind, Option.bind_eq_some_iff, Option.pure_def,
      Option.some.injEq, List.forall₂_cons_left_iff, ih]
    constructor
    · rintro ⟨value, hvalue, rest, hrest, rfl⟩
      exact ⟨value, rest, hvalue, hrest, rfl⟩
    · rintro ⟨value, rest, hvalue, hrest, rfl⟩
      exact ⟨value, hvalue, rest, hrest, rfl⟩

/-- What is found of a field before and after. -/
inductive Kept (name : String) : Option Json → Option Json → Prop where
  | absent : Kept name none none
  | present {value other : Json} (h : Rearranged value other) : Kept name (some value) (some other)
  | leftOut (hname : name = "portal") : Kept name (some .null) none

variable {json other : Json}

/-- Values without parts stay as they are. -/
theorem Rearranged.eq_of_isAtom (h : Rearranged json other)
    (hatom : json.isAtom = true ∨ other.isAtom = true) : json = other := by
  induction h with
  | refl json => rfl
  | trans _ _ ih ih' =>
    obtain hfirst | hlast := hatom
    · obtain rfl := ih (.inl hfirst)
      exact ih' (.inl hfirst)
    · obtain rfl := ih' (.inr hlast)
      exact ih (.inr hlast)
  | reorder | leaveOut | field | item => obtain h | h := hatom <;> cases h

theorem Kept.refl (name : String) (value : Option Json) : Kept name value value := by
  cases value with
  | none => exact .absent
  | some value => exact .present (.refl value)

theorem Kept.trans {name : String} {first middle last : Option Json} (h : Kept name first middle)
    (h' : Kept name middle last) : Kept name first last := by
  cases h with
  | absent => exact h'
  | leftOut hname =>
    cases h'
    exact .leftOut hname
  | present hvalue =>
    cases h' with
    | present hother => exact .present (hvalue.trans hother)
    | leftOut hname =>
      obtain rfl := hvalue.eq_of_isAtom (.inr rfl)
      exact .leftOut hname

/-- An object stays one, and so do its fields, but for portals left out. -/
theorem Rearranged.exists_object {fields : List (String × Json)}
    (h : Rearranged (.object fields) other) :
    ∃ others, other = .object others ∧ ∀ name value, field? fields name = some value →
      ∃ found, field? others name = some found ∧ Kept name value found := by
  generalize hjson : Json.object fields = json at h
  induction h generalizing fields with
  | refl json => exact ⟨fields, hjson.symm, fun name value hfound => ⟨value, hfound, .refl name value⟩⟩
  | trans _ _ ih ih' =>
    obtain ⟨middle, hmiddle, hfirst⟩ := ih hjson
    obtain ⟨others, rfl, hsecond⟩ := ih' hmiddle.symm
    refine ⟨others, rfl, fun name value hfound => ?_⟩
    obtain ⟨between, hbetween, hkept⟩ := hfirst name value hfound
    obtain ⟨found, hothers, hkept'⟩ := hsecond name between hbetween
    exact ⟨found, hothers, hkept.trans hkept'⟩
  | @reorder from' others hperm =>
    obtain rfl := Json.object.inj hjson
    refine ⟨others, rfl, fun name value hfound => ⟨value, ?_, .refl name value⟩⟩
    rw [← field?_perm hperm, hfound]
  | leaveOut before after =>
    obtain rfl := Json.object.inj hjson
    refine ⟨before ++ after, rfl, fun name value hfound => ?_⟩
    rw [field?_insert] at hfound
    split at hfound
    · next hname =>
      obtain ⟨hnone, rfl⟩ := of_beside_eq_some hfound
      exact ⟨none, hnone, .leftOut hname.symm⟩
    · exact ⟨value, hfound, .refl name value⟩
  | @field before after key old new hvalue _ =>
    obtain rfl := Json.object.inj hjson
    refine ⟨before ++ (key, new) :: after, rfl, fun name value hfound => ?_⟩
    rw [field?_insert] at hfound ⊢
    by_cases hname : key = name
    · rw [if_pos hname] at hfound ⊢
      obtain ⟨hnone, rfl⟩ := of_beside_eq_some hfound
      rw [hnone]
      exact ⟨some new, rfl, .present hvalue⟩
    · rw [if_neg hname] at hfound ⊢
      exact ⟨value, hfound, .refl name value⟩
  | item => cases hjson

/-- An object with one field keeps it, unless it is a portal. -/
theorem Rearranged.exists_single {name : String} {content : Json} (hname : name ≠ "portal")
    (h : Rearranged (.single name content) other) :
    ∃ found, other = .single name found ∧ Rearranged content found := by
  generalize hjson : Json.single name content = json at h
  induction h generalizing content with
  | refl json => exact ⟨content, hjson.symm, .refl content⟩
  | trans _ _ ih ih' =>
    obtain ⟨middle, hmiddle, hfirst⟩ := ih hjson
    obtain ⟨found, hfound, hsecond⟩ := ih' hmiddle.symm
    exact ⟨found, hfound, hfirst.trans hsecond⟩
  | reorder hperm =>
    obtain rfl := Json.object.inj hjson
    obtain rfl := List.singleton_perm.1 hperm
    exact ⟨content, rfl, .refl content⟩
  | leaveOut before after =>
    have hfields := Json.object.inj hjson
    cases before with
    | nil => exact absurd (congrArg Prod.fst (List.cons.inj hfields).1) hname
    | cons field before => simp at hfields
  | field before after key hvalue _ =>
    have hfields := Json.object.inj hjson
    cases before with
    | nil =>
      obtain ⟨hfield, rfl⟩ := List.cons.inj hfields
      cases hfield
      exact ⟨_, rfl, hvalue⟩
    | cons field before => simp at hfields
  | item => cases hjson

/-- Rearranging item by item twice is rearranging item by item. -/
private theorem forall₂_trans {first middle last : List Json}
    (h : List.Forall₂ Rearranged first middle) (h' : List.Forall₂ Rearranged middle last) :
    List.Forall₂ Rearranged first last := by
  induction h generalizing last with
  | nil => exact h'
  | cons hitem _ ih =>
    cases h' with
    | cons hitem' hitems' => exact .cons (hitem.trans hitem') (ih hitems')

/-- A list keeps its items, in order. -/
theorem Rearranged.exists_list {items : List Json} (h : Rearranged (.list items) other) :
    ∃ others, other = .list others ∧ List.Forall₂ Rearranged items others := by
  have hsame (items : List Json) : List.Forall₂ Rearranged items items :=
    List.forall₂_same.2 fun item _ => .refl item
  generalize hjson : Json.list items = json at h
  induction h generalizing items with
  | refl json => exact ⟨items, hjson.symm, hsame items⟩
  | trans _ _ ih ih' =>
    obtain ⟨middle, hmiddle, hfirst⟩ := ih hjson
    obtain ⟨others, hothers, hsecond⟩ := ih' hmiddle.symm
    exact ⟨others, hothers, forall₂_trans hfirst hsecond⟩
  | item before after hvalue _ =>
    obtain rfl := Json.list.inj hjson
    exact ⟨_, rfl, List.rel_append (hsame before) (.cons hvalue (hsame after))⟩
  | reorder | leaveOut | field => cases hjson

/-- The fields of a record are found, if none of them is a portal. -/
theorem Rearranged.exists_fields (h : Rearranged json other) {names : List String}
    {values : List Json} (hread : json.fields? names = some (values.map some))
    (hnames : "portal" ∉ names) :
    ∃ found : List Json, other.fields? names = some (found.map some) ∧
      other.record? names = some (found.map some) ∧ List.Forall₂ Rearranged values found := by
  cases json with
  | object fields =>
    obtain ⟨others, rfl, hfields⟩ := h.exists_object
    suffices ∃ found : List Json, names.mapM (field? others) = some (found.map some) ∧
        List.Forall₂ Rearranged values found by
      obtain ⟨found, hfound, hvalues⟩ := this
      exact ⟨found, hfound, hfound, hvalues⟩
    have hall := mapM_eq_some_iff.1 hread
    simp only [mapM_eq_some_iff, List.forall₂_map_right_iff] at hall ⊢
    clear h hread
    induction hall with
    | nil => exact ⟨[], .nil, .nil⟩
    | @cons name value names values hvalue _ ih =>
      obtain ⟨hname, hnames⟩ := not_or.1 (List.mem_cons.not.1 hnames)
      obtain ⟨found, hfound, hvalues⟩ := ih hnames
      obtain ⟨_, hthere, hkept⟩ := hfields name (some value) hvalue
      cases hkept with
      | present hother => exact ⟨_ :: found, .cons hthere hfound, .cons hother hvalues⟩
      | leftOut hportal => exact absurd hportal.symm hname
  | _ => cases hread

end Encounter.Json

import Encounter.Proofs.Binding.Repeated
import Encounter.Proofs.Ron.Reading
import Mathlib.Data.List.Perm.Basic

/-!
# Binding files as they are written

A binding is a record of three fields in any order, and a binding file a record of one field that
lists bindings. Both may carry their name. Whatever of this is chosen, and however the tokens are
spelled and laid out, the bindings are read back in their order.
-/

namespace Encounter

/-- The name of a kind in a binding file. -/
def TriggerKind.word : TriggerKind → String
  | npc => "Npc"
  | reactor => "Reactor"

namespace Binding

/-- The fields of a binding, each with its name, a colon and its value. -/
def fieldTokens (binding : Binding) : List (List Ron.Token) :=
  [[.ident false "kind", .sign ':', .ident false binding.key.kind.word],
    [.ident false "id", .sign ':', .integer ⟨false, binding.key.id.toNat, none⟩],
    [.ident false "script", .sign ':', .text binding.script]]

/-- The tokens are those of the binding. -/
inductive Written (binding : Binding) : List Ron.Token → Prop where
  | record {name : Option String} {behind : List Char} {fields : List (List Ron.Token)}
      {inside : List Ron.Token} (hname : ∀ word ∈ name, word = "TriggerBinding")
      (hfields : fields.Perm binding.fieldTokens) (hinside : Ron.Commas ')' fields inside) :
      Written binding (Ron.openedBy name behind inside)

/-- The tokens are those of a file with the bindings. -/
inductive FileWritten (bindings : List Binding) : List Ron.Token → Prop where
  | record {name : Option String} {behind : List Char} {parts : List (List Ron.Token)}
      {list inside : List Ron.Token} (hname : ∀ word ∈ name, word = "BindingFile")
      (hparts : List.Forall₂ Written bindings parts) (hlist : Ron.Commas ']' parts list)
      (hinside :
        Ron.Commas ')' [.ident false "bindings" :: .sign ':' :: .sign '[' :: list] inside) :
      FileWritten bindings (Ron.openedBy name behind inside)

/-- The text is that of a file with the bindings, in any layout. -/
def Writes (bindings : List Binding) (s : String) : Prop :=
  ∃ tokens, FileWritten bindings tokens ∧ Ron.Layout tokens s.toList

/-- The fields of a binding as they are read. -/
def fieldValues (binding : Binding) : List (String × Ron.Value) :=
  [("kind", .unit (some binding.key.kind.word)),
    ("id", .integer ⟨false, binding.key.id.toNat, none⟩), ("script", .text binding.script)]

private theorem forall₂_fieldValues (depth : Nat) (binding : Binding) :
    List.Forall₂ (Ron.ReadsField depth) binding.fieldValues binding.fieldTokens := by
  have hkind : Ron.IsName binding.key.kind.word := by
    cases binding.key.kind <;> decide
  exact .cons ⟨_, rfl, Ron.reads_name depth hkind⟩ (.cons ⟨_, rfl, Ron.reads_integer depth _⟩
    (.cons ⟨_, rfl, Ron.reads_text depth _⟩ .nil))

/-- The order of fields does not matter where a field is looked for. -/
private theorem onlyField?_of_perm {fields fields' : List (String × Ron.Value)}
    (hperm : fields'.Perm fields)
    {name : String} {value : Ron.Value} (h : onlyField? name fields = some value) :
    onlyField? name fields' = some value := by
  have hfilter := hperm.filter fun field => field.1 == name
  unfold onlyField? at h ⊢
  split at h
  · next field hfield =>
    rw [hfield] at hfilter
    rw [List.perm_singleton.1 hfilter]
    exact h
  · cases h

private theorem wordOfRon?_toNat (id : UInt32) :
    wordOfRon? (.integer ⟨false, id.toNat, none⟩) = some id := by
  have hfits : Ron.IntType.fits false id.toNat (.unsigned 32) = true := by
    simpa [Ron.IntType.fits] using id.toNat_lt
  simp [wordOfRon?, hfits]

private theorem kindOfRon?_word (kind : TriggerKind) :
    kindOfRon? (.unit (some kind.word)) = some kind := by
  cases kind <;> rfl

private theorem fieldsNamed?_record {name : Option String} {expected : String}
    (hname : ∀ word ∈ name, word = expected) (fields : List (String × Ron.Value)) :
    fieldsNamed? false expected (.record name fields) = some fields := by
  cases name with
  | none => rfl
  | some word => exact if_pos (hname word rfl)

/-- Fields in another order are read in that order. -/
theorem exists_fields (depth : Nat) {binding : Binding} {parts : List (List Ron.Token)}
    (h : parts.Perm binding.fieldTokens) :
    ∃ fields, fields.Perm binding.fieldValues ∧ fields ≠ [] ∧
      List.Forall₂ (Ron.ReadsField depth) fields parts := by
  have hboth : Relation.Comp (List.Forall₂ (Ron.ReadsField depth)) List.Perm
      binding.fieldValues parts := ⟨_, forall₂_fieldValues depth binding, h.symm⟩
  rw [List.forall₂_comp_perm_eq_perm_comp_forall₂] at hboth
  obtain ⟨fields, hperm, hfields⟩ := hboth
  refine ⟨fields, hperm.symm, ?_, hfields⟩
  rintro rfl
  cases hperm.eq_nil

/-- Fields in any order make up the binding. -/
private theorem ofRon?_record {binding : Binding} {name : Option String}
    (hname : ∀ word ∈ name, word = "TriggerBinding") {fields : List (String × Ron.Value)}
    (hfields : fields.Perm binding.fieldValues) :
    ofRon? false (.record name fields) = some binding := by
  have hkind : onlyField? "kind" fields = _ := onlyField?_of_perm hfields rfl
  have hid : onlyField? "id" fields = _ := onlyField?_of_perm hfields rfl
  have hscript : onlyField? "script" fields = _ := onlyField?_of_perm hfields rfl
  have hnamed := fieldsNamed?_record hname fields
  simp [ofRon?, hnamed, hkind, hid, hscript, kindOfRon?_word, wordOfRon?_toNat, textOfRon?]

/-- A binding is read back from its tokens. -/
private theorem Written.exists_value {binding : Binding} {tokens : List Ron.Token}
    (h : Written binding tokens) (depth : Nat) :
    ∃ value, Ron.Reads (depth + 2) value tokens ∧ ofRon? false value = some binding := by
  cases h with
  | @record name behind fields inside hname hfields hinside =>
    obtain ⟨values, hperm, hne, hparts⟩ := exists_fields depth hfields
    have hword : ∀ word ∈ name, Ron.IsName word := fun word hm => hname word hm ▸ by decide
    exact ⟨_, hinside.reads_record hword hparts hne behind, ofRon?_record hname hperm⟩

private theorem apart_of_mem_fieldTokens {binding : Binding} {part : List Ron.Token}
    (h : part ∈ binding.fieldTokens) : Ron.Apart part := by
  intro c rest hrest
  simp only [fieldTokens, List.mem_cons, List.not_mem_nil, or_false] at h
  obtain rfl | rfl | rfl := h
  · exact ⟨rfl, trivial, rfl, trivial, hrest⟩
  · exact ⟨rfl, trivial, rfl, trivial, hrest⟩
  · exact ⟨rfl, trivial, trivial, trivial, hrest⟩

/-- The tokens of a binding stay apart. -/
private theorem Written.apart {binding : Binding} {tokens : List Ron.Token}
    (h : Written binding tokens) :
    Ron.Apart tokens := by
  cases h with
  | @record name behind fields inside hname hfields hinside =>
    obtain ⟨values, -, hne, hparts⟩ := exists_fields 0 hfields
    have hapart : ∀ part ∈ fields, Ron.Apart part := fun part hm =>
      apart_of_mem_fieldTokens (hfields.mem_iff.1 hm)
    intro c rest hrest
    exact hinside.separated_record hparts hne hapart (hrest.sign c) name behind

section File

variable {bindings : List Binding}

theorem exists_values {parts : List (List Ron.Token)} (h : List.Forall₂ Written bindings parts)
    (depth : Nat) :
    ∃ values, List.Forall₂ (Ron.Reads (depth + 2)) values parts ∧
      values.mapM (ofRon? false) = some bindings := by
  induction h with
  | nil => exact ⟨[], .nil, rfl⟩
  | cons h _ ih =>
    obtain ⟨value, hvalue, hread⟩ := h.exists_value depth
    obtain ⟨values, hvalues, hreads⟩ := ih
    exact ⟨value :: values, .cons hvalue hvalues, by simp [hread, hreads]⟩

/-- The tokens of a list of bindings stay apart. -/
private theorem apart_bindings {parts : List (List Ron.Token)} {list : List Ron.Token}
    (hparts : List.Forall₂ Written bindings parts) (hlist : Ron.Commas ']' parts list) :
    Ron.Apart (.ident false "bindings" :: .sign ':' :: .sign '[' :: list) := by
  have hapart : ∀ part ∈ parts, Ron.Apart part :=
    ((List.forall₂_and_left _ _).1 (hparts.flip.imp fun _ _ h => ⟨h.apart, h⟩)).1
  intro c rest hrest
  exact ⟨rfl, trivial, trivial, hlist.separated hapart (hrest.sign c)⟩

/-- The one field of a file is read as the list of its bindings. -/
theorem exists_list {parts : List (List Ron.Token)} {list : List Ron.Token}
    (hparts : List.Forall₂ Written bindings parts) (hlist : Ron.Commas ']' parts list) :
    ∃ values, values.mapM (ofRon? false) = some bindings ∧
      List.Forall₂ (Ron.ReadsField 126) [("bindings", .list values)]
        [.ident false "bindings" :: .sign ':' :: .sign '[' :: list] := by
  obtain ⟨values, hvalues, hreads⟩ := exists_values hparts 122
  exact ⟨values, hreads, .cons ⟨_, rfl, hlist.reads_list hvalues⟩ .nil⟩

/-- The bindings of a file are read back from its tokens. -/
private theorem FileWritten.exists_value {tokens : List Ron.Token}
    (h : FileWritten bindings tokens) :
    ∃ value, Ron.Reads Ron.maxDepth value tokens ∧ listOfRon? ⟨[], value⟩ = some bindings := by
  cases h with
  | @record name behind parts list inside hname hparts hlist hinside =>
    obtain ⟨values, hreads, hfield⟩ := exists_list hparts hlist
    have hword : ∀ word ∈ name, Ron.IsName word := fun word hm => hname word hm ▸ by decide
    have hrecord := hinside.reads_record hword hfield (List.cons_ne_nil _ _) behind
    refine ⟨_, hrecord, ?_⟩
    have hnamed := fieldsNamed?_record hname [("bindings", .list values)]
    have hbindings : onlyField? "bindings" [("bindings", .list values)] = some (.list values) := rfl
    simp [listOfRon?, hnamed, hbindings, hreads]

theorem FileWritten.separated {tokens : List Ron.Token} (h : FileWritten bindings tokens) :
    Ron.Separated tokens := by
  cases h with
  | @record name behind parts list inside hname hparts hlist hinside =>
    obtain ⟨values, -, hfield⟩ := exists_list hparts hlist
    have hend : Ron.Separated [] := trivial
    have hseparated := hinside.separated_record hfield (List.cons_ne_nil _ _)
      (List.forall_mem_singleton.2 (apart_bindings hparts hlist)) hend name behind
    rwa [List.append_nil] at hseparated

/-- A file is read back from any text that is written so. -/
theorem read?_of_writes {s : String} (h : Writes bindings s) : read? s = some bindings := by
  obtain ⟨tokens, htokens, hlayout⟩ := h
  obtain ⟨value, hreads, hbindings⟩ := htokens.exists_value
  have hheader : tokens.head? ≠ some (.sign '#') := by
    cases htokens with
    | @record name => cases name <;> exact (nomatch ·)
  rw [read?, Ron.Document.parse_of_layout hlayout htokens.separated hheader hreads]
  exact hbindings

end File

end Binding
end Encounter

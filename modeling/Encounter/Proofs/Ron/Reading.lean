import Encounter.Ron.Value
import Encounter.Proofs.Ron.Layout
import Mathlib.Data.List.Forall2

/-!
# Values read from their tokens

Items and fields stand between brackets with commas between them. A value that is written so is read
up to its last token, and what follows it is left.
-/

namespace Encounter.Ron

/-- Parts with commas between them, then the closing bracket; a comma may stand behind the last
part. -/
inductive Commas (close : Char) : List (List Token) → List Token → Prop where
  | nil : Commas close [] [.sign close]
  | last {part : List Token} : Commas close [part] (part ++ [.sign close])
  | cons {part tokens : List Token} {parts : List (List Token)} (h : Commas close parts tokens) :
      Commas close (part :: parts) (part ++ .sign ',' :: tokens)

/-- An opening parenthesis in front of what it opens, perhaps behind a name. -/
def openedBy (name : Option String) (behind : List Char) (inside : List Token) : List Token :=
  (name.map (.ident false)).toList ++ .opening behind :: inside

/-- Is the token a sign? -/
def Token.isSign : Token → Bool
  | .sign _ => true
  | _ => false

/-- The tokens are read as the value up to a sign or the end, given fuel for them and room for `depth`
brackets inside each other. -/
def Reads (depth : Nat) (value : Value) (tokens : List Token) : Prop :=
  ∀ (exts : List Extension) (fuel : Nat) (rest : List Token), 3 * tokens.length ≤ fuel →
    rest.head?.all Token.isSign = true → value? exts fuel depth (tokens ++ rest) = some (value, rest)

/-- The tokens are read as the field: its name, a colon and its value. -/
def ReadsField (depth : Nat) (field : String × Value) (tokens : List Token) : Prop :=
  ∃ value, tokens = .ident false field.1 :: .sign ':' :: value ∧ Reads depth field.2 value

/-- The word is a name, and does not stand for a value by itself. -/
def IsName (word : String) : Prop := Value.ofWord? word = none ∧ word ≠ "Some"

instance (word : String) : Decidable (IsName word) :=
  inferInstanceAs (Decidable (Value.ofWord? word = none ∧ word ≠ "Some"))

theorem reads_integer (depth : Nat) (n : Integer) : Reads depth (.integer n) [.integer n] := by
  intro exts fuel rest hfuel _
  obtain ⟨fuel, rfl⟩ := Nat.exists_eq_add_of_le' (Nat.le_trans (by decide : 1 ≤ 3) hfuel)
  rw [List.cons_append, value?, List.nil_append]

theorem reads_text (depth : Nat) (s : String) : Reads depth (.text s) [.text s] := by
  intro exts fuel rest hfuel _
  obtain ⟨fuel, rfl⟩ := Nat.exists_eq_add_of_le' (Nat.le_trans (by decide : 1 ≤ 3) hfuel)
  rw [List.cons_append, value?, List.nil_append]

/-- A name is read alone unless a parenthesis follows. -/
theorem reads_name (depth : Nat) {name : String} (h : IsName name) :
    Reads depth (.unit (some name)) [.ident false name] := by
  intro exts fuel rest hfuel hrest
  obtain ⟨fuel, rfl⟩ := Nat.exists_eq_add_of_le' (Nat.le_trans (by decide : 2 ≤ 3) hfuel)
  have hnamed : named? exts (fuel + 1) depth name rest = some (.unit (some name), rest) := by
    unfold named?
    cases rest with
    | nil => rfl
    | cons token rest =>
      cases token with
      | sign => rfl
      | _ => cases hrest
  show value? exts (fuel + 1 + 1) depth (.ident false name :: rest) = _
  unfold value?
  simp only [Bool.false_eq_true, if_false, h.1, h.2, hnamed]

section Brackets

variable {depth : Nat} {parts : List (List Token)} {tokens : List Token}

/-- A value does not start with a closing bracket. -/
private theorem Reads.head?_append_ne {value : Value} (h : Reads depth value tokens)
    (rest : List Token) :
    (tokens ++ rest).head? ≠ some (.sign ']') := by
  intro hhead
  have hread := h [] (3 * tokens.length + 1) [] (Nat.le_succ _) rfl
  rw [List.append_nil] at hread
  cases tokens with
  | nil => simp [value?] at hread
  | cons token tokens =>
    cases hhead
    cases depth <;> simp [value?] at hread

/-- Items are read up to the closing bracket. -/
theorem Commas.items? {values : List Value} (hparts : List.Forall₂ (Reads depth) values parts)
    (h : Commas ']' parts tokens) (exts : List Extension) (fuel : Nat)
    (hfuel : 3 * tokens.length ≤ fuel) (rest : List Token) :
    Ron.items? exts fuel (depth + 1) ']' (tokens ++ rest) = some (values, rest) := by
  induction h generalizing values fuel with
  | nil =>
    cases hparts
    obtain ⟨fuel, rfl⟩ := Nat.exists_eq_add_of_le' (Nat.le_trans (by decide : 1 ≤ 3) hfuel)
    rw [List.singleton_append, Ron.items?, List.head?_cons, if_pos rfl, List.tail_cons]
  | @last part =>
    obtain ⟨value, _, hvalue, hnil, rfl⟩ := List.forall₂_cons_right_iff.1 hparts
    cases hnil
    rw [List.length_append, List.length_singleton] at hfuel
    obtain ⟨fuel, rfl⟩ := Nat.exists_eq_add_of_le' (show 1 ≤ fuel by omega)
    have hread := hvalue exts fuel (.sign ']' :: rest) (by omega) rfl
    rw [List.append_assoc, List.singleton_append, Ron.items?, if_neg (hvalue.head?_append_ne _)]
    simp [hread]
  | @cons part tokens parts _ ih =>
    obtain ⟨value, values, hvalue, hvalues, rfl⟩ := List.forall₂_cons_right_iff.1 hparts
    rw [List.length_append, List.length_cons] at hfuel
    obtain ⟨fuel, rfl⟩ := Nat.exists_eq_add_of_le' (show 1 ≤ fuel by omega)
    have hread := hvalue exts fuel (.sign ',' :: (tokens ++ rest)) (by omega) rfl
    have hothers := ih hvalues fuel (by omega)
    rw [List.append_assoc, List.cons_append, Ron.items?, if_neg (hvalue.head?_append_ne _)]
    simp [hread, hothers]

/-- Fields are read up to the closing parenthesis. -/
theorem Commas.fields? {fields : List (String × Value)}
    (hparts : List.Forall₂ (ReadsField depth) fields parts)
    (h : Commas ')' parts tokens) (exts : List Extension) (fuel : Nat)
    (hfuel : 3 * tokens.length ≤ fuel) (rest : List Token) :
    Ron.fields? exts fuel (depth + 1) (tokens ++ rest) = some (fields, rest) := by
  induction h generalizing fields fuel with
  | nil =>
    cases hparts
    obtain ⟨fuel, rfl⟩ := Nat.exists_eq_add_of_le' (Nat.le_trans (by decide : 1 ≤ 3) hfuel)
    rw [List.singleton_append, Ron.fields?]
  | @last part =>
    obtain ⟨⟨name, value⟩, _, ⟨tokens, rfl, hvalue⟩, hnil, rfl⟩ :=
      List.forall₂_cons_right_iff.1 hparts
    cases hnil
    simp only [List.length_append, List.length_cons, List.length_nil] at hfuel
    obtain ⟨fuel, rfl⟩ := Nat.exists_eq_add_of_le' (show 1 ≤ fuel by omega)
    have hread := hvalue exts fuel (.sign ')' :: rest) (by omega) rfl
    simp [Ron.fields?, hread]
  | @cons part tokens parts _ ih =>
    obtain ⟨⟨name, value⟩, fields, ⟨written, rfl, hvalue⟩, hfields, rfl⟩ :=
      List.forall₂_cons_right_iff.1 hparts
    simp only [List.length_append, List.length_cons] at hfuel
    obtain ⟨fuel, rfl⟩ := Nat.exists_eq_add_of_le' (show 1 ≤ fuel by omega)
    have hread := hvalue exts fuel (.sign ',' :: (tokens ++ rest)) (by omega) rfl
    have hothers := ih hfields fuel (by omega)
    simp [Ron.fields?, hread, hothers]

/-- A list is read as its items. -/
theorem Commas.reads_list {values : List Value} (hparts : List.Forall₂ (Reads depth) values parts)
    (h : Commas ']' parts tokens) : Reads (depth + 2) (.list values) (.sign '[' :: tokens) := by
  intro exts fuel rest hfuel _
  rw [List.length_cons] at hfuel
  obtain ⟨fuel, rfl⟩ := Nat.exists_eq_add_of_le' (show 1 ≤ fuel by omega)
  have hitems := h.items? hparts exts fuel (by omega) rest
  simp [value?, hitems]

/-- Behind an opening parenthesis the name of a field stands first. -/
private theorem Commas.exists_field {fields : List (String × Value)}
    (hparts : List.Forall₂ (ReadsField depth) fields parts) (hne : fields ≠ [])
    (h : Commas ')' parts tokens) :
    ∃ name after, tokens = .ident false name :: .sign ':' :: after := by
  cases h with
  | nil => exact absurd (List.forall₂_nil_right_iff.1 hparts) hne
  | last | cons =>
    obtain ⟨_, _, ⟨_, rfl, -⟩, -, -⟩ := List.forall₂_cons_right_iff.1 hparts
    exact ⟨_, _, rfl⟩

/-- A record is read as its fields, of which there is at least one. -/
theorem Commas.reads_record {fields : List (String × Value)} {name : Option String}
    (hname : ∀ word ∈ name, IsName word) (hparts : List.Forall₂ (ReadsField depth) fields parts)
    (hne : fields ≠ []) (h : Commas ')' parts tokens) (behind : List Char) :
    Reads (depth + 2) (.record name fields) (openedBy name behind tokens) := by
  have hbody : ∀ exts fuel rest, 3 * tokens.length < fuel →
      body? exts fuel (depth + 1) name (tokens ++ rest) = some (.record name fields, rest) := by
    intro exts fuel rest hfuel
    obtain ⟨fuel, rfl⟩ := Nat.exists_eq_add_of_le' (show 1 ≤ fuel by omega)
    have hfields := h.fields? hparts exts fuel (by omega) rest
    have hopens : opensRecord (tokens ++ rest) = true := by
      obtain ⟨_, _, rfl⟩ := h.exists_field hparts hne
      rfl
    rw [body?, if_pos hopens, hfields]
    rfl
  intro exts fuel rest hfuel _
  cases name with
  | none =>
    have hlength : (openedBy none behind tokens).length = tokens.length + 1 := rfl
    obtain ⟨fuel, rfl⟩ := Nat.exists_eq_add_of_le' (show 1 ≤ fuel by omega)
    show value? exts (fuel + 1) (depth + 1 + 1) (.opening behind :: (tokens ++ rest)) = _
    rw [value?]
    exact hbody exts fuel rest (by omega)
  | some word =>
    have hlength : (openedBy (some word) behind tokens).length = tokens.length + 2 := rfl
    obtain ⟨hvalue, hsome⟩ := hname word rfl
    obtain ⟨fuel, rfl⟩ := Nat.exists_eq_add_of_le' (show 2 ≤ fuel by omega)
    show value? exts (fuel + 1 + 1) (depth + 1 + 1)
      (.ident false word :: .opening behind :: (tokens ++ rest)) = _
    rw [value?]
    simp only [Bool.false_eq_true, if_false, hvalue, hsome]
    rw [named?]
    exact hbody exts fuel rest (by omega)

/-- What holds of the tokens of all parts, of the comma and of the closing bracket, holds of all. -/
theorem Commas.forall_mem {close : Char} {p : Token → Prop} (h : Commas close parts tokens)
    (hcomma : p (.sign ',')) (hclose : p (.sign close))
    (hparts : ∀ part ∈ parts, ∀ token ∈ part, p token) : ∀ token ∈ tokens, p token := by
  induction h with
  | nil => exact List.forall_mem_singleton.2 hclose
  | last =>
    refine List.forall_mem_append.2 ⟨hparts _ List.mem_cons_self, ?_⟩
    exact List.forall_mem_singleton.2 hclose
  | cons _ ih =>
    obtain ⟨hpart, hothers⟩ := List.forall_mem_cons.1 hparts
    exact List.forall_mem_append.2 ⟨hpart, List.forall_mem_cons.2 ⟨hcomma, ih hothers⟩⟩

/-- The tokens stay apart where a sign follows them. -/
def Apart (tokens : List Token) : Prop :=
  ∀ (c : Char) (rest : List Token), Separated rest → Separated (tokens ++ .sign c :: rest)

theorem Separated.sign {rest : List Token} (h : Separated rest) (c : Char) :
    Separated (.sign c :: rest) := ⟨trivial, h⟩

/-- Parts between commas stay apart, whatever follows the closing bracket. -/
theorem Commas.separated {close : Char} (hparts : ∀ part ∈ parts, Apart part)
    (h : Commas close parts tokens) {rest : List Token} (hrest : Separated rest) :
    Separated (tokens ++ rest) := by
  induction h with
  | nil => exact hrest.sign close
  | last =>
    rw [List.append_assoc]
    exact hparts _ List.mem_cons_self close rest hrest
  | cons _ ih =>
    obtain ⟨hpart, hothers⟩ := List.forall_mem_cons.1 hparts
    rw [List.append_assoc]
    exact hpart ',' _ (ih hothers)

/-- So does a record of such fields. -/
theorem Commas.separated_record {fields : List (String × Value)}
    (hfields : List.Forall₂ (ReadsField depth) fields parts) (hne : fields ≠ [])
    (hparts : ∀ part ∈ parts, Apart part) (h : Commas ')' parts tokens) {rest : List Token}
    (hrest : Separated rest) (name : Option String) (behind : List Char) :
    Separated (openedBy name behind tokens ++ rest) := by
  have hopening : Separated (.opening behind :: (tokens ++ rest)) := by
    obtain ⟨word, after, hword⟩ := h.exists_field hfields hne
    exact ⟨⟨word, _, congrArg (· ++ rest) hword⟩, h.separated hparts hrest⟩
  cases name with
  | none => exact hopening
  | some => exact ⟨rfl, hopening⟩

end Brackets

/-- A text that holds a value without headers in front is read as that value. -/
theorem Document.parse_of_layout {s : String} {tokens : List Token} {value : Value}
    (hlayout : Layout tokens s.toList) (hseparated : Separated tokens)
    (hheader : tokens.head? ≠ some (.sign '#')) (hreads : Reads maxDepth value tokens) :
    Document.parse s = some ⟨[], value⟩ := by
  have htokens : tokens? s = some tokens := hlayout.tokensFrom_eq hseparated
  have hheaders : headers? (3 * tokens.length + 3) tokens = some ([], tokens) := by
    have hnone : ∀ after, tokens ≠ .sign '#' :: after := by
      rintro after rfl
      exact hheader rfl
    rw [headers?]
    · exact fun _ _ => hnone _
    · exact hnone
  have hvalue := hreads [] (3 * tokens.length + 3) [] (Nat.le_add_right _ _) rfl
  rw [List.append_nil] at hvalue
  simp [Document.parse, htokens, hheaders, hvalue]

end Encounter.Ron

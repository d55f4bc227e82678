import Encounter.Json.Text
import Encounter.Proofs.Ron.Quoted

/-!
# Values and their texts

What is written of a value is read back, whatever the characters of its texts and however large its
numbers. The reader takes the text of a part inside what is still open, and stands behind that part
then (`Json.readFrom_chars`).
-/

namespace Encounter.Json

private theorem readFrom_skip (progress : Progress) (skip : Nat) (cs : List Char) :
    readFrom progress skip cs = readFrom progress 0 (cs.drop skip) := by
  induction cs generalizing skip with
  | nil => cases skip <;> rfl
  | cons c cs ih =>
    cases skip with
    | zero => rfl
    | succ skip => exact ih skip

theorem quoted?_skip (skip : Nat) (cs : List Char) :
    quoted? skip cs = quoted? 0 (cs.drop skip) := by
  induction cs generalizing skip with
  | nil => cases skip <;> rfl
  | cons c cs ih =>
    cases skip with
    | zero => rfl
    | succ skip => exact ih skip

private theorem length_append_sub (front rest : List Char) :
    (front ++ rest).length - rest.length = front.length := by
  rw [List.length_append]
  omega

/-- No token starts with a blank. -/
private theorem isSpace_eq_false {c : Char} {cs rest : List Char} {token : Token}
    (h : token? (c :: cs) = some (token, rest)) : isSpace c = false := by
  rw [Bool.eq_false_iff]
  intro hc
  simp only [isSpace, Bool.or_eq_true, beq_iff_eq] at hc
  obtain ((rfl | rfl) | rfl) | rfl := hc <;> cases h

/-- The reader takes the token at the front. -/
private theorem readFrom_of_token? {progress next : Progress} {token : Token}
    {front rest : List Char}
    (hne : front ≠ []) (htoken : token? (front ++ rest) = some (token, rest))
    (hstep : progress.step? token = some next) :
    readFrom progress 0 (front ++ rest) = readFrom next 0 rest := by
  obtain ⟨c, front, rfl⟩ := List.exists_cons_of_ne_nil hne
  rw [List.cons_append] at htoken ⊢
  rw [readFrom, isSpace_eq_false htoken, htoken, if_neg Bool.false_ne_true]
  dsimp only
  rw [hstep]
  dsimp only
  rw [length_append_sub, readFrom_skip, List.drop_left]

/-- An escape of one letter is read. -/
private theorem escape?_short {c letter : Char} (h : (c, letter) ∈ shortEscapes)
    (rest : List Char) :
    escape? (letter :: rest) = some (c, rest) := by
  simp only [shortEscapes, List.mem_cons, List.not_mem_nil, or_false, Prod.mk.injEq] at h
  obtain ⟨rfl, rfl⟩ | ⟨rfl, rfl⟩ | ⟨rfl, rfl⟩ | ⟨rfl, rfl⟩ | ⟨rfl, rfl⟩ | ⟨rfl, rfl⟩ | ⟨rfl, rfl⟩ := h <;>
    rfl

/-- A control character is read from its code point. -/
private theorem escape?_control {c : Char} (h : c.toNat < 0x20) (rest : List Char) :
    escape? ('u' :: '0' :: '0' :: (c.toNat / 16).digitChar :: (c.toNat % 16).digitChar :: rest) =
      some (c, rest) := by
  have hhigh (cs : List Char) : Ron.hexPair? ('0' :: '0' :: cs) = some (0, cs) := rfl
  have hlow := Ron.hexPair?_of_isDigit (Nat.lt_trans h (by decide)) (.inl rfl) (.inl rfl) rest
  have hvalid : c.toNat.isValidChar := c.valid
  simp only [escape?, codePoint?, unit?, hhigh, hlow, Option.bind_eq_bind, Option.bind_some,
    Option.pure_def, Nat.mul_zero, Nat.zero_add, if_pos hvalid, Char.ofNat_toNat]

/-- A character of a text is read as it is written. -/
private theorem quoted?_charChars (c : Char) (rest : List Char) :
    quoted? 0 (charChars c ++ rest) =
      (quoted? 0 rest).map fun read => (c :: read.1, read.2) := by
  -- Both kinds of escapes are a backslash and something that is read as the character.
  have hescape (behind : List Char) (hread : escape? (behind ++ rest) = some (c, rest)) :
      quoted? 0 ('\\' :: behind ++ rest) =
        (quoted? 0 rest).map fun read => (c :: read.1, read.2) := by
    rw [List.cons_append, quoted?, if_neg (by decide), if_pos rfl, hread]
    dsimp only
    rw [length_append_sub, quoted?_skip, List.drop_left]
  unfold charChars
  cases hfind : shortEscapes.find? fun entry => entry.1 == c with
  | some entry =>
    obtain ⟨d, letter⟩ := entry
    obtain rfl : d = c := by simpa using List.find?_some hfind
    exact hescape [letter] (escape?_short (List.mem_of_find?_eq_some hfind) rest)
  | none =>
    dsimp only
    split
    · next hcontrol => exact hescape _ (escape?_control hcontrol rest)
    · next hplain =>
      have hnone := List.find?_eq_none.1 hfind
      have hquote : c ≠ '"' := by
        rintro rfl
        exact hnone ('"', '"') (by decide) rfl
      have hslash : c ≠ '\\' := by
        rintro rfl
        exact hnone ('\\', '\\') (by decide) rfl
      rw [List.singleton_append, quoted?, if_neg hquote, if_neg hslash, if_neg hplain]

/-- A text is read up to its closing quote. -/
private theorem token?_textChars (s : String) (rest : List Char) :
    token? (textChars s ++ rest) = some (.atom (.text s), rest) := by
  have hquoted (cs : List Char) :
      quoted? 0 (cs.flatMap charChars ++ '"' :: rest) = some (cs, rest) := by
    induction cs with
    | nil => rfl
    | cons c cs ih =>
      rw [List.flatMap_cons, List.append_assoc, quoted?_charChars, ih]
      rfl
  rw [textChars, List.cons_append, List.append_assoc, token?, List.singleton_append, hquoted]
  rw [Option.map_some, String.ofList_toList]

theorem isDigit_of_mem {n : Nat} {c : Char} (h : c ∈ Nat.toDigits 10 n) : c.isDigit = true :=
  Nat.isDigit_of_mem_toDigits (by decide) (by decide) h

/-- Only nought starts with a zero. -/
private theorem head?_toDigits_ne {n : Nat} (hn : 0 < n) :
    (Nat.toDigits 10 n).head? ≠ some '0' := by
  induction n using Nat.strongRecOn with
  | ind n ih =>
    by_cases hsmall : n < 10
    · rw [Nat.toDigits_of_lt_base hsmall, List.head?_cons]
      have hall : ∀ n, n < 10 → 0 < n → some n.digitChar ≠ some '0' := by decide
      exact hall n hsmall hn
    · rw [Nat.toDigits_of_base_le (by decide) (by omega), List.head?_append]
      cases hhead : (Nat.toDigits 10 (n / 10)).head? with
      | none => exact absurd (List.head?_eq_none_iff.1 hhead) Nat.toDigits_ne_nil
      | some c =>
        have hne := ih (n / 10) (by omega) (by omega)
        rw [hhead] at hne
        exact hne

private theorem unsigned?_toDigits (negative : Bool) (n : Nat) :
    unsigned? negative (Nat.toDigits 10 n) =
      match negative, n with
      | false, n => some (.integer (.ofNat n))
      | true, 0 => some .decimal
      | true, n + 1 => some (.integer (.negSucc n)) := by
  obtain ⟨hwhole, hrest⟩ := @Ron.takeWhile_append Char.isDigit (Nat.toDigits 10 n) []
    (fun _ => isDigit_of_mem) rfl
  rw [List.append_nil] at hwhole hrest
  have hvalue : Text.digitsValue (Nat.toDigits 10 n) = n := Nat.ofDigitChars_ten_toDigits
  have hleading : ((Nat.toDigits 10 n).isEmpty || ((Nat.toDigits 10 n).head? == some '0' &&
      decide (1 < (Nat.toDigits 10 n).length))) = false := by
    cases n with
    | zero => rfl
    | succ n => simp [head?_toDigits_ne (Nat.succ_pos n)]
  simp only [unsigned?, hwhole, hrest, hleading, hvalue]
  rfl

/-- What starts with a digit or a minus sign is read as a number. -/
private theorem token?_number {c : Char} (hc : c.isDigit = true ∨ c = '-') (cs : List Char) :
    token? (c :: cs) = (number? ((c :: cs).takeWhile isNumberPart)).map fun json =>
      (.atom json, (c :: cs).dropWhile isNumberPart) := by
  unfold token?
  split
  case h_11 => rfl
  all_goals
    next heq =>
      obtain ⟨rfl, -⟩ := List.cons.inj heq
      obtain hc | hc := hc <;> cases hc

/-- What may follow a number: nothing that it could go on with. -/
def EndsNumber (rest : List Char) : Prop := rest.head?.any isNumberPart = false

private theorem isNumberPart_of_isDigit {c : Char} (h : c.isDigit = true) :
    isNumberPart c = true := by
  simp [isNumberPart, h]

/-- A number is read up to its end, also behind a minus sign. -/
private theorem token?_integer (n : Int) {rest : List Char} (hrest : EndsNumber rest) :
    token? ((integer n).chars ++ rest) = some (.atom (.integer n), rest) := by
  have hparts (n : Nat) : ∀ c ∈ Nat.toDigits 10 n, isNumberPart c = true := fun c hc =>
    isNumberPart_of_isDigit (isDigit_of_mem hc)
  cases n with
  | ofNat n =>
    obtain ⟨htake, hdrop⟩ := Ron.takeWhile_append (hparts n) hrest
    obtain ⟨c, cs, hcs⟩ := List.exists_cons_of_ne_nil (@Nat.toDigits_ne_nil n 10)
    have hc : c.isDigit = true := @isDigit_of_mem n c (by simp [hcs])
    have hsign : number? (Nat.toDigits 10 n) = unsigned? false (Nat.toDigits 10 n) := by
      rw [hcs, number?]
      rintro behind hminus
      rw [(List.cons.inj hminus).1] at hc
      cases hc
    rw [chars, hcs, List.cons_append, token?_number (.inl hc), ← List.cons_append, ← hcs, htake,
      hdrop, hsign, unsigned?_toDigits]
    rfl
  | negSucc n =>
    have hall : ∀ c ∈ '-' :: Nat.toDigits 10 (n + 1), isNumberPart c = true :=
      List.forall_mem_cons.2 ⟨rfl, hparts (n + 1)⟩
    obtain ⟨htake, hdrop⟩ := Ron.takeWhile_append hall hrest
    rw [chars, List.cons_append, token?_number (.inr rfl), ← List.cons_append, htake, hdrop,
      number?, unsigned?_toDigits]
    rfl

/-! ## Parts of values -/

/-- Has the value no parts? -/
def isAtom : Json → Bool
  | list _ => false
  | object _ => false
  | _ => true

/-- What holds of the values without parts, and of a list or an object if it holds of its parts,
holds of all values. -/
theorem induction {P : Json → Prop} (atom : ∀ json, isAtom json = true → P json)
    (list : ∀ items, (∀ item ∈ items, P item) → P (.list items))
    (object : ∀ fields : List (String × Json), (∀ field ∈ fields, P field.2) → P (.object fields))
    (json : Json) : P json :=
  @Json.rec P (fun items => ∀ item ∈ items, P item) (fun fields => ∀ field ∈ fields, P field.2)
    (fun field => P field.2) (atom _ rfl) (fun _ => atom _ rfl) (fun _ => atom _ rfl) (atom _ rfl)
    (fun _ => atom _ rfl) list object (List.forall_mem_nil _)
    (fun _ _ hitem hitems => List.forall_mem_cons.2 ⟨hitem, hitems⟩) (List.forall_mem_nil _)
    (fun _ _ hfield hfields => List.forall_mem_cons.2 ⟨hfield, hfields⟩) (fun _ _ hvalue => hvalue)
    json

/-- The text of a value without parts is one token. -/
private theorem token?_of_isAtom {json : Json} (h : json.isAtom = true) {rest : List Char}
    (hrest : EndsNumber rest) : token? (json.chars ++ rest) = some (.atom json, rest) := by
  cases json with
  | null => rfl
  | bool value => cases value <;> rfl
  | integer n => exact token?_integer n hrest
  | text value => exact token?_textChars value rest
  | decimal =>
    have hall : ∀ c ∈ ['0', '.', '0'], isNumberPart c = true :=
      List.all_eq_true.1 (show ['0', '.', '0'].all isNumberPart = true from rfl)
    obtain ⟨htake, hdrop⟩ := Ron.takeWhile_append hall hrest
    rw [List.cons_append] at htake hdrop
    rw [chars]
    show token? ('0' :: (['.', '0'] ++ rest)) = _
    rw [token?_number (.inl rfl), htake, hdrop]
    rfl
  | list items => cases h
  | object fields => cases h

private theorem chars_ne_nil {json : Json} (h : json.isAtom = true) : json.chars ≠ [] := by
  cases json with
  | bool value => cases value <;> simp [chars]
  | integer n => cases n <;> simp [chars, Nat.toDigits_ne_nil]
  | list items => cases h
  | object fields => cases h
  | _ => simp [chars, textChars]

/-- Wherever a value may stand, the reader takes its text for it. -/
def ReadsBack (json : Json) : Prop :=
  ∀ (frames : List Frame) (rest : List Char), EndsNumber rest →
    readFrom ⟨frames, .value⟩ 0 (json.chars ++ rest) = readFrom ⟨frames, .behind json⟩ 0 rest

/-- A sign is taken. -/
private theorem readFrom_sign {progress next : Progress} {token : Token} {c : Char}
    {rest : List Char}
    (htoken : token? (c :: rest) = some (token, rest)) (hstep : progress.step? token = some next) :
    readFrom progress 0 (c :: rest) = readFrom next 0 rest :=
  @readFrom_of_token? progress next token [c] rest (List.cons_ne_nil c []) htoken hstep

private theorem readsBack_of_isAtom {json : Json} (h : json.isAtom = true) : json.ReadsBack := by
  intro frames rest hrest
  exact readFrom_of_token? (chars_ne_nil h) (token?_of_isAtom h hrest) rfl

/-- A list goes on with a comma or ends. -/
private theorem endsNumber_itemChars (items : List Json) (rest : List Char) :
    EndsNumber (itemChars true items ++ rest) := by
  cases items <;> rfl

private theorem endsNumber_fieldChars (fields : List (String × Json)) (rest : List Char) :
    EndsNumber (fieldChars true fields ++ rest) := by
  cases fields <;> rfl

/-- Behind an item the others are read up to the end of the list. -/
private theorem readFrom_itemChars {items : List Json} (hitems : ∀ item ∈ items, item.ReadsBack)
    (done : List Json) (json : Json) (frames : List Frame) (rest : List Char) :
    readFrom ⟨.list done :: frames, .behind json⟩ 0 (itemChars true items ++ rest) =
      readFrom ⟨frames, .behind (.list ((json :: done).reverse ++ items))⟩ 0 rest := by
  induction items generalizing done json with
  | nil =>
    rw [List.append_nil]
    exact readFrom_sign rfl rfl
  | cons item items ih =>
    obtain ⟨hitem, hitems⟩ := List.forall_mem_cons.1 hitems
    rw [itemChars, if_pos rfl, List.append_assoc, List.append_assoc, List.singleton_append]
    rw [@readFrom_sign _ ⟨.list (json :: done) :: frames, .value⟩ .comma ',' _ rfl rfl]
    rw [hitem _ _ (endsNumber_itemChars items rest), ih hitems]
    simp only [List.reverse_cons, List.append_assoc, List.cons_append, List.nil_append]

/-- A field is read up to the end of its value. -/
private theorem readFrom_field {value : Json} (hvalue : value.ReadsBack)
    (done : List (String × Json))
    (name : String) (frames : List Frame) {rest : List Char} (hrest : EndsNumber rest) :
    readFrom ⟨frames, .name done⟩ 0 (textChars name ++ ':' :: (value.chars ++ rest)) =
      readFrom ⟨.object done name :: frames, .behind value⟩ 0 rest := by
  have hname : Progress.step? ⟨frames, .name done⟩ (.atom (.text name)) =
      some ⟨frames, .colon done name⟩ := rfl
  have hne : textChars name ≠ [] := List.cons_ne_nil _ _
  rw [readFrom_of_token? hne (token?_textChars name _) hname]
  rw [@readFrom_sign _ ⟨.object done name :: frames, .value⟩ .colon ':' _ rfl rfl]
  exact hvalue _ _ hrest

/-- Behind a field the others are read up to the end of the object. -/
private theorem readFrom_fieldChars {fields : List (String × Json)}
    (hfields : ∀ field ∈ fields, field.2.ReadsBack) (done : List (String × Json)) (name : String)
    (json : Json) (frames : List Frame) (rest : List Char) :
    readFrom ⟨.object done name :: frames, .behind json⟩ 0 (fieldChars true fields ++ rest) =
      readFrom ⟨frames, .behind (.object (((name, json) :: done).reverse ++ fields))⟩ 0 rest := by
  induction fields generalizing done name json with
  | nil =>
    rw [List.append_nil]
    exact readFrom_sign rfl rfl
  | cons field fields ih =>
    obtain ⟨other, value⟩ := field
    obtain ⟨hvalue, hfields⟩ := List.forall_mem_cons.1 hfields
    rw [fieldChars, if_pos rfl, List.append_assoc, List.append_assoc, List.singleton_append,
      List.cons_append, List.append_assoc]
    rw [@readFrom_sign _ ⟨frames, .name ((name, json) :: done)⟩ .comma ',' _ rfl rfl]
    rw [readFrom_field hvalue _ _ _ (endsNumber_fieldChars fields rest), ih hfields]
    simp only [List.reverse_cons, List.append_assoc, List.cons_append, List.nil_append]

/-- The text of a value is read wherever a value may stand. -/
theorem readsBack (json : Json) : json.ReadsBack := by
  induction json using Json.induction with
  | atom json h => exact readsBack_of_isAtom h
  | list items ih =>
    intro frames rest _
    rw [chars, List.cons_append]
    rw [@readFrom_sign _ ⟨.list [] :: frames, .value⟩ .openList '[' _ rfl rfl]
    cases items with
    | nil => exact readFrom_sign rfl rfl
    | cons item items =>
      obtain ⟨hitem, hitems⟩ := List.forall_mem_cons.1 ih
      rw [itemChars, if_neg Bool.false_ne_true, List.nil_append, List.append_assoc]
      rw [hitem _ _ (endsNumber_itemChars items rest), readFrom_itemChars hitems]
      rfl
  | object fields ih =>
    intro frames rest _
    rw [chars, List.cons_append]
    rw [@readFrom_sign _ ⟨frames, .name []⟩ .openObject '\x7b' _ rfl rfl]
    cases fields with
    | nil => exact readFrom_sign rfl rfl
    | cons field fields =>
      obtain ⟨name, value⟩ := field
      obtain ⟨hvalue, hfields⟩ := List.forall_mem_cons.1 ih
      rw [fieldChars, if_neg Bool.false_ne_true, List.nil_append, List.append_assoc,
        List.cons_append, List.append_assoc]
      rw [readFrom_field hvalue _ _ _ (endsNumber_fieldChars fields rest)]
      rw [readFrom_fieldChars hfields]
      rfl

/-- What is written of a value is read back. -/
theorem read?_render (json : Json) : read? json.render = some json := by
  have h := json.readsBack [] [] rfl
  rw [List.append_nil] at h
  rw [read?, render, String.toList_ofList]
  exact h

end Encounter.Json

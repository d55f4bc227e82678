import Encounter.Proofs.Ron.Numeral

/-!
# Texts as they are written

A text stands in quotes, with escapes, or raw, between quotes with equally many number signs on both
sides. An escape is a letter for a few characters, a code point in braces, or the bytes of the UTF-8
form one by one. In a raw text everything stands for itself, so a quote with that many number signs
behind it may not occur.
-/

namespace Encounter.Ron

/-- The characters with an escape of one letter. -/
def shortEscapes : List (Char × Char) :=
  [('\x27', '\x27'), ('"', '"'), ('\\', '\\'), ('\n', 'n'), ('\r', 'r'), ('\t', 't'), ('\x00', '0')]

/-- The bytes of a code point in UTF-8. -/
def utf8Bytes (n : Nat) : List Nat :=
  if n < 0x80 then [n]
  else if n < 0x800 then [0xC0 + n / 64, 0x80 + n % 64]
  else if n < 0x10000 then [0xE0 + n / 4096, 0x80 + n / 64 % 64, 0x80 + n % 64]
  else [0xF0 + n / 262144, 0x80 + n / 4096 % 64, 0x80 + n / 64 % 64, 0x80 + n % 64]

/-- Bytes as escapes of two hexadecimal digits each. -/
inductive HexBytes : List Nat → List Char → Prop where
  | nil : HexBytes [] []
  | cons {byte : Nat} {bytes : List Nat} {high low : Char} {text : List Char}
      (hhigh : IsDigit (byte / 16) high) (hlow : IsDigit (byte % 16) low) (h : HexBytes bytes text) :
      HexBytes (byte :: bytes) ('\\' :: 'x' :: high :: low :: text)

/-- The escapes of a character. -/
inductive Escape (c : Char) : List Char → Prop where
  | short {letter : Char} (h : (c, letter) ∈ shortEscapes) : Escape c ['\\', letter]
  | unicode {digits : List Char} (h : Digits 16 digits c.toNat) (hplain : '_' ∉ digits)
      (hlength : digits.length ≤ 6) : Escape c ('\\' :: 'u' :: '\x7b' :: (digits ++ ['\x7d']))
  | bytes {text : List Char} (h : HexBytes (utf8Bytes c.toNat) text) : Escape c text

/-- Characters as they stand between quotes. -/
inductive Quoted : List Char → List Char → Prop where
  | nil : Quoted [] []
  | plain {c : Char} {cs text : List Char} (hquote : c ≠ '"') (hslash : c ≠ '\\')
      (h : Quoted cs text) : Quoted (c :: cs) (c :: text)
  | escape {c : Char} {cs escape text : List Char} (hescape : Escape c escape) (h : Quoted cs text) :
      Quoted (c :: cs) (escape ++ text)

/-- The end of a raw text. -/
def rawEnd (hashes : Nat) : List Char := '"' :: List.replicate hashes '#'

/-- The text is written so. -/
inductive TextLiteral (cs : List Char) : List Char → Prop where
  | quoted {text : List Char} (h : Quoted cs text) : TextLiteral cs ('"' :: (text ++ ['"']))
  | raw {hashes : Nat} (h : ¬ rawEnd hashes <:+: cs) :
      TextLiteral cs ('r' :: (List.replicate hashes '#' ++ '"' :: (cs ++ rawEnd hashes)))

theorem hexPair?_of_isDigit {byte : Nat} {high low : Char} (hbyte : byte < 256)
    (hhigh : IsDigit (byte / 16) high) (hlow : IsDigit (byte % 16) low) (rest : List Char) :
    hexPair? (high :: low :: rest) = some (byte, rest) := by
  have hsum : 16 * (byte / 16) + byte % 16 = byte := Nat.div_add_mod byte 16
  simp [hexPair?, hhigh.hexValue? (by omega), hlow.hexValue? (by omega), hsum]

/-- Further bytes add six bits each. -/
theorem HexBytes.continuation? {bytes : List Nat} {text : List Char} (h : HexBytes bytes text)
    (hbytes : ∀ byte ∈ bytes, 0x80 ≤ byte ∧ byte < 0xC0) {value n : Nat}
    (hn : bytes.foldl (fun value byte => 64 * value + (byte - 0x80)) value = n)
    (rest : List Char) :
    Ron.continuation? bytes.length value (text ++ rest) = some (n, rest) := by
  induction h generalizing value with
  | nil => exact congrArg (fun n => some (n, rest)) hn
  | @cons byte bytes high low text hhigh hlow _ ih =>
    obtain ⟨hfirst, hothers⟩ := List.forall_mem_cons.1 hbytes
    have hpair := hexPair?_of_isDigit (by omega) hhigh hlow (text ++ rest)
    simp only [List.length_cons, List.cons_append, Ron.continuation?, hpair, hfirst, and_self,
      if_true]
    rw [List.foldl_cons] at hn
    exact ih hothers hn

private theorem utf8Bytes_ne_nil (n : Nat) : utf8Bytes n ≠ [] := by
  unfold utf8Bytes
  repeat' split
  all_goals exact List.cons_ne_nil _ _

/-- The first bytes of characters with further bytes: what they start from, the least code point that
takes so many bytes, and how many bytes follow. -/
def leads : List (Nat × Nat × Nat) := [(0xC0, 0x80, 1), (0xE0, 0x800, 2), (0xF0, 0x10000, 3)]

/-- A character is read from its first byte and those that follow. -/
private theorem byteEscape?_of_continuation {c : Char} {lead least count value : Nat}
    {text rest : List Char} (hlead : (lead, least, count) ∈ leads) (hvalue : value < 64 / 2 ^ count)
    (hleast : least ≤ c.toNat)
    (hmore : Ron.continuation? count value text = some (c.toNat, rest)) :
    lead + value < 256 ∧ byteEscape? (lead + value) text = some (c, rest) := by
  have hvalid : c.toNat.isValidChar := c.valid
  have hsub : lead + value - lead = value := Nat.add_sub_cancel_left lead value
  simp only [leads, List.mem_cons, Prod.mk.injEq, List.not_mem_nil, or_false] at hlead
  unfold byteEscape?
  obtain ⟨rfl, rfl, rfl⟩ | ⟨rfl, rfl, rfl⟩ | ⟨rfl, rfl, rfl⟩ := hlead
  · refine ⟨by omega, ?_⟩
    rw [if_neg (by omega), if_pos (by omega), hsub, hmore]
    simp [hleast, hvalid]
  · refine ⟨by omega, ?_⟩
    rw [if_neg (by omega), if_neg (by omega), if_pos (by omega), hsub, hmore]
    simp [hleast, hvalid]
  · refine ⟨by omega, ?_⟩
    rw [if_neg (by omega), if_neg (by omega), if_neg (by omega), if_pos (by omega), hsub, hmore]
    simp [hleast, hvalid]

/-- The bytes of a character are read back. -/
private theorem byteEscape?_utf8Bytes {c : Char} {first : Nat} {bytes : List Nat} {text : List Char}
    (hutf8 : utf8Bytes c.toNat = first :: bytes) (h : HexBytes bytes text) (rest : List Char) :
    first < 256 ∧ byteEscape? first (text ++ rest) = some (c, rest) := by
  have hmax : c.toNat < 0x110000 := by
    have hvalid := c.valid
    simp only [UInt32.isValidChar, Nat.isValidChar] at hvalid
    show c.val.toNat < _
    omega
  unfold utf8Bytes at hutf8
  split at hutf8
  · next hone =>
    obtain ⟨rfl, rfl⟩ := List.cons.inj hutf8
    cases h
    have hvalid : c.toNat.isValidChar := c.valid
    exact ⟨by omega, by simp [byteEscape?, hone, hvalid]⟩
  split at hutf8
  · next hone htwo =>
    obtain ⟨rfl, rfl⟩ := List.cons.inj hutf8
    have hlead : (0xC0, 0x80, 1) ∈ leads := by decide
    exact byteEscape?_of_continuation hlead (by omega) (by omega)
      (h.continuation? (by simp; omega) (by simp; omega) rest)
  split at hutf8
  · next hone htwo hthree =>
    obtain ⟨rfl, rfl⟩ := List.cons.inj hutf8
    have hlead : (0xE0, 0x800, 2) ∈ leads := by decide
    exact byteEscape?_of_continuation hlead (by omega) (by omega)
      (h.continuation? (by simp; omega) (by simp; omega) rest)
  · next hone htwo hthree =>
    obtain ⟨rfl, rfl⟩ := List.cons.inj hutf8
    have hlead : (0xF0, 0x10000, 3) ∈ leads := by decide
    exact byteEscape?_of_continuation hlead (by omega) (by omega)
      (h.continuation? (by simp; omega) (by simp; omega) rest)

/-- Behind the backslash the escape is read as its character. -/
theorem Escape.escape? {c : Char} {text : List Char} (h : Escape c text) :
    ∃ behind, text = '\\' :: behind ∧ ∀ rest, Ron.escape? (behind ++ rest) = some (c, rest) := by
  cases h with
  | @short letter h =>
    refine ⟨[letter], rfl, fun rest => ?_⟩
    simp only [shortEscapes, List.mem_cons, Prod.mk.injEq, List.not_mem_nil, or_false] at h
    rcases h with ⟨rfl, rfl⟩ | ⟨rfl, rfl⟩ | ⟨rfl, rfl⟩ | ⟨rfl, rfl⟩ | ⟨rfl, rfl⟩ | ⟨rfl, rfl⟩ |
      ⟨rfl, rfl⟩ <;> rfl
  | @unicode digits h hplain hlength =>
    refine ⟨_, rfl, fun rest => ?_⟩
    have hbrace : ∀ d ∈ digits, (d != '\x7d') = true := by
      intro d hd
      obtain rfl | ⟨value, hvalue, hdigit⟩ := h.mem_cases hd
      · exact absurd hd hplain
      · exact bne_iff_ne.2 (hdigit.isIntPart hvalue).2.2
    have hstop : ('\x7d' :: rest).head?.any (· != '\x7d') = false := rfl
    obtain ⟨hbraced, hbehind⟩ := takeWhile_append hbrace hstop
    have hempty : digits.isEmpty = false := by
      obtain ⟨first, others, -, rfl, -, -⟩ := h.exists_cons
      rfl
    have hfew : ¬ 6 < digits.length := Nat.not_lt.2 hlength
    show unicodeEscape? ('\x7b' :: ((digits ++ ['\x7d']) ++ rest)) = _
    rw [List.append_assoc]
    unfold unicodeEscape?
    simp [hbraced, hbehind, hempty, hfew, hplain, h.valueOf? (Nat.le_refl _),
      show c.toNat.isValidChar from c.valid]
  | bytes h =>
    obtain ⟨first, bytes, hutf8⟩ := List.exists_cons_of_ne_nil (utf8Bytes_ne_nil c.toNat)
    rw [hutf8] at h
    cases h with
    | @cons _ _ high low text hhigh hlow h =>
      refine ⟨_, rfl, fun rest => ?_⟩
      obtain ⟨hbyte, hread⟩ := byteEscape?_utf8Bytes hutf8 h rest
      show (hexPair? (high :: low :: (text ++ rest))).bind _ = _
      rw [hexPair?_of_isDigit hbyte hhigh hlow]
      exact hread

theorem quoted?_skip (skip : Nat) (text : List Char) :
    quoted? skip text = quoted? 0 (text.drop skip) := by
  induction text generalizing skip with
  | nil => cases skip <;> rfl
  | cons c text ih =>
    cases skip with
    | zero => rfl
    | succ skip => exact ih skip

/-- What stands between quotes is read up to the closing one. -/
theorem Quoted.quoted? {cs text : List Char} (h : Quoted cs text) (rest : List Char) :
    Ron.quoted? 0 (text ++ '"' :: rest) = some (cs, rest) := by
  induction h with
  | nil => rfl
  | plain hquote hslash _ ih =>
    rw [List.cons_append, Ron.quoted?, if_neg hquote, if_neg hslash, ih]
    rfl
  | @escape c cs escape text hescape _ ih =>
    obtain ⟨behind, rfl, hread⟩ := hescape.escape?
    have hlength : (behind ++ (text ++ '"' :: rest)).length - (text ++ '"' :: rest).length =
        behind.length := by
      rw [List.length_append]
      omega
    rw [List.cons_append, List.cons_append, Ron.quoted?, if_neg (by decide), if_pos rfl,
      List.append_assoc, hread]
    dsimp only
    rw [quoted?_skip, hlength, List.drop_left, ih]
    rfl

/-- Number signs that all stand in front of a quote stand in the text before it. -/
private theorem replicate_prefix_of_append {hashes : Nat} {cs rest : List Char}
    (h : List.replicate hashes '#' <+: cs ++ '"' :: rest) : List.replicate hashes '#' <+: cs := by
  induction cs generalizing hashes with
  | nil =>
    cases hashes with
    | zero => exact List.nil_prefix
    | succ hashes =>
      rw [List.replicate_succ, List.nil_append, List.cons_prefix_cons] at h
      exact absurd h.1 (by decide)
  | cons c cs ih =>
    cases hashes with
    | zero => exact List.nil_prefix
    | succ hashes =>
      rw [List.replicate_succ, List.cons_append, List.cons_prefix_cons] at h
      rw [List.replicate_succ, List.cons_prefix_cons]
      exact ⟨h.1, ih h.2⟩

/-- A raw text is read up to its end. -/
private theorem rawBody?_append {hashes : Nat} {cs : List Char} (h : ¬ rawEnd hashes <:+: cs)
    (rest : List Char) : rawBody? hashes (cs ++ (rawEnd hashes ++ rest)) = some (cs, rest) := by
  induction cs with
  | nil =>
    have hdrop : (List.replicate hashes '#' ++ rest).drop hashes = rest :=
      List.drop_left' List.length_replicate
    have hprefix : (List.replicate hashes '#').isPrefixOf (List.replicate hashes '#' ++ rest) :=
      List.isPrefixOf_iff_prefix.2 (List.prefix_append _ _)
    show rawBody? hashes ('"' :: (List.replicate hashes '#' ++ rest)) = _
    rw [rawBody?, if_pos ⟨rfl, hprefix⟩, hdrop]
  | cons c cs ih =>
    have hends : ¬ (c = '"' ∧
        (List.replicate hashes '#').isPrefixOf (cs ++ (rawEnd hashes ++ rest)) = true) := by
      rintro ⟨rfl, hprefix⟩
      have hinside := replicate_prefix_of_append (List.isPrefixOf_iff_prefix.1 hprefix)
      exact h (List.IsPrefix.isInfix (List.cons_prefix_cons.2 ⟨rfl, hinside⟩))
    have hrest : ¬ rawEnd hashes <:+: cs := fun hend =>
      h (hend.trans (List.suffix_cons c cs).isInfix)
    rw [List.cons_append, rawBody?, if_neg hends, ih hrest]
    rfl

/-- A text that is written so is read as such. -/
theorem TextLiteral.token? {cs text : List Char} (h : TextLiteral cs text) (rest : List Char) :
    Ron.token? (text ++ rest) = some (.text (String.ofList cs), rest) := by
  cases h with
  | @quoted text h =>
    show (Ron.quoted? 0 ((text ++ ['"']) ++ rest)).map textToken = _
    rw [List.append_assoc]
    exact congrArg (Option.map textToken) (h.quoted? rest)
  | @raw hashes h =>
    have hsign : ∀ c ∈ List.replicate hashes '#', (c == '#') = true := by
      intro c hc
      exact beq_iff_eq.2 (List.eq_of_mem_replicate hc)
    have hstop : ('"' :: (cs ++ (rawEnd hashes ++ rest))).head?.any (· == '#') = false := rfl
    obtain ⟨hopen, hbehind⟩ := takeWhile_append hsign hstop
    have hraw : raw? (List.replicate hashes '#' ++ '"' :: (cs ++ (rawEnd hashes ++ rest))) =
        some (cs, rest) := by
      unfold raw?
      rw [hopen, hbehind]
      simpa using rawBody?_append h rest
    have htoken : Ron.token? ('r' :: (List.replicate hashes '#' ++
        '"' :: (cs ++ (rawEnd hashes ++ rest)))) =
          (raw? (List.replicate hashes '#' ++ '"' :: (cs ++ (rawEnd hashes ++ rest)))).map
            textToken := by
      match hashes with
      | 0 => rfl
      | 1 => rfl
      | hashes + 2 => rfl
    rw [hraw] at htoken
    simpa [textToken] using htoken

/-- Every text can be written, with escapes for quotes and backslashes. -/
theorem exists_textLiteral (cs : List Char) : ∃ text, TextLiteral cs text := by
  have hquoted : ∃ text, Quoted cs text := by
    induction cs with
    | nil => exact ⟨[], .nil⟩
    | cons c cs ih =>
      obtain ⟨text, h⟩ := ih
      by_cases hquote : c = '"'
      · have hshort : Escape c ['\\', '"'] := .short (by rw [hquote]; decide)
        exact ⟨_, .escape hshort h⟩
      · by_cases hslash : c = '\\'
        · have hshort : Escape c ['\\', '\\'] := .short (by rw [hslash]; decide)
          exact ⟨_, .escape hshort h⟩
        · exact ⟨_, .plain hquote hslash h⟩
  obtain ⟨text, h⟩ := hquoted
  exact ⟨_, .quoted h⟩

end Encounter.Ron

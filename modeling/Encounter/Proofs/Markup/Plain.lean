import Encounter.Proofs.Markup.Scan

/-!
# The visible text is one scan

`plain` scans the bytes of a text with two cursors. A byte below 128 is a character of its own, and no
other character has such a byte; so the scan finds the tokens of the text and nothing else, both
cursors stand between characters whenever a span is cut, and the spans put together are the visible
characters (`strip?_of_scan`).
-/

namespace Encounter.Markup

/-- The bytes of characters in UTF-8. -/
def encoded (cs : List Char) : List UInt8 := cs.flatMap String.utf8EncodeChar

@[simp] theorem encoded_nil : encoded [] = [] := rfl

@[simp] theorem encoded_append (front back : List Char) :
    encoded (front ++ back) = encoded front ++ encoded back := List.flatMap_append

private theorem encoded_cons (c : Char) (cs : List Char) :
    encoded (c :: cs) = String.utf8EncodeChar c ++ encoded cs := List.flatMap_cons

private theorem bytes_eq_encoded (s : String) : s.toByteArray.data.toList = encoded s.toList := by
  conv => lhs; rw [← String.ofList_toList (s := s)]
  rw [String.toByteArray_ofList, List.utf8Encode, List.toList_data_toByteArray, encoded]

private theorem length_encoded (cs : List Char) :
    (encoded cs).length = (String.ofList cs).utf8ByteSize := by
  rw [← String.size_toByteArray, String.toByteArray_ofList, List.utf8Encode,
    List.size_toByteArray, encoded]

private theorem utf8EncodeChar_of_ascii {c : Char} (h : c.toNat < 128) :
    String.utf8EncodeChar c = [c.toUInt8] := by
  have hsize : c.utf8Size = 1 := by
    rw [Char.utf8Size_eq_one_iff, UInt32.le_iff_toNat_le]
    exact Nat.le_of_lt_succ h
  rw [String.utf8EncodeChar_eq_singleton hsize]
  rfl

/-- The bytes of a character outside ASCII are all outside ASCII. -/
private theorem le_of_mem_utf8EncodeChar {c : Char} (h : 128 ≤ c.toNat) {b : UInt8}
    (hb : b ∈ String.utf8EncodeChar c) : 128 ≤ b.toNat := by
  have hlarge : ¬ c.val.toNat ≤ 0x7f := Nat.not_le.2 h
  unfold String.utf8EncodeChar at hb
  simp only [hlarge, if_false] at hb
  split at hb
  · simp only [List.mem_cons, List.not_mem_nil, or_false] at hb
    rcases hb with rfl | rfl <;> simp <;> omega
  split at hb
  · simp only [List.mem_cons, List.not_mem_nil, or_false] at hb
    rcases hb with rfl | rfl | rfl <;> simp <;> omega
  · simp only [List.mem_cons, List.not_mem_nil, or_false] at hb
    rcases hb with rfl | rfl | rfl | rfl <;> simp <;> omega

private theorem toNat_toUInt8 {c : Char} (h : c.toNat < 128) : c.toUInt8.toNat = c.toNat := by
  show c.toNat % 256 = c.toNat
  omega

/-- A byte of an ASCII character is found in that character only. -/
private theorem mem_utf8EncodeChar_iff {a c : Char} (ha : a.toNat < 128) :
    a.toUInt8 ∈ String.utf8EncodeChar c ↔ c = a := by
  have hbyte := toNat_toUInt8 ha
  by_cases hc : c.toNat < 128
  · rw [utf8EncodeChar_of_ascii hc, List.mem_singleton]
    refine ⟨fun h => Char.toNat_inj.1 ?_, fun h => h ▸ rfl⟩
    rw [← toNat_toUInt8 hc, ← h, hbyte]
  · refine iff_of_false (fun h => ?_) (fun h => hc (h ▸ ha))
    have hlarge := le_of_mem_utf8EncodeChar (Nat.le_of_not_lt hc) h
    omega

/-- So the first byte tells the ASCII characters apart. -/
private theorem exists_first_byte (c : Char) : ∃ b bytes, String.utf8EncodeChar c = b :: bytes ∧
    ∀ a : Char, a.toNat < 128 → (b = a.toUInt8 ↔ c = a) := by
  obtain ⟨b, bytes, hc⟩ := List.exists_cons_of_ne_nil (@String.utf8EncodeChar_ne_nil c)
  refine ⟨b, bytes, hc, fun a ha => ⟨?_, ?_⟩⟩
  · rintro rfl
    exact (mem_utf8EncodeChar_iff ha).1 (hc ▸ List.mem_cons_self)
  · rintro rfl
    rw [utf8EncodeChar_of_ascii ha] at hc
    exact (List.cons.inj hc).1.symm

private theorem head?_encoded_iff {a : Char} (ha : a.toNat < 128) {cs : List Char} :
    (encoded cs).head? = some a.toUInt8 ↔ cs.head? = some a := by
  cases cs with
  | nil => simp
  | cons c cs =>
    obtain ⟨b, bytes, hc, hfirst⟩ := exists_first_byte c
    simp [encoded_cons, hc, hfirst a ha]

private theorem encoded_of_ascii {cs : List Char} (h : ∀ c ∈ cs, c.toNat < 128) :
    encoded cs = cs.map Char.toUInt8 := by
  induction cs with
  | nil => rfl
  | cons c cs ih =>
    rw [encoded_cons, utf8EncodeChar_of_ascii (h c List.mem_cons_self), List.map_cons,
      ih fun d hd => h d (List.mem_cons_of_mem _ hd)]
    rfl

private theorem ascii_of_isDigit {c : Char} (h : c.isDigit = true) : c.toNat < 128 := by
  simp only [Char.isDigit, Bool.and_eq_true, decide_eq_true_eq, UInt32.le_iff_toNat_le] at h
  exact Nat.lt_of_le_of_lt h.2 (by decide)

private theorem isDigitByte_toUInt8 {c : Char} (h : c.toNat < 128) :
    isDigitByte c.toUInt8 = c.isDigit := by
  have hbyte := toNat_toUInt8 h
  rw [Bool.eq_iff_iff]
  simp only [isDigitByte, Char.isDigit, Bool.and_eq_true, decide_eq_true_eq,
    UInt8.le_iff_toNat_le, UInt32.le_iff_toNat_le, hbyte]
  rfl

private theorem isDigitByte_eq_false {b : UInt8} (h : 128 ≤ b.toNat) : isDigitByte b = false := by
  have hlarge : ¬ b.toNat ≤ ('9'.toUInt8).toNat := Nat.not_le.2 (Nat.lt_of_lt_of_le (by decide) h)
  simp [isDigitByte, UInt8.le_iff_toNat_le, hlarge]

/-- The digits at the front are the same among the characters and among the bytes. -/
private theorem takeWhile_encoded (cs : List Char) :
    (encoded cs).takeWhile isDigitByte = encoded (cs.takeWhile Char.isDigit) := by
  induction cs with
  | nil => rfl
  | cons c cs ih =>
    rw [encoded_cons]
    by_cases hascii : c.toNat < 128
    · rw [utf8EncodeChar_of_ascii hascii, List.singleton_append, List.takeWhile_cons,
        List.takeWhile_cons, isDigitByte_toUInt8 hascii, ih]
      split
      · rw [encoded_cons, utf8EncodeChar_of_ascii hascii, List.singleton_append]
      · rfl
    · have hdigit : c.isDigit = false :=
        Bool.eq_false_iff.2 fun h => hascii (ascii_of_isDigit h)
      obtain ⟨b, bytes, hc⟩ := List.exists_cons_of_ne_nil (@String.utf8EncodeChar_ne_nil c)
      have hlarge := le_of_mem_utf8EncodeChar (Nat.le_of_not_lt hascii) (hc ▸ List.mem_cons_self)
      simp [hc, isDigitByte_eq_false hlarge, hdigit]

/-- The number of a link is read off the bytes. -/
private theorem tokenLength?_link (cs : List Char) :
    tokenLength? ('#'.toUInt8 :: 'L'.toUInt8 :: encoded cs) =
      (linkDigits? cs).map fun link => link.1.length + 3 := by
  have hascii : encoded (cs.takeWhile Char.isDigit) = (cs.takeWhile Char.isDigit).map Char.toUInt8 :=
    encoded_of_ascii fun c hc => ascii_of_isDigit (List.all_eq_true.1 List.all_takeWhile c hc)
  have hlength : ((encoded cs).takeWhile isDigitByte).length = (cs.takeWhile Char.isDigit).length := by
    rw [takeWhile_encoded, hascii, List.length_map]
  have hbehind : (encoded cs)[(cs.takeWhile Char.isDigit).length]? = some '#'.toUInt8 ↔
      (cs.dropWhile Char.isDigit).head? = some '#' := by
    have hsplit : encoded cs = (cs.takeWhile Char.isDigit).map Char.toUInt8 ++
        encoded (cs.dropWhile Char.isDigit) := by
      rw [← hascii, ← encoded_append, List.takeWhile_append_dropWhile]
    rw [hsplit, List.getElem?_append_right (by simp), List.length_map, Nat.sub_self,
      ← List.head?_eq_getElem?, head?_encoded_iff (by decide)]
  simp only [tokenLength?, if_true, hlength, hbehind, List.length_pos_iff]
  split
  · next hlink =>
    obtain ⟨rest, hrest⟩ := List.head?_eq_some_iff.1 hlink.2
    have hfound : linkDigits? cs = some (cs.takeWhile Char.isDigit, rest) :=
      linkDigits?_eq_some_iff.2 ⟨hlink.1, List.all_eq_true.1 List.all_takeWhile, by
        rw [← hrest, List.takeWhile_append_dropWhile]⟩
    rw [hfound, Option.map_some]
  · next hlink =>
    cases hfound : linkDigits? cs with
    | none => rfl
    | some link =>
      obtain ⟨digits, rest⟩ := link
      obtain ⟨hne, hdigits, rfl⟩ := linkDigits?_eq_some_iff.1 hfound
      have hsign : ('#' :: rest).head?.any Char.isDigit = false := rfl
      obtain ⟨htake, hdrop⟩ := Ron.takeWhile_append hdigits hsign
      rw [htake, hdrop] at hlink
      exact absurd ⟨hne, rfl⟩ hlink

private theorem Token.ascii_text (t : Token) : ∀ c ∈ t.text, c.toNat < 128 := by
  have hown : ∀ c ∈ '#' :: 'L' :: 'l' :: styleCodes, c.toNat < 128 := by simp [styleCodes]
  exact fun c hc => (t.mem_text hc).elim (hown c) ascii_of_isDigit

private theorem Token.length_encoded_text (t : Token) :
    (encoded t.text).length = t.text.length := by
  rw [encoded_of_ascii t.ascii_text, List.length_map]

/-- Behind a number sign the bytes have the tokens that the characters have. -/
private theorem tokenLength?_encoded (cs : List Char) :
    tokenLength? (encoded ('#' :: cs)) =
      (token? ('#' :: cs)).map fun found => found.1.text.length := by
  cases cs with
  | nil => rfl
  | cons code rest =>
    by_cases hopen : code = 'L'
    · subst hopen
      have hbytes : encoded ('#' :: 'L' :: rest) = '#'.toUInt8 :: 'L'.toUInt8 :: encoded rest := rfl
      rw [hbytes, tokenLength?_link, token?, if_pos rfl]
      split
      · next hlink => simp [hlink, Token.text]
      · next hnone => rw [hnone]; rfl
    · obtain ⟨b, bytes, hcode, hfirst⟩ := exists_first_byte code
      have hbytes : encoded ('#' :: code :: rest) = '#'.toUInt8 :: b :: (bytes ++ encoded rest) := by
        rw [encoded_cons, encoded_cons, hcode]
        rfl
      have hstyle : b ∈ styleCodes.map Char.toUInt8 ↔ code ∈ styleCodes := by
        have hascii : ∀ a ∈ styleCodes, a.toNat < 128 := by simp [styleCodes]
        rw [List.mem_map]
        constructor
        · rintro ⟨a, ha, hab⟩
          rwa [(hfirst a (hascii a ha)).1 hab.symm]
        · exact fun ha => ⟨code, ha, ((hfirst code (hascii code ha)).2 rfl).symm⟩
      rw [hbytes, tokenLength?, token?, if_neg hopen,
        if_neg (mt (hfirst 'L' (by decide)).1 hopen)]
      simp only [hfirst 'l' (by decide), hstyle]
      by_cases hclose : code = 'l'
      · simp [hclose, Token.text]
      · by_cases hmem : code ∈ styleCodes <;> simp [hclose, hmem, Token.text]

/-! ## Spans -/

private theorem spansFrom_skip {skip : Nat} {bytes : List UInt8} (h : skip ≤ bytes.length)
    (copied i : Nat) :
    spansFrom copied i skip bytes = spansFrom copied (i + skip) 0 (bytes.drop skip) := by
  induction skip generalizing i bytes with
  | zero => rfl
  | succ skip ih =>
    cases bytes with
    | nil => simp at h
    | cons b bytes =>
      rw [spansFrom, ih (Nat.le_of_succ_le_succ h), List.drop_succ_cons, Nat.add_right_comm, Nat.add_assoc]

/-- Bytes other than the number sign are passed over. -/
private theorem spansFrom_of_notMem {front : List UInt8} (h : '#'.toUInt8 ∉ front) (copied i : Nat)
    (rest : List UInt8) :
    spansFrom copied i 0 (front ++ rest) = spansFrom copied (i + front.length) 0 rest := by
  induction front generalizing i with
  | nil => rfl
  | cons b front ih =>
    simp only [List.mem_cons, not_or] at h
    rw [List.cons_append, spansFrom, if_neg (Ne.symm h.1)]
    dsimp only
    rw [ih h.2, List.length_cons, Nat.add_right_comm, Nat.add_assoc]

/-- A character that starts no token moves the scan on and leaves the other cursor. -/
private theorem spansFrom_char {c : Char} {rest : List Char}
    (hc : ∀ t : Token, ¬ t.text <+: c :: rest) (copied i : Nat) :
    spansFrom copied i 0 (encoded (c :: rest)) =
      spansFrom copied (i + (encoded [c]).length) 0 (encoded rest) := by
  have hone : encoded [c] = String.utf8EncodeChar c := List.append_nil _
  by_cases hsign : c = '#'
  · subst hsign
    have hnone : tokenLength? ('#'.toUInt8 :: encoded rest) = none := by
      have hlength := tokenLength?_encoded rest
      rwa [token?_eq_none_iff.2 hc] at hlength
    show spansFrom copied i 0 ('#'.toUInt8 :: encoded rest) = _
    rw [spansFrom, if_pos rfl, hnone]
    rfl
  · have hbytes : '#'.toUInt8 ∉ String.utf8EncodeChar c :=
      mt (mem_utf8EncodeChar_iff (by decide)).1 hsign
    rw [encoded_cons, spansFrom_of_notMem hbytes, hone]

/-- A token ends a span, and both cursors go behind it. -/
private theorem spansFrom_token (t : Token) (rest : List Char) (copied i : Nat) :
    spansFrom copied i 0 (encoded (t.text ++ rest)) =
      ⟨copied, i⟩ :: spansFrom (i + (encoded t.text).length) (i + (encoded t.text).length) 0
        (encoded rest) := by
  have hfound : token? (t.text ++ rest) = some (t, rest) := token?_eq_some_iff.2 rfl
  have hlength := t.length_encoded_text
  obtain ⟨code, behind, ht⟩ := t.exists_cons
  rw [ht, List.cons_append] at hfound
  have hfront := tokenLength?_encoded (code :: behind ++ rest)
  rw [hfound, Option.map_some] at hfront
  have hbytes : encoded (t.text ++ rest) =
      '#'.toUInt8 :: (encoded (code :: behind) ++ encoded rest) := by
    rw [ht, List.cons_append, encoded_cons, encoded_append]
    rfl
  have hmore : t.text.length - 1 = (encoded (code :: behind)).length := by
    have hcons : (encoded t.text).length = (encoded (code :: behind)).length + 1 := by
      rw [ht, encoded_cons]
      rfl
    omega
  have hpos : 0 < t.text.length := by simp [ht]
  have htoken : tokenLength? ('#'.toUInt8 :: (encoded (code :: behind) ++ encoded rest)) =
      some t.text.length := by
    rw [← encoded_append]
    exact hfront
  rw [hbytes, spansFrom, if_pos rfl, htoken]
  dsimp only
  rw [spansFrom_skip (by rw [List.length_append]; omega), hmore, List.drop_left, hlength, ← hmore]
  congr 2
  omega

/-- A span between characters fits. -/
private theorem fits_encoded (front mid back : List Char) :
    Span.Fits ⟨(encoded front).length, (encoded (front ++ mid)).length⟩
      (String.ofList (front ++ mid ++ back)) := by
  refine ⟨by simp, ?_, ?_⟩
  · rw [String.Pos.Raw.isValid_iff_exists_append]
    exact ⟨.ofList front, .ofList (mid ++ back), by rw [List.append_assoc, String.ofList_append],
      String.Pos.Raw.ext (length_encoded front)⟩
  · rw [String.Pos.Raw.isValid_iff_exists_append]
    exact ⟨.ofList (front ++ mid), .ofList back, String.ofList_append,
      String.Pos.Raw.ext (length_encoded (front ++ mid))⟩

private theorem text?_encoded (front mid back : List Char) :
    Span.text? (String.ofList (front ++ mid ++ back))
        ⟨(encoded front).length, (encoded (front ++ mid)).length⟩ =
      some (String.ofList mid) := by
  have hsize (cs : List Char) : (encoded cs).length = (String.ofList cs).toByteArray.size := by
    rw [length_encoded, String.size_toByteArray]
  rw [Span.text?, dif_pos (fits_encoded front mid back), Option.some.injEq,
    ← String.toByteArray_inj, String.toByteArray_extract]
  show (String.ofList (front ++ mid ++ back)).toByteArray.extract
    ((encoded front).length + 0) (encoded (front ++ mid)).length = _
  rw [List.append_assoc, String.ofList_append, String.ofList_append, String.toByteArray_append,
    String.toByteArray_append, encoded_append, List.length_append,
    ByteArray.extract_append_size_add' (hsize front), ByteArray.extract_append_eq_left (hsize mid)]

/-- The spans that are cut, put together, are what is visible: `copied` is the text up to the cursor
behind the last token, and `mid` what the scan passed since. -/
private theorem mapM_spansFrom {cs : List Char} {pieces : List Piece} (h : Scan cs pieces)
    (copied mid : List Char) :
    let text := String.ofList (copied ++ mid ++ cs)
    let cut := spansFrom (encoded copied).length (encoded (copied ++ mid)).length 0 (encoded cs)
    (∀ span ∈ cut, span.Fits text) ∧
      ∃ parts, cut.mapM (Span.text? text) = some parts ∧
        (String.join parts).toList = mid ++ visible pieces := by
  dsimp only
  induction h generalizing copied mid with
  | nil =>
    rw [encoded_nil, spansFrom, List.mapM_cons, text?_encoded]
    refine ⟨?_, [String.ofList mid], rfl, by simp⟩
    simp only [List.mem_singleton, forall_eq]
    exact fits_encoded copied mid []
  | @token t rest pieces _ ih =>
    obtain ⟨hfits, parts, hparts, hjoin⟩ := ih (copied ++ mid ++ t.text) []
    simp only [List.append_nil, encoded_append, List.length_append] at hfits hparts
    rw [spansFrom_token, List.mapM_cons, text?_encoded]
    refine ⟨?_, String.ofList mid :: parts, ?_, by simp [hjoin]⟩
    · simp only [List.mem_cons, forall_eq_or_imp]
      refine ⟨fits_encoded copied mid (t.text ++ rest), ?_⟩
      simp only [encoded_append, List.length_append, ← List.append_assoc] at hfits ⊢
      exact hfits
    · simp only [encoded_append, List.length_append, ← List.append_assoc] at hparts ⊢
      rw [hparts]
      rfl
  | @char c rest pieces hc _ ih =>
    obtain ⟨hfits, parts, hparts, hjoin⟩ := ih copied (mid ++ [c])
    rw [← List.append_assoc, List.append_assoc _ [c] rest] at hfits hparts
    rw [spansFrom_char hc, ← List.length_append, ← encoded_append]
    exact ⟨hfits, parts, hparts, by simp [hjoin]⟩

/-- Every text can be stripped, and its visible characters are left. -/
theorem strip?_of_scan {text : String} {pieces : List Piece} (h : Scan text.toList pieces) :
    (∀ span ∈ spans text, span.Fits text) ∧
      strip? text = some (String.ofList (visible pieces)) := by
  obtain ⟨hfits, parts, hparts, hjoin⟩ := mapM_spansFrom h [] []
  simp only [List.append_nil, List.nil_append, encoded_nil, List.length_nil,
    String.ofList_toList] at hfits hparts hjoin
  rw [strip?, spans, bytes_eq_encoded, hparts, Option.map_some, ← hjoin, String.ofList_toList]
  exact ⟨hfits, rfl⟩

theorem plain_of_scan {text : String} {pieces : List Piece} (h : Scan text.toList pieces) :
    plain text = String.ofList (visible pieces) := by
  rw [plain, (strip?_of_scan h).2, Option.getD_some]

theorem toList_plain (text : String) : (plain text).toList = visible (pieces text) := by
  rw [plain_of_scan (scan_pieces text), String.toList_ofList]

/-- A part of a text: words without a number sign, or a token. -/
inductive Part where
  | words (text : String) (h : '#' ∉ text.toList)
  | token (t : Token)

namespace Part

/-- How a part is written. -/
def text : Part → String
  | words text _ => text
  | token t => String.ofList t.text

/-- What is seen of a part. -/
def seen : Part → String
  | words text _ => text
  | token _ => ""

end Part

end Encounter.Markup

import Encounter.Proofs.Binding.Written

/-!
# Bindings survive being written and read

Every list of bindings can be written. If its keys are distinct, any file that is written so is parsed
as the list, in its order.
-/

namespace Encounter
namespace Binding

open Ron

private theorem spellable_sign {c : Char} (h : c ∈ signs) : (Token.sign c).Spellable := ⟨_, .sign h⟩

private theorem spellable_word {word : String} (h : IsWord word.toList) :
    (Token.ident false word).Spellable := ⟨_, .word h⟩

/-- The values of a binding can be written, whatever they are. -/
private theorem spellable_of_mem_fieldTokens {binding : Binding} :
    ∀ part ∈ binding.fieldTokens, ∀ token ∈ part, token.Spellable := by
  have hcolon : (Token.sign ':').Spellable := spellable_sign (by decide)
  have hword : ∀ word ∈ ["kind", "id", "script"], (Token.ident false word).Spellable := by
    have hall : ∀ word ∈ ["kind", "id", "script"], IsWord word.toList := by decide
    exact fun word hm => spellable_word (hall word hm)
  have hkind : (Token.ident false binding.key.kind.word).Spellable :=
    spellable_word (by cases binding.key.kind <;> decide)
  have hid : (Token.integer ⟨false, binding.key.id.toNat, none⟩).Spellable := by
    obtain ⟨text, htext⟩ := exists_numeral binding.key.id.toNat
    exact ⟨text, .integer htext (Nat.lt_trans binding.key.id.toNat_lt (by decide))⟩
  have hscript : (Token.text binding.script).Spellable := by
    obtain ⟨text, htext⟩ := exists_textLiteral binding.script.toList
    exact ⟨text, .text htext⟩
  simp [fieldTokens, hcolon, hkind, hid, hscript, hword]

/-- A binding can be written in front of any text. -/
private theorem exists_written (binding : Binding) {tokens : List Token} {text : List Char}
    (h : Layout tokens text) :
    ∃ front text', Written binding front ∧ Layout (front ++ tokens) text' := by
  have hinside : Commas ')' binding.fieldTokens _ := .cons (.cons .last)
  have hspellable := hinside.forall_mem (spellable_sign (by decide)) (spellable_sign (by decide))
    spellable_of_mem_fieldTokens
  obtain ⟨behind, hbehind⟩ := h.exists_append hspellable
  have hwritten : Written binding (openedBy none behind _) :=
    .record (fun _ hm => nomatch hm) (.refl _) hinside
  exact ⟨_, _, hwritten, .opening .nil hbehind⟩

/-- So can a list of bindings, with a comma behind each. -/
private theorem exists_list_written (bindings : List Binding) {tokens : List Token}
    {text : List Char} (h : Layout tokens text) :
    ∃ parts list text', List.Forall₂ Written bindings parts ∧ Commas ']' parts list ∧
      Layout (list ++ tokens) text' := by
  induction bindings with
  | nil => exact ⟨[], _, _, .nil, .nil, .token .nil (.sign (by decide)) h⟩
  | cons binding bindings ih =>
    obtain ⟨parts, list, text', hparts, hlist, htext⟩ := ih
    have hcomma : Layout (.sign ',' :: (list ++ tokens)) _ := .token .nil (.sign (by decide)) htext
    obtain ⟨part, text'', hpart, htext⟩ := exists_written binding hcomma
    refine ⟨_, _, text'', .cons hpart hparts, .cons hlist, ?_⟩
    rwa [List.append_assoc]

private theorem writes_ofList {bindings : List Binding} {tokens : List Token} {text : List Char}
    (h : FileWritten bindings tokens) (hlayout : Layout tokens text) :
    Writes bindings (String.ofList text) := ⟨tokens, h, by rwa [String.toList_ofList]⟩

/-- Every list of bindings can be written. -/
private theorem exists_writes (bindings : List Binding) : ∃ s, Writes bindings s := by
  have hend : Layout [.sign ')'] _ := .token .nil (.sign (by decide)) (.last (.gap .nil))
  obtain ⟨parts, list, text, hparts, hlist, htext⟩ := exists_list_written bindings hend
  have hfront : ∀ token ∈ [Token.ident false "bindings", .sign ':', .sign '['],
      token.Spellable := by
    simp [spellable_word (show IsWord "bindings".toList by decide),
      spellable_sign (show ':' ∈ signs by decide), spellable_sign (show '[' ∈ signs by decide)]
  obtain ⟨behind, hbehind⟩ := htext.exists_append hfront
  have hwritten : FileWritten bindings (openedBy none behind _) :=
    .record (fun _ hm => nomatch hm) hparts hlist .last
  exact ⟨_, writes_ofList hwritten (.opening .nil hbehind)⟩

/-- Bindings survive being written and parsed, in whatever layout. -/
theorem parse_of_writes (bindings : List Binding) (hkeys : (bindings.map key).Nodup) :
    (∃ s, Writes bindings s) ∧ ∀ s, Writes bindings s → parse s = .ok bindings := by
  refine ⟨exists_writes bindings, fun s hs => ?_⟩
  exact parse_eq_ok_iff.2 ⟨read?_of_writes hs, hkeys⟩

/-- A binding whose script takes some care to write. -/
def awkward : Binding := ⟨⟨.npc, 255⟩, "say \"hi\" //"⟩

/-- A file with that binding. -/
def awkwardText : String :=
  "(bindings: [TriggerBinding(id: 0xF_f, script: r#\"say \"hi\" //\"#, kind: Npc) " ++
    "/* a /* b */ c */], // end\n)"

private theorem fileWritten_awkward (file binding : List Char) :
    FileWritten [awkward] (.opening file :: .ident false "bindings" :: .sign ':' :: .sign '[' ::
      .ident false "TriggerBinding" :: .opening binding :: .ident false "id" :: .sign ':' ::
      .integer ⟨false, 255, none⟩ :: .sign ',' :: .ident false "script" :: .sign ':' ::
      .text "say \"hi\" //" :: .sign ',' :: .ident false "kind" :: .sign ':' :: .ident false "Npc" ::
      .sign ')' :: .sign ']' :: .sign ',' :: [.sign ')']) := by
  have hfields : List.Perm [_, _, _] awkward.fieldTokens :=
    .trans (.cons _ (.swap _ _ _)) (.swap _ _ _)
  have hwritten : Written awkward (openedBy (some "TriggerBinding") binding _) :=
    .record (fun _ hm => (Option.mem_some.1 hm).symm) hfields (.cons (.cons .last))
  have hname : ∀ word ∈ (none : Option String), word = "BindingFile" := fun _ hm => nomatch hm
  exact .record hname (.cons hwritten .nil) .last (.cons .nil)

private theorem spelled_hex : Spelled (.integer ⟨false, 255, none⟩) ['0', 'x', 'F', '_', 'f'] := by
  have hdigits : Digits 16 ['F', '_', 'f'] 255 :=
    .digit (.underscore (.first (d := 15) (by decide) (.inr rfl))) (d := 15) (by decide) (.inl rfl)
  exact .integer ⟨['0', 'x'], 16, _, by decide, hdigits, rfl⟩ (by decide)

private theorem spelled_raw : Spelled (.text "say \"hi\" //")
    ['r', '#', '"', 's', 'a', 'y', ' ', '"', 'h', 'i', '"', ' ', '/', '/', '"', '#'] := by
  have hchars : "say \"hi\" //".toList = ['s', 'a', 'y', ' ', '"', 'h', 'i', '"', ' ', '/', '/'] :=
    String.toList_ofList
  have hend : ¬ rawEnd 1 <:+: ['s', 'a', 'y', ' ', '"', 'h', 'i', '"', ' ', '/', '/'] := by decide
  refine .text ?_
  rw [hchars]
  exact .raw hend

private theorem gap_nested : Gap
    [' ', '/', '*', ' ', 'a', ' ', '/', '*', ' ', 'b', ' ', '*', '/', ' ', 'c',
    ' ', '*', '/'] := by
  have hinner : Block [' ', 'b', ' ', '*', '/'] :=
    .char (.char (.char .close (by decide) (by decide)) (by decide) (by decide)) (by decide)
      (by decide)
  have hrest : Block [' ', 'c', ' ', '*', '/'] :=
    .char (.char (.char .close (by decide) (by decide)) (by decide) (by decide)) (by decide)
      (by decide)
  have houter : Block [' ', 'a', ' ', '/', '*', ' ', 'b', ' ', '*', '/', ' ', 'c', ' ', '*', '/'] :=
    .char (.char (.char (.nest hinner hrest) (by decide) (by decide)) (by decide) (by decide))
      (by decide) (by decide)
  exact .blank rfl (.block houter .nil)

private theorem writes_awkward : Writes [awkward] awkwardText := by
  have hword : ∀ word ∈ ["bindings", "TriggerBinding", "kind", "id", "script", "Npc"],
      Spelled (.ident false word) word.toList := by
    have hall : ∀ word ∈ ["bindings", "TriggerBinding", "kind", "id", "script", "Npc"],
        IsWord word.toList := by decide
    exact fun word hm => .word (hall word hm)
  have hsign : ∀ c ∈ signs, Spelled (.sign c) [c] := fun c hm => .sign hm
  have hspace : Gap [' '] := .blank rfl .nil
  have hline : Gap (' ' :: '/' :: '/' :: ([' ', 'e', 'n', 'd'] ++ ['\n'])) :=
    .blank rfl (.line (by decide) .nil)
  have hlayout : Layout _ _ :=
    .opening .nil <| .token .nil (hword "bindings" (by decide)) <|
    .token .nil (hsign ':' (by decide)) <| .token hspace (hsign '[' (by decide)) <|
    .token .nil (hword "TriggerBinding" (by decide)) <| .opening .nil <|
    .token .nil (hword "id" (by decide)) <| .token .nil (hsign ':' (by decide)) <|
    .token hspace spelled_hex <| .token .nil (hsign ',' (by decide)) <|
    .token hspace (hword "script" (by decide)) <| .token .nil (hsign ':' (by decide)) <|
    .token hspace spelled_raw <| .token .nil (hsign ',' (by decide)) <|
    .token hspace (hword "kind" (by decide)) <| .token .nil (hsign ':' (by decide)) <|
    .token hspace (hword "Npc" (by decide)) <| .token .nil (hsign ')' (by decide)) <|
    .token gap_nested (hsign ']' (by decide)) <| .token .nil (hsign ',' (by decide)) <|
    .token hline (hsign ')' (by decide)) (.last (.gap .nil))
  have hwrites := writes_ofList (fileWritten_awkward _ _) hlayout
  convert hwrites using 1
  decide +kernel

/-- The awkward file is parsed as its binding. -/
theorem parse_of_writes_awkward : ([awkward].map key).Nodup ∧ Writes [awkward] awkwardText ∧
    parse awkwardText = .ok [awkward] := by
  have hkeys : ([awkward].map key).Nodup := by decide
  have hparse := (parse_of_writes [awkward] hkeys).2
  exact ⟨hkeys, writes_awkward, hparse awkwardText writes_awkward⟩

end Binding
end Encounter

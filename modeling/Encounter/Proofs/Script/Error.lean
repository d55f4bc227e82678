import Encounter.Script.Error

/-!
# Messages tell errors apart

The message of an error names its kind and all its parts, so no two errors have the same message.
-/

namespace Encounter

private theorem eq_of_toString_nat {a b : Nat} (h : toString a = toString b) : a = b := by
  have hdigits : Nat.ofDigitChars 10 a.repr.toList 0 = Nat.ofDigitChars 10 b.repr.toList 0 :=
    congrArg (fun s : String => Nat.ofDigitChars 10 s.toList 0) h
  simpa only [Nat.toList_repr, Nat.ofDigitChars_ten_toDigits] using hdigits

private theorem eq_of_toString_word {a b : UInt32} (h : toString a = toString b) : a = b :=
  UInt32.toNat_inj.1 (eq_of_toString_nat h)

private theorem eq_of_toString_byte {a b : UInt8} (h : toString a = toString b) : a = b :=
  UInt8.toNat_inj.1 (eq_of_toString_nat h)

/-- Texts with different beginnings differ. -/
theorem ne_of_take {s t : String} (n : Nat) (h : s.toList.take n ≠ t.toList.take n) : s ≠ t :=
  fun he => h (by rw [he])

/-- A reply can be read off its quotation. -/
private theorem Reply.eq_of_quoted {a b : Reply} (h : a.quoted = b.quoted) : a = b := by
  cases a <;> cases b <;> simp only [quoted] at h
  case dismissed.dismissed => rfl
  case selection.selection a b =>
    have hnumber := (String.append_right_inj _).1 ((String.append_left_inj _).1 h)
    rw [eq_of_toString_word hnumber]
  case answer.answer a b =>
    have hnumber := (String.append_right_inj _).1 ((String.append_left_inj _).1 h)
    rw [eq_of_toString_byte hnumber]
  all_goals exact absurd h (ne_of_take 1 (by simp))

private theorem CancelReason.eq_of_name {a b : CancelReason} (h : a.name = b.name) : a = b := by
  cases a <;> cases b <;> first | rfl | exact absurd h (by decide)

/-- The kind of a prompt can be read off the text that refuses a reply to it. -/
private theorem PromptKind.eq_of_refusal {a b : PromptKind} {s t : String}
    (h : a.name ++ " prompt cannot be answered with " ++ s =
      b.name ++ " prompt cannot be answered with " ++ t) : a = b := by
  cases a <;> cases b <;> simp only [name] at h
  -- The first five characters tell `say` from `say_next` and the two questions apart.
  case sayNext.sayNext | say.say | askMenu.askMenu | askYesNo.askYesNo => rfl
  all_goals exact absurd h (ne_of_take 5 (by simp))

/-- No two errors have the same message. -/
theorem ScriptError.eq_of_message {a b : ScriptError} (h : a.message = b.message) : a = b := by
  cases a <;> cases b <;> dsimp only [message] at h
  case cancelled.cancelled a b =>
    rw [CancelReason.eq_of_name ((String.append_right_inj _).1 h)]
  case unexpectedReply.unexpectedReply kind reply other found =>
    have hkind : kind = other := PromptKind.eq_of_refusal h
    subst hkind
    rw [Reply.eq_of_quoted ((String.append_right_inj _).1 h)]
  case selectionOutOfRange.selectionOutOfRange a b =>
    have hnumber := (String.append_right_inj _).1 ((String.append_left_inj _).1 h)
    rw [eq_of_toString_word hnumber]
  case malformedDropArgs.malformedDropArgs a b =>
    have hnumber := (String.append_right_inj _).1 ((String.append_left_inj _).1 h)
    rw [eq_of_toString_nat hnumber]
  case unexpectedReply.cancelled kind _ _ | unexpectedReply.selectionOutOfRange kind _ _ |
      unexpectedReply.malformedDropArgs kind _ _ =>
    cases kind <;> exact absurd h (ne_of_take 1 (by simp [PromptKind.name]))
  case cancelled.unexpectedReply kind _ | selectionOutOfRange.unexpectedReply kind _ |
      malformedDropArgs.unexpectedReply kind _ =>
    cases kind <;> exact absurd h (ne_of_take 1 (by simp [PromptKind.name]))
  all_goals exact absurd h (ne_of_take 1 (by simp))

end Encounter

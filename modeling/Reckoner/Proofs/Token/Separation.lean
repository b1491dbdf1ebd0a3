import Reckoner.Proofs.Calculator.Outcome
import Reckoner.Proofs.Grammar.Places
import Reckoner.Proofs.Token.Lexemes

/-!
# Texts that a blank keeps apart

A blank ends every run that scanning takes, also the one of a number that is refused. So a text with a
blank in it is scanned as what stands before the blank and then, so many characters further on, as
what stands after it, and the first error of the two parts is the error of the whole.
-/

set_option autoImplicit false

namespace Reckoner

/-- The same characters counted from so many characters earlier on. -/
def Span.shift (distance : Nat) (s : Span) : Span := ⟨s.start + distance, s.stop + distance⟩

namespace Token

def shift (distance : Nat) (t : Token) : Token := { t with span := t.span.shift distance }

def shifted (distance : Nat) : Except ScanError (List Token) → Except ScanError (List Token)
  | .ok tokens => .ok (tokens.map (shift distance))
  | .error e => .error ⟨e.cause, e.span.shift distance⟩

section Shift

@[simp] theorem shift_spanAt (distance offset length : Nat) :
    (spanAt offset length).shift distance = spanAt (offset + distance) length := by
  simp only [spanAt, Span.shift, Span.mk.injEq]
  omega

@[simp] theorem shift_nameAt (distance offset : Nat) (run : List Char) :
    (nameAt offset run).shift distance = nameAt (offset + distance) run := by
  simp [nameAt, shift]

@[simp] theorem shift_symbolAt (distance offset : Nat) (c : Char) (kind : TokenKind) :
    (symbolAt offset c kind).shift distance = symbolAt (offset + distance) c kind := by
  simp [symbolAt, shift]

theorem shifted_cons (distance : Nat) (first : Token) (later : Except ScanError (List Token)) :
    shifted distance (later >>= fun tokens => pure (first :: tokens)) =
      shifted distance later >>= fun tokens => pure (first.shift distance :: tokens) := by
  cases later <;> rfl

theorem shifted_numberAt (distance offset : Nat) (run : List Char)
    (later : Except ScanError (List Token)) :
    shifted distance (numberAt offset run >>= fun token =>
      later >>= fun tokens => pure (token :: tokens)) =
    numberAt (offset + distance) run >>= fun token =>
      shifted distance later >>= fun tokens => pure (token :: tokens) := by
  unfold numberAt
  split
  · simp [shifted, bind, Except.bind]
  · show shifted distance (later >>= fun tokens => pure (_ :: tokens)) = _
    rw [shifted_cons]
    simp [shift, bind, Except.bind]

theorem scan_add (distance offset : Nat) (chars : List Char) :
    scan (offset + distance) chars = shifted distance (scan offset chars) := by
  fun_induction scan offset chars with
  | case1 => rw [scan]; rfl
  | case2 offset c rest digit run ih =>
    have place : offset + distance + run.length = offset + run.length + distance := by omega
    rw [shifted_numberAt, ← ih, ← place, scan, if_pos digit]
  | case3 offset c rest digit letter run ih =>
    have place : offset + distance + run.length = offset + run.length + distance := by omega
    rw [shifted_cons, ← ih, ← place, scan, if_neg digit, if_pos letter, shift_nameAt]
  | case4 offset c rest digit letter kind symbol ih =>
    have place : offset + distance + 1 = offset + 1 + distance := by omega
    rw [shifted_cons, ← ih, ← place, scan, if_neg digit, if_neg letter, symbol, shift_symbolAt]
  | case5 offset c rest digit letter symbol spacing ih =>
    have place : offset + distance + 1 = offset + 1 + distance := by omega
    rw [← ih, ← place, scan, if_neg digit, if_neg letter, symbol]
    exact if_pos spacing
  | case6 offset c rest digit letter symbol spacing =>
    rw [scan, if_neg digit, if_neg letter, symbol]
    simp [spacing, shifted]

end Shift

section Blank

variable {c : Char} {before after : List Char}

theorem takeWhile_append_cons {p : Char → Bool} (ends : p c = false) (before after : List Char) :
    (before ++ c :: after).takeWhile p = before.takeWhile p := by
  induction before with
  | nil => simp [ends]
  | cons d before ih => simp [List.takeWhile_cons, ih]

theorem dropWhile_append_cons {p : Char → Bool} (ends : p c = false) (before after : List Char) :
    (before ++ c :: after).dropWhile p = before.dropWhile p ++ c :: after := by
  induction before with
  | nil => simp [ends]
  | cons d before ih =>
    simp only [List.cons_append, List.dropWhile_cons, ih]
    split <;> rfl

/-- Scanning starts afresh after a blank. -/
theorem scan_append_spacing (spacing : isSpacing c = true) (offset : Nat)
    (before after : List Char) :
    scan offset (before ++ c :: after) = do
      let tokens ← scan offset before
      let later ← scan (offset + before.length + 1) after
      return tokens ++ later := by
  have unnumeral : isNumeral c = false := by
    rcases eq_of_isSpacing spacing with rfl | rfl | rfl <;> rfl
  have unnamed : c.isAlphanum = false := by
    rcases eq_of_isSpacing spacing with rfl | rfl | rfl <;> rfl
  fun_induction scan offset before with
  | case1 offset =>
    rw [List.nil_append, scan_of_spacing spacing, List.length_nil, Nat.add_zero]
    exact (bind_pure _).symm
  | case2 offset d rest digit run ih =>
    have place : offset + run.length + (rest.dropWhile isNumeral).length =
        offset + (d :: rest).length := by
      rw [Nat.add_assoc, length_run]
    rw [List.cons_append, scan, if_pos digit, takeWhile_append_cons unnumeral,
      dropWhile_append_cons unnumeral]
    show (do
      let token ← numberAt offset run
      let tokens ← scan (offset + run.length) (rest.dropWhile isNumeral ++ c :: after)
      return token :: tokens) = _
    rw [ih, place]
    simp
  | case3 offset d rest digit letter run ih =>
    have place : offset + run.length + (rest.dropWhile Char.isAlphanum).length =
        offset + (d :: rest).length := by
      rw [Nat.add_assoc, length_run]
    rw [List.cons_append, scan, if_neg digit, if_pos letter, takeWhile_append_cons unnamed,
      dropWhile_append_cons unnamed]
    show (do
      let tokens ← scan (offset + run.length) (rest.dropWhile Char.isAlphanum ++ c :: after)
      return nameAt offset run :: tokens) = _
    rw [ih, place]
    simp
  | case4 offset d rest digit letter kind symbol ih =>
    have place : offset + 1 + rest.length = offset + (d :: rest).length := by
      rw [List.length_cons]
      omega
    rw [List.cons_append, scan, if_neg digit, if_neg letter, symbol]
    simp [ih, place]
  | case5 offset d rest digit letter symbol spacing' ih =>
    have place : offset + 1 + rest.length = offset + (d :: rest).length := by
      rw [List.length_cons]
      omega
    rw [List.cons_append, scan, if_neg digit, if_neg letter, symbol]
    simp [ih, place, spacing']
  | case6 offset d rest digit letter symbol spacing' =>
    rw [List.cons_append, scan, if_neg digit, if_neg letter, symbol]
    simp [spacing']
    rfl

end Blank

/-- Scanning distributes over blanks: two texts with a blank between them have the tokens of both, those
of the second by its place further on, or the error of the first that cannot be scanned. -/
theorem ofText_append_blank (before after : String) {c : Char}
    (blank : c = ' ' ∨ c = '\t' ∨ c = '\n') :
    ofText (before ++ c.toString ++ after) =
      match ofText before with
      | .error e => .error { e with text := before ++ c.toString ++ after }
      | .ok tokens =>
        match ofText after with
        | .error e => .error
            { e with
              span := e.span.shift (before.length + 1)
              text := before ++ c.toString ++ after }
        | .ok later => .ok (tokens ++ later.map (shift (before.length + 1))) := by
  have spacing : isSpacing c = true := by
    rcases blank with rfl | rfl | rfl <;> rfl
  have chars : (before ++ c.toString ++ after).toList = before.toList ++ c :: after.toList := by
    simp
  have place : 0 + before.toList.length + 1 = 0 + (before.length + 1) := by
    rw [String.length_toList]
    omega
  rw [ofText, chars, scan_append_spacing spacing, place, scan_add, ofText, ofText]
  cases scan 0 before.toList with
  | error e => rfl
  | ok tokens => cases scan 0 after.toList <;> rfl

/-- The run of digits and points after the tab is refused as it is alone, seven characters later. -/
theorem ofText_append_blank_second_point :
    ofText "x1 = 2" = .ok
        [⟨.identifier, "x1", ⟨0, 2⟩, none⟩, ⟨.operator .equal, "=", ⟨3, 4⟩, none⟩,
          ⟨.number, "2", ⟨5, 6⟩, some 2.0⟩] ∧
      ofText "1.0.7. y" = .error ⟨.scanning (.malformedNumber "1.0.7."), ⟨0, 6⟩, "1.0.7. y"⟩ ∧
      ofText "x1 = 2\t1.0.7. y" =
        .error ⟨.scanning (.malformedNumber "1.0.7."), ⟨7, 13⟩, "x1 = 2\t1.0.7. y"⟩ := by
  have first : ofText "x1 = 2" = .ok
      [⟨.identifier, "x1", ⟨0, 2⟩, none⟩, ⟨.operator .equal, "=", ⟨3, 4⟩, none⟩,
        ⟨.number, "2", ⟨5, 6⟩, some 2.0⟩] := by
    decide +kernel
  have second : ofText "1.0.7. y" =
      .error ⟨.scanning (.malformedNumber "1.0.7."), ⟨0, 6⟩, "1.0.7. y"⟩ := by
    decide +kernel
  have whole := ofText_append_blank "x1 = 2" "1.0.7. y" (c := '\t') (.inr (.inl rfl))
  rw [first, second] at whole
  exact ⟨first, second, whole⟩

end Token

end Reckoner

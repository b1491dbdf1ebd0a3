import Reckoner.Proofs.Calculator.Errors
import Reckoner.Proofs.Number.Reading
import Reckoner.Proofs.Number.Unique
import Reckoner.Proofs.Token.Spelling

/-!
# How the tokens of a text lie in it

A scanned text is a row of lexemes and blanks. Each token holds the lexeme that stands at its span,
one that its kind allows and that the text does not continue; between the lexemes there are only
blanks. A number token has the value of its lexeme as a decimal numeral.
-/

set_option autoImplicit false

namespace Reckoner

def Span.Covers (s : Span) (offset : Int) : Prop := s.start ≤ offset ∧ offset < s.stop

namespace Token

/-- The characters that would belong to a lexeme of the kind if they came directly after it. -/
def continues : TokenKind → Char → Bool
  | .number, c => c.isDigit || c == '.'
  | .identifier, c => c.isAlphanum
  | .operator _, _ | .opening, _ | .closing, _ => false

/-- The lexeme is one of the token's kind, and its number is the lexeme's. -/
structure IsSpelled (t : Token) : Prop where
  lexeme : match t.kind with
    | .number => IsNumeral t.lexeme.toList
    | .identifier => IsName t.lexeme.toList
    | .operator _ | .opening | .closing => ∃ c : Char, t.lexeme.toList = [c] ∧ symbol? c = some t.kind
  number : t.number =
    if t.kind = .number then some (Decimal.ofNumeral t.lexeme.toList).toFloat else none

/-- The tokens are those of the characters, the first of which stands at the offset. -/
inductive Laid : Nat → List Char → List Token → Prop where
  | nil (offset : Nat) : Laid offset [] []
  | blank {offset : Nat} {c : Char} {rest : List Char} {tokens : List Token} :
    isSpacing c = true → Laid (offset + 1) rest tokens → Laid offset (c :: rest) tokens
  | token {offset : Nat} {t : Token} {rest : List Char} {tokens : List Token} :
    t.IsSpelled → t.span = spanAt offset t.lexeme.length →
    (∀ c ∈ rest.head?, continues t.kind c = false) →
    Laid (offset + t.lexeme.length) rest tokens →
    Laid offset (t.lexeme.toList ++ rest) (t :: tokens)

section Scan

variable {offset : Nat} {c : Char} {rest : List Char}

theorem numberAt_eq_ok {run : List Char} {token : Token} (h : numberAt offset run = .ok token) :
    token = ⟨.number, String.ofList run, spanAt offset run.length,
      some (Decimal.ofNumeral run).toFloat⟩ := by
  unfold numberAt at h
  split at h
  · cases h
  · exact (Except.ok.inj h).symm

theorem isSpelled_numberAt {token : Token} (digit : c.isDigit = true)
    (h : numberAt offset (c :: rest.takeWhile isNumeral) = .ok token) : token.IsSpelled := by
  unfold numberAt at h
  split at h
  · cases h
  · rename_i few
    cases h
    have spelled := (isNumeral_cons_iff digit fun d => List.mem_takeWhile_imp).2 (Nat.not_lt.1 few)
    exact ⟨by simpa using spelled, by simp⟩

theorem isSpelled_nameAt (letter : c.isAlpha = true) :
    (nameAt offset (c :: rest.takeWhile Char.isAlphanum)).IsSpelled := by
  refine ⟨?_, rfl⟩
  exact ⟨c, rest.takeWhile Char.isAlphanum, by simp [nameAt], letter, fun d => List.mem_takeWhile_imp⟩

theorem isSpelled_symbolAt {kind : TokenKind} (h : symbol? c = some kind) :
    (symbolAt offset c kind).IsSpelled := by
  have character : (symbolAt offset c kind).lexeme.toList = [c] := by simp [symbolAt]
  unfold symbol? at h
  split at h <;> cases h <;> exact ⟨⟨_, character, rfl⟩, rfl⟩

theorem Laid.of_run {run : List Char} {t : Token} {tokens : List Token} (spelled : t.IsSpelled)
    (lexeme : t.lexeme = String.ofList run) (span : t.span = spanAt offset run.length)
    (ends : ∀ d ∈ rest.head?, continues t.kind d = false)
    (later : Laid (offset + run.length) rest tokens) : Laid offset (run ++ rest) (t :: tokens) := by
  have written : t.lexeme.toList = run := by simp [lexeme]
  have length : t.lexeme.length = run.length := by simp [lexeme]
  rw [← written]
  rw [← length] at span later
  exact .token spelled span ends later

theorem laid_of_scan (offset : Nat) (chars : List Char) (tokens : List Token)
    (h : scan offset chars = .ok tokens) : Laid offset chars tokens := by
  revert tokens
  fun_induction scan offset chars with
  | case1 offset =>
    rintro tokens ⟨⟩
    exact .nil offset
  | case2 offset c rest digit run ih =>
    intro tokens h
    obtain ⟨token, number, h⟩ := bind_eq_ok_iff.1 h
    obtain ⟨later, scanned, h⟩ := bind_eq_ok_iff.1 h
    cases h
    have whole : c :: rest = run ++ rest.dropWhile isNumeral :=
      congrArg (c :: ·) (List.takeWhile_append_dropWhile).symm
    have spelled := isSpelled_numberAt digit number
    obtain rfl := numberAt_eq_ok number
    rw [whole]
    exact .of_run spelled rfl rfl (head?_dropWhile isNumeral rest) (ih later scanned)
  | case3 offset c rest digit letter run ih =>
    intro tokens h
    obtain ⟨later, scanned, h⟩ := bind_eq_ok_iff.1 h
    cases h
    have whole : c :: rest = run ++ rest.dropWhile Char.isAlphanum :=
      congrArg (c :: ·) (List.takeWhile_append_dropWhile).symm
    rw [whole]
    exact .of_run (isSpelled_nameAt letter) rfl rfl (head?_dropWhile Char.isAlphanum rest)
      (ih later scanned)
  | case4 offset c rest digit letter kind symbol ih =>
    intro tokens h
    obtain ⟨later, scanned, h⟩ := bind_eq_ok_iff.1 h
    cases h
    have unfollowed : ∀ d ∈ rest.head?, continues kind d = false := by
      intro d _
      unfold symbol? at symbol
      split at symbol <;> cases symbol <;> rfl
    exact Laid.of_run (isSpelled_symbolAt symbol) rfl rfl unfollowed (ih later scanned)
  | case5 offset c rest digit letter symbol spacing ih =>
    intro tokens h
    exact .blank spacing (ih tokens h)
  | case6 =>
    intro tokens h
    cases h

end Scan

section Laid

variable {offset : Nat} {chars : List Char} {tokens : List Token}

/-- The characters hold the token's lexeme at its span, and what comes after does not continue it. -/
def StandsIn (offset : Nat) (chars : List Char) (t : Token) : Prop :=
  ∃ before after : List Char, chars = before ++ t.lexeme.toList ++ after ∧
    t.span = spanAt (offset + before.length) t.lexeme.length ∧
    ∀ c ∈ after.head?, continues t.kind c = false

theorem StandsIn.append {t : Token} (run : List Char) (h : StandsIn (offset + run.length) chars t) :
    StandsIn offset (run ++ chars) t := by
  obtain ⟨before, after, rfl, span, ends⟩ := h
  refine ⟨run ++ before, after, by simp, ?_, ends⟩
  rw [span, List.length_append, Nat.add_assoc]

theorem Laid.standsIn (h : Laid offset chars tokens) :
    ∀ t ∈ tokens, t.IsSpelled ∧ t.StandsIn offset chars := by
  induction h with
  | nil => simp
  | @blank offset c _ _ _ _ ih =>
    intro t member
    obtain ⟨spelled, stands⟩ := ih t member
    exact ⟨spelled, stands.append [c]⟩
  | @token offset first rest _ spelled span ends _ ih =>
    intro t member
    rcases List.mem_cons.1 member with rfl | member
    · exact ⟨spelled, [], rest, rfl, span, ends⟩
    · obtain ⟨spelled, stands⟩ := ih t member
      rw [← String.length_toList] at stands
      exact ⟨spelled, stands.append first.lexeme.toList⟩

theorem Laid.isSpacing (h : Laid offset chars tokens) {before after : List Char} {c : Char}
    (here : chars = before ++ c :: after)
    (free : ∀ t ∈ tokens, ¬ t.span.Covers (offset + before.length)) : isSpacing c = true := by
  induction h generalizing before with
  | nil => simp at here
  | @blank offset d rest tokens spacing _ ih =>
    cases before with
    | nil =>
      cases here
      exact spacing
    | cons e before =>
      cases here
      apply ih rfl
      intro t member covered
      apply free t member
      rw [List.length_cons, Nat.add_comm before.length 1]
      push_cast at covered ⊢
      rwa [← Int.add_assoc]
  | @token offset first rest tokens spelled span ends _ ih =>
    by_cases inside : before.length < first.lexeme.length
    · have covered : first.span.Covers (offset + before.length) := by
        simp only [span, spanAt, Span.Covers]
        omega
      exact absurd covered (free first List.mem_cons_self)
    · have beyond : first.lexeme.toList.length ≤ before.length := by
        rw [String.length_toList]
        omega
      obtain ⟨between, rfl⟩ := List.prefix_of_prefix_length_le
        (List.prefix_append first.lexeme.toList rest) (here ▸ List.prefix_append before _) beyond
      rw [List.append_assoc, List.append_cancel_left_eq] at here
      apply ih here
      intro t member covered
      apply free t (List.mem_cons_of_mem first member)
      rw [List.length_append, String.length_toList]
      push_cast at covered ⊢
      rwa [← Int.add_assoc]

theorem laid_of_ofText {text : String} (h : ofText text = .ok tokens) : Laid 0 text.toList tokens :=
  laid_of_scan 0 text.toList tokens (ofText_eq_ok_iff.1 h)

theorem isSpelled_ofText {text : String} (h : ofText text = .ok tokens) :
    ∀ t ∈ tokens, t.IsSpelled := fun t member => ((laid_of_ofText h).standsIn t member).1

end Laid

theorem IsSpelled.exists_nearest {t : Token} (h : t.IsSpelled) (kind : t.kind = .number) :
    ∃ value : Float, t.number = some value ∧
      ∀ other : Float, IsNearest (Decimal.numeralValue t.lexeme.toList) other ↔ other = value := by
  obtain ⟨lexeme, number⟩ := h
  rw [kind] at lexeme
  rw [if_pos kind] at number
  obtain ⟨whole, fraction, _, digits, _, written⟩ := lexeme
  have value : (Decimal.ofNumeral t.lexeme.toList).value =
      Decimal.numeralValue t.lexeme.toList := by
    rcases written with written | written
    · exact Decimal.value_ofNumeral digits (.inl ⟨written, rfl⟩)
    · exact Decimal.value_ofNumeral digits (.inr written)
  have nearest := value ▸ (Decimal.ofNumeral t.lexeme.toList).isNearest_toFloat
  refine ⟨_, number, fun other => ⟨fun also => also.unique nearest, ?_⟩⟩
  rintro rfl
  exact nearest

structure Decomposes (text : String) (tokens : List Token) : Prop where
  nonempty : ∀ t ∈ tokens, t.span.start < t.span.stop
  ordered : tokens.Pairwise Before
  standsIn : ∀ t ∈ tokens, t.StandsIn 0 text.toList
  blank : ∀ (before after : List Char) (c : Char), text.toList = before ++ c :: after →
    (∀ t ∈ tokens, ¬ t.span.Covers before.length) → isSpacing c = true
  spelled : ∀ t ∈ tokens, t.IsSpelled
  number : ∀ t ∈ tokens, t.kind = .number → ∃ value : Float, t.number = some value ∧
    ∀ other : Float, IsNearest (Decimal.numeralValue t.lexeme.toList) other ↔ other = value

theorem decomposes_of_ofText {text : String} {tokens : List Token} (h : ofText text = .ok tokens) :
    Decomposes text tokens where
  nonempty := fun t member => (allAt_ofText h t member).start_lt
  ordered := pairwise_ofText h
  standsIn := fun t member => ((laid_of_ofText h).standsIn t member).2
  blank := fun before after c here free => (laid_of_ofText h).isSpacing here (by simpa using free)
  spelled := isSpelled_ofText h
  number := fun t member => (isSpelled_ofText h t member).exists_nearest

/-- Exactly the well-spelled texts are scanned. Their tokens stand one after the other at the spans of
their lexemes, with blanks between them only; no lexeme could be longer, and numbers are read as the
nearest doubles. -/
theorem ofText_iff_wellSpelled (text : String) :
    ((∃ tokens, ofText text = .ok tokens) ↔ WellSpelled text.toList) ∧
      ∀ tokens, ofText text = .ok tokens → Decomposes text tokens := by
  refine ⟨?_, fun tokens => decomposes_of_ofText⟩
  simp only [ofText_eq_ok_iff]
  exact exists_scan_iff 0 text.toList

/-- A name may begin where a numeral ends, and a numeral may end with its point. -/
example : (ofText "2.5x3 1.").map (List.map Token.lexeme) = .ok ["2.5", "x3", "1."] := by
  decide +kernel

end Token

end Reckoner

import Reckoner.Proofs.Token.Composition
import Reckoner.Token.Layout

/-!
# The normal layout of a text

White space next to a bracket can be taken out of a text without a change to its tokens: it stands
outside of every lexeme, and a bracket is neither continued by what comes after it nor does it continue
what comes before. So the normal layout of the tokens of a text, their lexemes with single blanks that
are closed up at the brackets, is scanned as these tokens again.
-/

set_option autoImplicit false

namespace Reckoner

namespace Layout

variable {run rest : List Char} {c : Char}

theorem closeUpBefore_cons (c : Char) (rest : List Char) :
    closeUpBefore (c :: rest) =
      if Text.isBlank c && (closeUpBefore rest).head? == some ')' then closeUpBefore rest
      else c :: closeUpBefore rest := rfl

theorem closeUpBefore_append (solid : ∀ c ∈ run, Text.isBlank c = false) :
    closeUpBefore (run ++ rest) = run ++ closeUpBefore rest := by
  induction run with
  | nil => rfl
  | cons c run ih =>
    obtain ⟨here, others⟩ := List.forall_mem_cons.1 solid
    rw [List.cons_append, closeUpBefore_cons, here, ih others]
    rfl

theorem closeUpAfter_append (nonempty : run ≠ []) (solid : ∀ c ∈ run, Text.isBlank c = false)
    (bracketBefore : Bool) :
    closeUpAfter bracketBefore (run ++ rest) =
      run ++ closeUpAfter (run.getLast? == some '(') rest := by
  induction run generalizing bracketBefore with
  | nil => exact absurd rfl nonempty
  | cons c run ih =>
    obtain ⟨here, others⟩ := List.forall_mem_cons.1 solid
    rw [List.cons_append, closeUpAfter, here, Bool.and_false, if_neg (by simp)]
    cases run with
    | nil => simp
    | cons d run =>
      rw [ih (by simp) others, List.getLast?_cons_cons]
      rfl

/-- What stands first stays first if no bracket is before it. -/
theorem head?_closeUpAfter (chars : List Char) : (closeUpAfter false chars).head? = chars.head? := by
  cases chars with
  | nil => rfl
  | cons c chars => simp [closeUpAfter]

theorem mem_head?_closeUpBefore {chars : List Char} (h : c ∈ (closeUpBefore chars).head?) :
    c ∈ chars.head? ∨ c = ')' := by
  cases chars with
  | nil => exact .inl h
  | cons d chars =>
    rw [closeUpBefore_cons] at h
    split at h
    · rename_i closed
      simp only [Bool.and_eq_true, beq_iff_eq] at closed
      rw [closed.2] at h
      exact .inr (Option.mem_some_iff.1 h).symm
    · exact .inl h

end Layout

namespace Token

open Layout (closeUpAfter closeUpBefore)

variable {t : Token} {chars : List Char} {tokens : List Token} {offset : Nat}

def unplaced (t : Token) : Token := { t with span := .empty }

theorem allAlike_anywhere_iff {tokens' : List Token} :
    AllAlike Span.Anywhere tokens tokens' ↔ tokens.map unplaced = tokens'.map unplaced := by
  have alike_iff (t t' : Token) : t.Alike Span.Anywhere t' ↔ t.unplaced = t'.unplaced := by
    constructor
    · rintro ⟨kind, lexeme, number, _⟩
      rw [unplaced, unplaced, kind, lexeme, number]
    · intro same
      injection same with kind lexeme _ number
      exact ⟨kind, lexeme, number, trivial⟩
  have same : Alike Span.Anywhere = fun t t' => t.unplaced = t'.unplaced :=
    funext₂ fun t t' => propext (alike_iff t t')
  rw [AllAlike, same, ← List.forall₂_eq_eq_eq, List.forall₂_map_left_iff,
    List.forall₂_map_right_iff]

section Characters

variable {c : Char}

theorem isBlank_of_isSpacing (h : isSpacing c = true) : Text.isBlank c = true := by
  rcases eq_of_isSpacing h with rfl | rfl | rfl <;> rfl

theorem isBlank_of_isWordChar (h : isWordChar c = true) : Text.isBlank c = false := by
  have range : 46 ≤ c.toNat ∧ c.toNat ≤ 122 := by
    simp only [isWordChar, Char.isAlpha, Char.isUpper, Char.isLower, Char.isDigit, Bool.or_eq_true,
      Bool.and_eq_true, decide_eq_true_eq, ge_iff_le, UInt32.le_iff_toNat_le, beq_iff_eq] at h
    change (((65 ≤ c.toNat ∧ c.toNat ≤ 90) ∨ (97 ≤ c.toNat ∧ c.toNat ≤ 122)) ∨
      (48 ≤ c.toNat ∧ c.toNat ≤ 57)) ∨ c = '.' at h
    rcases h with inside | rfl
    · omega
    · decide
  simp only [Text.isBlank, Text.blankRanges, Text.CodeRanges.contains,
    Text.CodeRanges.containsCode]
  grind

theorem isBlank_of_symbol? {kind : TokenKind} (h : symbol? c = some kind) :
    Text.isBlank c = false := by
  unfold symbol? at h
  split at h <;> cases h <;> rfl

end Characters

theorem IsSpelled.isWordChar (h : t.IsSpelled) (word : t.kind = .number ∨ t.kind = .identifier) :
    ∀ c ∈ t.lexeme.toList, isWordChar c = true := by
  have written := h.lexeme
  rcases word with kind | kind
  · rw [kind] at written
    exact fun c inside => isWordChar_of_isNumeral (written.isNumeral c inside)
  · rw [kind] at written
    obtain ⟨first, rest, name, letter, others⟩ := written
    rw [name]
    refine List.forall_mem_cons.2 ⟨?_, fun c inside => isWordChar_of_isAlphanum (others c inside)⟩
    simp [Token.isWordChar, letter]

theorem IsSpelled.isBlank (h : t.IsSpelled) : ∀ c ∈ t.lexeme.toList, Text.isBlank c = false := by
  have written := h.lexeme
  cases kind : t.kind with
  | number => exact fun c inside => isBlank_of_isWordChar (h.isWordChar (.inl kind) c inside)
  | identifier => exact fun c inside => isBlank_of_isWordChar (h.isWordChar (.inr kind) c inside)
  | operator | opening | closing =>
    rw [kind] at written
    obtain ⟨c, single, symbol⟩ := written
    rw [single]
    simpa using isBlank_of_symbol? symbol

theorem IsSpelled.ne_nil (h : t.IsSpelled) : t.lexeme.toList ≠ [] := by
  have written := h.lexeme
  cases kind : t.kind with
  | number =>
    rw [kind] at written
    exact IsNumeral.ne_nil written
  | identifier =>
    rw [kind] at written
    obtain ⟨first, rest, name, _⟩ := written
    simp [name]
  | operator | opening | closing =>
    rw [kind] at written
    obtain ⟨c, single, _⟩ := written
    simp [single]

/-- After a lexeme that could be continued there is no gap to close. -/
theorem IsSpelled.unfollowed_closeUpAfter (h : t.IsSpelled)
    (ends : ∀ c ∈ chars.head?, continues t.kind c = false) :
    ∀ c ∈ (closeUpAfter (t.lexeme.toList.getLast? == some '(') chars).head?,
      continues t.kind c = false := by
  have same (word : t.kind = .number ∨ t.kind = .identifier) :
      (closeUpAfter (t.lexeme.toList.getLast? == some '(') chars).head? = chars.head? := by
    have other : (t.lexeme.toList.getLast? == some '(') = false := by
      rw [beq_eq_false_iff_ne]
      intro last
      cases h.isWordChar word '(' (List.mem_of_getLast? last)
    rw [other, Layout.head?_closeUpAfter]
  cases kind : t.kind with
  | number =>
    rw [same (.inl kind), ← kind]
    exact ends
  | identifier =>
    rw [same (.inr kind), ← kind]
    exact ends
  | operator | opening | closing => exact fun _ _ => rfl

theorem unfollowed_closeUpBefore {kind : TokenKind} (ends : ∀ c ∈ chars.head?, continues kind c = false) :
    ∀ c ∈ (closeUpBefore chars).head?, continues kind c = false := by
  intro c first
  rcases Layout.mem_head?_closeUpBefore first with first | rfl
  · exact ends c first
  · cases kind <;> rfl

theorem spells_closeUpAfter (h : Laid offset chars tokens) (bracketBefore : Bool) :
    Spells (closeUpAfter bracketBefore chars) tokens := by
  induction h generalizing bracketBefore with
  | nil => exact .nil
  | blank spacing _ ih =>
    rw [closeUpAfter, isBlank_of_isSpacing spacing, Bool.and_true]
    split
    · exact ih true
    · exact .blank spacing (ih _)
  | token spelled _ ends _ ih =>
    rw [Layout.closeUpAfter_append spelled.ne_nil spelled.isBlank]
    apply (Spells.token spelled).append (ih _)
    simpa using spelled.unfollowed_closeUpAfter ends

theorem spells_closeUpBefore (h : Laid offset chars tokens) : Spells (closeUpBefore chars) tokens := by
  induction h with
  | nil => exact .nil
  | blank spacing _ ih =>
    rw [Layout.closeUpBefore_cons]
    split
    · exact ih
    · exact .blank spacing ih
  | token spelled _ ends _ ih =>
    rw [Layout.closeUpBefore_append spelled.isBlank]
    apply (Spells.token spelled).append ih
    simpa using unfollowed_closeUpBefore ends

theorem Spells.of_alike {found : List Token} (h : Spells chars found)
    (alike : AllAlike Span.Anywhere found tokens) : Spells chars tokens := by
  intro offset
  obtain ⟨again, laid, alike'⟩ := h offset
  refine ⟨again, laid, ?_⟩
  rw [allAlike_anywhere_iff] at alike alike' ⊢
  exact alike'.trans alike

theorem spells_joined (spelled : ∀ t ∈ tokens, t.IsSpelled) :
    Spells (" ".intercalate (tokens.map lexeme)).toList tokens := by
  rw [String.toList_intercalate, List.map_map]
  induction tokens with
  | nil => exact .nil
  | cons t rest ih =>
    obtain ⟨here, others⟩ := List.forall_mem_cons.1 spelled
    cases rest with
    | nil => simpa using Spells.token here
    | cons next rest =>
      rw [List.map_cons, List.map_cons, List.intercalate_cons_cons, List.append_assoc]
      apply (Spells.token here).append_of_not_isWordChar (.blank rfl (ih others))
      rintro c ⟨⟩
      rfl

theorem spells_layout (spelled : ∀ t ∈ tokens, t.IsSpelled) :
    Spells (Layout.ofTokens tokens).toList tokens := by
  rw [Layout.ofTokens, String.toList_ofList]
  obtain ⟨joined, laid, alike⟩ := spells_joined spelled 0
  obtain ⟨opened, laid', alike'⟩ := (spells_closeUpAfter laid false).of_alike alike 0
  exact (spells_closeUpBefore laid').of_alike alike'

theorem layout_congr {tokens' : List Token} (same : tokens.map unplaced = tokens'.map unplaced) :
    Layout.ofTokens tokens = Layout.ofTokens tokens' := by
  have lexemes := congrArg (List.map lexeme) same
  rw [List.map_map, List.map_map] at lexemes
  exact congrArg (fun lexemes => String.ofList
    (closeUpBefore (closeUpAfter false (" ".intercalate lexemes).toList))) lexemes

theorem exists_ofText_layout {text : String} (h : ofText text = .ok tokens) :
    ∃ again : List Token, ofText (Layout.ofTokens tokens) = .ok again ∧
      again.map unplaced = tokens.map unplaced := by
  obtain ⟨again, laid, alike⟩ := spells_layout (isSpelled_ofText h) 0
  exact ⟨again, ofText_eq_ok_iff.2 (scan_of_laid laid), allAlike_anywhere_iff.1 alike⟩

/-- The normal layout of a text that can be scanned is scanned as the same tokens, spans aside, and so
it is its own normal layout. Two texts have one normal layout just if they have the same tokens. -/
theorem layout_reads_back {text : String} (h : ofText text = .ok tokens) :
    (∃ again : List Token, ofText (Layout.ofTokens tokens) = .ok again ∧
      AllAlike Span.Anywhere again tokens ∧ Layout.ofTokens again = Layout.ofTokens tokens) ∧
      ∀ (other : String) (tokens' : List Token), ofText other = .ok tokens' →
        (Layout.ofTokens tokens' = Layout.ofTokens tokens ↔
          AllAlike Span.Anywhere tokens' tokens) := by
  obtain ⟨again, scanned, same⟩ := exists_ofText_layout h
  refine ⟨⟨again, scanned, allAlike_anywhere_iff.2 same, layout_congr same⟩,
    fun other tokens' h' => ?_⟩
  rw [allAlike_anywhere_iff]
  constructor
  · intro layouts
    obtain ⟨again', scanned', same'⟩ := exists_ofText_layout h'
    rw [layouts, scanned] at scanned'
    cases scanned'
    exact same'.symm.trans same
  · exact layout_congr

/-- A name directly after a numeral, nested brackets and empty ones. -/
theorem layout_reads_back_bracketed :
    ∃ tokens : List Token, ofText "( (1.x \n)\t) ( )" = .ok tokens ∧
      Layout.ofTokens tokens = "((1. x)) ()" ∧
      ∃ again : List Token, ofText "((1. x)) ()" = .ok again ∧
        AllAlike Span.Anywhere again tokens := by
  have laid : (ofText "( (1.x \n)\t) ( )").map Layout.ofTokens = .ok "((1. x)) ()" := by
    decide +kernel
  obtain ⟨tokens, scanned, layout⟩ := map_eq_ok_iff.1 laid
  obtain ⟨⟨again, reads, alike, _⟩, _⟩ := layout_reads_back scanned
  exact ⟨tokens, scanned, layout, again, layout ▸ reads, alike⟩

end Token

end Reckoner

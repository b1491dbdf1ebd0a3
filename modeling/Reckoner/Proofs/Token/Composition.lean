import Reckoner.Proofs.Grammar.Labels
import Reckoner.Proofs.Token.Decomposition

/-!
# Texts that are put together from lexemes

Every row of lexemes and blanks in which no lexeme is continued by what comes after it is scanned as
these lexemes. So texts can be written side by side, and their tokens are those of both, up to spans,
if the first one is not continued by the second.
-/

set_option autoImplicit false

namespace Reckoner

/-- Any two spans are related: nothing is said about places. -/
abbrev Span.Anywhere (_ _ : Span) : Prop := True

namespace Token

section Scan

variable {offset : Nat} {chars rest : List Char} {t : Token} {tokens : List Token}

theorem scan_number {run : List Char} (numeral : IsNumeral run)
    (ends : ∀ c ∈ rest.head?, isNumeral c = false)
    (later : scan (offset + run.length) rest = .ok tokens) :
    scan offset (run ++ rest) = .ok (⟨.number, String.ofList run, spanAt offset run.length,
      some (Decimal.ofNumeral run).toFloat⟩ :: tokens) := by
  have inside := numeral.isNumeral
  have digit : ∀ c ∈ run.head?, c.isDigit = true := by
    obtain ⟨whole, fraction, nonempty, digits, _, written⟩ := numeral
    obtain ⟨c, whole, rfl⟩ := List.exists_cons_of_ne_nil nonempty
    rcases written with rfl | rfl <;> simpa using (List.forall_mem_cons.1 digits).1
  obtain ⟨c, run, rfl⟩ := List.exists_cons_of_ne_nil numeral.ne_nil
  have first : c.isDigit = true := digit c rfl
  obtain ⟨_, others⟩ := List.forall_mem_cons.1 inside
  have few : ¬ 1 < (c :: run).count '.' := Nat.not_lt.2 ((isNumeral_cons_iff first others).1 numeral)
  have number : numberAt offset (c :: run) = .ok ⟨.number, String.ofList (c :: run),
      spanAt offset (c :: run).length, some (Decimal.ofNumeral (c :: run)).toFloat⟩ := by
    rw [numberAt, if_neg few]
  rw [List.cons_append, scan]
  simp only [first, if_true, takeWhile_of_ends others ends, dropWhile_of_ends others ends]
  rw [number, later]
  rfl

theorem scan_symbol {c : Char} {kind : TokenKind} (symbol : symbol? c = some kind)
    (later : scan (offset + 1) rest = .ok tokens) :
    scan offset (c :: rest) = .ok (symbolAt offset c kind :: tokens) := by
  have other : c.isDigit = false ∧ c.isAlpha = false := by
    unfold symbol? at symbol
    split at symbol <;> cases symbol <;> exact ⟨rfl, rfl⟩
  rw [scan]
  simp only [other, symbol, Bool.false_eq_true, if_false]
  rw [later]
  rfl

theorem scan_lexeme (spelled : t.IsSpelled) (span : t.span = spanAt offset t.lexeme.length)
    (ends : ∀ c ∈ rest.head?, continues t.kind c = false)
    (later : scan (offset + t.lexeme.length) rest = .ok tokens) :
    scan offset (t.lexeme.toList ++ rest) = .ok (t :: tokens) := by
  obtain ⟨kind, lexeme, place, number⟩ := t
  obtain ⟨written, value⟩ := spelled
  simp only at written value span ends later ⊢
  rw [← String.length_toList] at span later
  rw [span, value]
  cases kind with
  | number =>
    rw [scan_number written ends later, String.ofList_toList]
    rfl
  | identifier =>
    obtain ⟨first, run, name, letter, inside⟩ := written
    rw [name] at later ⊢
    have same : lexeme = String.ofList (first :: run) := by rw [← name, String.ofList_toList]
    rw [scan_name letter inside ends later, nameAt, same]
    rfl
  | operator | opening | closing =>
    obtain ⟨c, single, symbol⟩ := written
    rw [single] at later ⊢
    have same : lexeme = c.toString := String.toList_injective (by simp [single])
    rw [List.singleton_append, scan_symbol symbol later, symbolAt, same]
    rfl

theorem scan_of_laid (h : Laid offset chars tokens) : scan offset chars = .ok tokens := by
  induction h with
  | nil offset => rw [scan]
  | @blank offset c rest tokens spacing _ ih => rw [scan_of_spacing spacing, ih]
  | token spelled span ends _ ih => exact scan_lexeme spelled span ends ih

end Scan

theorem Laid.append {offset : Nat} {before after : List Char} {tokens later : List Token}
    (h : Laid offset before tokens) (h' : Laid (offset + before.length) after later)
    (ends : ∀ t ∈ tokens, ∀ c ∈ after.head?, continues t.kind c = false) :
    Laid offset (before ++ after) (tokens ++ later) := by
  induction h with
  | nil => exact h'
  | @blank offset c rest tokens spacing _ ih =>
    have start : offset + (c :: rest).length = offset + 1 + rest.length := by
      rw [List.length_cons]
      omega
    rw [start] at h'
    exact .blank spacing (ih h' ends)
  | @token offset t rest tokens spelled span unfollowed _ ih =>
    have start : offset + (t.lexeme.toList ++ rest).length =
        offset + t.lexeme.length + rest.length := by
      rw [List.length_append, String.length_toList, Nat.add_assoc]
    rw [start] at h'
    obtain ⟨here, others⟩ := List.forall_mem_cons.1 ends
    have next : ∀ c ∈ (rest ++ after).head?, continues t.kind c = false := by
      cases rest with
      | nil => exact here
      | cons d rest => exact unfollowed
    rw [List.append_assoc, List.cons_append]
    exact .token spelled span next (ih h' others)

theorem AllAlike.forall_kind {R : Span → Span → Prop} {tokens tokens' : List Token}
    {P : TokenKind → Prop} (h : AllAlike R tokens tokens') (all : ∀ t ∈ tokens', P t.kind) :
    ∀ t ∈ tokens, P t.kind := by
  induction h with
  | nil => exact all
  | cons same _ ih =>
    obtain ⟨here, others⟩ := List.forall_mem_cons.1 all
    exact List.forall_mem_cons.2 ⟨same.kind ▸ here, ih others⟩

/-- Wherever the characters stand, they are scanned as the tokens, up to spans. -/
def Spells (chars : List Char) (tokens : List Token) : Prop :=
  ∀ offset : Nat, ∃ found : List Token, Laid offset chars found ∧
    AllAlike Span.Anywhere found tokens

namespace Spells

theorem token {t : Token} (h : t.IsSpelled) : Spells t.lexeme.toList [t] := by
  intro offset
  have moved : IsSpelled { t with span := spanAt offset t.lexeme.length } := ⟨h.lexeme, h.number⟩
  have alone : ∀ c ∈ ([] : List Char).head?, continues t.kind c = false := by simp
  have laid := Laid.token moved rfl alone (.nil _)
  rw [List.append_nil] at laid
  exact ⟨_, laid, .cons ⟨rfl, rfl, rfl, trivial⟩ .nil⟩

theorem nil : Spells [] [] := fun _ => ⟨[], .nil _, .nil⟩

theorem number {run : List Char} (h : IsNumeral run) : ∃ t : Token, t.kind = .number ∧
    t.number = some (Decimal.ofNumeral run).toFloat ∧ Spells run [t] := by
  have spelled : IsSpelled ⟨.number, String.ofList run, .empty,
      some (Decimal.ofNumeral run).toFloat⟩ := ⟨by simpa using h, by simp⟩
  exact ⟨_, rfl, rfl, by simpa using token spelled⟩

theorem name {run : List Char} (h : IsName run) :
    ∃ t : Token, t.kind = .identifier ∧ Spells run [t] := by
  have spelled : IsSpelled ⟨.identifier, String.ofList run, .empty, none⟩ := ⟨by simpa using h, rfl⟩
  exact ⟨_, rfl, by simpa using token spelled⟩

theorem append {before after : List Char} {tokens later : List Token} (h : Spells before tokens)
    (h' : Spells after later)
    (ends : ∀ t ∈ tokens, ∀ c ∈ after.head?, continues t.kind c = false) :
    Spells (before ++ after) (tokens ++ later) := by
  intro offset
  obtain ⟨found, laid, alike⟩ := h offset
  obtain ⟨found', laid', alike'⟩ := h' (offset + before.length)
  have unfollowed := alike.forall_kind (P := fun kind => ∀ c ∈ after.head?, continues kind c = false)
    ends
  exact ⟨found ++ found', laid.append laid' unfollowed, List.rel_append alike alike'⟩

/-- What begins with neither letter nor digit nor point continues nothing. -/
theorem append_of_not_isWordChar {before after : List Char} {tokens later : List Token}
    (h : Spells before tokens) (h' : Spells after later)
    (ends : ∀ c ∈ after.head?, isWordChar c = false) :
    Spells (before ++ after) (tokens ++ later) := by
  apply h.append h'
  intro t _ c first
  have outside := ends c first
  cases kind : t.kind with
  | number =>
    rw [isWordChar, Bool.or_assoc, Bool.or_eq_false_iff] at outside
    exact outside.2
  | identifier =>
    rw [isWordChar, Bool.or_eq_false_iff] at outside
    exact outside.1
  | operator | opening | closing => rfl

theorem blank {c : Char} {after : List Char} {later : List Token} (h : isSpacing c = true)
    (h' : Spells after later) : Spells (c :: after) later := by
  intro offset
  obtain ⟨found, laid, alike⟩ := h' (offset + 1)
  exact ⟨found, .blank h laid, alike⟩

theorem symbol {c : Char} {kind : TokenKind} {after : List Char} {later : List Token}
    (h : symbol? c = some kind) (h' : Spells after later) :
    Spells (c :: after) (symbolAt 0 c kind :: later) := by
  have written : (symbolAt 0 c kind).lexeme.toList = [c] := by simp [symbolAt]
  have spelled : (symbolAt 0 c kind).IsSpelled := isSpelled_symbolAt h
  have single := token spelled
  rw [written] at single
  apply single.append h'
  intro t alone d _
  obtain rfl := List.mem_singleton.1 alone
  unfold symbol? at h
  split at h <;> cases h <;> rfl

end Spells

end Token

end Reckoner

import Mathlib
import Reckoner.Token.Scan

/-!
# What the tokens of a text carry

A number that is scanned from a text carries its value, and a name is an identifier: a letter with
letters and digits after it. A text that holds an identifier, with or without blanks around it, is
scanned as that one name.
-/

set_option autoImplicit false

namespace Reckoner

namespace Token

/-- A letter, then letters and digits, all of them of ASCII. -/
def IsIdentifier (name : String) : Prop :=
  ∃ (first : Char) (rest : List Char), name.toList = first :: rest ∧
    first.isAlpha = true ∧ ∀ c ∈ rest, c.isAlphanum = true

/-- The token carries what its kind asks for. -/
def IsProper (t : Token) : Prop :=
  match t.kind with
  | .number => t.number.isSome = true
  | .identifier => IsIdentifier t.lexeme
  | .operator _ | .opening | .closing => True

theorem isProper_ofNumber (value : Float) (span : Span) : (ofNumber value span).IsProper := rfl

theorem IsProper.isSome_number {t : Token} (h : t.IsProper) (kind : t.kind = .number) :
    t.number.isSome = true := by
  rwa [IsProper, kind] at h

theorem IsProper.isIdentifier {t : Token} (h : t.IsProper) (kind : t.kind = .identifier) :
    IsIdentifier t.lexeme := by
  rwa [IsProper, kind] at h

theorem isProper_numberAt {offset : Nat} {run : List Char} {token : Token}
    (h : numberAt offset run = .ok token) : token.IsProper := by
  unfold numberAt at h
  split at h
  · cases h
  · cases h
    rfl

theorem isProper_nameAt {offset : Nat} {c : Char} {rest : List Char} (letter : c.isAlpha = true) :
    (nameAt offset (c :: rest.takeWhile Char.isAlphanum)).IsProper := by
  refine ⟨c, rest.takeWhile Char.isAlphanum, by simp [nameAt], letter, ?_⟩
  intro d inside
  exact List.mem_takeWhile_imp inside

theorem isProper_symbolAt {offset : Nat} {c : Char} {kind : TokenKind}
    (h : symbol? c = some kind) : (symbolAt offset c kind).IsProper := by
  unfold symbol? at h
  split at h <;> cases h <;> trivial

theorem isProper_cons {first : Token} {later : Except ScanError (List Token)}
    (here : first.IsProper)
    (ih : ∀ rest : List Token, later = .ok rest → ∀ token ∈ rest, token.IsProper)
    {tokens : List Token} (h : (later >>= fun rest => pure (first :: rest)) = .ok tokens) :
    ∀ token ∈ tokens, token.IsProper := by
  cases scanned : later with
  | error e => simp [scanned, bind, Except.bind] at h
  | ok rest =>
    simp only [scanned, bind, Except.bind, pure, Except.pure, Except.ok.injEq] at h
    subst h
    intro token inside
    rcases List.mem_cons.1 inside with rfl | inside
    · exact here
    · exact ih rest scanned token inside

theorem isProper_of_scan (offset : Nat) (chars : List Char) (tokens : List Token)
    (h : scan offset chars = .ok tokens) : ∀ token ∈ tokens, token.IsProper := by
  revert tokens
  fun_induction scan offset chars with
  | case1 =>
    intro tokens h
    cases h
    simp
  | case2 offset c rest digit run ih =>
    intro tokens h
    cases number : numberAt offset run with
    | error e => simp [number, bind, Except.bind] at h
    | ok token =>
      rw [number] at h
      exact isProper_cons (isProper_numberAt number) ih h
  | case3 offset c rest digit letter run ih =>
    intro tokens h
    exact isProper_cons (isProper_nameAt letter) ih h
  | case4 offset c rest digit letter kind symbol ih =>
    intro tokens h
    exact isProper_cons (isProper_symbolAt symbol) ih h
  | case5 offset c rest digit letter symbol spacing ih => exact ih
  | case6 =>
    intro tokens h
    cases h

section Identifier

theorem not_isDigit_of_isAlpha {c : Char} (h : c.isAlpha = true) : c.isDigit = false := by
  simp only [Char.isAlpha, Char.isUpper, Char.isLower, Bool.or_eq_true, Bool.and_eq_true,
    decide_eq_true_eq, ge_iff_le, UInt32.le_iff_toNat_le] at h
  change (65 ≤ c.toNat ∧ c.toNat ≤ 90) ∨ (97 ≤ c.toNat ∧ c.toNat ≤ 122) at h
  rw [Bool.eq_false_iff]
  intro digit
  simp only [Char.isDigit, Bool.and_eq_true, decide_eq_true_eq, ge_iff_le,
    UInt32.le_iff_toNat_le] at digit
  change 48 ≤ c.toNat ∧ c.toNat ≤ 57 at digit
  omega

theorem eq_of_isSpacing {c : Char} (h : isSpacing c = true) : c = ' ' ∨ c = '\t' ∨ c = '\n' := by
  simpa [isSpacing, or_assoc] using h

theorem scan_of_spacing {c : Char} (h : isSpacing c = true) (offset : Nat) (rest : List Char) :
    scan offset (c :: rest) = scan (offset + 1) rest := by
  rw [scan]
  rcases eq_of_isSpacing h with rfl | rfl | rfl <;> rfl

theorem scan_spacing_append {blanks : List Char} (h : ∀ c ∈ blanks, isSpacing c = true)
    (offset : Nat) (rest : List Char) :
    scan offset (blanks ++ rest) = scan (offset + blanks.length) rest := by
  induction blanks generalizing offset with
  | nil => rfl
  | cons c blanks ih =>
    rw [List.cons_append, scan_of_spacing (h c (by simp)), ih fun d inside => h d (by simp [inside]),
      List.length_cons]
    congr 1
    omega

/-- The longest run is the one after which another character comes, or none. -/
theorem takeWhile_of_ends {p : Char → Bool} {run rest : List Char} (inside : ∀ c ∈ run, p c = true)
    (ends : ∀ c ∈ rest.head?, p c = false) : (run ++ rest).takeWhile p = run := by
  rw [List.takeWhile_append_of_pos inside]
  cases rest with
  | nil => simp
  | cons c rest => simp [ends c rfl]

theorem dropWhile_of_ends {p : Char → Bool} {run rest : List Char} (inside : ∀ c ∈ run, p c = true)
    (ends : ∀ c ∈ rest.head?, p c = false) : (run ++ rest).dropWhile p = rest := by
  rw [List.dropWhile_append_of_pos inside]
  cases rest with
  | nil => rfl
  | cons c rest => simp [ends c rfl]

theorem scan_name {c : Char} {run : List Char} (letter : c.isAlpha = true)
    (inside : ∀ d ∈ run, d.isAlphanum = true) {offset : Nat} {rest : List Char} {tokens : List Token}
    (ends : ∀ d ∈ rest.head?, d.isAlphanum = false)
    (later : scan (offset + (c :: run).length) rest = .ok tokens) :
    scan offset (c :: run ++ rest) = .ok (nameAt offset (c :: run) :: tokens) := by
  rw [List.cons_append, scan]
  simp only [not_isDigit_of_isAlpha letter, letter, Bool.false_eq_true, if_false, if_true,
    takeWhile_of_ends inside ends, dropWhile_of_ends inside ends]
  rw [later]
  rfl

theorem scan_identifier {name : String} (h : IsIdentifier name) {after : List Char}
    (blank : ∀ c ∈ after, isSpacing c = true) (offset : Nat) :
    scan offset (name.toList ++ after) = .ok [nameAt offset name.toList] := by
  obtain ⟨first, rest, written, letter, inside⟩ := h
  have ends : ∀ c ∈ after.head?, c.isAlphanum = false := by
    intro c here
    rcases eq_of_isSpacing (blank c (List.mem_of_mem_head? here)) with rfl | rfl | rfl <;> rfl
  have silent : scan (offset + (first :: rest).length) after = .ok [] := by
    rw [← List.append_nil after, scan_spacing_append blank, scan]
  rw [written]
  exact scan_name letter inside ends silent

end Identifier

end Token

end Reckoner

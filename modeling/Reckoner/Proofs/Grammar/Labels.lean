import Mathlib
import Reckoner.Proofs.Grammar.Places

/-!
# Parsing uses spans as labels only

Two token lists that differ in their spans alone are parsed alike: to trees that differ in their
spans alone, or to errors with one cause. Whatever relation holds between the spans of the lists and is
kept when spans are merged holds between the spans of the results.
-/

set_option autoImplicit false

namespace Reckoner

/-- Two results of one kind: both values with one relation between them, or both errors with
another. -/
inductive Agree {Error Value : Type} (E : Error → Error → Prop) (V : Value → Value → Prop) :
    Except Error Value → Except Error Value → Prop where
  | ok {value value' : Value} : V value value' → Agree E V (.ok value) (.ok value')
  | error {e e' : Error} : E e e' → Agree E V (.error e) (.error e')

structure Located.Alike {Cause : Type} (R : Span → Span → Prop) (e e' : Located Cause) : Prop where
  cause : e.cause = e'.cause
  span : R e.span e'.span

namespace Span

/-- The relation is kept when spans are merged on both sides. -/
def MergeStable (R : Span → Span → Prop) : Prop :=
  ∀ ⦃s s' t t' : Span⦄, R s s' → R t t' → R (s.merge t) (s'.merge t')

end Span

/-- The tokens differ in their spans at most. -/
structure Token.Alike (R : Span → Span → Prop) (t t' : Token) : Prop where
  kind : t.kind = t'.kind
  lexeme : t.lexeme = t'.lexeme
  number : t.number = t'.number
  span : R t.span t'.span

/-- The trees have one shape and related values. -/
inductive Tree.Alike {α : Type} (V : α → α → Prop) : Tree α → Tree α → Prop where
  | nil : Alike V .nil .nil
  | node {value value' : α} {left left' right right' : Tree α} : V value value' →
    Alike V left left' → Alike V right right' →
    Alike V (.node value left right) (.node value' left' right')

namespace Agree

variable {Error Error' Value Value' : Type} {E : Error → Error → Prop} {V : Value → Value → Prop}
  {x x' : Except Error Value}

theorem bind {W : Value' → Value' → Prop} {next next' : Value → Except Error Value'}
    (h : Agree E V x x') (later : ∀ value value', x = .ok value → V value value' →
      Agree E W (next value) (next' value')) : Agree E W (x.bind next) (x'.bind next') := by
  cases h with
  | ok alike => exact later _ _ rfl alike
  | error alike => exact .error alike

theorem map {W : Value' → Value' → Prop} {f f' : Value → Value'} (h : Agree E V x x')
    (related : ∀ value value', V value value' → W (f value) (f' value')) :
    Agree E W (x.map f) (x'.map f') := by
  cases h with
  | ok alike => exact .ok (related _ _ alike)
  | error alike => exact .error alike

theorem mapError {F : Error' → Error' → Prop} {f f' : Error → Error'} (h : Agree E V x x')
    (related : ∀ e e', E e e' → F (f e) (f' e')) :
    Agree F V (x.mapError f) (x'.mapError f') := by
  cases h with
  | ok alike => exact .ok alike
  | error alike => exact .error (related _ _ alike)

end Agree

variable {R : Span → Span → Prop} {t t' : Token} {tokens tokens' : List Token}

namespace Token.Alike

theorem operator? (h : t.Alike R t') : t.operator? = t'.operator? := by
  rw [Token.operator?, Token.operator?, h.kind]

theorem level (h : t.Alike R t') : t.level = t'.level := by
  rw [Token.level, Token.level, h.operator?]

theorem isSign (h : t.Alike R t') : t.isSign = t'.isSign := by
  rw [Token.isSign, Token.isSign, h.operator?]

theorem isArithmetic (h : t.Alike R t') : t.isArithmetic = t'.isArithmetic := by
  rw [Token.isArithmetic, Token.isArithmetic, h.operator?]

theorem isCuttable (h : t.Alike R t') (depth : Int) : t.isCuttable depth = t'.isCuttable depth := by
  rw [Token.isCuttable, Token.isCuttable, h.operator?]

theorem depthAfter (h : t.Alike R t') (depth : Int) : t.depthAfter depth = t'.depthAfter depth := by
  rw [Token.depthAfter, Token.depthAfter, h.kind]

end Token.Alike

section Lists

open List (Forall₂)

variable {α : Type} {V : α → α → Prop} {list list' : List α}

theorem eq_nil_iff (h : Forall₂ V list list') : list = [] ↔ list' = [] := by
  rw [← List.length_eq_zero_iff, ← List.length_eq_zero_iff, h.length_eq]

theorem rel_head? (h : Forall₂ V list list') : Option.Rel V list.head? list'.head? := by
  cases h with
  | nil => exact .none
  | cons alike _ => exact .some alike

theorem rel_getLast? (h : Forall₂ V list list') : Option.Rel V list.getLast? list'.getLast? := by
  rw [← List.head?_reverse, ← List.head?_reverse]
  exact rel_head? (List.rel_reverse h)

theorem rel_dropLast (h : Forall₂ V list list') : Forall₂ V list.dropLast list'.dropLast := by
  rw [List.dropLast_eq_take, List.dropLast_eq_take, h.length_eq]
  exact List.forall₂_take _ h

end Lists

abbrev Token.AllAlike (R : Span → Span → Prop) : List Token → List Token → Prop :=
  List.Forall₂ (Token.Alike R)

open Token (AllAlike)
open scoped Relator

namespace Unmatched

structure Alike (R : Span → Span → Prop) (u u' : Unmatched) : Prop where
  openings : AllAlike R u.openings u'.openings
  closings : AllAlike R u.closings u'.closings

theorem alike_next {u u' : Unmatched} (h : u.Alike R u') (same : t.Alike R t') :
    (u.next t).Alike R (u'.next t') := by
  obtain ⟨openings, closings⟩ := u
  obtain ⟨openings', closings'⟩ := u'
  obtain ⟨opened, closed⟩ := h
  unfold next
  rw [same.kind]
  cases t'.kind with
  | opening => exact ⟨.cons same opened, closed⟩
  | closing =>
    cases opened with
    | nil => exact ⟨.nil, .cons same closed⟩
    | cons _ outer => exact ⟨outer, closed⟩
  | number | identifier | operator => exact ⟨opened, closed⟩

theorem alike_ofTokens (h : AllAlike R tokens tokens') :
    (ofTokens tokens).Alike R (ofTokens tokens') := by
  have step : (Alike R ⇒ Token.Alike R ⇒ Alike R) next next := by
    intro u u' before t t' same
    exact alike_next before same
  exact List.rel_foldl step ⟨.nil, .nil⟩ h

theorem rel_error? {u u' : Unmatched} (h : u.Alike R u') :
    Option.Rel (Located.Alike R) u.error? u'.error? := by
  have located {cause : ParseCause} {token token' : Option Token}
      (same : Option.Rel (Token.Alike R) token token') :
      Option.Rel (Located.Alike R) (token.map fun t => (⟨cause, t.span⟩ : ParseError))
        (token'.map fun t => ⟨cause, t.span⟩) := by
    cases same with
    | none => exact .none
    | some same => exact .some ⟨rfl, same.span⟩
  unfold error?
  rw [h.openings.length_eq, h.closings.length_eq]
  split
  · exact located (rel_getLast? h.openings)
  · split
    · exact located (rel_head? h.closings)
    · exact located (rel_getLast? h.closings)

end Unmatched

section Brackets

theorem properlyNested_eq (h : AllAlike R tokens tokens') :
    properlyNested tokens = properlyNested tokens' := by
  obtain ⟨opened, closed⟩ := Unmatched.alike_ofTokens h
  have none_iff (u : Unmatched) : u = .none ↔ u.openings = [] ∧ u.closings = [] := by
    cases u
    simp [Unmatched.none]
  rw [Bool.eq_iff_iff, properlyNested, properlyNested, beq_iff_eq, beq_iff_eq, none_iff, none_iff,
    eq_nil_iff opened, eq_nil_iff closed]

theorem rel_enclosed? (h : AllAlike R tokens tokens') :
    Option.Rel (AllAlike R) (enclosed? tokens) (enclosed? tokens') := by
  cases h with
  | nil => exact .none
  | @cons first first' rest rest' opens others =>
    rw [enclosed?, enclosed?]
    have ends := rel_getLast? others
    generalize rest.getLast? = last at ends
    generalize rest'.getLast? = last' at ends
    cases ends with
    | none => exact .none
    | some closes =>
      simp only [opens.kind, closes.kind, properlyNested_eq (rel_dropLast others)]
      split
      · exact .some (rel_dropLast others)
      · exact .none

theorem spanOf_related (merges : Span.MergeStable R) (h : AllAlike R tokens tokens')
    (nonempty : tokens ≠ []) : R (spanOf tokens) (spanOf tokens') := by
  have first := rel_head? h
  have last := rel_getLast? h
  unfold spanOf
  rw [List.head?_eq_some_head nonempty, List.getLast?_eq_some_getLast nonempty] at *
  rw [List.head?_eq_some_head (mt (eq_nil_iff h).2 nonempty),
    List.getLast?_eq_some_getLast (mt (eq_nil_iff h).2 nonempty)] at *
  cases first with
  | some first =>
    cases last with
    | some last => exact merges first.span last.span

/-- What is found wrong with the brackets comes first; then one pair is taken off, if there is one
around the whole list. -/
theorem stripped_eq (tokens : List Token) :
    stripped tokens =
      match (Unmatched.ofTokens tokens).error?, enclosed? tokens with
      | some e, _ => .error e
      | none, none => .ok tokens
      | none, some [] => .error ⟨.emptyBrackets, spanOf tokens⟩
      | none, some (token :: inner) => stripped (token :: inner) := by
  rw [stripped]
  split
  · rename_i wrong
    rw [wrong]
  · rename_i right
    rw [right]
    split <;> rename_i found <;> rw [found]

theorem agree_stripped (merges : Span.MergeStable R) (h : AllAlike R tokens tokens') :
    Agree (Located.Alike R) (AllAlike R) (stripped tokens) (stripped tokens') := by
  induction size : tokens.length using Nat.strongRecOn generalizing tokens tokens' with
  | ind length ih =>
    subst size
    have wrong := Unmatched.rel_error? (Unmatched.alike_ofTokens h)
    have inner := rel_enclosed? h
    rw [stripped_eq, stripped_eq]
    generalize (Unmatched.ofTokens tokens).error? = e at wrong
    generalize (Unmatched.ofTokens tokens').error? = e' at wrong
    cases wrong with
    | some alike => exact .error alike
    | none =>
      cases found : enclosed? tokens <;> cases found' : enclosed? tokens' <;>
        rw [found, found'] at inner <;> cases inner
      · exact .ok h
      · rename_i alike
        cases alike with
        | nil =>
          refine .error ⟨rfl, spanOf_related merges h ?_⟩
          rintro rfl
          cases found
        | cons first rest => exact ih _ (length_enclosed? found) (.cons first rest) rfl

end Brackets

namespace Cut

structure Alike (R : Span → Span → Prop) (cut cut' : Cut) : Prop where
  before : AllAlike R cut.before cut'.before
  operator : cut.operator.Alike R cut'.operator
  after : AllAlike R cut.after cut'.after

theorem Alike.cons {cut cut' : Cut} (h : cut.Alike R cut') (same : t.Alike R t') :
    (cut.cons t).Alike R (cut'.cons t') :=
  ⟨.cons same h.before, h.operator, h.after⟩

theorem rel_loosest (h : AllAlike R tokens tokens') (depth : Int) :
    Option.Rel (Alike R) (loosest depth tokens) (loosest depth tokens') := by
  induction h generalizing depth with
  | nil => exact .none
  | @cons first first' rest rest' same others ih =>
    have later := ih (first'.depthAfter depth)
    rw [loosest, loosest, same.depthAfter]
    generalize loosest (first'.depthAfter depth) rest = found at later
    generalize loosest (first'.depthAfter depth) rest' = found' at later
    cases later with
    | none =>
      simp only [same.isCuttable]
      split
      · exact .some ⟨.nil, same, others⟩
      · exact .none
    | some later =>
      simp only [same.isCuttable, same.level, later.operator.level]
      split
      · exact .some ⟨.nil, same, others⟩
      · exact .some (later.cons same)

theorem rel_candidate? (h : AllAlike R tokens tokens') :
    Option.Rel (Alike R) (candidate? tokens) (candidate? tokens') := by
  cases h with
  | nil => exact .none
  | @cons first first' rest rest' same others =>
    have later := rel_loosest others (first'.depthAfter 0)
    rw [candidate?, candidate?, same.depthAfter]
    generalize loosest (first'.depthAfter 0) rest = found at later
    generalize loosest (first'.depthAfter 0) rest' = found' at later
    cases later with
    | none => exact .none
    | some later => exact .some (later.cons same)

theorem agree_settled {cut cut' : Cut} (h : cut.Alike R cut') :
    Agree (Located.Alike R) (Alike R) cut.settled cut'.settled := by
  have last := rel_getLast? h.before
  unfold settled
  generalize cut.before.getLast? = previous at last
  generalize cut'.before.getLast? = previous' at last
  cases last with
  | none => exact .ok h
  | some previous =>
    simp only [previous.isArithmetic, h.operator.isSign]
    split
    · split
      · exact .ok ⟨rel_dropLast h.before, previous, .cons h.operator h.after⟩
      · exact .error ⟨rfl, h.operator.span⟩
    · exact .ok h

theorem agree_select (merges : Span.MergeStable R) (h : AllAlike R tokens tokens')
    (nonempty : tokens ≠ []) :
    Agree (Located.Alike R) (Alike R) (select tokens) (select tokens') := by
  have candidate := rel_candidate? h
  unfold select
  generalize candidate? tokens = cut at candidate
  generalize candidate? tokens' = cut' at candidate
  cases candidate with
  | none => exact .error ⟨rfl, spanOf_related merges h nonempty⟩
  | some alike => exact agree_settled alike

end Cut

namespace Expr

abbrev Alike (R : Span → Span → Prop) : Expr → Expr → Prop := Tree.Alike (Token.Alike R)

theorem alike_leaf (h : t.Alike R t') : Alike R (.leaf t) (.leaf t') := .node h .nil .nil

theorem agree_ofValue (h : t.Alike R t') :
    Agree (Located.Alike R) (Alike R) (ofValue t) (ofValue t') := by
  unfold ofValue
  rw [h.kind]
  cases t'.kind with
  | number | identifier => exact .ok (alike_leaf h)
  | operator | opening | closing => exact .error ⟨rfl, h.span⟩

theorem agree_magnitude (h : t.Alike R t') :
    Agree (Located.Alike R) Eq (ofSigned.magnitude t) (ofSigned.magnitude t') := by
  unfold ofSigned.magnitude
  rw [h.kind, h.number]
  split
  · exact .ok rfl
  · exact .error ⟨rfl, h.span⟩

theorem agree_ofSigned (merges : Span.MergeStable R) {sign sign' : Token} (h : sign.Alike R sign')
    (operand : t.Alike R t') :
    Agree (Located.Alike R) (Alike R) (ofSigned sign t) (ofSigned sign' t') := by
  unfold ofSigned
  rw [h.kind]
  split
  · exact (agree_magnitude operand).map fun _ _ _ => alike_leaf operand
  · refine (agree_magnitude operand).map ?_
    rintro value _ rfl
    exact alike_leaf ⟨rfl, rfl, rfl, merges h.span operand.span⟩
  · exact .error ⟨rfl, h.span⟩

theorem agree_ofCut {cut cut' : Cut} (h : cut.Alike R cut')
    (before : cut.before ≠ [] → Agree (Located.Alike R) (Alike R) (parse cut.before)
      (parse cut'.before))
    (after : cut.after ≠ [] → Agree (Located.Alike R) (Alike R) (parse cut.after)
      (parse cut'.after)) :
    Agree (Located.Alike R) (Alike R) (ofCut cut) (ofCut cut') := by
  have leftEmpty := eq_nil_iff h.before
  have rightEmpty := eq_nil_iff h.after
  simp only [ofCut, List.isEmpty_iff, leftEmpty, rightEmpty]
  split
  · exact .error ⟨rfl, h.operator.span⟩
  · rename_i left
    split
    · exact .error ⟨rfl, h.operator.span⟩
    · rename_i right
      refine (before (mt leftEmpty.1 left)).bind fun first first' _ sameFirst => ?_
      refine (after (mt rightEmpty.1 right)).bind fun second second' _ sameSecond => ?_
      exact .ok (.node h.operator sameFirst sameSecond)

/-- Parsing sees no spans: it makes the same tree of both lists, or has the same complaint. -/
theorem agree_parse (merges : Span.MergeStable R) (h : AllAlike R tokens tokens')
    (nonempty : tokens ≠ []) :
    Agree (Located.Alike R) (Alike R) (parse tokens) (parse tokens') := by
  induction size : tokens.length using Nat.strongRecOn generalizing tokens tokens' with
  | ind length ih =>
    subst size
    rw [parse_eq, parse_eq]
    refine (agree_stripped merges h).bind fun slice slice' bare alike => ?_
    have short := length_stripped bare
    have present := stripped_ne_nil bare nonempty
    match alike with
    | .nil => exact absurd rfl present
    | .cons value .nil => exact agree_ofValue value
    | .cons sign (.cons operand .nil) => exact agree_ofSigned merges sign operand
    | .cons first (.cons second (.cons third rest)) =>
      have long := List.Forall₂.cons first (.cons second (.cons third rest))
      refine (Cut.agree_select merges long present).bind fun cut cut' selected same => ?_
      have total := Cut.length_of_select selected
      exact agree_ofCut same (fun left => ih _ (by omega) same.before left rfl)
        (fun right => ih _ (by omega) same.after right rfl)

end Expr

end Reckoner

import Reckoner.Proofs.Evaluation.Environment
import Reckoner.Proofs.Grammar.Labels

/-!
# Evaluation uses spans as labels only

Two parsed expressions that differ in their spans alone evaluate to one binding or one fault, or to
errors with one cause, at places that are related as the spans of the tokens are.
-/

set_option autoImplicit false

namespace Reckoner

inductive Failure.Alike {Error : Type} (E : Error → Error → Prop) :
    Failure Error → Failure Error → Prop where
  | error {e e' : Error} : E e e' → Alike E (.error e) (.error e')
  | fault (fault : Fault) : Alike E (.fault fault) (.fault fault)

theorem Tree.Alike.eq_nil_iff {α : Type} {V : α → α → Prop} {t t' : Tree α} (h : t.Alike V t') :
    t = .nil ↔ t' = .nil := by
  cases h <;> simp

namespace Expr

variable {R : Span → Span → Prop} {pool : Pool}

abbrev Agrees {Value : Type} (R : Span → Span → Prop) :
    Except (Failure EvalError) Value → Except (Failure EvalError) Value → Prop :=
  Agree (Failure.Alike (Located.Alike R)) Eq

theorem agrees_failAt {Value : Type} (cause : EvalCause) {s s' : Span} (h : R s s') :
    Agrees R (failAt cause s : Except (Failure EvalError) Value) (failAt cause s') :=
  .error (.error ⟨rfl, h⟩)

theorem agrees_divided (op : Operator) (dividend divisor : Float) :
    Agrees R (divided op dividend divisor) (divided op dividend divisor) := by
  cases result : divided op dividend divisor with
  | ok value => exact .ok rfl
  | error failure =>
    cases failure with
    | error e => exact absurd result divided_ne_error
    | fault fault => exact .error (.fault fault)

theorem agrees_leftFirst (combine : Float → Float → Float)
    {left left' right right' : Except (Failure EvalError) Float} (first : Agrees R left left')
    (second : Agrees R right right') :
    Agrees R (leftFirst combine left right) (leftFirst combine left' right') := by
  refine first.bind ?_
  rintro value _ _ rfl
  refine second.bind ?_
  rintro value' _ _ rfl
  exact .ok rfl

theorem agrees_divisorFirst {token token' : Token} (h : token.Alike R token') (op : Operator)
    {dividend dividend' divisor divisor' : Except (Failure EvalError) Float}
    (first : Agrees R divisor divisor') (second : Agrees R dividend dividend') :
    Agrees R (divisorFirst token op dividend divisor)
      (divisorFirst token' op dividend' divisor') := by
  refine first.bind ?_
  rintro below _ _ rfl
  split
  · exact agrees_failAt .dividedByZero h.span
  · refine second.bind ?_
    rintro above _ _ rfl
    exact agrees_divided op above below

theorem agrees_valueIn {tree tree' : Expr} (shape : tree.WellShaped) (h : tree.Alike R tree') :
    Agrees R (valueIn pool tree) (valueIn pool tree') := by
  induction shape generalizing tree' with
  | @value token kind =>
    cases h with
    | node same left right =>
      rw [same.kind] at kind
      rcases kind with kind | kind <;>
        simp only [Tree.leaf, valueIn, same.kind, same.lexeme, same.number, kind] <;> split
      · exact .ok rfl
      · exact agrees_failAt _ same.span
      · exact .ok rfl
      · exact agrees_failAt _ same.span
  | @operation operator left right isOperator shapeLeft shapeRight ihLeft ihRight =>
    cases h with
    | @node _ operator' _ left' _ right' same alikeLeft alikeRight =>
      have complete : ¬ (left = .nil ∨ right = .nil) :=
        not_or.2 ⟨shapeLeft.ne_nil, shapeRight.ne_nil⟩
      have complete' : ¬ (left' = .nil ∨ right' = .nil) := by
        rwa [alikeLeft.eq_nil_iff, alikeRight.eq_nil_iff] at complete
      obtain ⟨op, known⟩ := Option.isSome_iff_exists.1 isOperator
      have kind : operator.kind = .operator op := by
        unfold Token.operator? at known
        split at known <;> cases known
        assumption
      have kind' : operator'.kind = .operator op := same.kind.symm.trans kind
      have first := ihLeft alikeLeft
      have second := ihRight alikeRight
      rw [valueIn, valueIn, kind, kind']
      cases op with
      | equal => exact agrees_failAt .nestedAssignment same.span
      | plus | minus | star =>
        simp only [if_neg complete, if_neg complete']
        exact agrees_leftFirst _ first second
      | slash | percent =>
        simp only [if_neg complete, if_neg complete']
        exact agrees_divisorFirst same _ second first

theorem agrees_valueOf {tree tree' : Expr} (shape : tree.WellShaped) (h : tree.Alike R tree') :
    Agrees R (valueOf pool tree) (valueOf pool tree') := by
  have present := shape.ne_nil
  rw [valueOf_eq_valueIn, valueOf_eq_valueIn, if_neg present, if_neg (mt h.eq_nil_iff.2 present)]
  exact agrees_valueIn shape h

theorem agrees_target {root root' : Token} {left left' : Expr} (shape : left.WellShaped)
    (h : left.Alike R left') : Agrees R (target root left) (target root' left') := by
  cases h with
  | nil => exact absurd rfl shape.ne_nil
  | node same below beside =>
    simp only [target, same.kind, same.lexeme, Tree.isNil_iff, below.eq_nil_iff, beside.eq_nil_iff]
    split
    · exact .ok rfl
    · exact agrees_failAt _ same.span

/-- What a parsed expression evaluates to does not depend on spans, but for where errors stand. -/
theorem agrees_evaluate {tree tree' : Expr} (shape : tree.WellShaped) (h : tree.Alike R tree') :
    Agrees R (evaluate pool tree).result (evaluate pool tree').result := by
  cases h with
  | nil => exact absurd rfl shape.ne_nil
  | @node root root' left left' right right' same alikeLeft alikeRight =>
    by_cases assigns : root.kind = .operator .equal
    · obtain ⟨shapeLeft, shapeRight⟩ := shape.operands (by simp [Token.operator?, assigns])
      rw [evaluate_of_equal assigns, evaluate_of_equal (same.kind ▸ assigns)]
      refine (agrees_valueOf shapeRight alikeRight).bind ?_
      rintro value _ _ rfl
      refine (agrees_target shapeLeft alikeLeft).map ?_
      rintro name _ rfl
      rfl
    · cases plain : isPlain root.kind with
      | true =>
        rw [evaluate_of_isPlain plain, evaluate_of_isPlain (same.kind ▸ plain)]
        refine (agrees_valueOf shape (.node same alikeLeft alikeRight)).map ?_
        rintro value _ rfl
        rfl
      | false =>
        rw [evaluate_of_not_isPlain assigns plain,
          evaluate_of_not_isPlain (same.kind ▸ assigns) (same.kind ▸ plain)]
        exact agrees_failAt _ same.span

end Expr

end Reckoner

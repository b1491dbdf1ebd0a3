import Reckoner.Proofs.Evaluation.Operations
import Reckoner.Proofs.Grammar.Shape

/-!
# Where evaluation errors stand

An error of an evaluation stands at a token of the tree, if no part of the tree is missing.
-/

set_option autoImplicit false

namespace Reckoner

namespace Token

@[simp] theorem span_substitute (pool : Pool) (t : Token) : (t.substitute pool).span = t.span := by
  unfold Token.substitute
  split <;> rfl

end Token

namespace Expr

def places (tree : Expr) : List Span := (tree.values .inorder).map Token.span

@[simp] theorem places_node (token : Token) (left right : Expr) :
    places (.node token left right) = left.places ++ token.span :: right.places := by
  simp [places, Tree.values, Order.arrange]

@[simp] theorem places_substitute (pool : Pool) (tree : Expr) :
    (substitute pool tree).places = tree.places := by
  rw [places, substitute, Tree.values_map, List.map_map, places]
  exact List.map_congr_left fun token _ => token.span_substitute pool

theorem place_mem_places {tree : Expr} (present : tree ≠ .nil) : tree.place ∈ tree.places := by
  cases tree with
  | nil => exact absurd rfl present
  | node token left right => simp [place]

theorem places_earlier_subset {op : Operator} {token : Token} {left right : Expr} :
    (earlier op left right).places ⊆ places (.node token left right) := by
  intro span inside
  unfold earlier at inside
  split at inside <;> simp [inside]

theorem places_later_subset {op : Operator} {token : Token} {left right : Expr} :
    (later op left right).places ⊆ places (.node token left right) := by
  intro span inside
  unfold later at inside
  split at inside <;> simp [inside]

theorem combined_ne_error {op : Operator} {first second : Float} {e : EvalError} :
    combined op first second ≠ .error (.error e) := by
  cases op with
  | plus | minus | star => simp [combined]
  | slash | percent | equal =>
    rw [combined]
    exact divided_ne_error

theorem Operation.earlier_ne_nil {token : Token} {op : Operator} {left right : Expr}
    (h : Operation token op left right) : earlier op left right ≠ .nil := by
  unfold earlier
  split
  · exact h.right_ne_nil
  · exact h.left_ne_nil

theorem Operation.later_ne_nil {token : Token} {op : Operator} {left right : Expr}
    (h : Operation token op left right) : later op left right ≠ .nil := by
  unfold later
  split
  · exact h.left_ne_nil
  · exact h.right_ne_nil

theorem mem_places_of_calculate {tree : Expr} {e : EvalError} (present : tree ≠ .nil)
    (h : tree.calculate = .error (.error e)) : e.span ∈ tree.places := by
  induction tree using operation_induction with
  | simple tree simple =>
    rcases calculate_of_not_operation simple with ⟨value, computed⟩ | ⟨cause, computed⟩
    · simp [computed] at h
    · rw [computed] at h
      obtain rfl := failAt_eq_error_iff.1 h
      exact place_mem_places present
  | operation token op left right known ihEarlier ihLater =>
    rw [calculate_operation known, bind_eq_error_iff] at h
    rcases h with first | ⟨value, _, second⟩
    · exact places_earlier_subset (ihEarlier known.earlier_ne_nil first)
    · split at second
      · obtain rfl := failAt_eq_error_iff.1 second
        simp
      · rcases bind_eq_error_iff.1 second with second | ⟨_, _, both⟩
        · exact places_later_subset (ihLater known.later_ne_nil second)
        · exact absurd both combined_ne_error

theorem mem_places_of_valueOf {pool : Pool} {tree : Expr} {e : EvalError} (present : tree ≠ .nil)
    (h : valueOf pool tree = .error (.error e)) : e.span ∈ tree.places := by
  cases tree with
  | nil => exact absurd rfl present
  | node root left right =>
    have failed : (substitute pool (.node root left right)).calculate = .error (.error e) := h
    have reported := mem_places_of_calculate (by simp [substitute, Tree.map]) failed
    rw [places_substitute] at reported
    exact reported

theorem mem_places_of_target {root : Token} {left right : Expr} {e : EvalError}
    (h : target root left = .error (.error e)) : e.span ∈ places (.node root left right) := by
  cases left with
  | nil =>
    obtain rfl := failAt_eq_error_iff.1 h
    simp
  | node token first second =>
    rw [target] at h
    split at h
    · cases h
    · obtain rfl := failAt_eq_error_iff.1 h
      simp

theorem mem_places_of_evaluate {pool : Pool} {tree : Expr} {e : EvalError}
    (shape : tree.WellShaped) (h : (evaluate pool tree).result = .error (.error e)) :
    e.span ∈ tree.places := by
  cases tree with
  | nil => exact absurd rfl shape.ne_nil
  | node root left right =>
    by_cases assigns : root.kind = .operator .equal
    · have operands := shape.operands (by simp [Token.operator?, assigns])
      rw [evaluate_of_equal assigns, bind_eq_error_iff] at h
      rcases h with value | ⟨_, _, unnamed⟩
      · have inside := mem_places_of_valueOf operands.2.ne_nil value
        simp [inside]
      · rw [map_eq_error_iff] at unnamed
        exact mem_places_of_target unnamed
    · cases plain : isPlain root.kind with
      | true =>
        rw [evaluate_of_isPlain plain, map_eq_error_iff] at h
        exact mem_places_of_valueOf shape.ne_nil h
      | false =>
        rw [evaluate_of_not_isPlain assigns plain] at h
        obtain rfl := failAt_eq_error_iff.1 h
        simp

end Expr

end Reckoner

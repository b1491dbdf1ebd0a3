import Mathlib.Data.List.Basic
import Reckoner.Expression.Evaluate

/-!
# What an expression reads

Evaluation asks the pool for the names in the expression and for no others. So two pools that agree
on these names give one evaluation, down to the tree after substitution and to the substitutions.
-/

set_option autoImplicit false

namespace Reckoner

def Pool.AgreeAt (p q : Pool) (name : String) : Prop := p.get? name = q.get? name

theorem Tree.map_congr {α β : Type} {f g : α → β} {t : Tree α}
    (h : ∀ value ∈ t.values .preorder, f value = g value) : t.map f = t.map g := by
  induction t with
  | nil => rfl
  | node value left right ihLeft ihRight =>
    simp only [values, Order.arrange, List.mem_append, List.mem_singleton] at h
    have below := ihLeft fun inner inside => h inner (.inl (.inr inside))
    have beside := ihRight fun inner inside => h inner (.inr inside)
    rw [map, map, h value (.inl (.inl rfl)), below, beside]

namespace Token

variable {p q : Pool} {token : Token}

theorem binding?_congr (h : token.kind = .identifier → p.AgreeAt q token.lexeme) :
    token.binding? p = token.binding? q := by
  unfold binding?
  split
  · rw [h ‹_›]
  · rfl

theorem substitute_congr (h : token.kind = .identifier → p.AgreeAt q token.lexeme) :
    token.substitute p = token.substitute q := by
  rw [substitute, substitute, binding?_congr h]

end Token

namespace Expr

def names (tree : Expr) : List String :=
  ((tree.values .preorder).filter (·.kind = .identifier)).map Token.lexeme

/-- The names that an expression reads: all of them, but for a single name that it assigns to. -/
def reads (tree : Expr) : List String :=
  match tree with
  | .node ⟨.operator .equal, _, _, _⟩ (.node ⟨.identifier, _, _, _⟩ .nil .nil) right => names right
  | _ => names tree

variable {p q : Pool} {tree left right : Expr} {root token : Token}

theorem mem_names (inside : token ∈ tree.values .preorder) (named : token.kind = .identifier) :
    token.lexeme ∈ names tree := by
  apply List.mem_map_of_mem
  exact List.mem_filter.2 ⟨inside, by simpa using named⟩

theorem names_subset_of_right : names right ⊆ names (.node root left right) := by
  intro name inside
  obtain ⟨token, found, rfl⟩ := List.mem_map.1 inside
  obtain ⟨inRight, named⟩ := List.mem_filter.1 found
  apply mem_names
  · simp [Tree.values, Order.arrange, inRight]
  · simpa using named

/-- What stands on the right of an assignment is read, whatever stands on its left. -/
theorem names_subset_reads : names right ⊆ reads (.node root left right) := by
  unfold reads
  split
  · rename_i same
    cases same
    exact List.Subset.refl _
  · exact names_subset_of_right

theorem reads_of_ne_equal (plain : root.kind ≠ .operator .equal) :
    reads (.node root left right) = names (.node root left right) := by
  unfold reads
  split
  · rename_i same
    cases same
    exact absurd rfl plain
  · rfl

theorem substitute_congr (h : ∀ name ∈ names tree, p.AgreeAt q name) :
    substitute p tree = substitute q tree := by
  apply Tree.map_congr
  intro token inside
  exact Token.substitute_congr fun named => h _ (mem_names inside named)

theorem substitutions_congr (h : ∀ name ∈ names tree, p.AgreeAt q name) :
    substitutions p tree = substitutions q tree := by
  apply List.filterMap_congr
  intro token inside
  exact Token.binding?_congr fun named => h _ (mem_names inside named)

theorem valueOf_congr (h : ∀ name ∈ names tree, p.AgreeAt q name) :
    valueOf p tree = valueOf q tree := by
  cases tree with
  | nil => rfl
  | node root left right =>
    have same := congrArg calculate (substitute_congr h)
    exact same

theorem evaluate_congr (h : ∀ name ∈ reads tree, p.AgreeAt q name) :
    evaluate p tree = evaluate q tree := by
  cases tree with
  | nil => rfl
  | node root left right =>
    by_cases assigns : root.kind = .operator .equal
    · have agree : ∀ name ∈ names right, p.AgreeAt q name := by
        intro name inside
        exact h name (names_subset_reads inside)
      simp only [evaluate, assigns, substitute_congr agree, substitutions_congr agree,
        valueOf_congr agree]
    · rw [reads_of_ne_equal assigns] at h
      simp only [evaluate, substitute_congr h, substitutions_congr h, valueOf_congr h]
      split
      · exact absurd ‹_› assigns
      all_goals rfl

end Expr

end Reckoner

import Reckoner.Proofs.Evaluation.Admissible
import Reckoner.Proofs.Evaluation.Substitution
import Reckoner.Proofs.Grammar.Labels

/-!
# A tree that has been evaluated

Evaluation leaves the numbers of its pool in the tree. A calculation that has succeeded has come to no
name without a value, and so the rewritten tree has that value in any other pool as well, whatever that
pool makes of names in parts that are never computed.
-/

set_option autoImplicit false

namespace Reckoner

def Pool.Extends (extension pool : Pool) : Prop :=
  ∀ (name : String) (value : Float), pool.get? name = some value → extension.get? name = some value

theorem Pool.Unites.extends {union p q : Pool} (h : union.Unites p q) : union.Extends p := by
  intro name value bound
  rw [h name, bound, Option.some_or]

/-- What evaluation makes of a token: a name that the pool binds has become a number with the bound
value, at the same span. Every other token is as it was. -/
inductive Token.Replaced (pool : Pool) : Token → Token → Prop where
  | bound {t : Token} {value : Float} : t.kind = .identifier → pool.get? t.lexeme = some value →
    Replaced pool t ⟨.number, Number.brief value, t.span, some value⟩
  | kept {t : Token} : (t.kind = .identifier → pool.get? t.lexeme = none) → Replaced pool t t

theorem Token.replaced_substitute (pool : Pool) (t : Token) : t.Replaced pool (t.substitute pool) := by
  by_cases named : t.kind = .identifier
  · cases bound : pool.get? t.lexeme with
    | some value =>
      rw [substitute_of_bound named bound]
      exact .bound named bound
    | none =>
      rw [substitute_of_unbound bound]
      exact .kept fun _ => bound
  · rw [substitute_of_not_identifier pool named]
    exact .kept fun identifier => absurd identifier named

theorem Tree.alike_map {α : Type} {V : α → α → Prop} {f : α → α} (h : ∀ value : α, V value (f value))
    (t : Tree α) : t.Alike V (t.map f) := by
  induction t with
  | nil => exact .nil
  | node value left right ihLeft ihRight => exact .node (h value) ihLeft ihRight

namespace Expr

variable {p q extension : Pool} {tree left right : Expr} {root : Token} {value : Float}

/-- Names are replaced in the evaluated part: on the right side of an assignment, whose root and left
side are untouched, and in all of any other tree. -/
inductive SettledBy (pool : Pool) : Expr → Expr → Prop where
  | assignment {root : Token} {left right right' : Expr} : root.kind = .operator .equal →
    Tree.Alike (Token.Replaced pool) right right' →
    SettledBy pool (.node root left right) (.node root left right')
  | whole {root : Token} {left right tree' : Expr} : root.kind ≠ .operator .equal →
    Tree.Alike (Token.Replaced pool) (.node root left right) tree' →
    SettledBy pool (.node root left right) tree'

/-- A value that has been found once does not depend on further bindings. -/
theorem valueIn_of_extends (h : extension.Extends p) (computed : valueIn p tree = .ok value) :
    valueIn extension tree = .ok value := by
  induction tree generalizing value with
  | nil => exact computed
  | node token left right ihLeft ihRight =>
    cases kind : token.kind with
    | number | opening | closing =>
      rw [valueIn, kind] at computed ⊢
      exact computed
    | identifier =>
      rw [valueIn, kind] at computed ⊢
      cases bound : p.get? token.lexeme with
      | some stored =>
        simp only [bound] at computed
        simp only [h _ _ bound]
        exact computed
      | none => simp [bound, failAt] at computed
    | operator op =>
      obtain ⟨_, ⟨x, first⟩, y, second⟩ :=
        operands_of_valueIn (by simp [Token.operator?, kind]) computed
      rw [valueIn, kind, first, second] at computed
      rw [valueIn, kind, ihLeft first, ihRight second]
      cases op <;> exact computed

theorem valueIn_substitute (p q : Pool) (tree : Expr) :
    valueIn q (substitute p tree) = valueIn (p.overlay q) tree := by
  rw [← calculate_substitute, substitute_substitute (p.unites_overlay q), calculate_substitute]

theorem valueOf_substitute (computed : valueOf p tree = .ok value) :
    valueOf q (substitute p tree) = .ok value := by
  rw [valueOf_eq_valueIn] at computed ⊢
  cases tree with
  | nil => simp [failAt] at computed
  | node root left right =>
    rw [if_neg (by simp)] at computed
    rw [if_neg (by simp [substitute, Tree.map]), valueIn_substitute]
    exact valueIn_of_extends (p.unites_overlay q).extends computed

theorem isPlain_substitute (plain : isPlain root.kind = true) :
    isPlain (root.substitute p).kind = true := by
  have replaced := Token.replaced_substitute p root
  generalize root.substitute p = changed at replaced ⊢
  cases replaced with
  | bound => rfl
  | kept => exact plain

theorem root_of_evaluate {binding : Binding}
    (h : (evaluate p (.node root left right)).result = .ok binding) :
    root.kind = .operator .equal ∨ isPlain root.kind = true := by
  by_cases assigns : root.kind = .operator .equal
  · exact .inl assigns
  · cases plain : isPlain root.kind with
    | true => exact .inr rfl
    | false => simp [evaluate_of_not_isPlain assigns plain, failAt] at h

theorem result_evaluate_again {binding : Binding} (h : (evaluate p tree).result = .ok binding) :
    (evaluate q (evaluate p tree).tree).result = .ok binding := by
  cases tree with
  | nil => simp [evaluate, failAt] at h
  | node root left right =>
    rcases root_of_evaluate h with assigns | plain
    · rw [evaluate_of_equal assigns] at h
      obtain ⟨value, computed, named⟩ := bind_eq_ok_iff.1 h
      rw [evaluate_assignment assigns, evaluate_of_equal assigns, valueOf_substitute computed]
      exact named
    · rw [evaluate_of_isPlain plain] at h
      obtain ⟨value, computed, named⟩ := map_eq_ok_iff.1 h
      rw [evaluate_whole plain, substitute_node, evaluate_of_isPlain (isPlain_substitute plain),
        ← substitute_node, valueOf_substitute computed]
      exact congrArg Except.ok named

theorem settledBy_evaluate {binding : Binding} (h : (evaluate p tree).result = .ok binding) :
    tree.SettledBy p (evaluate p tree).tree := by
  cases tree with
  | nil => simp [evaluate, failAt] at h
  | node root left right =>
    rcases root_of_evaluate h with assigns | plain
    · rw [evaluate_assignment assigns]
      exact .assignment assigns (Tree.alike_map (Token.replaced_substitute p) right)
    · rw [evaluate_whole plain]
      exact .whole (ne_equal_of_isPlain plain) (Tree.alike_map (Token.replaced_substitute p) _)

/-- A tree that makes a binding makes it ever after, in any pool: evaluation leaves it with the numbers
of its pool in place of the names that it binds in the evaluated part, and otherwise as it was. -/
theorem evaluated_once_for_all {binding : Binding} (h : (evaluate p tree).result = .ok binding)
    (q : Pool) :
    (evaluate q (evaluate p tree).tree).result = .ok binding ∧
      tree.SettledBy p (evaluate p tree).tree :=
  ⟨result_evaluate_again h, settledBy_evaluate h⟩

/-- The tree of `x = 2 * a`, but with a name below the two, which evaluation passes over. -/
def doubled : Expr :=
  .node ⟨.operator .equal, "=", ⟨2, 3⟩, none⟩ (.leaf (named "x" 0))
    (.node ⟨.operator .star, "*", ⟨6, 7⟩, none⟩ (.node two (.leaf (named "y" 9)) .nil)
      (.leaf (named "a" 8)))
where
  named (name : String) (start : Int) : Token := ⟨.identifier, name, ⟨start, start + 1⟩, none⟩
  two : Token := ⟨.number, "2", ⟨4, 5⟩, some 2.0⟩

/-- The second pool binds the name that the first one has left, and another value to the other. -/
theorem evaluated_once_doubled :
    let p : Pool := ⟨[⟨"a", 3.0⟩, ⟨"x", 1.0⟩]⟩
    let q : Pool := ⟨[⟨"a", 5.0⟩, ⟨"y", 4.0⟩]⟩
    (evaluate p doubled).result = .ok ⟨"x", 6.0⟩ ∧
      (evaluate q doubled).result = .ok ⟨"x", 10.0⟩ ∧
      (evaluate q (evaluate p doubled).tree).result = .ok ⟨"x", 6.0⟩ ∧
      doubled.SettledBy p (evaluate p doubled).tree := by
  intro p q
  have first : (evaluate p doubled).result = .ok ⟨"x", 6.0⟩ := by decide +kernel
  have other : (evaluate q doubled).result = .ok ⟨"x", 10.0⟩ := by decide +kernel
  obtain ⟨again, settled⟩ := evaluated_once_for_all first q
  exact ⟨first, other, again, settled⟩

end Expr

end Reckoner

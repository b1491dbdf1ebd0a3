import Reckoner.Expression.InPlace
import Reckoner.Proofs.Evaluation.Environment
import Reckoner.Proofs.Evaluation.Places
import Reckoner.Proofs.Evaluation.Reads
import Reckoner.Proofs.Forest.Sweep

/-!
# One substitution after another

A number that stands in place of a name is not looked up again, and a name without a value stays for
the next pool. So two substitutions are one, by the pool in which the bindings of the first go before
those of the second. It is the same where the tree of a store is rewritten node by node.
-/

set_option autoImplicit false

namespace Reckoner

namespace Pool

/-- Every name is bound as in the first pool, or as in the second if the first does not bind it. -/
def Unites (union first second : Pool) : Prop :=
  ∀ name : String, union.get? name = (first.get? name).or (second.get? name)

/-- The second pool with all bindings of the first put into it. -/
def overlay (first second : Pool) : Pool := first.bindings.foldr (fun b pool => pool.insert b) second

theorem unites_overlay (first second : Pool) : (first.overlay second).Unites first second := by
  obtain ⟨bindings⟩ := first
  intro name
  induction bindings with
  | nil => rfl
  | cons b bindings ih =>
    have inserted : overlay ⟨b :: bindings⟩ second = (overlay ⟨bindings⟩ second).insert b := rfl
    rw [inserted, get?_insert, ih]
    by_cases here : b.name = name
    · simp [get?, here]
    · simp [get?, here]

theorem unites_self (pool : Pool) : pool.Unites pool pool := by
  intro name
  rw [Option.or_self]

def Disjoint (first second : Pool) : Prop :=
  ∀ name : String, first.get? name = none ∨ second.get? name = none

theorem Unites.swap {union first second : Pool} (h : union.Unites first second)
    (disjoint : first.Disjoint second) : union.Unites second first := by
  intro name
  rw [h name]
  rcases disjoint name with free | free
  · rw [free, Option.none_or, Option.or_none]
  · rw [free, Option.none_or, Option.or_none]

end Pool

variable {p q union : Pool}

/-- The number that the first pool puts in stays, and a name that it leaves is the second pool's. -/
theorem Token.substitute_substitute (h : union.Unites p q) (t : Token) :
    (t.substitute p).substitute q = t.substitute union := by
  by_cases named : t.kind = .identifier
  · cases bound : p.get? t.lexeme with
    | some value =>
      have also : union.get? t.lexeme = some value := by rw [h, bound, Option.some_or]
      rw [substitute_of_bound named bound, substitute_of_bound named also]
      apply substitute_of_not_identifier
      simp [ofNumber]
    | none =>
      have agree : q.AgreeAt union t.lexeme := by rw [Pool.AgreeAt, h, bound, Option.none_or]
      rw [substitute_of_unbound bound]
      exact substitute_congr fun _ => agree
  · rw [substitute_of_not_identifier p named, substitute_of_not_identifier q named,
      substitute_of_not_identifier union named]

theorem Tree.map_map {α β γ : Type} (f : α → β) (g : β → γ) (t : Tree α) :
    (t.map f).map g = t.map (g ∘ f) := by
  induction t with
  | nil => rfl
  | node value left right ihLeft ihRight =>
    rw [map, map, map, ihLeft, ihRight]
    rfl

namespace Expr

theorem substitute_substitute (h : union.Unites p q) (tree : Expr) :
    substitute q (substitute p tree) = substitute union tree := by
  have each : Token.substitute q ∘ Token.substitute p = Token.substitute union :=
    funext (Token.substitute_substitute h)
  rw [substitute, substitute, Tree.map_map, each]
  rfl

theorem map_span_substitute (p : Pool) (tree : Expr) :
    (substitute p tree).map Token.span = tree.map Token.span := by
  have each : Token.span ∘ Token.substitute p = Token.span := funext (Token.span_substitute p)
  rw [substitute, Tree.map_map, each]

end Expr

namespace Forest

variable {f : Forest Token} {n : NodeId}

theorem tree_substitute (h : f.IsForest) (present : f.has n = true) (pool : Pool) :
    (f.substitute pool n).tree n = Expr.substitute pool (f.tree n) :=
  h.tree_sweep present .preorder (Token.substitute pool)

theorem substitute_substitute_store (h : f.IsForest) (present : f.has n = true)
    (unites : union.Unites p q) : (f.substitute p n).substitute q n = f.substitute union n := by
  have each : Token.substitute q ∘ Token.substitute p = Token.substitute union :=
    funext (Token.substitute_substitute unites)
  rw [substitute, substitute, h.sweep_sweep present, each]
  rfl

end Forest

namespace Expr

/-- Substitution by one pool and then by another is substitution by both at once, the bindings of the
first before those of the second. So to repeat a substitution changes nothing, and pools without a
common name may change places. Shape and spans stay. Rewriting in the store comes to the same. -/
theorem substitutions_compose (p q : Pool) :
    (∀ union : Pool, union.Unites p q →
      ∀ tree : Expr, substitute q (substitute p tree) = substitute union tree) ∧
      (p.overlay q).Unites p q ∧
      (∀ tree : Expr, substitute p (substitute p tree) = substitute p tree) ∧
      (∀ tree : Expr, (substitute p tree).map Token.span = tree.map Token.span) ∧
      (p.Disjoint q → ∀ tree : Expr,
        substitute q (substitute p tree) = substitute p (substitute q tree)) ∧
      ∀ (f : Forest Token) (n : NodeId), f.IsForest → f.has n = true →
        (f.substitute p n).tree n = substitute p (f.tree n) ∧
          ∀ union : Pool, union.Unites p q →
            (f.substitute p n).substitute q n = f.substitute union n := by
  refine ⟨fun union unites => substitute_substitute unites, p.unites_overlay q,
    substitute_substitute p.unites_self, map_span_substitute p, fun disjoint tree => ?_,
    fun f n forest present => ⟨?_, fun union unites => ?_⟩⟩
  · have unites := p.unites_overlay q
    rw [substitute_substitute unites, substitute_substitute (unites.swap disjoint)]
  · exact Forest.tree_substitute forest present p
  · exact Forest.substitute_substitute_store forest present unites

/-- A name with children, which evaluation would never come to: both pools reach all three names, and
the one that both bind has the first value. -/
theorem substitutions_compose_misshapen :
    let named (name : String) (start : Int) : Token :=
      ⟨.identifier, name, ⟨start, start + 1⟩, none⟩
    let p : Pool := ⟨[⟨"x", 1⟩, ⟨"y", 2⟩]⟩
    let q : Pool := ⟨[⟨"y", 3⟩, ⟨"z", 4⟩]⟩
    (p.overlay q).Unites p q ∧
      substitute q (substitute p (.node (named "x" 0) (.leaf (named "y" 1)) (.leaf (named "z" 2)))) =
        .node (.ofNumber 1 ⟨0, 1⟩) (.leaf (.ofNumber 2 ⟨1, 2⟩)) (.leaf (.ofNumber 4 ⟨2, 3⟩)) := by
  intro named p q
  obtain ⟨compose, unites, _⟩ := substitutions_compose p q
  exact ⟨unites, (compose _ unites _).trans rfl⟩

end Expr

end Reckoner

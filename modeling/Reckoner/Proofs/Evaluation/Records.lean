import Reckoner.Proofs.Calculator.Outcome
import Reckoner.Proofs.Evaluation.Faults
import Reckoner.Proofs.Evaluation.Substitution
import Reckoner.Proofs.Forest.Trees
import Reckoner.Proofs.Grammar.Slices

/-!
# The log mirrors the tree

While a text is read, each cut is recorded; while its tree is evaluated, each substitution is. Both
sets of records follow the tree in preorder: the cuts are its operators, each with its slice, and the
substitutions are the bound names in the part that is evaluated. A walk that rewrites the tree in a
store comes by the names in this order as well.
-/

set_option autoImplicit false

namespace Reckoner

structure Binding.Records (pool : Pool) (b : Binding) (t : Token) : Prop where
  name : b.name = t.lexeme
  value : pool.get? t.lexeme = some b.value

namespace Token

variable {pool : Pool} {t : Token}

def isBound (pool : Pool) (t : Token) : Bool := t.kind = .identifier && pool.contains t.lexeme

/-- The substitution of one token, which is noted if it is one of a bound name. -/
def substituting (pool : Pool) (t : Token) : Traced Binding Fault Token :=
  match t.binding? pool with
  | some b => do
    Traced.note b
    return .ofNumber b.value t.span
  | none => return t

theorem substituting_eq (pool : Pool) (t : Token) :
    t.substituting pool = ⟨(t.binding? pool).toList, .ok (t.substitute pool)⟩ := by
  rw [substituting, substitute]
  cases t.binding? pool <;> rfl

theorem mapM_substituting (pool : Pool) (tokens : List Token) :
    tokens.mapM (substituting pool) =
      ⟨tokens.filterMap (binding? pool), .ok (tokens.map (substitute pool))⟩ := by
  induction tokens with
  | nil => rfl
  | cons t rest ih =>
    rw [List.mapM_cons, substituting_eq, ih, Traced.bind_of_ok _ rfl, Traced.bind_of_ok _ rfl]
    cases found : t.binding? pool with
    | none =>
      rw [List.filterMap_cons_none found]
      simp
    | some b =>
      rw [List.filterMap_cons_some found]
      simp

theorem binding?_of_not_isBound (h : t.isBound pool = false) : t.binding? pool = none := by
  unfold binding?
  split
  · rename_i named
    simpa [isBound, named, Pool.contains] using h
  · rfl

theorem exists_binding?_of_isBound (h : t.isBound pool = true) :
    ∃ b : Binding, t.binding? pool = some b ∧ b.Records pool t := by
  simp only [isBound, Bool.and_eq_true, decide_eq_true_eq, Pool.contains] at h
  obtain ⟨named, bound⟩ := h
  obtain ⟨value, bound⟩ := Option.isSome_iff_exists.1 bound
  exact ⟨⟨t.lexeme, value⟩, by simp [binding?, named, bound], rfl, bound⟩

theorem records_filterMap_binding? (pool : Pool) (tokens : List Token) :
    List.Forall₂ (Binding.Records pool) (tokens.filterMap (binding? pool))
      (tokens.filter (isBound pool)) := by
  induction tokens with
  | nil => exact .nil
  | cons t rest ih =>
    cases bound : t.isBound pool with
    | false =>
      rw [List.filterMap_cons_none (binding?_of_not_isBound bound),
        List.filter_cons_of_neg (by simp [bound])]
      exact ih
    | true =>
      obtain ⟨b, found, records⟩ := exists_binding?_of_isBound bound
      rw [List.filterMap_cons_some found, List.filter_cons_of_pos bound]
      exact .cons records ih

end Token

theorem Forest.IsForest.sweepM_substituting {f : Forest Token} {n : NodeId} (h : f.IsForest)
    (present : f.has n = true) (pool : Pool) :
    f.sweepM .preorder n (Token.substituting pool) =
      ⟨Expr.substitutions pool (f.tree n), .ok (f.substitute pool n)⟩ := by
  rw [Forest.sweepM_eq h present, Token.mapM_substituting, Traced.bind_of_ok _ rfl, Expr.substitutions,
    h.values_tree present, Forest.substitute, h.sweep_eq present]
  simp

namespace Expr

variable {pool : Pool} {text : String} {tokens : List Token} {tree : Expr}

theorem evaluatedPart?_of_wellShaped {root : Token} {left right : Expr}
    (h : WellShaped (.node root left right)) :
    evaluatedPart? (.node root left right) =
      if root.kind = .operator .equal then some right
      else if root.kind = .operator .percent then none
      else some (.node root left right) := by
  by_cases assigns : root.kind = .operator .equal
  · rw [evaluatedPart?, if_pos assigns, if_pos assigns]
  rw [evaluatedPart?, if_neg assigns, if_neg assigns]
  cases h with
  | value kind => rcases kind with kind | kind <;> simp [isPlain, kind]
  | operation isOperator _ _ =>
    cases kind : root.kind with
    | operator op =>
      rw [kind] at assigns
      cases op with
      | equal => exact absurd rfl assigns
      | plus | minus | star | slash | percent => simp [isPlain]
    | number | identifier | opening | closing => simp [Token.operator?, kind] at isOperator

theorem substituted_evaluate (pool : Pool) (tree : Expr) :
    (evaluate pool tree).substituted = match tree.evaluatedPart? with
      | some part => substitutions pool part
      | none => [] := by
  cases tree with
  | nil => rfl
  | node root left right =>
    by_cases assigns : root.kind = .operator .equal
    · rw [evaluate_assignment assigns, evaluatedPart?, if_pos assigns]
    · cases plain : isPlain root.kind with
      | true => rw [evaluate_whole plain, evaluatedPart?, if_neg assigns, if_pos plain]
      | false =>
        rw [evaluate_unsupported assigns plain, evaluatedPart?, if_neg assigns,
          if_neg (by simp [plain])]

theorem trace_ofText (scanned : Token.ofText text = .ok tokens) :
    (ofText text).trace = .tokenized text tokens :: (ofTokens tokens).trace.map .split := by
  rw [ofText, Traced.bind_of_ok _ ((Traced.result_ofExcept _).trans scanned),
    Traced.bind_of_ok _ (Traced.result_note _)]
  rfl

/-- The cuts that are recorded while a text is read are the operators of the tree in preorder, one for
each, with the operator at its index in its slice. The phrase of the text and the tree determine the
slices. The substitutions that are recorded when the tree is evaluated are the bound names of the
evaluated part in preorder, with the values of the pool; that part is the right side of an assignment,
nothing of a remainder, and otherwise the whole tree. To rewrite it in a store by a walk leaves the
same records, wherever in the store it is. -/
theorem log_mirrors_tree (read : (ofText text).result = .ok tree) :
    (∃ (tokens : List Token) (p : Phrase) (slices : Tree (Token × List Token)) (cuts : List Cut),
      Token.ofText text = .ok tokens ∧
        (∀ q : Phrase, q.WellFormed ∧ q.tokens = tokens ↔ q = p) ∧
        (∀ other : Tree (Token × List Token),
          p.Sliced other ∧ other.map Prod.fst = tree ↔ other = slices) ∧
        (ofText text).trace = .tokenized text tokens :: cuts.map .split ∧
        cuts.map (fun cut => (cut.operator, cut.slice)) = Phrase.operations slices ∧
        ∀ cut ∈ cuts, cut.slice[cut.index]? = some cut.operator) ∧
      (∀ (root : Token) (left right : Expr), tree = .node root left right →
        tree.evaluatedPart? =
          if root.kind = .operator .equal then some right
          else if root.kind = .operator .percent then none
          else some tree) ∧
      ∀ pool : Pool, ∃ bindings : List Binding,
        (Formula.calculate ⟨text, tree⟩ pool).trace = bindings.map .substituted ∧
          (tree.evaluatedPart? = none → bindings = []) ∧
          ∀ part : Expr, tree.evaluatedPart? = some part →
            List.Forall₂ (Binding.Records pool) bindings
                ((part.values .preorder).filter (Token.isBound pool)) ∧
              ∀ (f : Forest Token) (n : NodeId), f.IsForest → f.has n = true →
                f.tree n = part →
                ∃ g : Forest Token,
                  f.sweepM .preorder n (Token.substituting pool) = ⟨bindings, .ok g⟩ ∧
                    g.tree n = substitute pool part := by
  obtain ⟨tokens, scanned, parsed⟩ := ofText_eq_ok_iff.1 read
  obtain ⟨p, wf, rfl⟩ := Phrase.exists_of_parse parsed
  obtain ⟨slices, sliced, parsed', noted⟩ := Phrase.exists_slices wf
  have same : slices.map Prod.fst = tree := by
    rw [parse, parsed'] at parsed
    cases parsed
    rfl
  refine ⟨⟨p.tokens, p, slices, (ofTokens p.tokens).trace, scanned, ?_, ?_, trace_ofText scanned,
    noted, fun cut _ => cut.getElem?_index⟩, ?_, fun pool => ?_⟩
  · intro q
    constructor
    · rintro ⟨other, written⟩
      exact Phrase.eq_of_tokens_eq other wf written
    · rintro rfl
      exact ⟨wf, rfl⟩
  · intro other
    constructor
    · rintro ⟨slicedToo, sameToo⟩
      exact slicedToo.unique sliced (sameToo.trans same.symm)
    · rintro rfl
      exact ⟨sliced, same⟩
  · rintro root left right rfl
    exact evaluatedPart?_of_wellShaped ((parse_tokens_eq_ok_iff wf).1 parsed |>.wellShaped wf)
  · refine ⟨(evaluate pool tree).substituted, rfl, ?_, ?_⟩
    · intro nothing
      rw [substituted_evaluate, nothing]
    · intro part taken
      rw [substituted_evaluate, taken]
      refine ⟨Token.records_filterMap_binding? pool _, ?_⟩
      rintro f n forest present rfl
      exact ⟨_, forest.sweepM_substituting present pool, Forest.tree_substitute forest present pool⟩

/-- The tree of `x = (y + 2) * -3`. -/
def scaledSum : Expr :=
  .node ⟨.operator .equal, "=", ⟨2, 3⟩, none⟩ (.leaf ⟨.identifier, "x", ⟨0, 1⟩, none⟩)
    (.node ⟨.operator .star, "*", ⟨12, 13⟩, none⟩
      (.node ⟨.operator .plus, "+", ⟨7, 8⟩, none⟩ (.leaf ⟨.identifier, "y", ⟨5, 6⟩, none⟩)
        (.leaf ⟨.number, "2", ⟨9, 10⟩, some 2.0⟩))
      (.leaf (.ofNumber (-3.0) ⟨14, 16⟩)))

/-- The sign moves the cut of the product to its operator, the brackets are no part of the slice of the
sum, and the bound name on the left side is not replaced. -/
theorem log_mirrors_scaledSum :
    let text := "x = (y + 2) * -3"
    let pool : Pool := ⟨[⟨"x", 1.0⟩, ⟨"y", 4.0⟩]⟩
    (ofText text).result = .ok scaledSum ∧
      (ofText text).trace.tail.map Event.message =
        ["Splitting 'x = (y + 2) * - 3' at <EQUAL>= (index 1)",
          "Splitting '(y + 2) * - 3' at <STAR>* (index 5)",
          "Splitting 'y + 2' at <PLUS>+ (index 1)"] ∧
      (Formula.calculate ⟨text, scaledSum⟩ pool).trace.map Event.message =
        ["Substituting y = 4.0"] ∧
      ∃ (p : Phrase) (slices : Tree (Token × List Token)),
        p.Sliced slices ∧ slices.map Prod.fst = scaledSum ∧
          (Phrase.operations slices).map (fun node => (node.1.lexeme, Layout.ofTokens node.2)) =
            [("=", "x = (y + 2) * - 3"), ("*", "(y + 2) * - 3"), ("+", "y + 2")] := by
  intro text pool
  have read : (ofText text).result = .ok scaledSum := by decide +kernel
  obtain ⟨⟨tokens, p, slices, cuts, _, _, determined, traced, noted, _⟩, _, _⟩ :=
    log_mirrors_tree read
  obtain ⟨sliced, same⟩ := (determined slices).2 rfl
  have written : (ofText text).trace.filterMap (fun
      | .split cut => some (cut.operator.lexeme, Layout.ofTokens cut.slice)
      | _ => none) =
      [("=", "x = (y + 2) * - 3"), ("*", "(y + 2) * - 3"), ("+", "y + 2")] := by decide +kernel
  refine ⟨read, by decide +kernel, by decide +kernel, p, slices, sliced, same, ?_⟩
  rw [traced] at written
  rw [← noted, List.map_map, ← written]
  simp [List.filterMap_map, Function.comp_def]

end Expr

end Reckoner

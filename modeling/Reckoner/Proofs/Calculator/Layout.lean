import Reckoner.Proofs.Evaluation.Labels
import Reckoner.Proofs.Token.Decomposition

/-!
# Layout does not change what a line comes to

Two texts with the same lexemes, whatever blanks stand between them, run alike: they give one binding
and leave one pool, or they fail with one cause, at spans that reach from the same token to the same
token in both texts.
-/

set_option autoImplicit false

namespace Reckoner

namespace Token

def SameLexemes (tokens tokens' : List Token) : Prop :=
  List.Forall₂ (fun t t' => t.kind = t'.kind ∧ t.lexeme = t'.lexeme) tokens tokens'

/-- In each list the span reaches from the start of one token to the end of one that is not before it,
and these are at the same places in both lists. Where there are no tokens, both spans are empty. -/
inductive SameRange (tokens tokens' : List Token) : Span → Span → Prop where
  | range {first last : Nat} (order : first ≤ last) (inside : last < tokens.length)
    (inside' : last < tokens'.length) :
    SameRange tokens tokens' ⟨tokens[first].span.start, tokens[last].span.stop⟩
      ⟨tokens'[first].span.start, tokens'[last].span.stop⟩
  | empty : tokens = [] → tokens' = [] → SameRange tokens tokens' .empty .empty

variable {text text' : String} {tokens tokens' : List Token}

theorem start_le_of_ofText (h : ofText text = .ok tokens) {i j : Nat} (order : i ≤ j)
    (hi : i < tokens.length) (hj : j < tokens.length) :
    tokens[i].span.start ≤ tokens[j].span.start ∧ tokens[i].span.stop ≤ tokens[j].span.stop :=
  start_le_of_le (allAt_ofText h) (pairwise_ofText h) (i := ⟨i, hi⟩) (j := ⟨j, hj⟩) order

theorem mergeStable_sameRange (h : ofText text = .ok tokens) (h' : ofText text' = .ok tokens') :
    Span.MergeStable (SameRange tokens tokens') := by
  intro s s' t t' first second
  cases first with
  | empty none none' =>
    cases second with
    | empty => exact .empty none none'
    | range _ inside => simp [none] at inside
  | @range i j ij inside inside' =>
    cases second with
    | empty none => simp [none] at inside
    | @range k l kl within within' =>
      -- The merged spans start with the earlier first token and stop with the later last one.
      have starts : ∃ (first : Nat) (here : first < tokens.length) (here' : first < tokens'.length),
          first ≤ i ∧ min tokens[i].span.start tokens[k].span.start = tokens[first].span.start ∧
            min tokens'[i].span.start tokens'[k].span.start = tokens'[first].span.start := by
        rcases Nat.le_total i k with order | order
        · exact ⟨i, by omega, by omega, by omega,
            Int.min_eq_left (start_le_of_ofText h order _ _).1,
            Int.min_eq_left (start_le_of_ofText h' order _ _).1⟩
        · exact ⟨k, by omega, by omega, by omega,
            Int.min_eq_right (start_le_of_ofText h order _ _).1,
            Int.min_eq_right (start_le_of_ofText h' order _ _).1⟩
      have stops : ∃ (last : Nat) (here : last < tokens.length) (here' : last < tokens'.length),
          j ≤ last ∧ max tokens[j].span.stop tokens[l].span.stop = tokens[last].span.stop ∧
            max tokens'[j].span.stop tokens'[l].span.stop = tokens'[last].span.stop := by
        rcases Nat.le_total j l with order | order
        · exact ⟨l, by omega, by omega, by omega,
            Int.max_eq_right (start_le_of_ofText h order _ _).2,
            Int.max_eq_right (start_le_of_ofText h' order _ _).2⟩
        · exact ⟨j, by omega, by omega, by omega,
            Int.max_eq_left (start_le_of_ofText h order _ _).2,
            Int.max_eq_left (start_le_of_ofText h' order _ _).2⟩
      obtain ⟨first, _, _, before, start, start'⟩ := starts
      obtain ⟨last, here, here', after, stop, stop'⟩ := stops
      rw [Span.merge, Span.merge, start, start', stop, stop']
      exact .range (by omega) here here'

theorem allAlike_ofText (h : ofText text = .ok tokens) (h' : ofText text' = .ok tokens')
    (same : SameLexemes tokens tokens') : AllAlike (SameRange tokens tokens') tokens tokens' := by
  refine List.forall₂_of_length_eq_of_get same.length_eq fun i inside inside' => ?_
  obtain ⟨kind, lexeme⟩ := same.get inside inside'
  refine ⟨kind, lexeme, ?_, .range (Nat.le_refl i) inside inside'⟩
  rw [(isSpelled_ofText h _ (List.get_mem tokens _)).number,
    (isSpelled_ofText h' _ (List.get_mem tokens' _)).number, kind, lexeme]

end Token

structure FormulaError.Alike (R : Span → Span → Prop) (e e' : FormulaError) : Prop where
  cause : e.cause = e'.cause
  span : R e.span e'.span

namespace Calculator

open Token (SameLexemes SameRange)

variable {text text' : String} {tokens tokens' : List Token}

abbrev SameAnswer (tokens tokens' : List Token) :
    Except (Failure FormulaError) Binding → Except (Failure FormulaError) Binding → Prop :=
  Agree (Failure.Alike (FormulaError.Alike (SameRange tokens tokens'))) Eq

theorem agree_parse_sameRange (h : Token.ofText text = .ok tokens)
    (h' : Token.ofText text' = .ok tokens') (same : SameLexemes tokens tokens') :
    Agree (Located.Alike (SameRange tokens tokens')) (Expr.Alike (SameRange tokens tokens'))
      (Expr.parse tokens) (Expr.parse tokens') := by
  by_cases none : tokens = []
  · have none' := (eq_nil_iff same).1 none
    rw [none, none', Expr.parse_nil]
    exact .error ⟨rfl, .empty rfl rfl⟩
  · exact Expr.agree_parse (Token.mergeStable_sameRange h h') (Token.allAlike_ofText h h' same) none

theorem sameAnswer_outcome (h : Token.ofText text = .ok tokens)
    (h' : Token.ofText text' = .ok tokens') (same : SameLexemes tokens tokens') (c : Calculator) :
    SameAnswer tokens tokens' (c.outcome text).result (c.outcome text').result := by
  rw [result_outcome, result_outcome, Expr.result_ofText, Expr.result_ofText, h, h']
  have parsed : Agree (Failure.Alike (FormulaError.Alike (SameRange tokens tokens')))
      (Expr.Alike (SameRange tokens tokens'))
      (((Expr.parse tokens).mapError (.parsing text)).mapError .error)
      (((Expr.parse tokens').mapError (.parsing text')).mapError .error) := by
    refine ((agree_parse_sameRange h h' same).mapError ?_).mapError fun _ _ => .error
    intro e e' alike
    exact ⟨congrArg Cause.parsing alike.cause, alike.span⟩
  refine parsed.bind fun tree tree' read alike => ?_
  have shape := Expr.wellShaped_of_parse (by simpa using read)
  refine (Expr.agrees_evaluate shape alike).mapError ?_
  rintro _ _ (wrong | fault)
  · exact .error ⟨congrArg Cause.evaluating wrong.cause, wrong.span⟩
  · exact .fault fault

/-- Lines that differ in their layout come to one binding and one pool, or to errors with one cause at
the same range of their tokens. -/
theorem run_of_sameLexemes (h : Token.ofText text = .ok tokens)
    (h' : Token.ofText text' = .ok tokens') (same : SameLexemes tokens tokens') (c : Calculator) :
    SameAnswer tokens tokens' (c.run text).1.result (c.run text').1.result ∧
      (c.run text).2 = (c.run text').2 := by
  have answers := sameAnswer_outcome h h' same c
  refine ⟨answers, ?_⟩
  rw [snd_run, snd_run]
  generalize (c.outcome text).result = result at answers
  generalize (c.outcome text').result = result' at answers
  cases answers with
  | ok same => rw [same]
  | error => rfl

def negatedTarget (minus one equal two : Nat) : List Token :=
  [⟨.operator .minus, "-", Token.spanAt minus 1, none⟩,
    ⟨.number, "1", Token.spanAt one 1, some 1.0⟩,
    ⟨.operator .equal, "=", Token.spanAt equal 1, none⟩,
    ⟨.number, "2", Token.spanAt two 1, some 2.0⟩]

/-- In both layouts the complaint covers the minus and the number after it. -/
theorem run_negatedTarget_relaid :
    Token.ofText "-1 = 2" = .ok (negatedTarget 0 1 3 5) ∧
      Token.ofText " - 1=2" = .ok (negatedTarget 1 3 4 5) ∧
      SameLexemes (negatedTarget 0 1 3 5) (negatedTarget 1 3 4 5) ∧
      (initial.run "-1 = 2").1.result =
        .error (.error ⟨.evaluating .targetNotVariable, ⟨0, 2⟩, "-1 = 2"⟩) ∧
      (initial.run " - 1=2").1.result =
        .error (.error ⟨.evaluating .targetNotVariable, ⟨1, 4⟩, " - 1=2"⟩) ∧
      SameAnswer (negatedTarget 0 1 3 5) (negatedTarget 1 3 4 5) (initial.run "-1 = 2").1.result
        (initial.run " - 1=2").1.result ∧
      (initial.run "-1 = 2").2 = (initial.run " - 1=2").2 := by
  have scanned : Token.ofText "-1 = 2" = .ok (negatedTarget 0 1 3 5) := by decide +kernel
  have scanned' : Token.ofText " - 1=2" = .ok (negatedTarget 1 3 4 5) := by decide +kernel
  have same : SameLexemes (negatedTarget 0 1 3 5) (negatedTarget 1 3 4 5) := by
    simp [SameLexemes, negatedTarget]
  have refused : (initial.run "-1 = 2").1.result =
      .error (.error ⟨.evaluating .targetNotVariable, ⟨0, 2⟩, "-1 = 2"⟩) := by
    rw [fst_run, result_outcome, Expr.result_ofText, Token.ofText]
    decide +kernel
  have refused' : (initial.run " - 1=2").1.result =
      .error (.error ⟨.evaluating .targetNotVariable, ⟨1, 4⟩, " - 1=2"⟩) := by
    rw [fst_run, result_outcome, Expr.result_ofText, Token.ofText]
    decide +kernel
  obtain ⟨answers, pools⟩ := run_of_sameLexemes scanned scanned' same initial
  exact ⟨scanned, scanned', same, refused, refused', answers, pools⟩

end Calculator

end Reckoner

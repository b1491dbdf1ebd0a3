import Reckoner.Proofs.Forest.Growth
import Reckoner.Proofs.Grammar.Content
import Reckoner.Proofs.Grammar.Positions

/-!
# Parsing into a store

`parse` reads a list by positions and puts the nodes of its tree into a store, the operands of an
operator before the operator. It notes the lists for which it is called. Any step of it could halt
without an error of the formula to show for it; the invariant that rules this out is that every list
after the first look at the brackets is properly nested and not empty.
-/

set_option autoImplicit false

namespace Reckoner.Positional

inductive Call where
  | parse (slice : List Token)
  | strip (slice : List Token)
  deriving DecidableEq, Repr

def Call.slice : Call → List Token
  | .parse slice | .strip slice => slice

def Call.IsProper (call : Call) : Prop := call.slice ≠ [] ∧ Nested call.slice

/-- Looks at the brackets of a list and takes off those around it. -/
def strip (tokens : List Token) : Traced Call Halt (List Token) :=
  match _unwrapped : unwrap tokens with
  | .error halt => ⟨[.strip tokens], .error halt⟩
  | .ok none => ⟨[.strip tokens], .ok tokens⟩
  | .ok (some inner) => ⟨.strip tokens :: (strip inner).trace, (strip inner).result⟩
termination_by tokens.length
decreasing_by all_goals exact length_of_unwrap ‹_›

theorem length_of_strip {tokens slice : List Token} (h : (strip tokens).result = .ok slice) :
    slice.length ≤ tokens.length := by
  fun_induction strip tokens with
  | case1 => cases h
  | case2 => cases h; exact Nat.le_refl _
  | case3 tokens inner unwrapped ih =>
    exact Nat.le_trans (ih h) (Nat.le_of_lt (length_of_unwrap unwrapped))

def atom (slice : List Token) : Except Halt Token :=
  if slice.length = 1 then do
    let token ← tokenAt slice 0
    let _ ← (Expr.ofValue token).mapError .error
    return token
  else do
    let sign ← tokenAt slice 0
    let operand ← tokenAt slice 1
    let _ ← (Expr.ofSigned sign operand).mapError .error
    return Phrase.signedToken sign operand

def plantAtom (slice : List Token) (f : Forest Token) :
    Traced Call Halt (NodeId × Forest Token) := do
  let token ← Traced.ofExcept (atom slice)
  return (f.nextId, f.fresh token)

def assemble (f : Forest Token) (operator : Token) (x y : NodeId) :
    Except Refusal (NodeId × Forest Token) := do
  let g ← (f.fresh operator).attach .left f.nextId x
  let h ← g.attach .right f.nextId y
  return (f.nextId, h)

/-- The operands are planted from left to right, then the operator. -/
def plantOperation (operator : Token)
    (left right : Forest Token → Traced Call Halt (NodeId × Forest Token)) (f : Forest Token) :
    Traced Call Halt (NodeId × Forest Token) := do
  let (x, g) ← left f
  let (y, h) ← right g
  Traced.ofExcept ((assemble h operator x y).mapError .refused)

/-- The root of the tree of a list, and the store in which it is. -/
def parse (tokens : List Token) (f : Forest Token) : Traced Call Halt (NodeId × Forest Token) :=
  match _bare : (strip tokens).result with
  | .error halt => ⟨.parse tokens :: (strip tokens).trace, .error halt⟩
  | .ok slice => do
    Traced.noteAll (.parse tokens :: (strip tokens).trace)
    if slice.length = 1 ∨ slice.length = 2 then plantAtom slice f
    else
      match _cut : cutAt slice with
      | .error halt => Traced.fail halt
      | .ok cut => plantOperation cut.operator (parse cut.before) (parse cut.after) f
termination_by tokens.length
decreasing_by
  all_goals
    have := length_of_strip ‹_›
    have := length_of_cutAt ‹_›
    omega

def construct (slice : List Token) (f : Forest Token) :
    Traced Call Halt (NodeId × Forest Token) :=
  if slice.length = 1 ∨ slice.length = 2 then plantAtom slice f
  else
    match cutAt slice with
    | .error halt => Traced.fail halt
    | .ok cut => plantOperation cut.operator (parse cut.before) (parse cut.after) f

theorem parse_eq (tokens : List Token) (f : Forest Token) :
    parse tokens f = match (strip tokens).result with
      | .error halt => ⟨.parse tokens :: (strip tokens).trace, .error halt⟩
      | .ok slice => (Traced.noteAll (.parse tokens :: (strip tokens).trace)) >>= fun _ =>
        construct slice f := by
  rw [parse]
  split
  · rename_i found
    rw [found]
  · rename_i slice found
    rw [found]
    simp only [construct]
    congr 1
    funext _
    split
    · rfl
    · split <;> rename_i cut <;> rw [cut]

section Brackets

variable {tokens : List Token} {f : Forest Token} {e : ParseError}

theorem strip_eq (tokens : List Token) :
    strip tokens = match unwrap tokens with
      | .error halt => ⟨[.strip tokens], .error halt⟩
      | .ok none => ⟨[.strip tokens], .ok tokens⟩
      | .ok (some inner) => ⟨.strip tokens :: (strip inner).trace, (strip inner).result⟩ := by
  rw [strip]
  split <;> rename_i unwrapped <;> rw [unwrapped]

theorem exists_trace_parse (tokens : List Token) (f : Forest Token) :
    ∃ later : List Call, (parse tokens f).trace = .parse tokens :: .strip tokens :: later := by
  have stripped : ∃ later : List Call, (strip tokens).trace = .strip tokens :: later := by
    rw [strip_eq]
    split <;> exact ⟨_, rfl⟩
  obtain ⟨later, stripped⟩ := stripped
  rw [parse_eq, stripped]
  split
  · exact ⟨later, rfl⟩
  · rw [Traced.bind_of_ok _ (Traced.result_noteAll _)]
    exact ⟨_, rfl⟩

theorem parse_of_error? (h : (Unmatched.ofTokens tokens).error? = some e) :
    parse tokens f = ⟨[.parse tokens, .strip tokens], .error (.error e)⟩ := by
  rw [parse_eq, strip_eq, unwrap_of_error? h]

theorem strip_of_nested (h : Nested tokens) (present : tokens ≠ []) :
    (∀ call ∈ (strip tokens).trace, call.IsProper) ∧
      (strip tokens).result = (stripped tokens).mapError .error := by
  have here : (Call.strip tokens).IsProper := ⟨present, h⟩
  fun_induction stripped tokens with
  | case1 tokens e wrong =>
    rw [properlyNested_iff_error?.1 (properlyNested_iff.2 h)] at wrong
    cases wrong
  | case2 tokens _ bare =>
    rw [strip_eq, unwrap_of_nested h present, bare]
    exact ⟨List.forall_mem_singleton.2 here, rfl⟩
  | case3 tokens _ empty =>
    rw [strip_eq, unwrap_of_nested h present, empty]
    exact ⟨List.forall_mem_singleton.2 here, rfl⟩
  | case4 tokens _ first rest enclosed ih =>
    have inner : Nested (first :: rest) :=
      properlyNested_iff.1 (properlyNested_of_enclosed? enclosed)
    have present' : first :: rest ≠ [] := List.cons_ne_nil first rest
    obtain ⟨proper, same⟩ := ih inner present' ⟨present', inner⟩
    rw [strip_eq, unwrap_of_nested h present, enclosed]
    exact ⟨List.forall_mem_cons.2 ⟨here, proper⟩, same⟩

end Brackets

section Operands

variable {slice : List Token} {cut : Cut} {e : ParseError} {halt : Halt}

theorem ofValue_eq_leaf {token : Token} {tree : Expr} (h : Expr.ofValue token = .ok tree) :
    tree = .leaf token := by
  unfold Expr.ofValue at h
  split at h <;> cases h <;> rfl

/-- A leaf is made of one or two tokens without looking for a third. -/
theorem exists_atom (short : slice.length = 1 ∨ slice.length = 2) :
    ∃ leaf : Except ParseError Token,
      atom slice = leaf.mapError .error ∧ Expr.ofSlice slice = leaf.map Tree.leaf := by
  match slice, short with
  | [token], _ =>
    have found : tokenAt [token] 0 = .ok token := rfl
    have one : [token].length = 1 := rfl
    refine ⟨(Expr.ofValue token).map fun _ => token, ?_, ?_⟩
    · rw [atom, if_pos one, found]
      show ((Expr.ofValue token).mapError Halt.error).bind (fun _ => .ok token) = _
      cases Expr.ofValue token <;> rfl
    · rw [Expr.ofSlice]
      cases value : Expr.ofValue token with
      | error e => rfl
      | ok tree =>
        rw [ofValue_eq_leaf value]
        rfl
  | [sign, operand], _ =>
    have foundSign : tokenAt [sign, operand] 0 = .ok sign := rfl
    have foundOperand : tokenAt [sign, operand] 1 = .ok operand := rfl
    refine ⟨(Expr.ofSigned sign operand).map fun _ => Phrase.signedToken sign operand, ?_, ?_⟩
    · rw [atom, if_neg (by simp), foundSign, foundOperand]
      show ((Expr.ofSigned sign operand).mapError Halt.error).bind (fun _ => .ok _) = _
      cases Expr.ofSigned sign operand <;> rfl
    · rw [Expr.ofSlice]
      cases value : Expr.ofSigned sign operand with
      | error e => rfl
      | ok tree =>
        rw [← value, Expr.ofSigned_eq_ok (Expr.wellFormed_of_ofSigned value)]
        rfl

theorem ofSlice_of_long (long : 2 < slice.length) :
    Expr.ofSlice slice = (Cut.select slice).bind Expr.ofCut := by
  match slice, long with
  | _ :: _ :: _ :: _, _ => rfl

theorem complete_eq_ok_iff {complete' : Cut} :
    complete cut = .ok complete' ↔ cut.before ≠ [] ∧ cut.after ≠ [] ∧ cut = complete' := by
  unfold complete
  cases before : cut.before <;> cases after : cut.after <;> simp

theorem ofCut_of_complete_error (h : complete cut = .error e) : Expr.ofCut cut = .error e := by
  unfold complete at h
  split at h
  · rename_i before
    cases h
    rw [Expr.ofCut, if_pos before]
  · rename_i before
    split at h
    · rename_i after
      cases h
      rw [Expr.ofCut, if_neg before, if_pos after]
    · cases h

theorem cutAt_eq_error (present : slice ≠ []) (h : cutAt slice = .error halt) :
    ∃ e : ParseError, halt = .error e ∧ (Cut.select slice).bind Expr.ofCut = .error e := by
  rw [cutAt_eq present] at h
  cases selected : Cut.select slice with
  | error e =>
    rw [selected] at h
    cases h
    exact ⟨e, rfl, rfl⟩
  | ok cut =>
    rw [selected] at h
    cases completed : complete cut with
    | error e =>
      simp only [Except.bind, completed, Except.mapError] at h
      cases h
      exact ⟨e, rfl, ofCut_of_complete_error completed⟩
    | ok cut' =>
      simp only [Except.bind, completed, Except.mapError] at h
      cases h

theorem cutAt_eq_ok (present : slice ≠ []) (h : cutAt slice = .ok cut) :
    Cut.select slice = .ok cut ∧ cut.before ≠ [] ∧ cut.after ≠ [] := by
  rw [cutAt_eq present] at h
  cases both : (Cut.select slice).bind complete with
  | error e =>
    rw [both] at h
    cases h
  | ok cut' =>
    rw [both] at h
    cases h
    obtain ⟨found, selected, completed⟩ := bind_eq_ok_iff.1 both
    obtain ⟨before, after, rfl⟩ := complete_eq_ok_iff.1 completed
    exact ⟨selected, before, after⟩

end Operands

/-- A run that is called for proper lists only and comes to the outcome: it plants the tree, or stops
at the error of the formula. -/
inductive Constructs (f : Forest Token) :
    Except ParseError Expr → Traced Call Halt (NodeId × Forest Token) → Prop where
  | stopped {calls : List Call} {e : ParseError} : (∀ call ∈ calls, call.IsProper) →
    Constructs f (.error e) ⟨calls, .error (.error e)⟩
  | planted {calls : List Call} {n : NodeId} {g : Forest Token} {tree : Expr} :
    (∀ call ∈ calls, call.IsProper) → f.Planted g (some n) tree →
    Constructs f (.ok tree) ⟨calls, .ok (n, g)⟩

section Construction

variable {f : Forest Token} {tokens slice : List Token}

theorem constructs_atom (forest : f.IsForest) (short : slice.length = 1 ∨ slice.length = 2) :
    Constructs f (Expr.ofSlice slice) (plantAtom slice f) := by
  obtain ⟨leaf, found, same⟩ := exists_atom short
  rw [plantAtom, found, same]
  cases leaf with
  | error e => exact .stopped (List.forall_mem_nil _)
  | ok token => exact .planted (List.forall_mem_nil _) (Forest.planted_fresh forest token)

/-- Once both operands are planted, no attachment is refused. -/
theorem Constructs.operation {left right : Forest Token → Traced Call Halt (NodeId × Forest Token)}
    {first second : Except ParseError Expr} (operator : Token) (hLeft : Constructs f first (left f))
    (hRight : ∀ g : Forest Token, g.IsForest → Constructs g second (right g)) :
    Constructs f (first.bind fun x => second.bind fun y => .ok (.node operator x y))
      (plantOperation operator left right f) := by
  rw [plantOperation]
  generalize left f = run at hLeft ⊢
  cases hLeft with
  | stopped proper => exact .stopped proper
  | @planted _ x g _ proper plantedFirst =>
    have hRight := hRight g plantedFirst.forest
    rw [Traced.bind_of_ok _ rfl]
    dsimp only
    generalize right g = run at hRight ⊢
    cases hRight with
    | stopped proper' => exact .stopped (List.forall_mem_append.2 ⟨proper, proper'⟩)
    | @planted _ y h _ proper' plantedSecond =>
      have above := plantedSecond.forest.fresh operator
      have fitsLeft := plantedFirst.fits_left plantedSecond operator
      have fitsRight := plantedFirst.fits_right plantedSecond operator
      have assembled : assemble h operator x y =
          .ok (h.nextId, h.join operator (some x) (some y)) := by
        rw [assemble, fitsLeft.attach above]
        exact congrArg (Except.map (h.nextId, ·)) (fitsRight.attach (fitsLeft.isForest above))
      rw [Traced.bind_of_ok _ rfl, assembled]
      exact .planted (List.forall_mem_append.2 ⟨proper, by simpa using proper'⟩)
        (plantedFirst.join plantedSecond operator)

theorem Constructs.after {outcome : Except ParseError Expr}
    {run : Traced Call Halt (NodeId × Forest Token)} (h : Constructs f outcome run)
    {calls : List Call} (proper : ∀ call ∈ calls, call.IsProper) :
    Constructs f outcome (Traced.noteAll calls >>= fun _ => run) := by
  rw [Traced.bind_of_ok _ (Traced.result_noteAll _)]
  cases h with
  | stopped later => exact .stopped (List.forall_mem_append.2 ⟨proper, later⟩)
  | planted later planted => exact .planted (List.forall_mem_append.2 ⟨proper, later⟩) planted

/-- The invariant goes from a list to both sides of its cut. -/
theorem constructs_slice (forest : f.IsForest) (nested : Nested slice) (present : slice ≠ [])
    (parts : ∀ part : List Token, part.length < slice.length → Nested part → part ≠ [] →
      ∀ g : Forest Token, g.IsForest → Constructs g (Expr.parse part) (parse part g)) :
    Constructs f (Expr.ofSlice slice) (construct slice f) := by
  by_cases short : slice.length = 1 ∨ slice.length = 2
  · rw [construct, if_pos short]
    exact constructs_atom forest short
  have long : 2 < slice.length := by
    have := List.length_pos_of_ne_nil present
    omega
  rw [construct, if_neg short, ofSlice_of_long long]
  cases selected : cutAt slice with
  | error halt =>
    obtain ⟨e, rfl, failed⟩ := cutAt_eq_error present selected
    rw [failed]
    exact .stopped (List.forall_mem_nil _)
  | ok cut =>
    have total := length_of_cutAt selected
    obtain ⟨selected, before, after⟩ := cutAt_eq_ok present selected
    obtain ⟨nestedBefore, nestedAfter⟩ :=
      Cut.properlyNested_of_select selected (properlyNested_iff.2 nested)
    have both : (Cut.select slice).bind Expr.ofCut = (Expr.parse cut.before).bind fun first =>
        (Expr.parse cut.after).bind fun second => .ok (.node cut.operator first second) := by
      rw [selected, Except.bind, Expr.ofCut, if_neg (by simpa using before),
        if_neg (by simpa using after)]
      rfl
    rw [both]
    apply Constructs.operation
    · exact parts _ (by omega) (properlyNested_iff.1 nestedBefore) before f forest
    · exact parts _ (by omega) (properlyNested_iff.1 nestedAfter) after

theorem ne_nil_of_stripped (present : tokens ≠ []) (h : stripped tokens = .ok slice) :
    slice ≠ [] := by
  fun_induction stripped tokens with
  | case1 | case3 => cases h
  | case2 =>
    cases h
    exact present
  | case4 _ _ first rest _ ih => exact ih (List.cons_ne_nil first rest) h

theorem constructs_parse (nested : Nested tokens) (present : tokens ≠ []) (forest : f.IsForest) :
    Constructs f (Expr.parse tokens) (parse tokens f) := by
  induction size : tokens.length using Nat.strongRecOn generalizing tokens f with
  | ind length ih =>
    subst size
    obtain ⟨proper, bare⟩ := strip_of_nested nested present
    have proper : ∀ call ∈ Call.parse tokens :: (strip tokens).trace, call.IsProper :=
      List.forall_mem_cons.2 ⟨⟨present, nested⟩, proper⟩
    rw [parse_eq, bare, Expr.parse_eq]
    cases found : stripped tokens with
    | error e => exact .stopped proper
    | ok slice =>
      have short := length_stripped found
      have inner := constructs_slice forest (properlyNested_iff.1 (properlyNested_of_stripped found))
        (ne_nil_of_stripped present found)
        (fun part shorter nested present g forest => ih _ (by omega) nested present forest rfl)
      exact inner.after proper

end Construction

/-- Parsing a list that is not empty never calls either recursion for an empty list, nor, once the
brackets of the whole list have been looked at, for one that is not properly nested. So each look-up
finds what it looks for and no attachment is refused: what stops the run is one of three kinds of
error of the formula, and what it returns is the root of the tree. -/
theorem parse_calls_nested (tokens : List Token) (f : Forest Token) (present : tokens ≠ [])
    (forest : f.IsForest) :
    ∃ later : List Call,
      (parse tokens f).trace = .parse tokens :: .strip tokens :: later ∧
        (∀ call ∈ later, call.IsProper) ∧
        (later ≠ [] → Nested tokens) ∧
        (∀ halt : Halt, (parse tokens f).result = .error halt →
          ∃ e : ParseError, halt = .error e ∧ Expr.parse tokens = .error e ∧
            e.cause.kind ∈ [ErrorKind.invalidFormula, .invalidOperator, .invalidBracket]) ∧
        ∀ (n : NodeId) (g : Forest Token), (parse tokens f).result = .ok (n, g) →
          g.IsForest ∧ Expr.parse tokens = .ok (g.tree n) := by
  have sorts (e : ParseError) :
      e.cause.kind ∈ [ErrorKind.invalidFormula, .invalidOperator, .invalidBracket] := by
    cases e.cause <;> simp [ParseCause.kind]
  cases wrong : (Unmatched.ofTokens tokens).error? with
  | some e =>
    rw [parse_of_error? wrong]
    refine ⟨[], rfl, by simp, by simp, ?_, by rintro _ _ ⟨⟩⟩
    rintro _ ⟨⟩
    exact ⟨e, rfl, Expr.parse_of_error? wrong, sorts e⟩
  | none =>
    have nested : Nested tokens := properlyNested_iff.1 (properlyNested_iff_error?.2 wrong)
    have constructs := constructs_parse nested present forest
    obtain ⟨later, called⟩ := exists_trace_parse tokens f
    generalize parse tokens f = run at constructs called ⊢
    generalize Expr.parse tokens = outcome at constructs ⊢
    cases constructs with
    | @stopped calls e proper =>
      obtain rfl : calls = .parse tokens :: .strip tokens :: later := called
      refine ⟨later, rfl, fun call member => proper call (by simp [member]), fun _ => nested, ?_,
        by rintro _ _ ⟨⟩⟩
      rintro _ ⟨⟩
      exact ⟨e, rfl, rfl, sorts e⟩
    | @planted calls n g tree proper planted =>
      obtain rfl : calls = .parse tokens :: .strip tokens :: later := called
      refine ⟨later, rfl, fun call member => proper call (by simp [member]), fun _ => nested,
        by rintro _ ⟨⟩, ?_⟩
      rintro _ _ ⟨⟩
      rw [planted.forest.tree_eq planted.carries]
      exact ⟨planted.forest, rfl⟩

/-- In `(1 + 2) * -3` the brackets around the left side come off, and the sign stays on the right. -/
theorem parse_calls_negatedFactor :
    Expr.negatedFactor ≠ [] ∧ (Forest.empty : Forest Token).IsForest ∧
      (parse Expr.negatedFactor .empty).trace.map (fun call => call.slice.length) =
        [8, 8, 5, 5, 3, 1, 1, 1, 1, 2, 2] ∧
      ∃ later : List Call,
        (parse Expr.negatedFactor .empty).trace =
            .parse Expr.negatedFactor :: .strip Expr.negatedFactor :: later ∧
          (∀ call ∈ later, call.IsProper) ∧
          (later ≠ [] → Nested Expr.negatedFactor) ∧
          (∀ halt : Halt, (parse Expr.negatedFactor .empty).result = .error halt →
            ∃ e : ParseError, halt = .error e ∧ Expr.parse Expr.negatedFactor = .error e ∧
              e.cause.kind ∈ [ErrorKind.invalidFormula, .invalidOperator, .invalidBracket]) ∧
          ∀ (n : NodeId) (g : Forest Token),
            (parse Expr.negatedFactor .empty).result = .ok (n, g) →
              g.IsForest ∧ Expr.parse Expr.negatedFactor = .ok (g.tree n) := by
  have present : Expr.negatedFactor ≠ [] := by decide
  refine ⟨present, .empty, by decide +kernel, ?_⟩
  exact parse_calls_nested Expr.negatedFactor .empty present .empty

end Reckoner.Positional

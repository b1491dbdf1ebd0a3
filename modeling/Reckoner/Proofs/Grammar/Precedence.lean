import Reckoner.Proofs.Grammar.Reading
import Reckoner.Token.Scan

/-!
# Precedence

A list is parsed to the expression that its phrase reads as when a sign directly after a tight
operator raises that operator to the level of addition. By the standard levels, where a sign raises
nothing, a phrase may read differently; `Phrase.undisturbed` says exactly when it does not.
-/

set_option autoImplicit false

namespace Reckoner

namespace Token

def signsApart (first second : Token) : Prop := first.isFactor = true → second.isSummand = false

end Token

namespace Link

theorem isFactor_of_standardLevel (link : Link) (isOperator : link.operator.operator?.isSome = true)
    (tight : link.standardLevel = 0) : link.operator.isFactor = true := by
  cases kind : link.operator.kind with
  | operator op => cases op <;> simp_all [Token.isFactor, standardLevel]
  | _ => simp [Token.operator?, kind] at isOperator

/-- Whether an operator of the level of addition stands before the next operator, in the same part
of an assignment. -/
def addedAfter (link : Link) (added : Bool) : Bool :=
  match link.standardLevel with
  | 0 => added
  | 1 => true
  | _ => false

/-- Whether a promoted operator may stand here without another reading: nothing is added before it,
and no operator that is still tight follows it. -/
def isUndisturbed (link : Link) (added : Bool) (rest : List Link) : Bool :=
  !link.isPromoted || (!added && rest.head?.all fun next => decide (0 < next.signedLevel))

def undisturbed (added : Bool) : List Link → Bool
  | [] => true
  | link :: rest => link.isUndisturbed added rest && undisturbed (link.addedAfter added) rest

theorem undisturbed_of_unpromoted {links : List Link}
    (plain : ∀ link ∈ links, link.isPromoted = false) (added : Bool) :
    undisturbed added links = true := by
  induction links generalizing added with
  | nil => rfl
  | cons link rest ih =>
    have later := ih (fun next inside => plain next (by simp [inside])) (link.addedAfter added)
    simp [undisturbed, isUndisturbed, plain link (by simp), later]

theorem undisturbed_of_tight {links : List Link} (tight : ∀ link ∈ links, link.signedLevel = 0)
    (added : Bool) : undisturbed added links = true := by
  apply undisturbed_of_unpromoted
  intro link inside
  apply isPromoted_eq_false
  rw [tight link inside]
  exact Nat.zero_ne_one

theorem undisturbed_append {link : Link} (loose : 0 < link.signedLevel)
    (before after : List Link) (added : Bool) :
    undisturbed added (before ++ link :: after) =
      (undisturbed added before &&
        undisturbed (before.foldl (fun added earlier => earlier.addedAfter added) added)
          (link :: after)) := by
  induction before generalizing added with
  | nil => simp [undisturbed]
  | cons earlier rest ih =>
    have same : earlier.isUndisturbed added (rest ++ link :: after) =
        earlier.isUndisturbed added rest := by
      cases rest <;> simp [isUndisturbed, loose]
    simp only [List.cons_append, undisturbed, same, ih, List.foldl_cons, Bool.and_assoc]

theorem not_added_iff {links : List Link} (low : ∀ link ∈ links, link.standardLevel ≤ 1)
    (added : Bool) :
    links.foldl (fun added link => link.addedAfter added) added = false ↔
      added = false ∧ ∀ link ∈ links, link.standardLevel = 0 := by
  induction links generalizing added with
  | nil => simp
  | cons link rest ih =>
    have here := low link (by simp)
    rw [List.foldl_cons, ih (fun next inside => low next (by simp [inside]))]
    match at_ : link.standardLevel, here with
    | 0, _ => simp [addedAfter, at_]
    | 1, _ => simp [addedAfter, at_]

/-- Around the last of the loosest operators: both sides are undisturbed, and if that operator is
promoted then all before it are tight and none comes after it. -/
theorem undisturbed_division {link : Link} {before after : List Link}
    (loosest : ∀ earlier ∈ before, earlier.signedLevel ≤ link.signedLevel)
    (tighter : ∀ later ∈ after, later.signedLevel < link.signedLevel) :
    undisturbed false (before ++ link :: after) = true ↔
      undisturbed false before = true ∧ undisturbed false after = true ∧
        (link.isPromoted = true →
          (∀ earlier ∈ before, earlier.standardLevel = 0) ∧ after = []) := by
  rcases Nat.eq_zero_or_pos link.signedLevel with tight | loose
  · have unpromoted : link.isPromoted = false := isPromoted_eq_false (by omega)
    have nothing : after = [] := by
      cases after with
      | nil => rfl
      | cons later rest =>
        have := tighter later (by simp)
        omega
    subst nothing
    have allBefore : ∀ earlier ∈ before, earlier.signedLevel = 0 := by
      intro earlier inside
      have := loosest earlier inside
      omega
    have all : ∀ any ∈ before ++ [link], any.signedLevel = 0 := by
      simp only [List.mem_append, List.mem_singleton]
      rintro any (inside | rfl)
      · exact allBefore any inside
      · exact tight
    simp [undisturbed_of_tight all, undisturbed_of_tight allBefore, unpromoted, undisturbed]
  · have tight (low : link.signedLevel ≤ 1) : ∀ later ∈ after, later.signedLevel = 0 := by
      intro later inside
      have := tighter later inside
      omega
    rw [undisturbed_append loose, undisturbed]
    cases promoted : link.isPromoted with
    | true =>
      obtain ⟨raised, standard⟩ := levels_of_isPromoted promoted
      have tight := tight (Nat.le_of_eq raised)
      have low : ∀ earlier ∈ before, earlier.standardLevel ≤ 1 := by
        intro earlier inside
        have := loosest earlier inside
        have := earlier.standardLevel_le_signedLevel
        omega
      have last : (after.head?.all fun next => decide (0 < next.signedLevel)) = true ↔
          after = [] := by
        cases after with
        | nil => simp
        | cons later rest => simp [tight later (by simp)]
      simp only [isUndisturbed, promoted, Bool.not_true, Bool.false_or, Bool.and_eq_true,
        undisturbed_of_tight tight, Bool.not_eq_true', not_added_iff low, last]
      simp
    | false =>
      have standard := signedLevel_of_not_isPromoted promoted
      simp only [isUndisturbed, promoted, Bool.not_false, Bool.true_or, Bool.true_and,
        Bool.and_eq_true]
      rcases Nat.lt_or_ge 1 link.signedLevel with assigns | adds
      · have restarts (added : Bool) : link.addedAfter added = false := by
          unfold addedAfter
          split <;> first | rfl | omega
        simp [restarts]
      · simp [undisturbed_of_tight (tight adds)]

end Link

namespace Phrase

def groupsUndisturbed : Phrase → Bool
  | value _ | signed .. => true
  | group _ inner _ => Link.undisturbed false inner.links && inner.groupsUndisturbed
  | chain before _ operand => before.groupsUndisturbed && operand.groupsUndisturbed

/-- In no chain of the phrase does a sign after a tight operator change the reading: since the last
assignment before that operator nothing is added, and no tight operator comes next. -/
def undisturbed (p : Phrase) : Bool :=
  Link.undisturbed false p.links && p.groupsUndisturbed

theorem groupsUndisturbed_join (before : Phrase) (operator : Token) (after : Phrase) :
    (before.join operator after).groupsUndisturbed =
      (before.groupsUndisturbed && after.groupsUndisturbed) := by
  induction after with
  | value | signed | group => rfl
  | chain rest last operand ih _ => simp [join, groupsUndisturbed, ih, Bool.and_assoc]

/-- What is parsed is the standard reading of a phrase just if the phrase is undisturbed. -/
theorem Reads.standardLevel_iff {p : Phrase} {tree : Expr} (h : p.Reads Link.signedLevel tree) :
    p.Reads Link.standardLevel tree ↔ p.undisturbed = true := by
  induction h with
  | value => simp [undisturbed, groupsUndisturbed, links, Link.undisturbed]
  | signed => simp [undisturbed, groupsUndisturbed, links, Link.undisturbed]
  | group _ ih =>
    rw [reads_group_iff, ih]
    simp [undisturbed, groupsUndisturbed, links, Link.undisturbed]
  | @operation before after operator left right readsLeft readsRight loosest tighter
      ihLeft ihRight =>
    -- Both readings have one root or they differ, so the question is whether the operator that is
    -- loosest by signed levels is loosest by the standard ones too.
    have divided := Link.undisturbed_division loosest tighter
    simp only [undisturbed, links_join, groupsUndisturbed_join, Bool.and_eq_true, divided]
    constructor
    · intro standard
      obtain ⟨before', operator', after', left', right', same, sameTree, standardLeft,
        standardRight, standardLoosest, standardTighter⟩ :=
        standard.exists_division (isOperand_join _ _ _)
      cases sameTree
      obtain ⟨rfl, -, rfl⟩ := readsLeft.division_unique standardLeft same
      have fineLeft := ihLeft.1 standardLeft
      have fineRight := ihRight.1 standardRight
      simp only [undisturbed, Bool.and_eq_true] at fineLeft fineRight
      refine ⟨⟨fineLeft.1, fineRight.1, ?_⟩, fineLeft.2, fineRight.2⟩
      intro promoted
      have tight := (Link.levels_of_isPromoted promoted).2
      constructor
      · intro earlier inside
        have := standardLoosest earlier inside
        omega
      · cases later : after.links with
        | nil => rfl
        | cons next rest =>
          have := standardTighter next (by simp [later])
          omega
    · rintro ⟨⟨chainLeft, chainRight, promotes⟩, groupsLeft, groupsRight⟩
      have standardLeft := ihLeft.2 (by simp [undisturbed, chainLeft, groupsLeft])
      have standardRight := ihRight.2 (by simp [undisturbed, chainRight, groupsRight])
      refine .operation standardLeft standardRight ?_ ?_
      · intro earlier inside
        have low := earlier.standardLevel_le_signedLevel
        have below := loosest earlier inside
        cases promoted : Link.isPromoted ⟨operator, after.tokens.head?⟩ with
        | true =>
          rw [(promotes promoted).1 earlier inside]
          exact Nat.zero_le _
        | false =>
          rw [Link.signedLevel_of_not_isPromoted promoted] at below
          omega
      · intro later inside
        have low := later.standardLevel_le_signedLevel
        have below := tighter later inside
        cases promoted : Link.isPromoted ⟨operator, after.tokens.head?⟩ with
        | true =>
          rw [(promotes promoted).2] at inside
          cases inside
        | false =>
          rw [Link.signedLevel_of_not_isPromoted promoted] at below
          omega

theorem unpromoted_of_isChain {p : Phrase} (h : p.WellFormed)
    (plain : p.tokens.IsChain Token.signsApart) :
    (∀ link ∈ p.links, link.isPromoted = false) ∧ p.groupsUndisturbed = true := by
  induction p with
  | value | signed => simp [links, groupsUndisturbed]
  | group opening inner closing ih =>
    obtain ⟨promotes, groups⟩ := ih h.2.1 (plain.tail.left_of_append)
    simp [links, groupsUndisturbed, Link.undisturbed_of_unpromoted promotes, groups]
  | chain before operator operand ihBefore ihOperand =>
    obtain ⟨beforeWf, isOperator, operandWf, single, _⟩ := h
    rw [tokens, List.isChain_append] at plain
    obtain ⟨plainBefore, plainAfter, _⟩ := plain
    obtain ⟨promotes, groupsBefore⟩ := ihBefore beforeWf plainBefore
    obtain ⟨_, groupsOperand⟩ := ihOperand operandWf plainAfter.tail
    refine ⟨?_, by simp [groupsUndisturbed, groupsBefore, groupsOperand]⟩
    simp only [links, List.mem_append, List.mem_singleton]
    rintro link (inside | rfl)
    · exact promotes link inside
    · obtain ⟨first, rest, written⟩ := List.exists_cons_of_ne_nil operand.tokens_ne_nil
      rw [written, List.isChain_cons_cons] at plainAfter
      cases tight : Link.standardLevel ⟨operator, operand.tokens.head?⟩ == 0 with
      | false => simp [Link.isPromoted, tight]
      | true =>
        have factor := Link.isFactor_of_standardLevel _ isOperator (beq_iff_eq.1 tight)
        simp [Link.isPromoted, written, plainAfter.1 factor]

theorem undisturbed_of_isChain {p : Phrase} (h : p.WellFormed)
    (plain : p.tokens.IsChain Token.signsApart) : p.undisturbed = true := by
  obtain ⟨promotes, groups⟩ := unpromoted_of_isChain h plain
  simp [undisturbed, Link.undisturbed_of_unpromoted promotes, groups]

end Phrase

namespace Expr

/-- What is parsed is the reading of the one phrase with these tokens, by the levels at which a
sign raises a tight operator before it; by the standard levels if no sign is directly after a `*` or
a `/`. -/
theorem parse_eq_ok_iff_reads (tokens : List Token) (tree : Expr) :
    (Expr.parse tokens = .ok tree ↔
        ∃ p : Phrase, p.WellFormed ∧ p.tokens = tokens ∧ p.Reads Link.signedLevel tree) ∧
      (tokens.IsChain Token.signsApart →
        (Expr.parse tokens = .ok tree ↔
          ∃ p : Phrase, p.WellFormed ∧ p.tokens = tokens ∧
            p.Reads Link.standardLevel tree)) := by
  have signed : Expr.parse tokens = .ok tree ↔
      ∃ p : Phrase, p.WellFormed ∧ p.tokens = tokens ∧ p.Reads Link.signedLevel tree := by
    constructor
    · intro parsed
      obtain ⟨p, wf, rfl⟩ := Phrase.exists_of_parse parsed
      exact ⟨p, wf, rfl, (parse_tokens_eq_ok_iff wf).1 parsed⟩
    · rintro ⟨p, wf, rfl, reads⟩
      exact (parse_tokens_eq_ok_iff wf).2 reads
  refine ⟨signed, fun plain => signed.trans ?_⟩
  constructor
  · rintro ⟨p, wf, rfl, reads⟩
    have undisturbed := Phrase.undisturbed_of_isChain wf plain
    exact ⟨p, wf, rfl, reads.standardLevel_iff.2 undisturbed⟩
  · rintro ⟨p, wf, rfl, reads⟩
    have undisturbed := Phrase.undisturbed_of_isChain wf plain
    obtain ⟨found, _, signedReads⟩ := Phrase.exists_parse wf
    have same := reads.unique (signedReads.standardLevel_iff.2 undisturbed)
    exact ⟨p, wf, rfl, same ▸ signedReads⟩

/-- What is parsed is the standard reading of the one phrase with these tokens just if that phrase
is undisturbed. -/
theorem parse_eq_standard_iff_undisturbed {tokens : List Token} {tree : Expr}
    (parsed : Expr.parse tokens = .ok tree) :
    ∃ (p : Phrase) (standard : Expr),
      (∀ q : Phrase, q.WellFormed ∧ q.tokens = tokens ↔ q = p) ∧
      (∀ other : Expr, p.Reads Link.standardLevel other ↔ other = standard) ∧
      (tree = standard ↔ p.undisturbed = true) := by
  obtain ⟨p, wf, rfl⟩ := Phrase.exists_of_parse parsed
  obtain ⟨standard, reads⟩ := Phrase.exists_reads Link.standardLevel wf
  refine ⟨p, standard, ?_, ?_, ?_⟩
  · rintro q
    constructor
    · rintro ⟨other, same⟩
      exact Phrase.eq_of_tokens_eq other wf same
    · rintro rfl
      exact ⟨wf, rfl⟩
  · intro other
    constructor
    · exact fun again => again.unique reads
    · rintro rfl
      exact reads
  · rw [← ((parse_tokens_eq_ok_iff wf).1 parsed).standardLevel_iff]
    constructor
    · rintro rfl
      exact reads
    · exact fun again => again.unique reads

end Expr

/-- The phrase `1 + 2 * -3`, which reads otherwise than by the standard levels: the sign raises the
second operator to the level of the first. -/
def Phrase.addedProduct : Phrase :=
  .chain (.chain (.value one) plus (.value two)) star (.signed minus three)
where
  one : Token := ⟨.number, "1", ⟨0, 1⟩, some 1.0⟩
  plus : Token := ⟨.operator .plus, "+", ⟨2, 3⟩, none⟩
  two : Token := ⟨.number, "2", ⟨4, 5⟩, some 2.0⟩
  star : Token := ⟨.operator .star, "*", ⟨6, 7⟩, none⟩
  minus : Token := ⟨.operator .minus, "-", ⟨8, 9⟩, none⟩
  three : Token := ⟨.number, "3", ⟨9, 10⟩, some 3.0⟩

namespace Phrase

open addedProduct

def addedProductTree : Expr :=
  .node star (.node plus (.leaf one) (.leaf two)) (.leaf (signedToken minus three))

theorem wellFormed_addedProduct : addedProduct.WellFormed := by decide

theorem reads_addedProduct : addedProduct.Reads Link.signedLevel addedProductTree := by
  have sum : (chain (.value one) plus (.value two)).Reads Link.signedLevel
      (.node plus (.leaf one) (.leaf two)) := .operation .value .value (by decide) (by decide)
  have factor : (signed minus three).Reads Link.signedLevel (.leaf (signedToken minus three)) :=
    .signed
  exact .operation sum factor (by decide) (by decide)

end Phrase

namespace Expr

open Phrase

theorem parse_addedProduct : Expr.parse addedProduct.tokens = .ok addedProductTree :=
  (parse_tokens_eq_ok_iff wellFormed_addedProduct).2 reads_addedProduct

theorem parse_addedProduct_standard_iff :
    Expr.parse addedProduct.tokens = .ok addedProductTree ∧
      ∃ (p : Phrase) (standard : Expr),
        (∀ q : Phrase, q.WellFormed ∧ q.tokens = addedProduct.tokens ↔ q = p) ∧
        (∀ other : Expr, p.Reads Link.standardLevel other ↔ other = standard) ∧
        (addedProductTree = standard ↔ p.undisturbed = true) :=
  ⟨parse_addedProduct, parse_eq_standard_iff_undisturbed parse_addedProduct⟩

/-- The sum is parsed as a factor of the product, which no standard reading does. -/
theorem parse_addedProduct_not_standard :
    Token.ofText "1 + 2 * -3" = .ok addedProduct.tokens ∧
      Expr.parse addedProduct.tokens = .ok addedProductTree ∧ addedProduct.WellFormed ∧
      ¬ addedProduct.Reads Link.standardLevel addedProductTree := by
  refine ⟨by decide +kernel, parse_addedProduct, wellFormed_addedProduct, ?_⟩
  rw [reads_addedProduct.standardLevel_iff]
  decide

end Expr

end Reckoner

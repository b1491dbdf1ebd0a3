import Reckoner.Forest.Edit
import Reckoner.Proofs.Grammar.Balance

/-!
# Brackets and cuts by position

A list can also be read by positions: a table tells where each opening bracket is closed, the scan for
an operator keeps the position of the best one so far, and tokens are looked up at the positions that
come out. Every such lookup could miss. In a list that is not empty none does, and what is found is
what `stripped` and `Cut.select` find.
-/

set_option autoImplicit false

namespace Reckoner.Positional

/-- What stops a run by positions: an error of the formula, or a step that cannot be taken. -/
inductive Halt where
  | error (e : ParseError)
  | noToken (position : Nat)
  /-- Nothing stands before the first token. -/
  | nothingBefore
  /-- A bracket is asked for that stays unmatched, and there is none. -/
  | noBracket
  /-- It is not known where an opening bracket is closed. -/
  | noPartner (opening : Nat)
  | refused (refusal : Refusal)
  deriving DecidableEq, Repr

def tokenAt (tokens : List Token) (position : Nat) : Except Halt Token :=
  match tokens[position]? with
  | some token => .ok token
  | none => .error (.noToken position)

def tokenBefore (tokens : List Token) : (position : Nat) → Except Halt Token
  | 0 => .error .nothingBefore
  | position + 1 => tokenAt tokens position

theorem tokenAt_of_some {tokens : List Token} {position : Nat} {token : Token}
    (here : tokens[position]? = some token) : tokenAt tokens position = .ok token := by
  rw [tokenAt, here]

theorem some_of_tokenAt {tokens : List Token} {position : Nat} {token : Token}
    (h : tokenAt tokens position = .ok token) : tokens[position]? = some token := by
  unfold tokenAt at h
  split at h
  · cases h
    assumption
  · cases h

/-- The positions of the brackets without a partner, the latest first, and of those with one, an opening
bracket with the one that closes it. -/
structure Pairing where
  opened : List Nat
  unmatched : List Nat
  partners : List (Nat × Nat)
  deriving DecidableEq, Repr

namespace Pairing

def empty : Pairing := ⟨[], [], []⟩

def next (p : Pairing) (token : Token) (position : Nat) : Pairing :=
  match token.kind with
  | .opening => { p with opened := position :: p.opened }
  | .closing =>
    match p.opened with
    | [] => { p with unmatched := position :: p.unmatched }
    | opening :: outer =>
      { p with opened := outer, partners := (opening, position) :: p.partners }
  | _ => p

def readFrom (p : Pairing) (start : Nat) (tokens : List Token) : Pairing :=
  (tokens.zipIdx start).foldl (fun p entry => p.next entry.1 entry.2) p

def ofTokens (tokens : List Token) : Pairing := empty.readFrom 0 tokens

def complain (tokens : List Token) (cause : ParseCause) : Option Nat → Except Halt Unit
  | none => .error .noBracket
  | some position => do
    let token ← tokenAt tokens position
    throw (.error ⟨cause, token.span⟩)

/-- Too many openings are reported at the first, too many closings at the last, and equally many of both
at the first closing. -/
def check (p : Pairing) (tokens : List Token) : Except Halt Unit :=
  if p.unmatched.length < p.opened.length then
    complain tokens .unclosedBracket p.opened.getLast?
  else if p.opened.length < p.unmatched.length then
    complain tokens .extraClosingBracket p.unmatched.head?
  else if p.unmatched ≠ [] then complain tokens .closingBeforeOpening p.unmatched.getLast?
  else .ok ()

def partner (p : Pairing) (opening : Nat) : Except Halt Nat :=
  match p.partners.lookup opening with
  | some closing => .ok closing
  | none => .error (.noPartner opening)

end Pairing

/-- What is left once a pair of brackets around the whole list is taken off, if there is one. -/
def unwrap (tokens : List Token) : Except Halt (Option (List Token)) := do
  let p := Pairing.ofTokens tokens
  p.check tokens
  let first ← tokenAt tokens 0
  if first.kind = .opening then do
    let closing ← p.partner 0
    if closing = tokens.length - 1 then
      if tokens.length = 2 then do
        let second ← tokenAt tokens 1
        throw (.error ⟨.emptyBrackets, first.span.merge second.span⟩)
      else return some tokens.tail.dropLast
    else return none
  else return none

/-- The best position so far for a cut, the level of the operator there, and the number of open
brackets. -/
structure Scan where
  selected : Option Nat
  level : Nat
  depth : Int
  deriving DecidableEq, Repr

namespace Scan

def next (s : Scan) (token : Token) (position : Nat) : Scan :=
  match token.kind with
  | .opening => { s with depth := s.depth + 1 }
  | .closing => { s with depth := s.depth - 1 }
  | .operator op =>
    if position ≠ 0 ∧ s.depth = 0 ∧ (s.selected = none ∨ s.level ≤ op.level) then
      { s with selected := some position, level := op.level }
    else s
  | .number | .identifier => s

def ofTokens (tokens : List Token) : Scan :=
  tokens.zipIdx.foldl (fun s entry => s.next entry.1 entry.2) ⟨none, 0, 0⟩

end Scan

/-- The position of the operator at which a list is cut. A cut at a sign moves to the operator before
it. -/
def select (tokens : List Token) : Except Halt Nat :=
  match (Scan.ofTokens tokens).selected with
  | none => do
    let first ← tokenAt tokens 0
    let last ← tokenAt tokens (tokens.length - 1)
    throw (.error ⟨.operatorExpected, first.span.merge last.span⟩)
  | some position => do
    let previous ← tokenBefore tokens position
    let token ← tokenAt tokens position
    if previous.isArithmetic then
      if token.isSign then return position - 1
      else throw (.error ⟨.adjacentOperators, token.span⟩)
    else return position

def complete (cut : Cut) : Except ParseError Cut :=
  if cut.before.isEmpty then .error ⟨.leftOperandExpected, cut.operator.span⟩
  else if cut.after.isEmpty then .error ⟨.rightOperandExpected, cut.operator.span⟩
  else .ok cut

def cutAt (tokens : List Token) : Except Halt Cut := do
  let position ← select tokens
  let operator ← tokenAt tokens position
  (complete ⟨tokens.take position, operator, tokens.drop (position + 1)⟩).mapError .error

theorem length_of_unwrap {tokens inner : List Token} (h : unwrap tokens = .ok (some inner)) :
    inner.length < tokens.length := by
  obtain ⟨⟨⟩, _, h⟩ := bind_eq_ok_iff.1 h
  obtain ⟨first, found, h⟩ := bind_eq_ok_iff.1 h
  obtain ⟨present, _⟩ := List.getElem?_eq_some_iff.1 (some_of_tokenAt found)
  split at h
  · obtain ⟨closing, _, h⟩ := bind_eq_ok_iff.1 h
    split at h
    · split at h
      · obtain ⟨_, _, impossible⟩ := bind_eq_ok_iff.1 h
        cases impossible
      · cases h
        simp only [List.length_dropLast, List.length_tail]
        omega
    · cases h
  · cases h

theorem length_of_cutAt {tokens : List Token} {cut : Cut} (h : cutAt tokens = .ok cut) :
    cut.before.length + cut.after.length + 1 = tokens.length := by
  obtain ⟨position, _, h⟩ := bind_eq_ok_iff.1 h
  obtain ⟨operator, found, h⟩ := bind_eq_ok_iff.1 h
  obtain ⟨present, _⟩ := List.getElem?_eq_some_iff.1 (some_of_tokenAt found)
  unfold complete at h
  split at h
  · cases h
  · split at h
    · cases h
    · cases h
      simp only [List.length_take, List.length_drop]
      omega

section Brackets

variable {tokens inner rest : List Token} {p : Pairing} {u : Unmatched} {token : Token}

/-- The positions are those of the brackets. -/
structure Tracks (tokens : List Token) (p : Pairing) (u : Unmatched) : Prop where
  openings : u.openings.map some = p.opened.map fun position => tokens[position]?
  closings : u.closings.map some = p.unmatched.map fun position => tokens[position]?

theorem Tracks.next {position : Nat} (h : Tracks tokens p u)
    (here : tokens[position]? = some token) :
    Tracks tokens (p.next token position) (u.next token) := by
  cases kind : token.kind with
  | opening =>
    simp only [Pairing.next, Unmatched.next, kind]
    exact ⟨by simp [here, h.openings], h.closings⟩
  | closing =>
    have same := h.openings
    simp only [Pairing.next, Unmatched.next, kind]
    cases stack : p.opened with
    | nil =>
      have nothing : u.openings = [] := by simpa [stack] using same
      rw [nothing]
      exact ⟨rfl, by simp [here, h.closings]⟩
    | cons opening outer =>
      cases tokensLeft : u.openings with
      | nil => simp [stack, tokensLeft] at same
      | cons first others =>
        rw [stack, tokensLeft] at same
        exact ⟨(List.cons.inj same).2, h.closings⟩
  | number | identifier | operator op =>
    simp only [Pairing.next, Unmatched.next, kind]
    exact h

theorem Tracks.readFrom (before rest : List Token) (whole : before ++ rest = tokens)
    (h : Tracks tokens p u) :
    Tracks tokens (p.readFrom before.length rest) (rest.foldl Unmatched.next u) := by
  induction rest generalizing before p u with
  | nil => exact h
  | cons token rest ih =>
    have here : tokens[before.length]? = some token := by simp [← whole]
    have later := ih (before ++ [token]) (by simpa using whole) (h.next here)
    rw [List.length_append, List.length_singleton] at later
    exact later

theorem tracks_ofTokens (tokens : List Token) :
    Tracks tokens (Pairing.ofTokens tokens) (Unmatched.ofTokens tokens) :=
  Tracks.readFrom [] tokens rfl ⟨rfl, rfl⟩

theorem complain_eq {cause : ParseCause} {found : Option Token} {place : Option Nat}
    (same : found.map some = place.map fun position => tokens[position]?) (present : found ≠ none) :
    Pairing.complain tokens cause place =
      match found.map fun token => (⟨cause, token.span⟩ : ParseError) with
      | some e => .error (.error e)
      | none => .ok () := by
  obtain ⟨token, rfl⟩ := Option.ne_none_iff_exists'.1 present
  cases place with
  | none => cases same
  | some position =>
    have here : tokens[position]? = some token := (Option.some.inj same).symm
    rw [Pairing.complain, tokenAt_of_some here]
    rfl

theorem Tracks.check_eq (h : Tracks tokens p u) :
    p.check tokens = match u.error? with
      | some e => .error (.error e)
      | none => .ok () := by
  have opened : p.opened.length = u.openings.length := by
    simpa using (congrArg List.length h.openings).symm
  have unmatched : p.unmatched.length = u.closings.length := by
    simpa using (congrArg List.length h.closings).symm
  have firstOpening := congrArg List.getLast? h.openings
  have lastClosing := congrArg List.head? h.closings
  have firstClosing := congrArg List.getLast? h.closings
  rw [List.getLast?_map, List.getLast?_map] at firstOpening firstClosing
  rw [List.head?_map, List.head?_map] at lastClosing
  unfold Pairing.check Unmatched.error?
  rw [opened, unmatched]
  split
  · rename_i more
    apply complain_eq firstOpening
    rw [ne_eq, List.getLast?_eq_none_iff]
    exact List.ne_nil_of_length_pos (Nat.lt_of_le_of_lt (Nat.zero_le _) more)
  · split
    · rename_i fewer
      apply complain_eq lastClosing
      rw [ne_eq, List.head?_eq_none_iff]
      exact List.ne_nil_of_length_pos (Nat.lt_of_le_of_lt (Nat.zero_le _) fewer)
    · by_cases nothing : u.closings = []
      · have none : p.unmatched = [] := by simpa [nothing] using unmatched
        rw [if_neg (by simp [none]), nothing]
        rfl
      · have some : p.unmatched ≠ [] := by
          intro none
          exact nothing (by simpa [none] using unmatched.symm)
        rw [if_pos some]
        apply complain_eq firstClosing
        rwa [ne_eq, List.getLast?_eq_none_iff]

theorem Pairing.readFrom_append (p : Pairing) (start : Nat) (first second : List Token) :
    p.readFrom start (first ++ second) =
      (p.readFrom start first).readFrom (start + first.length) second := by
  rw [readFrom, List.zipIdx_append, List.foldl_append]
  rfl

theorem Pairing.readFrom_cons (p : Pairing) (start : Nat) (token : Token) (rest : List Token) :
    p.readFrom start (token :: rest) = (p.next token start).readFrom (start + 1) rest := rfl

theorem Pairing.readFrom_group (p : Pairing) (start : Nat) {opening closing : Token}
    (opens : opening.kind = .opening) (closes : closing.kind = .closing)
    {pairs : List (Nat × Nat)}
    (read : ({ p with opened := start :: p.opened } : Pairing).readFrom (start + 1) inner =
      ⟨start :: p.opened, p.unmatched, pairs ++ p.partners⟩) :
    p.readFrom start (opening :: (inner ++ closing :: rest)) =
      (⟨p.opened, p.unmatched, (start, start + 1 + inner.length) :: (pairs ++ p.partners)⟩ :
        Pairing).readFrom (start + 1 + inner.length + 1) rest := by
  have opened : p.next opening start = { p with opened := start :: p.opened } := by
    rw [next, opens]
  rw [readFrom_cons, opened, readFrom_append, read, readFrom_cons]
  congr 1
  rw [next, closes]

/-- A nested list leaves the brackets without a partner alone, and enters pairs of its own. -/
theorem exists_readFrom_of_nested (h : Nested tokens) (p : Pairing) (start : Nat) :
    ∃ pairs : List (Nat × Nat),
      p.readFrom start tokens = ⟨p.opened, p.unmatched, pairs ++ p.partners⟩ ∧
        ∀ pair ∈ pairs, start ≤ pair.1 := by
  induction h generalizing p start with
  | nil => exact ⟨[], rfl, by simp⟩
  | @other token rest opens closes _ ih =>
    obtain ⟨pairs, read, later⟩ := ih p (start + 1)
    have passed : p.next token start = p := by
      cases kind : token.kind with
      | opening => exact absurd kind opens
      | closing => exact absurd kind closes
      | number | identifier | operator op => simp only [Pairing.next, kind]
    refine ⟨pairs, ?_, fun pair member => Nat.le_of_lt (later pair member)⟩
    rw [Pairing.readFrom_cons, passed, read]
  | @group opening closing inner rest opens closes _ _ ihInner ihRest =>
    obtain ⟨pairs, read, laterInner⟩ :=
      ihInner { p with opened := start :: p.opened } (start + 1)
    obtain ⟨pairs', read', laterRest⟩ :=
      ihRest ⟨p.opened, p.unmatched, (start, start + 1 + inner.length) :: (pairs ++ p.partners)⟩
        (start + 1 + inner.length + 1)
    refine ⟨pairs' ++ (start, start + 1 + inner.length) :: pairs, ?_, ?_⟩
    · rw [p.readFrom_group start opens closes read, read']
      simp
    · intro pair member
      rcases List.mem_append.1 member with member | member
      · have := laterRest pair member
        omega
      · rcases List.mem_cons.1 member with rfl | member
        · exact Nat.le_refl _
        · exact Nat.le_of_lt (laterInner pair member)

theorem partner_of_group {opening closing : Token} (opens : opening.kind = .opening)
    (closes : closing.kind = .closing) (nested : Nested inner) (later : Nested rest) :
    (Pairing.ofTokens (opening :: (inner ++ closing :: rest))).partner 0 =
      .ok (inner.length + 1) := by
  obtain ⟨pairs, read, _⟩ := exists_readFrom_of_nested nested { Pairing.empty with opened := [0] } 1
  obtain ⟨pairs', read', beyond⟩ := exists_readFrom_of_nested later
    ⟨Pairing.empty.opened, Pairing.empty.unmatched,
      (0, 0 + 1 + inner.length) :: (pairs ++ Pairing.empty.partners)⟩ (0 + 1 + inner.length + 1)
  have absent : pairs'.lookup 0 = none := by
    rw [List.lookup_eq_none_iff]
    intro pair member
    have := beyond pair member
    simp only [bne_iff_ne, ne_eq]
    omega
  rw [Pairing.ofTokens, Pairing.empty.readFrom_group 0 opens closes read, read', Pairing.partner]
  simp [List.lookup_append, absent, Nat.add_comm]

/-- A nested list that starts with a bracket is enclosed by it and its partner or goes on behind. -/
theorem exists_partner_of_nested (h : Nested (token :: rest)) (opens : token.kind = .opening) :
    ∃ closing : Nat, (Pairing.ofTokens (token :: rest)).partner 0 = .ok closing ∧
      (closing = (token :: rest).length - 1 ↔ enclosed? (token :: rest) ≠ none) := by
  cases h with
  | other notOpening _ _ => exact absurd opens notOpening
  | @group _ closing inner rest _ closes nested later =>
    refine ⟨_, partner_of_group opens closes nested later, ?_⟩
    cases rest with
    | nil =>
      have enclosed : enclosed? (token :: (inner ++ [closing])) = some inner :=
        enclosed?_eq_some_iff.2 ⟨token, closing, opens, closes, properlyNested_iff.2 nested, rfl⟩
      simp [enclosed]
    | cons first others =>
      have bare : enclosed? (token :: (inner ++ closing :: first :: others)) = none :=
        enclosed?_eq_none_of_closed (properlyNested_iff.2 nested) closes
          (List.cons_ne_nil first others)
      simp only [bare, ne_eq, not_true_eq_false, iff_false, List.length_cons, List.length_append]
      omega

theorem check_ofTokens (tokens : List Token) :
    (Pairing.ofTokens tokens).check tokens = match (Unmatched.ofTokens tokens).error? with
      | some e => .error (.error e)
      | none => .ok () :=
  (tracks_ofTokens tokens).check_eq

theorem unwrap_of_error? {e : ParseError} (h : (Unmatched.ofTokens tokens).error? = some e) :
    unwrap tokens = .error (.error e) := by
  have checked := check_ofTokens tokens
  rw [h] at checked
  rw [unwrap, checked]
  rfl

/-- Of a list that is not empty and properly nested, the brackets around it come off. -/
theorem unwrap_of_nested (h : Nested tokens) (present : tokens ≠ []) :
    unwrap tokens = match enclosed? tokens with
      | none => .ok none
      | some [] => .error (.error ⟨.emptyBrackets, spanOf tokens⟩)
      | some inner => .ok (some inner) := by
  obtain ⟨first, rest, rfl⟩ := List.exists_cons_of_ne_nil present
  have checked := check_ofTokens (first :: rest)
  rw [properlyNested_iff_error?.1 (properlyNested_iff.2 h)] at checked
  rw [unwrap, checked, tokenAt_of_some rfl]
  by_cases opens : first.kind = .opening
  · obtain ⟨closing, found, last⟩ := exists_partner_of_nested h opens
    cases enclosed : enclosed? (first :: rest) with
    | none =>
      have inside : closing ≠ (first :: rest).length - 1 := by simpa [enclosed] using last
      simp only [bind, Except.bind, if_pos opens, found, if_neg inside]
      rfl
    | some inner =>
      have atEnd : closing = (first :: rest).length - 1 := by simpa [enclosed] using last
      obtain ⟨_, final, _, _, _, split⟩ := enclosed?_eq_some_iff.1 enclosed
      cases split
      cases inner with
      | nil =>
        simp only [bind, Except.bind, if_pos opens, found, if_pos atEnd]
        rfl
      | cons second others =>
        have long : (first :: (second :: others ++ [final])).length ≠ 2 := by simp
        simp only [bind, Except.bind, if_pos opens, found, if_pos atEnd, if_neg long,
          List.tail_cons, List.dropLast_concat]
        rfl
  · have bare : enclosed? (first :: rest) = none := Phrase.enclosed?_eq_none_of_head opens
    simp only [bind, Except.bind, if_neg opens, bare]
    rfl

end Brackets

section Selection

variable {tokens : List Token} {token : Token} {s : Scan}

/-- The scan has found the candidate for a cut of what it has read. -/
structure Scan.Follows (s : Scan) (tokens : List Token) : Prop where
  depth_eq : s.depth = Token.depthAfterAll 0 tokens
  selected_eq : s.selected = (Cut.candidate? tokens).map Cut.index
  level_eq : ∀ cut : Cut, Cut.candidate? tokens = some cut → s.level = cut.operator.level

theorem candidate?_concat (present : tokens ≠ []) (token : Token) :
    Cut.candidate? (tokens ++ [token]) =
      Cut.better ((Cut.candidate? tokens).map (Cut.within [] [token]))
        (if token.isCuttable (Token.depthAfterAll 0 tokens) then some ⟨tokens, token, []⟩
          else none) := by
  rw [Cut.candidate?_append present]
  congr 1
  cases cuttable : token.isCuttable (Token.depthAfterAll 0 tokens) <;>
    simp [Cut.loosest, Cut.within, cuttable]

theorem Scan.depth_next (s : Scan) (token : Token) (position : Nat) :
    (s.next token position).depth = token.depthAfter s.depth := by
  cases kind : token.kind with
  | opening | closing | number | identifier => simp only [next, Token.depthAfter, kind]
  | operator op =>
    simp only [next, Token.depthAfter, kind]
    split <;> rfl

theorem Scan.Follows.keep (h : s.Follows tokens)
    (same : Cut.candidate? (tokens ++ [token]) =
      (Cut.candidate? tokens).map (Cut.within [] [token]))
    (selected : (s.next token tokens.length).selected = s.selected)
    (level : (s.next token tokens.length).level = s.level) :
    (s.next token tokens.length).Follows (tokens ++ [token]) where
  depth_eq := by
    rw [s.depth_next, h.depth_eq]
    simp
  selected_eq := by
    rw [selected, same, h.selected_eq, Option.map_map]
    rfl
  level_eq := by
    intro cut found
    rw [same] at found
    obtain ⟨earlier, before, rfl⟩ := Option.map_eq_some_iff.1 found
    exact level.trans (h.level_eq earlier before)

theorem Scan.Follows.take (h : s.Follows tokens)
    (same : Cut.candidate? (tokens ++ [token]) = some ⟨tokens, token, []⟩)
    (selected : (s.next token tokens.length).selected = some tokens.length)
    (level : (s.next token tokens.length).level = token.level) :
    (s.next token tokens.length).Follows (tokens ++ [token]) where
  depth_eq := by
    rw [s.depth_next, h.depth_eq]
    simp
  selected_eq := by
    rw [selected, same]
    rfl
  level_eq := by
    intro cut found
    rw [same] at found
    cases found
    exact level

theorem Scan.Follows.next_of_not_operator (h : s.Follows tokens)
    (operand : token.operator? = none) :
    (s.next token tokens.length).Follows (tokens ++ [token]) := by
  have same : Cut.candidate? (tokens ++ [token]) =
      (Cut.candidate? tokens).map (Cut.within [] [token]) := by
    cases tokens with
    | nil => rfl
    | cons first rest =>
      rw [candidate?_concat (List.cons_ne_nil first rest),
        if_neg (by simp [Token.isCuttable, operand]), Cut.better_none]
  cases kind : token.kind with
  | opening | closing | number | identifier =>
    exact h.keep same (by simp only [Scan.next, kind]) (by simp only [Scan.next, kind])
  | operator op => simp [Token.operator?, kind] at operand

theorem Scan.Follows.next_of_operator {op : Operator} (h : s.Follows tokens)
    (present : tokens ≠ []) (kind : token.kind = .operator op) :
    (s.next token tokens.length).Follows (tokens ++ [token]) := by
  have level : token.level = op.level := by simp [Token.level, Token.operator?, kind]
  have cuttable : token.isCuttable (Token.depthAfterAll 0 tokens) = (s.depth == 0) := by
    simp [Token.isCuttable, Token.operator?, kind, h.depth_eq]
  have nonempty : tokens.length ≠ 0 := mt List.eq_nil_of_length_eq_zero present
  have whole := candidate?_concat present token
  rw [cuttable] at whole
  by_cases outside : s.depth = 0
  · cases found : Cut.candidate? tokens with
    | none =>
      have selected : s.selected = none := by rw [h.selected_eq, found]; rfl
      apply h.take
      · rw [whole, found]
        simp [outside]
      · simp [Scan.next, kind, nonempty, outside, selected]
      · simp [Scan.next, kind, nonempty, outside, selected, level]
    | some cut =>
      have best := h.level_eq cut found
      by_cases tighter : op.level < cut.operator.level
      · have passed : ¬ (s.selected = none ∨ s.level ≤ op.level) := by
          rw [h.selected_eq, found, best]
          simp [tighter]
        apply h.keep
        · rw [whole, found]
          simp [outside, Cut.better, Cut.within, level, tighter]
        · simp [Scan.next, kind, nonempty, outside, passed]
        · simp [Scan.next, kind, nonempty, outside, passed]
      · have taken : s.level ≤ op.level := by
          rw [best]
          exact Nat.not_lt.1 tighter
        apply h.take
        · rw [whole, found]
          simp [outside, Cut.better, Cut.within, level, tighter]
        · simp [Scan.next, kind, nonempty, outside, taken]
        · simp [Scan.next, kind, nonempty, outside, taken, level]
  · apply h.keep
    · rw [whole]
      simp [outside]
    · simp [Scan.next, kind, outside]
    · simp [Scan.next, kind, outside]

theorem Scan.Follows.next (h : s.Follows tokens) (token : Token) :
    (s.next token tokens.length).Follows (tokens ++ [token]) := by
  cases kind : token.kind with
  | opening | closing | number | identifier =>
    exact h.next_of_not_operator (by simp [Token.operator?, kind])
  | operator op =>
    cases tokens with
    | nil =>
      -- The first token is passed over, whatever it is.
      apply h.keep
      · rfl
      · simp [Scan.next, kind]
      · simp [Scan.next, kind]
    | cons first rest => exact h.next_of_operator (List.cons_ne_nil first rest) kind

theorem Scan.follows_ofTokens (tokens : List Token) : (Scan.ofTokens tokens).Follows tokens := by
  induction tokens using List.reverseRecOn with
  | nil => exact ⟨rfl, rfl, by simp [Cut.candidate?]⟩
  | append_singleton tokens token ih =>
    have step : Scan.ofTokens (tokens ++ [token]) =
        (Scan.ofTokens tokens).next token tokens.length := by
      simp [Scan.ofTokens, List.zipIdx_append]
    rw [step]
    exact ih.next token

theorem candidate?_before_ne_nil {cut : Cut} (h : Cut.candidate? tokens = some cut) :
    cut.before ≠ [] := by
  cases tokens with
  | nil => cases h
  | cons first rest =>
    obtain ⟨_, _, rfl⟩ := Option.map_eq_some_iff.1 h
    exact List.cons_ne_nil _ _

/-- The position selected in a list that is not empty is the one at which it is cut. -/
theorem select_eq (present : tokens ≠ []) :
    select tokens = ((Cut.select tokens).map Cut.index).mapError Halt.error := by
  rw [select, (Scan.follows_ofTokens tokens).selected_eq, Cut.select]
  cases found : Cut.candidate? tokens with
  | none =>
    obtain ⟨first, rest, rfl⟩ := List.exists_cons_of_ne_nil present
    have last : (first :: rest)[(first :: rest).length - 1]? =
        some ((first :: rest).getLast present) := by
      rw [← List.getLast?_eq_getElem?, List.getLast?_eq_some_getLast present]
    have whole : spanOf (first :: rest) =
        first.span.merge ((first :: rest).getLast present).span := by
      rw [spanOf, List.getLast?_eq_some_getLast present]
      rfl
    have atFirst : tokenAt (first :: rest) 0 = .ok first := rfl
    rw [whole]
    simp only [Option.map_none, atFirst, tokenAt_of_some last]
    rfl
  | some cut =>
    have whole : cut.slice = tokens := Cut.slice_of_candidate? found
    obtain ⟨before, operator, after⟩ := cut
    obtain ⟨earlier, previous, split⟩ :=
      (List.eq_nil_or_concat' before).resolve_left (candidate?_before_ne_nil found)
    subst split
    have position : (⟨earlier ++ [previous], operator, after⟩ : Cut).index = earlier.length + 1 := by
      simp [Cut.index]
    have atPrevious : tokens[earlier.length]? = some previous := by
      rw [← whole, Cut.slice, List.append_assoc]
      simp
    have atOperator : tokens[earlier.length + 1]? = some operator := by
      rw [← whole, ← position, Cut.getElem?_index]
    rw [Option.map_some, position]
    simp only [tokenBefore, tokenAt_of_some atPrevious, tokenAt_of_some atOperator, Cut.settled,
      List.getLast?_concat, bind, Except.bind]
    split
    · split
      · simp [Except.map, Except.mapError, Cut.index, pure, Except.pure]
      · rfl
    · rw [Except.map, position]
      rfl

theorem cutAt_eq (present : tokens ≠ []) :
    cutAt tokens = ((Cut.select tokens).bind complete).mapError Halt.error := by
  rw [cutAt, select_eq present]
  cases selected : Cut.select tokens with
  | error e => rfl
  | ok cut =>
    have whole : cut.slice = tokens := Cut.slice_of_select selected
    have atOperator : tokens[cut.index]? = some cut.operator := by
      rw [← whole, Cut.getElem?_index]
    have before : tokens.take cut.index = cut.before := by
      rw [← whole, Cut.slice, Cut.index, List.take_left]
    have after : tokens.drop (cut.index + 1) = cut.after := by
      rw [← whole, Cut.slice, Cut.index, List.drop_append]
      simp
    simp only [Except.map, Except.mapError, bind, Except.bind, tokenAt_of_some atOperator, before,
      after]

end Selection

end Reckoner.Positional

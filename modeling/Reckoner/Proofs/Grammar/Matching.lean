import Reckoner.Proofs.Grammar.Nesting

/-!
# Matching brackets

Each closing bracket is matched with the nearest opening one before it that is still unmatched. Said
of positions, this is `Matched`, and what it leaves over are two sets of positions. Reading a list
token by token keeps the brackets at just these positions, the latest first: a closing bracket takes
away the greatest position in the one set, or becomes one more in the other. So the complaint about
the brackets of a list stands at the first or the last position of one of the sets.
-/

set_option autoImplicit false

namespace Reckoner

def KindAt (tokens : List Token) (kind : TokenKind) (i : Nat) : Prop :=
  ∃ token : Token, tokens[i]? = some token ∧ token.kind = kind

/-- The closing bracket at `j` is matched with the opening one at `i`, the nearest before it that no
earlier closing bracket is matched with. -/
def Matched (tokens : List Token) (i j : Nat) : Prop :=
  i < j ∧ KindAt tokens .opening i ∧ KindAt tokens .closing j ∧
    (∀ k : Nat, (_ : k < j) → ¬ Matched tokens i k) ∧
    ∀ between : Nat, i < between → between < j → KindAt tokens .opening between →
      ∃ (k : Nat) (_ : k < j), Matched tokens between k
termination_by j

def openingsLeft (tokens : List Token) : Set Nat :=
  {i | KindAt tokens .opening i ∧ ∀ j : Nat, ¬ Matched tokens i j}

def closingsLeft (tokens : List Token) : Set Nat :=
  {j | KindAt tokens .closing j ∧ ∀ i : Nat, ¬ Matched tokens i j}

/-- What is wrong with the brackets of a list, by what stays unmatched. -/
inductive Misplaced (tokens : List Token) : ParseError → Prop where
  | unclosed {i : Nat} {token : Token} :
    (closingsLeft tokens).ncard < (openingsLeft tokens).ncard →
    IsLeast (openingsLeft tokens) i → tokens[i]? = some token →
    Misplaced tokens ⟨.unclosedBracket, token.span⟩
  | extra {j : Nat} {token : Token} :
    (openingsLeft tokens).ncard < (closingsLeft tokens).ncard →
    IsGreatest (closingsLeft tokens) j → tokens[j]? = some token →
    Misplaced tokens ⟨.extraClosingBracket, token.span⟩
  | early {j : Nat} {token : Token} :
    (openingsLeft tokens).ncard = (closingsLeft tokens).ncard →
    IsLeast (closingsLeft tokens) j → tokens[j]? = some token →
    Misplaced tokens ⟨.closingBeforeOpening, token.span⟩

section Positions

variable {tokens : List Token} {token : Token} {kind : TokenKind} {i j : Nat}

theorem KindAt.lt_length (h : KindAt tokens kind i) : i < tokens.length := by
  obtain ⟨token, here, _⟩ := h
  exact (List.getElem?_eq_some_iff.1 here).1

theorem kindAt_concat : KindAt (tokens ++ [token]) kind i ↔
    KindAt tokens kind i ∨ (i = tokens.length ∧ token.kind = kind) := by
  unfold KindAt
  rcases Nat.lt_trichotomy i tokens.length with before | rfl | after
  · simp [List.getElem?_append_left before, Nat.ne_of_lt before]
  · simp
  · have beyond : (tokens ++ [token]).length ≤ i := by simpa using after
    simp [List.getElem?_eq_none beyond, List.getElem?_eq_none (Nat.le_of_lt after),
      Nat.ne_of_gt after]

theorem Matched.lt_length (h : Matched tokens i j) : i < tokens.length ∧ j < tokens.length := by
  rw [Matched] at h
  exact ⟨h.2.1.lt_length, h.2.2.1.lt_length⟩

theorem openingsLeft_nil : openingsLeft [] = ∅ := by
  simp [openingsLeft, KindAt]

theorem closingsLeft_nil : closingsLeft [] = ∅ := by
  simp [closingsLeft, KindAt]

theorem matched_concat_of_lt (h : j < tokens.length) :
    Matched (tokens ++ [token]) i j ↔ Matched tokens i j := by
  induction j using Nat.strongRecOn generalizing i with
  | ind j ih =>
    have same {place : Nat} {kind : TokenKind} (before : place < tokens.length) :
        KindAt (tokens ++ [token]) kind place ↔ KindAt tokens kind place := by
      rw [kindAt_concat]
      exact or_iff_left fun last => Nat.ne_of_lt before last.1
    rw [Matched, Matched]
    refine and_congr_right fun order => ?_
    refine and_congr (same (order.trans h)) (and_congr (same h) (and_congr ?_ ?_))
    · exact forall₂_congr fun k earlier => not_congr (ih k earlier (earlier.trans h))
    · refine forall₃_congr fun between _ before => ?_
      refine imp_congr (same (before.trans h)) ?_
      exact exists₂_congr fun k earlier => ih k earlier (earlier.trans h)

/-- A closing bracket is matched with the last of the opening ones that are left before it. -/
theorem matched_concat_length : Matched (tokens ++ [token]) i tokens.length ↔
    token.kind = .closing ∧ IsGreatest (openingsLeft tokens) i := by
  have opening {place : Nat} (before : place < tokens.length) :
      KindAt (tokens ++ [token]) .opening place ↔ KindAt tokens .opening place := by
    rw [kindAt_concat]
    exact or_iff_left fun last => Nat.ne_of_lt before last.1
  have closing : KindAt (tokens ++ [token]) .closing tokens.length ↔ token.kind = .closing := by
    rw [kindAt_concat]
    simpa using fun inside : KindAt tokens .closing tokens.length =>
      absurd inside.lt_length (Nat.lt_irrefl _)
  rw [Matched]
  constructor
  · rintro ⟨order, opens, closes, unmatched, taken⟩
    have left : i ∈ openingsLeft tokens := by
      refine ⟨(opening order).1 opens, fun j paired => ?_⟩
      have before := paired.lt_length.2
      exact unmatched j before ((matched_concat_of_lt before).2 paired)
    refine ⟨closing.1 closes, left, ?_⟩
    intro other ⟨opensOther, unpaired⟩
    by_contra later
    obtain ⟨k, before, paired⟩ := taken other (Nat.lt_of_not_le later) opensOther.lt_length
      ((opening opensOther.lt_length).2 opensOther)
    exact unpaired k ((matched_concat_of_lt before).1 paired)
  · rintro ⟨closes, ⟨opens, unpaired⟩, greatest⟩
    have order := opens.lt_length
    refine ⟨order, (opening order).2 opens, closing.2 closes, ?_, ?_⟩
    · intro k before paired
      exact unpaired k ((matched_concat_of_lt before).1 paired)
    · intro between after before opensBetween
      by_contra free
      have left : between ∈ openingsLeft tokens := by
        refine ⟨(opening before).1 opensBetween, fun k paired => free ?_⟩
        have earlier := paired.lt_length.2
        exact ⟨k, earlier, (matched_concat_of_lt earlier).2 paired⟩
      exact absurd (greatest left) (Nat.not_le_of_lt after)

theorem matched_concat : Matched (tokens ++ [token]) i j ↔ Matched tokens i j ∨
    (j = tokens.length ∧ token.kind = .closing ∧ IsGreatest (openingsLeft tokens) i) := by
  rcases Nat.lt_trichotomy j tokens.length with before | rfl | after
  · rw [matched_concat_of_lt before]
    exact (or_iff_left fun last => Nat.ne_of_lt before last.1).symm
  · rw [matched_concat_length]
    have outside : ¬ Matched tokens i tokens.length := fun paired =>
      Nat.lt_irrefl _ paired.lt_length.2
    simp [outside]
  · have outside : ¬ Matched (tokens ++ [token]) i j := by
      intro paired
      have inside := paired.lt_length.2
      rw [List.length_append, List.length_singleton] at inside
      omega
    have outside' : ¬ Matched tokens i j := fun paired =>
      Nat.lt_asymm after paired.lt_length.2
    simp [outside, outside', Nat.ne_of_gt after]

theorem mem_openingsLeft_concat : i ∈ openingsLeft (tokens ++ [token]) ↔
    (i ∈ openingsLeft tokens ∧ ¬ (token.kind = .closing ∧ IsGreatest (openingsLeft tokens) i)) ∨
      (i = tokens.length ∧ token.kind = .opening) := by
  have fresh : ¬ KindAt tokens .opening tokens.length := fun inside =>
    Nat.lt_irrefl _ inside.lt_length
  constructor
  · rintro ⟨opens, unpaired⟩
    rcases kindAt_concat.1 opens with opens | last
    · refine .inl ⟨⟨opens, fun j paired => unpaired j (matched_concat.2 (.inl paired))⟩, ?_⟩
      intro taken
      exact unpaired tokens.length (matched_concat.2 (.inr ⟨rfl, taken⟩))
    · exact .inr last
  · rintro (⟨⟨opens, unpaired⟩, kept⟩ | ⟨rfl, opens⟩)
    · refine ⟨kindAt_concat.2 (.inl opens), fun j paired => ?_⟩
      rcases matched_concat.1 paired with paired | ⟨_, taken⟩
      · exact unpaired j paired
      · exact kept taken
    · refine ⟨kindAt_concat.2 (.inr ⟨rfl, opens⟩), fun j paired => ?_⟩
      rcases matched_concat.1 paired with paired | ⟨_, _, taken, _⟩
      · exact Nat.lt_irrefl _ paired.lt_length.1
      · exact fresh taken.1

theorem mem_closingsLeft_concat : j ∈ closingsLeft (tokens ++ [token]) ↔
    j ∈ closingsLeft tokens ∨ (j = tokens.length ∧ token.kind = .closing ∧
      ∀ i : Nat, ¬ IsGreatest (openingsLeft tokens) i) := by
  constructor
  · rintro ⟨closes, unpaired⟩
    rcases kindAt_concat.1 closes with before | ⟨rfl, last⟩
    · exact .inl ⟨before, fun i paired => unpaired i (matched_concat.2 (.inl paired))⟩
    · refine .inr ⟨rfl, last, fun i greatest => ?_⟩
      exact unpaired i (matched_concat.2 (.inr ⟨rfl, last, greatest⟩))
  · rintro (⟨closes, unpaired⟩ | ⟨rfl, closes, none⟩)
    · refine ⟨kindAt_concat.2 (.inl closes), fun i paired => ?_⟩
      rcases matched_concat.1 paired with paired | ⟨rfl, _⟩
      · exact unpaired i paired
      · exact Nat.lt_irrefl _ closes.lt_length
    · refine ⟨kindAt_concat.2 (.inr ⟨rfl, closes⟩), fun i paired => ?_⟩
      rcases matched_concat.1 paired with paired | ⟨_, _, greatest⟩
      · exact Nat.lt_irrefl _ paired.lt_length.2
      · exact none i greatest

end Positions

/-- The tokens at the positions of a set, the latest first. -/
def LatestFirst (tokens : List Token) (positions : Set Nat) (found : List Token) : Prop :=
  ∃ places : List Nat, places.Pairwise (· > ·) ∧ (∀ i : Nat, i ∈ places ↔ i ∈ positions) ∧
    found.map some = places.map fun i => tokens[i]?

theorem isGreatest_of_pairwise {positions : Set Nat} {i : Nat} {rest : List Nat}
    (order : (i :: rest).Pairwise (· > ·)) (inside : ∀ k : Nat, k ∈ i :: rest ↔ k ∈ positions) :
    IsGreatest positions i := by
  refine ⟨(inside i).1 List.mem_cons_self, fun k member => ?_⟩
  rcases List.mem_cons.1 ((inside k).2 member) with rfl | later
  · exact Nat.le_refl k
  · exact Nat.le_of_lt ((List.pairwise_cons.1 order).1 k later)

namespace LatestFirst

variable {tokens found : List Token} {positions : Set Nat} {token : Token}

theorem length_eq (h : LatestFirst tokens positions found) : found.length = positions.ncard := by
  obtain ⟨places, order, inside, same⟩ := h
  have distinct : places.Nodup := order.imp fun later => Nat.ne_of_gt later
  have whole : positions = (places.toFinset : Set Nat) := by
    ext i
    simp [inside]
  rw [whole, Set.ncard_coe_finset, List.toFinset_card_of_nodup distinct]
  simpa using congrArg List.length same

theorem head?_eq_some_iff (h : LatestFirst tokens positions found) : found.head? = some token ↔
    ∃ i : Nat, IsGreatest positions i ∧ tokens[i]? = some token := by
  obtain ⟨places, order, inside, same⟩ := h
  cases places with
  | nil =>
    have empty : found = [] := by simpa using same
    have nothing (i : Nat) : i ∉ positions := by simp [← inside]
    simp [empty, IsGreatest, nothing]
  | cons i rest =>
    obtain ⟨first, others, rfl⟩ := List.exists_cons_of_ne_nil (l := found) (by
      rintro rfl
      simp at same)
    simp only [List.map_cons, List.cons.injEq] at same
    have greatest : IsGreatest positions i := isGreatest_of_pairwise order inside
    constructor
    · rintro ⟨⟩
      exact ⟨i, greatest, same.1.symm⟩
    · rintro ⟨k, also, here⟩
      rw [also.unique greatest, ← same.1] at here
      simpa using here

theorem getLast?_eq_some_iff (h : LatestFirst tokens positions found) :
    found.getLast? = some token ↔
      ∃ i : Nat, IsLeast positions i ∧ tokens[i]? = some token := by
  obtain ⟨places, order, inside, same⟩ := h
  rcases List.eq_nil_or_concat' places with rfl | ⟨earlier, i, rfl⟩
  · have empty : found = [] := by simpa using same
    have nothing (i : Nat) : i ∉ positions := by simp [← inside]
    simp [empty, IsLeast, nothing]
  · have least : IsLeast positions i := by
      refine ⟨(inside i).1 (by simp), fun k member => ?_⟩
      rcases List.mem_append.1 ((inside k).2 member) with later | last
      · exact Nat.le_of_lt ((List.pairwise_append.1 order).2.2 k later i (by simp))
      · exact Nat.le_of_eq (List.mem_singleton.1 last).symm
    have last := congrArg List.getLast? same
    rw [List.map_append, List.map_singleton, List.getLast?_append, List.getLast?_map] at last
    cases ends : found.getLast? with
    | none => simp [ends] at last
    | some final =>
      have place : some final = tokens[i]? := by simpa [ends] using last
      constructor
      · rintro ⟨⟩
        exact ⟨i, least, place.symm⟩
      · rintro ⟨k, also, here⟩
        rw [also.unique least, ← place] at here
        exact here

theorem map_getElem?_concat {places : List Nat} (before : ∀ i ∈ places, i < tokens.length) :
    (places.map fun i => (tokens ++ [token])[i]?) = places.map fun i => tokens[i]? :=
  List.map_congr_left fun i member => List.getElem?_append_left (before i member)

theorem concat (h : LatestFirst tokens positions found)
    (before : ∀ i ∈ positions, i < tokens.length) {positions' : Set Nat}
    (members : ∀ i : Nat, i ∈ positions' ↔ i ∈ positions) :
    LatestFirst (tokens ++ [token]) positions' found := by
  obtain ⟨places, order, inside, same⟩ := h
  refine ⟨places, order, fun i => (inside i).trans (members i).symm, ?_⟩
  rw [map_getElem?_concat fun i member => before i ((inside i).1 member)]
  exact same

theorem push (h : LatestFirst tokens positions found)
    (before : ∀ i ∈ positions, i < tokens.length) {positions' : Set Nat}
    (members : ∀ i : Nat, i ∈ positions' ↔ i = tokens.length ∨ i ∈ positions) :
    LatestFirst (tokens ++ [token]) positions' (token :: found) := by
  obtain ⟨places, order, inside, same⟩ := h
  have earlier : ∀ i ∈ places, i < tokens.length := fun i member => before i ((inside i).1 member)
  refine ⟨tokens.length :: places, List.pairwise_cons.2 ⟨earlier, order⟩, ?_, ?_⟩
  · intro i
    rw [List.mem_cons, inside, members]
  · rw [List.map_cons, List.map_cons, map_getElem?_concat earlier, same,
      List.getElem?_concat_length]

theorem pop {first : Token} (h : LatestFirst tokens positions (first :: found))
    (before : ∀ i ∈ positions, i < tokens.length) {positions' : Set Nat}
    (members : ∀ i : Nat, i ∈ positions' ↔ i ∈ positions ∧ ¬ IsGreatest positions i) :
    LatestFirst (tokens ++ [token]) positions' found := by
  obtain ⟨places, order, inside, same⟩ := h
  obtain ⟨top, rest, rfl⟩ := List.exists_cons_of_ne_nil (l := places) (by
    rintro rfl
    simp at same)
  have greatest : IsGreatest positions top := isGreatest_of_pairwise order inside
  obtain ⟨above, order⟩ := List.pairwise_cons.1 order
  simp only [List.map_cons, List.cons.injEq] at same
  refine ⟨rest, order, fun i => ?_, ?_⟩
  · rw [members, ← inside, List.mem_cons]
    constructor
    · intro member
      refine ⟨.inr member, fun also => ?_⟩
      exact absurd (also.unique greatest) (Nat.ne_of_lt (above i member))
    · rintro ⟨rfl | member, other⟩
      · exact absurd greatest other
      · exact member
  · have earlier : ∀ i ∈ rest, i < tokens.length := fun i member =>
      before i ((inside i).1 (List.mem_cons_of_mem top member))
    rw [map_getElem?_concat earlier]
    exact same.2

end LatestFirst

namespace Unmatched

variable {u : Unmatched} {tokens : List Token}

structure LeftOver (u : Unmatched) (tokens : List Token) : Prop where
  openings : LatestFirst tokens (openingsLeft tokens) u.openings
  closings : LatestFirst tokens (closingsLeft tokens) u.closings

theorem ofTokens_concat (tokens : List Token) (token : Token) :
    ofTokens (tokens ++ [token]) = (ofTokens tokens).next token := by
  rw [ofTokens, List.foldl_append]
  rfl

theorem leftOver_nil : none.LeftOver [] where
  openings := ⟨[], .nil, by simp [openingsLeft_nil], rfl⟩
  closings := ⟨[], .nil, by simp [closingsLeft_nil], rfl⟩

/-- Reading one more token keeps the account of what is left over. -/
theorem LeftOver.next (h : u.LeftOver tokens) (token : Token) :
    (u.next token).LeftOver (tokens ++ [token]) := by
  have openingBefore : ∀ i ∈ openingsLeft tokens, i < tokens.length := fun i left =>
    left.1.lt_length
  have closingBefore : ∀ j ∈ closingsLeft tokens, j < tokens.length := fun j left =>
    left.1.lt_length
  unfold Unmatched.next
  split
  · rename_i opens
    constructor
    · apply h.openings.push openingBefore
      intro i
      simp [mem_openingsLeft_concat, opens, or_comm]
    · apply h.closings.concat closingBefore
      intro j
      simp [mem_closingsLeft_concat, opens]
  · rename_i closes
    split
    · rename_i nothing
      have none (i : Nat) : ¬ IsGreatest (openingsLeft tokens) i := by
        intro greatest
        have here : u.openings.head? = some _ := h.openings.head?_eq_some_iff.2
          ⟨i, greatest, List.getElem?_eq_getElem (openingBefore i greatest.1)⟩
        rw [nothing] at here
        cases here
      constructor
      · apply h.openings.concat openingBefore
        intro i
        simp [mem_openingsLeft_concat, closes, none]
      · apply h.closings.push closingBefore
        intro j
        simp [mem_closingsLeft_concat, closes, none, or_comm]
    · rename_i first outer stack
      have latest : u.openings.head? = some first := by
        rw [stack]
        rfl
      obtain ⟨top, greatest, _⟩ := h.openings.head?_eq_some_iff.1 latest
      constructor
      · apply (stack ▸ h.openings).pop openingBefore
        intro i
        simp [mem_openingsLeft_concat, closes]
      · apply h.closings.concat closingBefore
        intro j
        rw [mem_closingsLeft_concat]
        exact or_iff_left fun ⟨_, _, none⟩ => none top greatest
  · rename_i opens closes
    have notOpening : token.kind ≠ .opening := opens
    have notClosing : token.kind ≠ .closing := closes
    constructor
    · apply h.openings.concat openingBefore
      intro i
      simp [mem_openingsLeft_concat, notOpening, notClosing]
    · apply h.closings.concat closingBefore
      intro j
      simp [mem_closingsLeft_concat, notClosing]

theorem leftOver_ofTokens (tokens : List Token) : (ofTokens tokens).LeftOver tokens := by
  induction tokens using List.reverseRecOn with
  | nil => exact leftOver_nil
  | append_singleton tokens token ih =>
    rw [ofTokens_concat]
    exact ih.next token

/-- The complaint about the brackets of a list is the one that the matching calls for. -/
theorem error?_eq_some_iff {e : ParseError} :
    (ofTokens tokens).error? = some e ↔ Misplaced tokens e := by
  have left := leftOver_ofTokens tokens
  unfold error?
  rw [left.openings.length_eq, left.closings.length_eq]
  split
  · rename_i more
    rw [Option.map_eq_some_iff]
    constructor
    · rintro ⟨token, last, rfl⟩
      obtain ⟨i, least, here⟩ := left.openings.getLast?_eq_some_iff.1 last
      exact .unclosed more least here
    · rintro (⟨_, least, here⟩ | ⟨fewer, _, _⟩ | ⟨same, _, _⟩)
      · exact ⟨_, left.openings.getLast?_eq_some_iff.2 ⟨_, least, here⟩, rfl⟩
      · exact absurd fewer (Nat.lt_asymm more)
      · exact absurd same (Nat.ne_of_gt more)
  · rename_i notMore
    split
    · rename_i fewer
      rw [Option.map_eq_some_iff]
      constructor
      · rintro ⟨token, first, rfl⟩
        obtain ⟨j, greatest, here⟩ := left.closings.head?_eq_some_iff.1 first
        exact .extra fewer greatest here
      · rintro (⟨more, _, _⟩ | ⟨_, greatest, here⟩ | ⟨same, _, _⟩)
        · exact absurd more notMore
        · exact ⟨_, left.closings.head?_eq_some_iff.2 ⟨_, greatest, here⟩, rfl⟩
        · exact absurd same (Nat.ne_of_lt fewer)
    · rename_i notFewer
      rw [Option.map_eq_some_iff]
      constructor
      · rintro ⟨token, last, rfl⟩
        obtain ⟨j, least, here⟩ := left.closings.getLast?_eq_some_iff.1 last
        exact .early (by omega) least here
      · rintro (⟨more, _, _⟩ | ⟨fewer, _, _⟩ | ⟨_, least, here⟩)
        · exact absurd more notMore
        · exact absurd fewer notFewer
        · exact ⟨_, left.closings.getLast?_eq_some_iff.2 ⟨_, least, here⟩, rfl⟩

end Unmatched

end Reckoner

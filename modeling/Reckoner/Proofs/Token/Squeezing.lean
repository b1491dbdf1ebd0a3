import Reckoner.Proofs.Token.Layout

/-!
# White space at the brackets

The normal layout takes out the white space after opening brackets and then that before closing ones.
Which characters go can be said of the text at once: those in a longest run of white space that stands
directly between a bracket and what it encloses. A run is not changed by what is taken out elsewhere,
and so neither substitution leaves work to the other, and their order does not matter.
-/

set_option autoImplicit false

namespace Reckoner.Layout

/-- A longest run of white space, between what comes before it and after it. -/
structure LongestBlank (before run after : List Char) : Prop where
  nonempty : run ≠ []
  blank : ∀ c ∈ run, Text.isBlank c = true
  begins : ∀ c ∈ before.getLast?, Text.isBlank c = false
  ends : ∀ c ∈ after.head?, Text.isBlank c = false

/-- The index is in a longest run of white space directly after an opening bracket or directly before
a closing one. -/
def Squeezed (chars : List Char) (index : Nat) : Prop :=
  ∃ before run after : List Char, chars = before ++ run ++ after ∧ LongestBlank before run after ∧
    (before.getLast? = some '(' ∨ after.head? = some ')') ∧
    before.length ≤ index ∧ index < before.length + run.length

/-- What is left of a text from an index on, when the characters of some indices are taken out and the
others stay in their order. -/
def Leaves (start : Nat) (chars : List Char) (dropped : Nat → Prop) (left : List Char) : Prop :=
  ∃ places : List Nat, places.Pairwise (· < ·) ∧
    (∀ index : Nat, index ∈ places ↔ start ≤ index ∧ index < chars.length ∧ ¬ dropped index) ∧
    left.map some = places.map fun index => chars[index]?

/-- The text with a character in place of every match of a pattern, from left to right and without
overlaps. A pattern tells how long its longest match at the start of a text is, and is zero for none. -/
def replaceAll (pattern : List Char → Nat) (replacement : Char) : List Char → List Char
  | [] => []
  | c :: rest =>
    match pattern (c :: rest) with
    | 0 => c :: replaceAll pattern replacement rest
    | extra + 1 => replacement :: replaceAll pattern replacement (rest.drop extra)
termination_by chars => chars.length
decreasing_by
  · simp
  · simp only [List.length_cons, List.length_drop]
    omega

def openingGap : List Char → Nat
  | [] => 0
  | c :: rest =>
    let run := rest.takeWhile Text.isBlank
    if c = '(' ∧ run ≠ [] then run.length + 1 else 0

def closingGap (chars : List Char) : Nat :=
  let run := chars.takeWhile Text.isBlank
  if run ≠ [] ∧ (chars.dropWhile Text.isBlank).head? = some ')' then run.length + 1 else 0

def firstSolid (chars : List Char) : Option Char := (chars.dropWhile Text.isBlank).head?

def spaced (tokens : List Token) : List Char := (" ".intercalate (tokens.map Token.lexeme)).toList

theorem toList_ofTokens (tokens : List Token) :
    (ofTokens tokens).toList = closeUpBefore (closeUpAfter false (spaced tokens)) :=
  String.toList_ofList

section Steps

variable {c : Char} {chars rest : List Char}

@[simp] theorem firstSolid_nil : firstSolid [] = none := rfl

theorem firstSolid_cons_of_isBlank (blank : Text.isBlank c = true) :
    firstSolid (c :: rest) = firstSolid rest := by
  rw [firstSolid, List.dropWhile_cons_of_pos blank, firstSolid]

theorem firstSolid_cons_of_not_isBlank (solid : Text.isBlank c = false) :
    firstSolid (c :: rest) = some c := by
  simp [firstSolid, solid]

theorem closeUpAfter_cons_of_isBlank (blank : Text.isBlank c = true) (bracketBefore : Bool) :
    closeUpAfter bracketBefore (c :: rest) =
      if bracketBefore then closeUpAfter bracketBefore rest
      else c :: closeUpAfter bracketBefore rest := by
  have other : (c == '(') = false := by
    rw [beq_eq_false_iff_ne]
    rintro rfl
    cases blank
  cases bracketBefore <;> simp [closeUpAfter, blank, other]

theorem closeUpAfter_cons_of_not_isBlank (solid : Text.isBlank c = false) (bracketBefore : Bool) :
    closeUpAfter bracketBefore (c :: rest) = c :: closeUpAfter (c == '(') rest := by
  simp [closeUpAfter, solid]

/-- What is left begins with a closing bracket just if such a bracket is the first that is not white
space. -/
theorem head?_closeUpBefore_iff :
    (closeUpBefore chars).head? = some ')' ↔ firstSolid chars = some ')' := by
  induction chars with
  | nil => simp [closeUpBefore]
  | cons c rest ih =>
    rw [closeUpBefore_cons]
    cases blank : Text.isBlank c with
    | false => simp [firstSolid_cons_of_not_isBlank blank]
    | true =>
      have other : c ≠ ')' := by
        rintro rfl
        cases blank
      rw [firstSolid_cons_of_isBlank blank, ← ih]
      split
      · rfl
      · simp_all

theorem closeUpBefore_cons_of_isBlank (blank : Text.isBlank c = true) :
    closeUpBefore (c :: rest) =
      if firstSolid rest = some ')' then closeUpBefore rest else c :: closeUpBefore rest := by
  simp [closeUpBefore_cons, blank, head?_closeUpBefore_iff]

theorem closeUpBefore_cons_of_not_isBlank (solid : Text.isBlank c = false) :
    closeUpBefore (c :: rest) = c :: closeUpBefore rest := by
  simp [closeUpBefore_cons, solid]

theorem firstSolid_closeUpAfter (bracketBefore : Bool) (chars : List Char) :
    firstSolid (closeUpAfter bracketBefore chars) = firstSolid chars := by
  induction chars generalizing bracketBefore with
  | nil => rfl
  | cons c rest ih =>
    cases blank : Text.isBlank c with
    | false =>
      rw [closeUpAfter_cons_of_not_isBlank blank, firstSolid_cons_of_not_isBlank blank,
        firstSolid_cons_of_not_isBlank blank]
    | true =>
      rw [closeUpAfter_cons_of_isBlank blank, firstSolid_cons_of_isBlank blank]
      split
      · exact ih _
      · rw [firstSolid_cons_of_isBlank blank, ih]

theorem closeUp_cons_of_isBlank (blank : Text.isBlank c = true) (bracketBefore : Bool) :
    closeUpBefore (closeUpAfter bracketBefore (c :: rest)) =
      if bracketBefore = true ∨ firstSolid rest = some ')' then
        closeUpBefore (closeUpAfter bracketBefore rest)
      else c :: closeUpBefore (closeUpAfter bracketBefore rest) := by
  cases bracketBefore <;>
    simp [closeUpAfter_cons_of_isBlank blank, closeUpBefore_cons_of_isBlank blank,
      firstSolid_closeUpAfter]

end Steps

section Order

/-- The white space after opening brackets and that before closing ones are taken out independently. -/
theorem closeUp_comm (bracketBefore : Bool) (chars : List Char) :
    closeUpAfter bracketBefore (closeUpBefore chars) =
      closeUpBefore (closeUpAfter bracketBefore chars) := by
  induction chars generalizing bracketBefore with
  | nil => rfl
  | cons c rest ih =>
    cases blank : Text.isBlank c with
    | false =>
      rw [closeUpBefore_cons_of_not_isBlank blank, closeUpAfter_cons_of_not_isBlank blank,
        closeUpAfter_cons_of_not_isBlank blank, closeUpBefore_cons_of_not_isBlank blank, ih]
    | true =>
      rw [closeUpBefore_cons_of_isBlank blank, closeUp_cons_of_isBlank blank, ← ih]
      split
      · simp [*]
      · simp [*, closeUpAfter_cons_of_isBlank blank]

theorem closeUpAfter_closeUpAfter (bracketBefore : Bool) (chars : List Char) :
    closeUpAfter bracketBefore (closeUpAfter bracketBefore chars) =
      closeUpAfter bracketBefore chars := by
  induction chars generalizing bracketBefore with
  | nil => rfl
  | cons c rest ih =>
    cases blank : Text.isBlank c with
    | false =>
      rw [closeUpAfter_cons_of_not_isBlank blank, closeUpAfter_cons_of_not_isBlank blank, ih]
    | true =>
      cases bracketBefore with
      | true => simpa [closeUpAfter_cons_of_isBlank blank] using ih true
      | false => simpa [closeUpAfter_cons_of_isBlank blank] using ih false

theorem closeUpBefore_closeUpBefore (chars : List Char) :
    closeUpBefore (closeUpBefore chars) = closeUpBefore chars := by
  induction chars with
  | nil => rfl
  | cons c rest ih =>
    rw [closeUpBefore_cons]
    split
    · exact ih
    · rename_i kept
      rw [closeUpBefore_cons, ih, if_neg kept]

end Order

section Neighbours

theorem isChain_closeUpAfter (bracketBefore : Bool) (chars : List Char) :
    (closeUpAfter bracketBefore chars).IsChain (fun c d => c = '(' → Text.isBlank d = false) ∧
      (bracketBefore = true →
        ∀ d ∈ (closeUpAfter bracketBefore chars).head?, Text.isBlank d = false) := by
  induction chars generalizing bracketBefore with
  | nil => simp [closeUpAfter]
  | cons c rest ih =>
    cases blank : Text.isBlank c with
    | false =>
      rw [closeUpAfter_cons_of_not_isBlank blank, List.isChain_cons]
      obtain ⟨chained, first⟩ := ih (c == '(')
      refine ⟨⟨fun d next opening => first (by simpa using opening) d next, chained⟩, ?_⟩
      simpa using fun _ => blank
    | true =>
      rw [closeUpAfter_cons_of_isBlank blank]
      cases bracketBefore with
      | true => exact ih true
      | false =>
        have other : c ≠ '(' := by
          rintro rfl
          cases blank
        simpa [List.isChain_cons, other] using (ih false).1

theorem isChain_closeUpBefore (chars : List Char) :
    (closeUpBefore chars).IsChain (fun c d => d = ')' → Text.isBlank c = false) := by
  induction chars with
  | nil => exact List.IsChain.nil
  | cons c rest ih =>
    rw [closeUpBefore_cons]
    split
    · exact ih
    · rename_i kept
      refine List.isChain_cons.2 ⟨?_, ih⟩
      rintro d next rfl
      simpa [Option.mem_def.1 next] using kept

/-- After both, white space stands neither after an opening bracket nor before a closing one. -/
theorem isChain_closeUp (chars : List Char) :
    (closeUpBefore (closeUpAfter false chars)).IsChain fun c d =>
      (c = '(' → Text.isBlank d = false) ∧ (d = ')' → Text.isBlank c = false) := by
  have after := (isChain_closeUpAfter false (closeUpBefore chars)).1
  rw [closeUp_comm] at after
  have before := isChain_closeUpBefore (closeUpAfter false chars)
  rw [List.isChain_iff_getElem] at after before ⊢
  exact fun index inside => ⟨after index inside, before index inside⟩

end Neighbours

section Substitutions

theorem drop_length_takeWhile (p : Char → Bool) (chars : List Char) :
    chars.drop (chars.takeWhile p).length = chars.dropWhile p := by
  calc chars.drop (chars.takeWhile p).length
    _ = (chars.takeWhile p ++ chars.dropWhile p).drop (chars.takeWhile p).length := by
      rw [List.takeWhile_append_dropWhile]
    _ = chars.dropWhile p := List.drop_left

theorem closeUpAfter_true (chars : List Char) :
    closeUpAfter true chars = closeUpAfter false (chars.dropWhile Text.isBlank) := by
  induction chars with
  | nil => rfl
  | cons c rest ih =>
    cases blank : Text.isBlank c with
    | false =>
      rw [closeUpAfter_cons_of_not_isBlank blank, List.dropWhile_cons_of_neg (by simp [blank]),
        closeUpAfter_cons_of_not_isBlank blank]
    | true =>
      rw [closeUpAfter_cons_of_isBlank blank, if_pos rfl, ih, List.dropWhile_cons_of_pos blank]

theorem closeUpAfter_eq_replaceAll (chars : List Char) :
    closeUpAfter false chars = replaceAll openingGap '(' chars := by
  fun_induction replaceAll openingGap '(' chars with
  | case1 => rfl
  | case2 c rest unmatched ih =>
    rw [closeUpAfter, Bool.false_and, if_neg Bool.false_ne_true, ← ih]
    by_cases opening : c = '('
    · have solid : rest.takeWhile Text.isBlank = [] := by
        simpa [openingGap, opening] using unmatched
      have whole := List.takeWhile_append_dropWhile (p := Text.isBlank) (l := rest)
      rw [solid, List.nil_append] at whole
      simp [opening, closeUpAfter_true, whole]
    · rw [beq_eq_false_iff_ne.2 opening]
  | case3 c rest extra found ih =>
    simp only [openingGap] at found
    split at found
    · rename_i opens
      obtain ⟨rfl, _⟩ := opens
      have length : (rest.takeWhile Text.isBlank).length = extra := Nat.succ.inj found
      rw [← ih, ← length, drop_length_takeWhile, ← closeUpAfter_true]
      rfl
    · cases found

theorem closeUpBefore_run {run rest : List Char} (blank : ∀ c ∈ run, Text.isBlank c = true) :
    closeUpBefore (run ++ ')' :: rest) = ')' :: closeUpBefore rest := by
  induction run with
  | nil => exact closeUpBefore_cons_of_not_isBlank rfl
  | cons c run ih =>
    obtain ⟨here, others⟩ := List.forall_mem_cons.1 blank
    rw [List.cons_append, closeUpBefore_cons, here, ih others]
    rfl

theorem closeUpBefore_eq_replaceAll (chars : List Char) :
    closeUpBefore chars = replaceAll closingGap ')' chars := by
  fun_induction replaceAll closingGap ')' chars with
  | case1 => rfl
  | case2 c rest unmatched ih =>
    rw [← ih]
    cases blank : Text.isBlank c with
    | false => exact closeUpBefore_cons_of_not_isBlank blank
    | true =>
      have other : firstSolid rest ≠ some ')' := by
        simpa [closingGap, blank, firstSolid] using unmatched
      rw [closeUpBefore_cons_of_isBlank blank, if_neg other]
  | case3 c rest extra found ih =>
    simp only [closingGap] at found
    split at found
    · rename_i closes
      obtain ⟨nonempty, closing⟩ := closes
      obtain ⟨after, follows⟩ := List.head?_eq_some_iff.1 closing
      have whole := List.takeWhile_append_dropWhile (p := Text.isBlank) (l := c :: rest)
      have length : ((c :: rest).takeWhile Text.isBlank).length = extra := Nat.succ.inj found
      have blank : ∀ d ∈ (c :: rest).takeWhile Text.isBlank, Text.isBlank d = true :=
        fun d inside => List.mem_takeWhile_imp inside
      have beyond : rest.drop extra = after := by
        calc rest.drop extra
          _ = ((c :: rest).drop extra).drop 1 := by simp
          _ = after := by rw [← length, drop_length_takeWhile, follows]; rfl
      rw [← ih, beyond, ← whole, follows, closeUpBefore_run blank]
    · cases found

end Substitutions

section Places

variable {c : Char} {before rest chars left : List Char} {dropped : Nat → Prop} {start : Nat}

theorem firstSolid_run {run : List Char} (blank : ∀ c ∈ run, Text.isBlank c = true)
    (ends : ∀ c ∈ rest.head?, Text.isBlank c = false) : firstSolid (run ++ rest) = rest.head? := by
  rw [firstSolid, Token.dropWhile_of_ends blank ends]

theorem exists_run (chars : List Char) :
    ∃ run rest : List Char, chars = run ++ rest ∧ (∀ c ∈ run, Text.isBlank c = true) ∧
      ∀ c ∈ rest.head?, Text.isBlank c = false :=
  ⟨chars.takeWhile Text.isBlank, chars.dropWhile Text.isBlank, List.takeWhile_append_dropWhile.symm,
    fun _ inside => List.mem_takeWhile_imp inside, Token.head?_dropWhile Text.isBlank chars⟩

theorem exists_split {outer run after : List Char}
    (same : before ++ c :: rest = outer ++ run ++ after) (reached : outer.length ≤ before.length)
    (inside : before.length < outer.length + run.length) :
    ∃ first last : List Char,
      before = outer ++ first ∧ run = first ++ c :: last ∧ rest = last ++ after := by
  rw [List.append_assoc] at same
  obtain ⟨first, rfl⟩ : outer <+: before :=
    List.prefix_of_prefix_length_le ⟨run ++ after, same.symm⟩ ⟨c :: rest, rfl⟩ reached
  rw [List.append_assoc, List.append_cancel_left_eq] at same
  have part : first ++ [c] <+: run ++ after := ⟨rest, by simp [same]⟩
  have longer : (first ++ [c]).length ≤ run.length := by
    simp only [List.length_append, List.length_singleton] at inside ⊢
    omega
  obtain ⟨last, rfl⟩ := List.prefix_of_prefix_length_le part ⟨after, rfl⟩ longer
  simp only [List.append_assoc, List.append_cancel_left_eq, List.cons_append, List.cons.injEq,
    true_and] at same
  exact ⟨first, last, rfl, by simp, same⟩

/-- A character is squeezed if it is white space and the nearest other character is an opening bracket
on its left or a closing one on its right. -/
theorem squeezed_iff :
    Squeezed (before ++ c :: rest) before.length ↔
      Text.isBlank c = true ∧
        (firstSolid before.reverse = some '(' ∨ firstSolid rest = some ')') := by
  constructor
  · rintro ⟨outer, run, after, same, longest, bracket, reached, inside⟩
    obtain ⟨first, last, rfl, rfl, rfl⟩ := exists_split same reached inside
    obtain ⟨_, blank, begins, ends⟩ := longest
    obtain ⟨left, here, right⟩ : (∀ d ∈ first, Text.isBlank d = true) ∧ Text.isBlank c = true ∧
        ∀ d ∈ last, Text.isBlank d = true := by
      simpa [or_imp, forall_and] using blank
    rw [List.reverse_append, firstSolid_run (by simpa using left) (by simpa using begins),
      firstSolid_run right ends, List.head?_reverse]
    exact ⟨here, bracket⟩
  · rintro ⟨here, bracket⟩
    obtain ⟨first, outer, split, left, begins⟩ := exists_run before.reverse
    obtain ⟨last, after, rfl, right, ends⟩ := exists_run rest
    obtain rfl : before = outer.reverse ++ first.reverse := by
      rw [← List.reverse_append, ← split, List.reverse_reverse]
    rw [split, firstSolid_run left begins, firstSolid_run right ends] at bracket
    refine ⟨outer.reverse, first.reverse ++ c :: last, after, by simp, ?_, ?_, by simp, ?_⟩
    · refine ⟨by simp, ?_, by simpa using begins, ends⟩
      simpa [or_imp, forall_and] using ⟨left, here, right⟩
    · simpa using bracket
    · simp only [List.length_append, List.length_cons]
      omega

namespace Leaves

theorem stop : Leaves chars.length chars dropped [] :=
  ⟨[], .nil, fun index => by simp; omega, rfl⟩

theorem drop (h : Leaves (start + 1) chars dropped left) (gone : dropped start) :
    Leaves start chars dropped left := by
  obtain ⟨places, order, inside, same⟩ := h
  refine ⟨places, order, fun index => ?_, same⟩
  rw [inside]
  constructor
  · exact fun ⟨later, within, stays⟩ => ⟨Nat.le_of_lt later, within, stays⟩
  · rintro ⟨reached, within, stays⟩
    refine ⟨Nat.lt_of_le_of_ne reached ?_, within, stays⟩
    rintro rfl
    exact stays gone

theorem keep (h : Leaves (start + 1) chars dropped left) (here : chars[start]? = some c)
    (stays : ¬ dropped start) : Leaves start chars dropped (c :: left) := by
  obtain ⟨places, order, inside, same⟩ := h
  have within : start < chars.length := (List.getElem?_eq_some_iff.1 here).1
  refine ⟨start :: places, ?_, fun index => ?_, ?_⟩
  · exact List.pairwise_cons.2 ⟨fun index later => ((inside index).1 later).1, order⟩
  · rw [List.mem_cons, inside]
    constructor
    · rintro (rfl | ⟨later, within, stays⟩)
      · exact ⟨Nat.le_refl index, within, stays⟩
      · exact ⟨Nat.le_of_lt later, within, stays⟩
    · rintro ⟨reached, within, stays⟩
      exact (Nat.eq_or_lt_of_le reached).imp Eq.symm fun later => ⟨later, within, stays⟩
  · rw [List.map_cons, List.map_cons, here, same]

end Leaves

/-- From any place in a text on, closing up leaves what is not squeezed. The induction is on what is
still to come, and whether a bracket is before is read off what has come. -/
theorem leaves_closeUp (before rest : List Char) {bracketBefore : Bool}
    (opened : bracketBefore = true ↔ firstSolid before.reverse = some '(') :
    Leaves before.length (before ++ rest) (Squeezed (before ++ rest))
      (closeUpBefore (closeUpAfter bracketBefore rest)) := by
  induction rest generalizing before bracketBefore with
  | nil =>
    rw [List.append_nil]
    exact Leaves.stop
  | cons c rest ih =>
    have here : (before ++ c :: rest)[before.length]? = some c := by simp
    have later {b : Bool} (opened : b = true ↔ firstSolid (before ++ [c]).reverse = some '(') :
        Leaves (before.length + 1) (before ++ c :: rest) (Squeezed (before ++ c :: rest))
          (closeUpBefore (closeUpAfter b rest)) := by
      simpa using ih (before ++ [c]) opened
    rw [List.reverse_concat] at later
    cases blank : Text.isBlank c with
    | false =>
      rw [closeUpAfter_cons_of_not_isBlank blank, closeUpBefore_cons_of_not_isBlank blank]
      apply Leaves.keep (later _) here
      · simp [squeezed_iff, blank]
      · simp [firstSolid_cons_of_not_isBlank blank]
    | true =>
      rw [firstSolid_cons_of_isBlank blank] at later
      rw [closeUp_cons_of_isBlank blank]
      split
      · rename_i bracket
        rw [opened] at bracket
        exact (later opened).drop (squeezed_iff.2 ⟨blank, bracket⟩)
      · rename_i bracket
        rw [opened] at bracket
        exact (later opened).keep here fun gone => bracket (squeezed_iff.1 gone).2

/-- The normal layout is that of the lexemes with single spaces between them, without the longest runs of
white space after opening and before closing brackets. It is what two substitutions make of that text,
in either order, and neither of them changes it any more. -/
theorem ofTokens_squeezes (tokens : List Token) :
    Leaves 0 (spaced tokens) (Squeezed (spaced tokens)) (ofTokens tokens).toList ∧
      ((ofTokens tokens).toList.IsChain fun c d =>
        (c = '(' → Text.isBlank d = false) ∧ (d = ')' → Text.isBlank c = false)) ∧
      replaceAll closingGap ')' (replaceAll openingGap '(' (spaced tokens)) =
        (ofTokens tokens).toList ∧
      replaceAll openingGap '(' (replaceAll closingGap ')' (spaced tokens)) =
        (ofTokens tokens).toList ∧
      replaceAll openingGap '(' (ofTokens tokens).toList = (ofTokens tokens).toList ∧
      replaceAll closingGap ')' (ofTokens tokens).toList = (ofTokens tokens).toList := by
  simp only [toList_ofTokens, ← closeUpAfter_eq_replaceAll, ← closeUpBefore_eq_replaceAll]
  refine ⟨leaves_closeUp [] _ (by simp), isChain_closeUp _, trivial, closeUp_comm _ _, ?_,
    closeUpBefore_closeUpBefore _⟩
  rw [closeUp_comm, closeUpAfter_closeUpAfter]

end Places

end Reckoner.Layout

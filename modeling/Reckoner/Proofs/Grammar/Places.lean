import Reckoner.Proofs.Grammar.Shape
import Reckoner.Token.Scan

/-!
# Where tokens and errors stand

The tokens of a text stand inside of it, one after the other. Whatever parsing makes of tokens, the
nodes of an expression and the errors, stands at the span of a token or at one that covers two
tokens: so it stays in every set of spans that holds the tokens and is closed under merging. The
spans inside of a text are such a set, and those that reach from token to token are another.
-/

set_option autoImplicit false

namespace Reckoner

structure Span.Inside (low high : Int) (s : Span) : Prop where
  low_le : low ≤ s.start
  start_lt : s.start < s.stop
  stop_le : s.stop ≤ high

namespace Span

variable {low high : Int} {s t : Span}

/-- A set that holds with any two spans the span that covers both. -/
def MergeClosed (P : Span → Prop) : Prop := ∀ ⦃s t : Span⦄, P s → P t → P (s.merge t)

theorem mergeClosed_inside : MergeClosed (Inside low high) := by
  rintro s t ⟨_, _, _⟩ ⟨_, _, _⟩
  constructor <;> simp only [Span.merge] <;> omega

theorem Inside.mono {low' high' : Int} (hs : s.Inside low high) (below : low' ≤ low)
    (above : high ≤ high') : s.Inside low' high' :=
  ⟨Int.le_trans below hs.low_le, hs.start_lt, Int.le_trans hs.stop_le above⟩

end Span

namespace Token

def AllAt (P : Span → Prop) (tokens : List Token) : Prop := ∀ token ∈ tokens, P token.span

/-- The first token ends where the second starts, or before. -/
def Before (first second : Token) : Prop := first.span.stop ≤ second.span.start

theorem inside_spanAt {offset length : Nat} (positive : 0 < length) :
    (spanAt offset length).Inside offset (offset + length) := by
  constructor <;> simp only [spanAt] <;> omega

theorem inside_run {offset : Nat} {c : Char} {rest : List Char} (p : Char → Bool) :
    (spanAt offset (c :: rest.takeWhile p).length).Inside offset
      (offset + (c :: rest).length) := by
  apply (inside_spanAt (by simp)).mono (Int.le_refl _)
  have := (List.takeWhile_sublist p (l := rest)).length_le
  simp only [List.length_cons]
  omega

theorem inside_character {offset : Nat} {c : Char} {rest : List Char} :
    (spanAt offset 1).Inside offset (offset + (c :: rest).length) := by
  apply (inside_spanAt Nat.one_pos).mono (Int.le_refl _)
  simp only [List.length_cons]
  omega

/-- The tokens of a scan, or its error, stand between two offsets, and no token starts before those
in front of it have ended. -/
def Placed (low high : Int) : Except ScanError (List Token) → Prop
  | .ok tokens => AllAt (Span.Inside low high) tokens ∧ tokens.Pairwise Before
  | .error e => e.span.Inside low high

theorem Placed.cons {low later high : Int} {scanned : Except ScanError (List Token)}
    (h : Placed later high scanned) (order : low ≤ later) {token : Token}
    (here : token.span.Inside low high) (ends : token.span.stop ≤ later) :
    Placed low high (scanned >>= fun tokens => pure (token :: tokens)) := by
  cases scanned with
  | error e => exact h.mono order (Int.le_refl _)
  | ok tokens =>
    obtain ⟨all, ordered⟩ := h
    constructor
    · intro other inside
      rcases List.mem_cons.1 inside with rfl | inside
      · exact here
      · exact (all other inside).mono order (Int.le_refl _)
    · rw [List.pairwise_cons]
      refine ⟨fun other inside => ?_, ordered⟩
      exact Int.le_trans ends (all other inside).low_le

theorem Placed.mono {low later high : Int} {scanned : Except ScanError (List Token)}
    (h : Placed later high scanned) (order : low ≤ later) : Placed low high scanned := by
  cases scanned with
  | error e => exact Span.Inside.mono h order (Int.le_refl _)
  | ok tokens => exact ⟨fun token inside => (h.1 token inside).mono order (Int.le_refl _), h.2⟩

theorem length_run (c : Char) (rest : List Char) (p : Char → Bool) :
    (c :: rest.takeWhile p).length + (rest.dropWhile p).length = (c :: rest).length := by
  have := congrArg List.length (List.takeWhile_append_dropWhile (p := p) (l := rest))
  simp only [List.length_append] at this
  simp only [List.length_cons]
  omega

theorem placed_scan (offset : Nat) (chars : List Char) :
    Placed offset (offset + chars.length) (scan offset chars) := by
  fun_induction scan offset chars with
  | case1 => simp [Placed, AllAt]
  | case2 offset c rest digit run ih =>
    have here : (spanAt offset run.length).Inside offset (offset + (c :: rest).length) :=
      inside_run isNumeral
    have reach : run.length + (rest.dropWhile isNumeral).length = (c :: rest).length :=
      length_run c rest isNumeral
    have stop : ((offset + run.length : Nat) : Int) + (rest.dropWhile isNumeral).length =
        offset + (c :: rest).length := by omega
    rw [stop] at ih
    unfold numberAt
    split
    · exact here
    · exact ih.cons (by omega) here (Int.le_refl _)
  | case3 offset c rest digit letter run ih =>
    have here : (spanAt offset run.length).Inside offset (offset + (c :: rest).length) :=
      inside_run Char.isAlphanum
    have reach : run.length + (rest.dropWhile Char.isAlphanum).length = (c :: rest).length :=
      length_run c rest Char.isAlphanum
    have stop : ((offset + run.length : Nat) : Int) + (rest.dropWhile Char.isAlphanum).length =
        offset + (c :: rest).length := by omega
    rw [stop] at ih
    exact ih.cons (by omega) here (Int.le_refl _)
  | case4 offset c rest digit letter kind symbol ih =>
    have stop : ((offset + 1 : Nat) : Int) + rest.length = offset + (c :: rest).length := by
      simp only [List.length_cons]
      omega
    rw [stop] at ih
    exact ih.cons (by omega) inside_character (Int.le_refl _)
  | case5 offset c rest digit letter symbol spacing ih =>
    have stop : ((offset + 1 : Nat) : Int) + rest.length = offset + (c :: rest).length := by
      simp only [List.length_cons]
      omega
    rw [stop] at ih
    exact ih.mono (by omega)
  | case6 => exact inside_character

/-- From the start of a token of the list to the end of that token or of a later one. -/
def Spanned (tokens : List Token) (s : Span) : Prop :=
  ∃ first last : Fin tokens.length, first ≤ last ∧
    s = ⟨tokens[first].span.start, tokens[last].span.stop⟩

theorem allAt_spanned (tokens : List Token) : AllAt (Spanned tokens) tokens := by
  intro token inside
  obtain ⟨i, here⟩ := List.mem_iff_get.1 inside
  exact ⟨i, i, Fin.le_refl i, by rw [← here]; rfl⟩

theorem start_le_of_le {low high : Int} {tokens : List Token}
    (all : AllAt (Span.Inside low high) tokens) (ordered : tokens.Pairwise Before)
    {i j : Fin tokens.length} (h : i ≤ j) :
    tokens[i].span.start ≤ tokens[j].span.start ∧ tokens[i].span.stop ≤ tokens[j].span.stop := by
  rcases Fin.lt_or_eq_of_le h with lt | rfl
  · have apart : Before tokens[i] tokens[j] := List.pairwise_iff_getElem.1 ordered _ _ _ _ lt
    have first := (all tokens[i] (List.getElem_mem _)).start_lt
    have second := (all tokens[j] (List.getElem_mem _)).start_lt
    unfold Before at apart
    constructor <;> omega
  · exact ⟨Int.le_refl _, Int.le_refl _⟩

/-- Between the tokens of a text, covering two spans is reaching from the earlier first token to the
later last one. -/
theorem mergeClosed_spanned {low high : Int} {tokens : List Token}
    (all : AllAt (Span.Inside low high) tokens) (ordered : tokens.Pairwise Before) :
    Span.MergeClosed (Spanned tokens) := by
  rintro s t ⟨i, j, ij, rfl⟩ ⟨k, l, kl, rfl⟩
  have starts : ∃ first : Fin tokens.length, first ≤ i ∧ first ≤ k ∧
      min tokens[i].span.start tokens[k].span.start = tokens[first].span.start := by
    rcases Nat.le_total i k with h | h
    · exact ⟨i, Fin.le_refl i, h, Int.min_eq_left (start_le_of_le all ordered h).1⟩
    · exact ⟨k, h, Fin.le_refl k, Int.min_eq_right (start_le_of_le all ordered h).1⟩
  have stops : ∃ last : Fin tokens.length, j ≤ last ∧ l ≤ last ∧
      max tokens[j].span.stop tokens[l].span.stop = tokens[last].span.stop := by
    rcases Nat.le_total j l with h | h
    · exact ⟨l, h, Fin.le_refl l, Int.max_eq_right (start_le_of_le all ordered h).2⟩
    · exact ⟨j, Fin.le_refl j, h, Int.max_eq_left (start_le_of_le all ordered h).2⟩
  obtain ⟨first, before, _, start⟩ := starts
  obtain ⟨last, after, _, stop⟩ := stops
  refine ⟨first, last, Fin.le_trans before (Fin.le_trans ij after), ?_⟩
  rw [Span.merge, Span.mk.injEq]
  exact ⟨start, stop⟩

end Token

namespace Unmatched

theorem mem_of_mem_next {u : Unmatched} {token other : Token}
    (h : other ∈ (u.next token).openings ∨ other ∈ (u.next token).closings) :
    other = token ∨ other ∈ u.openings ∨ other ∈ u.closings := by
  unfold next at h
  split at h
  · rcases h with h | h
    · rcases List.mem_cons.1 h with rfl | h
      · exact .inl rfl
      · exact .inr (.inl h)
    · exact .inr (.inr h)
  · split at h
    · rcases h with h | h
      · exact .inr (.inl h)
      · rcases List.mem_cons.1 h with rfl | h
        · exact .inl rfl
        · exact .inr (.inr h)
    · rename_i opening outer some
      rcases h with h | h
      · exact .inr (.inl (some ▸ List.mem_cons_of_mem opening h))
      · exact .inr (.inr h)
  · exact .inr h

theorem mem_of_mem_foldl {u : Unmatched} {tokens : List Token} {token : Token}
    (h : token ∈ (tokens.foldl next u).openings ∨ token ∈ (tokens.foldl next u).closings) :
    token ∈ tokens ∨ token ∈ u.openings ∨ token ∈ u.closings := by
  induction tokens generalizing u with
  | nil => exact .inr h
  | cons first rest ih =>
    rcases ih h with inside | left
    · exact .inl (List.mem_cons_of_mem first inside)
    · rcases mem_of_mem_next left with rfl | before
      · exact .inl List.mem_cons_self
      · exact .inr before

theorem exists_of_error? {tokens : List Token} {e : ParseError}
    (h : (ofTokens tokens).error? = some e) : ∃ token ∈ tokens, e.span = token.span := by
  have among {token : Token}
      (left : token ∈ (ofTokens tokens).openings ∨ token ∈ (ofTokens tokens).closings) :
      token ∈ tokens := by
    rcases mem_of_mem_foldl left with inside | none | none
    · exact inside
    · cases none
    · cases none
  unfold error? at h
  split at h
  · obtain ⟨token, last, rfl⟩ := Option.map_eq_some_iff.1 h
    exact ⟨token, among (.inl (List.mem_of_getLast? last)), rfl⟩
  · split at h
    · obtain ⟨token, first, rfl⟩ := Option.map_eq_some_iff.1 h
      exact ⟨token, among (.inr (List.mem_of_head? first)), rfl⟩
    · obtain ⟨token, last, rfl⟩ := Option.map_eq_some_iff.1 h
      exact ⟨token, among (.inr (List.mem_of_getLast? last)), rfl⟩

end Unmatched

section Parsing

open Token (AllAt)

variable {P : Span → Prop} {tokens : List Token}

theorem spanOf_mem (merges : Span.MergeClosed P) (nonempty : tokens ≠ [])
    (all : AllAt P tokens) : P (spanOf tokens) := by
  unfold spanOf
  rw [List.head?_eq_some_head nonempty, List.getLast?_eq_some_getLast nonempty]
  exact merges (all _ (List.head_mem nonempty)) (all _ (List.getLast_mem nonempty))

theorem mem_of_enclosed? {inner : List Token} (h : enclosed? tokens = some inner) {token : Token}
    (inside : token ∈ inner) : token ∈ tokens := by
  obtain ⟨opening, closing, _, _, _, rfl⟩ := enclosed?_eq_some_iff.1 h
  simp [inside]

theorem mem_of_stripped {slice : List Token} (h : stripped tokens = .ok slice) {token : Token}
    (inside : token ∈ slice) : token ∈ tokens := by
  fun_induction stripped tokens with
  | case1 => cases h
  | case2 => cases h; exact inside
  | case3 => cases h
  | case4 tokens _ first rest enclosed ih => exact mem_of_enclosed? enclosed (ih h)

theorem stripped_ne_nil {slice : List Token} (h : stripped tokens = .ok slice)
    (nonempty : tokens ≠ []) : slice ≠ [] := by
  fun_induction stripped tokens with
  | case1 => cases h
  | case2 => cases h; exact nonempty
  | case3 => cases h
  | case4 tokens _ first rest enclosed ih => exact ih h (List.cons_ne_nil _ _)

theorem span_mem_of_stripped (merges : Span.MergeClosed P) {e : ParseError}
    (h : stripped tokens = .error e) (all : AllAt P tokens) : P e.span := by
  fun_induction stripped tokens with
  | case1 tokens found wrong =>
    cases h
    obtain ⟨token, inside, place⟩ := Unmatched.exists_of_error? wrong
    rw [place]
    exact all token inside
  | case2 => cases h
  | case3 tokens _ enclosed =>
    cases h
    refine spanOf_mem merges ?_ all
    rintro rfl
    cases enclosed
  | case4 tokens _ first rest enclosed ih =>
    exact ih h fun token inside => all token (mem_of_enclosed? enclosed inside)

theorem span_mem_of_select (merges : Span.MergeClosed P) {e : ParseError}
    (h : Cut.select tokens = .error e) (nonempty : tokens ≠ []) (all : AllAt P tokens) :
    P e.span := by
  unfold Cut.select at h
  split at h
  · cases h
    exact spanOf_mem merges nonempty all
  · rename_i cut found
    have operator : cut.operator ∈ tokens := by
      rw [← Cut.slice_of_candidate? found, Cut.slice]
      simp
    unfold Cut.settled at h
    split at h
    · cases h
    · split at h
      · split at h
        · cases h
        · cases h
          exact all _ operator
      · cases h

namespace Expr

theorem span_mem_of_ofValue {token : Token} {e : ParseError} (h : ofValue token = .error e)
    (here : P token.span) : P e.span := by
  unfold ofValue at h
  split at h
  · cases h
  · cases h
  · cases h
    exact here

theorem span_mem_of_ofSigned {sign operand : Token} {e : ParseError}
    (h : ofSigned sign operand = .error e) (first : P sign.span) (second : P operand.span) :
    P e.span := by
  have magnitude {e : ParseError} (h : ofSigned.magnitude operand = .error e) : P e.span := by
    unfold ofSigned.magnitude at h
    split at h
    · cases h
    · cases h
      exact second
  unfold ofSigned at h
  split at h
  · cases found : ofSigned.magnitude operand with
    | error e' => simp only [found, Except.map, Except.error.injEq] at h; exact h ▸ magnitude found
    | ok value => simp [found, Except.map] at h
  · cases found : ofSigned.magnitude operand with
    | error e' => simp only [found, Except.map, Except.error.injEq] at h; exact h ▸ magnitude found
    | ok value => simp [found, Except.map] at h
  · cases h
    exact first

theorem ofCut_eq_error {cut : Cut} {e : ParseError} (h : ofCut cut = .error e) :
    e.span = cut.operator.span ∨
      (cut.before ≠ [] ∧ parse cut.before = .error e) ∨
      (cut.after ≠ [] ∧ parse cut.after = .error e) := by
  unfold ofCut at h
  split at h
  · cases h
    exact .inl rfl
  · rename_i before
    split at h
    · cases h
      exact .inl rfl
    · rename_i after
      rw [List.isEmpty_iff] at before after
      cases left : parse cut.before with
      | error e' =>
        simp only [left, bind, Except.bind, Except.error.injEq] at h
        exact .inr (.inl ⟨before, h ▸ rfl⟩)
      | ok first =>
        cases right : parse cut.after with
        | error e' =>
          simp only [left, right, bind, Except.bind, Except.error.injEq] at h
          exact .inr (.inr ⟨after, h ▸ rfl⟩)
        | ok second => simp [left, right, bind, Except.bind, pure, Except.pure] at h

theorem parse_nil : parse [] = .error ⟨.noTokens, .empty⟩ := by
  rw [parse_eq, stripped_of_not_enclosed (by rfl) (by rfl)]
  rfl

/-- A list with tokens in it is refused at a place among these tokens. -/
theorem span_mem_of_parse (merges : Span.MergeClosed P) {e : ParseError}
    (h : parse tokens = .error e) (nonempty : tokens ≠ []) (all : AllAt P tokens) : P e.span := by
  induction size : tokens.length using Nat.strongRecOn generalizing tokens with
  | ind length ih =>
    subst size
    rw [parse_eq] at h
    cases bare : stripped tokens with
    | error e' =>
      simp only [bare, Except.bind, Except.error.injEq] at h
      exact h ▸ span_mem_of_stripped merges bare all
    | ok slice =>
      have short := length_stripped bare
      have present := stripped_ne_nil bare nonempty
      have within : AllAt P slice := fun token inside =>
        all token (mem_of_stripped bare inside)
      simp only [bare, Except.bind] at h
      match slice, h with
      | [], _ => exact absurd rfl present
      | [token], h => exact span_mem_of_ofValue h (within token (by simp))
      | [sign, number], h =>
        exact span_mem_of_ofSigned h (within sign (by simp)) (within number (by simp))
      | first :: second :: third :: rest, h =>
        rw [ofSlice] at h
        cases selected : Cut.select (first :: second :: third :: rest) with
        | error e' =>
          simp only [selected, Except.bind, Except.error.injEq] at h
          exact h ▸ span_mem_of_select merges selected present within
        | ok cut =>
          simp only [selected, Except.bind] at h
          have whole := Cut.slice_of_select selected
          have total := Cut.length_of_select selected
          rcases ofCut_eq_error h with place | ⟨before, failed⟩ | ⟨after, failed⟩
          · rw [place]
            exact within _ (by rw [← whole, Cut.slice]; simp)
          · exact ih _ (by omega) failed before
              (fun token inside => within token (by rw [← whole, Cut.slice]; simp [inside])) rfl
          · exact ih _ (by omega) failed after
              (fun token inside => within token (by rw [← whole, Cut.slice]; simp [inside])) rfl

end Expr

theorem Expr.allAt_values (merges : Span.MergeClosed P) {tree : Expr}
    (h : Expr.parse tokens = .ok tree) (all : AllAt P tokens) :
    AllAt P (tree.values .inorder) :=
  forall_values_of_parse h all fun _ _ _ first second => merges first second

end Parsing

end Reckoner

import Reckoner.Proofs.Token.Lexemes

/-!
# Which texts can be scanned

Besides operators, brackets and blanks a text consists of words: longest runs of letters, digits and
points. Scanning succeeds just if every word is a numeral, a name, or a numeral with a name directly
after it, and no other character occurs.
-/

set_option autoImplicit false

namespace Reckoner.Token

/-- Digits, then optionally a point and any digits. -/
def IsNumeral (run : List Char) : Prop :=
  ∃ whole fraction : List Char, whole ≠ [] ∧ (∀ c ∈ whole, c.isDigit = true) ∧
    (∀ c ∈ fraction, c.isDigit = true) ∧ (run = whole ∨ run = whole ++ '.' :: fraction)

/-- A letter, then letters and digits. -/
def IsName (run : List Char) : Prop :=
  ∃ (first : Char) (rest : List Char), run = first :: rest ∧ first.isAlpha = true ∧
    ∀ c ∈ rest, c.isAlphanum = true

def isWordChar (c : Char) : Bool := c.isAlpha || c.isDigit || c == '.'

/-- An optional numeral, then an optional name. -/
def IsWord (run : List Char) : Prop :=
  ∃ number name : List Char, run = number ++ name ∧ (number = [] ∨ IsNumeral number) ∧
    (name = [] ∨ IsName name)

/-- A run of letters, digits and points that none of these precedes or follows. -/
def IsRun (chars run : List Char) : Prop :=
  ∃ before after : List Char, chars = before ++ run ++ after ∧ run ≠ [] ∧
    (∀ c ∈ run, isWordChar c = true) ∧ (∀ c ∈ before.getLast?, isWordChar c = false) ∧
    (∀ c ∈ after.head?, isWordChar c = false)

/-- The characters that a text may hold outside of its words. -/
def separators : List Char := ['+', '-', '*', '/', '%', '=', '(', ')', ' ', '\t', '\n']

structure WellSpelled (chars : List Char) : Prop where
  allowed : ∀ c ∈ chars, isWordChar c = true ∨ c ∈ separators
  words : ∀ run : List Char, IsRun chars run → IsWord run

section Characters

variable {c : Char}

theorem isWordChar_of_isNumeral (h : isNumeral c = true) : isWordChar c = true := by
  simp only [isNumeral, isWordChar, Bool.or_eq_true] at *
  tauto

theorem isWordChar_of_isAlphanum (h : c.isAlphanum = true) : isWordChar c = true := by
  simp only [Char.isAlphanum, isWordChar, Bool.or_eq_true] at *
  tauto

theorem isNumeral_of_isDigit (h : c.isDigit = true) : isNumeral c = true := by
  simp [isNumeral, h]

theorem isNumeral_eq_false_of_isAlpha (h : c.isAlpha = true) : isNumeral c = false := by
  have point : c ≠ '.' := by
    rintro rfl
    cases h
  simp [isNumeral, not_isDigit_of_isAlpha h, point]

theorem mem_separators_iff : c ∈ separators ↔ (symbol? c).isSome = true ∨ isSpacing c = true := by
  unfold symbol?
  split <;> simp_all [separators, isSpacing, or_assoc]

theorem isWordChar_of_mem_separators (h : c ∈ separators) : isWordChar c = false := by
  have all : separators.all (fun d => !isWordChar d) = true := rfl
  simpa using List.all_eq_true.1 all c h

end Characters

/-- What follows a longest run does not continue it. -/
theorem head?_dropWhile (p : Char → Bool) (chars : List Char) :
    ∀ c ∈ (chars.dropWhile p).head?, p c = false := by
  intro c first
  have stops := List.head?_dropWhile_not p chars
  rwa [Option.mem_def.1 first] at stops

section Words

variable {number name run rest : List Char} {c : Char}

theorem isWord_nil : IsWord [] := ⟨[], [], rfl, .inl rfl, .inl rfl⟩

theorem IsNumeral.ne_nil (h : IsNumeral number) : number ≠ [] := by
  obtain ⟨whole, fraction, nonempty, _, _, rfl | rfl⟩ := h
  · exact nonempty
  · simp

theorem IsNumeral.isNumeral (h : IsNumeral number) : ∀ c ∈ number, isNumeral c = true := by
  obtain ⟨whole, fraction, _, digits, others, rfl | rfl⟩ := h
  · exact fun c inside => isNumeral_of_isDigit (digits c inside)
  · intro c inside
    rcases List.mem_append.1 inside with inside | inside
    · exact isNumeral_of_isDigit (digits c inside)
    · rcases List.mem_cons.1 inside with rfl | inside
      · rfl
      · exact isNumeral_of_isDigit (others c inside)

theorem IsName.head?_isNumeral (h : name = [] ∨ IsName name) :
    ∀ c ∈ name.head?, Token.isNumeral c = false := by
  rcases h with rfl | ⟨first, rest, rfl, letter, _⟩
  · simp
  · intro c here
    cases here
    exact isNumeral_eq_false_of_isAlpha letter

theorem not_mem_point_of_isDigit (h : ∀ c ∈ run, c.isDigit = true) : '.' ∉ run := fun inside => by
  cases h '.' inside

theorem isNumeral_cons_iff (digit : c.isDigit = true) (others : ∀ d ∈ rest, isNumeral d = true) :
    IsNumeral (c :: rest) ↔ (c :: rest).count '.' ≤ 1 := by
  constructor
  · rintro ⟨whole, fraction, _, digits, places, written | written⟩
    · rw [written, List.count_eq_zero_of_not_mem (not_mem_point_of_isDigit digits)]
      exact Nat.zero_le 1
    · rw [written, List.count_append, List.count_cons_self,
        List.count_eq_zero_of_not_mem (not_mem_point_of_isDigit digits),
        List.count_eq_zero_of_not_mem (not_mem_point_of_isDigit places)]
  · intro few
    have numerals : ∀ d ∈ c :: rest, isNumeral d = true := by
      simpa [isNumeral_of_isDigit digit] using others
    have isDigit_of_ne : ∀ d ∈ c :: rest, d ≠ '.' → d.isDigit = true := by
      intro d inside other
      simpa [isNumeral, other] using numerals d inside
    by_cases point : '.' ∈ c :: rest
    · obtain ⟨whole, fraction, written, unpointed⟩ := List.eq_append_cons_of_mem point
      rw [written, List.count_append, List.count_cons_self] at few
      have single : '.' ∉ fraction := by
        rw [← List.count_eq_zero]
        omega
      refine ⟨whole, fraction, ?_, ?_, ?_, .inr written⟩
      · rintro rfl
        cases written
        cases digit
      · intro d inside
        refine isDigit_of_ne d (by simp [written, inside]) ?_
        rintro rfl
        exact unpointed inside
      · intro d inside
        refine isDigit_of_ne d (by simp [written, inside]) ?_
        rintro rfl
        exact single inside
    · refine ⟨c :: rest, [], by simp, fun d inside => isDigit_of_ne d inside ?_, by simp, .inl rfl⟩
      rintro rfl
      exact point inside

theorem isWord_append_of_isNumeral (digit : c.isDigit = true)
    (others : ∀ d ∈ rest, isNumeral d = true) (ends : ∀ d ∈ run.head?, isNumeral d = false) :
    IsWord (c :: rest ++ run) ↔ (c :: rest).count '.' ≤ 1 ∧ IsWord run := by
  rw [← isNumeral_cons_iff digit others]
  constructor
  · rintro ⟨number, name, written, isNumber, isName⟩
    have numerals : ∀ d ∈ number, isNumeral d = true := by
      rcases isNumber with rfl | isNumber
      · simp
      · exact isNumber.isNumeral
    have begins : ∀ d ∈ c :: rest, isNumeral d = true := by
      simpa [isNumeral_of_isDigit digit] using others
    have same : number = c :: rest := by
      rw [← takeWhile_of_ends numerals (IsName.head?_isNumeral isName), ← written,
        takeWhile_of_ends begins ends]
    subst same
    exact ⟨isNumber.resolve_left (by simp), [], name, List.append_cancel_left written, .inl rfl,
      isName⟩
  · rintro ⟨isNumber, number, name, rfl, isNumber', isName⟩
    rcases isNumber' with rfl | isNumber'
    · exact ⟨c :: rest, name, rfl, .inr isNumber, isName⟩
    · obtain ⟨d, number, rfl⟩ := List.exists_cons_of_ne_nil isNumber'.ne_nil
      have := ends d rfl
      rw [isNumber'.isNumeral d (by simp)] at this
      cases this

theorem isWord_append_of_isName (letter : c.isAlpha = true)
    (others : ∀ d ∈ rest, d.isAlphanum = true) (ends : ∀ d ∈ run.head?, d.isAlphanum = false) :
    IsWord (c :: rest ++ run) ↔ IsWord run := by
  have only (h : IsWord run) : run = [] := by
    obtain ⟨number, name, rfl, isNumber, isName⟩ := h
    have begins {d : Char} {others : List Char} (h : number ++ name = d :: others)
        (inside : d.isAlphanum = true) : False := by
      rw [h] at ends
      rw [ends d rfl] at inside
      cases inside
    rcases isNumber with rfl | ⟨whole, fraction, nonempty, digits, _, written⟩
    · rcases isName with rfl | ⟨d, others, rfl, first, _⟩
      · rfl
      · exact (begins rfl (by simp [Char.isAlphanum, first])).elim
    · obtain ⟨d, whole, rfl⟩ := List.exists_cons_of_ne_nil nonempty
      have digit := digits d (by simp)
      rcases written with rfl | rfl <;>
        exact (begins rfl (by simp [Char.isAlphanum, digit])).elim
  constructor
  · rintro ⟨number, name, written, isNumber, isName⟩
    have empty : number = [] := by
      rcases isNumber with rfl | isNumber
      · rfl
      · obtain ⟨d, number, rfl⟩ := List.exists_cons_of_ne_nil isNumber.ne_nil
        have numeral := isNumber.isNumeral d (by simp)
        rw [List.cons_append, List.cons_append, List.cons.injEq] at written
        rw [← written.1, isNumeral_eq_false_of_isAlpha letter] at numeral
        cases numeral
    subst empty
    rcases isName with rfl | ⟨first, later, rfl, _, inside⟩
    · cases written
    · cases run with
      | nil => exact isWord_nil
      | cons d run =>
        simp only [List.nil_append, List.cons_append, List.cons.injEq] at written
        have := inside d (by simp [← written.2])
        rw [ends d rfl] at this
        cases this
  · intro h
    obtain rfl := only h
    exact ⟨[], c :: rest, by simp, .inl rfl, .inr ⟨c, rest, rfl, letter, others⟩⟩

end Words

section Runs

variable {c : Char} {word rest run : List Char}

/-- A character outside of words begins no run and ends none that comes later. -/
theorem isRun_cons_iff (outside : isWordChar c = false) : IsRun (c :: rest) run ↔ IsRun rest run := by
  constructor
  · rintro ⟨before, after, written, nonempty, inside, left, right⟩
    cases before with
    | nil =>
      obtain ⟨d, run, rfl⟩ := List.exists_cons_of_ne_nil nonempty
      cases written
      rw [inside c (by simp)] at outside
      cases outside
    | cons d before =>
      cases written
      refine ⟨before, after, rfl, nonempty, inside, ?_, right⟩
      intro e last
      apply left e
      rw [List.getLast?_cons]
      simp [Option.mem_def.1 last]
  · rintro ⟨before, after, rfl, nonempty, inside, left, right⟩
    refine ⟨c :: before, after, rfl, nonempty, inside, ?_, right⟩
    intro e last
    rw [List.getLast?_cons, Option.mem_some_iff] at last
    cases ends : before.getLast? with
    | none =>
      rw [ends, Option.getD_none] at last
      exact last ▸ outside
    | some d =>
      rw [ends, Option.getD_some] at last
      subst last
      exact left d ends

/-- The first run of a text that a word character begins is its longest beginning of such. -/
theorem isRun_append_iff (nonempty : word ≠ []) (inside : ∀ c ∈ word, isWordChar c = true)
    (ends : ∀ c ∈ rest.head?, isWordChar c = false) :
    IsRun (word ++ rest) run ↔ run = word ∨ IsRun rest run := by
  constructor
  · rintro ⟨before, after, written, found, within, left, right⟩
    cases last : before.getLast? with
    | none =>
      left
      rw [List.getLast?_eq_none_iff.1 last, List.nil_append] at written
      rw [← takeWhile_of_ends within right, ← written, takeWhile_of_ends inside ends]
    | some d =>
      right
      have outside := left d last
      rw [List.append_assoc] at written
      rcases List.append_eq_append_iff.1 written with ⟨between, rfl, remains⟩ | ⟨between, rfl, _⟩
      · refine ⟨between, after, by simp [remains], found, within, ?_, right⟩
        intro e ends
        apply left e
        rw [List.getLast?_append, Option.mem_def.1 ends]
        rfl
      · rw [inside d (List.mem_append_left _ (List.mem_of_getLast? last))] at outside
        cases outside
  · rintro (rfl | ⟨before, after, rfl, found, within, left, right⟩)
    · exact ⟨[], rest, by simp, nonempty, inside, by simp, ends⟩
    · refine ⟨word ++ before, after, by simp, found, within, ?_, right⟩
      intro e last
      cases between : before.getLast? with
      | some d =>
        rw [List.getLast?_append, between] at last
        exact left e (between.trans last)
      | none =>
        -- Without a character in between, the later run would be part of the word.
        obtain ⟨d, run, rfl⟩ := List.exists_cons_of_ne_nil found
        rw [List.getLast?_eq_none_iff.1 between] at ends
        have outside := ends d rfl
        rw [within d (by simp)] at outside
        cases outside

theorem forall_isWord_iff (chars : List Char) :
    (∀ run, IsRun chars run → IsWord run) ↔
      IsWord (chars.takeWhile isWordChar) ∧
        ∀ run, IsRun (chars.dropWhile isWordChar) run → IsWord run := by
  cases begins : chars.takeWhile isWordChar with
  | nil =>
    have whole := List.takeWhile_append_dropWhile (p := isWordChar) (l := chars)
    rw [begins, List.nil_append] at whole
    simp [whole, isWord_nil]
  | cons c word =>
    have inside : ∀ d ∈ c :: word, isWordChar d = true := by
      rw [← begins]
      exact fun d => List.mem_takeWhile_imp
    conv_lhs => rw [← List.takeWhile_append_dropWhile (p := isWordChar) (l := chars), begins]
    simp only [isRun_append_iff (List.cons_ne_nil c word) inside (head?_dropWhile isWordChar chars),
      forall_eq_or_imp]

/-- What comes before the rest of a word may be judged apart. -/
theorem forall_isWord_append_iff {condition : Prop} (inside : ∀ c ∈ word, isWordChar c = true)
    (h : IsWord (word ++ rest.takeWhile isWordChar) ↔
      condition ∧ IsWord (rest.takeWhile isWordChar)) :
    (∀ run, IsRun (word ++ rest) run → IsWord run) ↔
      condition ∧ ∀ run, IsRun rest run → IsWord run := by
  rw [forall_isWord_iff, forall_isWord_iff rest, List.takeWhile_append_of_pos inside,
    List.dropWhile_append_of_pos inside, h, and_assoc]

end Runs

/-- The rest of a text after a beginning that scanning takes at once. -/
theorem wellSpelled_append_iff {condition : Prop} {word rest : List Char}
    (inside : ∀ c ∈ word, isWordChar c = true)
    (h : IsWord (word ++ rest.takeWhile isWordChar) ↔
      condition ∧ IsWord (rest.takeWhile isWordChar)) :
    WellSpelled (word ++ rest) ↔ condition ∧ WellSpelled rest := by
  have words := forall_isWord_append_iff inside h
  constructor
  · rintro ⟨allowed, spelled⟩
    obtain ⟨holds, later⟩ := words.1 spelled
    exact ⟨holds, fun c member => allowed c (List.mem_append_right _ member), later⟩
  · rintro ⟨holds, allowed, later⟩
    refine ⟨fun c member => ?_, words.2 ⟨holds, later⟩⟩
    rcases List.mem_append.1 member with member | member
    · exact .inl (inside c member)
    · exact allowed c member

theorem wellSpelled_cons_iff {c : Char} (h : c ∈ separators) (rest : List Char) :
    WellSpelled (c :: rest) ↔ WellSpelled rest := by
  have runs (run : List Char) : IsRun (c :: rest) run ↔ IsRun rest run :=
    isRun_cons_iff (isWordChar_of_mem_separators h)
  constructor
  · rintro ⟨allowed, words⟩
    exact ⟨fun d member => allowed d (List.mem_cons_of_mem c member),
      fun run here => words run ((runs run).2 here)⟩
  · rintro ⟨allowed, words⟩
    exact ⟨List.forall_mem_cons.2 ⟨.inr h, allowed⟩,
      fun run here => words run ((runs run).1 here)⟩

theorem wellSpelled_nil : WellSpelled [] where
  allowed := by simp
  words := by
    rintro run ⟨before, after, written, nonempty, _⟩
    simp_all

/-- What follows a longest run does not continue it, also not within the word. -/
theorem head?_takeWhile_dropWhile (p q : Char → Bool) (chars : List Char) :
    ∀ c ∈ ((chars.dropWhile p).takeWhile q).head?, p c = false := by
  intro c first
  apply head?_dropWhile p chars c
  cases rest : chars.dropWhile p with
  | nil => simp [rest] at first
  | cons d others =>
    rw [rest, List.takeWhile_cons] at first
    split at first
    · exact first
    · cases first

theorem not_wellSpelled_cons {c : Char} (digit : ¬ c.isDigit = true) (letter : ¬ c.isAlpha = true)
    (symbol : symbol? c = none) (spacing : ¬ isSpacing c = true) (rest : List Char) :
    ¬ WellSpelled (c :: rest) := by
  rintro ⟨allowed, words⟩
  have outside : c ∉ separators := by
    simp [mem_separators_iff, symbol, spacing]
  have point := (allowed c (by simp)).resolve_right outside
  have first := ((forall_isWord_iff (c :: rest)).1 words).1
  rw [List.takeWhile_cons_of_pos point] at first
  obtain ⟨number, name, written, isNumber, isName⟩ := first
  rcases isNumber with rfl | ⟨whole, fraction, nonempty, digits, _, other⟩
  · rcases isName with rfl | ⟨d, later, rfl, first, _⟩
    · cases written
    · cases written
      exact letter first
  · obtain ⟨d, whole, rfl⟩ := List.exists_cons_of_ne_nil nonempty
    have first := digits d (by simp)
    have same : c = d := by
      rcases other with rfl | rfl <;> exact (List.cons.inj written).1
    exact digit (same ▸ first)

theorem exists_cons_iff {first : Token} (later : Except ScanError (List Token)) :
    (∃ tokens, (later >>= fun rest => pure (first :: rest)) = .ok tokens) ↔
      ∃ tokens, later = .ok tokens := by
  cases later <;> simp [bind, Except.bind, pure, Except.pure]

theorem exists_numberAt_iff (offset : Nat) (run : List Char) :
    (∃ token, numberAt offset run = .ok token) ↔ run.count '.' ≤ 1 := by
  unfold numberAt
  split <;> simp <;> omega

/-- Scanning gives tokens just for well-spelled texts. -/
theorem exists_scan_iff (offset : Nat) (chars : List Char) :
    (∃ tokens, scan offset chars = .ok tokens) ↔ WellSpelled chars := by
  fun_induction scan offset chars with
  | case1 => simp [wellSpelled_nil]
  | case2 offset c rest digit run ih =>
    have inside : ∀ d ∈ rest.takeWhile isNumeral, isNumeral d = true :=
      fun d => List.mem_takeWhile_imp
    have wordChars : ∀ d ∈ run, isWordChar d = true :=
      List.forall_mem_cons.2 ⟨isWordChar_of_isNumeral (isNumeral_of_isDigit digit),
        fun d member => isWordChar_of_isNumeral (inside d member)⟩
    have whole : c :: rest = run ++ rest.dropWhile isNumeral :=
      congrArg (c :: ·) (List.takeWhile_append_dropWhile).symm
    have word := isWord_append_of_isNumeral digit inside
      (head?_takeWhile_dropWhile isNumeral isWordChar rest)
    rw [whole, wellSpelled_append_iff wordChars word, ← exists_numberAt_iff offset]
    cases number : numberAt offset run with
    | error e => simp [bind, Except.bind]
    | ok token =>
      rw [← ih]
      exact (exists_cons_iff _).trans (by simp)
  | case3 offset c rest digit letter run ih =>
    have inside : ∀ d ∈ rest.takeWhile Char.isAlphanum, d.isAlphanum = true :=
      fun d => List.mem_takeWhile_imp
    have wordChars : ∀ d ∈ run, isWordChar d = true :=
      List.forall_mem_cons.2 ⟨isWordChar_of_isAlphanum (by simp [Char.isAlphanum, letter]),
        fun d member => isWordChar_of_isAlphanum (inside d member)⟩
    have whole : c :: rest = run ++ rest.dropWhile Char.isAlphanum :=
      congrArg (c :: ·) (List.takeWhile_append_dropWhile).symm
    have word := isWord_append_of_isName letter inside
      (head?_takeWhile_dropWhile Char.isAlphanum isWordChar rest)
    rw [whole, wellSpelled_append_iff wordChars (word.trans (iff_of_eq (true_and _)).symm), true_and,
      ← ih]
    exact exists_cons_iff _
  | case4 offset c rest digit letter kind symbol ih =>
    rw [exists_cons_iff, ih]
    have separator := mem_separators_iff.2 (.inl (Option.isSome_of_mem symbol))
    exact (wellSpelled_cons_iff separator rest).symm
  | case5 offset c rest digit letter symbol spacing ih =>
    rw [ih]
    exact (wellSpelled_cons_iff (mem_separators_iff.2 (.inr spacing)) rest).symm
  | case6 offset c rest digit letter symbol spacing =>
    simp [not_wellSpelled_cons digit letter symbol spacing]

end Reckoner.Token

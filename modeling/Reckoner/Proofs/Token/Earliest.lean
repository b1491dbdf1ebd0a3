import Reckoner.Proofs.Calculator.Outcome
import Reckoner.Proofs.Token.Spelling

/-!
# Errors of scanning are the earliest ones

What comes before an error can be scanned, and no text can that begins the same way up to it: up to
the unexpected character, or up to the second point of a number. Scanning takes a text word by word,
and a word is judged by itself whatever comes after it, as long as that does not continue the word.
-/

set_option autoImplicit false

namespace Reckoner.Token

def IsReadable (chars : List Char) : Prop :=
  ∃ tokens : List Token, ofText (String.ofList chars) = .ok tokens

/-- Some text that begins with the characters is readable. -/
def IsViable (chars : List Char) : Prop := ∃ later : List Char, IsReadable (chars ++ later)

/-- The error is the first one in the characters, the first of which stands at the offset. -/
inductive Earliest (offset : Nat) (chars : List Char) : ScanError → Prop where
  | character {before after : List Char} {c : Char} :
    chars = before ++ c :: after →
    IsReadable before → ¬ IsViable (before ++ [c]) →
    Earliest offset chars ⟨.unexpectedCharacter c, spanAt (offset + before.length) 1⟩
  /-- The run is the longest one of digits and points, and `begun` ends before its second point. -/
  | number {before run after begun others : List Char} :
    chars = before ++ run ++ after →
    IsReadable before →
    (∀ c ∈ run, c.isDigit = true ∨ c = '.') →
    (∀ c ∈ after.head?, ¬ (c.isDigit = true ∨ c = '.')) →
    (∃ c ∈ run.head?, c.isDigit = true) →
    run = begun ++ '.' :: others → begun.count '.' = 1 →
    ¬ IsViable (before ++ begun ++ ['.']) →
    Earliest offset chars
      ⟨.malformedNumber (String.ofList run), spanAt (offset + before.length) run.length⟩

theorem isReadable_iff {chars : List Char} : IsReadable chars ↔ WellSpelled chars := by
  simp only [IsReadable, ofText_eq_ok_iff, String.toList_ofList]
  exact exists_scan_iff 0 chars

theorem isNumeral_iff {c : Char} : isNumeral c = true ↔ c.isDigit = true ∨ c = '.' := by
  simp [isNumeral]

section Words

variable {c : Char} {run rest : List Char}

theorem ends_takeWhile {p : Char → Bool} (q : Char → Bool) (ends : ∀ d ∈ rest.head?, p d = false) :
    ∀ d ∈ (rest.takeWhile q).head?, p d = false := by
  intro d first
  apply ends d
  cases rest with
  | nil => cases first
  | cons e others =>
    rw [List.takeWhile_cons] at first
    split at first
    · exact first
    · cases first

theorem wellSpelled_number_append (digit : c.isDigit = true)
    (inside : ∀ d ∈ run, isNumeral d = true) (ends : ∀ d ∈ rest.head?, isNumeral d = false) :
    WellSpelled (c :: run ++ rest) ↔ (c :: run).count '.' ≤ 1 ∧ WellSpelled rest := by
  have wordChars : ∀ d ∈ c :: run, isWordChar d = true :=
    List.forall_mem_cons.2 ⟨isWordChar_of_isNumeral (isNumeral_of_isDigit digit),
      fun d member => isWordChar_of_isNumeral (inside d member)⟩
  exact wellSpelled_append_iff wordChars
    (isWord_append_of_isNumeral digit inside (ends_takeWhile isWordChar ends))

theorem wellSpelled_name_append (letter : c.isAlpha = true)
    (inside : ∀ d ∈ run, d.isAlphanum = true) (ends : ∀ d ∈ rest.head?, d.isAlphanum = false) :
    WellSpelled (c :: run ++ rest) ↔ WellSpelled rest := by
  have wordChars : ∀ d ∈ c :: run, isWordChar d = true :=
    List.forall_mem_cons.2 ⟨isWordChar_of_isAlphanum (by simp [Char.isAlphanum, letter]),
      fun d member => isWordChar_of_isAlphanum (inside d member)⟩
  have word := isWord_append_of_isName letter inside (ends_takeWhile isWordChar ends)
  have text := wellSpelled_append_iff wordChars (word.trans (iff_of_eq (true_and _)).symm)
  rwa [true_and] at text

theorem not_wellSpelled_number {begun : List Char} (digit : c.isDigit = true)
    (inside : ∀ d ∈ begun, isNumeral d = true) (point : (c :: begun).count '.' = 1)
    (later : List Char) : ¬ WellSpelled (c :: begun ++ '.' :: later) := by
  intro spelled
  have longest : (begun ++ '.' :: later).takeWhile isNumeral =
      begun ++ '.' :: later.takeWhile isNumeral := by
    rw [List.takeWhile_append_of_pos inside, List.takeWhile_cons_of_pos (by rfl)]
  have whole : c :: begun ++ '.' :: later =
      c :: (begun ++ '.' :: later).takeWhile isNumeral ++
        (begun ++ '.' :: later).dropWhile isNumeral :=
    congrArg (c :: ·) List.takeWhile_append_dropWhile.symm
  rw [whole, wellSpelled_number_append digit (fun d => List.mem_takeWhile_imp)
    (head?_dropWhile isNumeral _), longest] at spelled
  have few := spelled.1
  rw [← List.cons_append, List.count_append, point, List.count_cons_self] at few
  omega

theorem exists_second_point (h : 1 < run.count '.') :
    ∃ begun others : List Char, run = begun ++ '.' :: others ∧ begun.count '.' = 1 := by
  have some : '.' ∈ run := List.count_pos_iff.1 (Nat.zero_lt_of_lt h)
  obtain ⟨whole, rest, rfl, unpointed⟩ := List.eq_append_cons_of_mem some
  have free : whole.count '.' = 0 := List.count_eq_zero.2 unpointed
  rw [List.count_append, List.count_cons_self, free] at h
  have another : '.' ∈ rest := List.count_pos_iff.1 (by omega)
  obtain ⟨fraction, others, rfl, unpointed'⟩ := List.eq_append_cons_of_mem another
  refine ⟨whole ++ '.' :: fraction, others, by simp, ?_⟩
  rw [List.count_append, List.count_cons_self, free, List.count_eq_zero.2 unpointed']

end Words

namespace Earliest

variable {offset : Nat} {word rest : List Char} {e : ScanError}

/-- A word in front does not matter if it is judged by itself before everything that begins as the
rest does. -/
theorem append (h : Earliest (offset + word.length) rest e)
    (apart : ∀ part : List Char, (∀ c ∈ part.head?, c ∈ rest.head?) →
      (WellSpelled (word ++ part) ↔ WellSpelled part)) :
    Earliest offset (word ++ rest) e := by
  -- Whatever goes on from a beginning of the rest begins as the rest does.
  have readable {before after : List Char} (whole : rest = before ++ after)
      (readable : IsReadable before) : IsReadable (word ++ before) := by
    rw [isReadable_iff] at readable ⊢
    refine (apart before fun c first => ?_).2 readable
    rw [whole, List.head?_append, Option.mem_def.1 first]
    rfl
  have unviable {before after : List Char} (whole : rest = before ++ after) (nonempty : before ≠ [])
      (unviable : ¬ IsViable before) : ¬ IsViable (word ++ before) := by
    rintro ⟨later, readable⟩
    refine unviable ⟨later, ?_⟩
    rw [isReadable_iff, List.append_assoc] at readable
    rw [isReadable_iff]
    refine (apart (before ++ later) fun c first => ?_).1 readable
    obtain ⟨d, others, rfl⟩ := List.exists_cons_of_ne_nil nonempty
    rw [whole]
    exact first
  have place (before : List Char) :
      offset + word.length + before.length = offset + (word ++ before).length := by
    rw [List.length_append, Nat.add_assoc]
  cases h with
  | @character before after c whole reads nothing =>
    have further : rest = before ++ [c] ++ after := by
      rw [whole, List.append_cons]
    have all : word ++ rest = word ++ before ++ c :: after := by
      rw [whole, List.append_assoc]
    rw [place]
    apply Earliest.character all (readable whole reads)
    rw [List.append_assoc]
    exact unviable further (by simp) nothing
  | @number before run after begun others whole reads inside ends digit split point nothing =>
    have beyond : rest = before ++ (run ++ after) := by
      rw [whole, List.append_assoc]
    have further : rest = before ++ begun ++ ['.'] ++ (others ++ after) := by
      simp [whole, split]
    have all : word ++ rest = word ++ before ++ run ++ after := by
      rw [whole, List.append_assoc, List.append_assoc, List.append_assoc]
    rw [place]
    apply Earliest.number all (readable beyond reads) inside ends digit split point
    rw [List.append_assoc word, List.append_assoc word]
    exact unviable further (by simp) nothing

end Earliest

theorem earliest_of_numberAt {offset : Nat} {c : Char} {run rest : List Char} {e : ScanError}
    (digit : c.isDigit = true) (inside : ∀ d ∈ run, isNumeral d = true)
    (ends : ∀ d ∈ rest.head?, isNumeral d = false) (h : numberAt offset (c :: run) = .error e) :
    Earliest offset (c :: run ++ rest) e := by
  unfold numberAt at h
  split at h
  · rename_i many
    cases h
    obtain ⟨begun, others, split, point⟩ := exists_second_point many
    cases begun with
    | nil => cases point
    | cons d begun =>
      obtain ⟨rfl, rfl⟩ := List.cons.inj split
      have begins : ∀ e ∈ begun, isNumeral e = true := fun e member =>
        inside e (List.mem_append_left _ member)
      have whole : c :: (begun ++ '.' :: others) ++ rest =
          [] ++ (c :: (begun ++ '.' :: others)) ++ rest := rfl
      have second : c :: (begun ++ '.' :: others) = c :: begun ++ '.' :: others := rfl
      refine .number whole (isReadable_iff.2 wellSpelled_nil) ?_ ?_ ⟨c, rfl, digit⟩ second point ?_
      · exact List.forall_mem_cons.2 ⟨.inl digit, fun e member => isNumeral_iff.1 (inside e member)⟩
      · intro e first more
        have stops := ends e first
        rw [isNumeral_iff.2 more] at stops
        cases stops
      · rintro ⟨later, readable⟩
        rw [isReadable_iff, List.nil_append, List.append_assoc] at readable
        exact not_wellSpelled_number digit begins point later readable
  · cases h

theorem earliest_of_scan (offset : Nat) (chars : List Char) (e : ScanError)
    (h : scan offset chars = .error e) : Earliest offset chars e := by
  fun_induction scan offset chars with
  | case1 => cases h
  | case2 offset c rest digit run ih =>
    have inside : ∀ d ∈ rest.takeWhile isNumeral, isNumeral d = true :=
      fun d => List.mem_takeWhile_imp
    have whole : c :: rest = run ++ rest.dropWhile isNumeral :=
      congrArg (c :: ·) (List.takeWhile_append_dropWhile).symm
    have ends := head?_dropWhile isNumeral rest
    rw [whole]
    rcases bind_eq_error_iff.1 h with refused | ⟨token, number, h⟩
    · exact earliest_of_numberAt digit inside ends refused
    rcases bind_eq_error_iff.1 h with failed | ⟨_, _, impossible⟩
    · have few := (exists_numberAt_iff offset run).1 ⟨token, number⟩
      refine (ih failed).append fun part same => ?_
      have apart : WellSpelled (run ++ part) ↔ run.count '.' ≤ 1 ∧ WellSpelled part :=
        wellSpelled_number_append digit inside fun d first => ends d (same d first)
      exact apart.trans (and_iff_right few)
    · cases impossible
  | case3 offset c rest digit letter run ih =>
    have inside : ∀ d ∈ rest.takeWhile Char.isAlphanum, d.isAlphanum = true :=
      fun d => List.mem_takeWhile_imp
    have whole : c :: rest = run ++ rest.dropWhile Char.isAlphanum :=
      congrArg (c :: ·) (List.takeWhile_append_dropWhile).symm
    have ends := head?_dropWhile Char.isAlphanum rest
    rw [whole]
    rcases bind_eq_error_iff.1 h with failed | ⟨_, _, impossible⟩
    · exact (ih failed).append fun part same =>
        wellSpelled_name_append letter inside fun d first => ends d (same d first)
    · cases impossible
  | case4 offset c rest digit letter kind symbol ih =>
    have separator := mem_separators_iff.2 (.inl (Option.isSome_of_mem symbol))
    rcases bind_eq_error_iff.1 h with failed | ⟨_, _, impossible⟩
    · show Earliest offset ([c] ++ rest) e
      apply Earliest.append
      · exact ih failed
      · exact fun part _ => wellSpelled_cons_iff separator part
    · cases impossible
  | case5 offset c rest digit letter symbol spacing ih =>
    have separator := mem_separators_iff.2 (.inr spacing)
    show Earliest offset ([c] ++ rest) e
    apply Earliest.append
    · exact ih h
    · exact fun part _ => wellSpelled_cons_iff separator part
  | case6 offset c rest digit letter symbol spacing =>
    cases h
    have whole : c :: rest = [] ++ c :: rest := rfl
    apply Earliest.character whole (isReadable_iff.2 wellSpelled_nil)
    rintro ⟨later, readable⟩
    exact not_wellSpelled_cons digit letter symbol spacing later (isReadable_iff.1 readable)

/-- A text that cannot be scanned is refused at the first place where it could no longer be
continued to one that can, and the error carries the whole text. -/
theorem earliest_of_ofText_error {text : String} {e : FormulaError} (h : ofText text = .error e) :
    e.text = text ∧ ∃ found : ScanError, e.cause = .scanning found.cause ∧ e.span = found.span ∧
      Earliest 0 text.toList found := by
  obtain ⟨found, failed, rfl⟩ := ofText_eq_error_iff.1 h
  exact ⟨rfl, found, rfl, rfl, earliest_of_scan 0 text.toList found failed⟩

/-- After a name and a number the second point of the next number is the first thing wrong. -/
theorem earliest_second_point :
    ofText "x1 = 2.5+1.0.7.y $" = .error ⟨.scanning (.malformedNumber "1.0.7."), ⟨9, 15⟩,
        "x1 = 2.5+1.0.7.y $"⟩ ∧
      ∃ found : ScanError, found.span = ⟨9, 15⟩ ∧ Earliest 0 "x1 = 2.5+1.0.7.y $".toList found := by
  have failed : ofText "x1 = 2.5+1.0.7.y $" = .error ⟨.scanning (.malformedNumber "1.0.7."),
      ⟨9, 15⟩, "x1 = 2.5+1.0.7.y $"⟩ := by
    decide +kernel
  obtain ⟨_, found, _, span, earliest⟩ := earliest_of_ofText_error failed
  exact ⟨failed, found, span.symm, earliest⟩

end Reckoner.Token

import Reckoner.Proofs.Dialogue.Locality
import Reckoner.Proofs.Terminal.Columns

/-!
# Where the marker of an error stands

The marker has a caret for every character of the span, after as many spaces as there are characters
before it. So the carets stand below these characters if each character up to the end of the span takes
one column, and a tab does so only directly before a tab stop. Behind any wider tab the marker stands
too far to the left.
-/

set_option autoImplicit false

namespace Reckoner

namespace Terminal

/-- The carets of a marker stand in just the columns of a part of the characters shown above it. -/
def Underlines (marker chars : List Char) (start stop : Nat) : Prop :=
  ∀ column : Nat, marker[column]? = some '^' ↔
    columnAt chars start ≤ column ∧ column < columnAt chars stop

def carets (start stop : Nat) : List Char :=
  List.replicate start ' ' ++ List.replicate (stop - start) '^'

section Marker

variable {start stop : Nat}

theorem getElem?_carets (ordered : start ≤ stop) (column : Nat) :
    (carets start stop ++ ['\n'])[column]? = some '^' ↔ start ≤ column ∧ column < stop := by
  rw [carets, List.append_assoc]
  by_cases before : column < start
  · rw [List.getElem?_append_left (by simpa using before), List.getElem?_replicate_of_lt before]
    simp
    omega
  · rw [List.getElem?_append_right (by simpa using before), List.length_replicate]
    by_cases within : column - start < stop - start
    · rw [List.getElem?_append_left (by simpa using within), List.getElem?_replicate_of_lt within]
      simp
      omega
    · rw [List.getElem?_append_right (by simpa using within), List.getElem?_singleton]
      split <;> simp <;> omega

theorem mem_carets {c : Char} (inside : c ∈ carets start stop) : c = ' ' ∨ c = '^' :=
  (List.mem_append.1 inside).imp List.eq_of_mem_replicate List.eq_of_mem_replicate

theorem toList_shown_carets (start stop : Nat) :
    (shown (String.ofList (carets start stop))).toList = carets start stop ++ ['\n'] := by
  have plain : ∀ c ∈ carets start stop, Text.IsPlain c := by
    intro c inside
    rcases mem_carets inside with rfl | rfl <;> simp [Text.IsPlain]
  have untabbed : '\t' ∉ carets start stop := by
    intro inside
    rcases mem_carets inside with tab | tab <;> cases tab
  rw [toList_shown (by simpa using plain), String.toList_ofList, expanded_of_not_mem untabbed]

/-- Where columns run ahead of offsets, a range of offsets agrees with its columns as soon as it ends
where they end. -/
theorem underlines_carets_iff {chars : List Char} (marked : start < stop)
    (inside : stop ≤ chars.length) :
    Underlines (carets start stop ++ ['\n']) chars start stop ↔ columnAt chars stop = stop := by
  simp only [Underlines, getElem?_carets (Nat.le_of_lt marked)]
  constructor
  · intro same
    have ahead := le_columnAt inside
    have begins := (same start).1 ⟨Nat.le_refl start, marked⟩
    have last := (same (columnAt chars stop - 1)).2
    omega
  · intro ends
    have begins : columnAt chars start = start := by
      have aligned := (columnAt_eq_iff inside).1 ends
      apply (columnAt_eq_iff (Nat.le_of_lt (Nat.lt_of_lt_of_le marked inside))).2
      exact fun index before => aligned index (Nat.lt_trans before marked)
    simp [ends, begins]

end Marker

end Terminal

theorem Span.marker_of_le {start stop : Nat} (ordered : start ≤ stop) :
    Span.marker ⟨start, stop⟩ = .ok (String.ofList (Terminal.carets start stop)) := by
  have length : Span.length ⟨start, stop⟩ = .ok (stop - start) := by
    rw [Span.length_of_le (Int.ofNat_le.2 ordered)]
    simp
  rw [Span.marker, length]
  rfl

theorem Diagnostic.marker?_of_lt {d : Diagnostic} {start stop : Nat} (spanned : d.span = ⟨start, stop⟩)
    (marked : start < stop) : d.marker? = .ok (String.ofList (Terminal.carets start stop)) := by
  have ordered := Nat.le_of_lt marked
  have wide : ((stop : Int) - start).toNat ≠ 0 := by omega
  rw [Diagnostic.marker?, spanned, Span.length_of_le (Int.ofNat_le.2 ordered),
    Span.marker_of_le ordered]
  simp only [bind, Except.bind, if_neg wide]
  rfl

theorem FormulaError.FoundIn.exists_span {text : String} {e : FormulaError} (found : e.FoundIn text) :
    ∃ start stop : Nat, e.span = ⟨start, stop⟩ ∧ stop ≤ text.length := by
  obtain ⟨start, starts⟩ := Int.eq_ofNat_of_zero_le found.start_nonneg
  obtain ⟨stop, stops⟩ :=
    Int.eq_ofNat_of_zero_le (Int.le_trans found.start_nonneg found.start_le_stop)
  have inside := found.stop_le_length
  rw [stops] at inside
  refine ⟨start, stop, ?_, Int.ofNat_le.1 inside⟩
  rw [← starts, ← stops]

namespace Calculator

open Terminal

variable {c : Calculator} {text : String} {e : FormulaError}

/-- An error is shown as its formula, a line of carets and its message. The carets stand below the
characters of the span just if every tab up to its end leads to the very next column. -/
theorem underlines_iff (plain : ∀ d ∈ text.toList, Text.IsPlain d)
    (failed : (c.run text).1.result = .error (.error e)) (marked : e.span.start < e.span.stop) :
    ∃ (start stop : Nat) (formula marker message : String),
      e.span = ⟨start, stop⟩ ∧ stop ≤ text.length ∧
      (Terminal.diagnostic false e.diagnostic).trace = [formula, marker, message] ∧
      Draws formula.toList text.toList ∧
      (Underlines marker.toList text.toList start stop ↔
        ∀ index < stop, text.toList[index]? = some '\t' → tabWidth ∣ index + 1) := by
  rw [fst_run] at failed
  have found := foundIn_of_outcome failed
  obtain ⟨start, stop, spanned, inside⟩ := found.exists_span
  have nonempty : start < stop := by
    rw [spanned] at marked
    exact Int.ofNat_lt.1 marked
  have marker := Diagnostic.marker?_of_lt (d := e.diagnostic) spanned nonempty
  refine ⟨start, stop, shown text, shown (String.ofList (carets start stop)), shown e.message,
    spanned, inside, ?_, ?_, ?_⟩
  · rw [Dialogue.trace_diagnostic, marker]
    simp [FormulaError.diagnostic, found.text_eq]
  · rw [toList_shown plain]
    exact draws_expanded text.toList ['\n']
  · rw [toList_shown_carets, underlines_carets_iff nonempty inside, columnAt_eq_iff inside]

/-- In `1234567\t/ 0` the tab fills the one column before the stop. -/
theorem underlines_iff_aligned :
    (initial.run "1234567\t/ 0").1.result =
        .error (.error ⟨.evaluating .dividedByZero, ⟨8, 9⟩, "1234567\t/ 0"⟩) ∧
      ∃ (start stop : Nat) (formula marker message : String),
        (⟨8, 9⟩ : Span) = ⟨start, stop⟩ ∧ stop ≤ "1234567\t/ 0".length ∧
        (Terminal.diagnostic false
            ⟨.zeroDiv, "Divided by zero", ⟨8, 9⟩, "1234567\t/ 0"⟩).trace =
          [formula, marker, message] ∧
        Draws formula.toList "1234567\t/ 0".toList ∧
        (Underlines marker.toList "1234567\t/ 0".toList start stop ↔
          ∀ index < stop, "1234567\t/ 0".toList[index]? = some '\t' → tabWidth ∣ index + 1) := by
  have plain : ∀ d ∈ "1234567\t/ 0".toList, Text.IsPlain d := by
    simp [Text.IsPlain]
  have failed : (initial.run "1234567\t/ 0").1.result =
      .error (.error ⟨.evaluating .dividedByZero, ⟨8, 9⟩, "1234567\t/ 0"⟩) := by
    rw [fst_run, result_outcome, Expr.result_ofText, Token.ofText]
    decide +kernel
  exact ⟨failed, underlines_iff plain failed (by decide)⟩

/-- The error of `1\t/ 0` is at the slash, which is shown in column 8; its caret is in column 2. -/
theorem not_underlines_behind_tab :
    (initial.run "1\t/ 0").1.result =
        .error (.error ⟨.evaluating .dividedByZero, ⟨2, 3⟩, "1\t/ 0"⟩) ∧
      (Terminal.diagnostic false ⟨.zeroDiv, "Divided by zero", ⟨2, 3⟩, "1\t/ 0"⟩).trace =
        ["1       / 0\n", "  ^\n", "Divided by zero\n"] ∧
      Draws "1       / 0\n".toList "1\t/ 0".toList ∧
      ¬ Underlines "  ^\n".toList "1\t/ 0".toList 2 3 := by
  have failed : (initial.run "1\t/ 0").1.result =
      .error (.error ⟨.evaluating .dividedByZero, ⟨2, 3⟩, "1\t/ 0"⟩) := by
    rw [fst_run, result_outcome, Expr.result_ofText, Token.ofText]
    decide +kernel
  have drawn : Draws "1       / 0\n".toList "1\t/ 0".toList :=
    draws_expanded "1\t/ 0".toList ['\n']
  refine ⟨failed, by decide +kernel, drawn, fun underlined => ?_⟩
  have caret := (underlined 2).1 rfl
  exact absurd caret.1 (by decide)

end Calculator

end Reckoner

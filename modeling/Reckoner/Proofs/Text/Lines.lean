import Reckoner.Text.Lines

/-!
# Lines of a text

No line holds a line feed or a carriage return, and any lines without them are the lines of a text:
the one in which each of them ends with a line feed.
-/

set_option autoImplicit false

namespace Reckoner.Text

abbrev IsBreak (c : Char) : Prop := c = '\n' ∨ c = '\r'

/-- Texts that a line feed or a carriage return would end. -/
def IsLine (line : String) : Prop := ∀ c ∈ line.toList, ¬ IsBreak c

def unlines (lines : List String) : String :=
  String.ofList (lines.flatMap fun line => line.toList ++ ['\n'])

theorem not_isBreak_of_mem_lineChars {chars line : List Char} (h : line ∈ lineChars chars) :
    ∀ c ∈ line, ¬ IsBreak c := by
  fun_induction lineChars chars generalizing line with
  | case1 => cases h
  | case2 rest ih =>
    rcases List.mem_cons.1 h with rfl | later
    · exact fun c inside => absurd inside List.not_mem_nil
    · exact ih later
  | case3 c rest _ ends ih =>
    rcases List.mem_cons.1 h with rfl | later
    · exact fun c inside => absurd inside List.not_mem_nil
    · exact ih later
  | case4 c rest _ within none ih =>
    obtain rfl := List.mem_singleton.1 h
    exact List.forall_mem_singleton.2 within
  | case5 c rest _ within first others split ih =>
    rcases List.mem_cons.1 h with rfl | later
    · simp only [List.mem_cons, forall_eq_or_imp]
      exact ⟨within, ih (split ▸ List.mem_cons_self)⟩
    · exact ih (split ▸ List.mem_cons_of_mem first later)

theorem isLine_of_mem_lines {input line : String} (h : line ∈ lines input) : IsLine line := by
  obtain ⟨chars, found, rfl⟩ := List.mem_map.1 h
  rw [IsLine, String.toList_ofList]
  exact not_isBreak_of_mem_lineChars found

theorem lineChars_append (line rest : List Char) (h : ∀ c ∈ line, ¬ IsBreak c) :
    lineChars (line ++ '\n' :: rest) = line :: lineChars rest := by
  induction line with
  | nil => simp [lineChars]
  | cons c line ih =>
    obtain ⟨here, later⟩ := List.forall_mem_cons.1 h
    rw [List.cons_append, lineChars, if_neg here, ih later]
    rintro rest rfl
    exact absurd (.inr rfl) here

theorem lines_unlines {ls : List String} (h : ∀ line ∈ ls, IsLine line) :
    lines (unlines ls) = ls := by
  rw [lines, unlines, String.toList_ofList]
  induction ls with
  | nil => rfl
  | cons line ls ih =>
    obtain ⟨here, later⟩ := List.forall_mem_cons.1 h
    rw [List.flatMap_cons, List.append_assoc, List.singleton_append, lineChars_append _ _ here,
      List.map_cons, ih later, String.ofList_toList]

end Reckoner.Text

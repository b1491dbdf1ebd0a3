import Reckoner.Terminal

/-!
# The columns of a line

A plain line, of printable characters and tabs, is shown on one line of its own. A character takes the
next column, and a tab takes all columns up to the next stop, so that what comes after it may stand
further to the right than its offset says.
-/

set_option autoImplicit false

namespace Reckoner

/-- A printable character of ASCII, or a tab. -/
def Text.IsPlain (c : Char) : Prop := (32 ≤ c.toNat ∧ c.toNat ≤ 126) ∨ c = '\t'

namespace Terminal

def columnAfter (column : Nat) (c : Char) : Nat :=
  if c = '\t' then (column / tabWidth + 1) * tabWidth else column + 1

def columnAfterAll (column : Nat) (chars : List Char) : Nat := chars.foldl columnAfter column

/-- The column in which the character of an index begins. -/
def columnAt (chars : List Char) (index : Nat) : Nat := columnAfterAll 0 (chars.take index)

/-- The line is shown with every character in its columns, and spaces in those of a tab. -/
def Draws (shown chars : List Char) : Prop :=
  ∀ (index : Nat) (c : Char), chars[index]? = some c →
    ∀ column : Nat, columnAt chars index ≤ column → column < columnAt chars (index + 1) →
      shown[column]? = some (if c = '\t' then ' ' else c)

def expanded (column : Nat) : List Char → List Char
  | [] => []
  | c :: rest =>
    if c = '\t' then
      List.replicate (columnAfter column c - column) ' ' ++ expanded (columnAfter column c) rest
    else c :: expanded (column + 1) rest

theorem columnAfter_of_ne {c : Char} (h : c ≠ '\t') (column : Nat) :
    columnAfter column c = column + 1 := if_neg h

theorem columnAfter_tab (column : Nat) : columnAfter column '\t' = column + 1 + gap (column + 1) := by
  simp only [columnAfter, gap, tabWidth, if_true]
  omega

theorem lt_columnAfter (column : Nat) (c : Char) : column < columnAfter column c := by
  by_cases tab : c = '\t'
  · subst tab
    rw [columnAfter_tab]
    omega
  · rw [columnAfter_of_ne tab]
    omega

section Columns

@[simp] theorem columnAfterAll_nil (column : Nat) : columnAfterAll column [] = column := rfl

@[simp] theorem columnAfterAll_cons (column : Nat) (c : Char) (rest : List Char) :
    columnAfterAll column (c :: rest) = columnAfterAll (columnAfter column c) rest := rfl

@[simp] theorem columnAfterAll_append (column : Nat) (before after : List Char) :
    columnAfterAll column (before ++ after) =
      columnAfterAll (columnAfterAll column before) after := List.foldl_append

theorem add_length_le_columnAfterAll (column : Nat) (chars : List Char) :
    column + chars.length ≤ columnAfterAll column chars := by
  induction chars generalizing column with
  | nil => exact Nat.le_refl column
  | cons c rest ih =>
    have further := lt_columnAfter column c
    have later := ih (columnAfter column c)
    rw [List.length_cons, columnAfterAll_cons]
    omega

theorem columnAt_succ {chars : List Char} {index : Nat} (inside : index < chars.length) :
    columnAt chars (index + 1) = columnAfter (columnAt chars index) chars[index] := by
  rw [columnAt, List.take_succ_eq_append_getElem inside, columnAfterAll_append]
  rfl

theorem expanded_append (column : Nat) (before after : List Char) :
    expanded column (before ++ after) =
      expanded column before ++ expanded (columnAfterAll column before) after := by
  induction before generalizing column with
  | nil => rfl
  | cons c before ih =>
    by_cases tab : c = '\t'
    · simp [expanded, tab, ih]
    · simp [expanded, tab, ih, columnAfter_of_ne tab]

theorem length_expanded (column : Nat) (chars : List Char) :
    column + (expanded column chars).length = columnAfterAll column chars := by
  induction chars generalizing column with
  | nil => rfl
  | cons c rest ih =>
    by_cases tab : c = '\t'
    · have further := lt_columnAfter column c
      have later := ih (columnAfter column c)
      simp only [expanded, tab, if_true, List.length_append, List.length_replicate,
        columnAfterAll_cons] at later further ⊢
      omega
    · have later := ih (column + 1)
      simp only [expanded, tab, if_false, List.length_cons, columnAfterAll_cons,
        columnAfter_of_ne tab] at later ⊢
      omega

theorem expanded_of_not_mem {chars : List Char} (h : '\t' ∉ chars) (column : Nat) :
    expanded column chars = chars := by
  induction chars generalizing column with
  | nil => rfl
  | cons c rest ih =>
    rw [List.mem_cons, not_or] at h
    simp [expanded, Ne.symm h.1, ih h.2]

theorem draws_expanded (chars after : List Char) : Draws (expanded 0 chars ++ after) chars := by
  intro index c here column low high
  obtain ⟨inside, rfl⟩ := List.getElem?_eq_some_iff.1 here
  have start : (expanded 0 (chars.take index)).length = columnAt chars index := by
    have total := length_expanded 0 (chars.take index)
    rwa [Nat.zero_add] at total
  have stop := columnAt_succ inside
  have shown : expanded 0 chars = expanded 0 (chars.take index) ++
      expanded (columnAt chars index) (chars[index] :: chars.drop (index + 1)) := by
    calc expanded 0 chars
      _ = expanded 0 (chars.take index ++ chars[index] :: chars.drop (index + 1)) := by simp
      _ = _ := expanded_append 0 _ _
  rw [shown, List.append_assoc, List.getElem?_append_right (by omega), start]
  by_cases tab : chars[index] = '\t'
  · have within : column - columnAt chars index <
        columnAfter (columnAt chars index) chars[index] - columnAt chars index := by
      omega
    rw [if_pos tab, expanded, if_pos tab, List.append_assoc,
      List.getElem?_append_left (by simpa using within), List.getElem?_replicate_of_lt within]
  · rw [columnAfter_of_ne tab] at stop
    have first : column - columnAt chars index = 0 := by omega
    rw [if_neg tab, expanded, if_neg tab, first]
    rfl

end Columns

section Shown

theorem width_of_isPlain {c : Char} (h : Text.IsPlain c) (printable : c ≠ '\t') :
    Text.width c = 1 := by
  obtain ⟨low, high⟩ := h.resolve_right printable
  have single : Text.zeroWidthRanges.contains c = false := by
    show Text.CodeRanges.containsCode ((0x0, 0x1f) :: (0x7f, 0x9f) :: _) c.toNat = false
    rw [Text.CodeRanges.containsCode, if_neg (by omega), if_neg (by omega),
      Text.CodeRanges.containsCode, if_pos (by omega)]
  have narrow : Text.doubleWidthRanges.contains c = false := by
    show Text.CodeRanges.containsCode ((0x1100, 0x115f) :: _) c.toNat = false
    rw [Text.CodeRanges.containsCode, if_pos (by omega)]
  simp [Text.width, single, narrow]

theorem columnsAfter_of_isPlain {run : List Char}
    (plain : ∀ c ∈ run, Text.IsPlain c ∧ c ≠ '\t') (plainEmoji : Bool) :
    Text.columnsAfter plainEmoji run = run.length := by
  induction run generalizing plainEmoji with
  | nil => rfl
  | cons c run ih =>
    obtain ⟨⟨here, printable⟩, later⟩ := List.forall_mem_cons.1 plain
    have width := width_of_isPlain here printable
    obtain ⟨_, high⟩ := here.resolve_right printable
    have unjoined : c ≠ Text.joiner := by
      rintro rfl
      exact absurd high (by decide)
    have unstyled : c ≠ Text.emojiStyle := by
      rintro rfl
      exact absurd high (by decide)
    unfold Text.columnsAfter
    rw [if_neg unjoined, if_neg unstyled, width, if_neg Nat.one_ne_zero, ih later,
      List.length_cons, Nat.add_comm]

theorem segments_ne_nil (separator : Char) (chars : List Char) : segments separator chars ≠ [] := by
  cases chars with
  | nil => simp [segments]
  | cons c rest =>
    unfold segments
    split
    · simp
    · split <;> simp

theorem mem_of_mem_segments {separator : Char} {chars part : List Char}
    (h : part ∈ segments separator chars) : ∀ c ∈ part, c ∈ chars ∧ c ≠ separator := by
  induction chars generalizing part with
  | nil =>
    obtain rfl := List.mem_singleton.1 h
    simp
  | cons d rest ih =>
    unfold segments at h
    split at h
    · rcases List.mem_cons.1 h with rfl | later
      · simp
      · intro c inside
        exact (ih later c inside).imp_left (List.mem_cons_of_mem d)
    · rename_i other
      split at h
      · obtain rfl := List.mem_singleton.1 h
        simpa using other
      · rename_i first parts same
        rw [same] at ih
        rcases List.mem_cons.1 h with rfl | later
        · intro c inside
          rcases List.mem_cons.1 inside with rfl | inside
          · exact ⟨List.mem_cons_self, other⟩
          · exact (ih List.mem_cons_self c inside).imp_left (List.mem_cons_of_mem d)
        · intro c inside
          exact (ih (List.mem_cons_of_mem first later) c inside).imp_left (List.mem_cons_of_mem d)

theorem segments_of_not_mem {separator : Char} {chars : List Char} (h : separator ∉ chars) :
    segments separator chars = [chars] := by
  induction chars with
  | nil => rfl
  | cons c rest ih =>
    rw [List.mem_cons, not_or] at h
    simp [segments, Ne.symm h.1, ih h.2]

theorem flatten_cellsFrom_cons {c : Char} {part : List Char} {parts : List (List Char)}
    (plain : ∀ d ∈ c :: part, Text.IsPlain d ∧ d ≠ '\t') (column : Nat) :
    (cellsFrom column ((c :: part) :: parts)).flatten =
      c :: (cellsFrom (column + 1) (part :: parts)).flatten := by
  cases parts with
  | nil => cases part <;> simp [cellsFrom]
  | cons next parts =>
    have space : Text.IsPlain ' ' ∧ ' ' ≠ '\t' := by simp [Text.IsPlain]
    have columns {run : List Char} (plain : ∀ d ∈ run, Text.IsPlain d ∧ d ≠ '\t') :
        Text.columns (run ++ [' ']) = run.length + 1 := by
      have spaced : ∀ d ∈ run ++ [' '], Text.IsPlain d ∧ d ≠ '\t' :=
        List.forall_mem_append.2 ⟨plain, List.forall_mem_singleton.2 space⟩
      simpa [Text.columns] using columnsAfter_of_isPlain spaced false
    have reached : column + Text.columns (c :: part ++ [' ']) =
        column + 1 + Text.columns (part ++ [' ']) := by
      rw [columns plain, columns (List.forall_mem_cons.1 plain).2, List.length_cons]
      omega
    simp only [cellsFrom, reached, List.flatten_cons]
    simp

theorem flatten_cellsFrom {chars : List Char} (plain : ∀ c ∈ chars, Text.IsPlain c) (column : Nat) :
    (cellsFrom column (segments '\t' chars)).flatten = expanded column chars := by
  induction chars generalizing column with
  | nil => rfl
  | cons c rest ih =>
    obtain ⟨here, later⟩ := List.forall_mem_cons.1 plain
    obtain ⟨part, parts, split⟩ := List.exists_cons_of_ne_nil (segments_ne_nil '\t' rest)
    by_cases tab : c = '\t'
    · subst tab
      have single : Text.columns ([] ++ [' ']) = 1 := rfl
      have wide : columnAfter column '\t' - column = gap (column + 1) + 1 := by
        rw [columnAfter_tab]
        omega
      rw [segments, if_pos rfl, split, cellsFrom.eq_3 _ _ _ (by simp), single, List.flatten_cons,
        ← split, ih later, expanded, if_pos rfl, wide, columnAfter_tab, List.replicate_succ]
      rfl
    · have inside : ∀ d ∈ c :: part, Text.IsPlain d ∧ d ≠ '\t' := by
        refine List.forall_mem_cons.2 ⟨⟨here, tab⟩, fun d member => ?_⟩
        obtain ⟨inRest, printable⟩ := mem_of_mem_segments (split ▸ List.mem_cons_self) d member
        exact ⟨later d inRest, printable⟩
      rw [segments, if_neg tab, split]
      simp only
      rw [flatten_cellsFrom_cons inside, ← split, ih later, expanded, if_neg tab]

theorem ne_lineFeed_of_isPlain {c : Char} (h : Text.IsPlain c) : c ≠ '\n' := by
  rintro rfl
  rcases h with ⟨low, _⟩ | tab
  · exact absurd low (by decide)
  · exact absurd tab (by decide)

theorem isDropped_of_isPlain {c : Char} (h : Text.IsPlain c) : isDropped c = false := by
  rcases h with ⟨low, _⟩ | rfl
  · have other (d : Char) (control : d.toNat < 32) : c ≠ d := by
      rintro rfl
      omega
    simp [isDropped, other]
  · rfl

theorem toList_shown {text : String} (plain : ∀ c ∈ text.toList, Text.IsPlain c) :
    (shown text).toList = expanded 0 text.toList ++ ['\n'] := by
  have kept : text.toList.filter (!isDropped ·) = text.toList := by
    apply List.filter_eq_self.2
    intro c inside
    rw [isDropped_of_isPlain (plain c inside)]
    rfl
  have single : lines text = [cells text.toList] := by
    rw [lines, kept, segments_of_not_mem fun inside => ne_lineFeed_of_isPlain (plain _ inside) rfl]
    rfl
  have joined : (String.join (cells text.toList)).toList = expanded 0 text.toList := by
    rw [String.toList_join, cells, List.flatMap_map, ← flatten_cellsFrom plain 0]
    simp [List.flatMap_def]
  simp [shown, laidOut, single, joined]

end Shown

section Narrow

variable {chars : List Char} {index : Nat}

theorem le_columnAt (inside : index ≤ chars.length) : index ≤ columnAt chars index := by
  simpa [columnAt, inside] using add_length_le_columnAfterAll 0 (chars.take index)

/-- Only before a stop a tab leads to the very next column. -/
theorem columnAfter_eq_succ_iff {column : Nat} (reached : index ≤ column) (c : Char) :
    columnAfter column c = index + 1 ↔
      column = index ∧ (c = '\t' → tabWidth ∣ index + 1) := by
  by_cases tab : c = '\t'
  · simp only [columnAfter, tabWidth, tab, if_true, forall_const]
    omega
  · simp [columnAfter, tab]

/-- Up to a place in a line the columns agree with the offsets just if every tab before it leads to the
very next column. -/
theorem columnAt_eq_iff (inside : index ≤ chars.length) :
    columnAt chars index = index ↔
      ∀ before < index, chars[before]? = some '\t' → tabWidth ∣ before + 1 := by
  induction index with
  | zero => simp [columnAt]
  | succ index ih =>
    have here : chars[index]? = some chars[index] := List.getElem?_eq_getElem inside
    have before := Nat.le_of_lt inside
    rw [columnAt_succ inside, columnAfter_eq_succ_iff (le_columnAt before), ih before,
      Nat.forall_lt_succ_right, here, Option.some.injEq]

end Narrow

end Terminal

end Reckoner

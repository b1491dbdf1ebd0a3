import Reckoner.Terminal

/-!
# Showing errors

An error can be written out and shown unless its span runs backwards, which alone has no length.
-/

set_option autoImplicit false

namespace Reckoner

variable {d : Diagnostic}

theorem Span.exists_marker {s : Span} (h : s.start ≤ s.stop) :
    ∃ text : String, s.marker = .ok text := by
  rw [Span.marker, Span.length_of_le h]
  exact ⟨_, rfl⟩

theorem Diagnostic.exists_marker? (h : d.span.start ≤ d.span.stop) :
    ∃ marker : Option String, d.marker? = .ok marker := by
  obtain ⟨text, drawn⟩ := Span.exists_marker h
  rw [Diagnostic.marker?, Span.length_of_le h]
  by_cases empty : (d.span.stop - d.span.start).toNat = 0
  · exact ⟨none, by simp [bind, Except.bind, empty, pure, Except.pure]⟩
  · exact ⟨some text, by simp [bind, Except.bind, empty, pure, Except.pure, drawn]⟩

theorem Diagnostic.exists_render (h : d.span.start ≤ d.span.stop) :
    ∃ text : String, d.render = .ok text := by
  obtain ⟨marker, marked⟩ := Diagnostic.exists_marker? h
  unfold Diagnostic.render
  by_cases bare : d.text = ""
  · rw [if_pos bare]
    exact ⟨_, rfl⟩
  · rw [if_neg bare, marked]
    exact ⟨_, rfl⟩

/-- Showing a diagnostic is a fault only for a span that runs backwards. -/
theorem Terminal.result_diagnostic (coloured : Bool) (h : d.span.start ≤ d.span.stop) :
    (diagnostic coloured d).result = .ok () := by
  obtain ⟨marker, marked⟩ := Diagnostic.exists_marker? h
  cases marker <;> simp [diagnostic, marked, Except.bind]

end Reckoner

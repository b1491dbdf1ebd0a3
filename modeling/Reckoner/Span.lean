import Reckoner.Fault

/-!
Spans of a text, by character offsets: from `start` up to but without `stop`. Spans that do not
come from a text may be negative or reversed.
-/

set_option autoImplicit false

namespace Reckoner

structure Span where
  start : Int
  stop : Int
  deriving DecidableEq, Repr

/-- A cause of complaint with its place in the text. -/
structure Located (Cause : Type) where
  cause : Cause
  span : Span
  deriving DecidableEq, Repr

namespace Span

def empty : Span := ⟨0, 0⟩

/-- The smallest span that covers both. -/
def merge (s t : Span) : Span := ⟨min s.start t.start, max s.stop t.stop⟩

def length (s : Span) : Except Fault Nat :=
  if s.stop < s.start then .error .reversedSpan else .ok (s.stop - s.start).toNat

/-- Spaces up to the span and a caret under each of its characters. -/
def marker (s : Span) : Except Fault String :=
  s.length.map fun length =>
    String.ofList (List.replicate s.start.toNat ' ' ++ List.replicate length '^')

@[simp] theorem length_of_le {s : Span} (h : s.start ≤ s.stop) :
    s.length = .ok (s.stop - s.start).toNat := by
  simp [length, Int.not_lt.mpr h]

end Span

end Reckoner

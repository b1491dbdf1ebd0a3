import Reckoner.Text.Quoted

/-!
Faults: what goes wrong beyond a single formula, so that it is not reported as one of its errors
but ends the program. `Failure` is either of the two.
-/

set_option autoImplicit false

namespace Reckoner

inductive Fault where
  /-- The remainder of an infinite dividend. -/
  | undefinedRemainder
  /-- A span that stops before it starts has no length. -/
  | reversedSpan
  | unknownLevel (name : String)
  deriving DecidableEq, Repr

namespace Fault

def message : Fault → String
  | undefinedRemainder => "math domain error"
  | reversedSpan => "__len__() should return >= 0"
  | unknownLevel name => s!"Unknown level: {Text.quoted name}"

end Fault

inductive Failure (Error : Type) where
  | error (error : Error)
  | fault (fault : Fault)
  deriving DecidableEq, Repr

namespace Failure

variable {E F : Type}

def map (onError : E → F) : Failure E → Failure F
  | .error e => .error (onError e)
  | .fault f => .fault f

@[simp] theorem map_error (onError : E → F) (e : E) :
    map onError (.error e) = .error (onError e) := rfl

@[simp] theorem map_fault (onError : E → F) (f : Fault) : map onError (.fault f) = .fault f := rfl

end Failure

end Reckoner

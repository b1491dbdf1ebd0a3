/-!
Computations that leave a trace: notes in the order in which they were taken, and a value or an
error at the end. The notes taken before an error are kept.
-/

set_option autoImplicit false

namespace Reckoner

structure Traced (Note Error Value : Type) where
  trace : List Note
  result : Except Error Value

namespace Traced

variable {Note Note' Error Error' Value Value' Value'' : Type}

def ofExcept (result : Except Error Value) : Traced Note Error Value := ⟨[], result⟩

def fail (e : Error) : Traced Note Error Value := ⟨[], .error e⟩

def note (n : Note) : Traced Note Error Unit := ⟨[n], .ok ()⟩

def noteAll (notes : List Note) : Traced Note Error Unit := ⟨notes, .ok ()⟩

def bind (first : Traced Note Error Value) (next : Value → Traced Note Error Value') :
    Traced Note Error Value' :=
  match first.result with
  | .error e => ⟨first.trace, .error e⟩
  | .ok value =>
    let rest := next value
    ⟨first.trace ++ rest.trace, rest.result⟩

instance : Monad (Traced Note Error) where
  pure value := ⟨[], .ok value⟩
  bind := bind

def mapNotes (f : Note → Note') (t : Traced Note Error Value) : Traced Note' Error Value :=
  ⟨t.trace.map f, t.result⟩

def mapError (f : Error → Error') (t : Traced Note Error Value) : Traced Note Error' Value :=
  ⟨t.trace, t.result.mapError f⟩

@[simp] theorem trace_pure (value : Value) : (pure value : Traced Note Error Value).trace = [] :=
  rfl

@[simp] theorem result_pure (value : Value) :
    (pure value : Traced Note Error Value).result = .ok value := rfl

@[simp] theorem trace_note (n : Note) : (note n : Traced Note Error Unit).trace = [n] := rfl

@[simp] theorem result_note (n : Note) : (note n : Traced Note Error Unit).result = .ok () := rfl

@[simp] theorem trace_fail (e : Error) : (fail e : Traced Note Error Value).trace = [] := rfl

@[simp] theorem result_fail (e : Error) : (fail e : Traced Note Error Value).result = .error e :=
  rfl

@[simp] theorem trace_ofExcept (result : Except Error Value) :
    (ofExcept result : Traced Note Error Value).trace = [] := rfl

@[simp] theorem result_ofExcept (result : Except Error Value) :
    (ofExcept result : Traced Note Error Value).result = result := rfl

@[simp] theorem result_noteAll (notes : List Note) :
    (noteAll notes : Traced Note Error Unit).result = .ok () := rfl

@[simp] theorem result_mapNotes (f : Note → Note') (t : Traced Note Error Value) :
    (t.mapNotes f).result = t.result := rfl

@[simp] theorem result_mapError (f : Error → Error') (t : Traced Note Error Value) :
    (t.mapError f).result = t.result.mapError f := rfl

@[simp] theorem result_bind (first : Traced Note Error Value)
    (next : Value → Traced Note Error Value') :
    (first >>= next).result = first.result.bind fun value => (next value).result := by
  show (bind first next).result = _
  cases h : first.result <;> simp [bind, h, Except.bind]

theorem bind_of_error {first : Traced Note Error Value} {e : Error}
    (next : Value → Traced Note Error Value') (h : first.result = .error e) :
    first >>= next = ⟨first.trace, .error e⟩ := by
  show bind first next = _
  rw [bind, h]

theorem bind_of_ok {first : Traced Note Error Value} {value : Value}
    (next : Value → Traced Note Error Value') (h : first.result = .ok value) :
    first >>= next = ⟨first.trace ++ (next value).trace, (next value).result⟩ := by
  show bind first next = _
  rw [bind, h]

theorem bind_pure (t : Traced Note Error Value) : t >>= pure = t := by
  cases h : t.result with
  | error e => rw [bind_of_error _ h, ← h]
  | ok value => rw [bind_of_ok _ h, trace_pure, result_pure, List.append_nil, ← h]

theorem bind_bind (first : Traced Note Error Value) (next : Value → Traced Note Error Value')
    (last : Value' → Traced Note Error Value'') :
    first >>= next >>= last = first >>= fun value => next value >>= last := by
  cases h : first.result with
  | error e => rw [bind_of_error _ h, bind_of_error _ h, bind_of_error _ rfl]
  | ok value =>
    rw [bind_of_ok _ h, bind_of_ok _ h]
    cases h' : (next value).result with
    | error e => rw [bind_of_error _ h', bind_of_error _ rfl]
    | ok value' => rw [bind_of_ok _ h', bind_of_ok _ rfl, List.append_assoc]

instance : LawfulMonad (Traced Note Error) :=
  LawfulMonad.mk' _ bind_pure (fun _ _ => rfl) bind_bind

end Traced

end Reckoner

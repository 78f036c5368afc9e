/-!
# Traced computations

A traced computation leaves a list of events and ends with a value or an error.  A failure keeps the
events that came before it.
-/

namespace ArrowLang

structure Traced (ω ε α : Type) where
  events : List ω
  outcome : Except ε α

namespace Traced

variable {ω ε ε' α β : Type}

/-- Runs a second computation on the value of the first. -/
def andThen (first : Traced ω ε α) (next : α → Traced ω ε β) : Traced ω ε β :=
  match first.outcome with
  | .ok value =>
    let second := next value
    ⟨first.events ++ second.events, second.outcome⟩
  | .error error => ⟨first.events, .error error⟩

instance : Monad (Traced ω ε) where
  pure value := ⟨[], .ok value⟩
  bind := andThen

def fail (error : ε) : Traced ω ε α := ⟨[], .error error⟩

def emit (event : ω) : Traced ω ε Unit := ⟨[event], .ok ()⟩

/-- Fails with the error unless the condition holds. -/
def require (condition : Bool) (error : ε) : Traced ω ε Unit :=
  if condition then pure () else fail error

/-- A plain result, without events. -/
def ofExcept (result : Except ε α) : Traced ω ε α := ⟨[], result⟩

def mapError (f : ε → ε') (traced : Traced ω ε α) : Traced ω ε' α :=
  ⟨traced.events, traced.outcome.mapError f⟩

@[simp]
theorem outcome_pure (value : α) : (pure value : Traced ω ε α).outcome = .ok value := rfl

@[simp]
theorem outcome_bind (first : Traced ω ε α) (next : α → Traced ω ε β) :
    (first >>= next).outcome = first.outcome >>= fun value ↦ (next value).outcome := by
  change (andThen first next).outcome = _
  unfold andThen
  cases first.outcome <;> rfl

@[simp]
theorem outcome_fail (error : ε) : (fail error : Traced ω ε α).outcome = .error error := rfl

@[simp]
theorem outcome_emit (event : ω) : (emit event : Traced ω ε Unit).outcome = .ok () := rfl

@[simp]
theorem outcome_require (condition : Bool) (error : ε) :
    (require condition error : Traced ω ε Unit).outcome =
      if condition then .ok () else .error error := by
  cases condition <;> rfl

end Traced

end ArrowLang

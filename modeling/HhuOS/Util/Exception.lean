import Mathlib.Data.List.Basic

/-!
# Kernel exceptions

`Util::Exception::throwException` does not return inside the kernel: it shows the blue screen
and halts the processor. A modelled function that can throw therefore returns
`Except Exception _`, and a thrown exception ends the run it occurs in.

`Except.bind_eq_ok` is the one inversion lemma the rest of the development uses to take a
successful run of two steps apart.
-/

namespace HhuOS

/-- The kinds of `Util::Exception::Error` thrown by the modelled code. -/
inductive Error where
  | illegalState
  | invalidArgument
  deriving DecidableEq, Repr

/-- An exception as passed to `throwException`: its kind and its message. -/
structure Exception where
  error : Error
  message : String
  deriving DecidableEq, Repr

end HhuOS

namespace Except

/-- A bind succeeds exactly when both of its steps do. -/
lemma bind_eq_ok {ε α β : Type} {x : Except ε α} {f : α → Except ε β} {b : β} :
    x >>= f = .ok b ↔ ∃ a, x = .ok a ∧ f a = .ok b := by
  cases x <;> simp [bind, Except.bind]

end Except

import TpmLink.Notice

/-!
# Reporting and waiting

What a computation may do besides failing: report what it does, and let time pass. Definitions that
need no more than that are given for any such computation.
-/

namespace TpmLink

/-- Computations that report what they do. -/
class Journal (m : Type → Type) where
  note : Notice → m Unit

/-- Computations that let time pass. -/
class Clock (m : Type → Type) where
  /-- Do nothing for so many microseconds. -/
  stall : Nat → m Unit

export Journal (note)
export Clock (stall)

/-- Report what is wrong with a response and fail with it. -/
def Malformed.raise {m : Type → Type} {α : Type} [Monad m] [MonadExceptOf Failure m] [Journal m]
    (cause : Malformed) : m α := do
  note (.malformed cause)
  throw cause.failure

end TpmLink

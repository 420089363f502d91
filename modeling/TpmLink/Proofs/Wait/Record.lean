import TpmLink.Wait

/-!
# Calls on record

What waits and what tries again only calls what it was given. Here such calls are entered in a
record while they change a world of any kind, so which calls were made, in which order and with
which result can be read off a run. Calls that fail have changed the world all the same.
-/

namespace TpmLink

/-- Computations on a world that may fail and leave a record of the calls they made. -/
def Recorded (σ κ α : Type) : Type := σ → Except Failure α × σ × List κ

namespace Recorded

variable {σ κ α β : Type}

def pure (value : α) : Recorded σ κ α := fun world => (.ok value, world, [])

def fail (failure : Failure) : Recorded σ κ α := fun world => (.error failure, world, [])

/-- Go on with the result of a computation; its calls come first in the record. -/
def andThen (computation : Recorded σ κ α) (next : Except Failure α → Recorded σ κ β) :
    Recorded σ κ β := fun world =>
  match computation world with
  | (result, after, calls) =>
    match next result after with
    | (result, after, more) => (result, after, calls ++ more)

instance : Monad (Recorded σ κ) where
  pure := pure
  bind computation next := computation.andThen fun
    | .ok value => next value
    | .error failure => fail failure

instance : MonadExceptOf Failure (Recorded σ κ) where
  throw := fail
  tryCatch computation handler := computation.andThen fun
    | .ok value => pure value
    | .error failure => handler failure

/-- Enter a call in the record and make it. -/
def call (entry : κ) (act : σ → Except Failure α × σ) : Recorded σ κ α := fun world =>
  ((act world).1, (act world).2, [entry])

variable {computation : Recorded σ κ α} {world after : σ} {calls : List κ}

theorem run_pure (value : α) (world : σ) :
    (Pure.pure value : Recorded σ κ α) world = (.ok value, world, []) := rfl

theorem run_bind (computation : Recorded σ κ α) (next : α → Recorded σ κ β) (world : σ) :
    (computation >>= next) world = computation.andThen (fun
      | .ok value => next value
      | .error failure => fail failure) world := rfl

theorem run_tryCatch (computation : Recorded σ κ α) (handler : Failure → Recorded σ κ α)
    (world : σ) :
    (tryCatch computation handler : Recorded σ κ α) world = computation.andThen (fun
      | .ok value => pure value
      | .error failure => handler failure) world := rfl

theorem run_bind_of_ok {value : α} (next : α → Recorded σ κ β)
    (h : computation world = (.ok value, after, calls)) :
    (computation >>= next) world =
      ((next value after).1, (next value after).2.1, calls ++ (next value after).2.2) := by
  simp only [run_bind, andThen, h]

theorem run_bind_of_error {failure : Failure} (next : α → Recorded σ κ β)
    (h : computation world = (.error failure, after, calls)) :
    (computation >>= next) world = (.error failure, after, calls) := by
  simp [run_bind, andThen, h, fail]

theorem run_tryCatch_of_ok {value : α} (handler : Failure → Recorded σ κ α)
    (h : computation world = (.ok value, after, calls)) :
    (tryCatch computation handler : Recorded σ κ α) world = (.ok value, after, calls) := by
  simp [run_tryCatch, andThen, h, pure]

theorem run_tryCatch_of_error {failure : Failure} (handler : Failure → Recorded σ κ α)
    (h : computation world = (.error failure, after, calls)) :
    (tryCatch computation handler : Recorded σ κ α) world =
      ((handler failure after).1, (handler failure after).2.1,
        calls ++ (handler failure after).2.2) := by
  simp only [run_tryCatch, andThen, h]

end Recorded

end TpmLink

import TpmLink.Effects

/-!
# Bounded waiting and retrying

`Poller.await` asks again after each quantum until an answer comes or the budget is spent;
`retry` runs an attempt again while it times out. Both are bounded by a number that is known before
they start, and both work in any computation that can fail, so they can be followed on their own.

What a wait has waited is counted in a word of 64 bits, which starts again from zero beyond its end.
Where that happens a wait lasts longer than its budget, and where the count never comes to the
budget it lasts until an answer comes. Such a wait is endless where none comes, and is then followed
for as many rounds as one has patience for, beyond those in which its count has shown all its
values. Where sums are checked there is no such wait, since it stops at the sum without a result.
-/

namespace TpmLink

section
variable {m : Type → Type} [Monad m] [MonadExceptOf Failure m] {α : Type}

/-- Go on with `next` where the computation times out. Other failures pass. -/
def onTimeout (attempt next : m α) : m α :=
  tryCatch attempt fun
    | .timeout => next
    | failure => throw failure

/-- Attempts `number`, `number + 1`, …, of which `left` follow the first one. -/
def retryFrom (beforeRetry : Nat → Failure → m Unit) (body : Nat → m α) (number : Nat) :
    Nat → m α
  | 0 => body number
  | left + 1 =>
    tryCatch (body number) fun
      | .timeout => do
        beforeRetry number .timeout
        retryFrom beforeRetry body (number + 1) left
      | failure => throw failure

/-- At most `attempts` attempts, and at least one, numbered from one. Only a time-out leads to the
next attempt; before it, `beforeRetry` learns which attempt failed and how. -/
def retry (attempts : Nat) (beforeRetry : Nat → Failure → m Unit) (body : Nat → m α) : m α :=
  retryFrom beforeRetry body 1 (attempts - 1)

end

/-- A busy wait in steps of a quantum. -/
structure Poller where
  /-- Microseconds between two probes. -/
  quantum : Nat
  quantum_pos : 0 < quantum
  /-- More rounds for which an endless wait is followed. -/
  patience : Nat

namespace Poller

/-- The poller with that quantum; a quantum of zero counts as one. -/
def ofQuantum (quantum : Nat) (patience : Nat := 0) : Poller :=
  ⟨max 1 quantum, by omega, patience⟩

/-- How many rounds a budget needs: the budget divided by the quantum, rounded up. -/
def needed (poller : Poller) (timeout : Nat) : Nat :=
  (timeout + poller.quantum - 1) / poller.quantum

/-- How many rounds of a wait are followed. They are enough for every value of the count. -/
def reach (poller : Poller) (timeout : Nat) : Nat :=
  poller.needed timeout + (UInt64.size + poller.patience)

section
variable {m : Type → Type} [Monad m] [MonadExceptOf Failure m] [Clock m] {α : Type}

/-- Probe as long as less than the budget is counted, with so much counted already and so many
rounds to follow. A probe that yields nothing is followed by a stall of a quantum. -/
def awaitFrom (poller : Poller) (timeout : Nat) (probe : m (Option α)) (waited : UInt64) :
    Nat → m α
  | 0 => throw .timeout
  | left + 1 =>
    if waited.toNat < timeout then do
      match ← probe with
      | some value => return value
      | none =>
        stall poller.quantum
        poller.awaitFrom timeout probe (waited + .ofNat poller.quantum) left
    else throw .timeout

/-- Probe until a value comes or `timeout` microseconds have been counted. -/
def await (poller : Poller) (timeout : Nat) (probe : m (Option α)) : m α :=
  poller.awaitFrom timeout probe 0 (poller.reach timeout)

/-- Do all bits of `set` read one and all bits of `clear` read zero? -/
def matching (value set clear : UInt32) : Bool := value &&& set == set && value &&& clear == 0

/-- Wait until all bits of `set` read one and all bits of `clear` read zero. -/
def waitBits [Journal m] (poller : Poller) (read : m UInt32) (set clear : UInt32)
    (timeout : Nat) : m Unit :=
  poller.await timeout do
    let value ← read
    note (.polled value set clear)
    return if matching value set clear then some () else none

end

end Poller

end TpmLink

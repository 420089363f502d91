import TpmLink.Register.Address
import TpmLink.Wait

/-!
# Time budgets

All budgets are in microseconds. A register is read again after each quantum until its budget is
spent. Command execution has the longest budget, since making a key may take that long.
-/

namespace TpmLink

structure Timeouts where
  /-- Cancel acknowledge and preparation. -/
  b : Nat
  /-- Register state transitions. -/
  c : Nat
  /-- Burst count availability. -/
  d : Nat
  /-- Command execution. -/
  max : Nat
  /-- Time between two reads of a polled register. -/
  pollQuantum : Nat
  /-- Attempts of the ready handshake, the first one included. -/
  retryMax : Nat
  /-- More rounds for which an endless wait is followed. -/
  patience : Nat := 0
  deriving DecidableEq, Repr

/-- Usual time between two reads of a polled register. -/
def pollQuantum : Nat := 30

/-- Usual number of attempts of the ready handshake. -/
def retryMax : Nat := 3

namespace Timeouts

def commandBuffer : Timeouts where
  b := 2000 * 1000
  c := 200 * 1000
  d := 30 * 1000
  max := 90000 * 1000
  pollQuantum := TpmLink.pollQuantum
  retryMax := TpmLink.retryMax

def fifo : Timeouts where
  b := 2000 * 1000
  c := 750 * 1000
  d := 750 * 1000
  max := 90000 * 1000
  pollQuantum := TpmLink.pollQuantum
  retryMax := TpmLink.retryMax

def default : Timeouts := commandBuffer

/-- The wait that all budgets are spent by. -/
def poller (timeouts : Timeouts) : Poller := .ofQuantum timeouts.pollQuantum timeouts.patience

end Timeouts

/-- All that a client needs besides the chip itself. -/
structure Config where
  commandBuffer : Timeouts
  fifo : Timeouts
  /-- Capacity offered for each response, in bytes. -/
  maxResponse : Nat
  deriving DecidableEq, Repr

def Config.default : Config where
  commandBuffer := .commandBuffer
  fifo := .fifo
  maxResponse := dataBufferSize

end TpmLink

import TpmLink.Timing
import TpmLink.Transport.Response

/-!
# The byte FIFO

Command and response go through one data register, byte by byte. The chip says in its burst count
how many bytes it can move before the count has to be read again; the budget that is left when the
header of a response has been read is spent on the rest of it. A command runs in five phases: ask
for the ready state, send the command, start it, receive the response, and return the chip to ready,
however the phases before ended.
-/

namespace TpmLink

structure Fifo where
  base : Nat
  timeouts : Timeouts
  deriving DecidableEq, Repr

namespace Fifo

variable (link : Fifo)

/-- The status byte with one control flag set. -/
def readyBits : UInt8 := (Register.Status.commandReady.set true 0).toUInt8
def goBits : UInt8 := (Register.Status.go.set true 0).toUInt8

/-- The response can be read. -/
def availableBits : UInt8 :=
  (Register.Status.dataAvailable.set true (Register.Status.valid.set true 0)).toUInt8

def validBits : UInt8 := 0x80
def expectBits : UInt8 := 0x08

def status : Nat := FifoRegister.status.addr link.base
def data : Nat := FifoRegister.dataFifo.addr link.base

def writeStatus (bits : UInt8) : Script Unit :=
  Script.checked (Script.writeByte link.status bits)

def poller : Poller := link.timeouts.poller

def waitStatus (set clear : UInt8) (timeout : Nat) : Script Unit :=
  link.poller.waitBits
    (do return (← Script.checked (Script.readByte link.status)).toUInt32)
    set.toUInt32 clear.toUInt32 timeout

/-! ### Bursts -/

/-- Read the burst count, which is 16 bits wide but at an odd address, as two bytes. -/
def readBurst : Script Nat := do
  let addr := FifoRegister.burstCount.addr link.base
  let low ← Script.checked (Script.readByte addr)
  let high ← Script.checked (Script.readByte (addr + 1))
  return low.toNat + 256 * high.toNat

/-- Wait until the chip can move at least one byte. -/
def awaitBurst : Script Nat :=
  onTimeout
    (link.poller.await link.timeouts.d do
      let count ← link.readBurst
      note (.fifoBurst count)
      return if count = 0 then none else some count)
    do
      note .fifoNoBurst
      throw .deviceBusy

/-- The budget to spend on the next byte: what is left of the last one, or a new one. -/
def refill (budget : Nat) : Script Nat :=
  if budget = 0 then link.awaitBurst else return budget

/-- Send bytes within the budget, reading the burst count whenever it is spent. -/
def sendBytes : Bytes → Nat → Script Unit
  | [], _ => return ()
  | byte :: rest, budget => do
    let budget ← link.refill budget
    Script.checked (Script.writeByte link.data byte)
    sendBytes rest (budget - 1)

/-- Receive `count` bytes within the budget and put them behind the bytes received so far, which are
kept last byte first. Yields the bytes and the budget that is left. -/
def receiveBytes : Nat → Nat → Bytes → Script (Bytes × Nat)
  | 0, budget, soFar => return (soFar.reverse, budget)
  | count + 1, budget, soFar => do
    let budget ← link.refill budget
    let byte ← Script.checked (Script.readByte link.data)
    receiveBytes count (budget - 1) (byte :: soFar)

/-! ### Phases -/

/-- Ask for the ready state and see it. -/
def prepare : Script Unit := do
  link.writeStatus readyBits
  onTimeout (link.waitStatus readyBits 0 link.timeouts.b) do
    note .fifoNotReady
    throw .deviceBusy

/-- Send the whole command and see that the chip expects no more. -/
def send (command : Bytes) : Script Unit := do
  link.sendBytes command 0
  onTimeout (link.waitStatus validBits expectBits link.timeouts.c) do
    note (.fifoExpectsMore command.length)
    throw .bufferTooSmall

/-- Wait until the response can be read. -/
def awaitResponse (timeout : Nat) : Script Unit := link.waitStatus availableBits 0 timeout

/-- Drop the running command. Writing zero to the cancel bit does nothing, so it is not cleared. -/
def cancel : Script Unit := do
  note .fifoCancelling
  Script.checked (Script.writeDword link.status Register.Status.commandCancel)
  onTimeout (link.awaitResponse link.timeouts.b) do
    note .fifoCancelIgnored
    throw .deviceBusy

/-- Run the command that was sent. -/
def start : Script Unit := do
  link.writeStatus goBits
  onTimeout (link.awaitResponse link.timeouts.max) link.cancel

/-- The response; one that declares less than a header is cut to what it declares. -/
def receive (capacity : Nat) : Script Bytes := do
  let (header, budget) ← link.receiveBytes Header.size 0 []
  let size ← acceptResponse header capacity
  if size < Header.size then return header.take size
  else do
    let (response, _) ← link.receiveBytes (size - Header.size) budget header.reverse
    return response

/-! ### The whole -/

/-- Return the chip to ready. -/
def exit : Script Unit := do
  match ← Script.writeByte link.status readyBits with
  | .ok () => return ()
  | .error _ => note .fifoStuckActive

/-- Everything between taking the command and returning the chip to ready. -/
def session (command : Bytes) (capacity : Nat) : Script Bytes := do
  link.prepare
  note (.fifoReady command.length)
  link.send command
  link.start
  link.receive capacity

/-- Run one command. -/
def execute (command : Bytes) (maxResponse : Nat) : Script Bytes :=
  (link.session command maxResponse).ensuring link.exit

end Fifo

end TpmLink

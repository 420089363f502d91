import TpmLink.Interface
import TpmLink.Timing
import TpmLink.Transport.Response

/-!
# The command buffer

The chip is idle between commands. A command runs in six phases:

* ask for the ready state: see the chip idle, request ready, see the request taken, see idle left;
* write the command into the data buffer and announce its address and size, and the same for the
  response, since one buffer serves both directions;
* start, and wait until the start bit clears;
* where it does not clear in time, cancel, and wait for it once more;
* read the response from the data buffer, first its header and then as much as that declares;
* send the chip back to idle, however the phases before ended.

The ready phase is tried a limited number of times, with the chip sent to idle in between.
-/

namespace TpmLink

structure CommandBuffer where
  base : Nat
  idleBypass : IdleBypass
  timeouts : Timeouts
  deriving DecidableEq, Repr

namespace CommandBuffer

variable (link : CommandBuffer)

def readReg (register : BufferRegister) : Script UInt32 :=
  Script.checked (Script.readDword (register.addr link.base))

def writeReg (register : BufferRegister) (value : UInt32) : Script Unit :=
  Script.checked (Script.writeDword (register.addr link.base) value)

def waitReg (register : BufferRegister) (set clear : UInt32) (timeout : Nat) : Script Unit :=
  link.timeouts.poller.waitBits (link.readReg register) set clear timeout

/-! ### Ready -/

/-- See the chip idle, unless it takes commands without that. -/
def ensureIdle : Script Unit :=
  if link.idleBypass = .supported then return ()
  else do
    let status : BufferStatus := FlagSet.truncate (← link.readReg .status)
    if status.contains BufferStatus.idle then return ()
    else
      note (.bufferNotIdle status)
      link.waitReg .status BufferStatus.idle.bits 0 link.timeouts.c

/-- Request the ready state and see the request taken. -/
def requestReady : Script Unit := do
  link.writeReg .request BufferRequest.commandReady.bits
  link.waitReg .request 0 BufferRequest.commandReady.bits link.timeouts.c

/-- See that the chip has left idle. -/
def awaitActive : Script Unit :=
  link.waitReg .status 0 BufferStatus.idle.bits link.timeouts.c

/-- One attempt of the ready handshake. -/
def handshake : Script Unit := do
  link.ensureIdle
  link.requestReady
  link.awaitActive

/-- Send the chip to idle between two attempts. Whether that worked shows in the next one. -/
def rewind (attempt : Nat) : Script Unit := do
  note (.bufferNotReady attempt)
  (link.writeReg .request BufferRequest.goIdle.bits).recover fun _ => pure ()

/-- Bring the chip from idle to ready. -/
def makeReady : Script Unit :=
  onTimeout
    (retry link.timeouts.retryMax (fun attempt _ => link.rewind attempt) fun _ => link.handshake)
    do
      note (.bufferNeverReady link.timeouts.retryMax)
      throw .deviceBusy

/-! ### Command -/

/-- Address of the data buffer. -/
def data : Nat := BufferRegister.dataBuffer.addr link.base

/-- Write bytes one by one to ascending addresses. -/
def writeBytes (addr : Nat) : Bytes → Script Unit
  | [] => return ()
  | byte :: rest => do
    Script.checked (Script.writeByte addr byte)
    writeBytes (addr + 1) rest

/-- Fill the buffer and announce it for the command and for the response. -/
def writeCommand (command : Bytes) : Script Unit := do
  writeBytes link.data command
  let size := UInt32.ofNat dataBufferSize
  link.writeReg .commandHigh (UInt32.ofNat (link.data >>> 32))
  link.writeReg .commandLow (UInt32.ofNat link.data)
  link.writeReg .commandSize size
  Script.checked
    (Script.writeQword (BufferRegister.responseAddress.addr link.base) (UInt64.ofNat link.data))
  link.writeReg .responseSize size

/-! ### Execution -/

/-- Wait until the start bit reads zero. -/
def awaitDone (timeout : Nat) : Script Unit := link.waitReg .start 0 startBit timeout

/-- Drop the running command. The cancel register is cleared again, also where the chip does not
react. -/
def cancel : Script Unit := do
  note .bufferCancelling
  link.writeReg .cancel cancelBit
  let acknowledged ← (link.awaitDone link.timeouts.b).observe
  link.writeReg .cancel 0
  match acknowledged with
  | .error .timeout =>
    note .bufferCancelIgnored
    throw .deviceBusy
  | .error failure => throw failure
  | .ok () => return ()

/-- Run the command in the buffer. -/
def start : Script Unit := do
  link.writeReg .start startBit
  onTimeout (link.awaitDone link.timeouts.max) link.cancel

/-! ### Response -/

/-- Read `count` bytes from ascending addresses and put them behind the bytes read so far, which are
kept last byte first. -/
def readBytes (addr : Nat) : Nat → Bytes → Script Bytes
  | 0, soFar => return soFar.reverse
  | count + 1, soFar => do
    let byte ← Script.checked (Script.readByte addr)
    readBytes (addr + 1) count (byte :: soFar)

/-- The response in the buffer; one that declares less than a header is cut to what it declares. -/
def readResponse (capacity : Nat) : Script Bytes := do
  let header ← readBytes link.data Header.size []
  let size ← acceptResponse header capacity
  if size < Header.size then return header.take size
  else readBytes (link.data + Header.size) (size - Header.size) header.reverse

/-! ### The whole -/

/-- Send the chip back to idle. -/
def exit : Script Unit := do
  match ← Script.writeDword (BufferRegister.request.addr link.base) BufferRequest.goIdle.bits with
  | .ok () => return ()
  | .error _ => note .bufferStuckActive

/-- Everything between taking the command and sending the chip back to idle. -/
def session (command : Bytes) (capacity : Nat) : Script Bytes := do
  link.makeReady
  note (.bufferReady command.length)
  link.writeCommand command
  link.start
  link.readResponse capacity

/-- Run one command. One that does not fit the buffer is refused before the chip is touched. -/
def execute (command : Bytes) (maxResponse : Nat) : Script Bytes :=
  if dataBufferSize < command.length then do
    note (.bufferCommandTooLong command.length)
    throw .invalidParameter
  else (link.session command (min maxResponse dataBufferSize)).ensuring link.exit

end CommandBuffer

end TpmLink

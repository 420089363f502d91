import TpmLink.Proofs.Fifo.Bursts

/-!
# Delivering and running a command, exactly

For each phase before the response the traces with which it ends well, and those with which it gives
the chip up: a wait for status bits that spends its budget, or a transfer that starves.
-/

namespace TpmLink

namespace Fifo

open Script Trace

variable (link : Fifo)

/-- The status is polled until all bits of `set` read one and all bits of `clear` read zero. -/
def Sees (set clear : UInt8) : Nat → Trace → Prop :=
  link.poller.Sees link.status .byte
    fun raw => raw.toUInt8 &&& set = set ∧ raw.toUInt8 &&& clear = 0

/-- The status is polled for the whole budget, and at no time all bits of `set` read one and all
bits of `clear` read zero. -/
def Misses (set clear : UInt8) : Nat → Trace → Prop :=
  link.poller.Misses link.status .byte
    fun raw => raw.toUInt8 &&& set = set ∧ raw.toUInt8 &&& clear = 0

/-- The write that asks the chip to drop its command. -/
def cancelWrite (answer : Except BusFault Unit) : Event :=
  .write link.status .dword Register.Status.commandCancel.toUInt64 answer

/-- Ready is asked for and seen. -/
def Readied (trace : Trace) : Prop :=
  ∃ polls, trace = link.exitWrite (.ok ()) :: polls ∧ link.Sees 0x40 0 link.timeouts.b polls

/-- The command is started, and its response becomes available, by itself or after a cancel. -/
inductive Answered (link : Fifo) : Trace → Prop
  | inTime {polls : Trace} (answers : link.Sees 0x90 0 link.timeouts.max polls) :
      Answered link (link.startWrite (.ok ()) :: polls)
  | cancelled {polls polls' : Trace} (waits : link.Misses 0x90 0 link.timeouts.max polls)
      (answers : link.Sees 0x90 0 link.timeouts.b polls') :
      Answered link (link.startWrite (.ok ()) :: (polls ++ link.cancelWrite (.ok ()) :: polls'))

variable {link} {set clear : UInt8} {timeout budget : Nat} {trace : Trace} {command bytes : Bytes}

/-! ### Waits for the status -/

theorem holds_toUInt32_iff {value : UInt8} :
    Poller.Holds set.toUInt32 clear.toUInt32 value.toUInt32 ↔
      value &&& set = set ∧ value &&& clear = 0 := by
  rw [Poller.Holds, ← UInt8.toUInt32_and, ← UInt8.toUInt32_and, UInt8.toUInt32_inj]
  exact and_congr_right fun _ => UInt8.toUInt32_inj (b := 0)

theorem runs_readStatus_iff {value : UInt32} :
    Script.Runs (do return (← Script.checked (Script.readByte link.status)).toUInt32) trace
        (.ok value) ↔
      Trace.Reads link.status .byte (fun raw => raw.toUInt8.toUInt32 = value) trace := by
  refine (runs_past_read_iff (by simp)).trans ?_
  constructor
  · rintro ⟨raw, none, rfl, hnone⟩
    obtain ⟨rfl, hvalue⟩ := runs_pure_iff.mp hnone
    cases hvalue
    exact ⟨raw, rfl, rfl⟩
  · rintro ⟨raw, rfl, rfl⟩
    exact ⟨raw, [], rfl, runs_pure_iff.mpr ⟨rfl, rfl⟩⟩

theorem failsWith_readStatus :
    Script.FailsWith [.io]
      (do return (← Script.checked (Script.readByte link.status)).toUInt32) :=
  (failsWith_checked_read (List.mem_singleton.mpr rfl)).bind fun _ => failsWith_pure _

theorem failsWith_waitStatus :
    (link.waitStatus set clear timeout).FailsWith [.timeout, .io] :=
  failsWith_waitBits _ (failsWith_readStatus.mono (by simp)) List.mem_cons_self _ _ timeout

theorem runs_waitStatus_ok_iff :
    (link.waitStatus set clear timeout).Runs trace (.ok ()) ↔
      link.Sees set clear timeout trace := by
  refine (Poller.runs_waitBits_ok_iff fun _ _ => runs_readStatus_iff).trans ?_
  simp only [holds_toUInt32_iff]
  rfl

theorem runs_waitStatus_timeout_iff :
    (link.waitStatus set clear timeout).Runs trace (.error .timeout) ↔
      link.Misses set clear timeout trace := by
  refine (Poller.runs_waitBits_timeout_iff failsWith_readStatus
    fun _ _ => runs_readStatus_iff).trans ?_
  simp only [holds_toUInt32_iff]
  rfl

/-- A wait whose time-out is reported and turned into another failure. -/
def waitOrFail (link : Fifo) (set clear : UInt8) (timeout : Nat) (notice : Notice)
    (failure : Failure) : Script Unit :=
  onTimeout (link.waitStatus set clear timeout) (do
    note notice
    throw failure)

section
variable {notice : Notice} {failure : Failure}

theorem runs_waitOrFail_ok_iff :
    (link.waitOrFail set clear timeout notice failure).Runs trace (.ok ()) ↔
      link.Sees set clear timeout trace :=
  runs_onTimeout_throw_ok_iff.trans runs_waitStatus_ok_iff

theorem runs_waitOrFail_error_iff (h : failure ∉ [Failure.timeout, .io]) :
    (link.waitOrFail set clear timeout notice failure).Runs trace (.error failure) ↔
      link.Misses set clear timeout trace :=
  (runs_onTimeout_throw_error_iff failsWith_waitStatus h).trans runs_waitStatus_timeout_iff

theorem only_waitOrFail {kind : Event → Prop} (h : (link.waitStatus set clear timeout).Only kind) :
    (link.waitOrFail set clear timeout notice failure).Only kind :=
  only_onTimeout h (only_bind (only_note _) fun _ => only_throw _)

theorem failsWith_waitOrFail :
    (link.waitOrFail set clear timeout notice failure).FailsWith [failure, .io] := by
  refine (failsWith_waitStatus.mono (by simp)).onTimeout ?_
  exact (failsWith_note _).bind fun _ => failsWith_throw List.mem_cons_self

end

/-! ### Ready -/

theorem prepare_eq (link : Fifo) :
    link.prepare = (link.writeStatus readyBits >>= fun _ =>
      link.waitOrFail readyBits 0 link.timeouts.b .fifoNotReady .deviceBusy) :=
  rfl

theorem runs_prepare_ok_iff : link.prepare.Runs trace (.ok ()) ↔ link.Readied trace := by
  rw [prepare_eq]
  refine (runs_past_write_iff (by simp)).trans ?_
  exact exists_congr fun polls => and_congr_right fun _ => runs_waitOrFail_ok_iff

theorem runs_prepare_busy_iff :
    link.prepare.Runs trace (.error .deviceBusy) ↔
      ∃ polls, trace = link.exitWrite (.ok ()) :: polls ∧
        link.Misses 0x40 0 link.timeouts.b polls := by
  rw [prepare_eq]
  refine (runs_past_write_iff (by simp)).trans ?_
  exact exists_congr fun polls => and_congr_right fun _ => runs_waitOrFail_error_iff (by decide)

theorem failsWith_prepare : link.prepare.FailsWith [.deviceBusy, .io] :=
  (failsWith_checked_write (by simp)).bind fun _ => failsWith_waitOrFail

/-! ### Sending -/

theorem runs_sendBytes_ok_iff :
    (link.sendBytes bytes budget).Runs trace (.ok ()) ↔
      ∃ left, link.Paced budget (link.sending bytes) trace left := by
  induction bytes generalizing budget trace with
  | nil =>
    constructor
    · intro h
      obtain ⟨rfl, -⟩ := runs_pure_iff.mp h
      exact ⟨budget, .done budget⟩
    · rintro ⟨left, hpaced⟩
      cases hpaced
      exact runs_pure_iff.mpr ⟨rfl, rfl⟩
  | cons byte rest ih =>
    refine runs_bind_ok_iff.trans ?_
    constructor
    · rintro ⟨wait, back, count, rfl, hwait, hback⟩
      obtain ⟨middle, rfl, hallows⟩ := runs_refill_ok_iff.mp hwait
      obtain ⟨later, rfl, hlater⟩ := (runs_past_write_iff (by simp)).mp hback
      obtain ⟨left, hpaced⟩ := ih.mp hlater
      exact ⟨left, .move _ hallows hpaced⟩
    · rintro ⟨left, hpaced⟩
      cases hpaced with
      | move _ hallows hrest =>
        exact ⟨_, _, _, rfl, runs_refill_ok_iff.mpr ⟨_, rfl, hallows⟩,
          (runs_past_write_iff (by simp)).mpr ⟨_, rfl, ih.mpr ⟨left, hrest⟩⟩⟩

/-- Sending gives the chip up where it starves with bytes left to send. -/
theorem runs_sendBytes_busy_iff :
    (link.sendBytes bytes budget).Runs trace (.error .deviceBusy) ↔
      ∃ sent rest front polls, bytes = sent ++ rest ∧ rest ≠ [] ∧ trace = front ++ polls ∧
        link.Paced budget (link.sending sent) front 0 ∧ link.Starves polls := by
  induction bytes generalizing budget trace with
  | nil =>
    constructor
    · intro h
      cases (runs_pure_iff.mp h).2
    · rintro ⟨sent, rest, _, _, hbytes, hrest, -⟩
      exact absurd (List.append_eq_nil_iff.mp hbytes.symm).2 hrest
  | cons byte rest ih =>
    refine runs_bind_error_iff.trans ?_
    constructor
    · rintro (hwait | ⟨wait, back, count, rfl, hwait, hback⟩)
      · obtain ⟨rfl, hstarves⟩ := runs_refill_busy_iff.mp hwait
        exact ⟨[], byte :: rest, [], trace, rfl, by simp, rfl, .done 0, hstarves⟩
      obtain ⟨middle, rfl, hallows⟩ := runs_refill_ok_iff.mp hwait
      obtain ⟨later, rfl, hlater⟩ := (runs_past_write_iff (by simp)).mp hback
      obtain ⟨sent, left, front, polls, rfl, hleft, rfl, hpaced, hstarves⟩ := ih.mp hlater
      exact ⟨byte :: sent, left, _, polls, rfl, hleft, by simp, .move _ hallows hpaced, hstarves⟩
    · rintro ⟨sent, left, front, polls, hbytes, hleft, rfl, hpaced, hstarves⟩
      cases sent with
      | nil =>
        cases hpaced
        exact .inl (runs_refill_busy_iff.mpr ⟨rfl, hstarves⟩)
      | cons byte sent =>
        obtain ⟨rfl, rfl⟩ := List.cons.inj hbytes
        cases hpaced with
        | move _ hallows hrest =>
          have hlater := ih.mpr ⟨sent, left, _, polls, rfl, hleft, rfl, hrest, hstarves⟩
          exact .inr ⟨_, _, _, by simp, runs_refill_ok_iff.mpr ⟨_, rfl, hallows⟩,
            (runs_past_write_iff (by simp)).mpr ⟨_, rfl, hlater⟩⟩

theorem failsWith_sendBytes : (link.sendBytes bytes budget).FailsWith [.deviceBusy, .io] := by
  induction bytes generalizing budget with
  | nil => exact failsWith_pure _
  | cons byte rest ih =>
    exact failsWith_refill.bind fun _ => (failsWith_checked_write (by simp)).bind fun _ => ih

theorem send_eq (link : Fifo) (command : Bytes) :
    link.send command = (link.sendBytes command 0 >>= fun _ =>
      link.waitOrFail validBits expectBits link.timeouts.c (.fifoExpectsMore command.length)
        .bufferTooSmall) :=
  rfl

theorem runs_send_ok_iff :
    (link.send command).Runs trace (.ok ()) ↔
      ∃ front polls left, trace = front ++ polls ∧
        link.Paced 0 (link.sending command) front left ∧
        link.Sees 0x80 0x08 link.timeouts.c polls := by
  rw [send_eq, runs_bind_ok_iff]
  constructor
  · rintro ⟨front, polls, ⟨⟩, rfl, hfront, hpolls⟩
    obtain ⟨left, hpaced⟩ := runs_sendBytes_ok_iff.mp hfront
    exact ⟨front, polls, left, rfl, hpaced, runs_waitOrFail_ok_iff.mp hpolls⟩
  · rintro ⟨front, polls, left, rfl, hpaced, hpolls⟩
    exact ⟨front, polls, (), rfl, runs_sendBytes_ok_iff.mpr ⟨left, hpaced⟩,
      runs_waitOrFail_ok_iff.mpr hpolls⟩

theorem runs_send_busy_iff :
    (link.send command).Runs trace (.error .deviceBusy) ↔
      (link.sendBytes command 0).Runs trace (.error .deviceBusy) := by
  rw [send_eq, runs_bind_error_iff, or_iff_left]
  rintro ⟨front, polls, -, rfl, -, hpolls⟩
  exact absurd (failsWith_waitOrFail _ _ hpolls) (by decide)

/-- The chip wants more bytes where all have been sent and it does not say otherwise in time. -/
theorem runs_send_tooSmall_iff :
    (link.send command).Runs trace (.error .bufferTooSmall) ↔
      ∃ front polls left, trace = front ++ polls ∧
        link.Paced 0 (link.sending command) front left ∧
        link.Misses 0x80 0x08 link.timeouts.c polls := by
  rw [send_eq, runs_bind_error_iff]
  constructor
  · rintro (hsend | ⟨front, polls, ⟨⟩, rfl, hfront, hpolls⟩)
    · exact absurd (failsWith_sendBytes _ _ hsend) (by decide)
    · obtain ⟨left, hpaced⟩ := runs_sendBytes_ok_iff.mp hfront
      exact ⟨front, polls, left, rfl, hpaced, (runs_waitOrFail_error_iff (by decide)).mp hpolls⟩
  · rintro ⟨front, polls, left, rfl, hpaced, hpolls⟩
    exact .inr ⟨front, polls, (), rfl, runs_sendBytes_ok_iff.mpr ⟨left, hpaced⟩,
      (runs_waitOrFail_error_iff (by decide)).mpr hpolls⟩

theorem failsWith_send : (link.send command).FailsWith [.deviceBusy, .bufferTooSmall, .io] := by
  rw [send_eq]
  exact (failsWith_sendBytes.mono (by simp)).bind fun _ => failsWith_waitOrFail.mono (by simp)

/-! ### Running -/

theorem cancel_eq (link : Fifo) :
    link.cancel = (note .fifoCancelling >>= fun _ =>
      Script.checked (Script.writeDword link.status Register.Status.commandCancel) >>= fun _ =>
        link.waitOrFail availableBits 0 link.timeouts.b .fifoCancelIgnored .deviceBusy) :=
  rfl

theorem runs_cancel_ok_iff :
    link.cancel.Runs trace (.ok ()) ↔
      ∃ polls, trace = link.cancelWrite (.ok ()) :: polls ∧
        link.Sees 0x90 0 link.timeouts.b polls := by
  rw [cancel_eq, runs_note_bind_iff]
  refine (runs_past_write_iff (by simp)).trans ?_
  exact exists_congr fun polls => and_congr_right fun _ => runs_waitOrFail_ok_iff

theorem runs_cancel_busy_iff :
    link.cancel.Runs trace (.error .deviceBusy) ↔
      ∃ polls, trace = link.cancelWrite (.ok ()) :: polls ∧
        link.Misses 0x90 0 link.timeouts.b polls := by
  rw [cancel_eq, runs_note_bind_iff]
  refine (runs_past_write_iff (by simp)).trans ?_
  exact exists_congr fun polls => and_congr_right fun _ => runs_waitOrFail_error_iff (by decide)

theorem failsWith_cancel : link.cancel.FailsWith [.deviceBusy, .io] :=
  (failsWith_note _).bind fun _ => (failsWith_checked_write (by simp)).bind fun _ =>
    failsWith_waitOrFail

theorem runs_start_ok_iff : link.start.Runs trace (.ok ()) ↔ link.Answered trace := by
  refine (runs_past_write_iff (by simp)).trans ?_
  constructor
  · rintro ⟨rest, rfl, hrest⟩
    rcases runs_onTimeout_iff.mp hrest with ⟨-, hwait⟩ | ⟨polls, back, rfl, hpolls, hback⟩
    · exact .inTime (runs_waitStatus_ok_iff.mp hwait)
    · obtain ⟨polls', rfl, hanswers⟩ := runs_cancel_ok_iff.mp hback
      exact .cancelled (runs_waitStatus_timeout_iff.mp hpolls) hanswers
  · intro h
    cases h with
    | inTime hanswers =>
      exact ⟨_, rfl, runs_onTimeout_iff.mpr
        (.inl ⟨by simp, runs_waitStatus_ok_iff.mpr hanswers⟩)⟩
    | cancelled hwaits hanswers =>
      have hcancel := runs_cancel_ok_iff.mpr ⟨_, rfl, hanswers⟩
      exact ⟨_, rfl, runs_onTimeout_iff.mpr
        (.inr ⟨_, _, rfl, runs_waitStatus_timeout_iff.mpr hwaits, hcancel⟩)⟩

/-- A started command leaves a busy chip exactly where both its wait and the wait behind the cancel
spend their budgets. -/
theorem runs_start_busy_iff :
    link.start.Runs trace (.error .deviceBusy) ↔
      ∃ polls polls', trace =
          link.startWrite (.ok ()) :: (polls ++ link.cancelWrite (.ok ()) :: polls') ∧
        link.Misses 0x90 0 link.timeouts.max polls ∧ link.Misses 0x90 0 link.timeouts.b polls' := by
  refine (runs_past_write_iff (by simp)).trans ?_
  constructor
  · rintro ⟨rest, rfl, hrest⟩
    rcases runs_onTimeout_iff.mp hrest with ⟨-, hwait⟩ | ⟨polls, back, rfl, hpolls, hback⟩
    · exact absurd (failsWith_waitStatus _ _ hwait) (by decide)
    · obtain ⟨polls', rfl, hpolls'⟩ := runs_cancel_busy_iff.mp hback
      exact ⟨polls, polls', rfl, runs_waitStatus_timeout_iff.mp hpolls, hpolls'⟩
  · rintro ⟨polls, polls', rfl, hpolls, hpolls'⟩
    have hcancel := runs_cancel_busy_iff.mpr ⟨polls', rfl, hpolls'⟩
    exact ⟨_, rfl, runs_onTimeout_iff.mpr
      (.inr ⟨polls, _, rfl, runs_waitStatus_timeout_iff.mpr hpolls, hcancel⟩)⟩

theorem failsWith_start : link.start.FailsWith [.deviceBusy, .io] := by
  refine (failsWith_checked_write (by simp)).bind fun _ => ?_
  exact FailsWith.onTimeout (failsWith_waitStatus.mono (by simp)) failsWith_cancel

end Fifo

end TpmLink

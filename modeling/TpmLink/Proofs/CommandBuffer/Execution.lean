import TpmLink.Proofs.CommandBuffer.Attempts
import TpmLink.Proofs.Transport.Verdict

/-!
# How a command on the command buffer is executed and answered

A command that has been started and a cancel that nobody acknowledges show in the trace as two waits
that spend their budgets. A response that is read without a fault is read byte by byte from the
start of the data buffer, as far as its header asks for it, and comes to the verdict on these bytes.
-/

namespace TpmLink

namespace CommandBuffer

open Script Trace

variable (link : CommandBuffer)

/-- A write to the cancel register. -/
def cancelWrite (value : UInt64) (answer : Except BusFault Unit) : Event :=
  .write (BufferRegister.cancel.addr link.base) .dword value answer

/-- Successful reads of bytes at ascending addresses. -/
def reading (addr : Nat) (values : List UInt64) : Trace :=
  values.mapIdx fun index raw => .read (addr + index) .byte (.ok raw)

/-- What has been read from the data buffer, in order. -/
def received (trace : Trace) : Bytes := trace.received link.InData

/-- A time-out that is left over is a busy chip. -/
def escalate : Except Failure Unit → Except Failure Unit
  | .error .timeout => .error .deviceBusy
  | result => result

variable {link} {trace front back : Trace} {addr : Nat} {values : List UInt64}

theorem reading_cons (raw : UInt64) :
    reading addr (raw :: values) = .read addr .byte (.ok raw) :: reading (addr + 1) values := by
  simp [reading, List.mapIdx_cons, Nat.add_assoc, Nat.add_comm 1]

theorem reading_append (values' : List UInt64) :
    reading addr (values ++ values') =
      reading addr values ++ reading (addr + values.length) values' := by
  simp [reading, List.mapIdx_append, Nat.add_assoc, Nat.add_comm values.length]

theorem received_reading (h : ∀ index < values.length, link.InData (addr + index)) :
    link.received (reading addr values) = lowBytes values := by
  induction values generalizing addr with
  | nil => rfl
  | cons raw values ih =>
    have hfirst : link.InData addr := h 0 (by simp)
    have hrest : ∀ index < values.length, link.InData (addr + 1 + index) := by
      intro index hindex
      rw [Nat.add_right_comm, Nat.add_assoc]
      exact h (index + 1) (Nat.succ_lt_succ hindex)
    have hraw : Event.received? link.InData (.read addr .byte (.ok raw)) = some raw.toUInt8 :=
      if_pos hfirst
    rw [reading_cons, received, Trace.received, List.filterMap_cons, hraw]
    exact congrArg (raw.toUInt8 :: ·) (ih hrest)

/-! ### Execution -/

section
variable {timeout : Nat} {result : Except Failure Unit}

theorem runs_awaitDone_timeout_iff :
    (link.awaitDone timeout).Runs trace (.error .timeout) ↔ link.Misses .start 0 1 timeout trace :=
  runs_waitReg_timeout_iff

theorem failsWith_awaitDone : (link.awaitDone timeout).FailsWith [.timeout, .io] :=
  failsWith_waitReg

/-- The cancel register is cleared whatever the wait came to, and then the wait is judged. -/
theorem runs_clear_iff {judge : Except Failure Unit → Script Unit}
    (hjudge : ∀ acknowledged rest,
      (judge acknowledged).Runs rest result ↔ rest = [] ∧ result = escalate acknowledged) :
    ((link.awaitDone timeout).observe >>= fun acknowledged =>
        link.writeReg .cancel 0 >>= fun _ => judge acknowledged).Runs trace result ↔
      ∃ polls acknowledged, (link.awaitDone timeout).Runs polls acknowledged ∧
        ((∃ fault, trace = polls ++ [link.cancelWrite 0 (.error fault)] ∧ result = .error .io) ∨
          (trace = polls ++ [link.cancelWrite 0 (.ok ())] ∧ result = escalate acknowledged)) := by
  rw [runs_observe_bind_iff]
  constructor
  · rintro ⟨polls, last, acknowledged, rfl, hpolls, hlast⟩
    refine ⟨polls, acknowledged, hpolls, ?_⟩
    rcases runs_checked_write_bind_iff.mp hlast with ⟨fault, rfl, rfl⟩ | ⟨none, rfl, hnone⟩
    · exact .inl ⟨fault, rfl, rfl⟩
    · obtain ⟨rfl, rfl⟩ := (hjudge _ _).mp hnone
      exact .inr ⟨rfl, rfl⟩
  · rintro ⟨polls, acknowledged, hpolls, ⟨fault, rfl, rfl⟩ | ⟨rfl, rfl⟩⟩
    · exact ⟨polls, _, acknowledged, rfl, hpolls,
        runs_checked_write_bind_iff.mpr (.inl ⟨fault, rfl, rfl⟩)⟩
    · exact ⟨polls, _, acknowledged, rfl, hpolls,
        runs_checked_write_bind_iff.mpr (.inr ⟨[], rfl, (hjudge _ _).mpr ⟨rfl, rfl⟩⟩)⟩

/-- A cancel that cannot be made ends at once; otherwise it is waited for and cleared. -/
theorem runs_cancel_iff :
    link.cancel.Runs trace result ↔
      (∃ fault, trace = [link.cancelWrite 1 (.error fault)] ∧ result = .error .io) ∨
      ∃ rest, trace = link.cancelWrite 1 (.ok ()) :: rest ∧
        ∃ polls acknowledged, (link.awaitDone link.timeouts.b).Runs polls acknowledged ∧
          ((∃ fault, rest = polls ++ [link.cancelWrite 0 (.error fault)] ∧ result = .error .io) ∨
            (rest = polls ++ [link.cancelWrite 0 (.ok ())] ∧ result = escalate acknowledged)) := by
  refine runs_note_bind_iff.trans (runs_checked_write_bind_iff.trans (or_congr_right ?_))
  refine exists_congr fun rest => and_congr_right fun _ => runs_clear_iff ?_
  rintro (failure | ⟨⟩) rest
  · cases failure with
    | timeout => exact runs_note_bind_iff.trans runs_throw_iff
    | _ => exact runs_throw_iff
  · exact runs_pure_iff

theorem escalate_eq_busy {acknowledged : Except Failure Unit}
    (hfails : ∀ failure, acknowledged = .error failure → failure ∈ [Failure.timeout, .io]) :
    escalate acknowledged = .error .deviceBusy ↔ acknowledged = .error .timeout := by
  rcases acknowledged with failure | ⟨⟩
  · cases failure with
    | deviceBusy => exact absurd (hfails _ rfl) (by decide)
    | timeout => simp [escalate]
    | _ => simp [escalate]
  · simp [escalate]

/-- A started command leaves a busy chip exactly where both its wait and the wait for the cancel
spend their budgets. -/
theorem runs_start_busy_iff :
    link.start.Runs trace (.error .deviceBusy) ↔
      ∃ polls polls', trace = link.startWrite (.ok ()) :: (polls ++
          link.cancelWrite 1 (.ok ()) :: (polls' ++ [link.cancelWrite 0 (.ok ())])) ∧
        link.Misses .start 0 1 link.timeouts.max polls ∧
        link.Misses .start 0 1 link.timeouts.b polls' := by
  refine (runs_past_write_iff (by simp)).trans ?_
  constructor
  · rintro ⟨rest, rfl, hrest⟩
    rcases runs_onTimeout_iff.mp hrest with ⟨-, hwait⟩ | ⟨polls, back, rfl, hpolls, hback⟩
    · exact absurd (failsWith_awaitDone _ _ hwait) (by decide)
    rcases runs_cancel_iff.mp hback with ⟨fault, -, hresult⟩ | ⟨_, rfl, polls', acknowledged, hwait,
      ⟨fault, -, hresult⟩ | ⟨rfl, hresult⟩⟩
    · cases hresult
    · cases hresult
    · have hfails : ∀ failure, acknowledged = .error failure →
          failure ∈ [Failure.timeout, .io] := by
        rintro failure rfl
        exact failsWith_awaitDone _ _ hwait
      obtain rfl := (escalate_eq_busy hfails).mp hresult.symm
      exact ⟨polls, polls', rfl, runs_awaitDone_timeout_iff.mp hpolls,
        runs_awaitDone_timeout_iff.mp hwait⟩
  · rintro ⟨polls, polls', rfl, hpolls, hpolls'⟩
    have hcancel := runs_cancel_iff.mpr (.inr ⟨_, rfl, polls', _,
      runs_awaitDone_timeout_iff.mpr hpolls', .inr ⟨rfl, rfl⟩⟩)
    exact ⟨_, rfl, runs_onTimeout_iff.mpr
      (.inr ⟨polls, _, rfl, runs_awaitDone_timeout_iff.mpr hpolls, hcancel⟩)⟩

theorem failsWith_start : link.start.FailsWith [.deviceBusy, .io] := by
  refine (failsWith_writeReg.mono (by simp)).bind fun _ => ?_
  refine (failsWith_awaitDone.mono (by simp)).onTimeout fun trace failure h => ?_
  rcases runs_cancel_iff.mp h with ⟨fault, -, hresult⟩ | ⟨_, -, polls, acknowledged, hwait,
    ⟨fault, -, hresult⟩ | ⟨-, hresult⟩⟩
  · cases hresult
    simp
  · cases hresult
    simp
  · rcases acknowledged with found | ⟨⟩
    · have hfound : found = .timeout ∨ found = .io := by simpa using failsWith_awaitDone _ _ hwait
      rcases hfound with rfl | rfl
      · cases hresult
        simp
      · cases hresult
        simp
    · cases hresult

end

/-! ### Response -/

/-- What has been read from ascending addresses is put behind the bytes read so far. -/
theorem runs_readBytes_values {count : Nat} {soFar bytes : Bytes}
    (h : (readBytes addr count soFar).Runs trace (.ok bytes)) :
    ∃ values, values.length = count ∧ bytes = soFar.reverse ++ lowBytes values ∧
      trace = reading addr values := by
  induction count generalizing addr soFar trace with
  | zero =>
    obtain ⟨rfl, hbytes⟩ := runs_pure_iff.mp h
    cases hbytes
    exact ⟨[], rfl, by simp [lowBytes], rfl⟩
  | succ count ih =>
    obtain ⟨raw, rest, rfl, hrest⟩ := (runs_past_read_iff (by simp)).mp h
    obtain ⟨values, hlength, rfl, rfl⟩ := ih hrest
    exact ⟨raw :: values, by rw [List.length_cons, hlength], by simp [lowBytes],
      (reading_cons raw).symm⟩

theorem failsWith_readBytes {count : Nat} {soFar : Bytes} :
    (readBytes addr count soFar).FailsWith [.io] := by
  induction count generalizing addr soFar with
  | zero => exact failsWith_pure _
  | succ count ih => exact (failsWith_checked_read (List.mem_singleton.mpr rfl)).bind fun _ => ih

/-- Without a fault, as much of the data buffer is read as the header asks for, and the result is
the verdict on what has been read. -/
theorem runs_readResponse_verdict {capacity : Nat} {result : Except Failure Bytes}
    (hresult : result ≠ .error .io) (h : (link.readResponse capacity).Runs trace result) :
    ∃ values, trace = reading link.data values ∧
      values.length = Response.demand (lowBytes values) capacity ∧
      result = Response.verdict (lowBytes values) capacity := by
  rcases runs_bind_iff.mp h with ⟨failure, rfl, hread⟩ | ⟨front, back, header, rfl, hheader, hrest⟩
  · rw [List.mem_singleton.mp (failsWith_readBytes _ _ hread)] at hresult
    exact absurd rfl hresult
  obtain ⟨values, hlength, rfl, rfl⟩ := runs_readBytes_values hheader
  rw [List.reverse_nil, List.nil_append] at hrest
  have hfetch : ∀ count, (readBytes (link.data + Header.size) count (lowBytes values).reverse).Runs
      back result → ∃ more, more.length = count ∧ back = reading (link.data + Header.size) more ∧
        result = .ok (lowBytes values ++ lowBytes more) := by
    intro count hfetch
    cases result with
    | error failure =>
      rw [List.mem_singleton.mp (failsWith_readBytes _ _ hfetch)] at hresult
      exact absurd rfl hresult
    | ok bytes =>
      obtain ⟨more, hcount, rfl, rfl⟩ := runs_readBytes_values hfetch
      exact ⟨more, hcount, rfl, by rw [List.reverse_reverse]⟩
  obtain ⟨more, rfl, hdemand, hverdict⟩ := Response.verdict_of_body _
    (fun more trace => trace = reading (link.data + Header.size) more) hlength rfl hfetch hrest
  exact ⟨values ++ more, by rw [reading_append, hlength], hdemand, hverdict⟩

theorem failsWith_readResponse {capacity : Nat} :
    (link.readResponse capacity).FailsWith [.io, .notSupported, .bufferTooSmall] := by
  refine (failsWith_readBytes.mono (by simp)).bind fun header => ?_
  refine (failsWith_acceptResponse.mono (by simp)).bind fun size => ?_
  split
  · exact failsWith_pure _
  · exact failsWith_readBytes.mono (by simp)

/-! ### The whole -/

/-- The chip is sent back to idle, whatever it answers. -/
theorem runs_exit_iff {result : Except Failure Unit} :
    link.exit.Runs trace result ↔ ∃ answer, trace = [link.exitWrite answer] ∧ result = .ok () := by
  refine runs_noted_write_iff fun answer rest found => ?_
  cases answer with
  | ok value => exact runs_pure_iff
  | error fault => exact runs_note_iff

variable {command : Bytes} {maxResponse : Nat} {result : Except Failure Bytes}

/-- A command that fits the buffer is a session, and then the way back to idle. -/
theorem runs_execute_iff (hlength : command.length ≤ dataBufferSize) :
    (link.execute command maxResponse).Runs trace result ↔
      ∃ middle answer, trace = middle ++ [link.exitWrite answer] ∧
        (link.session command (min maxResponse dataBufferSize)).Runs middle result := by
  rw [execute, if_neg (Nat.not_lt_of_le hlength)]
  exact runs_ensuring_write_iff fun _ _ => runs_exit_iff

/-- A command that does not fit the buffer is refused without an access. -/
theorem runs_execute_tooLong_iff (hlength : dataBufferSize < command.length) :
    (link.execute command maxResponse).Runs trace result ↔
      trace = [] ∧ result = .error .invalidParameter := by
  rw [execute, if_pos hlength]
  exact runs_note_bind_iff.trans runs_throw_iff

end CommandBuffer

end TpmLink

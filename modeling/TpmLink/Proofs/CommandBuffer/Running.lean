import TpmLink.Proofs.CommandBuffer.Ready

/-!
# How the command buffer runs a command

Loading only writes, and where it succeeds it has written every byte once and announced the buffer.
Running writes the start register once, then polls it, and writes nothing but the cancel register
after that. Reading the response stays in the data buffer.
-/

namespace TpmLink

namespace CommandBuffer

open Script Trace

variable (link : CommandBuffer)

/-- What a running command does: it polls the start register, and may cancel. -/
def IsRunPhase : Event → Prop :=
  Event.Within (fun addr => addr = BufferRegister.start.addr link.base)
    fun addr => addr = BufferRegister.cancel.addr link.base

/-- The writes of a command to the buffer. -/
def fill (command : Bytes) : Trace :=
  command.mapIdx fun index byte =>
    .write (link.base + 0x80 + index) .byte byte.toUInt64 (.ok ())

/-- The writes that announce the buffer for the command and for the response. -/
def announcement : Trace :=
  [.write (link.base + 0x60) .dword (UInt32.ofNat (link.data >>> 32)).toUInt64 (.ok ()),
    .write (link.base + 0x5C) .dword (UInt32.ofNat link.data).toUInt64 (.ok ()),
    .write (link.base + 0x58) .dword 0xF80 (.ok ()),
    .write (link.base + 0x68) .qword (UInt64.ofNat link.data) (.ok ()),
    .write (link.base + 0x64) .dword 0xF80 (.ok ())]

/-- After the start the start bit has been read as zero. -/
def DoneSeen (link : CommandBuffer) (before : Trace) : Prop :=
  ∃ (front polls later : Trace) (status : UInt64),
    before = front ++
      .write (BufferRegister.start.addr link.base) .dword 1 (.ok ()) :: (polls ++
      .read (BufferRegister.start.addr link.base) .dword (.ok status) :: later) ∧
    status.toUInt32 &&& 1 = 0

/-- The cancel register is set and then cleared, as far as the writes go. -/
def cancelWrites : List (Nat × UInt64) :=
  [(BufferRegister.cancel.addr link.base, 1), (BufferRegister.cancel.addr link.base, 0)]

variable {link} {event : Event} {trace front back : Trace} {result : Except Failure Unit}

theorem DoneSeen.append_left (h : link.DoneSeen back) : link.DoneSeen (front ++ back) := by
  obtain ⟨first, polls, later, status, rfl, hdone⟩ := h
  exact ⟨front ++ first, polls, later, status, by simp, hdone⟩

theorem DoneSeen.append_right (h : link.DoneSeen front) : link.DoneSeen (front ++ back) := by
  obtain ⟨first, polls, later, status, rfl, hdone⟩ := h
  exact ⟨first, polls, later ++ back, status, by simp, hdone⟩

/-! ### Load -/

theorem only_writeReg {kind : Event → Prop} {register : BufferRegister} {value : UInt32}
    (h : ∀ answer, kind (.write (register.addr link.base) .dword value.toUInt64 answer)) :
    (link.writeReg register value).Only kind :=
  only_checked_write h

theorem runs_writeReg_ok {register : BufferRegister} {value : UInt32}
    (h : (link.writeReg register value).Runs trace (.ok ())) :
    trace = [.write (register.addr link.base) .dword value.toUInt64 (.ok ())] := by
  obtain ⟨answer, rfl, hanswer⟩ := runs_writeReg h
  rw [eq_ok_of_checkedResult hanswer]

theorem only_writeBytes {kind : Event → Prop} {addr : Nat} {bytes : Bytes}
    (h : ∀ index < bytes.length, ∀ value answer, kind (.write (addr + index) .byte value answer)) :
    (writeBytes addr bytes).Only kind := by
  induction bytes generalizing addr with
  | nil => exact only_pure _
  | cons byte rest ih =>
    refine only_bind (only_checked_write fun answer => h 0 (by simp) _ answer) fun _ => ?_
    -- Byte `index` of the rest is byte `index + 1` of the whole.
    refine ih fun index hindex value answer => ?_
    rw [Nat.add_right_comm, Nat.add_assoc]
    exact h (index + 1) (Nat.succ_lt_succ hindex) value answer

/-- Where it succeeds, every byte has been written once and in order. -/
theorem runs_writeBytes_ok {addr : Nat} {bytes : Bytes}
    (h : (writeBytes addr bytes).Runs trace (.ok ())) :
    trace = bytes.mapIdx fun index byte =>
      .write (addr + index) .byte byte.toUInt64 (.ok ()) := by
  induction bytes generalizing addr trace with
  | nil => exact (runs_pure_iff.mp h).1
  | cons byte rest ih =>
    obtain ⟨first, later, ⟨⟩, rfl, hfirst, hlater⟩ := runs_bind_ok_iff.mp h
    obtain ⟨answer, rfl, hanswer⟩ := runs_checked_write_iff.mp hfirst
    rw [eq_ok_of_checkedResult hanswer, ih hlater, List.mapIdx_cons]
    simp [Nat.add_assoc, Nat.add_comm 1]

theorem only_writeCommand {command : Bytes} (hlength : command.length ≤ dataBufferSize) :
    (link.writeCommand command).Only link.IsLoad := by
  have hdata : ∀ index < command.length, ∀ value answer,
      link.IsLoad (.write (link.data + index) .byte value answer) := by
    intro index hindex value answer
    have hsize : dataBufferSize = 0xF80 := rfl
    have haddr : link.data = link.base + 0x80 := rfl
    exact .inl ⟨by omega, by omega⟩
  have hannounce : ∀ offset width value answer, 0x58 ≤ offset → offset < 0x70 →
      link.IsLoad (.write (link.base + offset) width value answer) :=
    fun offset width value answer hlow hhigh => .inr ⟨by omega, by omega⟩
  have hregister : ∀ register value, 0x58 ≤ register.offset → register.offset < 0x70 →
      (link.writeReg register value).Only link.IsLoad :=
    fun register value hlow hhigh => only_writeReg fun _ => hannounce _ _ _ _ hlow hhigh
  refine only_bind (only_writeBytes hdata) fun _ => ?_
  refine only_bind (hregister .commandHigh _ (by decide) (by decide)) fun _ => ?_
  refine only_bind (hregister .commandLow _ (by decide) (by decide)) fun _ => ?_
  refine only_bind (hregister .commandSize _ (by decide) (by decide)) fun _ => ?_
  refine only_bind (only_checked_write fun _ => hannounce _ _ _ _ (by decide) (by decide))
    fun _ => ?_
  exact hregister .responseSize _ (by decide) (by decide)

/-- Where it succeeds, the writes are those that fill the buffer and those that announce it. -/
theorem runs_writeCommand_ok {command : Bytes}
    (h : (link.writeCommand command).Runs trace (.ok ())) :
    trace = link.fill command ++ link.announcement := by
  obtain ⟨bytes, rest, ⟨⟩, rfl, hbytes, hrest⟩ := runs_bind_ok_iff.mp h
  obtain ⟨high, rest, ⟨⟩, rfl, hhigh, hrest⟩ := runs_bind_ok_iff.mp hrest
  obtain ⟨low, rest, ⟨⟩, rfl, hlow, hrest⟩ := runs_bind_ok_iff.mp hrest
  obtain ⟨size, rest, ⟨⟩, rfl, hsize, hrest⟩ := runs_bind_ok_iff.mp hrest
  obtain ⟨response, limit, ⟨⟩, rfl, hresponse, hlimit⟩ := runs_bind_ok_iff.mp hrest
  obtain ⟨answer, rfl, hanswer⟩ := runs_checked_write_iff.mp hresponse
  rw [runs_writeBytes_ok hbytes, runs_writeReg_ok hhigh, runs_writeReg_ok hlow,
    runs_writeReg_ok hsize, runs_writeReg_ok hlimit, eq_ok_of_checkedResult hanswer]
  rfl

/-! ### Run -/

theorem only_awaitDone {timeout : Nat} :
    (link.awaitDone timeout).Only
      (Event.Within (fun addr => addr = BufferRegister.start.addr link.base) fun _ => False) :=
  only_waitReg (fun _ => rfl) fun _ => trivial

/-- What a run of the command amounts to behind the write of the start register. -/
structure Finishing (link : CommandBuffer) (trace : Trace) (result : Except Failure Unit) :
    Prop where
  confined : ∀ event ∈ trace, link.IsRunPhase event
  cancels : trace.writes <+: link.cancelWrites
  done : result = .ok () → ∃ (polls later : Trace) (status : UInt64),
    trace = polls ++ .read (BufferRegister.start.addr link.base) .dword (.ok status) :: later ∧
      status.toUInt32 &&& 1 = 0

theorem finishing_awaitDone {timeout : Nat} (h : (link.awaitDone timeout).Runs trace result) :
    link.Finishing trace result where
  confined event hmem := (only_awaitDone _ _ h event hmem).mono (fun _ => id) fun _ => False.elim
  cancels := by
    rw [writes_eq_nil (only_awaitDone _ _ h)]
    exact List.nil_prefix
  done := by
    rintro rfl
    obtain ⟨polls, status, rfl, -, hclear⟩ := runs_waitReg_ok h
    exact ⟨polls, [], status, rfl, hclear⟩

/-- Polling the start register first changes nothing about how a command finishes. -/
theorem Finishing.after_polls {timeout : Nat} {found : Except Failure Unit}
    (hpolls : (link.awaitDone timeout).Runs front found) (h : link.Finishing back result) :
    link.Finishing (front ++ back) result where
  confined := List.forall_mem_append.mpr ⟨(finishing_awaitDone hpolls).confined, h.confined⟩
  cancels := by
    rw [writes_append, writes_eq_nil (only_awaitDone _ _ hpolls)]
    exact h.cancels
  done hresult := by
    obtain ⟨polls, later, status, rfl, hclear⟩ := h.done hresult
    exact ⟨front ++ polls, later, status, by simp, hclear⟩

/-- A cancel sets the cancel register and, if that works, clears it again after the wait. -/
theorem runs_cancel (h : link.cancel.Runs trace result) :
    ∃ answer rest,
      trace = .write (BufferRegister.cancel.addr link.base) .dword 1 answer :: rest ∧
      ((rest = [] ∧ result ≠ .ok ()) ∨ ∃ polls answer' acknowledged,
        rest = polls ++ [.write (BufferRegister.cancel.addr link.base) .dword 0 answer'] ∧
        (link.awaitDone link.timeouts.b).Runs polls acknowledged ∧
        (result = .ok () → acknowledged = .ok ())) := by
  have hset := runs_note_bind_iff.mp h
  obtain ⟨answer, rest, rfl, ⟨rfl, failure, rfl⟩ | ⟨rfl, hrest⟩⟩ := runs_checked_write_bind hset
  · exact ⟨answer, [], rfl, .inl ⟨rfl, fun hresult => by cases hresult⟩⟩
  obtain ⟨polls, last, acknowledged, rfl, hpolls, hlast⟩ := runs_observe_bind_iff.mp hrest
  refine ⟨.ok (), polls ++ last, rfl, .inr ?_⟩
  obtain ⟨answer', none, rfl, ⟨rfl, failure, rfl⟩ | ⟨rfl, hnone⟩⟩ := runs_checked_write_bind hlast
  · exact ⟨polls, answer', acknowledged, rfl, hpolls, fun hresult => by cases hresult⟩
  · have hend : none = [] ∧ (result = .ok () → acknowledged = .ok ()) := by
      cases acknowledged with
      | ok value => exact ⟨(runs_pure_iff.mp hnone).1, fun _ => rfl⟩
      | error failure =>
        cases failure with
        | timeout =>
          obtain ⟨rfl, rfl⟩ := runs_throw_iff.mp (runs_note_bind_iff.mp hnone)
          exact ⟨rfl, fun hresult => by cases hresult⟩
        | _ =>
          obtain ⟨rfl, rfl⟩ := runs_throw_iff.mp hnone
          exact ⟨rfl, fun hresult => by cases hresult⟩
    obtain ⟨rfl, hdone⟩ := hend
    exact ⟨polls, .ok (), acknowledged, rfl, hpolls, hdone⟩

theorem finishing_cancel (h : link.cancel.Runs trace result) : link.Finishing trace result := by
  obtain ⟨answer, rest, rfl, ⟨rfl, hresult⟩ | ⟨polls, answer', acknowledged, rfl, hpolls, hdone⟩⟩ :=
    runs_cancel h
  · exact ⟨List.forall_mem_singleton.mpr rfl, List.prefix_append [_] [_],
      fun hok => absurd hok hresult⟩
  · have hwait := finishing_awaitDone hpolls
    have hclear : ∀ event ∈ [Event.write (BufferRegister.cancel.addr link.base) .dword 0 answer'],
        link.IsRunPhase event :=
      List.forall_mem_singleton.mpr rfl
    constructor
    · exact List.forall_mem_cons.mpr ⟨rfl, List.forall_mem_append.mpr ⟨hwait.confined, hclear⟩⟩
    · rw [writes_write, writes_append, writes_eq_nil (only_awaitDone _ _ hpolls)]
      exact List.prefix_refl _
    · intro hok
      obtain ⟨first, later, status, rfl, hclear⟩ := hwait.done (hdone hok)
      exact ⟨_ :: first, later ++ [_], status, by rw [List.append_assoc]; rfl, hclear⟩

theorem finishing_nil {failure : Failure} : link.Finishing [] (.error failure) where
  confined := by simp
  cancels := List.nil_prefix
  done := by rintro ⟨⟩

/-- Running writes the start register and then finishes, by itself or by the cancel. -/
theorem runs_start (h : link.start.Runs trace result) :
    ∃ answer rest,
      trace = .write (BufferRegister.start.addr link.base) .dword 1 answer :: rest ∧
      link.Finishing rest result ∧ (result = .ok () → answer = .ok ()) := by
  obtain ⟨answer, rest, rfl, ⟨rfl, failure, rfl⟩ | ⟨rfl, hrest⟩⟩ := runs_checked_write_bind h
  · exact ⟨answer, [], rfl, finishing_nil, fun hresult => by cases hresult⟩
  · have hfinishing : link.Finishing rest result := by
      rcases runs_onTimeout_iff.mp hrest with ⟨-, hdone⟩ | ⟨polls, back, rfl, hpolls, hback⟩
      · exact finishing_awaitDone hdone
      · exact (finishing_cancel hback).after_polls hpolls
    exact ⟨.ok (), rest, rfl, hfinishing, fun _ => rfl⟩

/-! ### Response -/

theorem only_readBytes {kind : Event → Prop} {addr count : Nat} {soFar : Bytes}
    (h : ∀ index < count, ∀ answer, kind (.read (addr + index) .byte answer)) :
    (readBytes addr count soFar).Only kind := by
  induction count generalizing addr soFar with
  | zero => exact only_pure _
  | succ count ih =>
    refine only_bind (only_checked_read fun answer => h 0 (by omega) answer) fun byte => ?_
    refine ih fun index hindex answer => ?_
    rw [Nat.add_right_comm, Nat.add_assoc]
    exact h (index + 1) (Nat.succ_lt_succ hindex) answer

/-- The response lies in the buffer, since no more is read than the capacity allows. -/
theorem only_readResponse {capacity : Nat} (hcapacity : capacity ≤ dataBufferSize) :
    (link.readResponse capacity).Only (Event.Within link.InData fun _ => False) := by
  have hsize : dataBufferSize = 0xF80 := rfl
  have hheader : Header.size = 10 := rfl
  have haddr : link.data = link.base + 0x80 := rfl
  have hread : ∀ index < dataBufferSize, ∀ answer,
      Event.Within link.InData (fun _ => False) (.read (link.data + index) .byte answer) :=
    fun index hindex answer => ⟨by omega, by omega⟩
  refine only_bind (only_readBytes fun index hindex => hread index (by omega)) fun header => ?_
  refine only_bind_of_ok only_acceptResponse fun size front haccept => ?_
  have hfits := runs_acceptResponse_ok haccept
  split
  · exact only_pure _
  · refine only_readBytes fun index hindex answer => ?_
    rw [Nat.add_assoc]
    exact hread (Header.size + index) (by omega) answer

theorem runs_exit (h : link.exit.Runs trace result) :
    ∃ answer, trace = [.write (BufferRegister.request.addr link.base) .dword 2 answer] := by
  refine runs_write_bind (fun answer => ?_) h
  cases answer with
  | ok value => exact only_pure _
  | error fault => exact only_note _

end CommandBuffer

end TpmLink

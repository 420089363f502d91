import TpmLink.Proofs.Slices
import TpmLink.Proofs.Transport.Agreement
import TpmLink.Transport.Link

/-!
# Commands over either transport

What holds of a command on the command buffer and on the FIFO, said once for a link: what it returns
is all that the received header declares, a command that succeeds has been taken byte for byte, and
a chip that serves the command has its response returned.
-/

namespace TpmLink

open Script Trace

/-! ### What is returned -/

namespace Response

/-- The code in the header. -/
def declaredCode (stream : Bytes) : UInt32 := UInt32.ofNat (beValue (slice stream 6 4))

/-- The transport returned as much of what it received as the header declares. -/
structure Returned (received : Bytes) (capacity : Nat) (response : Bytes) : Prop where
  bytes_eq : response = received.take (declaredSize received)
  length_eq : response.length = declaredSize received
  length_le : response.length ≤ capacity

variable {received response : Bytes} {capacity : Nat}

/-- A verdict on what has been received is all that the header declares. -/
theorem returned_of_verdict (hdemand : received.length = demand received capacity)
    (h : verdict received capacity = .ok response) : Returned received capacity response := by
  obtain ⟨hlegacy, hfits, hbytes⟩ := verdict_eq_ok_iff.mp h
  have hadmitted : admitted received capacity = .ok (declaredSize received) := by
    rw [admitted, if_neg hlegacy, if_neg (Nat.not_lt.mpr hfits)]
  have hlength : response.length = declaredSize received := by
    rw [hbytes, List.length_take, hdemand, demand_of_admitted hadmitted]
    exact Nat.min_eq_left (Nat.le_max_right _ _)
  exact ⟨hbytes, hlength, hlength ▸ hfits⟩

theorem Returned.mono {larger : Nat} (h : Returned received capacity response)
    (hcapacity : capacity ≤ larger) : Returned received larger response :=
  ⟨h.bytes_eq, h.length_eq, Nat.le_trans h.length_le hcapacity⟩

/-- The decoder finds the size and the code that the transport saw. -/
theorem Returned.header (h : Returned received capacity response)
    (hsize : Header.size ≤ declaredSize received) :
    declaredSize response = response.length ∧ declaredCode response = declaredCode received := by
  have hheader : Header.size = 10 := rfl
  have hlength : slice response 2 4 = slice received 2 4 := by
    rw [h.bytes_eq]
    exact slice_take (by omega)
  have hcode : slice response 6 4 = slice received 6 4 := by
    rw [h.bytes_eq]
    exact slice_take (by omega)
  rw [h.length_eq, declaredSize, declaredCode, hlength, hcode]
  exact ⟨rfl, rfl⟩

end Response

theorem CommandBuffer.returned_of_ok {link : CommandBuffer} {command response : Bytes}
    {maxResponse : Nat} {trace : Trace} (hlength : command.length ≤ dataBufferSize)
    (h : (link.execute command maxResponse).Runs trace (.ok response)) :
    Response.Returned (link.received trace) (min maxResponse dataBufferSize) response := by
  have hresponsive : ¬ link.Unresponsive trace := by
    rw [← busy_iff_unresponsive hlength h]
    simp
  obtain ⟨front, values, answer, rfl, -, hreceived, hdemand, hverdict⟩ :=
    runs_execute_verdict hlength (by simp) hresponsive h
  rw [← length_lowBytes, ← hreceived] at hdemand
  rw [← hreceived] at hverdict
  exact Response.returned_of_verdict hdemand hverdict.symm

theorem Fifo.returned_of_ok {link : Fifo} {command response : Bytes} {capacity : Nat}
    {trace : Trace} (h : (link.execute command capacity).Runs trace (.ok response)) :
    Response.Returned (link.received trace) capacity response := by
  have hresponsive : ¬ link.Unresponsive command capacity trace := by
    rw [← busy_iff_unresponsive h]
    simp
  have hsated : ¬ link.ExpectsMore command trace := by
    intro hexpects
    have hresult := tooSmall_of_expectsMore h hexpects
    cases hresult
  obtain ⟨hdemand, hverdict⟩ := runs_execute_verdict (by simp) hresponsive hsated h
  exact Response.returned_of_verdict hdemand hverdict.symm

/-! ### What is written -/

theorem CommandBuffer.filter_isDataWrite_of_ok {link : CommandBuffer} {command response : Bytes}
    {maxResponse : Nat} {trace : Trace} (hlength : command.length ≤ dataBufferSize)
    (h : (link.execute command maxResponse).Runs trace (.ok response)) :
    trace.filter link.IsDataWrite = link.fill command := by
  obtain ⟨middle, answer, rfl, hsession⟩ := (runs_execute_iff hlength).mp h
  obtain ⟨ready, rest, ⟨⟩, rfl, hready, hrest⟩ := runs_bind_ok_iff.mp hsession
  obtain ⟨load, run, ⟨⟩, rfl, hload, hrun⟩ := runs_bind_ok_iff.mp (runs_note_bind_iff.mp hrest)
  obtain ⟨⟨started, polls, rfl, hpolls⟩, -⟩ := runs_execution (Nat.min_le_right _ _) hrun
  have hnone : ∀ {part : Trace}, part.Never link.IsDataWrite →
      part.filter link.IsDataWrite = [] :=
    fun hnever => List.filter_eq_nil_iff.mpr fun event hmem => by simpa using hnever event hmem
  have hregister : ∀ register : BufferRegister, register.offset < 0x80 →
      ∀ addr, addr = register.addr link.base → ¬ link.InData addr := by
    rintro register hoffset _ rfl
    exact not_inData_register hoffset
  have hbefore : ready.Never link.IsDataWrite :=
    never_writesTo (only_makeReady _ _ hready) (hregister .request (by decide))
  have hbehind : Trace.Never link.IsDataWrite
      (link.startWrite started :: polls ++ [link.exitWrite answer]) :=
    never_append.mpr ⟨never_cons.mpr ⟨hregister .start (by decide) _ rfl,
      never_writesTo hpolls.confined (hregister .cancel (by decide))⟩,
      never_cons.mpr ⟨hregister .request (by decide) _ rfl, never_nil⟩⟩
  rw [runs_writeCommand_ok hload, List.append_assoc, List.append_assoc, List.filter_append,
    List.filter_append, List.filter_append, hnone hbefore, filter_fill hlength,
    filter_announcement, hnone hbehind, List.nil_append, List.append_nil, List.append_nil]

/-- A command that is sent with success is written to the data register as it is. -/
theorem Fifo.filter_isSend_of_send_ok {link : Fifo} {command : Bytes} {trace : Trace}
    (h : (link.send command).Runs trace (.ok ())) :
    trace.filter link.IsSend = link.sending command := by
  obtain ⟨sent, polls, ⟨⟩, rfl, hsent, hpolls⟩ := runs_bind_ok_iff.mp h
  obtain ⟨found, hfound, -⟩ := runs_onTimeout_throw hpolls
  rw [List.filter_append, runs_sendBytes_ok hsent,
    filter_eq_nil (never_isSend_of_wait (only_waitStatus _ _ hfound)), List.append_nil]

theorem Fifo.filter_isSend_of_ok {link : Fifo} {command response : Bytes} {capacity : Nat}
    {trace : Trace} (h : (link.execute command capacity).Runs trace (.ok response)) :
    trace.filter link.IsSend = link.sending command := by
  obtain ⟨middle, answer, rfl, hsession⟩ := runs_execute_iff.mp h
  obtain ⟨ready, rest, ⟨⟩, rfl, hready, hrest⟩ := runs_bind_ok_iff.mp hsession
  obtain ⟨load, run, ⟨⟩, rfl, hload, hrun⟩ := runs_bind_ok_iff.mp (runs_note_bind_iff.mp hrest)
  obtain ⟨⟨started, polls, rfl, hpolls⟩, -⟩ := runs_execution hrun
  have hstatus : ∀ addr, addr = link.status → addr ≠ link.data :=
    fun addr haddr => IsSource.ne_data (.inl haddr)
  have hbefore : ready.Never link.IsSend :=
    never_writesTo (runs_prepare hready).1.confined hstatus
  have hbehind : Trace.Never link.IsSend
      (link.startWrite started :: polls ++ [link.exitWrite answer]) :=
    never_append.mpr ⟨never_cons.mpr ⟨hstatus _ rfl, never_writesTo hpolls.confined hstatus⟩,
      never_isSend_exitWrite answer⟩
  rw [List.append_assoc, List.append_assoc, List.filter_append, List.filter_append,
    filter_eq_nil hbefore, filter_eq_nil hbehind, filter_isSend_of_send_ok hload, List.nil_append,
    List.append_nil]

namespace Link

/-- What has been read of responses, in order. -/
def received : Link → Trace → Bytes
  | commandBuffer link => link.received
  | fifo link => link.received

variable {link : Link} {command response : Bytes} {maxResponse : Nat} {trace : Trace}

/-- Either transport returns as much as the header declares. -/
theorem returned_of_ok (hlength : command.length ≤ dataBufferSize)
    (h : (link.execute command maxResponse).Runs trace (.ok response)) :
    Response.Returned (link.received trace) maxResponse response := by
  cases link with
  | commandBuffer link =>
    exact (CommandBuffer.returned_of_ok hlength h).mono (Nat.min_le_left _ _)
  | fifo link => exact Fifo.returned_of_ok h

/-- The failures of a transport for a command that fits. -/
theorem failsWith_execute (hlength : command.length ≤ dataBufferSize) :
    (link.execute command maxResponse).FailsWith
      [.deviceBusy, .io, .notSupported, .bufferTooSmall] := by
  cases link with
  | commandBuffer link =>
    intro trace failure h
    obtain ⟨middle, answer, rfl, hsession⟩ := (CommandBuffer.runs_execute_iff hlength).mp h
    exact CommandBuffer.failsWith_session _ _ hsession
  | fifo link => exact Fifo.failsWith_execute

/-! ### What is taken -/

/-- The chip took the command: what the bus wrote to the data buffer, or to the data register, are
its bytes, each once, in order and with success. -/
def Takes (link : Link) (command : Bytes) (trace : Trace) : Prop :=
  match link with
  | commandBuffer link => trace.filter link.IsDataWrite = link.fill command
  | fifo link => trace.filter link.IsSend = link.sending command

/-- A command that succeeds has been taken. -/
theorem takes_of_ok (hlength : command.length ≤ dataBufferSize)
    (h : (link.execute command maxResponse).Runs trace (.ok response)) :
    link.Takes command trace := by
  cases link with
  | commandBuffer link => exact CommandBuffer.filter_isDataWrite_of_ok hlength h
  | fifo link => exact Fifo.filter_isSend_of_ok h

/-! ### Service -/

/-- No access fails, no wait runs out of time, and the chip offers the stream for a response. -/
def Serves (link : Link) (command : Bytes) (maxResponse : Nat) (stream : Bytes) (trace : Trace) :
    Prop :=
  match link with
  | commandBuffer link => link.Serves stream trace
  | fifo link => link.Serves command maxResponse stream trace

/-- A command that is served comes to the verdict on the stream, at the capacity of the link. -/
theorem result_of_serves {stream : Bytes} {result : Except Failure Bytes} {least : Nat}
    (hlength : command.length ≤ dataBufferSize)
    (hleast : least ≤ dataBufferSize) (hmax : least ≤ maxResponse)
    (hverdict : ∀ capacity, least ≤ capacity → Response.verdict stream capacity = .ok response)
    (hserves : link.Serves command maxResponse stream trace)
    (h : (link.execute command maxResponse).Runs trace result) : result = .ok response := by
  cases link with
  | commandBuffer link =>
    have hdelivers := CommandBuffer.Serves.delivers hserves hlength h
    exact hdelivers.result_eq.trans (hverdict _ (Nat.le_min.mpr ⟨hmax, hleast⟩))
  | fifo link =>
    have hdelivers := Fifo.Serves.delivers hserves h
    exact hdelivers.result_eq.trans (hverdict _ hmax)

end Link

end TpmLink

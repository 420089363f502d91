import TpmLink.Proofs.Transport.Conduct

/-!
# Both transports return the same response

The command buffer reads a response at its addresses, the FIFO in bursts. Where both chips offer the
same stream of bytes and no wait fails, both commands come to the verdict on that stream, and both
read as much of it as the verdict asks for.
-/

namespace TpmLink

open Script Trace

variable {stream command : Bytes} {capacity : Nat} {trace : Trace} {result : Except Failure Bytes}

/-- A command comes to the verdict on a stream, and reads no more and no less of it than that
needs. -/
structure Response.Delivers (stream : Bytes) (capacity : Nat) (received : Bytes) (reads : Nat)
    (result : Except Failure Bytes) : Prop where
  result_eq : result = verdict stream capacity
  received_eq : received = stream.take (demand stream capacity)
  reads_eq : reads = demand stream capacity

/-- What has been read is a beginning of the stream, and as long as it asks for itself. -/
theorem Response.delivers_of_beginning {received : Bytes} {reads : Nat} (h : received <+: stream)
    (hdemand : received.length = demand received capacity) (hreads : received.length = reads)
    (hresult : result = verdict received capacity) :
    Delivers stream capacity received reads result := by
  obtain ⟨hreceived, hlength, hverdict⟩ := verdict_of_beginning h hdemand
  exact ⟨hresult.trans hverdict, hreceived, hreads.symm.trans hlength⟩

namespace CommandBuffer

variable (link : CommandBuffer)

instance : DecidablePred link.IsDataRead :=
  inferInstanceAs (DecidablePred (Event.ReadsFrom link.InData))

/-- A read from the data buffer yields the byte of the stream at its place. -/
def Offers (stream : Bytes) : Event → Prop
  | .read addr _ (.ok raw) => link.InData addr → stream[addr - link.data]? = some raw.toUInt8
  | _ => True

instance (stream : Bytes) : DecidablePred (link.Offers stream)
  | .read addr _ (.ok raw) => inferInstanceAs
      (Decidable (link.InData addr → stream[addr - link.data]? = some raw.toUInt8))
  | .read _ _ (.error _) | .write .. | .stall _ => isTrue trivial

/-- No access fails, the chip becomes ready and finishes, and its data buffer holds the stream. -/
structure Serves (link : CommandBuffer) (stream : Bytes) (trace : Trace) : Prop where
  faultless : trace.Never link.IsFault
  responsive : ¬ link.Unresponsive trace
  offers : ∀ event ∈ trace, link.Offers stream event

variable {link}

/-- What is read from the start of the data buffer on is a beginning of the stream. -/
theorem lowBytes_isPrefix {values : List UInt64}
    (hdata : ∀ index < values.length, link.InData (link.data + index))
    (hoffers : ∀ event ∈ reading link.data values, link.Offers stream event) :
    lowBytes values <+: stream := by
  refine List.prefix_iff_getElem?.mpr fun index hindex => ?_
  rw [length_lowBytes] at hindex
  have hmem : .read (link.data + index) .byte (.ok values[index]) ∈ reading link.data values :=
    List.mem_mapIdx.mpr ⟨index, hindex, rfl⟩
  have hbyte := hoffers _ hmem (hdata index hindex)
  rw [Nat.add_sub_cancel_left] at hbyte
  rw [hbyte]
  exact congrArg some (List.getElem_map _).symm

theorem Serves.delivers {maxResponse : Nat} (hserves : link.Serves stream trace)
    (hlength : command.length ≤ dataBufferSize)
    (h : (link.execute command maxResponse).Runs trace result) :
    Response.Delivers stream (min maxResponse dataBufferSize) (link.received trace)
      (trace.countP link.IsDataRead) result := by
  have hreads : (link.received trace).length = trace.countP link.IsDataRead := by
    refine length_received fun event hmem hfailed => hserves.faultless event hmem ⟨hfailed.2, ?_⟩
    cases event with
    | read => exact id
    | _ => exact absurd hfailed.1 id
  obtain ⟨front, values, answer, rfl, hdata, hreceived, hdemand, hverdict⟩ :=
    runs_execute_verdict hlength ((ne_io_iff_faultless h).mpr hserves.faultless)
      hserves.responsive h
  have hbeginning : lowBytes values <+: stream :=
    lowBytes_isPrefix hdata fun event hmem => hserves.offers event (by simp [hmem])
  rw [hreceived] at hreads ⊢
  exact Response.delivers_of_beginning hbeginning (by rwa [length_lowBytes]) hreads hverdict

/-- A command that succeeds was served. -/
theorem serves_of_ok {maxResponse : Nat} {bytes : Bytes} (hlength : command.length ≤ dataBufferSize)
    (h : (link.execute command maxResponse).Runs trace result) (hok : result = .ok bytes)
    (hoffers : ∀ event ∈ trace, link.Offers stream event) : link.Serves stream trace where
  faultless := (ne_io_iff_faultless h).mp (by simp [hok])
  responsive := by
    rw [← busy_iff_unresponsive hlength h, hok]
    simp
  offers := hoffers

end CommandBuffer

namespace Fifo

/-- No access before the exit fails, the chip is not given up and takes the command, and its data
register yields the stream. -/
structure Serves (link : Fifo) (command : Bytes) (capacity : Nat) (stream : Bytes)
    (trace : Trace) : Prop where
  faultless : Trace.Never Event.Failed trace.dropLast
  responsive : ¬ link.Unresponsive command capacity trace
  takes : ¬ link.ExpectsMore command trace
  offers : link.received trace <+: stream

variable {link : Fifo}

theorem Serves.delivers (hserves : link.Serves command capacity stream trace)
    (h : (link.execute command capacity).Runs trace result) :
    Response.Delivers stream capacity (link.received trace) (trace.countP link.IsReceive)
      result := by
  have hreads : (link.received trace).length = trace.countP link.IsReceive := by
    obtain ⟨middle, answer, rfl, -⟩ := runs_execute_iff.mp h
    have hfaultless := hserves.faultless
    rw [List.dropLast_concat] at hfaultless
    refine length_received (never_append.mpr ⟨?_, never_cons.mpr ⟨fun hexit => hexit.1, never_nil⟩⟩)
    exact hfaultless.mono fun _ => And.right
  obtain ⟨hdemand, hverdict⟩ := runs_execute_verdict ((ne_io_iff_faultless h).mpr hserves.faultless)
    hserves.responsive hserves.takes h
  exact Response.delivers_of_beginning hserves.offers hdemand hreads hverdict

/-- A command that succeeds was served. -/
theorem serves_of_ok {bytes : Bytes} (h : (link.execute command capacity).Runs trace result)
    (hok : result = .ok bytes) (hoffers : link.received trace <+: stream) :
    link.Serves command capacity stream trace where
  faultless := (ne_io_iff_faultless h).mp (by simp [hok])
  responsive := by
    rw [← busy_iff_unresponsive h, hok]
    simp
  takes hexpects := by
    have hresult := tooSmall_of_expectsMore h hexpects
    rw [hok] at hresult
    cases hresult
  offers := hoffers

end Fifo

section
variable {σ τ : Type}

/-- Both transports return the verdict on the stream, however the FIFO is paced, and each reads as
much of the stream as the verdict needs. A capacity beyond the data buffer changes nothing on the
command buffer. -/
theorem transports_agree (bufferDevice : Device σ) (bufferState : σ) (fifoDevice : Device τ)
    (fifoState : τ) (buffer : CommandBuffer) (fifo : Fifo) (stream command : Bytes) (capacity : Nat)
    (hlength : command.length ≤ dataBufferSize) (hcapacity : capacity ≤ dataBufferSize)
    (hbuffer : buffer.Serves stream
      ((buffer.execute command capacity).trace bufferDevice bufferState))
    (hfifo : fifo.Serves command capacity stream
      ((fifo.execute command capacity).trace fifoDevice fifoState)) :
    ((buffer.execute command capacity).run bufferDevice bufferState).1 =
        ((fifo.execute command capacity).run fifoDevice fifoState).1 ∧
      Response.Delivers stream capacity
        (buffer.received ((buffer.execute command capacity).trace bufferDevice bufferState))
        (((buffer.execute command capacity).trace bufferDevice bufferState).countP
          buffer.IsDataRead)
        ((buffer.execute command capacity).run bufferDevice bufferState).1 ∧
      Response.Delivers stream capacity
        (fifo.received ((fifo.execute command capacity).trace fifoDevice fifoState))
        (((fifo.execute command capacity).trace fifoDevice fifoState).countP fifo.IsReceive)
        ((fifo.execute command capacity).run fifoDevice fifoState).1 ∧
      ∀ larger, dataBufferSize ≤ larger →
        buffer.execute command larger = buffer.execute command dataBufferSize := by
  have hfromBuffer := hbuffer.delivers hlength (runs_trace bufferDevice _ bufferState)
  have hfromFifo := hfifo.delivers (runs_trace fifoDevice _ fifoState)
  rw [Nat.min_eq_left hcapacity] at hfromBuffer
  refine ⟨hfromBuffer.result_eq.trans hfromFifo.result_eq.symm, hfromBuffer, hfromFifo, ?_⟩
  intro larger hlarger
  rw [CommandBuffer.execute, CommandBuffer.execute, Nat.min_eq_right hlarger, Nat.min_self]

end

/-- A chip whose data buffer holds a response, and that is prompt in all else. -/
def CommandBuffer.servingChip (base : Nat) (response : Bytes) : Device Bool :=
  { promptChip base with
    read := fun addr width idle =>
      if base + 0x80 ≤ addr then (.ok (response.getD (addr - (base + 0x80)) 0).toUInt64, idle)
      else (promptChip base).read addr width idle }

/-- A chip that is always ready and available, and grants three bytes at every other look at its
burst count and none at the others. Its state says whether the next look grants, and what is left of
the response. -/
def Fifo.pacedChip (base : Nat) : Device (Bool × Bytes) where
  read addr _
    | (grants, response) =>
      if addr = FifoRegister.status.addr base then (.ok 0xD0, grants, response)
      else if addr = FifoRegister.burstCount.addr base then
        (.ok (if grants then 3 else 0), !grants, response)
      else if addr = FifoRegister.dataFifo.addr base then
        (.ok (response.headD 0).toUInt64, grants, response.tail)
      else (.ok 0, grants, response)
  write _ _ _ state := (.ok (), state)
  stall _ state := state
  note _ state := state

/-- A response of twelve bytes, and one byte behind it. -/
def sampleStream : Bytes :=
  [0x80, 0x01, 0x00, 0x00, 0x00, 0x0C, 0x00, 0x00, 0x00, 0x00, 0xAA, 0xBB, 0xCC]

/-- The response comes through both transports, and what is behind it stays. -/
theorem transports_agree_sampleStream :
    let buffer : CommandBuffer := ⟨0, .notSupported, Timeouts.commandBuffer⟩
    let fifo : Fifo := ⟨0, Timeouts.fifo⟩
    let bufferDevice := CommandBuffer.servingChip 0 sampleStream
    let fifoState := (false, sampleStream)
    buffer.Serves sampleStream ((buffer.execute [0x80, 0x01] 16).trace bufferDevice true) ∧
      fifo.Serves [0x80, 0x01] 16 sampleStream
        ((fifo.execute [0x80, 0x01] 16).trace (Fifo.pacedChip 0) fifoState) ∧
      ((buffer.execute [0x80, 0x01] 16).run bufferDevice true).1 =
        ((fifo.execute [0x80, 0x01] 16).run (Fifo.pacedChip 0) fifoState).1 ∧
      ((buffer.execute [0x80, 0x01] 16).run bufferDevice true).1 = .ok (sampleStream.take 12) :=
  have hbuffer : CommandBuffer.Serves ⟨0, .notSupported, Timeouts.commandBuffer⟩ sampleStream
      ((CommandBuffer.execute ⟨0, .notSupported, Timeouts.commandBuffer⟩ [0x80, 0x01] 16).trace
        (CommandBuffer.servingChip 0 sampleStream) true) :=
    CommandBuffer.serves_of_ok (by decide) (runs_trace _ _ _) rfl (by decide +kernel)
  have hfifo : Fifo.Serves ⟨0, Timeouts.fifo⟩ [0x80, 0x01] 16 sampleStream
      ((Fifo.execute ⟨0, Timeouts.fifo⟩ [0x80, 0x01] 16).trace (Fifo.pacedChip 0)
        (false, sampleStream)) :=
    Fifo.serves_of_ok (runs_trace _ _ _) rfl (by decide +kernel)
  ⟨hbuffer, hfifo,
    (transports_agree _ _ _ _ _ _ _ _ _ (by decide) (by decide) hbuffer hfifo).1, rfl⟩

end TpmLink

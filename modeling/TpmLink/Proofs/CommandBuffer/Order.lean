import TpmLink.Proofs.CommandBuffer.Running

/-!
# The order of a command on the command buffer

Whatever the bus answers, a command keeps the order of the protocol: it is loaded only when ready
has been seen, started at most once and only when it has been loaded whole, read only when it is
done, and behind its start nothing is written but the cancel register and the way back to idle.
-/

namespace TpmLink

namespace CommandBuffer

open Script Trace

variable {link : CommandBuffer} {command : Bytes}

/-- The registers and the buffer that a command may read. -/
def IsReadable (link : CommandBuffer) (addr : Nat) : Prop :=
  link.IsReadySource addr ∨ addr = BufferRegister.start.addr link.base ∨ link.InData addr

/-- The registers and the buffer that a command may write. -/
def IsWritable (link : CommandBuffer) (addr : Nat) : Prop :=
  addr = BufferRegister.request.addr link.base ∨
    (addr = BufferRegister.start.addr link.base ∨ addr = BufferRegister.cancel.addr link.base) ∨
    link.InData addr ∨ link.InAnnounce addr

/-- The whole command has been written, each byte once and in order, and the registers announce the
data buffer for the command and for the response. -/
structure Loaded (link : CommandBuffer) (command : Bytes) (before : Trace) : Prop where
  bytes : before.filter link.IsDataWrite = link.fill command
  commandAddress : ∃ high low : UInt64,
    before.held (BufferRegister.commandHigh.addr link.base) .dword = some high ∧
    before.held (BufferRegister.commandLow.addr link.base) .dword = some low ∧
    high.toNat * UInt32.size + low.toNat = link.base + 0x80
  commandSize : before.held (BufferRegister.commandSize.addr link.base) .dword = some 0xF80
  responseAddress : ∃ addr : UInt64,
    before.held (BufferRegister.responseAddress.addr link.base) .qword = some addr ∧
    addr.toNat = link.base + 0x80
  responseSize : before.held (BufferRegister.responseSize.addr link.base) .dword = some 0xF80

/-- What a started command does up to the exit: the start register is polled, the data buffer is
read, and the cancel register is set and cleared at most. -/
structure Tail (link : CommandBuffer) (middle : Trace) : Prop where
  cancels : middle.writes <+: link.cancelWrites
  confined : ∀ event ∈ middle, event.Within
    (fun addr => addr = BufferRegister.start.addr link.base ∨ link.InData addr)
    fun addr => addr = BufferRegister.cancel.addr link.base

/-- The write that starts a command. -/
def startWrite (link : CommandBuffer) (answer : Except BusFault Unit) : Event :=
  .write (BufferRegister.start.addr link.base) .dword 1 answer

/-- The write that sends the chip back to idle. -/
def exitWrite (link : CommandBuffer) (answer : Except BusFault Unit) : Event :=
  .write (BufferRegister.request.addr link.base) .dword 2 answer

/-- What comes behind the start: its tail, and as the last access the way back to idle. -/
def Ending (link : CommandBuffer) (after : Trace) : Prop :=
  ∃ middle answer, after = middle ++ [link.exitWrite answer] ∧ link.Tail middle

/-- The order of the protocol. -/
structure InOrder (link : CommandBuffer) (command : Bytes) (trace : Trace) : Prop where
  confined : ∀ event ∈ trace, event.Within link.IsReadable link.IsWritable
  loadAfterReady : trace.OnlyAfter link.IsLoad link.ReadySeen
  requestAfterIdle :
    link.idleBypass ≠ .supported → trace.OnlyAfter link.IsReadyRequest link.IdleSeen
  startOnce : trace.AtMostOnce link.IsStart
  startAfterLoad : trace.OnlyAfter link.IsStart (link.Loaded command)
  readAfterDone : trace.OnlyAfter link.IsDataRead link.DoneSeen
  endsAfterStart : trace.FollowedBy link.IsStart link.Ending

/-! ### Loaded -/

theorem filter_fill (hlength : command.length ≤ dataBufferSize) :
    (link.fill command).filter link.IsDataWrite = link.fill command := by
  have hsize : dataBufferSize = 0xF80 := rfl
  refine List.filter_eq_self.mpr fun event hmem => ?_
  obtain ⟨index, hindex, rfl⟩ := List.mem_mapIdx.mp hmem
  have hdata : link.InData (link.base + 0x80 + index) := ⟨by omega, by omega⟩
  exact decide_eq_true hdata

theorem filter_announcement : link.announcement.filter link.IsDataWrite = [] := by
  have hannounce : ∀ offset width value answer, offset < 0x80 →
      ¬ link.IsDataWrite (.write (link.base + offset) width value answer) := by
    intro offset width value answer hoffset hdata
    have hlow : link.base + 0x80 ≤ link.base + offset := hdata.1
    omega
  simp [announcement, hannounce]

theorem held_announcement (link : CommandBuffer) :
    link.announcement.held (link.base + 0x60) .dword =
        some (UInt32.ofNat (link.data >>> 32)).toUInt64 ∧
      link.announcement.held (link.base + 0x5C) .dword = some (UInt32.ofNat link.data).toUInt64 ∧
      link.announcement.held (link.base + 0x58) .dword = some 0xF80 ∧
      link.announcement.held (link.base + 0x68) .qword = some (UInt64.ofNat link.data) ∧
      link.announcement.held (link.base + 0x64) .dword = some 0xF80 := by
  simp [held, announcement, Event.touches, Event.stored?, Width.bytes, Nat.add_assoc]

/-- The data buffer's address goes through two halves of 32 bits and comes out whole. -/
theorem toNat_halves {addr : Nat} (h : addr < UInt64.size) :
    (UInt32.ofNat (addr >>> 32)).toUInt64.toNat * UInt32.size +
      (UInt32.ofNat addr).toUInt64.toNat = addr := by
  have hsize : UInt64.size = 18446744073709551616 := rfl
  have hhalf : UInt32.size = 4294967296 := rfl
  rw [UInt32.toNat_toUInt64, UInt32.toNat_toUInt64, UInt32.toNat_ofNat', UInt32.toNat_ofNat', hhalf]
  omega

theorem loaded_load {ready : Trace} (hbase : link.base + 0x1000 ≤ UInt64.size)
    (hlength : command.length ≤ dataBufferSize) (hready : ready.Never link.IsDataWrite) :
    link.Loaded command (ready ++ (link.fill command ++ link.announcement)) := by
  have haddr : link.data = link.base + 0x80 := rfl
  obtain ⟨hhigh, hlow, hsize, hresponse, hlimit⟩ := held_announcement link
  have hheld : ∀ {addr width value}, link.announcement.held addr width = some value →
      held (ready ++ (link.fill command ++ link.announcement)) addr width = some value :=
    fun h => held_append ready (held_append _ h)
  have hnone : ready.filter link.IsDataWrite = [] :=
    List.filter_eq_nil_iff.mpr fun event hmem => by simpa using hready event hmem
  refine ⟨?_, ⟨_, _, hheld hhigh, hheld hlow, ?_⟩, hheld hsize, ⟨_, hheld hresponse, ?_⟩,
    hheld hlimit⟩
  · rw [List.filter_append, List.filter_append, hnone, filter_fill hlength, filter_announcement,
      List.nil_append, List.append_nil]
  · exact toNat_halves (by omega)
  · have hsize : UInt64.size = 18446744073709551616 := rfl
    rw [UInt64.toNat_ofNat']
    omega

/-! ### Course -/

/-- How a session goes up to its exit: a later phase is empty where an earlier one failed. -/
structure Course (link : CommandBuffer) (command : Bytes) (ready load run : Trace) : Prop where
  attempts : link.Attempts ready
  readySeen : load ≠ [] → link.ReadySeen ready
  loads : ∀ event ∈ load, link.IsLoad event
  loaded : run ≠ [] → load = link.fill command ++ link.announcement
  starts : run ≠ [] → ∃ answer middle, run = link.startWrite answer :: middle ∧ link.Tail middle
  readAfterDone : run.OnlyAfter link.IsDataRead link.DoneSeen

theorem Finishing.tail {trace : Trace} {result : Except Failure Unit}
    (h : link.Finishing trace result) : link.Tail trace where
  cancels := h.cancels
  confined event hmem := (h.confined event hmem).mono (fun _ => .inl) fun _ => id

theorem Tail.append_reads {front back : Trace} (h : link.Tail front)
    (hback : ∀ event ∈ back, event.Within link.InData fun _ => False) :
    link.Tail (front ++ back) where
  cancels := by
    rw [writes_append, writes_eq_nil hback, List.append_nil]
    exact h.cancels
  confined := by
    have hreads : ∀ event ∈ back, event.Within
        (fun addr => addr = BufferRegister.start.addr link.base ∨ link.InData addr)
        fun addr => addr = BufferRegister.cancel.addr link.base :=
      fun event hmem => (hback event hmem).mono (fun _ => .inr) fun _ => False.elim
    exact List.forall_mem_append.mpr ⟨h.confined, hreads⟩

/-- Before the command is done the data buffer is not read. -/
theorem Finishing.never_isDataRead {trace : Trace} {result : Except Failure Unit}
    (h : link.Finishing trace result) (answer : Except BusFault Unit) :
    Trace.Never link.IsDataRead (link.startWrite answer :: trace) := by
  have hpolls : trace.Never link.IsDataRead :=
    never_readsFrom h.confined fun _ haddr => haddr ▸ not_inData_register (by decide)
  exact never_cons.mpr ⟨id, hpolls⟩

theorem Finishing.doneSeen {trace : Trace} (h : link.Finishing trace (.ok ())) :
    link.DoneSeen (link.startWrite (.ok ()) :: trace) := by
  obtain ⟨polls, later, status, rfl, hclear⟩ := h.done rfl
  exact ⟨[], polls, later, status, rfl, hclear⟩

/-- From the start on, the data buffer is read only when the command is done. -/
theorem runs_execution {capacity : Nat} {run : Trace} {result : Except Failure Bytes}
    (hcapacity : capacity ≤ dataBufferSize)
    (h : (link.start >>= fun _ => link.readResponse capacity).Runs run result) :
    (∃ answer middle, run = link.startWrite answer :: middle ∧ link.Tail middle) ∧
      run.OnlyAfter link.IsDataRead link.DoneSeen := by
  rcases runs_bind_iff.mp h with ⟨failure, rfl, hstart⟩ | ⟨front, response, ⟨⟩, rfl, hstart,
    hresponse⟩
  · obtain ⟨answer, middle, rfl, hmiddle, -⟩ := runs_start hstart
    have hnever := hmiddle.never_isDataRead answer
    exact ⟨⟨answer, middle, rfl, hmiddle.tail⟩, onlyAfter_of_never hnever⟩
  · obtain ⟨answer, polls, rfl, hpolls, hanswer⟩ := runs_start hstart
    obtain rfl := hanswer rfl
    have hreads := only_readResponse hcapacity _ _ hresponse
    have hfront : OnlyAfter link.IsDataRead link.DoneSeen (link.startWrite (.ok ()) :: polls) :=
      onlyAfter_of_never (hpolls.never_isDataRead (.ok ()))
    have hback : OnlyAfter link.IsDataRead
        (fun before => link.DoneSeen (link.startWrite (.ok ()) :: polls ++ before)) response :=
      onlyAfter_of_prefix fun _ _ => hpolls.doneSeen.append_right
    exact ⟨⟨.ok (), polls ++ response, rfl, hpolls.tail.append_reads hreads⟩,
      onlyAfter_append hfront hback⟩

theorem runs_session {capacity : Nat} {trace : Trace} {result : Except Failure Bytes}
    (hlength : command.length ≤ dataBufferSize) (hcapacity : capacity ≤ dataBufferSize)
    (h : (link.session command capacity).Runs trace result) :
    ∃ ready load run, trace = ready ++ (load ++ run) ∧ link.Course command ready load run := by
  rcases runs_bind_iff.mp h with ⟨failure, rfl, hready⟩ | ⟨ready, rest, ⟨⟩, rfl, hready, hrest⟩
  · exact ⟨trace, [], [], by simp, (runs_makeReady hready).1, by simp, by simp, by simp, by simp,
      onlyAfter_of_never never_nil⟩
  obtain ⟨hattempts, hseen⟩ := runs_makeReady hready
  have hloading := runs_note_bind_iff.mp hrest
  rcases runs_bind_iff.mp hloading with ⟨failure, rfl, hload⟩ | ⟨load, run, ⟨⟩, rfl, hload, hrun⟩
  · exact ⟨ready, rest, [], by simp, hattempts, fun _ => hseen rfl,
      only_writeCommand hlength _ _ hload, by simp, by simp, onlyAfter_of_never never_nil⟩
  · obtain ⟨hstarts, hreads⟩ := runs_execution hcapacity hrun
    exact ⟨ready, load, run, rfl, hattempts, fun _ => hseen rfl,
      only_writeCommand hlength _ _ hload, fun _ => runs_writeCommand_ok hload, fun _ => hstarts,
      hreads⟩

/-! ### Order -/

variable {ready load run : Trace}

theorem not_isStart_exitWrite (answer : Except BusFault Unit) :
    ¬ link.IsStart (link.exitWrite answer) :=
  mt addr_inj.mp (by decide)

theorem not_isLoad_exitWrite (answer : Except BusFault Unit) :
    ¬ link.IsLoad (link.exitWrite answer) :=
  not_inLoad_register (by decide)

theorem not_isReadyRequest_exitWrite (answer : Except BusFault Unit) :
    ¬ link.IsReadyRequest (link.exitWrite answer) :=
  fun hrequest => hrequest.2 (by decide)

theorem Ending.never_isStart {after : Trace} (h : link.Ending after) :
    after.Never link.IsStart := by
  obtain ⟨middle, answer, rfl, hmiddle⟩ := h
  have hcancel : ∀ addr, addr = BufferRegister.cancel.addr link.base →
      addr ≠ BufferRegister.start.addr link.base := by
    rintro _ rfl
    exact mt addr_inj.mp (by decide)
  have hexit : Trace.Never link.IsStart [link.exitWrite answer] :=
    never_cons.mpr ⟨not_isStart_exitWrite answer, never_nil⟩
  exact never_append.mpr ⟨never_writesTo hmiddle.confined hcancel, hexit⟩

namespace Course

theorem confined_run (h : link.Course command ready load run) :
    ∀ event ∈ run, event.Within
      (fun addr => addr = BufferRegister.start.addr link.base ∨ link.InData addr)
      fun addr => addr = BufferRegister.start.addr link.base ∨
        addr = BufferRegister.cancel.addr link.base := by
  by_cases hrun : run = []
  · simp [hrun]
  · obtain ⟨answer, middle, rfl, hmiddle⟩ := h.starts hrun
    have hrest : ∀ event ∈ middle, event.Within
        (fun addr => addr = BufferRegister.start.addr link.base ∨ link.InData addr)
        fun addr => addr = BufferRegister.start.addr link.base ∨
          addr = BufferRegister.cancel.addr link.base :=
      fun event hmem => (hmiddle.confined event hmem).mono (fun _ => id) fun _ => .inr
    exact List.forall_mem_cons.mpr ⟨.inl rfl, hrest⟩

theorem loads_within (h : link.Course command ready load run) :
    ∀ event ∈ load, event.Within (fun _ => False)
      fun addr => link.InData addr ∨ link.InAnnounce addr :=
  fun event hmem => (h.loads event hmem).within

theorem never_isRequest (h : link.Course command ready load run) :
    load.Never link.IsRequest ∧ run.Never link.IsRequest := by
  constructor
  · apply never_writesTo h.loads_within
    rintro _ hload rfl
    exact not_inLoad_register (by decide) hload
  · apply never_writesTo h.confined_run
    rintro _ (rfl | rfl)
    · exact mt addr_inj.mp (by decide)
    · exact mt addr_inj.mp (by decide)

theorem never_isStart (h : link.Course command ready load run) :
    ready.Never link.IsStart ∧ load.Never link.IsStart := by
  constructor
  · apply never_writesTo h.attempts.confined
    rintro _ rfl
    exact mt addr_inj.mp (by decide)
  · apply never_writesTo h.loads_within
    rintro _ hload rfl
    exact not_inLoad_register (by decide) hload

theorem never_isLoad (h : link.Course command ready load run) :
    ready.Never link.IsLoad ∧ run.Never link.IsLoad := by
  constructor
  · apply never_writesTo h.attempts.confined
    rintro _ rfl
    exact not_inLoad_register (by decide)
  · apply never_writesTo h.confined_run
    rintro _ (rfl | rfl)
    · exact not_inLoad_register (by decide)
    · exact not_inLoad_register (by decide)

theorem never_isDataRead (h : link.Course command ready load run) :
    ready.Never link.IsDataRead ∧ load.Never link.IsDataRead := by
  constructor
  · apply never_readsFrom h.attempts.confined
    rintro _ (rfl | rfl)
    · exact not_inData_register (by decide)
    · exact not_inData_register (by decide)
  · exact never_readsFrom h.loads_within fun _ => False.elim

/-- The trace of a session with its exit. -/
def whole (link : CommandBuffer) (ready load run : Trace) (answer : Except BusFault Unit) : Trace :=
  ready ++ (load ++ (run ++ [link.exitWrite answer]))

/-- The start, if there is one, is the first access of the run. -/
theorem starts_or_exits (h : link.Course command ready load run) (answer : Except BusFault Unit) :
    Trace.Never link.IsStart (run ++ [link.exitWrite answer]) ∨
      ∃ answer' after, run ++ [link.exitWrite answer] = link.startWrite answer' :: after ∧
        load = link.fill command ++ link.announcement ∧ link.Ending after := by
  by_cases hrun : run = []
  · rw [hrun]
    exact .inl (never_cons.mpr ⟨not_isStart_exitWrite answer, never_nil⟩)
  · obtain ⟨answer', middle, rfl, hmiddle⟩ := h.starts hrun
    exact .inr ⟨answer', middle ++ [link.exitWrite answer], rfl, h.loaded hrun, middle, answer, rfl,
      hmiddle⟩

theorem endsAfterStart (h : link.Course command ready load run) (answer : Except BusFault Unit) :
    FollowedBy link.IsStart link.Ending (whole link ready load run answer) := by
  have hrest : FollowedBy link.IsStart link.Ending (run ++ [link.exitWrite answer]) := by
    rcases h.starts_or_exits answer with hnever | ⟨answer', after, heq, -, hending⟩
    · exact followedBy_of_never hnever
    · rw [heq]
      exact followedBy_cons_of_never hending hending.never_isStart
  exact followedBy_append_of_never h.never_isStart.1
    (followedBy_append_of_never h.never_isStart.2 hrest)

theorem startAfterLoad (h : link.Course command ready load run)
    (hbase : link.base + 0x1000 ≤ UInt64.size) (hlength : command.length ≤ dataBufferSize)
    (answer : Except BusFault Unit) :
    OnlyAfter link.IsStart (link.Loaded command) (whole link ready load run answer) := by
  have hready : ready.Never link.IsDataWrite :=
    h.never_isLoad.1.mono fun _ hdata => Event.WritesTo.mono hdata fun _ => .inl
  have hrest : OnlyAfter link.IsStart
      (fun before => link.Loaded command (ready ++ (load ++ before)))
      (run ++ [link.exitWrite answer]) := by
    rcases h.starts_or_exits answer with hnever | ⟨answer', after, heq, rfl, hending⟩
    · exact onlyAfter_of_never hnever
    · have hloaded := loaded_load hbase hlength hready
      rw [heq]
      refine onlyAfter_cons (fun _ => ?_) (onlyAfter_of_never hending.never_isStart)
      rwa [List.append_nil]
  exact onlyAfter_append (onlyAfter_of_never h.never_isStart.1)
    (onlyAfter_append (onlyAfter_of_never h.never_isStart.2) hrest)

theorem loadAfterReady (h : link.Course command ready load run) (answer : Except BusFault Unit) :
    OnlyAfter link.IsLoad link.ReadySeen (whole link ready load run answer) := by
  have hload : OnlyAfter link.IsLoad (fun before => link.ReadySeen (ready ++ before)) load := by
    rintro before event after rfl -
    have hbefore : before.Never link.IsRequest := (never_append.mp h.never_isRequest.1).1
    exact (h.readySeen (by simp)).append_right hbefore
  have hrest : Trace.Never link.IsLoad (run ++ [link.exitWrite answer]) :=
    never_append.mpr ⟨h.never_isLoad.2, never_cons.mpr ⟨not_isLoad_exitWrite answer, never_nil⟩⟩
  exact onlyAfter_append (onlyAfter_of_never h.never_isLoad.1)
    (onlyAfter_append hload (onlyAfter_of_never hrest))

theorem requestAfterIdle (h : link.Course command ready load run) (answer : Except BusFault Unit)
    (hbypass : link.idleBypass ≠ .supported) :
    OnlyAfter link.IsReadyRequest link.IdleSeen (whole link ready load run answer) := by
  have hexit : Trace.Never link.IsReadyRequest [link.exitWrite answer] :=
    never_cons.mpr ⟨not_isReadyRequest_exitWrite answer, never_nil⟩
  have hload := h.never_isRequest.1.mono fun _ => IsReadyRequest.isRequest
  have hrun := h.never_isRequest.2.mono fun _ => IsReadyRequest.isRequest
  have hrest := never_append.mpr ⟨hload, never_append.mpr ⟨hrun, hexit⟩⟩
  exact onlyAfter_append (h.attempts.afterIdle hbypass) (onlyAfter_of_never hrest)

theorem readAfterDone_whole (h : link.Course command ready load run)
    (answer : Except BusFault Unit) :
    OnlyAfter link.IsDataRead link.DoneSeen (whole link ready load run answer) := by
  have hrun : OnlyAfter link.IsDataRead
      (fun before => link.DoneSeen (ready ++ (load ++ before))) run :=
    h.readAfterDone.mono fun _ hdone => hdone.append_left.append_left
  have hexit : Trace.Never link.IsDataRead [link.exitWrite answer] :=
    never_cons.mpr ⟨id, never_nil⟩
  exact onlyAfter_append (onlyAfter_of_never h.never_isDataRead.1)
    (onlyAfter_append (onlyAfter_of_never h.never_isDataRead.2)
      (onlyAfter_append hrun (onlyAfter_of_never hexit)))

theorem confined (h : link.Course command ready load run) (answer : Except BusFault Unit) :
    ∀ event ∈ whole link ready load run answer,
      event.Within link.IsReadable link.IsWritable := by
  have hready : ∀ event ∈ ready, event.Within link.IsReadable link.IsWritable :=
    fun event hmem => (h.attempts.confined event hmem).mono (fun _ => .inl) fun _ => .inl
  have hload : ∀ event ∈ load, event.Within link.IsReadable link.IsWritable :=
    fun event hmem => (h.loads_within event hmem).mono (fun _ => False.elim)
      fun _ haddr => .inr (.inr haddr)
  have hrun : ∀ event ∈ run, event.Within link.IsReadable link.IsWritable :=
    fun event hmem => (h.confined_run event hmem).mono (fun _ => .inr)
      fun _ haddr => .inr (.inl haddr)
  have hexit : ∀ event ∈ [link.exitWrite answer], event.Within link.IsReadable link.IsWritable :=
    List.forall_mem_singleton.mpr (.inl rfl)
  exact List.forall_mem_append.mpr ⟨hready, List.forall_mem_append.mpr
    ⟨hload, List.forall_mem_append.mpr ⟨hrun, hexit⟩⟩⟩

theorem inOrder (h : link.Course command ready load run)
    (hbase : link.base + 0x1000 ≤ UInt64.size) (hlength : command.length ≤ dataBufferSize)
    (answer : Except BusFault Unit) : link.InOrder command (whole link ready load run answer) where
  confined := h.confined answer
  loadAfterReady := h.loadAfterReady answer
  requestAfterIdle := h.requestAfterIdle answer
  startOnce := (h.endsAfterStart answer).mono fun _ => Ending.never_isStart
  startAfterLoad := h.startAfterLoad hbase hlength answer
  readAfterDone := h.readAfterDone_whole answer
  endsAfterStart := h.endsAfterStart answer

end Course

theorem inOrder_nil : link.InOrder command [] where
  confined := by simp
  loadAfterReady := onlyAfter_of_never never_nil
  requestAfterIdle _ := onlyAfter_of_never never_nil
  startOnce := followedBy_of_never never_nil
  startAfterLoad := onlyAfter_of_never never_nil
  readAfterDone := onlyAfter_of_never never_nil
  endsAfterStart := followedBy_of_never never_nil

theorem runs_execute {maxResponse : Nat} {trace : Trace} {result : Except Failure Bytes}
    (hbase : link.base + 0x1000 ≤ UInt64.size)
    (h : (link.execute command maxResponse).Runs trace result) : link.InOrder command trace := by
  unfold execute at h
  split at h
  · obtain ⟨rfl, -⟩ := runs_throw_iff.mp (runs_note_bind_iff.mp h)
    exact inOrder_nil
  next hlength =>
    obtain ⟨front, back, left, rfl, hsession, hexit⟩ := runs_ensuring_iff.mp h
    obtain ⟨ready, load, run, rfl, hcourse⟩ :=
      runs_session (Nat.le_of_not_lt hlength) (Nat.min_le_right _ _) hsession
    obtain ⟨answer, rfl⟩ := runs_exit hexit
    rw [List.append_assoc, List.append_assoc]
    exact hcourse.inOrder hbase (Nat.le_of_not_lt hlength) answer

/-- On every device and from each of its states, a command keeps the order of the protocol. -/
theorem buffer_execute_inOrder {σ : Type} (device : Device σ) (state : σ) (link : CommandBuffer)
    (command : Bytes) (maxResponse : Nat) (hbase : link.base + 0x1000 ≤ UInt64.size) :
    link.InOrder command ((link.execute command maxResponse).trace device state) :=
  runs_execute hbase (runs_trace device _ state)

/-- A chip that is idle until ready is requested, and done as soon as it is started. -/
def promptChip (base : Nat) : Device Bool where
  read addr _ idle := (.ok (if addr = BufferRegister.status.addr base ∧ idle then 2 else 0), idle)
  write addr _ value idle :=
    (.ok (), if addr = BufferRegister.request.addr base then value == 2 else idle)
  stall _ idle := idle
  note _ idle := idle

/-- On the prompt chip a command of two bytes goes through all phases. -/
theorem buffer_execute_inOrder_promptChip :
    let link : CommandBuffer := ⟨0, .notSupported, Timeouts.commandBuffer⟩
    let trace := (link.execute [0x80, 0x01] 16).trace (promptChip 0) true
    link.base + 0x1000 ≤ UInt64.size ∧ link.InOrder [0x80, 0x01] trace ∧
      trace.writes = [(0x40, 1), (0x80, 0x80), (0x81, 0x01), (0x60, 0), (0x5C, 0x80), (0x58, 0xF80),
        (0x68, 0x80), (0x64, 0xF80), (0x4C, 1), (0x40, 2)] :=
  ⟨by decide, buffer_execute_inOrder (promptChip 0) true _ _ _ (by decide), by decide⟩

end CommandBuffer

end TpmLink

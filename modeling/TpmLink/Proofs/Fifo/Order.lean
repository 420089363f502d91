import TpmLink.Proofs.Fifo.Phases

/-!
# The order of a command on the byte FIFO

Whatever the bus answers, a command keeps the order of the protocol: what is sent is a beginning of
the command, sent only when ready has been seen; the command is started at most once and only when
it has been sent and taken whole; and the response is read only when it is available.
-/

namespace TpmLink

namespace Fifo

open Script Trace

/-- After the go bit was set, the status has been read as valid with data available. -/
def AvailableSeen (link : Fifo) (before : Trace) : Prop :=
  ∃ (front back : Trace) (answer : Except BusFault Unit),
    before = front ++ .write link.status .byte 0x20 answer :: back ∧ link.StatusSeen 0x90 0 back

/-- The order of the protocol. -/
structure InOrder (link : Fifo) (command : Bytes) (trace : Trace) : Prop where
  confined : ∀ event ∈ trace, event.Within
    (fun addr => link.IsSource addr ∨ addr = link.data)
    fun addr => addr = link.status ∨ addr = link.data
  sentInOrder : link.sent trace <+: wire command
  sendAfterReady : trace.OnlyAfter link.IsSend (link.StatusSeen 0x40 0)
  goOnce : trace.AtMostOnce link.IsGo
  goAfterSend : trace.OnlyAfter link.IsGo (link.WholeSent command)
  receiveAfterAvailable : trace.OnlyAfter link.IsReceive link.AvailableSeen

variable {link : Fifo} {command : Bytes} {ready load run front back : Trace}

theorem WholeSent.append_left (h : link.WholeSent command back) (hfront : front.Never link.IsSend) :
    link.WholeSent command (front ++ back) := by
  obtain ⟨first, polls, rfl, hsent, hseen⟩ := h
  refine ⟨front ++ first, polls, by simp, ?_, hseen⟩
  rw [List.filter_append, filter_eq_nil hfront, List.nil_append, hsent]

theorem AvailableSeen.append_left (h : link.AvailableSeen back) :
    link.AvailableSeen (front ++ back) := by
  obtain ⟨first, last, answer, rfl, hseen⟩ := h
  exact ⟨front ++ first, last, answer, by simp, hseen⟩

theorem AvailableSeen.append_right (h : link.AvailableSeen front) :
    link.AvailableSeen (front ++ back) := by
  obtain ⟨first, last, answer, rfl, hseen⟩ := h
  exact ⟨first, last ++ back, answer, by simp, hseen.append_right⟩

/-! ### Course -/

/-- The write that starts a command. -/
def startWrite (link : Fifo) (answer : Except BusFault Unit) : Event :=
  .write link.status .byte 0x20 answer

/-- The write that returns the chip to ready. -/
def exitWrite (link : Fifo) (answer : Except BusFault Unit) : Event :=
  .write link.status .byte 0x40 answer

/-- What a started command does up to the exit: it waits, receives, and writes the status register
without the go bit at most. -/
structure Tail (link : Fifo) (middle : Trace) : Prop where
  goes : middle.Never link.IsGo
  confined : ∀ event ∈ middle, event.Within (fun addr => link.IsSource addr ∨ addr = link.data)
    fun addr => addr = link.status

/-- How a session goes up to its exit: a later phase is empty where an earlier one failed. -/
structure Course (link : Fifo) (command : Bytes) (ready load run : Trace) : Prop where
  readies : link.Readying ready
  readySeen : load ≠ [] → link.StatusSeen 0x40 0 ready
  loads : ∀ event ∈ load, event.Within link.IsSource fun addr => addr = link.data
  sent : link.sent load <+: wire command
  loaded : run ≠ [] → link.WholeSent command load
  starts : run ≠ [] → ∃ answer middle, run = link.startWrite answer :: middle ∧ link.Tail middle
  receiveAfterAvailable : run.OnlyAfter link.IsReceive link.AvailableSeen

theorem Finishing.tail {trace : Trace} {result : Except Failure Unit}
    (h : link.Finishing trace result) : link.Tail trace where
  goes := h.goes
  confined event hmem := (h.confined event hmem).mono (fun _ => .inl) fun _ => id

theorem Tail.append_reads (h : link.Tail front)
    (hback : ∀ event ∈ back,
      event.Within (fun addr => link.IsSource addr ∨ addr = link.data) fun _ => False) :
    link.Tail (front ++ back) where
  goes := never_append.mpr ⟨h.goes, never_isGo hback id⟩
  confined := by
    have hreads : ∀ event ∈ back, event.Within (fun addr => link.IsSource addr ∨ addr = link.data)
        fun addr => addr = link.status :=
      fun event hmem => (hback event hmem).mono (fun _ => id) fun _ => False.elim
    exact List.forall_mem_append.mpr ⟨h.confined, hreads⟩

/-- Before the response is available nothing is received. -/
theorem Finishing.never_isReceive {trace : Trace} {result : Except Failure Unit}
    (h : link.Finishing trace result) (answer : Except BusFault Unit) :
    Trace.Never link.IsReceive (link.startWrite answer :: trace) := by
  have hpolls : trace.Never link.IsReceive :=
    never_readsFrom h.confined fun _ => IsSource.ne_data
  exact never_cons.mpr ⟨id, hpolls⟩

theorem Finishing.availableSeen {trace : Trace} (h : link.Finishing trace (.ok ()))
    (answer : Except BusFault Unit) : link.AvailableSeen (link.startWrite answer :: trace) :=
  ⟨[], trace, answer, rfl, h.available rfl⟩

/-- From the start on, the response is read only when it is available. -/
theorem runs_execution {capacity : Nat} {result : Except Failure Bytes}
    (h : (link.start >>= fun _ => link.receive capacity).Runs run result) :
    (∃ answer middle, run = link.startWrite answer :: middle ∧ link.Tail middle) ∧
      run.OnlyAfter link.IsReceive link.AvailableSeen := by
  rcases runs_bind_iff.mp h with ⟨failure, rfl, hstart⟩ | ⟨front, response, ⟨⟩, rfl, hstart,
    hresponse⟩
  · obtain ⟨answer, middle, rfl, hmiddle⟩ := runs_start hstart
    have hnever := hmiddle.never_isReceive answer
    exact ⟨⟨answer, middle, rfl, hmiddle.tail⟩, onlyAfter_of_never hnever⟩
  · obtain ⟨answer, polls, rfl, hpolls⟩ := runs_start hstart
    have hreads := only_receive _ _ hresponse
    have hfront : OnlyAfter link.IsReceive link.AvailableSeen (link.startWrite answer :: polls) :=
      onlyAfter_of_never (hpolls.never_isReceive answer)
    have hback : OnlyAfter link.IsReceive
        (fun before => link.AvailableSeen (link.startWrite answer :: polls ++ before)) response :=
      onlyAfter_of_prefix fun _ _ => (hpolls.availableSeen answer).append_right
    exact ⟨⟨answer, polls ++ response, rfl, hpolls.tail.append_reads hreads⟩,
      onlyAfter_append hfront hback⟩

theorem runs_session {capacity : Nat} {trace : Trace} {result : Except Failure Bytes}
    (h : (link.session command capacity).Runs trace result) :
    ∃ ready load run, trace = ready ++ (load ++ run) ∧ link.Course command ready load run := by
  rcases runs_bind_iff.mp h with ⟨failure, rfl, hready⟩ | ⟨ready, rest, ⟨⟩, rfl, hready, hrest⟩
  · exact ⟨trace, [], [], by simp, (runs_prepare hready).1, by simp, by simp, List.nil_prefix,
      by simp, by simp, onlyAfter_of_never never_nil⟩
  obtain ⟨hreadies, hseen⟩ := runs_prepare hready
  have hloading := runs_note_bind_iff.mp hrest
  rcases runs_bind_iff.mp hloading with ⟨failure, rfl, hload⟩ | ⟨load, run, ⟨⟩, rfl, hload, hrun⟩
  · exact ⟨ready, rest, [], by simp, hreadies, fun _ => hseen rfl, only_send _ _ hload,
      runs_send_sent hload, by simp, by simp, onlyAfter_of_never never_nil⟩
  · obtain ⟨hstarts, hreceives⟩ := runs_execution hrun
    exact ⟨ready, load, run, rfl, hreadies, fun _ => hseen rfl, only_send _ _ hload,
      runs_send_sent hload, fun _ => runs_send_ok hload, fun _ => hstarts, hreceives⟩

/-! ### Order -/

theorem never_isGo_exitWrite (answer : Except BusFault Unit) :
    Trace.Never link.IsGo [link.exitWrite answer] :=
  never_cons.mpr ⟨fun hgo => hgo.2 (by decide), never_nil⟩

theorem never_isSend_exitWrite (answer : Except BusFault Unit) :
    Trace.Never link.IsSend [link.exitWrite answer] :=
  never_cons.mpr ⟨IsSource.ne_data (.inl rfl), never_nil⟩

namespace Course

theorem confined_run (h : link.Course command ready load run) :
    ∀ event ∈ run, event.Within (fun addr => link.IsSource addr ∨ addr = link.data)
      fun addr => addr = link.status := by
  by_cases hrun : run = []
  · simp [hrun]
  · obtain ⟨answer, middle, rfl, hmiddle⟩ := h.starts hrun
    exact List.forall_mem_cons.mpr ⟨rfl, hmiddle.confined⟩

theorem never_isSend (h : link.Course command ready load run) :
    ready.Never link.IsSend ∧ run.Never link.IsSend := by
  have hstatus : ∀ addr, addr = link.status → addr ≠ link.data :=
    fun addr haddr => IsSource.ne_data (.inl haddr)
  exact ⟨never_writesTo h.readies.confined hstatus, never_writesTo h.confined_run hstatus⟩

theorem never_isGo_load (h : link.Course command ready load run) : load.Never link.IsGo :=
  never_isGo h.loads (IsSource.ne_data (.inl rfl))

theorem never_isReceive (h : link.Course command ready load run) :
    ready.Never link.IsReceive ∧ load.Never link.IsReceive :=
  ⟨never_readsFrom h.readies.confined fun _ => IsSource.ne_data,
    never_readsFrom h.loads fun _ => IsSource.ne_data⟩

/-- The trace of a session with its exit. -/
def whole (link : Fifo) (ready load run : Trace) (answer : Except BusFault Unit) : Trace :=
  ready ++ (load ++ (run ++ [link.exitWrite answer]))

/-- The start, if there is one, is the first access of the run. -/
theorem starts_or_exits (h : link.Course command ready load run) (answer : Except BusFault Unit) :
    Trace.Never link.IsGo (run ++ [link.exitWrite answer]) ∨
      ∃ answer' after, run ++ [link.exitWrite answer] = link.startWrite answer' :: after ∧
        link.WholeSent command load ∧ Trace.Never link.IsGo after := by
  by_cases hrun : run = []
  · rw [hrun]
    exact .inl (never_isGo_exitWrite answer)
  · obtain ⟨answer', middle, rfl, hmiddle⟩ := h.starts hrun
    have hafter := never_append.mpr ⟨hmiddle.goes, never_isGo_exitWrite answer⟩
    exact .inr ⟨answer', middle ++ [link.exitWrite answer], rfl, h.loaded hrun, hafter⟩

theorem confined (h : link.Course command ready load run) (answer : Except BusFault Unit) :
    ∀ event ∈ whole link ready load run answer, event.Within
      (fun addr => link.IsSource addr ∨ addr = link.data)
      fun addr => addr = link.status ∨ addr = link.data := by
  have hready : ∀ event ∈ ready, event.Within (fun addr => link.IsSource addr ∨ addr = link.data)
      fun addr => addr = link.status ∨ addr = link.data :=
    fun event hmem => (h.readies.confined event hmem).mono (fun _ => .inl) fun _ => .inl
  have hload : ∀ event ∈ load, event.Within (fun addr => link.IsSource addr ∨ addr = link.data)
      fun addr => addr = link.status ∨ addr = link.data :=
    fun event hmem => (h.loads event hmem).mono (fun _ => .inl) fun _ => .inr
  have hrun : ∀ event ∈ run, event.Within (fun addr => link.IsSource addr ∨ addr = link.data)
      fun addr => addr = link.status ∨ addr = link.data :=
    fun event hmem => (h.confined_run event hmem).mono (fun _ => id) fun _ => .inl
  have hexit : ∀ event ∈ [link.exitWrite answer],
      event.Within (fun addr => link.IsSource addr ∨ addr = link.data)
        fun addr => addr = link.status ∨ addr = link.data :=
    List.forall_mem_singleton.mpr (.inl rfl)
  exact List.forall_mem_append.mpr ⟨hready, List.forall_mem_append.mpr
    ⟨hload, List.forall_mem_append.mpr ⟨hrun, hexit⟩⟩⟩

theorem sent_whole (h : link.Course command ready load run) (answer : Except BusFault Unit) :
    link.sent (whole link ready load run answer) = link.sent load := by
  rw [whole, sent_append, sent_append, sent_append, sent_eq_nil h.never_isSend.1,
    sent_eq_nil h.never_isSend.2, sent_eq_nil (never_isSend_exitWrite answer), List.nil_append,
    List.append_nil, List.append_nil]

theorem sendAfterReady (h : link.Course command ready load run) (answer : Except BusFault Unit) :
    OnlyAfter link.IsSend (link.StatusSeen 0x40 0) (whole link ready load run answer) := by
  have hload : OnlyAfter link.IsSend (fun before => link.StatusSeen 0x40 0 (ready ++ before))
      load := by
    rintro before event after rfl -
    exact (h.readySeen (by simp)).append_right
  have hrest := never_append.mpr ⟨h.never_isSend.2, never_isSend_exitWrite answer⟩
  exact onlyAfter_append (onlyAfter_of_never h.never_isSend.1)
    (onlyAfter_append hload (onlyAfter_of_never hrest))

theorem goOnce (h : link.Course command ready load run) (answer : Except BusFault Unit) :
    AtMostOnce link.IsGo (whole link ready load run answer) := by
  have hrest : AtMostOnce link.IsGo (run ++ [link.exitWrite answer]) := by
    rcases h.starts_or_exits answer with hnever | ⟨answer', after, heq, -, hafter⟩
    · exact followedBy_of_never hnever
    · rw [heq]
      exact followedBy_cons_of_never hafter hafter
  exact followedBy_append_of_never h.readies.goes
    (followedBy_append_of_never h.never_isGo_load hrest)

theorem goAfterSend (h : link.Course command ready load run) (answer : Except BusFault Unit) :
    OnlyAfter link.IsGo (link.WholeSent command) (whole link ready load run answer) := by
  have hrest : OnlyAfter link.IsGo
      (fun before => link.WholeSent command (ready ++ (load ++ before)))
      (run ++ [link.exitWrite answer]) := by
    rcases h.starts_or_exits answer with hnever | ⟨answer', after, heq, hsent, hafter⟩
    · exact onlyAfter_of_never hnever
    · rw [heq]
      refine onlyAfter_cons (fun _ => ?_) (onlyAfter_of_never hafter)
      rw [List.append_nil]
      exact hsent.append_left h.never_isSend.1
  exact onlyAfter_append (onlyAfter_of_never h.readies.goes)
    (onlyAfter_append (onlyAfter_of_never h.never_isGo_load) hrest)

theorem receiveAfterAvailable_whole (h : link.Course command ready load run)
    (answer : Except BusFault Unit) :
    OnlyAfter link.IsReceive link.AvailableSeen (whole link ready load run answer) := by
  have hrun : OnlyAfter link.IsReceive
      (fun before => link.AvailableSeen (ready ++ (load ++ before))) run :=
    h.receiveAfterAvailable.mono fun _ hseen => hseen.append_left.append_left
  have hexit : Trace.Never link.IsReceive [link.exitWrite answer] :=
    never_cons.mpr ⟨id, never_nil⟩
  exact onlyAfter_append (onlyAfter_of_never h.never_isReceive.1)
    (onlyAfter_append (onlyAfter_of_never h.never_isReceive.2)
      (onlyAfter_append hrun (onlyAfter_of_never hexit)))

theorem inOrder (h : link.Course command ready load run) (answer : Except BusFault Unit) :
    link.InOrder command (whole link ready load run answer) where
  confined := h.confined answer
  sentInOrder := by
    rw [h.sent_whole]
    exact h.sent
  sendAfterReady := h.sendAfterReady answer
  goOnce := h.goOnce answer
  goAfterSend := h.goAfterSend answer
  receiveAfterAvailable := h.receiveAfterAvailable_whole answer

end Course

/-- On every device and from each of its states, a command keeps the order of the protocol. -/
theorem fifo_execute_inOrder {σ : Type} (device : Device σ) (state : σ) (link : Fifo)
    (command : Bytes) (maxResponse : Nat) :
    link.InOrder command ((link.execute command maxResponse).trace device state) := by
  have hruns := runs_trace device (link.execute command maxResponse) state
  obtain ⟨front, back, left, htrace, hsession, hexit⟩ := runs_ensuring_iff.mp hruns
  obtain ⟨ready, load, run, rfl, hcourse⟩ := runs_session hsession
  obtain ⟨answer, rfl⟩ := runs_exit hexit
  rw [htrace, List.append_assoc, List.append_assoc]
  exact hcourse.inOrder answer

end Fifo

end TpmLink

import TpmLink.Proofs.Bus.Order
import TpmLink.Proofs.Bus.Reach
import TpmLink.Transport.Fifo

/-!
# Phases of the byte FIFO

What the bus sees of each phase of a command: the registers it touches, what it has sent so far, and
which status it has read where it ends well.
-/

namespace TpmLink

namespace Fifo

open Script Trace

variable (link : Fifo)

/-! ### Kinds of events -/

/-- A write to the data register. -/
def IsSend : Event → Prop := Event.WritesTo fun addr => addr = link.data

instance : DecidablePred link.IsSend :=
  inferInstanceAs (DecidablePred (Event.WritesTo fun addr => addr = link.data))

/-- A read from the data register. -/
def IsReceive : Event → Prop := Event.ReadsFrom fun addr => addr = link.data

instance : DecidablePred link.IsReceive :=
  inferInstanceAs (DecidablePred (Event.ReadsFrom fun addr => addr = link.data))

/-- A write to the status register that sets the go bit. -/
def IsGo : Event → Prop
  | .write addr _ value _ => addr = link.status ∧ value &&& 0x20 ≠ 0
  | _ => False

/-- The registers that are read while the chip is waited for. -/
def IsSource (addr : Nat) : Prop :=
  addr = link.status ∨ addr = FifoRegister.burstCount.addr link.base ∨
    addr = FifoRegister.burstCount.addr link.base + 1

/-- Waiting for the chip. -/
def IsWait : Event → Prop := Event.Within link.IsSource fun _ => False

/-- What the data register is given by a write. -/
def sent? : Event → Option (Width × UInt64)
  | .write addr width value _ => if addr = link.data then some (width, value) else none
  | _ => none

/-- What the data register is given, in order, whether the write succeeds or not. -/
def sent (trace : Trace) : List (Width × UInt64) := trace.filterMap link.sent?

/-- Bytes as the data register is given them. -/
def wire (bytes : Bytes) : List (Width × UInt64) := bytes.map fun byte => (.byte, byte.toUInt64)

/-- The writes of bytes to the data register, each of which succeeds. -/
def sending (bytes : Bytes) : Trace :=
  bytes.map fun byte => .write link.data .byte byte.toUInt64 (.ok ())

/-- The status register has been read with the bits of `set` one and those of `clear` zero. -/
def StatusSeen (set clear : UInt8) (before : Trace) : Prop :=
  ∃ (front later : Trace) (status : UInt64),
    before = front ++ .read link.status .byte (.ok status) :: later ∧
    status.toUInt8 &&& set = set ∧ status.toUInt8 &&& clear = 0

/-- The whole command has been sent, each byte once and in order, and after that the status has
been read as valid with no more bytes expected. -/
def WholeSent (command : Bytes) (before : Trace) : Prop :=
  ∃ (front polls : Trace), before = front ++ polls ∧
    front.filter link.IsSend = link.sending command ∧ link.StatusSeen 0x80 0x08 polls

variable {link} {set clear : UInt8} {trace front back : Trace} {result : Except Failure Unit}

theorem IsSource.ne_data {addr : Nat} (h : link.IsSource addr) : addr ≠ link.data := by
  have hstatus : link.status = link.base + 0x18 := rfl
  have hburst : FifoRegister.burstCount.addr link.base = link.base + 0x19 := rfl
  have hdata : link.data = link.base + 0x24 := rfl
  rcases h with rfl | rfl | rfl
  · omega
  · omega
  · omega

@[simp] theorem sent_append : link.sent (front ++ back) = link.sent front ++ link.sent back :=
  List.filterMap_append

@[simp] theorem sent_write (width : Width) (value : UInt64) (answer : Except BusFault Unit) :
    link.sent (.write link.data width value answer :: trace) =
      (width, value) :: link.sent trace := by
  simp [sent, sent?]

/-- What never writes to the data register sends nothing. -/
theorem sent_eq_nil (h : trace.Never link.IsSend) : link.sent trace = [] := by
  refine List.filterMap_eq_nil_iff.mpr fun event hmem => ?_
  have hevent := h event hmem
  cases event with
  | write addr width value answer => exact if_neg hevent
  | _ => rfl

theorem filter_eq_nil (h : trace.Never link.IsSend) : trace.filter link.IsSend = [] :=
  List.filter_eq_nil_iff.mpr fun event hmem => by simpa using h event hmem

theorem filter_send (width : Width) (value : UInt64) (answer : Except BusFault Unit) :
    [Event.write link.data width value answer].filter link.IsSend =
      [.write link.data width value answer] :=
  List.filter_eq_self.mpr (List.forall_mem_singleton.mpr (decide_eq_true rfl))

theorem never_isSend_of_wait (h : ∀ event ∈ trace, link.IsWait event) : trace.Never link.IsSend :=
  never_writesTo h fun _ => False.elim

/-- The go bit is in the status register. -/
theorem IsGo.writesTo {event : Event} (h : link.IsGo event) :
    event.WritesTo fun addr => addr = link.status := by
  cases event with
  | write => exact h.1
  | _ => exact h

theorem never_isGo {readable writable : Nat → Prop}
    (h : ∀ event ∈ trace, event.Within readable writable) (hwrites : ¬ writable link.status) :
    trace.Never link.IsGo := by
  refine (never_writesTo h ?_).mono fun _ => IsGo.writesTo
  rintro _ hwrite rfl
  exact hwrites hwrite

theorem StatusSeen.append_left (h : link.StatusSeen set clear back) :
    link.StatusSeen set clear (front ++ back) := by
  obtain ⟨first, later, status, rfl, hstatus⟩ := h
  exact ⟨front ++ first, later, status, by simp, hstatus⟩

theorem StatusSeen.cons {event : Event} (h : link.StatusSeen set clear back) :
    link.StatusSeen set clear (event :: back) := by
  obtain ⟨first, later, status, rfl, hstatus⟩ := h
  exact ⟨event :: first, later, status, rfl, hstatus⟩

theorem StatusSeen.append_right (h : link.StatusSeen set clear front) :
    link.StatusSeen set clear (front ++ back) := by
  obtain ⟨first, later, status, rfl, hstatus⟩ := h
  exact ⟨first, later ++ back, status, by simp, hstatus⟩

/-! ### Status -/

theorem only_waitStatus {timeout : Nat} : (link.waitStatus set clear timeout).Only link.IsWait :=
  only_waitBits _ (only_bind (only_checked_read fun _ => .inl rfl) fun _ => only_pure _) trivial _ _
    timeout

/-- A wait that succeeds has read the bits it waited for. -/
theorem runs_waitStatus_ok {timeout : Nat}
    (h : (link.waitStatus set clear timeout).Runs trace (.ok ())) :
    link.StatusSeen set clear trace := by
  obtain ⟨front, last, value, rfl, hlast, hset, hclear⟩ := runs_waitBits_ok h
  obtain ⟨first, rest, byte, rfl, hfirst, hrest⟩ := runs_bind_ok_iff.mp hlast
  obtain ⟨rfl, hvalue⟩ := runs_pure_iff.mp hrest
  cases hvalue
  obtain ⟨answer, rfl, hanswer⟩ := runs_checked_read_iff.mp hfirst
  cases answer with
  | error fault => cases hanswer
  | ok status =>
    cases hanswer
    refine ⟨front, [], status, by simp, ?_, ?_⟩
    · rw [← UInt8.toUInt32_and] at hset
      exact UInt8.toUInt32_inj.mp hset
    · rw [← UInt8.toUInt32_and] at hclear
      exact UInt8.toUInt32_inj.mp hclear

/-! ### Ready -/

/-- What asking for the ready state keeps to: the status is polled, and written without the go
bit. -/
structure Readying (link : Fifo) (trace : Trace) : Prop where
  goes : trace.Never link.IsGo
  confined : ∀ event ∈ trace, event.Within link.IsSource fun addr => addr = link.status

theorem readying_request (answer : Except BusFault Unit) {polls : Trace}
    (hpolls : ∀ event ∈ polls, link.IsWait event) :
    link.Readying (.write link.status .byte 0x40 answer :: polls) where
  goes := never_cons.mpr ⟨fun hgo => hgo.2 (by decide), never_isGo hpolls id⟩
  confined := by
    have hrest : ∀ event ∈ polls, event.Within link.IsSource fun addr => addr = link.status :=
      fun event hmem => (hpolls event hmem).mono (fun _ => id) fun _ => False.elim
    exact List.forall_mem_cons.mpr ⟨rfl, hrest⟩

/-- Where it succeeds, ready has been seen. -/
theorem runs_prepare (h : link.prepare.Runs trace result) :
    link.Readying trace ∧ (result = .ok () → link.StatusSeen 0x40 0 trace) := by
  obtain ⟨answer, polls, rfl, ⟨rfl, failure, rfl⟩ | ⟨rfl, hpolls⟩⟩ := runs_checked_write_bind h
  · exact ⟨readying_request answer (by simp), fun hresult => by cases hresult⟩
  · obtain ⟨found, hfound, hok⟩ := runs_onTimeout_throw hpolls
    refine ⟨readying_request (.ok ()) (only_waitStatus _ _ hfound), fun hresult => ?_⟩
    rw [hok _ hresult] at hfound
    exact (runs_waitStatus_ok hfound).cons

/-! ### Bursts -/

theorem only_refill {budget : Nat} : (link.refill budget).Only link.IsWait := by
  unfold refill
  split
  · refine only_onTimeout (only_await _ ?_ trivial _) (only_bind (only_note _) fun _ =>
      only_throw _)
    have hburst : link.readBurst.Only link.IsWait :=
      only_bind (only_checked_read fun _ => .inr (.inl rfl)) fun _ =>
        only_bind (only_checked_read fun _ => .inr (.inr rfl)) fun _ => only_pure _
    exact only_bind hburst fun _ => only_bind (only_note _) fun _ => only_pure _
  · exact only_pure _

theorem only_sendBytes {bytes : Bytes} {budget : Nat} :
    (link.sendBytes bytes budget).Only
      (Event.Within link.IsSource fun addr => addr = link.data) := by
  induction bytes generalizing budget with
  | nil => exact only_pure _
  | cons byte rest ih =>
    refine only_bind (only_refill.mono fun event hwait => ?_) fun left => ?_
    · exact hwait.mono (fun _ => id) fun _ => False.elim
    · exact only_bind (only_checked_write fun _ => rfl) fun _ => ih

/-- Whatever the burst counts are and wherever it stops, what has been sent is a beginning of the
bytes. -/
theorem runs_sendBytes_sent {bytes : Bytes} {budget : Nat}
    (h : (link.sendBytes bytes budget).Runs trace result) : link.sent trace <+: wire bytes := by
  induction bytes generalizing budget trace with
  | nil =>
    obtain ⟨rfl, -⟩ := runs_pure_iff.mp h
    exact List.nil_prefix
  | cons byte rest ih =>
    -- Whether the budget is refilled or not, the next write is that of the next byte.
    rcases runs_bind_iff.mp h with ⟨failure, rfl, hwait⟩ | ⟨wait, back, left, rfl, hwait, hback⟩
    · rw [sent_eq_nil (never_isSend_of_wait (only_refill _ _ hwait))]
      exact List.nil_prefix
    rw [sent_append, sent_eq_nil (never_isSend_of_wait (only_refill _ _ hwait)), List.nil_append]
    obtain ⟨answer, later, rfl, ⟨rfl, -⟩ | ⟨rfl, hlater⟩⟩ := runs_checked_write_bind hback
    · rw [sent_write]
      exact List.prefix_append [_] _
    · rw [sent_write]
      exact (List.prefix_cons_inj _).mpr (ih hlater)

/-- Where it succeeds, every byte has been sent once and in order. -/
theorem runs_sendBytes_ok {bytes : Bytes} {budget : Nat}
    (h : (link.sendBytes bytes budget).Runs trace (.ok ())) :
    trace.filter link.IsSend = link.sending bytes := by
  induction bytes generalizing budget trace with
  | nil =>
    obtain ⟨rfl, -⟩ := runs_pure_iff.mp h
    rfl
  | cons byte rest ih =>
    obtain ⟨wait, back, left, rfl, hwait, hback⟩ := runs_bind_ok_iff.mp h
    obtain ⟨front, later, ⟨⟩, rfl, hsend, hlater⟩ := runs_bind_ok_iff.mp hback
    obtain ⟨answer, rfl, hanswer⟩ := runs_checked_write_iff.mp hsend
    have hnone := filter_eq_nil (never_isSend_of_wait (only_refill _ _ hwait))
    rw [List.filter_append, hnone, List.nil_append, eq_ok_of_checkedResult hanswer,
      List.filter_append, filter_send, ih hlater]
    rfl

theorem only_send {command : Bytes} :
    (link.send command).Only (Event.Within link.IsSource fun addr => addr = link.data) := by
  refine only_bind only_sendBytes fun _ => only_onTimeout ?_ ?_
  · exact only_waitStatus.mono fun event hwait => hwait.mono (fun _ => id) fun _ => False.elim
  · exact only_bind (only_note _) fun _ => only_throw _

theorem runs_send_sent {command : Bytes} (h : (link.send command).Runs trace result) :
    link.sent trace <+: wire command := by
  rcases runs_bind_iff.mp h with ⟨failure, rfl, hsend⟩ | ⟨front, polls, ⟨⟩, rfl, hsend, hpolls⟩
  · exact runs_sendBytes_sent hsend
  · obtain ⟨found, hfound, -⟩ := runs_onTimeout_throw hpolls
    have hwait := only_waitStatus _ _ hfound
    rw [sent_append, sent_eq_nil (never_isSend_of_wait hwait), List.append_nil]
    exact runs_sendBytes_sent hsend

/-- A command that is sent with success is seen to be taken whole. -/
theorem runs_send_ok {command : Bytes} (h : (link.send command).Runs trace (.ok ())) :
    link.WholeSent command trace := by
  obtain ⟨front, polls, ⟨⟩, rfl, hfront, hpolls⟩ := runs_bind_ok_iff.mp h
  obtain ⟨found, hfound, hok⟩ := runs_onTimeout_throw hpolls
  rw [hok _ rfl] at hfound
  exact ⟨front, polls, rfl, runs_sendBytes_ok hfront, runs_waitStatus_ok hfound⟩

/-! ### Run -/

/-- What a command that has been started amounts to: the status is polled, and written without the
go bit at most. -/
structure Finishing (link : Fifo) (trace : Trace) (result : Except Failure Unit) : Prop where
  confined : ∀ event ∈ trace, event.Within link.IsSource fun addr => addr = link.status
  goes : trace.Never link.IsGo
  available : result = .ok () → link.StatusSeen 0x90 0 trace

theorem finishing_awaitResponse {timeout : Nat}
    (h : (link.awaitResponse timeout).Runs trace result) : link.Finishing trace result where
  confined event hmem :=
    (only_waitStatus _ _ h event hmem).mono (fun _ => id) fun _ => False.elim
  goes := never_isGo (only_waitStatus _ _ h) id
  available := by
    rintro rfl
    exact runs_waitStatus_ok h

theorem Finishing.append (hfront : link.Finishing front (.error .timeout))
    (hback : link.Finishing back result) : link.Finishing (front ++ back) result where
  confined := List.forall_mem_append.mpr ⟨hfront.confined, hback.confined⟩
  goes := never_append.mpr ⟨hfront.goes, hback.goes⟩
  available hresult := (hback.available hresult).append_left

theorem finishing_nil {failure : Failure} : link.Finishing [] (.error failure) where
  confined := by simp
  goes := never_nil
  available := by rintro ⟨⟩

theorem Finishing.of_failure {found : Except Failure Unit} (h : link.Finishing trace found)
    (hok : ∀ value, result = .ok value → found = .ok value) : link.Finishing trace result where
  confined := h.confined
  goes := h.goes
  available hresult := h.available (hok _ hresult)

/-- The cancel bit lies above the go bit. -/
theorem Finishing.behind_cancel (answer : Except BusFault Unit) (h : link.Finishing trace result) :
    link.Finishing
      (.write link.status .dword Register.Status.commandCancel.toUInt64 answer :: trace)
      result where
  confined := List.forall_mem_cons.mpr ⟨rfl, h.confined⟩
  goes := never_cons.mpr ⟨fun hgo => hgo.2 (by decide), h.goes⟩
  available hresult := (h.available hresult).cons

theorem finishing_cancel (h : link.cancel.Runs trace result) : link.Finishing trace result := by
  have hwritten := runs_note_bind_iff.mp h
  obtain ⟨answer, polls, rfl, ⟨rfl, failure, rfl⟩ | ⟨rfl, hpolls⟩⟩ :=
    runs_checked_write_bind hwritten
  · exact finishing_nil.behind_cancel answer
  · obtain ⟨found, hfound, hok⟩ := runs_onTimeout_throw hpolls
    exact ((finishing_awaitResponse hfound).of_failure hok).behind_cancel (.ok ())

/-- Running sets the go bit once and then finishes, by itself or by the cancel. -/
theorem runs_start (h : link.start.Runs trace result) :
    ∃ answer rest, trace = .write link.status .byte 0x20 answer :: rest ∧
      link.Finishing rest result := by
  obtain ⟨answer, rest, rfl, ⟨rfl, failure, rfl⟩ | ⟨rfl, hrest⟩⟩ := runs_checked_write_bind h
  · exact ⟨answer, [], rfl, finishing_nil⟩
  · refine ⟨.ok (), rest, rfl, ?_⟩
    rcases runs_onTimeout_iff.mp hrest with ⟨-, hdone⟩ | ⟨polls, back, rfl, hpolls, hback⟩
    · exact finishing_awaitResponse hdone
    · exact (finishing_awaitResponse hpolls).append (finishing_cancel hback)

/-! ### Response -/

theorem only_receiveBytes {count budget : Nat} {soFar : Bytes} :
    (link.receiveBytes count budget soFar).Only
      (Event.Within (fun addr => link.IsSource addr ∨ addr = link.data) fun _ => False) := by
  induction count generalizing budget soFar with
  | zero => exact only_pure _
  | succ count ih =>
    refine only_bind (only_refill.mono fun event hwait => ?_) fun left => ?_
    · exact hwait.mono (fun _ => .inl) fun _ => id
    · exact only_bind (only_checked_read fun _ => .inr rfl) fun _ => ih

theorem only_receive {capacity : Nat} :
    (link.receive capacity).Only
      (Event.Within (fun addr => link.IsSource addr ∨ addr = link.data) fun _ => False) := by
  refine only_bind only_receiveBytes fun found => only_bind only_acceptResponse fun size => ?_
  split
  · exact only_pure _
  · exact only_bind only_receiveBytes fun _ => only_pure _

theorem runs_exit (h : link.exit.Runs trace result) :
    ∃ answer, trace = [.write link.status .byte 0x40 answer] := by
  refine runs_write_bind (fun answer => ?_) h
  cases answer with
  | ok value => exact only_pure _
  | error fault => exact only_note _

end Fifo

end TpmLink

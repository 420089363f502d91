import TpmLink.Proofs.Bus.Lapses
import TpmLink.Proofs.CommandBuffer.Outcome

/-!
# How a command on the command buffer is cancelled

The cancel bit is set at most once, and only when the start bit has been polled in vain for the
whole budget of the command. Once set it is cleared again before the chip is sent to idle, whatever
the wait in between came to, and the response is read only if that wait was met.
-/

namespace TpmLink

namespace CommandBuffer

open Script Trace

variable (link : CommandBuffer)

/-- A write to the cancel register. -/
def IsCancelWrite : Event → Prop :=
  Event.WritesTo fun addr => addr = BufferRegister.cancel.addr link.base

/-- A write that sets something in the cancel register. -/
def IsCancel : Event → Prop
  | .write addr _ value _ => addr = BufferRegister.cancel.addr link.base ∧ value ≠ 0
  | _ => False

/-- The chip was started, and the start bit has been polled in vain for the whole budget. -/
def StartedInVain (before : Trace) : Prop :=
  ∃ front polls : Trace, before = front ++ link.startWrite (.ok ()) :: polls ∧
    polls.Vain (BufferRegister.start.addr link.base) .dword (fun raw => raw.toUInt32 &&& 1 = 0)
      link.timeouts.max

/-- The cancel bit is cleared, and nothing else is written before the chip is sent to idle. -/
def ClearsCancel (after : Trace) : Prop :=
  ∃ polls cleared rest exited,
    after = polls ++ link.cancelWrite 0 cleared :: (rest ++ [link.exitWrite exited]) ∧
      ∀ event ∈ polls ++ rest, event.Within (fun _ => True) fun _ => False

/-- The cancel bit was set, the start bit has been read clear, and the cancel bit was cleared. -/
def Acknowledged (cancel : Event) (between : Trace) : Prop :=
  cancel = link.cancelWrite 1 (.ok ()) ∧ ∃ (polls later : Trace) (status : UInt64),
    between = polls ++ .read (BufferRegister.start.addr link.base) .dword (.ok status) ::
        link.cancelWrite 0 (.ok ()) :: later ∧
      status.toUInt32 &&& 1 = 0

/-- How the cancel register is used. -/
structure CancelDiscipline (trace : Trace) : Prop where
  once : trace.AtMostOnce link.IsCancel
  form : ∀ event ∈ trace, link.IsCancel event → ∃ answer, event = link.cancelWrite 1 answer
  waits : trace.OnlyAfter link.IsCancel link.StartedInVain
  clears : trace.FollowedBy (· = link.cancelWrite 1 (.ok ())) link.ClearsCancel
  reads : trace.Between link.IsCancel link.IsDataRead link.Acknowledged

/-- The way a cancel goes. -/
inductive Cancelled (link : CommandBuffer) : Trace → Except Failure Unit → Prop
  | refused (fault : BusFault) : Cancelled link [link.cancelWrite 1 (.error fault)] (.error .io)
  | made {polls : Trace} {result : Except Failure Unit} (answer : Except BusFault Unit)
      (waits : ∀ event ∈ polls,
        event.Within (fun addr => addr = BufferRegister.start.addr link.base) fun _ => False)
      (acknowledges : result = .ok () → answer = .ok () ∧ ∃ (front : Trace) (status : UInt64),
        polls = front ++ [.read (BufferRegister.start.addr link.base) .dword (.ok status)] ∧
          status.toUInt32 &&& 1 = 0) :
      Cancelled link (link.cancelWrite 1 (.ok ()) :: (polls ++ [link.cancelWrite 0 answer])) result

/-- A run with a cancel in it. -/
structure Interrupted (before : Trace) (cancel : Event) (after : Trace) : Prop where
  waits : link.StartedInVain before
  never_before : before.Never link.IsCancelWrite
  form : ∃ answer, cancel = link.cancelWrite 1 answer
  never_after : after.Never link.IsCancel
  clears : cancel = link.cancelWrite 1 (.ok ()) → link.ClearsCancel after
  reads : after.OnlyAfter link.IsDataRead (link.Acknowledged cancel)

variable {link} {command : Bytes} {trace : Trace} {event : Event}

/-! ### Writes to the cancel register -/

theorem IsCancel.isCancelWrite (h : link.IsCancel event) : link.IsCancelWrite event := by
  cases event with
  | write => exact h.1
  | _ => exact h

theorem isCancel_cancelWrite (answer : Except BusFault Unit) :
    link.IsCancel (link.cancelWrite 1 answer) :=
  ⟨rfl, by decide⟩

theorem never_isCancelWrite {readable writable : Nat → Prop}
    (h : ∀ event ∈ trace, event.Within readable writable)
    (hwrites : ¬ writable (BufferRegister.cancel.addr link.base)) :
    trace.Never link.IsCancelWrite :=
  never_writesTo h fun _ haddr heq => hwrites (heq ▸ haddr)

theorem not_isCancelWrite_exitWrite (answer : Except BusFault Unit) :
    ¬ link.IsCancelWrite (link.exitWrite answer) :=
  mt addr_inj.mp (by decide)

/-- Where the cancel register is not touched, there is nothing to keep to. -/
theorem cancelDiscipline_of_never (h : trace.Never link.IsCancelWrite) :
    link.CancelDiscipline trace := by
  have hnever : trace.Never link.IsCancel := h.mono fun _ => IsCancel.isCancelWrite
  have hset : trace.Never (· = link.cancelWrite 1 (.ok ())) := by
    rintro _ hmem rfl
    exact hnever _ hmem (isCancel_cancelWrite _)
  exact ⟨followedBy_of_never hnever, fun event hmem hcancel => absurd hcancel (hnever event hmem),
    onlyAfter_of_never hnever, followedBy_of_never hset, between_of_never hnever⟩

theorem Interrupted.discipline {before after : Trace} {cancel : Event}
    (h : link.Interrupted before cancel after) :
    link.CancelDiscipline (before ++ cancel :: after) := by
  have hbefore : before.Never link.IsCancel :=
    h.never_before.mono fun _ => IsCancel.isCancelWrite
  have hset : ∀ {trace : Trace}, trace.Never link.IsCancel →
      trace.Never (· = link.cancelWrite 1 (.ok ())) := by
    rintro trace hnever _ hmem rfl
    exact hnever _ hmem (isCancel_cancelWrite _)
  refine ⟨atMostOnce_of_single hbefore h.never_after, fun event hmem hcancel => ?_,
    onlyAfter_of_single hbefore h.never_after h.waits, ?_,
    between_of_single hbefore h.never_after h.reads⟩
  · rcases List.mem_append.mp hmem with hmem | hmem
    · exact absurd hcancel (hbefore event hmem)
    rcases List.mem_cons.mp hmem with rfl | hmem
    · exact h.form
    · exact absurd hcancel (h.never_after event hmem)
  · by_cases hcancel : cancel = link.cancelWrite 1 (.ok ())
    · exact followedBy_of_single (hset hbefore) (hset h.never_after) (h.clears hcancel)
    · refine followedBy_of_never (never_append.mpr ⟨hset hbefore, never_cons.mpr ⟨hcancel, ?_⟩⟩)
      exact hset h.never_after

/-! ### Phases -/

theorem runs_cancel_cancelled {result : Except Failure Unit} (h : link.cancel.Runs trace result) :
    link.Cancelled trace result := by
  rcases runs_cancel_iff.mp h with ⟨fault, rfl, rfl⟩ | ⟨_, rfl, polls, acknowledged, hpolls,
    ⟨fault, rfl, rfl⟩ | ⟨rfl, rfl⟩⟩
  · exact .refused fault
  · exact .made (.error fault) (only_awaitDone _ _ hpolls) fun hresult => by cases hresult
  · refine .made (.ok ()) (only_awaitDone _ _ hpolls) fun hresult => ⟨rfl, ?_⟩
    have hacknowledged : acknowledged = .ok () := by
      rcases acknowledged with failure | ⟨⟩
      · cases failure <;> cases hresult
      · rfl
    rw [hacknowledged] at hpolls
    obtain ⟨front, status, rfl, -, hclear⟩ := runs_waitReg_ok hpolls
    exact ⟨front, status, rfl, hclear⟩

/-- A started command is waited for in vain before it is cancelled. -/
theorem runs_start_cancelled {result : Except Failure Unit} (h : link.start.Runs trace result) :
    (∃ answer polls, trace = link.startWrite answer :: polls ∧ ∀ event ∈ polls,
      event.Within (fun addr => addr = BufferRegister.start.addr link.base) fun _ => False) ∨
    ∃ polls back : Trace, trace = link.startWrite (.ok ()) :: (polls ++ back) ∧
      polls.Vain (BufferRegister.start.addr link.base) .dword (fun raw => raw.toUInt32 &&& 1 = 0)
        link.timeouts.max ∧ link.Cancelled back result := by
  rcases runs_checked_write_bind_iff.mp h with ⟨fault, rfl, -⟩ | ⟨rest, rfl, hrest⟩
  · exact .inl ⟨.error fault, [], rfl, by simp⟩
  rcases runs_onTimeout_iff.mp hrest with ⟨-, hwait⟩ | ⟨polls, back, rfl, hpolls, hback⟩
  · exact .inl ⟨.ok (), rest, rfl, only_awaitDone _ _ hwait⟩
  · have hvain := (runs_awaitDone_timeout_iff.mp hpolls).vain
    have hholds : ∀ value : UInt32, Poller.Holds 0 1 value ↔ value &&& 1 = 0 := by
      intro value
      rw [Poller.Holds, UInt32.and_zero, and_iff_right rfl]
    simp only [hholds] at hvain
    exact .inr ⟨polls, back, rfl, hvain, runs_cancel_cancelled hback⟩

/-! ### The whole -/

/-- A cancel that goes so, with the response where there is one and the exit behind it. -/
theorem Cancelled.interrupted {before back response : Trace} {result : Except Failure Unit}
    (h : link.Cancelled back result) (answer : Except BusFault Unit)
    (hwaits : link.StartedInVain before) (hbefore : before.Never link.IsCancelWrite)
    (hresponse : ∀ event ∈ response, event.Within link.InData fun _ => False)
    (hdone : response ≠ [] → ∃ value, result = .ok value) :
    ∃ cancel after, back ++ (response ++ [link.exitWrite answer]) = cancel :: after ∧
      link.Interrupted before cancel after := by
  have hexit : Trace.Never link.IsCancel [link.exitWrite answer] :=
    never_cons.mpr ⟨mt IsCancel.isCancelWrite (not_isCancelWrite_exitWrite answer), never_nil⟩
  have hexitReads : Trace.Never link.IsDataRead [link.exitWrite answer] :=
    never_cons.mpr ⟨id, never_nil⟩
  cases h with
  | refused fault =>
    -- Behind a cancel that fails there is no response.
    have hnone : response = [] := by
      by_contra hresponse
      obtain ⟨_, hresult⟩ := hdone hresponse
      cases hresult
    rw [hnone]
    refine ⟨_, [link.exitWrite answer], rfl, hwaits, hbefore, ⟨_, rfl⟩, hexit, fun hcancel => ?_,
      onlyAfter_of_never hexitReads⟩
    cases hcancel
  | @made polls _ cleared hpolls hacknowledges =>
    have hafter : link.cancelWrite 1 (.ok ()) :: (polls ++ [link.cancelWrite 0 cleared]) ++
        (response ++ [link.exitWrite answer]) = link.cancelWrite 1 (.ok ()) ::
          (polls ++ link.cancelWrite 0 cleared :: (response ++ [link.exitWrite answer])) := by simp
    refine ⟨_, _, hafter, hwaits, hbefore, ⟨_, rfl⟩, ?_, fun _ => ?_, ?_⟩
    · have hclear : ¬ link.IsCancel (link.cancelWrite 0 cleared) := fun hcancel => hcancel.2 rfl
      have hwritten : ∀ {trace : Trace} {readable : Nat → Prop},
          (∀ event ∈ trace, event.Within readable fun _ => False) → trace.Never link.IsCancel :=
        fun h => (never_isCancelWrite h id).mono fun _ => IsCancel.isCancelWrite
      exact never_append.mpr ⟨hwritten hpolls,
        never_cons.mpr ⟨hclear, never_append.mpr ⟨hwritten hresponse, hexit⟩⟩⟩
    · refine ⟨polls, cleared, response, answer, rfl, List.forall_mem_append.mpr ⟨?_, ?_⟩⟩
      · exact fun event hmem => (hpolls event hmem).mono (fun _ _ => trivial) fun _ => id
      · exact fun event hmem => (hresponse event hmem).mono (fun _ _ => trivial) fun _ => id
    · have hpollReads : polls.Never link.IsDataRead :=
        never_readsFrom hpolls fun _ haddr => haddr ▸ not_inData_register (by decide)
      have hreads : response.OnlyAfter link.IsDataRead fun before => link.Acknowledged
          (link.cancelWrite 1 (.ok ())) (polls ++ link.cancelWrite 0 cleared :: before) := by
        rintro later event after rfl -
        obtain ⟨⟨⟩, hresult⟩ := hdone (by simp)
        obtain ⟨rfl, front, status, rfl, hclear⟩ := hacknowledges hresult
        exact ⟨rfl, front, later, status, by simp, hclear⟩
      exact onlyAfter_append (onlyAfter_of_never hpollReads)
        (onlyAfter_cons (fun hread => hread.elim)
          (onlyAfter_append hreads (onlyAfter_of_never hexitReads)))

/-- From the start on, a command keeps to the discipline. -/
theorem cancelDiscipline_of_execution {capacity : Nat} {before run : Trace}
    {result : Except Failure Bytes} (exited : Except BusFault Unit)
    (hcapacity : capacity ≤ dataBufferSize) (hbefore : before.Never link.IsCancelWrite)
    (h : (link.start >>= fun _ => link.readResponse capacity).Runs run result) :
    link.CancelDiscipline (before ++ (run ++ [link.exitWrite exited])) := by
  have hstartWrite : ∀ answer, ¬ link.IsCancelWrite (link.startWrite answer) :=
    fun _ => mt addr_inj.mp (by decide)
  obtain ⟨start, response, found, rfl, hstart, hresponse, hdone⟩ :=
    exists_parts_of_runs_bind (fun _ => only_readResponse hcapacity) h
  rcases runs_start_cancelled hstart with ⟨answer, polls, rfl, hpolls⟩ | ⟨polls, back, rfl, hvain,
    hcancelled⟩
  · have hrun : Trace.Never link.IsCancelWrite (link.startWrite answer :: polls ++ response) :=
      never_append.mpr ⟨never_cons.mpr ⟨hstartWrite answer, never_isCancelWrite hpolls id⟩,
        never_isCancelWrite hresponse id⟩
    have hexit : Trace.Never link.IsCancelWrite [link.exitWrite exited] :=
      never_cons.mpr ⟨not_isCancelWrite_exitWrite exited, never_nil⟩
    exact cancelDiscipline_of_never (never_append.mpr ⟨hbefore, never_append.mpr ⟨hrun, hexit⟩⟩)
  · have hwaited : Trace.Never link.IsCancelWrite (before ++ link.startWrite (.ok ()) :: polls) :=
      never_append.mpr ⟨hbefore,
        never_cons.mpr ⟨hstartWrite _, never_isCancelWrite hvain.within id⟩⟩
    obtain ⟨cancel, after, hsplit, hinterrupted⟩ :=
      hcancelled.interrupted exited ⟨before, polls, rfl, hvain⟩ hwaited hresponse hdone
    have hwhole : before ++ (link.startWrite (.ok ()) :: (polls ++ back) ++ response ++
        [link.exitWrite exited]) =
      before ++ link.startWrite (.ok ()) :: polls ++ cancel :: after := by simp [← hsplit]
    rw [hwhole]
    exact hinterrupted.discipline

theorem runs_execute_cancelDiscipline {maxResponse : Nat} {result : Except Failure Bytes}
    (h : (link.execute command maxResponse).Runs trace result) : link.CancelDiscipline trace := by
  by_cases hlength : command.length ≤ dataBufferSize
  swap
  · rw [((runs_execute_tooLong_iff (Nat.lt_of_not_le hlength)).mp h).1]
    exact cancelDiscipline_of_never never_nil
  obtain ⟨middle, answer, rfl, hsession⟩ := (runs_execute_iff hlength).mp h
  have hexit : Trace.Never link.IsCancelWrite [link.exitWrite answer] :=
    never_cons.mpr ⟨not_isCancelWrite_exitWrite answer, never_nil⟩
  have hphase : ∀ {ready : Trace} {found : Except Failure Unit}, link.makeReady.Runs ready found →
      ready.Never link.IsCancelWrite :=
    fun hready => never_isCancelWrite (only_makeReady _ _ hready) (mt addr_inj.mp (by decide))
  have hloads : ∀ {load : Trace} {found : Except Failure Unit},
      (link.writeCommand command).Runs load found → load.Never link.IsCancelWrite :=
    fun hload => never_isCancelWrite
      (fun event hmem => (only_writeCommand hlength _ _ hload event hmem).within)
      (not_inLoad_register (by decide))
  rcases runs_bind_iff.mp hsession with ⟨failure, -, hready⟩ | ⟨ready, rest, ⟨⟩, rfl, hready, hrest⟩
  · exact cancelDiscipline_of_never (never_append.mpr ⟨hphase hready, hexit⟩)
  rcases runs_bind_iff.mp (runs_note_bind_iff.mp hrest) with ⟨failure, -, hload⟩ | ⟨load, run, ⟨⟩,
    rfl, hload, hrun⟩
  · exact cancelDiscipline_of_never
      (never_append.mpr ⟨never_append.mpr ⟨hphase hready, hloads hload⟩, hexit⟩)
  · have hbefore := never_append.mpr ⟨hphase hready, hloads hload⟩
    have hwhole : ready ++ (load ++ run) ++ [link.exitWrite answer] =
        ready ++ load ++ (run ++ [link.exitWrite answer]) := by simp
    rw [hwhole]
    exact cancelDiscipline_of_execution answer (Nat.min_le_right _ _) hbefore hrun

end CommandBuffer

end TpmLink

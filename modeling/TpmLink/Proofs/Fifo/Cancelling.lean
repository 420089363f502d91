import TpmLink.Proofs.Bus.Lapses
import TpmLink.Proofs.Fifo.Outcome

/-!
# How a command on the byte FIFO is cancelled

The cancel bit is written at most once, and only when the status has been polled in vain for the
whole budget of the command. It is never cleared: behind it nothing is written but the return to
ready. The response is read behind it only if it became available after all.
-/

namespace TpmLink

namespace Fifo

open Script Trace

variable (link : Fifo)

/-- A write to the status register that sets the cancel bit. -/
def IsCancel : Event → Prop
  | .write addr _ value _ => addr = link.status ∧ value &&& 0x1000000 ≠ 0
  | _ => False

/-- The command was started, and the status has been polled for the whole budget without being
valid and having data available at once. -/
def StartedInVain (before : Trace) : Prop :=
  ∃ front polls : Trace, before = front ++ link.startWrite (.ok ()) :: polls ∧
    polls.Vain link.status .byte (fun raw => raw.toUInt8 &&& 0x90 = 0x90) link.timeouts.max

/-- Nothing is written but, as the last access, the return to ready. -/
def OnlyExits (after : Trace) : Prop :=
  ∃ rest answer, after = rest ++ [link.exitWrite answer] ∧
    ∀ event ∈ rest, event.Within (fun _ => True) fun _ => False

/-- The cancel bit was written, and the status has been read as valid with data available. -/
def Acknowledged (cancel : Event) (between : Trace) : Prop :=
  cancel = link.cancelWrite (.ok ()) ∧ link.StatusSeen 0x90 0 between

/-- How the cancel bit is used. -/
structure CancelDiscipline (trace : Trace) : Prop where
  once : trace.AtMostOnce link.IsCancel
  form : ∀ event ∈ trace, link.IsCancel event → ∃ answer, event = link.cancelWrite answer
  waits : trace.OnlyAfter link.IsCancel link.StartedInVain
  stays : trace.FollowedBy link.IsCancel link.OnlyExits
  receives : trace.Between link.IsCancel link.IsReceive link.Acknowledged

variable {link} {command : Bytes} {capacity : Nat} {trace : Trace}

/-! ### The cancel bit -/

theorem never_isCancel {readable writable : Nat → Prop}
    (h : ∀ event ∈ trace, event.Within readable writable) (hwrites : ¬ writable link.status) :
    trace.Never link.IsCancel := by
  intro event hmem hcancel
  have hwithin := h event hmem
  cases event with
  | write addr => exact hwrites (hcancel.1 ▸ hwithin)
  | _ => exact hcancel

theorem not_isCancel_startWrite (answer : Except BusFault Unit) :
    ¬ link.IsCancel (link.startWrite answer) := fun hcancel => hcancel.2 (by decide)

theorem not_isCancel_exitWrite (answer : Except BusFault Unit) :
    ¬ link.IsCancel (link.exitWrite answer) := fun hcancel => hcancel.2 (by decide)

/-- Where the cancel bit is not written, there is nothing to keep to. -/
theorem cancelDiscipline_of_never (h : trace.Never link.IsCancel) : link.CancelDiscipline trace :=
  ⟨followedBy_of_never h, fun event hmem hcancel => absurd hcancel (h event hmem),
    onlyAfter_of_never h, followedBy_of_never h, between_of_never h⟩

/-- A run with one cancel in it, behind which the rest is only read. -/
theorem cancelDiscipline_of_single {before rest : Trace} (answer exited : Except BusFault Unit)
    (hbefore : before.Never link.IsCancel) (hwaits : link.StartedInVain before)
    (hrest : ∀ event ∈ rest, event.Within (fun _ => True) fun _ => False)
    (hreceives : rest.OnlyAfter link.IsReceive (link.Acknowledged (link.cancelWrite answer))) :
    link.CancelDiscipline
      (before ++ link.cancelWrite answer :: (rest ++ [link.exitWrite exited])) := by
  have hafter : Trace.Never link.IsCancel (rest ++ [link.exitWrite exited]) :=
    never_append.mpr ⟨never_isCancel hrest id,
      never_cons.mpr ⟨not_isCancel_exitWrite exited, never_nil⟩⟩
  have hexit : Trace.Never link.IsReceive [link.exitWrite exited] := never_cons.mpr ⟨id, never_nil⟩
  refine ⟨atMostOnce_of_single hbefore hafter, fun event hmem hcancel => ?_,
    onlyAfter_of_single hbefore hafter hwaits,
    followedBy_of_single hbefore hafter ⟨rest, exited, rfl, hrest⟩,
    between_of_single hbefore hafter (onlyAfter_append hreceives (onlyAfter_of_never hexit))⟩
  rcases List.mem_append.mp hmem with hmem | hmem
  · exact absurd hcancel (hbefore event hmem)
  rcases List.mem_cons.mp hmem with rfl | hmem
  · exact ⟨answer, rfl⟩
  · exact absurd hcancel (hafter event hmem)

/-! ### Phases -/

theorem only_prepare_not_isCancel : link.prepare.Only fun event => ¬ link.IsCancel event := by
  rw [prepare_eq]
  refine only_bind (only_checked_write not_isCancel_exitWrite) fun _ trace result h => ?_
  exact never_isCancel (only_waitOrFail only_waitStatus _ _ h) id

theorem never_isCancel_send {result : Except Failure Unit}
    (h : (link.send command).Runs trace result) : trace.Never link.IsCancel :=
  never_isCancel (only_send _ _ h) (IsSource.ne_data (.inl rfl))

/-- A cancel is one write, and then the response is waited for. -/
theorem runs_cancel_cancelled {result : Except Failure Unit} (h : link.cancel.Runs trace result) :
    ∃ answer polls, trace = link.cancelWrite answer :: polls ∧
      (∀ event ∈ polls, link.IsWait event) ∧
      (result = .ok () → answer = .ok () ∧ link.StatusSeen 0x90 0 polls) := by
  rw [cancel_eq, runs_note_bind_iff] at h
  rcases runs_checked_write_bind_iff.mp h with ⟨fault, rfl, rfl⟩ | ⟨polls, rfl, hpolls⟩
  · exact ⟨.error fault, [], rfl, by simp, fun hresult => by cases hresult⟩
  · refine ⟨.ok (), polls, rfl, only_waitOrFail only_waitStatus _ _ hpolls,
      fun hresult => ⟨rfl, ?_⟩⟩
    rw [hresult] at hpolls
    exact runs_waitStatus_ok (runs_waitStatus_ok_iff.mpr (runs_waitOrFail_ok_iff.mp hpolls))

/-- A started command is waited for in vain before it is cancelled. -/
theorem runs_start_cancelled {result : Except Failure Unit} (h : link.start.Runs trace result) :
    (∃ answer polls, trace = link.startWrite answer :: polls ∧ ∀ event ∈ polls, link.IsWait event) ∨
    ∃ (polls polls' : Trace) (answer : Except BusFault Unit),
      trace = link.startWrite (.ok ()) :: (polls ++ link.cancelWrite answer :: polls') ∧
      polls.Vain link.status .byte (fun raw => raw.toUInt8 &&& 0x90 = 0x90) link.timeouts.max ∧
      (∀ event ∈ polls', link.IsWait event) ∧
      (result = .ok () → answer = .ok () ∧ link.StatusSeen 0x90 0 polls') := by
  rcases runs_checked_write_bind_iff.mp h with ⟨fault, rfl, -⟩ | ⟨rest, rfl, hrest⟩
  · exact .inl ⟨.error fault, [], rfl, by simp⟩
  rcases runs_onTimeout_iff.mp hrest with ⟨-, hwait⟩ | ⟨polls, back, rfl, hpolls, hback⟩
  · exact .inl ⟨.ok (), rest, rfl, only_waitStatus _ _ hwait⟩
  · have hvain := (runs_waitStatus_timeout_iff.mp hpolls).vain
    have hset : availableBits = 0x90 := by decide
    simp only [hset, UInt8.and_zero, and_true] at hvain
    obtain ⟨answer, polls', rfl, hwaits, hseen⟩ := runs_cancel_cancelled hback
    exact .inr ⟨polls, polls', answer, rfl, hvain, hwaits, hseen⟩

/-! ### The whole -/

/-- From the start on, a command keeps to the discipline. -/
theorem cancelDiscipline_of_execution {before run : Trace} {result : Except Failure Bytes}
    (exited : Except BusFault Unit) (hbefore : before.Never link.IsCancel)
    (h : (link.start >>= fun _ => link.receive capacity).Runs run result) :
    link.CancelDiscipline (before ++ (run ++ [link.exitWrite exited])) := by
  have hexit : Trace.Never link.IsCancel [link.exitWrite exited] :=
    never_cons.mpr ⟨not_isCancel_exitWrite exited, never_nil⟩
  obtain ⟨start, response, found, rfl, hstart, hresponse, hdone⟩ :=
    exists_parts_of_runs_bind (fun _ => only_receive) h
  rcases runs_start_cancelled hstart with ⟨answer, polls, rfl, hpolls⟩ | ⟨polls, polls', answer,
    rfl, hvain, hwaits, hseen⟩
  · have hrun : Trace.Never link.IsCancel (link.startWrite answer :: polls ++ response) :=
      never_append.mpr ⟨never_cons.mpr ⟨not_isCancel_startWrite answer, never_isCancel hpolls id⟩,
        never_isCancel hresponse id⟩
    exact cancelDiscipline_of_never (never_append.mpr ⟨hbefore, never_append.mpr ⟨hrun, hexit⟩⟩)
  have hwaited : Trace.Never link.IsCancel (before ++ link.startWrite (.ok ()) :: polls) :=
    never_append.mpr ⟨hbefore,
      never_cons.mpr ⟨not_isCancel_startWrite _, never_isCancel hvain.within id⟩⟩
  have hrest : ∀ event ∈ polls' ++ response, event.Within (fun _ => True) fun _ => False :=
    List.forall_mem_append.mpr
      ⟨fun event hmem => (hwaits event hmem).mono (fun _ _ => trivial) fun _ => id,
        fun event hmem => (hresponse event hmem).mono (fun _ _ => trivial) fun _ => id⟩
  have hreceives : OnlyAfter link.IsReceive (link.Acknowledged (link.cancelWrite answer))
      (polls' ++ response) := by
    refine onlyAfter_append
      (onlyAfter_of_never (never_readsFrom hwaits fun _ => IsSource.ne_data)) ?_
    rintro received event after rfl -
    obtain ⟨⟨⟩, hfound⟩ := hdone (by simp)
    obtain ⟨rfl, hstatus⟩ := hseen hfound
    exact ⟨rfl, hstatus.append_right⟩
  have hwhole : before ++ (link.startWrite (.ok ()) ::
        (polls ++ link.cancelWrite answer :: polls') ++ response ++ [link.exitWrite exited]) =
      before ++ link.startWrite (.ok ()) :: polls ++
        link.cancelWrite answer :: (polls' ++ response ++ [link.exitWrite exited]) := by simp
  rw [hwhole]
  exact cancelDiscipline_of_single answer exited hwaited ⟨before, polls, rfl, hvain⟩ hrest hreceives

theorem runs_execute_cancelDiscipline {result : Except Failure Bytes}
    (h : (link.execute command capacity).Runs trace result) : link.CancelDiscipline trace := by
  obtain ⟨middle, answer, rfl, hsession⟩ := runs_execute_iff.mp h
  have hexit : Trace.Never link.IsCancel [link.exitWrite answer] :=
    never_cons.mpr ⟨not_isCancel_exitWrite answer, never_nil⟩
  rcases runs_bind_iff.mp hsession with ⟨failure, -, hready⟩ | ⟨ready, rest, ⟨⟩, rfl, hready, hrest⟩
  · exact cancelDiscipline_of_never
      (never_append.mpr ⟨only_prepare_not_isCancel _ _ hready, hexit⟩)
  have hreadies := only_prepare_not_isCancel _ _ hready
  rcases runs_bind_iff.mp (runs_note_bind_iff.mp hrest) with ⟨failure, -, hload⟩ | ⟨load, run, ⟨⟩,
    rfl, hload, hrun⟩
  · exact cancelDiscipline_of_never
      (never_append.mpr ⟨never_append.mpr ⟨hreadies, never_isCancel_send hload⟩, hexit⟩)
  · have hbefore := never_append.mpr ⟨hreadies, never_isCancel_send hload⟩
    have hwhole : ready ++ (load ++ run) ++ [link.exitWrite answer] =
        ready ++ load ++ (run ++ [link.exitWrite answer]) := by simp
    rw [hwhole]
    exact cancelDiscipline_of_execution answer hbefore hrun

end Fifo

end TpmLink

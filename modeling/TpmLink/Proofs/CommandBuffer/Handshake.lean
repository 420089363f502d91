import TpmLink.Proofs.Bus.Lapses
import TpmLink.Proofs.CommandBuffer.Faults

/-!
# What one attempt looks like

An attempt begins with the look for idle, or at once with the request on a chip that takes commands
at any time, and it never sends the chip to idle. It ends in one of three ways: each of its waits is
met, an access fails, or it lapses since one of its waits has been in vain for the whole budget.
-/

namespace TpmLink

namespace CommandBuffer

open Script Trace

variable (link : CommandBuffer)

/-- A register is polled in vain for the budget of the handshake. -/
def Vain (register : BufferRegister) (set clear : UInt32) : Trace → Prop :=
  Trace.Vain (register.addr link.base) .dword (fun raw => Poller.Holds set clear raw.toUInt32)
    link.timeouts.c

/-- An attempt in which a wait runs out: that for idle, that for the request to be taken, or that
for idle to be left. -/
inductive Lapsed (link : CommandBuffer) : Trace → Prop
  | neverIdle {look polls : Trace} (checks : link.idleBypass ≠ .supported)
      (active : link.Reads .status (fun status => ¬ Poller.Holds 2 0 status) look)
      (waits : link.Vain .status 2 0 polls) : Lapsed link (look ++ polls)
  | neverTaken {idle polls : Trace} (finds : link.FindsIdle idle)
      (waits : link.Vain .request 0 1 polls) :
      Lapsed link (idle ++ link.readyWrite (.ok ()) :: polls)
  | neverActive {idle taken polls : Trace} (finds : link.FindsIdle idle)
      (takes : link.Sees .request 0 1 link.timeouts.c taken) (waits : link.Vain .status 0 2 polls) :
      Lapsed link (idle ++ link.readyWrite (.ok ()) :: (taken ++ polls))

/-- An attempt in which each wait is met. -/
inductive Readied (link : CommandBuffer) : Trace → Prop
  | ready {idle taken left : Trace} (finds : link.FindsIdle idle)
      (takes : link.Sees .request 0 1 link.timeouts.c taken)
      (leaves : link.Sees .status 0 2 link.timeouts.c left) :
      Readied link (idle ++ link.readyWrite (.ok ()) :: (taken ++ left))

/-- What every attempt keeps to, however it ends. -/
structure IsAttempt (attempt : Trace) : Prop where
  /-- Idle is looked for first, and ready is requested only when it has been seen. -/
  looks : link.idleBypass ≠ .supported →
    (∃ answer rest, attempt = .read (BufferRegister.status.addr link.base) .dword answer :: rest) ∧
      attempt.OnlyAfter link.IsReadyRequest link.IdleSeen
  /-- Ready is requested first. -/
  asks : link.idleBypass = .supported →
    ∃ answer rest, attempt = link.readyWrite answer :: rest
  staysActive : attempt.Never link.IsGoIdle

/-- An access of the ready handshake. -/
def IsHandshake (event : Event) : Prop :=
  event.ReadsFrom link.IsReadySource ∨ link.IsReadyRequest event

variable {link} {trace : Trace} {event : Event} {found : Except Failure Unit}

/-! ### Accesses -/

theorem IsReadyPoll.not_isGoIdle (h : link.IsReadyPoll event) : ¬ link.IsGoIdle event := by
  cases event with
  | write => exact absurd h id
  | _ => exact id

theorem only_handshake : link.handshake.Only fun event => ¬ link.IsGoIdle event := by
  have hwait : ∀ register set clear timeout,
      (link.waitReg register set clear timeout).Only fun event => ¬ link.IsGoIdle event :=
    fun _ _ _ _ => only_waitReg (fun _ => id) fun _ => id
  have hrequest : (link.writeReg .request BufferRequest.commandReady.bits).Only
      fun event => ¬ link.IsGoIdle event :=
    only_writeReg fun _ hidle => absurd hidle.2.2 (by decide)
  refine only_bind (only_ensureIdle.mono fun _ => IsReadyPoll.not_isGoIdle) fun _ => ?_
  exact only_bind (only_bind hrequest fun _ => hwait _ _ _ _) fun _ => hwait _ _ _ _

/-- Every attempt makes an access that belongs to attempts only. -/
theorem IsAttempt.exists_isHandshake (h : link.IsAttempt trace) :
    ∃ event ∈ trace, link.IsHandshake event := by
  by_cases hbypass : link.idleBypass = .supported
  · obtain ⟨answer, rest, rfl⟩ := h.asks hbypass
    exact ⟨_, List.mem_cons_self, .inr ⟨rfl, by decide⟩⟩
  · obtain ⟨⟨answer, rest, rfl⟩, -⟩ := h.looks hbypass
    exact ⟨_, List.mem_cons_self, .inl (.inl rfl)⟩

/-! ### Runs of the handshake -/

theorem TimedOut.lapsed (h : link.TimedOut trace) : link.Lapsed trace := by
  cases h with
  | neverIdle hchecks hactive hwait => exact .neverIdle hchecks hactive hwait.vain
  | neverTaken hfinds hwait => exact .neverTaken hfinds hwait.vain
  | neverActive hfinds htakes hwait => exact .neverActive hfinds htakes hwait.vain

theorem readied_of_handshake (h : link.handshake.Runs trace (.ok ())) : link.Readied trace := by
  obtain ⟨idle, rest, ⟨⟩, rfl, hidle, hrest⟩ := runs_bind_ok_iff.mp h
  obtain ⟨request, left, ⟨⟩, rfl, hrequest, hleft⟩ := runs_bind_ok_iff.mp hrest
  obtain ⟨taken, rfl, htaken⟩ := runs_requestReady_ok_iff.mp hrequest
  exact .ready (runs_ensureIdle_ok_iff.mp hidle) htaken (runs_waitReg_ok_iff.mp hleft)

/-- Where idle has to be seen, it is looked for first. -/
theorem handshake_looks (hchecks : link.idleBypass ≠ .supported)
    (h : link.handshake.Runs trace found) :
    ∃ answer rest, trace = .read (BufferRegister.status.addr link.base) .dword answer :: rest := by
  have hidle : ∀ {trace found}, link.ensureIdle.Runs trace found → ∃ answer rest,
      trace = .read (BufferRegister.status.addr link.base) .dword answer :: rest := by
    intro trace found h
    rcases (runs_ensureIdle_iff hchecks).mp h with ⟨failure, -, hlook⟩ | ⟨-, raw, rfl, -⟩ |
      ⟨look, polls, rfl, ⟨raw, rfl, -⟩, -⟩
    · obtain ⟨answer, rfl, -⟩ := runs_checked_read_iff.mp hlook
      exact ⟨answer, [], rfl⟩
    · exact ⟨.ok raw, [], rfl⟩
    · exact ⟨.ok raw, polls, rfl⟩
  rcases runs_bind_iff.mp h with ⟨failure, -, hfirst⟩ | ⟨front, back, ⟨⟩, rfl, hfirst, -⟩
  · exact hidle hfirst
  · obtain ⟨answer, rest, rfl⟩ := hidle hfirst
    exact ⟨answer, rest ++ back, rfl⟩

/-- A chip that takes commands at any time is asked at once. -/
theorem handshake_asks (hbypass : link.idleBypass = .supported)
    (h : link.handshake.Runs trace found) :
    ∃ answer rest, trace = link.readyWrite answer :: rest := by
  have hensure : link.ensureIdle = pure () := by rw [ensureIdle, if_pos hbypass]
  rw [handshake, hensure] at h
  rcases runs_bind_iff.mp h with ⟨failure, -, hnone⟩ | ⟨none, rest, ⟨⟩, rfl, hnone, hrest⟩
  · cases (runs_pure_iff.mp hnone).2
  obtain ⟨rfl, -⟩ := runs_pure_iff.mp hnone
  rcases runs_bind_iff.mp hrest with ⟨failure, -, hrequest⟩ | ⟨front, back, ⟨⟩, rfl, hrequest, -⟩
  · obtain ⟨answer, polls, rfl, -⟩ := runs_requestReady hrequest
    exact ⟨answer, polls, rfl⟩
  · obtain ⟨answer, polls, rfl, -⟩ := runs_requestReady hrequest
    exact ⟨answer, polls ++ back, rfl⟩

theorem isAttempt_of_handshake (h : link.handshake.Runs trace found) : link.IsAttempt trace where
  looks hchecks := ⟨handshake_looks hchecks h, (runs_handshake h).1.afterIdle hchecks⟩
  asks hbypass := handshake_asks hbypass h
  staysActive := only_handshake _ _ h

/-- An attempt that fails with `io` stops at the access that failed. -/
theorem stopsWith_of_handshake (h : link.handshake.Runs trace (.error .io)) :
    trace.StopsWith Event.Failed := by
  rcases strict_handshake trace _ h with ⟨-, front, last, rfl, hlast, hfront⟩ | ⟨hresult, -⟩
  · refine ⟨front, last, rfl, hlast.1, fun event hmem hfailed => hfront event hmem ⟨hfailed, ?_⟩⟩
    exact only_handshake _ _ h event (List.mem_append_left _ hmem)
  · exact absurd rfl hresult

/-- Every attempt ends in one of the three ways. -/
theorem handshake_ends (h : link.handshake.Runs trace found) :
    link.Readied trace ∨ trace.StopsWith Event.Failed ∨ link.Lapsed trace := by
  cases found with
  | ok value => exact .inl (readied_of_handshake h)
  | error failure =>
    have hknown := failsWith_handshake trace failure h
    simp only [List.mem_cons, List.not_mem_nil, or_false] at hknown
    rcases hknown with rfl | rfl
    · exact .inr (.inr (runs_handshake_timeout_iff.mp h).lapsed)
    · exact .inr (.inl (stopsWith_of_handshake h))

end CommandBuffer

end TpmLink

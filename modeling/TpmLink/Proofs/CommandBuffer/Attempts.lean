import TpmLink.Proofs.Bus.Waiting
import TpmLink.Proofs.CommandBuffer.Order

/-!
# Attempts to become ready

An attempt times out exactly where one of its three waits spends its budget: the wait for idle, the
wait for the request to be taken, or the wait for idle to be left. The ready phase makes one attempt
after another, each of which but the last times out and is followed by the way back to idle.
-/

namespace TpmLink

namespace CommandBuffer

open Script Trace

variable (link : CommandBuffer)

/-- One successful read of a register, with a value of that kind. -/
def Reads (register : BufferRegister) (wanted : UInt32 → Prop) : Trace → Prop :=
  Trace.Reads (register.addr link.base) .dword fun raw => wanted raw.toUInt32

/-- A register is polled until all bits of `set` read one and all bits of `clear` read zero. -/
def Sees (register : BufferRegister) (set clear : UInt32) : Nat → Trace → Prop :=
  link.timeouts.poller.Sees (register.addr link.base) .dword
    fun raw => Poller.Holds set clear raw.toUInt32

/-- A register is polled for the whole budget, and at no time all bits of `set` read one and all
bits of `clear` read zero. -/
def Misses (register : BufferRegister) (set clear : UInt32) : Nat → Trace → Prop :=
  link.timeouts.poller.Misses (register.addr link.base) .dword
    fun raw => Poller.Holds set clear raw.toUInt32

/-- The write that requests the ready state. -/
def readyWrite (answer : Except BusFault Unit) : Event :=
  .write (BufferRegister.request.addr link.base) .dword 1 answer

/-- A write that sends the chip to idle. -/
def IsGoIdle : Event → Prop
  | .write addr width value _ =>
    addr = BufferRegister.request.addr link.base ∧ width = .dword ∧ value = 2
  | _ => False

instance : DecidablePred link.IsGoIdle
  | .write addr width value _ => inferInstanceAs (Decidable
      (addr = BufferRegister.request.addr link.base ∧ width = .dword ∧ value = 2))
  | .read .. | .stall _ => isFalse id

/-- The chip is found idle at the first look or within the budget, unless it takes commands at any
time. -/
inductive FindsIdle (link : CommandBuffer) : Trace → Prop
  | bypass (supported : link.idleBypass = .supported) : FindsIdle link []
  | atOnce {look : Trace} (checks : link.idleBypass ≠ .supported)
      (idle : link.Reads .status (Poller.Holds 2 0) look) : FindsIdle link look
  | later {look polls : Trace} (checks : link.idleBypass ≠ .supported)
      (active : link.Reads .status (fun status => ¬ Poller.Holds 2 0 status) look)
      (idle : link.Sees .status 2 0 link.timeouts.c polls) : FindsIdle link (look ++ polls)

/-- An attempt in which a wait spends its budget. -/
inductive TimedOut (link : CommandBuffer) : Trace → Prop
  | neverIdle {look polls : Trace} (checks : link.idleBypass ≠ .supported)
      (active : link.Reads .status (fun status => ¬ Poller.Holds 2 0 status) look)
      (waits : link.Misses .status 2 0 link.timeouts.c polls) : TimedOut link (look ++ polls)
  | neverTaken {idle polls : Trace} (finds : link.FindsIdle idle)
      (waits : link.Misses .request 0 1 link.timeouts.c polls) :
      TimedOut link (idle ++ link.readyWrite (.ok ()) :: polls)
  | neverActive {idle taken polls : Trace} (finds : link.FindsIdle idle)
      (takes : link.Sees .request 0 1 link.timeouts.c taken)
      (waits : link.Misses .status 0 2 link.timeouts.c polls) :
      TimedOut link (idle ++ link.readyWrite (.ok ()) :: (taken ++ polls))

/-- So many attempts in a row time out, and each is followed by the way back to idle. -/
inductive OutOfTime (link : CommandBuffer) : Nat → Trace → Prop
  | none : OutOfTime link 0 []
  | again {count : Nat} {attempt rest : Trace} (answer : Except BusFault Unit)
      (timedOut : link.TimedOut attempt) (others : OutOfTime link count rest) :
      OutOfTime link (count + 1) (attempt ++ link.exitWrite answer :: rest)

variable {link} {register : BufferRegister} {set clear : UInt32} {timeout : Nat}
  {trace : Trace} {result : Except Failure Unit}

/-! ### Waits for registers -/

theorem runs_readReg_ok_iff {value : UInt32} :
    (link.readReg register).Runs trace (.ok value) ↔
      link.Reads register (fun found => found = value) trace := by
  constructor
  · exact runs_readReg_ok
  · rintro ⟨raw, rfl, rfl⟩
    exact runs_checked_read_iff.mpr ⟨.ok raw, rfl, rfl⟩

theorem failsWith_readReg : (link.readReg register).FailsWith [.io] :=
  failsWith_checked_read (List.mem_singleton.mpr rfl)

theorem failsWith_writeReg {value : UInt32} : (link.writeReg register value).FailsWith [.io] :=
  failsWith_checked_write (List.mem_singleton.mpr rfl)

theorem failsWith_waitReg : (link.waitReg register set clear timeout).FailsWith [.timeout, .io] :=
  failsWith_waitBits _ (failsWith_readReg.mono (by simp)) (by simp) set clear timeout

theorem runs_waitReg_ok_iff :
    (link.waitReg register set clear timeout).Runs trace (.ok ()) ↔
      link.Sees register set clear timeout trace :=
  Poller.runs_waitBits_ok_iff fun _ _ => runs_readReg_ok_iff

theorem runs_waitReg_timeout_iff :
    (link.waitReg register set clear timeout).Runs trace (.error .timeout) ↔
      link.Misses register set clear timeout trace :=
  Poller.runs_waitBits_timeout_iff failsWith_readReg fun _ _ => runs_readReg_ok_iff

/-! ### One attempt -/

/-- The flags are cut to the known ones before the idle flag is looked up, and idle is known. -/
theorem contains_idle_iff {status : UInt32} :
    (FlagSet.truncate status : BufferStatus).contains BufferStatus.idle = true ↔
      Poller.Holds 2 0 status := by
  have hmask : flagMask statusFlags &&& 2 = 2 := by decide
  have hcontains : (FlagSet.truncate status : BufferStatus).contains BufferStatus.idle = true ↔
      status &&& flagMask statusFlags &&& 2 = 2 := beq_iff_eq
  rw [hcontains, UInt32.and_assoc, hmask, Poller.Holds, UInt32.and_zero, and_iff_left rfl]

/-- Looking for idle, where the chip has to be idle. -/
theorem runs_ensureIdle_iff (hchecks : link.idleBypass ≠ .supported) :
    link.ensureIdle.Runs trace result ↔
      (∃ failure, result = .error failure ∧
        (link.readReg .status).Runs trace (.error failure)) ∨
      (result = .ok () ∧ link.Reads .status (Poller.Holds 2 0) trace) ∨
      ∃ look polls, trace = look ++ polls ∧
        link.Reads .status (fun status => ¬ Poller.Holds 2 0 status) look ∧
        (link.waitReg .status 2 0 link.timeouts.c).Runs polls result := by
  rw [ensureIdle, if_neg hchecks, runs_bind_iff]
  refine or_congr_right ?_
  constructor
  · rintro ⟨look, polls, status, rfl, hlook, hpolls⟩
    obtain ⟨raw, rfl, rfl⟩ := runs_readReg_ok_iff.mp hlook
    dsimp only at hpolls
    split at hpolls
    next hidle =>
      obtain ⟨rfl, rfl⟩ := runs_pure_iff.mp hpolls
      exact .inl ⟨rfl, raw, rfl, contains_idle_iff.mp hidle⟩
    next hactive =>
      have hwait := runs_note_bind_iff.mp hpolls
      exact .inr ⟨_, polls, rfl, ⟨raw, rfl, mt contains_idle_iff.mpr hactive⟩, hwait⟩
  · rintro (⟨rfl, raw, rfl, hidle⟩ | ⟨look, polls, rfl, ⟨raw, rfl, hactive⟩, hwait⟩)
    · refine ⟨_, [], raw.toUInt32, rfl, runs_readReg_ok_iff.mpr ⟨raw, rfl, rfl⟩, ?_⟩
      dsimp only
      rw [if_pos (contains_idle_iff.mpr hidle)]
      exact runs_pure_iff.mpr ⟨rfl, rfl⟩
    · refine ⟨_, polls, raw.toUInt32, rfl, runs_readReg_ok_iff.mpr ⟨raw, rfl, rfl⟩, ?_⟩
      dsimp only
      rw [if_neg (mt contains_idle_iff.mp hactive)]
      exact runs_note_bind_iff.mpr hwait

theorem runs_ensureIdle_ok_iff : link.ensureIdle.Runs trace (.ok ()) ↔ link.FindsIdle trace := by
  by_cases hbypass : link.idleBypass = .supported
  · rw [ensureIdle, if_pos hbypass]
    constructor
    · intro h
      obtain ⟨rfl, -⟩ := runs_pure_iff.mp h
      exact .bypass hbypass
    · intro h
      cases h with
      | bypass => exact runs_pure_iff.mpr ⟨rfl, rfl⟩
      | atOnce hchecks => exact absurd hbypass hchecks
      | later hchecks => exact absurd hbypass hchecks
  · rw [runs_ensureIdle_iff hbypass]
    constructor
    · rintro (⟨failure, hresult, -⟩ | ⟨-, hidle⟩ | ⟨look, polls, rfl, hactive, hwait⟩)
      · cases hresult
      · exact .atOnce hbypass hidle
      · exact .later hbypass hactive (runs_waitReg_ok_iff.mp hwait)
    · intro h
      cases h with
      | bypass hsupported => exact absurd hsupported hbypass
      | atOnce _ hidle => exact .inr (.inl ⟨rfl, hidle⟩)
      | later _ hactive hidle =>
        exact .inr (.inr ⟨_, _, rfl, hactive, runs_waitReg_ok_iff.mpr hidle⟩)

theorem runs_ensureIdle_timeout_iff :
    link.ensureIdle.Runs trace (.error .timeout) ↔
      link.idleBypass ≠ .supported ∧ ∃ look polls, trace = look ++ polls ∧
        link.Reads .status (fun status => ¬ Poller.Holds 2 0 status) look ∧
        link.Misses .status 2 0 link.timeouts.c polls := by
  by_cases hbypass : link.idleBypass = .supported
  · rw [ensureIdle, if_pos hbypass]
    constructor
    · intro h
      cases (runs_pure_iff.mp h).2
    · rintro ⟨hchecks, -⟩
      exact absurd hbypass hchecks
  · rw [runs_ensureIdle_iff hbypass]
    constructor
    · rintro (⟨failure, hresult, hread⟩ | ⟨hresult, -⟩ | ⟨look, polls, rfl, hactive, hwait⟩)
      · cases hresult
        exact absurd (failsWith_readReg _ _ hread) (by decide)
      · cases hresult
      · exact ⟨hbypass, look, polls, rfl, hactive, runs_waitReg_timeout_iff.mp hwait⟩
    · rintro ⟨-, look, polls, rfl, hactive, hwait⟩
      exact .inr (.inr ⟨look, polls, rfl, hactive, runs_waitReg_timeout_iff.mpr hwait⟩)

theorem runs_requestReady_ok_iff :
    link.requestReady.Runs trace (.ok ()) ↔
      ∃ polls, trace = link.readyWrite (.ok ()) :: polls ∧
        link.Sees .request 0 1 link.timeouts.c polls := by
  refine (runs_past_write_iff (by simp)).trans ?_
  exact exists_congr fun polls => and_congr_right fun _ => runs_waitReg_ok_iff

theorem runs_requestReady_timeout_iff :
    link.requestReady.Runs trace (.error .timeout) ↔
      ∃ polls, trace = link.readyWrite (.ok ()) :: polls ∧
        link.Misses .request 0 1 link.timeouts.c polls := by
  refine (runs_past_write_iff (by simp)).trans ?_
  exact exists_congr fun polls => and_congr_right fun _ => runs_waitReg_timeout_iff

/-- An attempt times out exactly where one of its waits spends its budget. -/
theorem runs_handshake_timeout_iff :
    link.handshake.Runs trace (.error .timeout) ↔ link.TimedOut trace := by
  rw [handshake, runs_bind_error_iff, runs_ensureIdle_timeout_iff]
  constructor
  · rintro (⟨hchecks, look, polls, rfl, hactive, hwait⟩ | ⟨idle, rest, ⟨⟩, rfl, hidle, hrest⟩)
    · exact .neverIdle hchecks hactive hwait
    · have hfinds := runs_ensureIdle_ok_iff.mp hidle
      rcases runs_bind_error_iff.mp hrest with hrequest | ⟨front, polls, ⟨⟩, rfl, hrequest, hwait⟩
      · obtain ⟨polls, rfl, hpolls⟩ := runs_requestReady_timeout_iff.mp hrequest
        exact .neverTaken hfinds hpolls
      · obtain ⟨taken, rfl, htaken⟩ := runs_requestReady_ok_iff.mp hrequest
        exact .neverActive hfinds htaken (runs_waitReg_timeout_iff.mp hwait)
  · intro h
    cases h with
    | neverIdle hchecks hactive hwait => exact .inl ⟨hchecks, _, _, rfl, hactive, hwait⟩
    | @neverTaken idle polls hfinds hwait =>
      have hrequest := runs_requestReady_timeout_iff.mpr ⟨polls, rfl, hwait⟩
      exact .inr ⟨_, _, (), rfl, runs_ensureIdle_ok_iff.mpr hfinds,
        runs_bind_error_iff.mpr (.inl hrequest)⟩
    | @neverActive idle taken polls hfinds htaken hwait =>
      have hrequest := runs_requestReady_ok_iff.mpr ⟨taken, rfl, htaken⟩
      exact .inr ⟨_, _, (), rfl, runs_ensureIdle_ok_iff.mpr hfinds,
        runs_bind_error_iff.mpr
          (.inr ⟨_, polls, (), rfl, hrequest, runs_waitReg_timeout_iff.mpr hwait⟩)⟩

theorem failsWith_ensureIdle : link.ensureIdle.FailsWith [.timeout, .io] := by
  unfold ensureIdle
  split
  · exact failsWith_pure _
  · refine (failsWith_readReg.mono (by simp)).bind fun value => ?_
    dsimp only
    split
    · exact failsWith_pure _
    · exact (failsWith_note _).bind fun _ => failsWith_waitReg

theorem failsWith_handshake : link.handshake.FailsWith [.timeout, .io] := by
  refine failsWith_ensureIdle.bind fun _ => FailsWith.bind ?_ fun _ => failsWith_waitReg
  exact (failsWith_writeReg.mono (by simp)).bind fun _ => failsWith_waitReg

/-! ### Attempt after attempt -/

/-- Between two attempts the chip is sent to idle, whatever it answers. -/
theorem runs_rewind_iff {attempt : Nat} :
    (link.rewind attempt).Runs trace result ↔
      ∃ answer, trace = [link.exitWrite answer] ∧ result = .ok () := by
  constructor
  · intro h
    obtain ⟨rfl, answer, rfl⟩ := runs_rewind h
    exact ⟨answer, rfl, rfl⟩
  · rintro ⟨answer, rfl, rfl⟩
    refine runs_note_bind_iff.mpr (runs_andThen_iff.mpr ⟨[link.exitWrite answer], [],
      checkedResult answer, rfl, runs_checked_write_iff.mpr ⟨answer, rfl, rfl⟩, ?_⟩)
    cases answer with
    | ok value => exact .done _
    | error fault => exact .done _

theorem OutOfTime.append {count count' : Nat} {front back : Trace}
    (h : link.OutOfTime count front) (h' : link.OutOfTime count' back) :
    link.OutOfTime (count' + count) (front ++ back) := by
  induction h with
  | none => exact h'
  | again answer htimedOut _ ih =>
    rw [List.append_assoc, List.cons_append]
    exact .again answer htimedOut ih

/-- The last of some attempts that time out. -/
theorem OutOfTime.last {count : Nat} (h : link.OutOfTime (count + 1) trace) :
    ∃ lost attempt answer, trace = lost ++ (attempt ++ [link.exitWrite answer]) ∧
      link.OutOfTime count lost ∧ link.TimedOut attempt := by
  induction count generalizing trace with
  | zero =>
    cases h with
    | again answer htimedOut hothers =>
      cases hothers
      exact ⟨[], _, answer, rfl, .none, htimedOut⟩
  | succ count ih =>
    cases h with
    | again answer htimedOut hothers =>
      obtain ⟨lost, attempt, answer', rfl, hlost, hattempt⟩ := ih hothers
      exact ⟨_, attempt, answer', by simp, .again answer htimedOut hlost, hattempt⟩

/-- Attempts are made until one does not time out or none is left. -/
theorem runs_retry_iff {number left : Nat} :
    (retryFrom (fun attempt _ => link.rewind attempt) (fun _ => link.handshake) number left).Runs
        trace result ↔
      ∃ failed lost last, trace = lost ++ last ∧ failed ≤ left ∧ link.OutOfTime failed lost ∧
        link.handshake.Runs last result ∧ (result = .error .timeout → failed = left) := by
  -- The induction is on the attempts that are left: the first is the last, or leaves one less.
  induction left generalizing number trace with
  | zero =>
    constructor
    · intro h
      exact ⟨0, [], trace, rfl, Nat.le_refl 0, .none, h, fun _ => rfl⟩
    · rintro ⟨failed, lost, last, rfl, hfailed, hlost, hlast, -⟩
      obtain rfl := Nat.le_zero.mp hfailed
      cases hlost
      exact hlast
  | succ left ih =>
    refine runs_onTimeout_iff.trans ?_
    constructor
    · rintro (⟨hresult, hlast⟩ | ⟨attempt, rest, rfl, hattempt, hrest⟩)
      · exact ⟨0, [], trace, rfl, Nat.zero_le _, .none, hlast, fun h => absurd h hresult⟩
      · have htimedOut := runs_handshake_timeout_iff.mp hattempt
        rcases runs_bind_iff.mp hrest with ⟨failure, -, hrewind⟩ | ⟨_, back, _, rfl, hrewind, hback⟩
        · obtain ⟨_, -, hresult⟩ := runs_rewind_iff.mp hrewind
          cases hresult
        · obtain ⟨answer, rfl, -⟩ := runs_rewind_iff.mp hrewind
          obtain ⟨failed, lost, last, rfl, hfailed, hlost, hlast, hspent⟩ := ih.mp hback
          exact ⟨failed + 1, _, last, by simp, Nat.succ_le_succ hfailed,
            .again answer htimedOut hlost, hlast, fun h => congrArg Nat.succ (hspent h)⟩
    · rintro ⟨failed, lost, last, rfl, hfailed, hlost, hlast, hspent⟩
      cases hlost with
      | none =>
        have hresult : result ≠ .error .timeout := fun h => Nat.succ_ne_zero left (hspent h).symm
        exact .inl ⟨hresult, hlast⟩
      | @again count attempt rest answer htimedOut hothers =>
        refine .inr ⟨attempt, _, ?_, runs_handshake_timeout_iff.mpr htimedOut,
          runs_bind_iff.mpr (.inr ⟨_, rest ++ last, (), rfl,
            runs_rewind_iff.mpr ⟨answer, rfl, rfl⟩, ih.mpr ⟨count, rest, last, rfl,
              Nat.le_of_succ_le_succ hfailed, hothers, hlast, fun h => Nat.succ.inj (hspent h)⟩⟩)⟩
        simp

/-- Why the last attempt is the last: it does not time out, or no attempt is left. -/
theorem runs_makeReady_iff :
    link.makeReady.Runs trace result ↔
      ∃ failed lost last, trace = lost ++ last ∧ link.OutOfTime failed lost ∧
        ((failed < max 1 link.timeouts.retryMax ∧ result ≠ .error .timeout ∧
            link.handshake.Runs last result) ∨
          (failed + 1 = max 1 link.timeouts.retryMax ∧ result = .error .deviceBusy ∧
            link.TimedOut last)) := by
  have hattempts : link.timeouts.retryMax - 1 + 1 = max 1 link.timeouts.retryMax := by omega
  refine runs_onTimeout_throw_iff.trans ?_
  constructor
  · rintro (⟨hresult, hretry⟩ | ⟨rfl, hretry⟩)
    · obtain ⟨failed, lost, last, rfl, hfailed, hlost, hlast, -⟩ := runs_retry_iff.mp hretry
      exact ⟨failed, lost, last, rfl, hlost, .inl ⟨by omega, hresult, hlast⟩⟩
    · obtain ⟨failed, lost, last, rfl, -, hlost, hlast, hspent⟩ := runs_retry_iff.mp hretry
      have hlastOf := runs_handshake_timeout_iff.mp hlast
      obtain rfl := hspent rfl
      exact ⟨_, lost, last, rfl, hlost, .inr ⟨hattempts, rfl, hlastOf⟩⟩
  · rintro ⟨failed, lost, last, rfl, hlost, ⟨hfailed, hresult, hlast⟩ | ⟨hfailed, rfl, hlast⟩⟩
    · exact .inl ⟨hresult, runs_retry_iff.mpr ⟨failed, lost, last, rfl, by omega, hlost, hlast,
        fun h => absurd h hresult⟩⟩
    · exact .inr ⟨rfl, runs_retry_iff.mpr ⟨failed, lost, last, rfl, by omega, hlost,
        runs_handshake_timeout_iff.mpr hlast, fun _ => by omega⟩⟩

theorem failsWith_makeReady : link.makeReady.FailsWith [.deviceBusy, .io] := by
  intro trace failure h
  obtain ⟨_, _, last, -, -, ⟨-, hresult, hlast⟩ | ⟨-, hbusy, -⟩⟩ := runs_makeReady_iff.mp h
  · rcases List.mem_cons.mp (failsWith_handshake last failure hlast) with rfl | hio
    · exact absurd rfl hresult
    · exact List.mem_cons_of_mem _ hio
  · cases hbusy
    exact List.mem_cons_self

end CommandBuffer

end TpmLink

import TpmLink.Proofs.Bus.Order
import TpmLink.Proofs.Bus.Reach
import TpmLink.Transport.CommandBuffer

/-!
# How the command buffer becomes ready

However often the handshake is tried, and wherever it fails, ready is requested only from idle; and
where it succeeds, ready has been seen since the request.
-/

namespace TpmLink

namespace CommandBuffer

open Script Trace

variable (link : CommandBuffer)

/-! ### Kinds of events -/

/-- An address in the data buffer. -/
def InData (addr : Nat) : Prop := link.base + 0x80 ≤ addr ∧ addr < link.base + 0x1000

/-- An address in the registers that announce the command and the response. -/
def InAnnounce (addr : Nat) : Prop := link.base + 0x58 ≤ addr ∧ addr < link.base + 0x70

instance (addr : Nat) : Decidable (link.InData addr) :=
  inferInstanceAs (Decidable (link.base + 0x80 ≤ addr ∧ addr < link.base + 0x1000))

/-- A write to the data buffer. -/
def IsDataWrite : Event → Prop := Event.WritesTo link.InData

instance : DecidablePred link.IsDataWrite :=
  inferInstanceAs (DecidablePred (Event.WritesTo link.InData))

/-- A read from the data buffer. -/
def IsDataRead : Event → Prop := Event.ReadsFrom link.InData

/-- A write of the command or of what announces it and the response. -/
def IsLoad : Event → Prop := Event.WritesTo fun addr => link.InData addr ∨ link.InAnnounce addr

/-- A write to the request register. -/
def IsRequest : Event → Prop :=
  Event.WritesTo fun addr => addr = BufferRegister.request.addr link.base

/-- A write to the request register that asks for the ready state. -/
def IsReadyRequest : Event → Prop
  | .write addr _ value _ => addr = BufferRegister.request.addr link.base ∧ value &&& 1 ≠ 0
  | _ => False

/-- A write to the start register. -/
def IsStart : Event → Prop := Event.WritesTo fun addr => addr = BufferRegister.start.addr link.base

/-- The registers that are polled before a command. -/
def IsReadySource (addr : Nat) : Prop :=
  addr = BufferRegister.status.addr link.base ∨ addr = BufferRegister.request.addr link.base

/-- What the ready phase does. -/
def IsReadyPhase : Event → Prop :=
  Event.Within link.IsReadySource fun addr => addr = BufferRegister.request.addr link.base

/-- What the ready phase does between its writes. -/
def IsReadyPoll : Event → Prop := Event.Within link.IsReadySource fun _ => False

variable {link} {event : Event} {trace front back : Trace}

theorem IsReadyPoll.isReadyPhase (h : link.IsReadyPoll event) : link.IsReadyPhase event :=
  Event.Within.mono h (fun _ => id) fun _ => False.elim

theorem IsReadyRequest.isRequest (h : link.IsReadyRequest event) : link.IsRequest event := by
  cases event with
  | write => exact h.1
  | _ => exact absurd h id

theorem never_isRequest_of_polls (h : ∀ event ∈ trace, link.IsReadyPoll event) :
    trace.Never link.IsRequest :=
  never_writesTo h fun _ => False.elim

theorem never_isReadyRequest_of_polls (h : ∀ event ∈ trace, link.IsReadyPoll event) :
    trace.Never link.IsReadyRequest :=
  (never_isRequest_of_polls h).mono fun _ => IsReadyRequest.isRequest

/-! ### Registers -/

variable {register : BufferRegister}

@[simp] theorem addr_inj {register' : BufferRegister} :
    register.addr link.base = register'.addr link.base ↔ register.offset = register'.offset :=
  Nat.add_left_cancel_iff

theorem not_inData_register (h : register.offset < 0x80) :
    ¬ link.InData (register.addr link.base) := by
  intro hdata
  have hlow : link.base + 0x80 ≤ link.base + register.offset := hdata.1
  omega

theorem not_inAnnounce_register (h : register.offset < 0x58) :
    ¬ link.InAnnounce (register.addr link.base) := by
  intro hannounce
  have hlow : link.base + 0x58 ≤ link.base + register.offset := hannounce.1
  omega

/-- The control registers lie below everything that is loaded. -/
theorem not_inLoad_register (h : register.offset < 0x58) :
    ¬ (link.InData (register.addr link.base) ∨ link.InAnnounce (register.addr link.base)) :=
  not_or.mpr ⟨not_inData_register (by omega), not_inAnnounce_register h⟩

theorem runs_readReg_ok {value : UInt32} (h : (link.readReg register).Runs trace (.ok value)) :
    ∃ raw : UInt64, trace = [.read (register.addr link.base) .dword (.ok raw)] ∧
      raw.toUInt32 = value := by
  obtain ⟨answer, rfl, hresult⟩ := runs_checked_read_iff.mp h
  cases answer with
  | error fault => cases hresult
  | ok raw =>
    cases hresult
    exact ⟨raw, rfl, rfl⟩

theorem runs_writeReg {value : UInt32} {result : Except Failure Unit}
    (h : (link.writeReg register value).Runs trace result) :
    ∃ answer, trace = [.write (register.addr link.base) .dword value.toUInt64 answer] ∧
      result = checkedResult answer :=
  runs_checked_write_iff.mp h

theorem only_readReg {kind : Event → Prop}
    (h : ∀ answer, kind (.read (register.addr link.base) .dword answer)) :
    (link.readReg register).Only kind :=
  only_checked_read h

theorem only_waitReg {kind : Event → Prop} {set clear : UInt32} {timeout : Nat}
    (hread : ∀ answer, kind (.read (register.addr link.base) .dword answer))
    (hstall : ∀ micros, kind (.stall micros)) :
    (link.waitReg register set clear timeout).Only kind :=
  only_waitBits _ (only_readReg hread) (hstall _) set clear timeout

/-- A wait that succeeds ends with reading the bits it waited for. -/
theorem runs_waitReg_ok {set clear : UInt32} {timeout : Nat}
    (h : (link.waitReg register set clear timeout).Runs trace (.ok ())) :
    ∃ (front : Trace) (raw : UInt64),
      trace = front ++ [.read (register.addr link.base) .dword (.ok raw)] ∧
      raw.toUInt32 &&& set = set ∧ raw.toUInt32 &&& clear = 0 := by
  obtain ⟨front, last, value, rfl, hlast, hset, hclear⟩ := runs_waitBits_ok h
  obtain ⟨raw, rfl, rfl⟩ := runs_readReg_ok hlast
  exact ⟨front, raw, rfl, hset, hclear⟩

/-! ### Ready -/

/-- The chip has been seen idle since the request register was last written. -/
def IdleSeen (link : CommandBuffer) (before : Trace) : Prop :=
  ∃ (front polls : Trace) (status : UInt64),
    before = front ++
      .read (BufferRegister.status.addr link.base) .dword (.ok status) :: polls ∧
    status.toUInt32 &&& 2 = 2 ∧ polls.Never link.IsRequest

/-- Ready has been requested, then the request was seen taken, then idle was seen left, and the
request register was written only that once. -/
def ReadySeen (link : CommandBuffer) (before : Trace) : Prop :=
  ∃ (front taking leaving later : Trace) (request status : UInt64),
    before = front ++
      .write (BufferRegister.request.addr link.base) .dword 1 (.ok ()) :: (taking ++
      .read (BufferRegister.request.addr link.base) .dword (.ok request) :: (leaving ++
      .read (BufferRegister.status.addr link.base) .dword (.ok status) :: later)) ∧
    request.toUInt32 &&& 1 = 0 ∧ status.toUInt32 &&& 2 = 0 ∧
    taking.Never link.IsRequest ∧ leaving.Never link.IsRequest ∧ later.Never link.IsRequest

theorem IdleSeen.append_left (h : link.IdleSeen back) : link.IdleSeen (front ++ back) := by
  obtain ⟨first, polls, status, rfl, hidle, hpolls⟩ := h
  exact ⟨front ++ first, polls, status, by simp, hidle, hpolls⟩

theorem ReadySeen.append_left (h : link.ReadySeen back) : link.ReadySeen (front ++ back) := by
  obtain ⟨first, taking, leaving, later, request, status, rfl, hready⟩ := h
  exact ⟨front ++ first, taking, leaving, later, request, status, by simp, hready⟩

theorem ReadySeen.append_right (h : link.ReadySeen front) (hback : back.Never link.IsRequest) :
    link.ReadySeen (front ++ back) := by
  obtain ⟨first, taking, leaving, later, request, status, rfl, htaken, hleft, htaking, hleaving,
    hlater⟩ := h
  exact ⟨first, taking, leaving, later ++ back, request, status, by simp, htaken, hleft, htaking,
    hleaving, never_append.mpr ⟨hlater, hback⟩⟩

theorem only_ensureIdle : link.ensureIdle.Only link.IsReadyPoll := by
  unfold ensureIdle
  split
  · exact only_pure _
  · refine only_bind (only_readReg fun _ => .inl rfl) fun value => ?_
    dsimp only
    split
    · exact only_pure _
    · exact only_bind (only_note _) fun _ => only_waitReg (fun _ => .inl rfl) fun _ => trivial

/-- Unless the chip takes commands at any time, it is seen idle. -/
theorem runs_ensureIdle_ok (hbypass : link.idleBypass ≠ .supported)
    (h : link.ensureIdle.Runs trace (.ok ())) :
    ∃ (front : Trace) (status : UInt64),
      trace = front ++ [.read (BufferRegister.status.addr link.base) .dword (.ok status)] ∧
      status.toUInt32 &&& 2 = 2 := by
  rw [ensureIdle, if_neg hbypass] at h
  obtain ⟨front, back, value, rfl, hfront, hback⟩ := runs_bind_ok_iff.mp h
  obtain ⟨raw, rfl, rfl⟩ := runs_readReg_ok hfront
  dsimp only at hback
  split at hback
  next hidle =>
    obtain ⟨rfl, -⟩ := runs_pure_iff.mp hback
    refine ⟨[], raw, rfl, ?_⟩
    -- The flags are cut to the known ones before the idle flag is looked up, and idle is known.
    have hmask : flagMask statusFlags &&& 2 = 2 := by decide
    have hcontains : raw.toUInt32 &&& flagMask statusFlags &&& 2 = 2 := beq_iff_eq.mp hidle
    rwa [UInt32.and_assoc, hmask] at hcontains
  next =>
    obtain ⟨polls, status, rfl, hset, -⟩ := runs_waitReg_ok (runs_note_bind_iff.mp hback)
    exact ⟨_ :: polls, status, rfl, hset⟩

/-- Ready is requested by one write, and the request is then polled until it is taken. -/
theorem runs_requestReady {result : Except Failure Unit}
    (h : link.requestReady.Runs trace result) :
    ∃ (answer : Except BusFault Unit) (polls : Trace),
      trace = .write (BufferRegister.request.addr link.base) .dword 1 answer :: polls ∧
      (∀ event ∈ polls, link.IsReadyPoll event) ∧
      (result = .ok () → answer = .ok () ∧ ∃ (front : Trace) (request : UInt64),
        polls = front ++ [.read (BufferRegister.request.addr link.base) .dword (.ok request)] ∧
        request.toUInt32 &&& 1 = 0) := by
  obtain ⟨answer, polls, rfl, ⟨rfl, failure, rfl⟩ | ⟨rfl, hpolls⟩⟩ := runs_checked_write_bind h
  · exact ⟨answer, [], rfl, by simp, fun hresult => by cases hresult⟩
  · have hconfined : ∀ event ∈ polls, link.IsReadyPoll event :=
      only_waitReg (fun _ => .inr rfl) (fun _ => trivial) polls result hpolls
    refine ⟨.ok (), polls, rfl, hconfined, ?_⟩
    rintro rfl
    obtain ⟨front, request, rfl, -, hclear⟩ := runs_waitReg_ok hpolls
    exact ⟨rfl, front, request, rfl, hclear⟩

/-- What the attempts to become ready keep to. -/
structure Attempts (link : CommandBuffer) (trace : Trace) : Prop where
  confined : ∀ event ∈ trace, link.IsReadyPhase event
  afterIdle : link.idleBypass ≠ .supported → trace.OnlyAfter link.IsReadyRequest link.IdleSeen

theorem attempts_of_polls (h : ∀ event ∈ trace, link.IsReadyPoll event) : link.Attempts trace where
  confined event hmem := (h event hmem).isReadyPhase
  afterIdle _ := onlyAfter_of_never (never_isReadyRequest_of_polls h)

theorem Attempts.append (hfront : link.Attempts front) (hback : link.Attempts back) :
    link.Attempts (front ++ back) where
  confined := List.forall_mem_append.mpr ⟨hfront.confined, hback.confined⟩
  afterIdle hbypass := onlyAfter_append (hfront.afterIdle hbypass)
    ((hback.afterIdle hbypass).mono fun _ => IdleSeen.append_left)

theorem attempts_request {answer : Except BusFault Unit} {polls : Trace}
    (hidle : link.idleBypass ≠ .supported → link.IdleSeen front)
    (hfront : ∀ event ∈ front, link.IsReadyPoll event)
    (hpolls : ∀ event ∈ polls, link.IsReadyPoll event) :
    link.Attempts
      (front ++ .write (BufferRegister.request.addr link.base) .dword 1 answer :: polls) where
  confined := by
    have hbefore : ∀ event ∈ front, link.IsReadyPhase event :=
      fun event hmem => (hfront event hmem).isReadyPhase
    have hbehind : ∀ event ∈ polls, link.IsReadyPhase event :=
      fun event hmem => (hpolls event hmem).isReadyPhase
    exact List.forall_mem_append.mpr ⟨hbefore, List.forall_mem_cons.mpr ⟨rfl, hbehind⟩⟩
  afterIdle hbypass := by
    have hnow : link.IdleSeen (front ++ []) := by
      rw [List.append_nil]
      exact hidle hbypass
    have hbefore := never_isReadyRequest_of_polls hfront
    have hbehind := never_isReadyRequest_of_polls hpolls
    exact onlyAfter_append (onlyAfter_of_never hbefore)
      (onlyAfter_cons (fun _ => hnow) (onlyAfter_of_never hbehind))

/-- One attempt requests ready only from idle, and one that succeeds sees ready. -/
theorem runs_handshake {result : Except Failure Unit} (h : link.handshake.Runs trace result) :
    link.Attempts trace ∧ (result = .ok () → link.ReadySeen trace) := by
  rcases runs_bind_iff.mp h with ⟨failure, rfl, hidle⟩ | ⟨front, rest, ⟨⟩, rfl, hidle, hrest⟩
  · exact ⟨attempts_of_polls (only_ensureIdle _ _ hidle), fun hresult => by cases hresult⟩
  have hfront := only_ensureIdle _ _ hidle
  have hseen : link.idleBypass ≠ .supported → link.IdleSeen front := by
    intro hbypass
    obtain ⟨first, status, rfl, hstatus⟩ := runs_ensureIdle_ok hbypass hidle
    exact ⟨first, [], status, rfl, hstatus, never_nil⟩
  rcases runs_bind_iff.mp hrest with ⟨failure, rfl, hrequest⟩ | ⟨taking, leaving, ⟨⟩, rfl, hrequest,
    hleaving⟩
  · obtain ⟨answer, polls, rfl, hpolls, -⟩ := runs_requestReady hrequest
    exact ⟨attempts_request hseen hfront hpolls, fun hresult => by cases hresult⟩
  · obtain ⟨answer, polls, rfl, hpolls, htaken⟩ := runs_requestReady hrequest
    obtain ⟨rfl, first, request, rfl, hclear⟩ := htaken rfl
    have hleft : ∀ event ∈ leaving, link.IsReadyPoll event :=
      only_waitReg (fun _ => .inl rfl) (fun _ => trivial) leaving result hleaving
    constructor
    · rw [List.cons_append]
      exact attempts_request hseen hfront (List.forall_mem_append.mpr ⟨hpolls, hleft⟩)
    · rintro rfl
      obtain ⟨second, status, rfl, -, hactive⟩ := runs_waitReg_ok hleaving
      have hfirst := (never_append.mp (never_isRequest_of_polls hpolls)).1
      have hsecond := (never_append.mp (never_isRequest_of_polls hleft)).1
      exact ⟨front, first, second, [], request, status, by simp, hclear, hactive, hfirst, hsecond,
        never_nil⟩

/-- Between two attempts the chip is sent to idle, whatever it answers. -/
theorem runs_rewind {attempt : Nat} {result : Except Failure Unit}
    (h : (link.rewind attempt).Runs trace result) :
    result = .ok () ∧ ∃ answer,
      trace = [.write (BufferRegister.request.addr link.base) .dword 2 answer] := by
  have hwrite := runs_note_bind_iff.mp h
  obtain ⟨front, back, middle, rfl, hfront, hback⟩ := runs_andThen_iff.mp hwrite
  obtain ⟨answer, rfl, -⟩ := runs_writeReg hfront
  cases middle with
  | ok value =>
    obtain ⟨rfl, rfl⟩ := runs_done_iff.mp hback
    exact ⟨rfl, answer, rfl⟩
  | error failure =>
    obtain ⟨rfl, rfl⟩ := runs_pure_iff.mp hback
    exact ⟨rfl, answer, rfl⟩

theorem attempts_rewind (answer : Except BusFault Unit) :
    link.Attempts [.write (BufferRegister.request.addr link.base) .dword 2 answer] where
  confined := List.forall_mem_singleton.mpr rfl
  afterIdle _ := onlyAfter_of_never (never_cons.mpr ⟨fun h => h.2 (by decide), never_nil⟩)

theorem runs_retry {number left : Nat} {result : Except Failure Unit}
    (h : (retryFrom (fun attempt _ => link.rewind attempt) (fun _ => link.handshake) number
      left).Runs trace result) :
    link.Attempts trace ∧ (result = .ok () → link.ReadySeen trace) := by
  -- Between two attempts the request register is written, so nothing that an attempt has seen
  -- counts for the next one: each has to see idle and ready itself.
  induction left generalizing number trace with
  | zero => exact runs_handshake h
  | succ left ih =>
    change (onTimeout link.handshake (do
      link.rewind number
      retryFrom (fun attempt _ => link.rewind attempt) (fun _ => link.handshake) (number + 1)
        left)).Runs trace result at h
    rcases runs_onTimeout_iff.mp h with ⟨-, hlast⟩ | ⟨front, rest, rfl, hfront, hrest⟩
    · exact runs_handshake hlast
    · rcases runs_bind_iff.mp hrest with ⟨failure, -, hrewind⟩ | ⟨between, back, ⟨⟩, rfl, hrewind,
        hback⟩
      · obtain ⟨hresult, -⟩ := runs_rewind hrewind
        cases hresult
      · obtain ⟨-, answer, rfl⟩ := runs_rewind hrewind
        obtain ⟨hattempts, hready⟩ := ih hback
        have hfirst := (runs_handshake hfront).1
        refine ⟨hfirst.append ((attempts_rewind answer).append hattempts), fun hresult => ?_⟩
        exact ((hready hresult).append_left).append_left

/-- However often it is tried, ready is requested only from idle, and success means ready. -/
theorem runs_makeReady {result : Except Failure Unit} (h : link.makeReady.Runs trace result) :
    link.Attempts trace ∧ (result = .ok () → link.ReadySeen trace) := by
  obtain ⟨found, hfound, hok⟩ := runs_onTimeout_throw h
  obtain ⟨hattempts, hready⟩ := runs_retry hfound
  exact ⟨hattempts, fun hresult => hready (hok _ hresult)⟩

end CommandBuffer

end TpmLink

import TpmLink.Connection
import TpmLink.Proofs.Selection.Decision

/-!
# Establishing a connection

A connection is established by a selection and nothing else: the bus sees the same, and the result
is what the selection finds, as a connection. What firmware declares changes what is reported and
neither the accesses nor the result.
-/

namespace TpmLink

open Script

/-! ### The transports apart -/

/-- The first thing that a FIFO does with a command is to write its status register. -/
theorem Fifo.execute_eq_write (fifo : Fifo) (command : Bytes) (maxResponse : Nat) :
    ∃ next, fifo.execute command maxResponse =
      .write fifo.status .byte Fifo.readyBits.toUInt64 next :=
  ⟨_, rfl⟩

/-- A command buffer never starts with a write of a byte. -/
theorem CommandBuffer.execute_ne_write (buffer : CommandBuffer) (command : Bytes)
    (maxResponse addr : Nat) (value : UInt64) (next : Except BusFault Unit → Script Bytes) :
    buffer.execute command maxResponse ≠ .write addr .byte value next := by
  obtain ⟨base, bypass, timeouts⟩ := buffer
  by_cases hlength : dataBufferSize < command.length
  · rw [execute, if_pos hlength]
    intro h
    cases h
  · rw [execute, if_neg hlength, session, makeReady, retry]
    -- What comes first hangs on the bypass; the number of attempts matters only where one fails.
    cases bypass <;> cases timeouts.retryMax - 1 <;>
      · intro h
        cases h

theorem CommandBuffer.execute_ne_fifo (buffer : CommandBuffer) (fifo : Fifo) (command : Bytes)
    (maxResponse : Nat) :
    buffer.execute command maxResponse ≠ fifo.execute command maxResponse := by
  obtain ⟨next, hnext⟩ := fifo.execute_eq_write command maxResponse
  rw [hnext]
  exact buffer.execute_ne_write command maxResponse _ _ next

/-! ### What a selection leads to -/

namespace Selection

/-- A selection never ends with an interface that has no transport. -/
theorem Selects.kind_ne {base : Nat} {trace : Trace} {interface : Interface}
    (h : Selects base trace (.ok interface)) : interface.kind ≠ .unsupported := by
  cases h with
  | settled _ hsettle =>
    cases hsettle with
    | known hknown _ => exact hknown

end Selection

namespace Connection

variable {base : Nat} {config : Config} {interface : Interface} {connection : Connection}
  {locator : Locator} {trace : Trace} {result : Except Failure Connection}

/-- The connection keeps the interface, and moves every command as that asks for. -/
structure Speaks (base : Nat) (config : Config) (interface : Interface)
    (connection : Connection) : Prop where
  interface_eq : connection.interface = interface
  commandBuffer_iff : ∀ command, connection.client.submit command =
      CommandBuffer.execute ⟨base, interface.idleBypass, config.commandBuffer⟩ command
        config.maxResponse ↔
    interface.kind = .commandBuffer
  fifo_iff : ∀ command, connection.client.submit command =
      Fifo.execute ⟨base, config.fifo⟩ command config.maxResponse ↔
    interface.kind = .tis ∨ interface.kind = .fifo

theorem speaks_of_ofInterface (h : ofInterface base interface config = .ok connection) :
    connection.Speaks base config interface := by
  obtain ⟨kind, bypass⟩ := interface
  cases kind with
  | unsupported => cases h
  | commandBuffer =>
    cases h
    refine ⟨rfl, fun command => iff_of_true rfl rfl, fun command => iff_of_false ?_ (by simp)⟩
    exact CommandBuffer.execute_ne_fifo _ _ command config.maxResponse
  | tis | fifo =>
    cases h
    refine ⟨rfl, fun command => iff_of_false ?_ (by simp), fun command => iff_of_true rfl (by simp)⟩
    exact (CommandBuffer.execute_ne_fifo _ _ command config.maxResponse).symm

/-! ### Establishing -/

theorem runs_compare_bind_iff {declared : Option StartMethod} {kind : InterfaceKind}
    {next : Unit → Script Connection} :
    (compare declared kind >>= next).Runs trace result ↔ (next ()).Runs trace result := by
  cases declared with
  | none => exact Iff.rfl
  | some method =>
    by_cases hsame : method.isCommandBuffer = (kind == .commandBuffer)
    · rw [compare, if_pos hsame]
      exact Iff.rfl
    · rw [compare, if_neg hsame, runs_note_bind_iff]

theorem establish_of_error {fault : LocateFault} (h : locator.base = .error fault) :
    establish locator config = note (.notLocated fault) >>= fun _ => throw .notConnected := by
  rw [establish, h]

theorem establish_of_ok (h : locator.base = .ok base) :
    establish locator config = Selection.select base >>= fun interface =>
      compare locator.declared interface.kind >>= fun _ =>
        match ofInterface base interface config with
        | .error failure => throw failure
        | .ok connection => note (.opened base interface.kind) >>= fun _ => pure connection := by
  obtain ⟨located, declared⟩ := locator
  change located = _ at h
  subst h
  rfl

/-- What comes after the selection does nothing on the bus, whatever firmware declares. -/
theorem runs_connect_iff {declared : Option StartMethod} :
    (compare declared interface.kind >>= fun _ =>
        match ofInterface base interface config with
        | .error failure => throw failure
        | .ok connection => note (.opened base interface.kind) >>= fun _ => pure connection).Runs
      trace result ↔ trace = [] ∧ result = ofInterface base interface config := by
  rw [runs_compare_bind_iff]
  cases ofInterface base interface config with
  | error failure => exact runs_throw_iff
  | ok connection => exact runs_note_bind_iff.trans runs_pure_iff

theorem runs_establish_iff (h : locator.base = .ok base) :
    (establish locator config).Runs trace result ↔ ∃ found,
      (Selection.select base).Runs trace found ∧
        result = found.bind fun interface => ofInterface base interface config := by
  rw [establish_of_ok h, runs_bind_iff]
  simp only [runs_connect_iff]
  constructor
  · rintro (⟨failure, rfl, hselect⟩ | ⟨front, _, interface, rfl, hselect, rfl, rfl⟩)
    · exact ⟨.error failure, hselect, rfl⟩
    · exact ⟨.ok interface, by rwa [List.append_nil], rfl⟩
  · rintro ⟨found, hselect, rfl⟩
    cases found with
    | error failure => exact .inl ⟨failure, rfl, hselect⟩
    | ok interface =>
      exact .inr ⟨trace, [], interface, by rw [List.append_nil], hselect, rfl, rfl⟩

section
variable {σ : Type} (device : Device σ) (state : σ)

theorem trace_establish (h : locator.base = .ok base) :
    (establish locator config).trace device state =
      (Selection.select base).trace device state := by
  have hselect := runs_trace device (Selection.select base) state
  have hwhole := runs_trace device (establish locator config) state
  obtain ⟨found, hfound, -⟩ := (runs_establish_iff h).mp hwhole
  -- The selection runs through both traces, and the longer one starts with the shorter.
  obtain ⟨rest, hrest⟩ : ∃ rest, (establish locator config).trace device state =
      (Selection.select base).trace device state ++ rest := by
    rw [establish_of_ok h]
    exact ⟨_, trace_andThen device (Selection.select base) _ state⟩
  have hsame : (Selection.select base).trace device state ++ rest =
      (establish locator config).trace device state ++ [] := by
    rw [List.append_nil, hrest]
  exact (hselect.unique hfound hsame).1.symm

theorem run_establish (h : locator.base = .ok base) :
    ((establish locator config).run device state).1 =
      ((Selection.select base).run device state).1.bind fun interface =>
        ofInterface base interface config := by
  have hselect := runs_trace device (Selection.select base) state
  have hwhole := runs_trace device (establish locator config) state
  obtain ⟨found, hfound, hresult⟩ := (runs_establish_iff h).mp hwhole
  rw [trace_establish device state h] at hfound
  rw [hresult, hselect.result_unique hfound]

/-- What is selected can be connected to. -/
theorem exists_of_select (config : Config)
    (h : ((Selection.select base).run device state).1 = .ok interface) :
    ∃ connection, ofInterface base interface config = .ok connection := by
  have hruns := runs_trace device (Selection.select base) state
  rw [h] at hruns
  have hkind := (Selection.runs_select_iff.mp hruns).kind_ne
  obtain ⟨connection, hconnection, -⟩ := exists_ofInterface base config hkind
  exact ⟨connection, hconnection⟩

theorem run_establish_eq_error_iff {failure : Failure} (h : locator.base = .ok base) :
    ((establish locator config).run device state).1 = .error failure ↔
      ((Selection.select base).run device state).1 = .error failure := by
  rw [run_establish device state h]
  cases hselect : ((Selection.select base).run device state).1 with
  | error found => simp [Except.bind]
  | ok interface =>
    obtain ⟨connection, hconnection⟩ := exists_of_select device state config hselect
    simp [Except.bind, hconnection]

theorem run_select_eq_ok_iff (h : locator.base = .ok base) :
    ((Selection.select base).run device state).1 = .ok interface ↔
      ∃ connection, ((establish locator config).run device state).1 = .ok connection ∧
        connection.Speaks base config interface := by
  rw [run_establish device state h]
  constructor
  · intro hselect
    obtain ⟨connection, hconnection⟩ := exists_of_select device state config hselect
    rw [hselect]
    exact ⟨connection, hconnection, speaks_of_ofInterface hconnection⟩
  · rintro ⟨connection, hconnection, hspeaks⟩
    cases hselect : ((Selection.select base).run device state).1 with
    | error failure =>
      rw [hselect] at hconnection
      cases hconnection
    | ok found =>
      rw [hselect] at hconnection
      have hfound := speaks_of_ofInterface hconnection
      rw [← hfound.interface_eq, hspeaks.interface_eq]

end

end Connection

section
variable {σ : Type} (device : Device σ) (state : σ) (locator : Locator) (config : Config)

/-- A connection is established by reading alone, and what it speaks is what was selected. -/
theorem establish_isSelection :
    (∀ fault, locator.base = .error fault →
      (Connection.establish locator config).trace device state = [] ∧
        ((Connection.establish locator config).run device state).1 = .error .notConnected) ∧
      (∀ base, locator.base = .ok base →
        (Connection.establish locator config).trace device state =
            (Selection.select base).trace device state ∧
          (∀ event ∈ (Connection.establish locator config).trace device state,
            ∃ addr width answer, event = .read addr width answer) ∧
          (∀ failure, ((Connection.establish locator config).run device state).1 =
              .error failure ↔
            ((Selection.select base).run device state).1 = .error failure) ∧
          ∀ interface, ((Selection.select base).run device state).1 = .ok interface ↔
            ∃ connection,
              ((Connection.establish locator config).run device state).1 = .ok connection ∧
                connection.Speaks base config interface) ∧
      ∀ other : Locator, other.base = locator.base →
        (Connection.establish other config).trace device state =
            (Connection.establish locator config).trace device state ∧
          ((Connection.establish other config).run device state).1 =
            ((Connection.establish locator config).run device state).1 := by
  refine ⟨fun fault hfault => ?_, fun base hbase => ⟨?_, ?_, ?_, ?_⟩, fun other hother => ?_⟩
  · rw [Connection.establish_of_error hfault]
    exact ⟨rfl, rfl⟩
  · exact Connection.trace_establish device state hbase
  · rw [Connection.trace_establish device state hbase]
    have hruns := runs_trace device (Selection.select base) state
    exact (Selection.runs_select_iff.mp hruns).only_reads
  · intro failure
    exact Connection.run_establish_eq_error_iff device state hbase
  · intro interface
    exact Connection.run_select_eq_ok_iff device state hbase
  · cases hbase : locator.base with
    | error fault =>
      rw [hbase] at hother
      rw [Connection.establish_of_error hbase, Connection.establish_of_error hother]
      exact ⟨rfl, rfl⟩
    | ok base =>
      rw [hbase] at hother
      rw [Connection.trace_establish device state hbase,
        Connection.trace_establish device state hother,
        Connection.run_establish device state hbase,
        Connection.run_establish device state hother]
      exact ⟨rfl, rfl⟩

end

/-- Firmware declares a FIFO, the registers show a command buffer, and the registers decide: the
connection is the same as without a declaration. -/
theorem establish_isSelection_steadyChip :
    let declared : Locator := ⟨.ok 0, some .mmio⟩
    declared.base = .ok 0 ∧ (Locator.fixed 0).base = declared.base ∧
      (Connection.establish declared Config.default).trace (steadyChip 0x4211) () =
        (Selection.select 0).trace (steadyChip 0x4211) () ∧
      ((Selection.select 0).run (steadyChip 0x4211) ()).1 = .ok ⟨.commandBuffer, .supported⟩ ∧
      (∃ connection, ((Connection.establish declared Config.default).run (steadyChip 0x4211) ()).1 =
        .ok connection ∧
          connection.Speaks 0 Config.default ⟨.commandBuffer, .supported⟩) ∧
      ((Connection.establish (.fixed 0) Config.default).run (steadyChip 0x4211) ()).1 =
        ((Connection.establish declared Config.default).run (steadyChip 0x4211) ()).1 := by
  intro declared
  have hselect : ((Selection.select 0).run (steadyChip 0x4211) ()).1 =
      .ok ⟨.commandBuffer, .supported⟩ := by decide +kernel
  obtain ⟨-, hlocated, hsame⟩ :=
    establish_isSelection (steadyChip 0x4211) () declared Config.default
  obtain ⟨htrace, -, -, hconnected⟩ := hlocated 0 rfl
  exact ⟨rfl, rfl, htrace, hselect, (hconnected _).mp hselect, (hsame (.fixed 0) rfl).2⟩

end TpmLink

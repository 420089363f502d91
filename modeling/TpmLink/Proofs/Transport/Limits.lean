import TpmLink.Proofs.CommandBuffer.Limits
import TpmLink.Proofs.Fifo.Limits

/-!
# What every device is spared

Two promises about any device, however it misbehaves: no access leaves the page of the locality, and
no wait goes on for longer than the budgets allow.
-/

namespace TpmLink

open Script Trace

/-- A time rounded up to whole quanta. -/
def roundUp (quantum micros : Nat) : Nat := (micros + quantum - 1) / quantum * quantum

/-- A budget in microseconds as it is spent: rounded up to quanta, of which zero counts as one. -/
def spent (timeouts : Timeouts) (micros : Nat) : Nat :=
  roundUp (max 1 timeouts.pollQuantum) micros

/-- No budget passes the word that it is counted in. -/
structure Timeouts.Fits (timeouts : Timeouts) : Prop where
  b : spent timeouts timeouts.b < UInt64.size
  c : spent timeouts timeouts.c < UInt64.size
  d : spent timeouts timeouts.d < UInt64.size
  max : spent timeouts timeouts.max < UInt64.size

theorem probes_mul {timeouts : Timeouts} {micros : Nat} (h : spent timeouts micros < UInt64.size) :
    timeouts.probes micros * max 1 timeouts.pollQuantum = spent timeouts micros := by
  have hfits : timeouts.poller.Fits micros := h
  rw [Timeouts.probes, hfits.probes_eq]
  rfl

/-- Every stall has the length of the quantum. -/
def Trace.Steady (quantum : Nat) (trace : Trace) : Prop :=
  ∀ length, .stall length ∈ trace → length = quantum

/-- The stalls come to so many microseconds in all at most, and the accesses to so many. -/
structure Trace.Patient (micros accesses : Nat) (trace : Trace) : Prop where
  stalled_le : trace.stalled ≤ micros
  accessCount_le : trace.accessCount ≤ accesses

section
variable {base quantum stalls accesses : Nat} {writable : Nat → Width → UInt64 → Prop}
  {trace : Trace}

theorem Trace.steady_of_spends
    (h : trace.Spends (Event.Obeys base writable quantum) stalls accesses) :
    trace.Steady quantum :=
  fun _ hmem => h.only _ hmem

theorem Trace.patient_of_spends
    (h : trace.Spends (Event.Obeys base writable quantum) stalls accesses) :
    trace.Patient (stalls * quantum) accesses where
  stalled_le := h.stalled_le fun _ hstall => hstall
  accessCount_le := h.accessCount_le

end

/-! ### Time -/

theorem CommandBuffer.stallLimit_mul {link : CommandBuffer} (h : link.timeouts.Fits) :
    link.stallLimit * max 1 link.timeouts.pollQuantum =
      3 * max 1 link.timeouts.retryMax * spent link.timeouts link.timeouts.c +
        spent link.timeouts link.timeouts.max + spent link.timeouts link.timeouts.b := by
  simp only [stallLimit, probes, Nat.add_mul, Nat.mul_assoc, probes_mul h.b, probes_mul h.c,
    probes_mul h.max]

theorem Fifo.stallLimit_mul {link : Fifo} (h : link.timeouts.Fits) (length capacity : Nat) :
    link.stallLimit length capacity * max 1 link.timeouts.pollQuantum =
      2 * spent link.timeouts link.timeouts.b + spent link.timeouts link.timeouts.c +
        spent link.timeouts link.timeouts.max +
        (length + max Header.size capacity) * spent link.timeouts link.timeouts.d := by
  simp only [stallLimit, probes, Nat.add_mul, Nat.mul_assoc, probes_mul h.b, probes_mul h.c,
    probes_mul h.d, probes_mul h.max]

section
variable {σ : Type} (device : Device σ) (state : σ) (buffer : CommandBuffer) (fifo : Fifo)
  (command : Bytes) (maxResponse : Nat)

/-- Every stall of a command is one quantum long, and every command ends within its budgets as long
as none of them passes the word that it is counted in. On the command buffer each attempt may wait
three times; on the FIFO each byte of the command and of the response may wait once. -/
theorem execute_isPatient :
    Trace.Steady (max 1 buffer.timeouts.pollQuantum)
        ((buffer.execute command maxResponse).trace device state) ∧
      Trace.Steady (max 1 fifo.timeouts.pollQuantum)
        ((fifo.execute command maxResponse).trace device state) ∧
      (buffer.timeouts.Fits → Trace.Patient
        (3 * max 1 buffer.timeouts.retryMax * spent buffer.timeouts buffer.timeouts.c +
          spent buffer.timeouts buffer.timeouts.max + spent buffer.timeouts buffer.timeouts.b)
        (buffer.accessLimit command.length (min maxResponse dataBufferSize))
        ((buffer.execute command maxResponse).trace device state)) ∧
      (fifo.timeouts.Fits → Trace.Patient
        (2 * spent fifo.timeouts fifo.timeouts.b + spent fifo.timeouts fifo.timeouts.c +
          spent fifo.timeouts fifo.timeouts.max +
          (command.length + max Header.size maxResponse) * spent fifo.timeouts fifo.timeouts.d)
        (fifo.accessLimit command.length maxResponse)
        ((fifo.execute command maxResponse).trace device state)) := by
  have hbuffer := CommandBuffer.bounded_execute _ _
    (runs_trace device (buffer.execute command maxResponse) state)
  have hfifo := Fifo.bounded_execute _ _
    (runs_trace device (fifo.execute command maxResponse) state)
  refine ⟨steady_of_spends hbuffer, steady_of_spends hfifo, fun hfits => ?_, fun hfits => ?_⟩
  · rw [← CommandBuffer.stallLimit_mul hfits]
    exact patient_of_spends hbuffer
  · rw [← Fifo.stallLimit_mul hfits]
    exact patient_of_spends hfifo

/-- A chip that reads as zero everywhere and takes all writes. -/
def zeroChip : Device Unit where
  read _ _ _ := (.ok 0, ())
  write _ _ _ _ := (.ok (), ())
  stall _ _ := ()
  note _ _ := ()

/-- The zero chip is never seen idle, and with the usual budgets it is given up in time. -/
theorem execute_isPatient_zeroChip :
    let buffer : CommandBuffer := ⟨defaultBase, .notSupported, .commandBuffer⟩
    buffer.timeouts.Fits ∧
      ((buffer.execute [0x80, 0x01] 16).trace zeroChip ()).stalled ≤ 94 * 1000 * 1000 := by
  intro buffer
  have hfits : buffer.timeouts.Fits := by
    constructor <;> decide
  obtain ⟨-, -, hpatient, -⟩ :=
    execute_isPatient zeroChip () buffer ⟨defaultBase, .fifo⟩ [0x80, 0x01] 16
  exact ⟨hfits, Nat.le_trans (hpatient hfits).stalled_le (by decide)⟩

/-! ### Place -/

/-- No access leaves the page, whatever the chip answers: the selection of an interface only reads,
and a command writes only to the places that are meant for it. -/
theorem accesses_inPage (base : Nat) :
    Trace.Confined base (fun _ _ _ => False) ((Selection.probe base).trace device state) ∧
      Trace.Confined base (fun _ _ _ => False) ((Selection.select base).trace device state) ∧
      Trace.Confined buffer.base (buffer.Writable command.length)
        ((buffer.execute command maxResponse).trace device state) ∧
      Trace.Confined fifo.base fifo.Writable
        ((fifo.execute command maxResponse).trace device state) :=
  ⟨confined_of_obeys (Selection.only_probe _ _ (runs_trace device _ state)),
    confined_of_obeys (Selection.only_select _ _ (runs_trace device _ state)),
    confined_of_obeys (CommandBuffer.bounded_execute _ _ (runs_trace device _ state)).only,
    confined_of_obeys (Fifo.bounded_execute _ _ (runs_trace device _ state)).only⟩

end

end TpmLink

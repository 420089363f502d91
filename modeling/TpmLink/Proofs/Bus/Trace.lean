import TpmLink.Script
import TpmLink.Wait

/-!
# Traces of scripts

A trace is what the bus sees of a run: the accesses with the answers they got, and the stalls. A
script runs through a trace to a result if it makes these accesses as long as the bus answers as the
trace says. Every run on a device is such a trace, so what holds of all traces holds on all devices.
A trace of a script in parts splits into traces of its parts.
-/

namespace TpmLink

/-- What the bus sees. -/
inductive Event where
  | read (addr : Nat) (width : Width) (answer : Except BusFault UInt64)
  | write (addr : Nat) (width : Width) (value : UInt64) (answer : Except BusFault Unit)
  | stall (micros : Nat)

abbrev Trace : Type := List Event

namespace Script

variable {α β σ : Type}

/-- The script may make these accesses and end so, if the bus answers as the trace says. -/
inductive Runs : Script α → Trace → Except Failure α → Prop where
  | done (result : Except Failure α) : Runs (done result) [] result
  | read {addr : Nat} {width : Width} {next : Except BusFault UInt64 → Script α} {trace : Trace}
      {result : Except Failure α} (answer : Except BusFault UInt64)
      (rest : Runs (next answer) trace result) :
      Runs (read addr width next) (.read addr width answer :: trace) result
  | write {addr : Nat} {width : Width} {value : UInt64} {next : Except BusFault Unit → Script α}
      {trace : Trace} {result : Except Failure α} (answer : Except BusFault Unit)
      (rest : Runs (next answer) trace result) :
      Runs (write addr width value next) (.write addr width value answer :: trace) result
  | stall {micros : Nat} {next : Script α} {trace : Trace} {result : Except Failure α}
      (rest : Runs next trace result) : Runs (stall micros next) (.stall micros :: trace) result
  | note {notice : Notice} {next : Script α} {trace : Trace} {result : Except Failure α}
      (rest : Runs next trace result) : Runs (note notice next) trace result

/-- What the bus sees of the run on a device. -/
def trace (device : Device σ) : Script α → σ → Trace
  | done _, _ => []
  | read addr width next, state =>
    .read addr width (device.read addr width state).1 ::
      (next (device.read addr width state).1).trace device (device.read addr width state).2
  | write addr width value next, state =>
    .write addr width value (device.write addr width value state).1 ::
      (next (device.write addr width value state).1).trace device
        (device.write addr width value state).2
  | stall micros next, state => .stall micros :: next.trace device (device.stall micros state)
  | note notice next, state => next.trace device (device.note notice state)

/-- A run on a device is one of the runs that the answers of a bus allow. -/
theorem runs_trace (device : Device σ) (script : Script α) (state : σ) :
    script.Runs (script.trace device state) (script.run device state).1 := by
  induction script generalizing state with
  | done result => exact .done result
  | read addr width next ih => exact .read _ (ih _ _)
  | write addr width value next ih => exact .write _ (ih _ _)
  | stall micros next ih => exact .stall (ih _)
  | note notice next ih => exact .note (ih _)

/-- A device that answers as a trace says. Its state is what is left of the trace. -/
def player : Device Trace where
  read _ _
    | .read _ _ answer :: rest => (answer, rest)
    | rest => (.error (.unmapped 0), rest)
  write _ _ _
    | .write _ _ _ answer :: rest => (answer, rest)
    | rest => (.error (.unmapped 0), rest)
  stall _ rest := rest.tail
  note _ rest := rest

/-- A script runs through a trace to a result just where it does so on some device. -/
theorem runs_iff_exists_device {script : Script α} {trace : Trace} {result : Except Failure α} :
    script.Runs trace result ↔ ∃ (σ : Type) (device : Device σ) (state : σ),
      script.trace device state = trace ∧ (script.run device state).1 = result := by
  constructor
  · intro h
    refine ⟨Trace, player, trace, ?_⟩
    induction h with
    | done => exact ⟨rfl, rfl⟩
    | read answer _ ih => exact ⟨congrArg (Event.read _ _ answer :: ·) ih.1, ih.2⟩
    | write answer _ ih => exact ⟨congrArg (Event.write _ _ _ answer :: ·) ih.1, ih.2⟩
    | stall _ ih => exact ⟨congrArg (Event.stall _ :: ·) ih.1, ih.2⟩
    | note _ ih => exact ih
  · rintro ⟨σ, device, state, rfl, rfl⟩
    exact runs_trace device script state

/-! ### Runs on a device -/

section
variable (device : Device σ)

/-- What goes on after a script starts on the device that the script leaves behind. -/
theorem trace_andThen (script : Script α) (next : Except Failure α → Script β) (state : σ) :
    (script.andThen next).trace device state =
      script.trace device state ++
        (next (script.run device state).1).trace device (script.run device state).2 := by
  induction script generalizing state with
  | done => rfl
  | read addr width rest ih => exact congrArg (Event.read _ _ _ :: ·) (ih _ _)
  | write addr width value rest ih => exact congrArg (Event.write _ _ _ _ :: ·) (ih _ _)
  | stall micros rest ih => exact congrArg (Event.stall _ :: ·) (ih _)
  | note notice rest ih => exact ih _

theorem run_andThen (script : Script α) (next : Except Failure α → Script β) (state : σ) :
    (script.andThen next).run device state =
      (next (script.run device state).1).run device (script.run device state).2 := by
  induction script generalizing state with
  | done => rfl
  | read addr width rest ih => exact ih _ _
  | write addr width value rest ih => exact ih _ _
  | stall micros rest ih => exact ih _
  | note notice rest ih => exact ih _

variable {script : Script α} {next : α → Script β} {state : σ}

theorem trace_bind_of_ok {value : α} (h : (script.run device state).1 = .ok value) :
    (script >>= next).trace device state =
      script.trace device state ++ (next value).trace device (script.run device state).2 := by
  change (script.andThen _).trace device state = _
  rw [trace_andThen, h]

theorem trace_bind_of_error {failure : Failure}
    (h : (script.run device state).1 = .error failure) :
    (script >>= next).trace device state = script.trace device state := by
  change (script.andThen _).trace device state = _
  rw [trace_andThen, h]
  exact List.append_nil _

theorem run_bind_of_ok {value : α} (h : (script.run device state).1 = .ok value) :
    (script >>= next).run device state =
      (next value).run device (script.run device state).2 := by
  change (script.andThen _).run device state = _
  rw [run_andThen, h]

theorem run_bind_of_error {failure : Failure}
    (h : (script.run device state).1 = .error failure) :
    (script >>= next).run device state = (.error failure, (script.run device state).2) := by
  change (script.andThen _).run device state = _
  rw [run_andThen, h]
  rfl

end

/-! ### Names of places -/

/-- The script with other names for the places that it accesses. -/
def rename (name : Nat → Nat) : Script α → Script α
  | done result => done result
  | read addr width next => read (name addr) width fun answer => (next answer).rename name
  | write addr width value next =>
    write (name addr) width value fun answer => (next answer).rename name
  | stall micros next => stall micros (next.rename name)
  | note notice next => note notice (next.rename name)

/-- With other names for its places, a script does on a device what it does without them on the
device that goes by these names. So what holds on all devices holds under any names, and so it does
on a bus of 64 bits, where the places past the last one have the names of the first ones. -/
theorem run_rename (name : Nat → Nat) (device : Device σ) (script : Script α) (state : σ) :
    (script.rename name).run device state =
      script.run
        { device with
          read := fun addr => device.read (name addr)
          write := fun addr => device.write (name addr) }
        state := by
  induction script generalizing state with
  | done => rfl
  | read addr width next ih => exact ih _ _
  | write addr width value next ih => exact ih _ _
  | stall micros next ih => exact ih _
  | note notice next ih => exact ih _

/-! ### Parts -/

theorem runs_done_iff {trace : Trace} {result found : Except Failure α} :
    (done result).Runs trace found ↔ trace = [] ∧ found = result := by
  constructor
  · intro h
    cases h
    exact ⟨rfl, rfl⟩
  · rintro ⟨rfl, rfl⟩
    exact .done _

/-- A script that goes on after another runs through a trace of each. -/
theorem runs_andThen_iff {script : Script α} {next : Except Failure α → Script β} {trace : Trace}
    {result : Except Failure β} :
    (script.andThen next).Runs trace result ↔
      ∃ front back middle, trace = front ++ back ∧ script.Runs front middle ∧
        (next middle).Runs back result := by
  constructor
  · intro h
    induction script generalizing trace with
    | done found => exact ⟨[], trace, found, rfl, .done found, h⟩
    | read addr width rest ih =>
      cases h with
      | read answer hrest =>
        obtain ⟨front, back, middle, rfl, hfront, hback⟩ := ih answer hrest
        exact ⟨_, back, middle, rfl, .read answer hfront, hback⟩
    | write addr width value rest ih =>
      cases h with
      | write answer hrest =>
        obtain ⟨front, back, middle, rfl, hfront, hback⟩ := ih answer hrest
        exact ⟨_, back, middle, rfl, .write answer hfront, hback⟩
    | stall micros rest ih =>
      cases h with
      | stall hrest =>
        obtain ⟨front, back, middle, rfl, hfront, hback⟩ := ih hrest
        exact ⟨_, back, middle, rfl, .stall hfront, hback⟩
    | note notice rest ih =>
      cases h with
      | note hrest =>
        obtain ⟨front, back, middle, rfl, hfront, hback⟩ := ih hrest
        exact ⟨_, back, middle, rfl, .note hfront, hback⟩
  · rintro ⟨front, back, middle, rfl, hfront, hback⟩
    induction hfront with
    | done found => exact hback
    | read answer _ ih => exact .read answer (ih hback)
    | write answer _ ih => exact .write answer (ih hback)
    | stall _ ih => exact .stall (ih hback)
    | note _ ih => exact .note (ih hback)

theorem runs_pure_iff {value : α} {trace : Trace} {result : Except Failure α} :
    (pure value : Script α).Runs trace result ↔ trace = [] ∧ result = .ok value :=
  runs_done_iff

theorem runs_throw_iff {failure : Failure} {trace : Trace} {result : Except Failure α} :
    (throw failure : Script α).Runs trace result ↔ trace = [] ∧ result = .error failure :=
  runs_done_iff

/-- A script that goes on with a value ends in the failure of the first part, or runs through both
parts. -/
theorem runs_bind_iff {script : Script α} {next : α → Script β} {trace : Trace}
    {result : Except Failure β} :
    (script >>= next).Runs trace result ↔
      (∃ failure, result = .error failure ∧ script.Runs trace (.error failure)) ∨
      ∃ front back value, trace = front ++ back ∧ script.Runs front (.ok value) ∧
        (next value).Runs back result := by
  change (script.andThen _).Runs trace result ↔ _
  rw [runs_andThen_iff]
  constructor
  · rintro ⟨front, back, middle, rfl, hfront, hback⟩
    cases middle with
    | ok value => exact .inr ⟨front, back, value, rfl, hfront, hback⟩
    | error failure =>
      obtain ⟨rfl, rfl⟩ := runs_done_iff.mp hback
      exact .inl ⟨failure, rfl, by rwa [List.append_nil]⟩
  · rintro (⟨failure, rfl, hfront⟩ | ⟨front, back, value, rfl, hfront, hback⟩)
    · exact ⟨trace, [], .error failure, by simp, hfront, .done _⟩
    · exact ⟨front, back, .ok value, rfl, hfront, hback⟩

/-- Scripts that go on in the same way behind each value have the same runs. -/
theorem runs_bind_congr {script : Script α} {next next' : α → Script β} {trace : Trace}
    {result : Except Failure β}
    (h : ∀ front back value, script.Runs front (.ok value) →
      ((next value).Runs back result ↔ (next' value).Runs back result)) :
    (script >>= next).Runs trace result ↔ (script >>= next').Runs trace result := by
  rw [runs_bind_iff, runs_bind_iff]
  refine or_congr_right (exists_congr fun front => exists_congr fun back => ?_)
  exact exists_congr fun value => and_congr_right fun _ => and_congr_right fun hfront =>
    h front back value hfront

/-- A script that goes on with a value succeeds where both parts do. -/
theorem runs_bind_ok_iff {script : Script α} {next : α → Script β} {trace : Trace} {result : β} :
    (script >>= next).Runs trace (.ok result) ↔
      ∃ front back value, trace = front ++ back ∧ script.Runs front (.ok value) ∧
        (next value).Runs back (.ok result) := by
  rw [runs_bind_iff]
  constructor
  · rintro (⟨failure, hresult, -⟩ | hparts)
    · cases hresult
    · exact hparts
  · exact .inr

/-- A script that goes on with a value fails where one of its parts does. -/
theorem runs_bind_error_iff {script : Script α} {next : α → Script β} {trace : Trace}
    {failure : Failure} :
    (script >>= next).Runs trace (.error failure) ↔
      script.Runs trace (.error failure) ∨
      ∃ front back value, trace = front ++ back ∧ script.Runs front (.ok value) ∧
        (next value).Runs back (.error failure) := by
  rw [runs_bind_iff]
  constructor
  · rintro (⟨found, hfound, hfront⟩ | hparts)
    · cases hfound
      exact .inl hfront
    · exact .inr hparts
  · rintro (hfront | hparts)
    · exact .inl ⟨failure, rfl, hfront⟩
    · exact .inr hparts

theorem runs_note_iff {notice : Notice} {trace : Trace} {result : Except Failure Unit} :
    (Journal.note notice : Script Unit).Runs trace result ↔ trace = [] ∧ result = .ok () := by
  constructor
  · intro h
    cases h with
    | note hrest => exact runs_done_iff.mp hrest
  · rintro ⟨rfl, rfl⟩
    exact .note (.done _)

theorem runs_note_bind_iff {notice : Notice} {next : Unit → Script α} {trace : Trace}
    {result : Except Failure α} :
    ((Journal.note notice : Script Unit) >>= next).Runs trace result ↔
      (next ()).Runs trace result := by
  change (note notice (next ())).Runs trace result ↔ _
  constructor
  · intro h
    cases h with
    | note hrest => exact hrest
  · exact .note

theorem runs_stall_bind_iff {micros : Nat} {next : Unit → Script α} {trace : Trace}
    {result : Except Failure α} :
    ((Clock.stall micros : Script Unit) >>= next).Runs trace result ↔
      ∃ rest, trace = .stall micros :: rest ∧ (next ()).Runs rest result := by
  change (stall micros (next ())).Runs trace result ↔ _
  constructor
  · intro h
    cases h with
    | stall hrest => exact ⟨_, rfl, hrest⟩
  · rintro ⟨rest, rfl, hrest⟩
    exact .stall hrest

/-- A script that goes on after a time-out keeps any other result. -/
theorem runs_onTimeout_iff {script next : Script α} {trace : Trace} {result : Except Failure α} :
    (onTimeout script next).Runs trace result ↔
      (result ≠ .error .timeout ∧ script.Runs trace result) ∨
      ∃ front back, trace = front ++ back ∧ script.Runs front (.error .timeout) ∧
        next.Runs back result := by
  change (script.andThen _).Runs trace result ↔ _
  rw [runs_andThen_iff]
  constructor
  · rintro ⟨front, back, middle, rfl, hfront, hback⟩
    by_cases htimeout : middle = .error .timeout
    · subst htimeout
      exact .inr ⟨front, back, rfl, hfront, hback⟩
    · have hend : back = [] ∧ result = middle := by
        cases middle with
        | ok value => exact runs_done_iff.mp hback
        | error failure =>
          cases failure with
          | timeout => exact absurd rfl htimeout
          | _ => exact runs_done_iff.mp hback
      obtain ⟨rfl, rfl⟩ := hend
      exact .inl ⟨htimeout, by rwa [List.append_nil]⟩
  · rintro (⟨htimeout, hscript⟩ | ⟨front, back, rfl, hfront, hback⟩)
    · refine ⟨trace, [], result, by simp, hscript, ?_⟩
      cases result with
      | ok value => exact .done _
      | error failure =>
        cases failure with
        | timeout => exact absurd rfl htimeout
        | _ => exact .done _
    · exact ⟨front, back, _, rfl, hfront, hback⟩

/-- Reporting a time-out and failing differently changes the result alone. -/
theorem runs_onTimeout_throw_iff {script : Script α} {notice : Notice} {failure : Failure}
    {trace : Trace} {result : Except Failure α} :
    (onTimeout script (Journal.note notice >>= fun _ => throw failure)).Runs trace result ↔
      (result ≠ .error .timeout ∧ script.Runs trace result) ∨
      (result = .error failure ∧ script.Runs trace (.error .timeout)) := by
  rw [runs_onTimeout_iff]
  constructor
  · rintro (hsame | ⟨front, back, rfl, hfront, hback⟩)
    · exact .inl hsame
    · have hthrow := runs_note_bind_iff.mp hback
      obtain ⟨rfl, rfl⟩ := runs_throw_iff.mp hthrow
      rw [List.append_nil]
      exact .inr ⟨rfl, hfront⟩
  · rintro (hsame | ⟨rfl, hfront⟩)
    · exact .inl hsame
    · exact .inr
        ⟨trace, [], by simp, hfront, runs_note_bind_iff.mpr (runs_throw_iff.mpr ⟨rfl, rfl⟩)⟩

/-- Reporting a time-out and failing differently does nothing on the bus. -/
theorem runs_onTimeout_throw {script : Script α} {notice : Notice} {failure : Failure}
    {trace : Trace} {result : Except Failure α}
    (h : (onTimeout script (Journal.note notice >>= fun _ => throw failure)).Runs trace result) :
    ∃ found, script.Runs trace found ∧ ∀ value, result = .ok value → found = .ok value := by
  rcases runs_onTimeout_iff.mp h with ⟨-, hscript⟩ | ⟨front, back, rfl, hfront, hback⟩
  · exact ⟨result, hscript, fun _ hresult => hresult⟩
  · have hthrow := runs_note_bind_iff.mp hback
    obtain ⟨rfl, rfl⟩ := runs_throw_iff.mp hthrow
    rw [List.append_nil]
    exact ⟨_, hfront, fun value hresult => by cases hresult⟩

/-- A script that is observed never fails, so what goes on learns the result. -/
theorem runs_observe_bind_iff {script : Script α} {next : Except Failure α → Script β}
    {trace : Trace} {result : Except Failure β} :
    (script.observe >>= next).Runs trace result ↔
      ∃ front back found, trace = front ++ back ∧ script.Runs front found ∧
        (next found).Runs back result := by
  change ((script.andThen fun found => done (.ok found)).andThen _).Runs trace result ↔ _
  rw [andThen_andThen]
  exact runs_andThen_iff

/-- The exit runs after the script whatever the result, which stays. -/
theorem runs_ensuring_iff {script : Script α} {exit : Script Unit} {trace : Trace}
    {result : Except Failure α} :
    (script.ensuring exit).Runs trace result ↔
      ∃ front back left, trace = front ++ back ∧ script.Runs front result ∧
        exit.Runs back left := by
  rw [ensuring, runs_andThen_iff]
  constructor
  · rintro ⟨front, _, found, rfl, hfront, hrest⟩
    obtain ⟨back, _, left, rfl, hback, hend⟩ := runs_andThen_iff.mp hrest
    obtain ⟨rfl, rfl⟩ := runs_done_iff.mp hend
    exact ⟨front, back, left, by rw [List.append_nil], hfront, hback⟩
  · rintro ⟨front, back, left, rfl, hfront, hback⟩
    exact ⟨front, back, result, rfl, hfront,
      runs_andThen_iff.mpr ⟨back, [], left, by simp, hback, .done _⟩⟩

/-- An exit that is a single write decides nothing, whatever the answer to it. -/
theorem runs_ensuring_write_iff {script : Script α} {exit : Script Unit} {addr : Nat}
    {width : Width} {value : UInt64} {trace : Trace} {result : Except Failure α}
    (hexit : ∀ back left, exit.Runs back left ↔
      ∃ answer, back = [.write addr width value answer] ∧ left = .ok ()) :
    (script.ensuring exit).Runs trace result ↔
      ∃ middle answer, trace = middle ++ [.write addr width value answer] ∧
        script.Runs middle result := by
  rw [runs_ensuring_iff]
  constructor
  · rintro ⟨middle, back, left, rfl, hmiddle, hback⟩
    obtain ⟨answer, rfl, -⟩ := (hexit _ _).mp hback
    exact ⟨middle, answer, rfl, hmiddle⟩
  · rintro ⟨middle, answer, rfl, hmiddle⟩
    exact ⟨middle, _, .ok (), rfl, hmiddle, (hexit _ _).mpr ⟨answer, rfl, rfl⟩⟩

/-! ### Single accesses -/

/-- The outcome of an access whose fault is a failure. -/
def checkedResult : Except BusFault α → Except Failure α
  | .ok value => .ok value
  | .error _ => .error .io

theorem eq_ok_of_checkedResult {answer : Except BusFault α} {value : α}
    (h : .ok value = checkedResult answer) : answer = .ok value := by
  cases answer with
  | ok value' =>
    cases h
    rfl
  | error fault => cases h

theorem runs_accept_iff {answer : Except BusFault α} {trace : Trace}
    {result : Except Failure α} :
    (accept answer).Runs trace result ↔ trace = [] ∧ result = checkedResult answer := by
  cases answer with
  | ok value => exact runs_done_iff
  | error fault =>
    constructor
    · intro h
      cases h with
      | note hrest => exact runs_done_iff.mp hrest
    · rintro ⟨rfl, rfl⟩
      exact .note (.done _)

/-- A checked read takes one event and keeps the low bits of the answer. -/
theorem runs_checked_read_iff {addr : Nat} {width : Width} {cut : UInt64 → α} {trace : Trace}
    {result : Except Failure α} :
    (checked (read addr width fun answer => done (.ok (answer.map cut)))).Runs trace result ↔
      ∃ answer, trace = [.read addr width answer] ∧ result = checkedResult (answer.map cut) := by
  constructor
  · intro h
    cases h with
    | read answer hrest =>
      obtain ⟨rfl, rfl⟩ := runs_accept_iff.mp hrest
      exact ⟨answer, rfl, rfl⟩
  · rintro ⟨answer, rfl, rfl⟩
    exact .read answer (runs_accept_iff.mpr ⟨rfl, rfl⟩)

theorem runs_checked_write_iff {addr : Nat} {width : Width} {value : UInt64} {trace : Trace}
    {result : Except Failure Unit} :
    (checked (write addr width value fun answer => done (.ok answer))).Runs trace result ↔
      ∃ answer, trace = [.write addr width value answer] ∧ result = checkedResult answer := by
  constructor
  · intro h
    cases h with
    | write answer hrest =>
      obtain ⟨rfl, rfl⟩ := runs_accept_iff.mp hrest
      exact ⟨answer, rfl, rfl⟩
  · rintro ⟨answer, rfl, rfl⟩
    exact .write answer (runs_accept_iff.mpr ⟨rfl, rfl⟩)

/-- A write whose answer is only taken note of succeeds in one event. -/
theorem runs_noted_write_iff {addr : Nat} {width : Width} {value : UInt64}
    {next : Except BusFault Unit → Script Unit} {trace : Trace} {result : Except Failure Unit}
    (hnext : ∀ answer rest found, (next answer).Runs rest found ↔ rest = [] ∧ found = .ok ()) :
    (write addr width value (fun answer => done (.ok answer)) >>= next).Runs trace result ↔
      ∃ answer, trace = [.write addr width value answer] ∧ result = .ok () := by
  constructor
  · intro h
    cases h with
    | write answer hrest =>
      obtain ⟨rfl, rfl⟩ := (hnext _ _ _).mp hrest
      exact ⟨answer, rfl, rfl⟩
  · rintro ⟨answer, rfl, rfl⟩
    exact .write answer ((hnext _ _ _).mpr ⟨rfl, rfl⟩)

/-- A checked write ends the whole where it fails, and is followed by the rest where it succeeds. -/
theorem runs_checked_write_bind_iff {addr : Nat} {width : Width} {value : UInt64}
    {next : Unit → Script α} {trace : Trace} {result : Except Failure α} :
    (checked (write addr width value fun answer => done (.ok answer)) >>= next).Runs trace result ↔
      (∃ fault, trace = [.write addr width value (.error fault)] ∧ result = .error .io) ∨
      ∃ rest, trace = .write addr width value (.ok ()) :: rest ∧ (next ()).Runs rest result := by
  rw [runs_bind_iff]
  constructor
  · rintro (⟨failure, rfl, hwrite⟩ | ⟨front, rest, ⟨⟩, rfl, hwrite, hrest⟩)
    · obtain ⟨answer, rfl, hanswer⟩ := runs_checked_write_iff.mp hwrite
      cases answer with
      | ok value => cases hanswer
      | error fault =>
        cases hanswer
        exact .inl ⟨fault, rfl, rfl⟩
    · obtain ⟨answer, rfl, hanswer⟩ := runs_checked_write_iff.mp hwrite
      rw [eq_ok_of_checkedResult hanswer]
      exact .inr ⟨rest, rfl, hrest⟩
  · rintro (⟨fault, rfl, rfl⟩ | ⟨rest, rfl, hrest⟩)
    · exact .inl ⟨.io, rfl, runs_checked_write_iff.mpr ⟨.error fault, rfl, rfl⟩⟩
    · exact .inr ⟨_, rest, (), rfl, runs_checked_write_iff.mpr ⟨.ok (), rfl, rfl⟩, hrest⟩

/-- With another result than `io` the write was made. -/
theorem runs_past_write_iff {addr : Nat} {width : Width} {value : UInt64}
    {next : Unit → Script α} {trace : Trace} {result : Except Failure α}
    (h : result ≠ .error .io) :
    (checked (write addr width value fun answer => done (.ok answer)) >>= next).Runs trace result ↔
      ∃ rest, trace = .write addr width value (.ok ()) :: rest ∧ (next ()).Runs rest result := by
  rw [runs_checked_write_bind_iff, or_iff_right]
  rintro ⟨fault, -, hresult⟩
  exact h hresult

/-- A checked read ends the whole where it fails, and is followed by the rest where it succeeds. -/
theorem runs_checked_read_bind_iff {addr : Nat} {width : Width} {cut : UInt64 → α}
    {next : α → Script β} {trace : Trace} {result : Except Failure β} :
    (checked (read addr width fun answer => done (.ok (answer.map cut))) >>= next).Runs trace
        result ↔
      (∃ fault, trace = [.read addr width (.error fault)] ∧ result = .error .io) ∨
      ∃ raw rest, trace = .read addr width (.ok raw) :: rest ∧
        (next (cut raw)).Runs rest result := by
  rw [runs_bind_iff]
  constructor
  · rintro (⟨failure, rfl, hread⟩ | ⟨front, rest, value, rfl, hread, hrest⟩)
    · obtain ⟨answer, rfl, hanswer⟩ := runs_checked_read_iff.mp hread
      cases answer with
      | ok raw => cases hanswer
      | error fault =>
        cases hanswer
        exact .inl ⟨fault, rfl, rfl⟩
    · obtain ⟨answer, rfl, hanswer⟩ := runs_checked_read_iff.mp hread
      cases answer with
      | error fault => cases hanswer
      | ok raw =>
        cases hanswer
        exact .inr ⟨raw, rest, rfl, hrest⟩
  · rintro (⟨fault, rfl, rfl⟩ | ⟨raw, rest, rfl, hrest⟩)
    · exact .inl ⟨.io, rfl, runs_checked_read_iff.mpr ⟨.error fault, rfl, rfl⟩⟩
    · exact .inr
        ⟨_, rest, cut raw, rfl, runs_checked_read_iff.mpr ⟨.ok raw, rfl, rfl⟩, hrest⟩

/-- With another result than `io` the read was made. -/
theorem runs_past_read_iff {addr : Nat} {width : Width} {cut : UInt64 → α} {next : α → Script β}
    {trace : Trace} {result : Except Failure β} (h : result ≠ .error .io) :
    (checked (read addr width fun answer => done (.ok (answer.map cut))) >>= next).Runs trace
        result ↔
      ∃ raw rest, trace = .read addr width (.ok raw) :: rest ∧
        (next (cut raw)).Runs rest result := by
  rw [runs_checked_read_bind_iff, or_iff_right]
  rintro ⟨fault, -, hresult⟩
  exact h hresult

/-- What goes on after a checked write does so only where the write succeeds. -/
theorem runs_checked_write_bind {addr : Nat} {width : Width} {value : UInt64}
    {next : Unit → Script α} {trace : Trace} {result : Except Failure α}
    (h : (checked (write addr width value fun answer => done (.ok answer)) >>= next).Runs trace
      result) :
    ∃ answer rest, trace = .write addr width value answer :: rest ∧
      ((rest = [] ∧ ∃ failure, result = .error failure) ∨
        (answer = .ok () ∧ (next ()).Runs rest result)) := by
  rcases runs_bind_iff.mp h with ⟨failure, rfl, hwrite⟩ | ⟨front, rest, ⟨⟩, rfl, hwrite, hrest⟩
  · obtain ⟨answer, rfl, -⟩ := runs_checked_write_iff.mp hwrite
    exact ⟨answer, [], rfl, .inl ⟨rfl, failure, rfl⟩⟩
  · obtain ⟨answer, rfl, hanswer⟩ := runs_checked_write_iff.mp hwrite
    exact ⟨answer, rest, rfl, .inr ⟨eq_ok_of_checkedResult hanswer, hrest⟩⟩

end Script

end TpmLink

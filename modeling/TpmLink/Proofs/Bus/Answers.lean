import TpmLink.Proofs.Bus.Order
import TpmLink.Proofs.Bus.Reach

/-!
# What the answers of the bus decide

The answers decide the run: of two runs that see the same, neither goes on where the other ends, and
they have the same result. Some answers decide nothing: a script ignores the answers to a kind of
writes if any of them may be replaced without a change to what follows.
-/

namespace TpmLink

namespace Script

variable {α β : Type} {kind : Event → Prop} {script : Script α} {trace front back : Trace}

/-! ### Runs are decided -/

/-- Runs that agree as far as both of them go are the same run. -/
theorem Runs.unique {front' back' : Trace} {result result' : Except Failure α}
    (h : script.Runs front result) (h' : script.Runs front' result')
    (heq : front ++ back = front' ++ back') : front = front' ∧ back = back' ∧ result = result' := by
  -- The events of a read and a write hold the answer, so both runs go on with the same script.
  induction h generalizing front' with
  | done =>
    cases h'
    exact ⟨rfl, heq, rfl⟩
  | read answer _ ih =>
    cases h' with
    | read answer' hrest' =>
      obtain ⟨hevent, htail⟩ := List.cons.inj heq
      cases hevent
      obtain ⟨rfl, hback, hresult⟩ := ih hrest' htail
      exact ⟨rfl, hback, hresult⟩
  | write answer _ ih =>
    cases h' with
    | write answer' hrest' =>
      obtain ⟨hevent, htail⟩ := List.cons.inj heq
      cases hevent
      obtain ⟨rfl, hback, hresult⟩ := ih hrest' htail
      exact ⟨rfl, hback, hresult⟩
  | stall _ ih =>
    cases h' with
    | stall hrest' =>
      obtain ⟨rfl, hback, hresult⟩ := ih hrest' (List.cons.inj heq).2
      exact ⟨rfl, hback, hresult⟩
  | note _ ih =>
    cases h' with
    | note hrest' => exact ih hrest' heq

theorem Runs.result_unique {result result' : Except Failure α} (h : script.Runs trace result)
    (h' : script.Runs trace result') : result = result' := by
  have hsame : trace ++ [] = trace ++ [] := rfl
  exact (h.unique h' hsame).2.2

/-- Where a script has one more write at its end than another, and its result, the last answer does
not matter. -/
theorem runs_last_iff {whole : Script α} {last : Except BusFault Unit → Event}
    {result : Except Failure α}
    (hwhole : ∀ trace found, whole.Runs trace found ↔
      ∃ middle answer, trace = middle ++ [last answer] ∧ script.Runs middle found)
    (h : script.Runs trace result) (answer : Except BusFault Unit) (found : Except Failure α) :
    whole.Runs (trace ++ [last answer]) found ↔ found = result := by
  rw [hwhole]
  constructor
  · rintro ⟨middle, answer', heq, hfound⟩
    obtain ⟨rfl, -⟩ := List.append_inj' heq rfl
    exact hfound.result_unique h
  · rintro rfl
    exact ⟨trace, answer, rfl, h⟩

/-- A failure of the first part is that of the whole. -/
theorem Runs.result_of_bind {next : α → Script β} {failure : Failure} {result : Except Failure β}
    (h : script.Runs trace (.error failure)) (hruns : (script >>= next).Runs trace result) :
    result = .error failure :=
  hruns.result_unique (runs_bind_error_iff.mpr (.inl h))

/-- An event that the first part never makes is made by what goes on after it. -/
theorem runs_bind_past {next : α → Script β} {event : Event} {result : Except Failure β}
    (hscript : script.Only fun event => ¬ kind event) (hkind : kind event)
    (hruns : (script >>= next).Runs (front ++ event :: back) result) :
    ∃ first second value, front = first ++ second ∧ script.Runs first (.ok value) ∧
      (next value).Runs (second ++ event :: back) result := by
  rcases runs_bind_iff.mp hruns with
    ⟨failure, -, hfailed⟩ | ⟨first, rest, value, heq, hfirst, hrest⟩
  · exact absurd hkind (hscript _ _ hfailed event (by simp))
  rcases Trace.append_eq_append_cons heq.symm with ⟨rest', rfl, -⟩ | ⟨second, rfl, rfl⟩
  · exact absurd hkind (hscript _ _ hfirst event (by simp))
  · exact ⟨first, second, value, rfl, hfirst, hrest⟩

/-! ### Answers that decide nothing -/

/-- Whatever the answer to a write of that kind, what follows is the same. -/
def Ignores (kind : Event → Prop) (script : Script α) : Prop :=
  ∀ front back addr width value answer answer' result,
    kind (.write addr width value answer) →
    script.Runs (front ++ .write addr width value answer :: back) result →
    script.Runs (front ++ .write addr width value answer' :: back) result

/-- A script ignores the answers to what it never does. -/
theorem ignores_of_only (h : script.Only fun event => ¬ kind event) : script.Ignores kind := by
  intro front back addr width value answer answer' result hkind hruns
  exact absurd hkind (h _ result hruns _ (by simp))

theorem Ignores.andThen {next : Except Failure α → Script β} (hscript : script.Ignores kind)
    (hnext : ∀ result, (next result).Ignores kind) : (script.andThen next).Ignores kind := by
  intro front back addr width value answer answer' result hkind hruns
  obtain ⟨first, second, middle, heq, hfirst, hsecond⟩ := runs_andThen_iff.mp hruns
  rcases Trace.append_eq_append_cons heq.symm with ⟨rest, rfl, rfl⟩ | ⟨between, rfl, rfl⟩
  · have hreplaced := hscript _ _ _ _ _ _ answer' _ hkind hfirst
    exact runs_andThen_iff.mpr ⟨_, _, middle, by simp, hreplaced, hsecond⟩
  · have hreplaced := hnext middle _ _ _ _ _ _ answer' _ hkind hsecond
    exact runs_andThen_iff.mpr ⟨_, _, middle, by simp, hfirst, hreplaced⟩

theorem Ignores.bind {next : α → Script β} (hscript : script.Ignores kind)
    (hnext : ∀ value, (next value).Ignores kind) : (script >>= next).Ignores kind := by
  refine hscript.andThen fun result => ?_
  cases result with
  | ok value => exact hnext value
  | error failure => exact ignores_of_only (only_done _)

theorem Ignores.onTimeout {next : Script α} (hscript : script.Ignores kind)
    (hnext : next.Ignores kind) : (onTimeout script next).Ignores kind := by
  refine hscript.andThen fun result => ?_
  cases result with
  | ok value => exact ignores_of_only (only_done _)
  | error failure =>
    cases failure with
    | timeout => exact hnext
    | _ => exact ignores_of_only (only_done _)

theorem Ignores.ensuring {exit : Script Unit} (hscript : script.Ignores kind)
    (hexit : exit.Ignores kind) : (script.ensuring exit).Ignores kind :=
  hscript.andThen fun _ => hexit.andThen fun _ => ignores_of_only (only_done _)

/-- Of a script that is a single write with one result, the answer decides nothing. -/
theorem ignores_of_single_write {addr : Nat} {width : Width} {value : UInt64}
    {result : Except Failure α}
    (h : ∀ trace found, script.Runs trace found ↔
      ∃ answer, trace = [.write addr width value answer] ∧ found = result) :
    script.Ignores kind := by
  intro front back addr' width' value' answer answer' found _ hruns
  obtain ⟨first, heq, rfl⟩ := (h _ _).mp hruns
  obtain ⟨rfl, hlast⟩ | ⟨-, habsurd⟩ := List.append_eq_singleton_iff.mp heq
  · cases hlast
    exact (h _ _).mpr ⟨answer', rfl, rfl⟩
  · cases habsurd

end Script

end TpmLink

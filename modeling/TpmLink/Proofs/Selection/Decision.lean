import TpmLink.Proofs.Bus.Answers
import TpmLink.Proofs.Selection.Signature
import TpmLink.Proofs.Transport.Conduct

/-!
# Probing and selecting

Probing and selecting look at the same registers in the same order, and judge alike what they find:
a probe passes it on, a selection turns away what it has no transport for. The exit for a command
buffer with an undefined bypass is never taken.
-/

namespace TpmLink.Selection

open Script

variable {base : Nat} {look trace rest : Trace} {interface : Interface}
  {found : Option Interface} {result : Except Failure Interface}

/-! ### Looking at the registers -/

def accessRead (base : Nat) (answer : Except BusFault UInt64) : Event := .read base .byte answer

def capabilityRead (base : Nat) (answer : Except BusFault UInt64) : Event :=
  .read (base + 0x14) .dword answer

def identifierRead (base : Nat) (answer : Except BusFault UInt64) : Event :=
  .read (base + 0x30) .dword answer

/-- Where the maker is named depends on the layout of the page. -/
def vendorRead (base : Nat) (kind : InterfaceKind) (answer : Except BusFault UInt64) : Event :=
  .read (base + if kind = .commandBuffer then 0x34 else 0xF00) .dword answer

/-- What a look at the registers finds: no chip, or the interface that the chip shows. The first
fault ends it. -/
inductive Looks (base : Nat) : Trace → Except Failure (Option Interface) → Prop
  | accessFails (fault : BusFault) : Looks base [accessRead base (.error fault)] (.error .io)
  | absent {access : UInt64} (h : access.toUInt8 = 0xFF) :
    Looks base [accessRead base (.ok access)] (.ok none)
  | identifierFails {access : UInt64} (h : access.toUInt8 ≠ 0xFF) (fault : BusFault) :
    Looks base [accessRead base (.ok access), identifierRead base (.error fault)] (.error .io)
  | capabilityFails {access : UInt64} (h : access.toUInt8 ≠ 0xFF) (identifier : UInt64)
      (fault : BusFault) :
    Looks base [accessRead base (.ok access), identifierRead base (.ok identifier),
      capabilityRead base (.error fault)] (.error .io)
  | found {access identifier capability : UInt64} {interface : Interface}
      (h : access.toUInt8 ≠ 0xFF)
      (hshows : Shows identifier.toUInt32 capability.toUInt32 interface) :
    Looks base [accessRead base (.ok access), identifierRead base (.ok identifier),
      capabilityRead base (.ok capability)] (.ok (some interface))

/-- Look at the registers. -/
def survey (base : Nat) : Script (Option Interface) := do
  if ← isPresent base then
    let interface ← classify base
    return some interface
  else return none

theorem runs_readReg_bind_iff {addr : Nat} {α : Type} {next : UInt32 → Script α}
    {result : Except Failure α} :
    (readReg addr >>= next).Runs trace result ↔
      (∃ fault, trace = [.read addr .dword (.error fault)] ∧ result = .error .io) ∨
      ∃ raw rest, trace = .read addr .dword (.ok raw) :: rest ∧
        (next raw.toUInt32).Runs rest result :=
  runs_checked_read_bind_iff

theorem runs_isPresent_bind_iff {α : Type} {next : Bool → Script α} {result : Except Failure α} :
    (isPresent base >>= next).Runs trace result ↔
      (∃ fault, trace = [accessRead base (.error fault)] ∧ result = .error .io) ∨
      ∃ raw rest, trace = accessRead base (.ok raw) :: rest ∧
        (next (raw.toUInt8 != 0xFF)).Runs rest result := by
  rw [isPresent, bind_assoc]
  apply runs_checked_read_bind_iff.trans
  simp only [bind_assoc, runs_note_bind_iff]
  rfl

theorem runs_classify_bind_iff {α : Type} {next : Interface → Script α}
    {result : Except Failure α} :
    (classify base >>= next).Runs trace result ↔
      (∃ fault, trace = [identifierRead base (.error fault)] ∧ result = .error .io) ∨
      (∃ identifier fault, trace = [identifierRead base (.ok identifier),
        capabilityRead base (.error fault)] ∧ result = .error .io) ∨
      ∃ identifier capability rest,
        trace = identifierRead base (.ok identifier) :: capabilityRead base (.ok capability) ::
          rest ∧
        (next (ofSignature identifier.toUInt32 capability.toUInt32)).Runs rest result := by
  rw [classify, bind_assoc, runs_readReg_bind_iff]
  simp only [bind_assoc, runs_readReg_bind_iff, runs_note_bind_iff]
  constructor
  · rintro (hidentifier | ⟨identifier, _, rfl, ⟨fault, rfl, rfl⟩ | ⟨capability, last, rfl, hlast⟩⟩)
    · exact .inl hidentifier
    · exact .inr (.inl ⟨identifier, fault, rfl, rfl⟩)
    · exact .inr (.inr ⟨identifier, capability, last, rfl, hlast⟩)
  · rintro (hidentifier | ⟨identifier, fault, rfl, rfl⟩ |
      ⟨identifier, capability, last, rfl, hlast⟩)
    · exact .inl hidentifier
    · exact .inr ⟨identifier, _, rfl, .inl ⟨fault, rfl, rfl⟩⟩
    · exact .inr ⟨identifier, _, rfl, .inr ⟨capability, last, rfl, hlast⟩⟩

theorem runs_survey_iff {found : Except Failure (Option Interface)} :
    (survey base).Runs trace found ↔ Looks base trace found := by
  rw [survey, runs_isPresent_bind_iff]
  constructor
  · rintro (⟨fault, rfl, rfl⟩ | ⟨access, rest, rfl, hrest⟩)
    · exact .accessFails fault
    by_cases hnone : access.toUInt8 = 0xFF
    · rw [hnone] at hrest
      obtain ⟨rfl, rfl⟩ := runs_pure_iff.mp hrest
      exact .absent hnone
    · rw [if_pos (by simpa using hnone), runs_classify_bind_iff] at hrest
      obtain ⟨fault, rfl, rfl⟩ | ⟨identifier, fault, rfl, rfl⟩ |
        ⟨identifier, capability, last, rfl, hlast⟩ := hrest
      · exact .identifierFails hnone fault
      · exact .capabilityFails hnone identifier fault
      · obtain ⟨rfl, rfl⟩ := runs_pure_iff.mp hlast
        exact .found hnone (shows_ofSignature _ _)
  · intro h
    cases h with
    | accessFails fault => exact .inl ⟨fault, rfl, rfl⟩
    | absent hnone =>
      refine .inr ⟨_, [], rfl, ?_⟩
      rw [hnone]
      exact runs_pure_iff.mpr ⟨rfl, rfl⟩
    | identifierFails hnone fault =>
      refine .inr ⟨_, _, rfl, ?_⟩
      rw [if_pos (by simpa using hnone), runs_classify_bind_iff]
      exact .inl ⟨fault, rfl, rfl⟩
    | capabilityFails hnone identifier fault =>
      refine .inr ⟨_, _, rfl, ?_⟩
      rw [if_pos (by simpa using hnone), runs_classify_bind_iff]
      exact .inr (.inl ⟨identifier, fault, rfl, rfl⟩)
    | found hnone hshows =>
      refine .inr ⟨_, _, rfl, ?_⟩
      rw [if_pos (by simpa using hnone), runs_classify_bind_iff]
      refine .inr (.inr ⟨_, _, [], rfl, ?_⟩)
      rw [ofSignature_eq_iff.mpr hshows]
      exact runs_pure_iff.mpr ⟨rfl, rfl⟩

/-- Only faults stop a look at the registers. -/
theorem Looks.failure_eq {failure : Failure} (h : Looks base look (.error failure)) :
    failure = .io := by
  cases h <;> rfl

/-- A chip that shows no signature counts as one with no bypass. -/
theorem Looks.eq_unsupported (h : Looks base look (.ok (some interface)))
    (hkind : interface.kind = .unsupported) : interface = .unsupported := by
  cases h with
  | found _ hshows =>
    cases hshows with
    | unsupported => rfl
    | commandBuffer | fifo | tis => cases hkind

/-! ### Judging what was found -/

/-- The judgement of a selection. Who made the chip is asked of a known one only. -/
inductive Settles (base : Nat) : Option Interface → Trace → Except Failure Interface → Prop
  | absent : Settles base none [] (.error .notConnected)
  | unknown {interface : Interface} (h : interface.kind = .unsupported) :
    Settles base (some interface) [] (.error .notSupported)
  | unnamed {interface : Interface} (h : interface.kind ≠ .unsupported) (fault : BusFault) :
    Settles base (some interface) [vendorRead base interface.kind (.error fault)] (.error .io)
  | known {interface : Interface} (h : interface.kind ≠ .unsupported) (vendor : UInt64) :
    Settles base (some interface) [vendorRead base interface.kind (.ok vendor)] (.ok interface)

/-- Judge what was found, with no exit for a bypass that is undefined. -/
def settle (base : Nat) : Option Interface → Script Interface
  | none => do
    note (.noChip base)
    throw .notConnected
  | some ⟨.unsupported, _⟩ => do
    note (.noSignature base)
    throw .notSupported
  | some interface => do
    identify base interface.kind
    return interface

theorem identify_eq (base : Nat) (kind : InterfaceKind) : identify base kind =
    readReg (base + if kind = .commandBuffer then 0x34 else 0xF00) >>= fun vendorDevice =>
      note (.identity kind vendorDevice) := by
  cases kind <;> rfl

theorem runs_identify_bind_iff {kind : InterfaceKind} {α : Type} {next : Unit → Script α}
    {result : Except Failure α} :
    (identify base kind >>= next).Runs trace result ↔
      (∃ fault, trace = [vendorRead base kind (.error fault)] ∧ result = .error .io) ∨
      ∃ raw rest, trace = vendorRead base kind (.ok raw) :: rest ∧ (next ()).Runs rest result := by
  rw [identify_eq, bind_assoc, runs_readReg_bind_iff]
  simp only [runs_note_bind_iff]
  rfl

/-- A known interface is named. -/
theorem settle_some (h : interface.kind ≠ .unsupported) : settle base (some interface) =
    identify base interface.kind >>= fun _ => pure interface := by
  obtain ⟨kind, bypass⟩ := interface
  cases kind with
  | unsupported => exact absurd rfl h
  | commandBuffer | fifo | tis => rfl

theorem runs_settle_iff :
    (settle base found).Runs trace result ↔ Settles base found trace result := by
  rcases found with _ | interface
  · apply (runs_note_bind_iff.trans runs_throw_iff).trans
    constructor
    · rintro ⟨rfl, rfl⟩
      exact .absent
    · intro h
      cases h
      exact ⟨rfl, rfl⟩
  by_cases hkind : interface.kind = .unsupported
  · obtain ⟨_, bypass⟩ := interface
    subst hkind
    apply (runs_note_bind_iff.trans runs_throw_iff).trans
    constructor
    · rintro ⟨rfl, rfl⟩
      exact .unknown rfl
    · intro h
      cases h with
      | unknown => exact ⟨rfl, rfl⟩
      | unnamed hknown | known hknown => exact absurd rfl hknown
  · rw [settle_some hkind, runs_identify_bind_iff]
    constructor
    · rintro (⟨fault, rfl, rfl⟩ | ⟨vendor, rest, rfl, hrest⟩)
      · exact .unnamed hkind fault
      · obtain ⟨rfl, rfl⟩ := runs_pure_iff.mp hrest
        exact .known hkind vendor
    · intro h
      cases h with
      | unknown hunknown => exact absurd hunknown hkind
      | unnamed _ fault => exact .inl ⟨fault, rfl, rfl⟩
      | known _ vendor => exact .inr ⟨vendor, [], rfl, runs_pure_iff.mpr ⟨rfl, rfl⟩⟩

/-! ### Both entry points -/

/-- What goes on after a look at the signature needs to be right for signatures only. -/
theorem classify_bind_congr {α : Type} {next next' : Interface → Script α}
    (h : ∀ identifier capability,
      next (ofSignature identifier capability) = next' (ofSignature identifier capability)) :
    classify base >>= next = classify base >>= next' := by
  rw [classify, bind_assoc, bind_assoc]
  apply bind_congr
  intro identifier
  rw [bind_assoc, bind_assoc]
  apply bind_congr
  intro capability
  exact congrArg (Script.note _) (h identifier capability)

/-- A probe is a look whose finding is passed on. -/
theorem probe_eq (base : Nat) :
    probe base = survey base >>= fun found => pure (found.getD .unsupported) := by
  rw [survey, bind_assoc]
  apply bind_congr
  intro present
  cases present with
  | false => rfl
  | true =>
    change classify base = (classify base >>= _) >>= _
    rw [bind_assoc]
    exact (bind_pure (classify base)).symm

/-- A selection is a look and a judgement. A command buffer says whether it can be bypassed, so
there is nothing to turn away for that. -/
theorem select_eq (base : Nat) : select base = survey base >>= settle base := by
  rw [survey, bind_assoc]
  apply bind_congr
  intro present
  cases present with
  | false => rfl
  | true =>
    change classify base >>= _ = (classify base >>= _) >>= _
    rw [bind_assoc]
    apply classify_bind_congr
    intro identifier capability
    have hshows := shows_ofSignature identifier capability
    generalize ofSignature identifier capability = interface at hshows ⊢
    obtain ⟨kind, bypass⟩ := interface
    cases kind with
    | tis | fifo | unsupported => rfl
    | commandBuffer =>
      cases bypass with
      | unknown => exact absurd rfl hshows.bypass_ne_unknown
      | supported | notSupported => rfl

/-- How a probe goes. -/
def Probes (base : Nat) (trace : Trace) (result : Except Failure Interface) : Prop :=
  ∃ found, Looks base trace found ∧ result = found.map (·.getD .unsupported)

/-- How a selection goes. -/
inductive Selects (base : Nat) : Trace → Except Failure Interface → Prop
  | stopped {look : Trace} (h : Looks base look (.error .io)) : Selects base look (.error .io)
  | settled {look rest : Trace} {found : Option Interface} {result : Except Failure Interface}
      (hlook : Looks base look (.ok found)) (hsettle : Settles base found rest result) :
    Selects base (look ++ rest) result

/-- The trace goes as far as the maker, with that interface. -/
def Reaches (base : Nat) (interface : Interface) (trace : Trace) : Prop :=
  ∃ look answer, Looks base look (.ok (some interface)) ∧ interface.kind ≠ .unsupported ∧
    trace = look ++ [vendorRead base interface.kind answer]

theorem runs_probe_iff : (probe base).Runs trace result ↔ Probes base trace result := by
  rw [probe_eq, runs_bind_iff, Probes]
  simp only [runs_survey_iff, runs_pure_iff]
  constructor
  · rintro (⟨failure, rfl, hlook⟩ | ⟨look, _, found, rfl, hlook, rfl, rfl⟩)
    · exact ⟨.error failure, hlook, rfl⟩
    · exact ⟨.ok found, by rwa [List.append_nil], rfl⟩
  · rintro ⟨found, hlook, rfl⟩
    cases found with
    | error failure => exact .inl ⟨failure, rfl, hlook⟩
    | ok found => exact .inr ⟨trace, [], found, by rw [List.append_nil], hlook, rfl, rfl⟩

theorem runs_select_iff : (select base).Runs trace result ↔ Selects base trace result := by
  rw [select_eq, runs_bind_iff]
  simp only [runs_survey_iff, runs_settle_iff]
  constructor
  · rintro (⟨failure, rfl, hlook⟩ | ⟨look, rest, found, rfl, hlook, hsettle⟩)
    · obtain rfl := hlook.failure_eq
      exact .stopped hlook
    · exact .settled hlook hsettle
  · intro h
    cases h with
    | stopped hlook => exact .inl ⟨.io, rfl, hlook⟩
    | settled hlook hsettle => exact .inr ⟨_, _, _, rfl, hlook, hsettle⟩

theorem Looks.only_reads {found : Except Failure (Option Interface)} (h : Looks base look found) :
    ∀ event ∈ look, ∃ addr width answer, event = .read addr width answer := by
  cases h <;>
    simp [accessRead, identifierRead, capabilityRead]

theorem Settles.only_reads (h : Settles base found rest result) :
    ∀ event ∈ rest, ∃ addr width answer, event = .read addr width answer := by
  cases h <;>
    simp [vendorRead]

theorem Selects.only_reads (h : Selects base trace result) :
    ∀ event ∈ trace, ∃ addr width answer, event = .read addr width answer := by
  cases h with
  | stopped hlook => exact hlook.only_reads
  | settled hlook hsettle =>
    intro event hevent
    cases List.mem_append.mp hevent with
    | inl hmem => exact hlook.only_reads event hmem
    | inr hmem => exact hsettle.only_reads event hmem

/-! ### On a device -/

section
variable {σ : Type} (device : Device σ) (state : σ)

theorem looks_survey (base : Nat) :
    Looks base ((survey base).trace device state) ((survey base).run device state).1 :=
  runs_survey_iff.mp (runs_trace device (survey base) state)

theorem run_probe (base : Nat) : ((probe base).run device state).1 =
    ((survey base).run device state).1.map (·.getD .unsupported) := by
  rw [probe_eq]
  cases hfound : ((survey base).run device state).1 with
  | error failure =>
    rw [run_bind_of_error device hfound]
    rfl
  | ok found =>
    rw [run_bind_of_ok device hfound]
    rfl

/-- A selection starts with the look. -/
theorem trace_select (base : Nat) : ∃ rest,
    (select base).trace device state = (survey base).trace device state ++ rest := by
  rw [select_eq]
  exact ⟨_, trace_andThen device (survey base) _ state⟩

/-- What the look finds is judged. -/
theorem settles_select (h : ((survey base).run device state).1 = .ok found) : ∃ rest,
    (select base).trace device state = (survey base).trace device state ++ rest ∧
      Settles base found rest ((select base).run device state).1 := by
  have hsettle := runs_trace device (settle base found) ((survey base).run device state).2
  rw [runs_settle_iff] at hsettle
  rw [select_eq, trace_bind_of_ok device h, run_bind_of_ok device h]
  exact ⟨_, rfl, hsettle⟩

theorem run_select_of_error {failure : Failure}
    (h : ((survey base).run device state).1 = .error failure) :
    ((select base).run device state).1 = .error failure := by
  rw [select_eq, run_bind_of_error device h]

/-- A probe finds a known interface where a selection gets as far as its maker. -/
theorem probe_eq_known_iff :
    ((probe base).run device state).1 = .ok interface ∧ interface.kind ≠ .unsupported ↔
      Reaches base interface ((select base).trace device state) := by
  have hlook := looks_survey device state base
  constructor
  · rintro ⟨hprobe, hkind⟩
    rw [run_probe] at hprobe
    cases hfound : ((survey base).run device state).1 with
    | error failure =>
      rw [hfound] at hprobe
      cases hprobe
    | ok found =>
      obtain ⟨rest, htrace, hsettle⟩ := settles_select device state hfound
      generalize ((select base).run device state).1 = result at hsettle
      rw [hfound] at hprobe hlook
      cases found with
      | none =>
        cases hprobe
        exact absurd rfl hkind
      | some interface =>
        cases hprobe
        cases hsettle with
        | unknown hunknown => exact absurd hunknown hkind
        | unnamed | known => exact ⟨_, _, hlook, hkind, htrace⟩
  · rintro ⟨look, answer, hshown, hkind, htrace⟩
    obtain ⟨rest, hrest⟩ := trace_select device state base
    have hsame := (runs_survey_iff.mpr hlook).unique (runs_survey_iff.mpr hshown)
      (hrest.symm.trans htrace)
    rw [run_probe, hsame.2.2]
    exact ⟨rfl, hkind⟩

/-- A probe finds nothing known where a selection turns the chip away. -/
theorem probe_eq_unsupported_iff :
    ((probe base).run device state).1 = .ok .unsupported ↔
      ((select base).run device state).1 = .error .notConnected ∨
        ((select base).run device state).1 = .error .notSupported := by
  have hlook := looks_survey device state base
  rw [run_probe]
  cases hfound : ((survey base).run device state).1 with
  | error failure =>
    rw [hfound] at hlook
    obtain rfl := hlook.failure_eq
    simp [run_select_of_error device state hfound, Except.map]
  | ok found =>
    obtain ⟨rest, -, hsettle⟩ := settles_select device state hfound
    rw [hfound] at hlook
    generalize ((select base).run device state).1 = result at hsettle ⊢
    cases hsettle with
    | absent => simp [Except.map]
    | unknown hunknown => simp [Except.map, hlook.eq_unsupported hunknown]
    | unnamed hknown | known hknown =>
      have hne : ∀ interface' : Interface, interface'.kind ≠ .unsupported →
          interface' ≠ .unsupported := fun _ h heq => h (heq ▸ rfl)
      simp [Except.map, hne _ hknown]

end

section
variable {σ : Type} (device : Device σ) (base : Nat) (state : σ)

/-- Both entry points take the first signature that matches, and agree on it. -/
theorem selection_isFirstMatch :
    (∀ trace result, (select base).Runs trace result ↔ Selects base trace result) ∧
      (∀ trace result, (probe base).Runs trace result ↔ Probes base trace result) ∧
      (∀ event ∈ (select base).trace device state,
        ∃ addr width answer, event = .read addr width answer) ∧
      (∀ interface, ((probe base).run device state).1 = .ok interface ∧
          interface.kind ≠ .unsupported ↔
        Reaches base interface ((select base).trace device state)) ∧
      (((probe base).run device state).1 = .ok .unsupported ↔
        ((select base).run device state).1 = .error .notConnected ∨
          ((select base).run device state).1 = .error .notSupported) ∧
      (∀ identifier capability,
        ofSignature identifier capability ≠ ⟨.commandBuffer, .unknown⟩) ∧
      select base = survey base >>= settle base := by
  refine ⟨fun _ _ => runs_select_iff, fun _ _ => runs_probe_iff, ?_,
    fun _ => probe_eq_known_iff device state, probe_eq_unsupported_iff device state, ?_,
    select_eq base⟩
  · have hselects := runs_select_iff.mp (runs_trace device (select base) state)
    exact hselects.only_reads
  · intro identifier capability hunknown
    exact (ofSignature_eq_iff.mp hunknown).bypass_ne_unknown rfl

end

/-- A chip whose registers all read as `0x4211` has a command buffer that can be bypassed. -/
theorem selection_isFirstMatch_steadyChip :
    ((probe 0).run (steadyChip 0x4211) ()).1 = .ok ⟨.commandBuffer, .supported⟩ ∧
      Reaches 0 ⟨.commandBuffer, .supported⟩ ((select 0).trace (steadyChip 0x4211) ()) ∧
      accessRead 0 (.ok 0x4211) ∈ (select 0).trace (steadyChip 0x4211) () ∧
      ∃ addr width answer, accessRead 0 (.ok 0x4211) = .read addr width answer := by
  have hprobe : ((probe 0).run (steadyChip 0x4211) ()).1 =
      .ok ⟨.commandBuffer, .supported⟩ := by decide +kernel
  have haccess : accessRead 0 (.ok 0x4211) ∈ (select 0).trace (steadyChip 0x4211) () :=
    List.mem_cons_self
  obtain ⟨-, -, hreads, hknown, -⟩ := selection_isFirstMatch (steadyChip 0x4211) 0 ()
  exact ⟨hprobe, (hknown _).mp ⟨hprobe, by decide⟩, haccess, hreads _ haccess⟩

end TpmLink.Selection

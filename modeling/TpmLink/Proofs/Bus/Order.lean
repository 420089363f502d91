import TpmLink.Proofs.Bus.Trace

/-!
# Order of events

The vocabulary for statements about when something happens in a trace: never, at most once, only
after a history of some kind, only followed by a future of some kind. Each is a statement about all
ways to cut the trace at an event, and each is settled part by part where a trace has parts.
-/

namespace TpmLink

namespace Trace

variable {kind kind' : Event → Prop} {history history' : Trace → Prop} {future : Trace → Prop}
  {s t : Trace} {event : Event}

/-- No event of the trace is of that kind. -/
def Never (kind : Event → Prop) (trace : Trace) : Prop := ∀ event ∈ trace, ¬ kind event

/-- Whenever an event of that kind happens, what came before it is a history of the given kind. -/
def OnlyAfter (kind : Event → Prop) (history : Trace → Prop) (trace : Trace) : Prop :=
  ∀ before event after, trace = before ++ event :: after → kind event → history before

/-- Whenever an event of that kind happens, what comes behind it is a future of the given kind. -/
def FollowedBy (kind : Event → Prop) (future : Trace → Prop) (trace : Trace) : Prop :=
  ∀ before event after, trace = before ++ event :: after → kind event → future after

/-- Whenever an event of that kind happens, what came before it, the event and what comes behind it
are as given. -/
def AtEach (kind : Event → Prop) (cut : Trace → Event → Trace → Prop) (trace : Trace) : Prop :=
  ∀ before event after, trace = before ++ event :: after → kind event → cut before event after

/-- Behind an event of that kind there is no other. -/
def AtMostOnce (kind : Event → Prop) (trace : Trace) : Prop := FollowedBy kind (Never kind) trace

/-! ### Never -/

@[simp] theorem never_nil : Never kind [] := fun _ h => absurd h List.not_mem_nil

@[simp] theorem never_cons : Never kind (event :: t) ↔ ¬ kind event ∧ Never kind t :=
  List.forall_mem_cons

@[simp] theorem never_append : Never kind (s ++ t) ↔ Never kind s ∧ Never kind t :=
  List.forall_mem_append

theorem Never.countP_eq_zero [DecidablePred kind] (h : Never kind t) :
    t.countP (kind ·) = 0 :=
  List.countP_eq_zero.mpr fun event hmem => by simpa using h event hmem

theorem Never.mono (h : Never kind t) (himp : ∀ event, kind' event → kind event) :
    Never kind' t :=
  fun event hmem hkind => h event hmem (himp event hkind)

/-! ### Histories -/

/-- An event in a trace of two parts lies in one of them. -/
theorem append_eq_append_cons {before after : Trace} (h : s ++ t = before ++ event :: after) :
    (∃ rest, s = before ++ event :: rest ∧ after = rest ++ t) ∨
      ∃ front, before = s ++ front ∧ t = front ++ event :: after := by
  rcases List.append_eq_append_iff.mp h with ⟨front, rfl, ht⟩ | ⟨rest, rfl, hrest⟩
  · exact .inr ⟨front, rfl, ht⟩
  · cases rest with
    | nil => exact .inr ⟨[], by simp, by simpa using hrest.symm⟩
    | cons first rest =>
      obtain ⟨rfl, rfl⟩ := List.cons.inj hrest
      exact .inl ⟨rest, rfl, rfl⟩

/-- A trace has only one first event of a kind. -/
theorem Never.first_unique {s' t' : Trace} {event' : Event} (hs : Never kind s)
    (hs' : Never kind s') (hevent : kind event) (hevent' : kind event')
    (heq : s ++ event :: t = s' ++ event' :: t') : s = s' ∧ event = event' ∧ t = t' := by
  rcases append_eq_append_cons heq with ⟨rest, rfl, -⟩ | ⟨front, rfl, hfront⟩
  · exact absurd hevent' (hs event' (by simp))
  cases front with
  | nil =>
    obtain ⟨rfl, rfl⟩ := List.cons.inj hfront
    exact ⟨by simp, rfl, rfl⟩
  | cons first front =>
    obtain ⟨rfl, -⟩ := List.cons.inj hfront
    exact absurd hevent (hs' _ (by simp))

theorem onlyAfter_of_never (h : Never kind t) : OnlyAfter kind history t := by
  rintro before event after rfl hkind
  exact absurd hkind (h event (by simp))

theorem OnlyAfter.mono (h : OnlyAfter kind history t)
    (himp : ∀ before, history before → history' before) : OnlyAfter kind history' t :=
  fun before event after heq hkind => himp before (h before event after heq hkind)

/-- The history of an event in the second part has the first part in front. -/
theorem onlyAfter_append (hs : OnlyAfter kind history s)
    (ht : OnlyAfter kind (fun before => history (s ++ before)) t) :
    OnlyAfter kind history (s ++ t) := by
  intro before event after heq hkind
  rcases append_eq_append_cons heq with ⟨rest, rfl, -⟩ | ⟨front, rfl, rfl⟩
  · exact hs before event rest rfl hkind
  · exact ht front event after rfl hkind

/-- A history that holds of every beginning of a trace holds before every event. -/
theorem onlyAfter_of_prefix (h : ∀ before, before <+: t → history before) :
    OnlyAfter kind history t := by
  rintro before event after rfl -
  exact h before (List.prefix_append _ _)

theorem onlyAfter_cons (hevent : kind event → history [])
    (ht : OnlyAfter kind (fun before => history (event :: before)) t) :
    OnlyAfter kind history (event :: t) := by
  intro before found after heq hkind
  cases before with
  | nil =>
    obtain ⟨rfl, rfl⟩ := List.cons.inj heq
    exact hevent hkind
  | cons first before =>
    obtain ⟨rfl, rfl⟩ := List.cons.inj heq
    exact ht before found after rfl hkind

/-! ### Futures -/

theorem FollowedBy.mono {future' : Trace → Prop} (h : FollowedBy kind future t)
    (himp : ∀ after, future after → future' after) : FollowedBy kind future' t :=
  fun before event after heq hkind => himp after (h before event after heq hkind)

theorem followedBy_of_never (h : Never kind t) : FollowedBy kind future t := by
  rintro before event after rfl hkind
  exact absurd hkind (h event (by simp))

/-- Where the first part has no event of the kind, only the second part matters. -/
theorem followedBy_append_of_never (hs : Never kind s) (ht : FollowedBy kind future t) :
    FollowedBy kind future (s ++ t) := by
  intro before event after heq hkind
  rcases append_eq_append_cons heq with ⟨rest, rfl, -⟩ | ⟨front, rfl, rfl⟩
  · exact absurd hkind (hs event (by simp))
  · exact ht front event after rfl hkind

/-- Where only the first event may be of the kind, it is followed by the rest. -/
theorem followedBy_cons_of_never (hfuture : future t) (ht : Never kind t) :
    FollowedBy kind future (event :: t) := by
  intro before found after heq hkind
  cases before with
  | nil =>
    obtain ⟨rfl, rfl⟩ := List.cons.inj heq
    exact hfuture
  | cons first before =>
    obtain ⟨rfl, rfl⟩ := List.cons.inj heq
    exact absurd hkind (ht found (by simp))

/-! ### Cuts -/

section
variable {cut cut' : Trace → Event → Trace → Prop}

theorem AtEach.mono (h : AtEach kind cut t)
    (himp : ∀ before event after, cut before event after → cut' before event after) :
    AtEach kind cut' t :=
  fun before event after heq hkind => himp before event after (h before event after heq hkind)

theorem atEach_of_never (h : Never kind t) : AtEach kind cut t := by
  rintro before event after rfl hkind
  exact absurd hkind (h event (by simp))

/-- An event has the other part before it or behind it. -/
theorem atEach_append (hs : AtEach kind (fun before event after => cut before event (after ++ t)) s)
    (ht : AtEach kind (fun before => cut (s ++ before)) t) : AtEach kind cut (s ++ t) := by
  intro before event after heq hkind
  rcases append_eq_append_cons heq with ⟨rest, rfl, rfl⟩ | ⟨front, rfl, rfl⟩
  · exact hs before event rest rfl hkind
  · exact ht front event after rfl hkind

theorem atEach_cons (hevent : kind event → cut [] event t)
    (ht : AtEach kind (fun before => cut (event :: before)) t) : AtEach kind cut (event :: t) := by
  intro before found after heq hkind
  cases before with
  | nil =>
    obtain ⟨rfl, rfl⟩ := List.cons.inj heq
    exact hevent hkind
  | cons first before =>
    obtain ⟨rfl, rfl⟩ := List.cons.inj heq
    exact ht before found after rfl hkind

end

/-! ### One event of a kind -/

/-- Whenever an event of the second kind happens behind one of the first, what lies between is as
given. -/
def Between (first second : Event → Prop) (middle : Event → Trace → Prop) (trace : Trace) : Prop :=
  OnlyAfter second (fun before => ∀ front event between, before = front ++ event :: between →
    first event → middle event between) trace

theorem between_of_never {second : Event → Prop} {middle : Event → Trace → Prop}
    (h : Never kind t) : Between kind second middle t := by
  rintro before found after rfl - front event between rfl hkind
  exact absurd hkind (h event (by simp))

section
variable (hs : Never kind s) (ht : Never kind t)
include hs ht

theorem atMostOnce_of_single : AtMostOnce kind (s ++ event :: t) :=
  followedBy_append_of_never hs (followedBy_cons_of_never ht ht)

theorem followedBy_of_single (h : future t) : FollowedBy kind future (s ++ event :: t) :=
  followedBy_append_of_never hs (followedBy_cons_of_never h ht)

theorem onlyAfter_of_single (h : history s) : OnlyAfter kind history (s ++ event :: t) := by
  refine onlyAfter_append (onlyAfter_of_never hs)
    (onlyAfter_cons (fun _ => ?_) (onlyAfter_of_never ht))
  rwa [List.append_nil]

theorem between_of_single {second : Event → Prop} {middle : Event → Trace → Prop}
    (h : OnlyAfter second (middle event) t) : Between kind second middle (s ++ event :: t) := by
  rintro _ found after heq hsecond front event' between rfl hkind
  have hsplit : s ++ event :: t = front ++ event' :: (between ++ found :: after) := by
    rw [heq, List.append_assoc, List.cons_append]
  rcases append_eq_append_cons hsplit with ⟨rest, rfl, -⟩ | ⟨rest, rfl, hrest⟩
  · exact absurd hkind (hs event' (by simp))
  cases rest with
  | nil =>
    obtain ⟨rfl, rfl⟩ := List.cons.inj hrest
    exact h between found after rfl hsecond
  | cons first rest =>
    obtain ⟨-, rfl⟩ := List.cons.inj hrest
    exact absurd hkind (ht event' (by simp))

end

end Trace

/-! ### Accesses -/

namespace Event

variable {addrs readable writable : Nat → Prop} {event : Event}

def ReadsFrom (addrs : Nat → Prop) : Event → Prop
  | read addr _ _ => addrs addr
  | _ => False

def WritesTo (addrs : Nat → Prop) : Event → Prop
  | write addr _ _ _ => addrs addr
  | _ => False

instance (addrs : Nat → Prop) [DecidablePred addrs] : DecidablePred (WritesTo addrs)
  | write addr _ _ _ => inferInstanceAs (Decidable (addrs addr))
  | read .. | stall _ => isFalse id

/-- Reads only from the one, writes only to the other; time may pass. -/
def Within (readable writable : Nat → Prop) : Event → Prop
  | read addr _ _ => readable addr
  | write addr _ _ _ => writable addr
  | stall _ => True

theorem WritesTo.mono {addrs' : Nat → Prop} (h : event.WritesTo addrs)
    (himp : ∀ addr, addrs addr → addrs' addr) : event.WritesTo addrs' := by
  cases event with
  | write addr => exact himp addr h
  | _ => exact h

theorem WritesTo.within (h : event.WritesTo addrs) : event.Within (fun _ => False) addrs := by
  cases event with
  | stall => trivial
  | _ => exact h

theorem Within.mono {readable' writable' : Nat → Prop} (h : event.Within readable writable)
    (hreads : ∀ addr, readable addr → readable' addr)
    (hwrites : ∀ addr, writable addr → writable' addr) : event.Within readable' writable' := by
  cases event with
  | read addr => exact hreads addr h
  | write addr => exact hwrites addr h
  | stall => trivial

theorem Within.not_readsFrom (h : event.Within readable writable)
    (hreads : ∀ addr, readable addr → ¬ addrs addr) : ¬ event.ReadsFrom addrs := by
  cases event with
  | read addr => exact hreads addr h
  | _ => exact id

theorem Within.not_writesTo (h : event.Within readable writable)
    (hwrites : ∀ addr, writable addr → ¬ addrs addr) : ¬ event.WritesTo addrs := by
  cases event with
  | write addr => exact hwrites addr h
  | _ => exact id

instance (addrs : Nat → Prop) [DecidablePred addrs] : DecidablePred (ReadsFrom addrs)
  | read addr _ _ => inferInstanceAs (Decidable (addrs addr))
  | write .. | stall _ => isFalse id

/-- The byte that a successful read from there yields. -/
def received? (addrs : Nat → Prop) [DecidablePred addrs] : Event → Option UInt8
  | read addr _ (.ok raw) => if addrs addr then some raw.toUInt8 else none
  | _ => none

/-- The address and the value of a write. -/
def written? : Event → Option (Nat × UInt64)
  | write addr _ value _ => some (addr, value)
  | _ => none

/-- Does the write touch a register of that width there? -/
def touches (addr : Nat) (width : Width) : Event → Bool
  | write addr' width' _ _ => addr' < addr + width.bytes && addr < addr' + width'.bytes
  | _ => false

/-- The value that a successful write leaves in exactly that register. -/
def stored? (addr : Nat) (width : Width) : Event → Option UInt64
  | write addr' width' value (.ok ()) => if addr' = addr ∧ width' = width then some value else none
  | _ => none

theorem Within.written?_eq_none (h : event.Within readable fun _ => False) :
    event.written? = none := by
  cases event with
  | write => exact absurd h id
  | _ => rfl

end Event

namespace Trace

variable {addrs readable writable : Nat → Prop} {s t : Trace}

theorem never_readsFrom (h : ∀ event ∈ t, event.Within readable writable)
    (hreads : ∀ addr, readable addr → ¬ addrs addr) : Never (Event.ReadsFrom addrs) t :=
  fun event hmem => (h event hmem).not_readsFrom hreads

theorem never_writesTo (h : ∀ event ∈ t, event.Within readable writable)
    (hwrites : ∀ addr, writable addr → ¬ addrs addr) : Never (Event.WritesTo addrs) t :=
  fun event hmem => (h event hmem).not_writesTo hwrites

/-- What is written, in order, whether it succeeds or not. -/
def writes (trace : Trace) : List (Nat × UInt64) := trace.filterMap Event.written?

/-- What a register holds: the value of the last write that touches it, where that write is to
exactly this register and succeeds. -/
def held (trace : Trace) (addr : Nat) (width : Width) : Option UInt64 :=
  (trace.filter (Event.touches addr width)).getLast?.bind (Event.stored? addr width)

/-- What has been read from there, in order. -/
def received (trace : Trace) (addrs : Nat → Prop) [DecidablePred addrs] : Bytes :=
  trace.filterMap (Event.received? addrs)

@[simp] theorem received_append [DecidablePred addrs] (s t : Trace) :
    (s ++ t).received addrs = s.received addrs ++ t.received addrs := List.filterMap_append

theorem received_cons [DecidablePred addrs] (event : Event) (t : Trace) :
    received (event :: t) addrs = received [event] addrs ++ t.received addrs :=
  received_append [event] t

/-- What never reads from there receives nothing. -/
theorem received_eq_nil [DecidablePred addrs] (h : t.Never (Event.ReadsFrom addrs)) :
    t.received addrs = [] := by
  refine List.filterMap_eq_nil_iff.mpr fun event hmem => ?_
  have hevent := h event hmem
  cases event with
  | read addr width answer =>
    cases answer with
    | ok raw => exact if_neg hevent
    | error fault => rfl
  | _ => rfl

@[simp] theorem writes_nil : writes [] = [] := rfl

@[simp] theorem writes_append (s t : Trace) : (s ++ t).writes = s.writes ++ t.writes :=
  List.filterMap_append

@[simp] theorem writes_read (addr : Nat) (width : Width) (answer : Except BusFault UInt64)
    (t : Trace) : writes (.read addr width answer :: t) = t.writes := rfl

@[simp] theorem writes_write (addr : Nat) (width : Width) (value : UInt64)
    (answer : Except BusFault Unit) (t : Trace) :
    writes (.write addr width value answer :: t) = (addr, value) :: t.writes := rfl

@[simp] theorem writes_stall (micros : Nat) (t : Trace) :
    writes (.stall micros :: t) = t.writes := rfl

theorem writes_eq_nil (h : ∀ event ∈ t, event.Within readable fun _ => False) : t.writes = [] :=
  List.filterMap_eq_nil_iff.mpr fun event hmem => (h event hmem).written?_eq_none

/-- A register holds what a later part of the trace left in it. -/
theorem held_append {addr : Nat} {width : Width} {value : UInt64} (s : Trace)
    (h : held t addr width = some value) : held (s ++ t) addr width = some value := by
  obtain ⟨event, hlast, hstored⟩ := Option.bind_eq_some_iff.mp h
  rw [held, List.filter_append, List.getLast?_append, hlast]
  exact hstored

end Trace

end TpmLink

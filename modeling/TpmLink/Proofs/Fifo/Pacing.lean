import TpmLink.Proofs.Fifo.Metering
import TpmLink.Proofs.Fifo.Outcome

/-!
# A command goes by the burst count

Command and response are two transfers, each of which begins without a budget. What is wanted is the
rest of the command before the start, and behind it the rest of the response: of a header first, and
of the whole as soon as the header has declared it. So the data register is never accessed beyond
what the chip announced, a budget that outlasts the header goes into the body, and one that outlasts
the command is dropped.
-/

namespace TpmLink

/-- How long a response is as far as is known: a header, until that has been read. -/
def Response.extent (stream : Bytes) (capacity : Nat) : Nat :=
  if stream.length < Header.size then Header.size else Response.demand stream capacity

namespace Fifo

open Script Trace

instance (link : Fifo) : DecidablePred link.IsGo
  | .write .. => inferInstanceAs (Decidable (_ ∧ _))
  | .read .. | .stall _ => isFalse id

/-- How many bytes are still wanted at some point of a run: of the command before the start, and of
the response that is received in the run behind it. -/
def wanted (link : Fifo) (command : Bytes) (capacity : Nat) (trace before : Trace) : Nat :=
  if ∃ event ∈ before, link.IsGo event then
    Response.extent (link.received trace) capacity - before.countP (link.IsReceive ·)
  else command.length - before.countP (link.IsSend ·)

/-- Behind the start a budget has been granted that is not spent. -/
def GrantedBehindGo (link : Fifo) (before : Trace) : Prop :=
  ∃ front go back, before = front ++ go :: back ∧ link.IsGo go ∧ link.Granted back

/-- Moves and burst counts go together. -/
structure Pacing (link : Fifo) (command : Bytes) (capacity : Nat) (trace : Trace) : Prop where
  counts : trace.AtEach link.IsCount fun before event after =>
    link.Recount (link.wanted command capacity trace before) event after
  sends : trace.OnlyAfter link.IsSend link.Granted
  receives : trace.OnlyAfter link.IsReceive link.GrantedBehindGo

/-- The status register alone is accessed. -/
def IsControl (link : Fifo) : Event → Prop :=
  Event.Within (fun addr => addr = link.status) fun addr => addr = link.status

variable {link : Fifo} {command : Bytes} {capacity : Nat} {trace front back : Trace}

/-! ### Around the transfers -/

section
variable (h : ∀ event ∈ trace, link.IsControl event)
include h

theorem never_isMove_of_control : trace.Never link.IsMove := by
  have hstatus : ∀ addr, addr = link.status → addr ≠ link.data :=
    fun addr haddr => IsSource.ne_data (.inl haddr)
  rintro event hmem (hsend | hreceive)
  · exact (h event hmem).not_writesTo hstatus hsend
  · exact (h event hmem).not_readsFrom hstatus hreceive

theorem never_isCount_of_control : trace.Never link.IsCount := by
  refine never_readsFrom h fun addr haddr => ?_
  rw [haddr]
  exact Nat.ne_of_lt (Nat.lt_succ_self _)

end

theorem only_waitStatus_control {set clear : UInt8} {timeout : Nat} :
    (link.waitStatus set clear timeout).Only link.IsControl :=
  only_waitBits _ (only_bind (only_checked_read fun _ => rfl) fun _ => only_pure _) trivial _ _
    timeout

theorem only_prepare_control : link.prepare.Only link.IsControl := by
  rw [prepare_eq]
  exact only_bind (only_checked_write fun _ => rfl) fun _ =>
    only_waitOrFail only_waitStatus_control

theorem only_start_control : link.start.Only link.IsControl := by
  have hcancel : link.cancel.Only link.IsControl := by
    rw [cancel_eq]
    exact only_bind (only_note _) fun _ =>
      only_bind (only_checked_write fun _ => rfl) fun _ =>
    only_waitOrFail only_waitStatus_control
  exact only_bind (only_checked_write fun _ => rfl) fun _ =>
    only_onTimeout only_waitStatus_control hcancel

/-! ### The response -/

/-- Where receiving fails, fewer bytes have been received than were asked for. -/
theorem runs_receiveBytes_short {count budget : Nat} {soFar : Bytes} {failure : Failure}
    (h : (link.receiveBytes count budget soFar).Runs trace (.error failure)) :
    (link.received trace).length < count := by
  have hwaits : ∀ {budget wait found}, (link.refill budget).Runs wait found →
      link.received wait = [] :=
    fun hwait => received_eq_nil (never_readsFrom (only_refill _ _ hwait) fun _ => IsSource.ne_data)
  induction count generalizing budget soFar trace with
  | zero => cases (runs_pure_iff.mp h).2
  | succ count ih =>
    rcases runs_bind_error_iff.mp h with hwait | ⟨wait, back, granted, rfl, hwait, hback⟩
    · rw [hwaits hwait]
      exact Nat.succ_pos count
    rw [received, received_append]
    change (link.received wait ++ link.received back).length < count + 1
    rw [hwaits hwait, List.nil_append]
    rcases runs_bind_error_iff.mp hback with hread | ⟨front, later, byte, rfl, hread, hlater⟩
    · obtain ⟨answer, rfl, hanswer⟩ := runs_checked_read_iff.mp hread
      cases answer with
      | ok raw => cases hanswer
      | error fault => exact Nat.succ_pos count
    · obtain ⟨answer, rfl, hanswer⟩ := runs_checked_read_iff.mp hread
      cases answer with
      | error fault => cases hanswer
      | ok raw =>
        have hraw : link.received (link.receiving [raw]) = lowBytes [raw] := received_receiving
        rw [received, received_append]
        change (link.received (link.receiving [raw]) ++ link.received later).length < count + 1
        rw [hraw, List.length_append, length_lowBytes, List.length_singleton, Nat.add_comm]
        exact Nat.succ_lt_succ (ih hlater)

/-- The body goes on with the budget that the header has left. -/
theorem runs_receiveBody_metered {values : List UInt64} {budget : Nat}
    {result : Except Failure Bytes} (hheader : values.length = Header.size)
    (h : (link.receiveBody (lowBytes values) budget capacity).Runs trace result) :
    link.Metered (Response.demand (lowBytes values) capacity - Header.size) budget trace := by
  have hlength : (lowBytes values).length = Header.size := by rw [length_lowBytes, hheader]
  rw [receiveBody, Response.runs_acceptResponse_bind_iff hlength] at h
  cases hadmitted : Response.admitted (lowBytes values) capacity with
  | error failure =>
    rw [hadmitted] at h
    obtain ⟨rfl, -⟩ := h
    rw [(Response.verdict_of_refusal hadmitted).2, Nat.sub_self]
    exact .done budget
  | ok size =>
    rw [hadmitted] at h
    rw [Response.demand_of_admitted hadmitted]
    dsimp only at h
    split at h
    next hshort =>
      obtain ⟨rfl, -⟩ := runs_pure_iff.mp h
      rw [Nat.max_eq_left (Nat.le_of_lt hshort), Nat.sub_self]
      exact .done budget
    next hlong =>
      rw [Nat.max_eq_right (Nat.le_of_not_lt hlong)]
      rcases runs_bind_iff.mp h with ⟨failure, -, hmore⟩ | ⟨more, none, found, rfl, hmore, hnone⟩
      · exact runs_receiveBytes_metered hmore
      · obtain ⟨rfl, -⟩ := runs_pure_iff.mp hnone
        rw [List.append_nil]
        exact runs_receiveBytes_metered hmore

/-- Header and body are one transfer, which begins without a budget. -/
theorem runs_receive_metered {result : Except Failure Bytes}
    (h : (link.receive capacity).Runs trace result) :
    link.Metered (Response.extent (link.received trace) capacity) 0 trace := by
  rw [receive_eq] at h
  rcases runs_bind_iff.mp h with ⟨failure, -, hfirst⟩ | ⟨front, back, ⟨header, left⟩, rfl, hfirst,
    hback⟩
  · rw [Response.extent, if_pos (runs_receiveBytes_short hfirst)]
    exact runs_receiveBytes_metered hfirst
  obtain ⟨values, hheader, rfl, hpaced⟩ := runs_receiveBytes_ok_iff.mp hfirst
  have hreceived : link.received (front ++ back) = lowBytes values ++ link.received back := by
    have hfront : link.received front = lowBytes values :=
      hpaced.received_eq.trans received_receiving
    rw [← hfront]
    exact received_append front back
  have hlength : (lowBytes values).length = Header.size := by rw [length_lowBytes, hheader]
  have hdemand : Header.size ≤ Response.demand (lowBytes values) capacity :=
    Response.size_le_demand
  have hextent : Response.extent (link.received (front ++ back)) capacity =
      Response.demand (lowBytes values) capacity - Header.size +
        (link.receiving values).length := by
    rw [hreceived, Response.extent, if_neg (by rw [List.length_append]; omega),
      Response.demand_append (by rw [hlength]; decide), receiving, List.length_map, hheader,
      Nat.sub_add_cancel hdemand]
  rw [hextent]
  refine Metered.paced hpaced (List.forall_mem_map.mpr fun raw _ => .inr rfl) ?_
  exact runs_receiveBody_metered hheader hback

/-! ### The whole -/

/-- A run in its parts: two transfers, and accesses to the status register around them. -/
structure Parts (link : Fifo) (command : Bytes) (capacity : Nat)
    (ready load settle response : Trace) : Prop where
  readies : ∀ event ∈ ready, link.IsControl event
  ready_goes : ready.Never link.IsGo
  loads : ∀ event ∈ load, event.Within link.IsSource fun addr => addr = link.data
  load_metered : link.Metered command.length 0 load
  settles : ∀ event ∈ settle, link.IsControl event
  responds : ∀ event ∈ response,
    event.Within (fun addr => link.IsSource addr ∨ addr = link.data) fun _ => False
  response_metered : link.Metered (Response.extent (link.received response) capacity) 0 response
  /-- The response comes behind the start. -/
  goes : response ≠ [] → ∃ event ∈ settle, link.IsGo event

theorem runs_send_parts {result : Except Failure Unit} (h : (link.send command).Runs trace result) :
    ∃ load polls, trace = load ++ polls ∧ link.Metered command.length 0 load ∧
      (∀ event ∈ load, event.Within link.IsSource fun addr => addr = link.data) ∧
      ∀ event ∈ polls, link.IsControl event := by
  rw [send_eq] at h
  rcases runs_bind_iff.mp h with ⟨failure, -, hload⟩ | ⟨load, polls, ⟨⟩, rfl, hload, hpolls⟩
  · exact ⟨trace, [], by simp, runs_sendBytes_metered hload, only_sendBytes _ _ hload, by simp⟩
  · exact ⟨load, polls, rfl, runs_sendBytes_metered hload, only_sendBytes _ _ hload,
      only_waitOrFail only_waitStatus_control _ _ hpolls⟩

theorem runs_session_parts {result : Except Failure Bytes}
    (h : (link.session command capacity).Runs trace result) :
    ∃ ready load settle response, trace = ready ++ (load ++ (settle ++ response)) ∧
      link.Parts command capacity ready load settle response := by
  have hnone : link.Metered (Response.extent (link.received []) capacity) 0 [] := .nil _
  rcases runs_bind_iff.mp h with ⟨failure, -, hready⟩ | ⟨ready, rest, ⟨⟩, rfl, hready, hrest⟩
  · exact ⟨trace, [], [], [], by simp, only_prepare_control _ _ hready,
      (runs_prepare hready).1.goes, by simp, .nil _, by simp, by simp, hnone, absurd rfl⟩
  have hreadies := only_prepare_control _ _ hready
  have hgoes := (runs_prepare hready).1.goes
  have hsession := runs_note_bind_iff.mp hrest
  rcases runs_bind_iff.mp hsession with ⟨failure, -, hload⟩ | ⟨front, run, ⟨⟩, rfl, hload, hrun⟩
  · obtain ⟨load, polls, rfl, hmetered, hloads, hpolls⟩ := runs_send_parts hload
    exact ⟨ready, load, polls, [], by simp, hreadies, hgoes, hloads, hmetered, hpolls, by simp,
      hnone, absurd rfl⟩
  obtain ⟨load, polls, rfl, hmetered, hloads, hpolls⟩ := runs_send_parts hload
  have hsettles : ∀ {start found}, link.start.Runs start found →
      ∀ event ∈ polls ++ start, link.IsControl event := fun hstart =>
    List.forall_mem_append.mpr ⟨hpolls, only_start_control _ _ hstart⟩
  rcases runs_bind_iff.mp hrun with ⟨failure, -, hstart⟩ | ⟨start, response, ⟨⟩, rfl, hstart,
    hresponse⟩
  · exact ⟨ready, load, polls ++ run, [], by simp, hreadies, hgoes, hloads, hmetered,
      hsettles hstart, by simp, hnone, absurd rfl⟩
  · refine ⟨ready, load, polls ++ start, response, by simp, hreadies, hgoes, hloads, hmetered,
      hsettles hstart, only_receive _ _ hresponse, runs_receive_metered hresponse, fun _ => ?_⟩
    obtain ⟨answer, later, rfl, -⟩ := runs_start hstart
    exact ⟨link.startWrite answer, by simp [startWrite], rfl, by decide⟩

/-- What comes behind a transfer does not change how its counts are read. -/
theorem Recount.append {wanted : Nat} {event first : Event} {after rest : Trace}
    (h : link.Recount wanted event after) (hfirst : link.IsControl first)
    (hburst : link.burst (first :: rest) = []) :
    link.Recount wanted event (after ++ first :: rest) := by
  have hcontrol := List.forall_mem_singleton.mpr hfirst
  have hmove : ¬ link.IsMove first := never_isMove_of_control hcontrol _ List.mem_cons_self
  have hcount : ¬ link.IsCount first := never_isCount_of_control hcontrol _ List.mem_cons_self
  -- The high byte of a reading is still in the transfer, so its end is.
  have hreading : ∀ count reading later, event :: (after ++ first :: rest) = reading ++ later →
      link.Counts count reading →
      ∃ own, event :: after = reading ++ own ∧ later = own ++ first :: rest := by
    rintro count reading later heq ⟨low, high, rfl, -⟩
    obtain ⟨rfl, hafter⟩ := List.cons.inj heq
    obtain ⟨answer, own, rfl⟩ := h.paired low rfl
    obtain ⟨hhigh, rfl⟩ := List.cons.inj hafter
    exact ⟨own, by rw [hhigh]; rfl, rfl⟩
  refine ⟨h.wants, fun low heq => ?_, fun count reading later heq hcounts hzero => ?_,
    fun count reading moves again later heq hcounts hmoves hagain => ?_⟩
  · obtain ⟨answer, own, rfl⟩ := h.paired low heq
    exact ⟨answer, own ++ first :: rest, rfl⟩
  · obtain ⟨own, hown, rfl⟩ := hreading count reading later heq hcounts
    rw [burst_append_of_nil hburst]
    exact h.moved count reading own hown hcounts hzero
  · obtain ⟨own, hown, hrest⟩ := hreading count reading _ heq hcounts
    rcases append_eq_append_cons hrest.symm with ⟨more, rfl, -⟩ | ⟨front, rfl, hfront⟩
    · exact h.spent count reading moves again more hown hcounts hmoves hagain
    · have hnone := eq_nil_of_first (List.forall_mem_append.mp hmoves).2 hmove hfront
      rw [hnone] at hfront
      obtain ⟨rfl, -⟩ := List.cons.inj hfront
      exact absurd hagain hcount

namespace Parts

variable {ready load settle response : Trace} {answer : Except BusFault Unit}

/-- The trace of a run with its exit. -/
def whole (link : Fifo) (ready load settle response : Trace) (answer : Except BusFault Unit) :
    Trace :=
  ready ++ (load ++ (settle ++ (response ++ [link.exitWrite answer])))

theorem control_exitWrite (link : Fifo) (answer : Except BusFault Unit) :
    ∀ event ∈ [link.exitWrite answer], link.IsControl event :=
  List.forall_mem_singleton.mpr rfl

/-- Before the response no byte is received. -/
theorem never_isReceive (h : link.Parts command capacity ready load settle response) :
    ready.Never link.IsReceive ∧ load.Never link.IsReceive ∧ settle.Never link.IsReceive :=
  ⟨(never_isMove_of_control h.readies).mono fun _ => .inr,
    never_readsFrom h.loads fun _ => IsSource.ne_data,
    (never_isMove_of_control h.settles).mono fun _ => .inr⟩

theorem received_whole (h : link.Parts command capacity ready load settle response) :
    link.received (whole link ready load settle response answer) = link.received response := by
  obtain ⟨hready, hload, hsettle⟩ := h.never_isReceive
  have hexit : Trace.Never link.IsReceive [link.exitWrite answer] := never_cons.mpr ⟨id, never_nil⟩
  rw [whole, received, received_append, received_append, received_append, received_append,
    received_eq_nil hready, received_eq_nil hload, received_eq_nil hsettle, received_eq_nil hexit,
    List.nil_append, List.nil_append, List.nil_append, List.append_nil]
  rfl

/-- While the command is sent, what is wanted is what has not been moved of it. -/
theorem wanted_load {before : Trace} (h : link.Parts command capacity ready load settle response)
    (hbefore : before <+: load) :
    link.wanted command capacity trace (ready ++ before) =
      command.length - before.countP (link.IsMove ·) := by
  have hmem : ∀ event ∈ before, event ∈ load := fun event hevent => hbefore.subset hevent
  have hgo : ¬ ∃ event ∈ ready ++ before, link.IsGo event := by
    rintro ⟨event, hevent, hgo⟩
    rcases List.mem_append.mp hevent with hready | hload
    · exact h.ready_goes event hready hgo
    · exact never_isGo h.loads (IsSource.ne_data (.inl rfl)) event (hmem event hload) hgo
  have hready : ready.countP (link.IsSend ·) = 0 :=
    ((never_isMove_of_control h.readies).mono fun _ => .inl).countP_eq_zero
  have hsends : before.countP (link.IsSend ·) = before.countP (link.IsMove ·) := by
    refine List.countP_congr fun event hevent => ?_
    have hnone := h.never_isReceive.2.1 event (hmem event hevent)
    simp [IsMove, hnone]
  rw [wanted, if_neg hgo, List.countP_append, hready, Nat.zero_add, hsends]

/-- While the response is received, what is wanted is what has not been moved of it. -/
theorem wanted_response {before : Trace}
    (h : link.Parts command capacity ready load settle response) (hbefore : before <+: response)
    (hresponse : response ≠ []) :
    link.wanted command capacity (whole link ready load settle response answer)
        (ready ++ (load ++ (settle ++ before))) =
      Response.extent (link.received response) capacity - before.countP (link.IsMove ·) := by
  obtain ⟨hready, hload, hsettle⟩ := h.never_isReceive
  obtain ⟨go, hmem, hgo⟩ := h.goes hresponse
  have hstarted : ∃ event ∈ ready ++ (load ++ (settle ++ before)), link.IsGo event :=
    ⟨go, by simp [hmem], hgo⟩
  have hreceives : before.countP (link.IsReceive ·) = before.countP (link.IsMove ·) := by
    refine List.countP_congr fun event hevent => ?_
    have hnone : ¬ link.IsSend event :=
      (h.responds event (hbefore.subset hevent)).not_writesTo fun _ => False.elim
    simp [IsMove, hnone]
  rw [wanted, if_pos hstarted, h.received_whole, List.countP_append, List.countP_append,
    List.countP_append, hready.countP_eq_zero, hload.countP_eq_zero, hsettle.countP_eq_zero,
    Nat.zero_add, Nat.zero_add, Nat.zero_add, hreceives]

theorem burst_exitWrite (link : Fifo) (answer : Except BusFault Unit) :
    link.burst [link.exitWrite answer] = [] := by
  have hexit := control_exitWrite link answer
  rw [← List.append_nil [link.exitWrite answer], burst_append_of_never
    (never_isMove_of_control hexit) (never_isCount_of_control hexit), burst_nil]

/-- Behind the command no byte is moved before the count has been read again. -/
theorem burst_behind_load (h : link.Parts command capacity ready load settle response)
    (answer : Except BusFault Unit) :
    link.burst (settle ++ (response ++ [link.exitWrite answer])) = [] := by
  rw [burst_append_of_never (never_isMove_of_control h.settles)
    (never_isCount_of_control h.settles), burst_append_of_nil (burst_exitWrite link answer),
    h.response_metered.burst_eq_nil]

/-- Behind the command the status register is accessed first. -/
theorem exists_control_behind_load (h : link.Parts command capacity ready load settle response)
    (answer : Except BusFault Unit) :
    ∃ first rest, settle ++ (response ++ [link.exitWrite answer]) = first :: rest ∧
      link.IsControl first := by
  cases settle with
  | cons first rest => exact ⟨first, _, rfl, h.settles first List.mem_cons_self⟩
  | nil =>
    by_cases hresponse : response = []
    · rw [hresponse]
      exact ⟨link.exitWrite answer, [], rfl, rfl⟩
    · obtain ⟨go, hmem, -⟩ := h.goes hresponse
      exact absurd hmem List.not_mem_nil

theorem counts (h : link.Parts command capacity ready load settle response) :
    AtEach link.IsCount (fun before event after => link.Recount
        (link.wanted command capacity (whole link ready load settle response answer) before)
        event after)
      (whole link ready load settle response answer) := by
  have hexit := control_exitWrite link answer
  refine atEach_append (atEach_of_never (never_isCount_of_control h.readies))
    (atEach_append ?_ (atEach_append (atEach_of_never (never_isCount_of_control h.settles))
      (atEach_append ?_ (atEach_of_never (never_isCount_of_control hexit)))))
  -- Only the transfers read the count, each of them as if nothing came behind it.
  · intro before event after heq hcount
    obtain ⟨first, rest, hrest, hfirst⟩ := h.exists_control_behind_load answer
    have hburst := h.burst_behind_load answer
    rw [h.wanted_load ⟨_, heq.symm⟩, hrest]
    rw [hrest] at hburst
    exact (h.load_metered.recounts before event after heq hcount).append hfirst hburst
  · intro before event after heq hcount
    rw [h.wanted_response ⟨_, heq.symm⟩ (by simp [heq])]
    exact (h.response_metered.recounts before event after heq hcount).append (hexit _ (by simp))
      (burst_exitWrite link answer)

theorem sends (h : link.Parts command capacity ready load settle response) :
    OnlyAfter link.IsSend link.Granted (whole link ready load settle response answer) := by
  have hcontrol : ∀ {trace : Trace}, (∀ event ∈ trace, link.IsControl event) →
      trace.Never link.IsSend := fun h => (never_isMove_of_control h).mono fun _ => .inl
  have hresponse : response.Never link.IsSend := never_writesTo h.responds fun _ => False.elim
  have hload : load.OnlyAfter link.IsSend fun before => link.Granted (ready ++ before) := by
    intro before event after heq hsend
    exact (h.load_metered.granted before event after heq (.inl hsend)).append_left
  have hrest := never_append.mpr ⟨hcontrol h.settles,
    never_append.mpr ⟨hresponse, hcontrol (control_exitWrite link answer)⟩⟩
  exact onlyAfter_append (onlyAfter_of_never (hcontrol h.readies))
    (onlyAfter_append hload (onlyAfter_of_never hrest))

theorem receives (h : link.Parts command capacity ready load settle response) :
    OnlyAfter link.IsReceive link.GrantedBehindGo
      (whole link ready load settle response answer) := by
  obtain ⟨hready, hload, hsettle⟩ := h.never_isReceive
  have hexit : Trace.Never link.IsReceive [link.exitWrite answer] := never_cons.mpr ⟨id, never_nil⟩
  have hresponse : response.OnlyAfter link.IsReceive fun before =>
      link.GrantedBehindGo (ready ++ (load ++ (settle ++ before))) := by
    intro before event after heq hreceive
    obtain ⟨go, hmem, hgo⟩ := h.goes (by simp [heq])
    obtain ⟨front, back, rfl⟩ := List.append_of_mem hmem
    have hgranted := h.response_metered.granted before event after heq (.inr hreceive)
    exact ⟨ready ++ (load ++ front), go, back ++ before, by simp, hgo, hgranted.append_left⟩
  exact onlyAfter_append (onlyAfter_of_never hready) (onlyAfter_append (onlyAfter_of_never hload)
    (onlyAfter_append (onlyAfter_of_never hsettle)
      (onlyAfter_append hresponse (onlyAfter_of_never hexit))))

end Parts

/-- On every device and from each of its states, a command moves its bytes as the burst count
allows: as many behind each count as it announces and as are wanted, and never one beyond. -/
theorem fifo_execute_paced {σ : Type} (device : Device σ) (state : σ) (link : Fifo)
    (command : Bytes) (maxResponse : Nat) :
    link.Pacing command maxResponse ((link.execute command maxResponse).trace device state) := by
  have hruns := runs_trace device (link.execute command maxResponse) state
  obtain ⟨middle, answer, htrace, hsession⟩ := runs_execute_iff.mp hruns
  obtain ⟨ready, load, settle, response, rfl, hparts⟩ := runs_session_parts hsession
  rw [htrace]
  have hwhole : ready ++ (load ++ (settle ++ response)) ++ [link.exitWrite answer] =
      Parts.whole link ready load settle response answer := by simp [Parts.whole]
  rw [hwhole]
  exact ⟨hparts.counts, hparts.sends, hparts.receives⟩

end Fifo

end TpmLink

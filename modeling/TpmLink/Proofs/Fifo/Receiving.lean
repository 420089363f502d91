import TpmLink.Proofs.Fifo.Bursts

/-!
# Receiving a response, exactly

The header is received first, then as much as it asks for. Without a fault either all of it is
received, and the response comes to the verdict on its bytes, or the transfer starves before that.
-/

namespace TpmLink

namespace Fifo

open Script Trace

variable {link : Fifo} {budget capacity : Nat} {trace : Trace} {bytes soFar : Bytes}

/-! ### Bytes -/

theorem runs_receiveBytes_ok_iff {count left : Nat} :
    (link.receiveBytes count budget soFar).Runs trace (.ok (bytes, left)) ↔
      ∃ values, values.length = count ∧ bytes = soFar.reverse ++ lowBytes values ∧
        link.Paced budget (link.receiving values) trace left := by
  -- Both the budget and the bytes received so far change from one byte to the next.
  induction count generalizing budget soFar trace with
  | zero =>
    constructor
    · intro h
      obtain ⟨rfl, hbytes⟩ := runs_pure_iff.mp h
      cases hbytes
      exact ⟨[], rfl, by simp [lowBytes], .done _⟩
    · rintro ⟨values, hlength, rfl, hpaced⟩
      obtain rfl := List.length_eq_zero_iff.mp hlength
      cases hpaced
      exact runs_pure_iff.mpr ⟨rfl, by simp [lowBytes]⟩
  | succ count ih =>
    refine runs_bind_ok_iff.trans ?_
    constructor
    · rintro ⟨wait, back, granted, rfl, hwait, hback⟩
      obtain ⟨middle, rfl, hallows⟩ := runs_refill_ok_iff.mp hwait
      obtain ⟨raw, later, rfl, hlater⟩ := (runs_past_read_iff (by simp)).mp hback
      obtain ⟨values, hlength, rfl, hpaced⟩ := ih.mp hlater
      exact ⟨raw :: values, congrArg Nat.succ hlength, by simp [lowBytes],
        .move _ hallows hpaced⟩
    · rintro ⟨values, hlength, rfl, hpaced⟩
      obtain ⟨raw, values, rfl⟩ := List.exists_cons_of_length_eq_add_one hlength
      cases hpaced with
      | move _ hallows hrest =>
        have hlater : (link.receiveBytes count _ (raw.toUInt8 :: soFar)).Runs _ (.ok _) :=
          ih.mpr ⟨values, Nat.succ.inj hlength, by simp [lowBytes], hrest⟩
        exact ⟨_, _, _, rfl, runs_refill_ok_iff.mpr ⟨_, rfl, hallows⟩,
          (runs_past_read_iff (by simp)).mpr ⟨raw, _, rfl, hlater⟩⟩

/-- Receiving gives the chip up where it starves with bytes left to receive. -/
theorem runs_receiveBytes_busy_iff {count : Nat} :
    (link.receiveBytes count budget soFar).Runs trace (.error .deviceBusy) ↔
      ∃ values front polls, values.length < count ∧ trace = front ++ polls ∧
        link.Paced budget (link.receiving values) front 0 ∧ link.Starves polls := by
  induction count generalizing budget soFar trace with
  | zero =>
    constructor
    · intro h
      cases (runs_pure_iff.mp h).2
    · rintro ⟨values, _, _, hlength, -⟩
      exact absurd hlength (Nat.not_lt_zero _)
  | succ count ih =>
    refine runs_bind_error_iff.trans ?_
    constructor
    · rintro (hwait | ⟨wait, back, granted, rfl, hwait, hback⟩)
      · obtain ⟨rfl, hstarves⟩ := runs_refill_busy_iff.mp hwait
        exact ⟨[], [], trace, Nat.succ_pos _, rfl, .done 0, hstarves⟩
      obtain ⟨middle, rfl, hallows⟩ := runs_refill_ok_iff.mp hwait
      obtain ⟨raw, later, rfl, hlater⟩ := (runs_past_read_iff (by simp)).mp hback
      obtain ⟨values, front, polls, hlength, rfl, hpaced, hstarves⟩ := ih.mp hlater
      exact ⟨raw :: values, _, polls, Nat.succ_lt_succ hlength, by simp, .move _ hallows hpaced,
        hstarves⟩
    · rintro ⟨values, front, polls, hlength, rfl, hpaced, hstarves⟩
      cases values with
      | nil =>
        cases hpaced
        exact .inl (runs_refill_busy_iff.mpr ⟨rfl, hstarves⟩)
      | cons raw values =>
        cases hpaced with
        | move _ hallows hrest =>
          have hlater : (link.receiveBytes count _ (raw.toUInt8 :: soFar)).Runs _
              (.error .deviceBusy) :=
            ih.mpr ⟨values, _, polls, Nat.lt_of_succ_lt_succ hlength, rfl, hrest, hstarves⟩
          exact .inr ⟨_, _, _, by simp, runs_refill_ok_iff.mpr ⟨_, rfl, hallows⟩,
            (runs_past_read_iff (by simp)).mpr ⟨raw, _, rfl, hlater⟩⟩

theorem failsWith_receiveBytes {count : Nat} :
    (link.receiveBytes count budget soFar).FailsWith [.deviceBusy, .io] := by
  induction count generalizing budget soFar with
  | zero => exact failsWith_pure _
  | succ count ih =>
    exact failsWith_refill.bind fun _ => (failsWith_checked_read (by simp)).bind fun _ => ih

theorem receiving_append (values values' : List UInt64) :
    link.receiving (values ++ values') = link.receiving values ++ link.receiving values' :=
  List.map_append

/-! ### Header and body -/

/-- What follows the header of a response. -/
def receiveBody (link : Fifo) (header : Bytes) (budget capacity : Nat) : Script Bytes := do
  let size ← acceptResponse header capacity
  if size < Header.size then return header.take size
  else do
    let (response, _) ← link.receiveBytes (size - Header.size) budget header.reverse
    return response

theorem receive_eq (link : Fifo) (capacity : Nat) :
    link.receive capacity = (link.receiveBytes Header.size 0 [] >>= fun found =>
      link.receiveBody found.1 found.2 capacity) :=
  rfl

section
variable {values : List UInt64} {result : Except Failure Bytes}

/-- More bytes behind a whole header do not change how many are asked for. -/
theorem demand_of_header (hheader : values.length = Header.size) (more : List UInt64) :
    Response.demand (lowBytes (values ++ more)) capacity =
      Response.demand (lowBytes values) capacity := by
  rw [lowBytes_append, Response.demand_append (by rw [length_lowBytes, hheader]; decide)]

/-- Behind the header the chip is given up where it starves before the body is complete. -/
theorem runs_receiveBody_busy_iff (hheader : values.length = Header.size) :
    (link.receiveBody (lowBytes values) budget capacity).Runs trace (.error .deviceBusy) ↔
      ∃ more front polls, trace = front ++ polls ∧
        (values ++ more).length < Response.demand (lowBytes (values ++ more)) capacity ∧
        link.Paced budget (link.receiving more) front 0 ∧ link.Starves polls := by
  have hlength : (lowBytes values).length = Header.size := by rw [length_lowBytes, hheader]
  simp only [demand_of_header hheader, List.length_append, hheader]
  rw [receiveBody, Response.runs_acceptResponse_bind_iff hlength]
  cases hadmitted : Response.admitted (lowBytes values) capacity with
  | error failure =>
    obtain ⟨hverdict, hdemand⟩ := Response.verdict_of_refusal hadmitted
    rw [hdemand]
    refine iff_of_false ?_ fun ⟨more, _, _, _, hmore, _⟩ => by omega
    rintro ⟨-, hfailure⟩
    cases hfailure
    exact Response.verdict_ne_busy hverdict
  | ok size =>
    rw [Response.demand_of_admitted hadmitted]
    dsimp only
    split
    next hshort =>
      rw [runs_pure_iff]
      exact iff_of_false (fun h => by cases h.2) fun ⟨more, _, _, _, hmore, _⟩ => by omega
    next hlong =>
      rw [runs_bind_error_iff]
      constructor
      · rintro (hmore | ⟨_, _, _, -, -, hnone⟩)
        · obtain ⟨more, front, polls, hmore, rfl, hpaced, hstarves⟩ :=
            runs_receiveBytes_busy_iff.mp hmore
          exact ⟨more, front, polls, rfl, by omega, hpaced, hstarves⟩
        · cases (runs_pure_iff.mp hnone).2
      · rintro ⟨more, front, polls, rfl, hmore, hpaced, hstarves⟩
        exact .inl (runs_receiveBytes_busy_iff.mpr
          ⟨more, front, polls, by omega, rfl, hpaced, hstarves⟩)

/-- Without a fault, and where the chip does not starve, the body is complete. -/
theorem runs_receiveBody_verdict (hheader : values.length = Header.size)
    (hbusy : result ≠ .error .deviceBusy) (hio : result ≠ .error .io)
    (h : (link.receiveBody (lowBytes values) budget capacity).Runs trace result) :
    ∃ more left, link.Paced budget (link.receiving more) trace left ∧
      (values ++ more).length = Response.demand (lowBytes (values ++ more)) capacity ∧
      result = Response.verdict (lowBytes (values ++ more)) capacity := by
  have hfetch : ∀ count, Script.Runs (do
      let (response, _) ← link.receiveBytes count budget (lowBytes values).reverse
      return response) trace result → ∃ more, more.length = count ∧
        (∃ left, link.Paced budget (link.receiving more) trace left) ∧
        result = .ok (lowBytes values ++ lowBytes more) := by
    intro count hfetch
    rcases runs_bind_iff.mp hfetch with ⟨failure, hresult, hmore⟩ | ⟨back, none, ⟨bytes, left⟩, rfl,
      hmore, hnone⟩
    · exact absurd (failsWith_receiveBytes _ _ hmore) (not_mem_of_ne hbusy hio hresult)
    obtain ⟨rfl, rfl⟩ := runs_pure_iff.mp hnone
    obtain ⟨more, hcount, rfl, hpaced⟩ := runs_receiveBytes_ok_iff.mp hmore
    exact ⟨more, hcount, ⟨left, by rwa [List.append_nil]⟩, by rw [List.reverse_reverse]⟩
  obtain ⟨more, ⟨left, hpaced⟩, hdemand, hverdict⟩ := Response.verdict_of_body _
    (fun more trace => ∃ left, link.Paced budget (link.receiving more) trace left) hheader
    ⟨budget, .done budget⟩ hfetch h
  exact ⟨more, left, hpaced, hdemand, hverdict⟩

/-- A response leaves a busy chip exactly where it starves before as much has been received as the
header asks for. -/
theorem runs_receive_busy_iff :
    (link.receive capacity).Runs trace (.error .deviceBusy) ↔
      ∃ values front polls, trace = front ++ polls ∧
        values.length < Response.demand (lowBytes values) capacity ∧
        link.Paced 0 (link.receiving values) front 0 ∧ link.Starves polls := by
  rw [receive_eq, runs_bind_error_iff]
  constructor
  · rintro (hfirst | ⟨front, rest, ⟨header, left⟩, rfl, hfirst, hrest⟩)
    · obtain ⟨values, front, polls, hlength, rfl, hpaced, hstarves⟩ :=
        runs_receiveBytes_busy_iff.mp hfirst
      exact ⟨values, front, polls, rfl, Nat.lt_of_lt_of_le hlength Response.size_le_demand, hpaced,
        hstarves⟩
    · obtain ⟨values, hheader, rfl, hpaced⟩ := runs_receiveBytes_ok_iff.mp hfirst
      obtain ⟨more, back, polls, rfl, hdemand, hback, hstarves⟩ :=
        (runs_receiveBody_busy_iff hheader).mp hrest
      refine ⟨values ++ more, front ++ back, polls, by simp, hdemand, ?_, hstarves⟩
      rw [receiving_append]
      exact paced_append_iff.mpr ⟨front, back, left, rfl, hpaced, hback⟩
  · rintro ⟨values, front, polls, rfl, hdemand, hpaced, hstarves⟩
    by_cases hshort : values.length < Header.size
    · exact .inl (runs_receiveBytes_busy_iff.mpr
        ⟨values, front, polls, hshort, rfl, hpaced, hstarves⟩)
    obtain ⟨header, more, rfl, hheader⟩ : ∃ header more, values = header ++ more ∧
        header.length = Header.size :=
      ⟨_, _, (List.take_append_drop Header.size values).symm, by rw [List.length_take]; omega⟩
    rw [receiving_append] at hpaced
    obtain ⟨front, back, left, rfl, hfront, hback⟩ := paced_append_iff.mp hpaced
    exact .inr ⟨front, back ++ polls, (lowBytes header, left), by simp,
      runs_receiveBytes_ok_iff.mpr ⟨header, hheader, by simp, hfront⟩,
      (runs_receiveBody_busy_iff hheader).mpr ⟨more, back, polls, rfl, hdemand, hback, hstarves⟩⟩

/-- Without a fault, and where the chip does not starve, as much is received as the header asks for,
and the result is the verdict on what has been received. -/
theorem runs_receive_verdict (hbusy : result ≠ .error .deviceBusy) (hio : result ≠ .error .io)
    (h : (link.receive capacity).Runs trace result) :
    ∃ values left, link.Paced 0 (link.receiving values) trace left ∧
      values.length = Response.demand (lowBytes values) capacity ∧
      result = Response.verdict (lowBytes values) capacity := by
  rw [receive_eq] at h
  rcases runs_bind_iff.mp h with ⟨failure, hresult, hfirst⟩ | ⟨front, rest, ⟨header, left⟩, rfl,
    hfirst, hrest⟩
  · exact absurd (failsWith_receiveBytes _ _ hfirst) (not_mem_of_ne hbusy hio hresult)
  obtain ⟨values, hheader, rfl, hfront⟩ := runs_receiveBytes_ok_iff.mp hfirst
  obtain ⟨more, left', hback, hdemand, hverdict⟩ :=
    runs_receiveBody_verdict hheader hbusy hio hrest
  refine ⟨values ++ more, left', ?_, hdemand, hverdict⟩
  rw [receiving_append]
  exact paced_append_iff.mpr ⟨front, rest, left, rfl, hfront, hback⟩

end

theorem failsWith_receive :
    (link.receive capacity).FailsWith [.deviceBusy, .io, .notSupported, .bufferTooSmall] := by
  refine (failsWith_receiveBytes.mono (by simp)).bind fun found => ?_
  refine (failsWith_acceptResponse.mono (by simp)).bind fun size => ?_
  split
  · exact failsWith_pure _
  · exact (failsWith_receiveBytes.mono (by simp)).bind fun _ => failsWith_pure _

end Fifo

end TpmLink

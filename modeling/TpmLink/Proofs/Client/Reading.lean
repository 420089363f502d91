import TpmLink.Connection
import TpmLink.Proofs.Client.Judgement
import TpmLink.Proofs.Transport.Links
import TpmLink.Proofs.Wire.Headers

/-!
# ReadPublic over a transport

A ReadPublic is one command on the bus and a judgement on what it returns. Either transport returns
as much as the header declares that it received, so the judgement can be told from that header.
-/

namespace TpmLink

open Script Trace

/-! ### The client -/

namespace Client

variable {σ : Type} (device : Device σ) (client : Client Script) (handle : UInt32) (state : σ)

/-- Decoding only reports; its result is the judgement on the response. -/
theorem runs_decode_iff {response : Bytes} {trace : Trace} {result : Except Failure ReadPublic} :
    (decode response : Script ReadPublic).Runs trace result ↔
      trace = [] ∧ result = ReadPublic.judge response := by
  unfold decode ReadPublic.judge
  cases ReadPublic.ofResponse response with
  | ok value => exact runs_note_bind_iff.trans runs_pure_iff
  | error cause => exact runs_note_bind_iff.trans runs_throw_iff

/-- The transport's result, judged where it is a response. -/
theorem runs_readPublic_iff {trace : Trace} {result : Except Failure ReadPublic} :
    (client.readPublic handle).Runs trace result ↔
      ∃ found, (client.submit (readPublicCommand handle)).Runs trace found ∧
        result = found.bind ReadPublic.judge := by
  rw [readPublic, runs_bind_iff]
  constructor
  · rintro (⟨failure, rfl, hfailed⟩ | ⟨front, back, response, rfl, hfront, hback⟩)
    · exact ⟨_, hfailed, rfl⟩
    · obtain ⟨rfl, rfl⟩ := runs_decode_iff.mp hback
      exact ⟨.ok response, by rwa [List.append_nil], rfl⟩
  · rintro ⟨found, hfound, rfl⟩
    cases found with
    | error failure => exact .inl ⟨failure, rfl, hfound⟩
    | ok response =>
      exact .inr ⟨trace, [], response, by simp, hfound, runs_decode_iff.mpr ⟨rfl, rfl⟩⟩

/-- On the bus a ReadPublic is its command. -/
theorem trace_readPublic : (client.readPublic handle).trace device state =
    (client.submit (readPublicCommand handle)).trace device state := by
  rw [readPublic]
  cases hfound : ((client.submit (readPublicCommand handle)).run device state).1 with
  | error failure => exact trace_bind_of_error device hfound
  | ok response =>
    have hdecode := runs_trace device (decode response : Script ReadPublic)
      ((client.submit (readPublicCommand handle)).run device state).2
    rw [trace_bind_of_ok device hfound, (runs_decode_iff.mp hdecode).1, List.append_nil]

theorem run_readPublic : ((client.readPublic handle).run device state).1 =
    ((client.submit (readPublicCommand handle)).run device state).1.bind ReadPublic.judge := by
  have hread := runs_trace device (client.readPublic handle) state
  have hsubmit := runs_trace device (client.submit (readPublicCommand handle)) state
  obtain ⟨found, hfound, hresult⟩ := (runs_readPublic_iff client handle).mp hread
  rw [trace_readPublic] at hfound
  rw [hresult, hsubmit.result_unique hfound]

end Client

/-! ### ReadPublic -/

section
variable {σ : Type} (device : Device σ) (state : σ) (connection : Connection) (handle : UInt32)

/-- A ReadPublic whose transport returns a response is judged by the header that was received, and
one whose transport fails fails like it. It never ends with a time-out or without a chip, and it
blames its caller only for the code of a sequence object. -/
theorem readPublic_isJudged :
    (∀ response, ((connection.client.submit (readPublicCommand handle)).run device state).1 =
        .ok response →
      Response.Returned
          (connection.link.received ((connection.client.readPublic handle).trace device state))
          connection.maxResponse response ∧
        ReadPublic.Judged
          (connection.link.received ((connection.client.readPublic handle).trace device state))
          response ((connection.client.readPublic handle).run device state).1) ∧
      (∀ failure, ((connection.client.submit (readPublicCommand handle)).run device state).1 =
          .error failure →
        ((connection.client.readPublic handle).run device state).1 = .error failure) ∧
      (∀ failure ∈ [Failure.timeout, .notConnected],
        ((connection.client.readPublic handle).run device state).1 ≠ .error failure) ∧
      (((connection.client.readPublic handle).run device state).1 = .error .invalidParameter →
        Response.declaredCode
            (connection.link.received ((connection.client.readPublic handle).trace device state)) =
          Header.sequenceCode) := by
  have hlength : (readPublicCommand handle).length ≤ dataBufferSize := by
    rw [length_readPublicCommand]
    decide
  have hruns := runs_trace device (connection.client.submit (readPublicCommand handle)) state
  rw [Client.run_readPublic, Client.trace_readPublic]
  cases hresult : ((connection.client.submit (readPublicCommand handle)).run device state).1 with
  | error failure =>
    rw [hresult] at hruns
    have hknown := Link.failsWith_execute hlength _ _ hruns
    refine ⟨fun response h => (by cases h), fun found h => h ▸ rfl, fun other hother h => ?_,
      fun h => ?_⟩
    · cases h
      revert hother hknown
      cases failure <;> decide
    · cases h
      exact absurd hknown (by decide)
  | ok response =>
    rw [hresult] at hruns
    have hreturned := Link.returned_of_ok hlength hruns
    have hjudged := ReadPublic.judged_of_returned hreturned
    refine ⟨fun found h => ?_, fun failure h => (by cases h), fun failure hfailure h => ?_,
      fun h => ?_⟩
    · cases h
      exact ⟨hreturned, hjudged⟩
    · have hknown := ReadPublic.failure_of_judge h
      revert hfailure hknown
      cases failure <;> decide
    · exact (hjudged.invalid_iff.mp h).2

end

/-- The chip says that the handle names a sequence object, and the caller is blamed. -/
theorem readPublic_isJudged_sequenceObject :
    let refusal : Bytes := [0x80, 0x01, 0x00, 0x00, 0x00, 0x0A, 0x00, 0x00, 0x01, 0x03]
    let connection : Connection :=
      ⟨⟨.commandBuffer, .notSupported⟩, .commandBuffer ⟨0, .notSupported, Timeouts.commandBuffer⟩,
        752⟩
    let device := CommandBuffer.servingChip 0 refusal
    ((connection.client.submit (readPublicCommand 0x80000000)).run device true).1 = .ok refusal ∧
      ((connection.client.readPublic 0x80000000).run device true).1 =
        .error .invalidParameter ∧
      Response.declaredSize (connection.link.received
        ((connection.client.readPublic 0x80000000).trace device true)) = 10 ∧
      Response.declaredCode (connection.link.received
        ((connection.client.readPublic 0x80000000).trace device true)) = 0x0103 := by
  intro refusal connection device
  have hreturned : ((connection.client.submit (readPublicCommand 0x80000000)).run device true).1 =
      .ok refusal := by decide +kernel
  have hinvalid : ((connection.client.readPublic 0x80000000).run device true).1 =
      .error .invalidParameter := by decide +kernel
  obtain ⟨hjudged, -, -, hcode⟩ := readPublic_isJudged device true connection 0x80000000
  have hlength := (hjudged _ hreturned).1.length_eq
  exact ⟨hreturned, hinvalid, hlength.symm, hcode hinvalid⟩

end TpmLink

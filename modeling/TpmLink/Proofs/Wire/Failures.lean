import TpmLink.Proofs.Wire.Locality
import TpmLink.Proofs.Wire.Response

/-!
# How a reader fails

A reader of structures fails for causes that blame the chip or an algorithm without a place. The
other causes belong to the header alone, so what a response comes to is settled by its header unless
the header says success.
-/

namespace TpmLink

/-- Does the cause blame the chip or an algorithm? -/
def Malformed.InBody (cause : Malformed) : Prop :=
  cause.failure = .deviceBusy ∨ cause.failure = .notSupported

namespace Reader

variable {α : Type} {reader : Reader α}

/-- Wherever the reader fails, it is for a cause that blames the chip or an algorithm. -/
def FailsInBody (reader : Reader α) : Prop :=
  ∀ cursor cause after, reader cursor = (.error cause, after) → cause.InBody

theorem Local.failsInBody (h : reader.Local) : reader.FailsInBody := by
  intro cursor cause after hread
  cases h cursor.rest with
  | yields value distance hwithin hreads =>
    have hok := hreads cursor.position
    rw [hread] at hok
    cases hok
  | fails failure distance hwithin hblames hstops =>
    obtain ⟨found, rfl, hstop⟩ := hstops cursor.position
    rw [hread] at hstop
    cases hstop
    exact hblames

end Reader

open Reader

namespace ReadPublic

variable {response : Bytes} {header : Header} {cause : Malformed}

/-- Behind a header that says success, only the body can be refused. -/
theorem inBody_of_ofResponse (hheader : responseHeader response = .ok header)
    (h : ofResponse response = .error cause) : cause.InBody := by
  have hreader : (Reader.bytes Header.size >>= fun _ => readBody).FailsInBody :=
    ((local_bytes _).bind fun _ => local_body).failsInBody
  rw [ofResponse_of_header hheader] at h
  cases hread : (Reader.bytes Header.size >>= fun _ => readBody) (Cursor.ofBytes response) with
  | mk result after =>
    rw [hread] at h
    cases result with
    | error found =>
      cases h
      exact hreader _ _ after hread
    | ok value =>
      rw [conclude] at h
      split at h
      · cases h
      · cases h
        exact .inl rfl

end ReadPublic

end TpmLink

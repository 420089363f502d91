import TpmLink.Proofs.Transport.Links
import TpmLink.Proofs.Wire.Failures
import TpmLink.Proofs.Wire.Response

/-!
# What a ReadPublic comes to

A transport and the decoder each look at the header of a response. The transport returns as many
bytes as the header declares, so the decoder finds the length it expects, and the header alone
settles how a command ends unless it says success. A value that is returned is encoded like the
response, up to attributes without a name.
-/

namespace TpmLink

namespace ReadPublic

open Response

/-! ### Headers -/

variable {response : Bytes}

/-- A header that declares the length of its response is judged by its code. -/
theorem responseHeader_of_length (h : Header.size ≤ response.length)
    (hdeclared : declaredSize response = response.length) :
    responseHeader response =
      if declaredCode response = Header.successCode then
        .ok ⟨UInt16.ofNat (beValue (slice response 0 2)), UInt32.ofNat (declaredSize response),
          declaredCode response⟩
      else if declaredCode response = Header.sequenceCode then .error .sequenceObject
      else .error (.refused (declaredCode response)) := by
  have hlength : (slice response 2 4).length = 4 := by
    have hheader : Header.size = 10 := rfl
    simp only [slice, List.length_take, List.length_drop]
    omega
  have hlt : declaredSize response < UInt32.size := by
    have hvalue := beValue_lt (slice response 2 4)
    rwa [hlength] at hvalue
  have hlong : ¬ (UInt32.ofNat (declaredSize response)).toNat < Header.size := by
    rw [UInt32.toNat_ofNat_of_lt' hlt, hdeclared]
    exact Nat.not_lt.mpr h
  rw [responseHeader, Header.ofBytes?, if_neg (Nat.not_lt.mpr h)]
  dsimp only
  rw [← declaredSize, if_neg hlong, ← declaredCode]

/-! ### Values -/

/-- A value behind a header that declares a length and success. -/
def toBytes (value : ReadPublic) (tag : UInt16) (length : Nat) : Bytes :=
  Header.toBytes ⟨tag, UInt32.ofNat length, Header.successCode⟩ ++ value.outPublic.toBytes ++
    value.name.toBytes ++ value.qualifiedName.toBytes

/-- The value is encoded like the response, but that attributes without a name are missing. -/
def Reproduces (value : ReadPublic) (response : Bytes) : Prop :=
  ∃ tag front attributes back, front.length = 16 ∧
    response = front ++ be32 attributes ++ back ∧
    value.toBytes tag response.length =
      front ++ be32 (attributes &&& flagMask objectFlags) ++ back

theorem reproduces_of_ofResponse {value : ReadPublic} (h : ofResponse response = .ok value) :
    value.Reproduces response := by
  obtain ⟨tag, area, attributes, name, qualifiedName, hresponse, rfl⟩ :=
    (exists_isResponse_iff _ _).mpr ((ofResponse_eq_ok_iff_body _ _).mp h)
  let front := be16 tag ++ be32 (UInt32.ofNat response.length) ++ be32 0 ++
    be16 (UInt16.ofNat (area.toBytesWith attributes).length) ++ area.algorithm.toBytes ++
    be16 area.nameAlg
  let back := sized area.authPolicy ++ area.details.toBytes ++ sized name ++ sized qualifiedName
  have hcut : (area.withAttributes attributes).toBytes =
      area.algorithm.toBytes ++ be16 area.nameAlg ++
        be32 (attributes &&& flagMask objectFlags) ++ sized area.authPolicy ++
        area.details.toBytes := rfl
  refine ⟨tag, front, attributes, back, by simp [front], ?_, ?_⟩
  · refine hresponse.bytes.trans ?_
    simp only [bodyBytes, sized, PublicArea.toBytesWith, List.append_assoc, front, back]
  · simp only [toBytes, Header.toBytes, ofParts, SizedPublic.ofArea, SizedPublic.toBytes,
      SizedName.ofName, SizedName.toBytes, hcut, List.append_assoc, front, back]
    -- Cutting the attributes leaves the size in front of them as it is.
    rfl

/-! ### Results -/

/-- What the caller gets for a response. -/
def judge (response : Bytes) : Except Failure ReadPublic :=
  (ofResponse response).mapError Malformed.failure

/-- How a response is judged by the header that was received of it. -/
structure Judged (received response : Bytes) (result : Except Failure ReadPublic) : Prop where
  tooSmall_iff : result = .error .bufferTooSmall ↔ declaredSize received < Header.size
  invalid_iff : result = .error .invalidParameter ↔
    Header.size ≤ declaredSize received ∧ declaredCode received = Header.sequenceCode
  refused : Header.size ≤ declaredSize received → declaredCode received ≠ Header.successCode →
    declaredCode received ≠ Header.sequenceCode → result = .error .deviceBusy
  success : Header.size ≤ declaredSize received → declaredCode received = Header.successCode →
    (∃ value, result = .ok value) ∨ result = .error .deviceBusy ∨ result = .error .notSupported
  ok : ∀ value, result = .ok value → value.Reproduces response

/-- The failure of a response whose header is refused. -/
theorem judge_of_header_error {cause : Malformed} (h : responseHeader response = .error cause) :
    judge response = .error cause.failure := by
  rw [judge, ofResponse_of_header_error h]
  rfl

theorem judge_of_success {header : Header} (h : responseHeader response = .ok header) :
    (∃ value, judge response = .ok value) ∨ judge response = .error .deviceBusy ∨
      judge response = .error .notSupported := by
  rw [judge]
  cases hdecoded : ofResponse response with
  | ok value => exact .inl ⟨value, rfl⟩
  | error cause =>
    refine .inr ((inBody_of_ofResponse h hdecoded).imp (fun hbusy => ?_) fun hsupported => ?_)
    · exact congrArg Except.error hbusy
    · exact congrArg Except.error hsupported

theorem reproduces_of_judge {value : ReadPublic} (h : judge response = .ok value) :
    value.Reproduces response := by
  rw [judge] at h
  cases hdecoded : ofResponse response with
  | ok found =>
    rw [hdecoded] at h
    cases h
    exact reproduces_of_ofResponse hdecoded
  | error cause =>
    rw [hdecoded] at h
    cases h

/-- The failures that a response can be refused with. -/
theorem failure_of_judge {failure : Failure} (h : judge response = .error failure) :
    failure ∈ [Failure.deviceBusy, .notSupported, .bufferTooSmall, .invalidParameter] := by
  rw [judge] at h
  cases hdecoded : ofResponse response with
  | ok value =>
    rw [hdecoded] at h
    cases h
  | error cause =>
    rw [hdecoded] at h
    cases h
    cases cause <;> simp [Malformed.failure]

section
variable {received : Bytes} {capacity : Nat}

theorem judged_of_short (h : Returned received capacity response)
    (hshort : declaredSize received < Header.size) :
    Judged received response (judge response) := by
  have hnot : ¬ Header.size ≤ declaredSize received := Nat.not_le.mpr hshort
  have hresult : judge response = .error .bufferTooSmall :=
    judge_of_header_error (responseHeader_of_short (h.length_eq ▸ hshort))
  exact {
    tooSmall_iff := iff_of_true hresult hshort
    invalid_iff := iff_of_false (by simp [hresult]) fun hinvalid => hnot hinvalid.1
    refused := fun hlong => absurd hlong hnot
    success := fun hlong => absurd hlong hnot
    ok := fun _ => reproduces_of_judge }

theorem judged_of_success (h : Returned received capacity response)
    (hlong : Header.size ≤ declaredSize received)
    (hsuccess : declaredCode received = Header.successCode) :
    Judged received response (judge response) := by
  obtain ⟨hsize, hcode⟩ := h.header hlong
  have hheader := responseHeader_of_length (h.length_eq ▸ hlong) hsize
  rw [hcode, if_pos hsuccess] at hheader
  have hresult := judge_of_success hheader
  have hother : ∀ failure ∈ [Failure.bufferTooSmall, .invalidParameter],
      judge response ≠ .error failure := by
    rcases hresult with ⟨value, hresult⟩ | hresult | hresult <;> simp [hresult]
  exact {
    tooSmall_iff := iff_of_false (hother _ (by simp)) (Nat.not_lt.mpr hlong)
    invalid_iff := iff_of_false (hother _ (by simp)) fun hinvalid =>
      absurd (hsuccess.symm.trans hinvalid.2) (by decide)
    refused := fun _ hrefused => absurd hsuccess hrefused
    success := fun _ _ => hresult
    ok := fun _ => reproduces_of_judge }

/-- A code that is not success decides alone, whatever the body is. -/
theorem judged_of_refusal (h : Returned received capacity response)
    (hlong : Header.size ≤ declaredSize received)
    (hrefused : declaredCode received ≠ Header.successCode) :
    Judged received response (judge response) := by
  obtain ⟨hsize, hcode⟩ := h.header hlong
  have hheader := responseHeader_of_length (h.length_eq ▸ hlong) hsize
  rw [hcode, if_neg hrefused] at hheader
  have hresult : judge response =
      if declaredCode received = Header.sequenceCode then .error .invalidParameter
      else .error .deviceBusy := by
    split_ifs at hheader ⊢
    · exact judge_of_header_error hheader
    · exact judge_of_header_error hheader
  exact {
    tooSmall_iff := iff_of_false (by rw [hresult]; split_ifs <;> simp) (Nat.not_lt.mpr hlong)
    invalid_iff := by
      rw [hresult]
      split_ifs with hsequence
      · exact iff_of_true rfl ⟨hlong, hsequence⟩
      · exact iff_of_false (by simp) fun hinvalid => hsequence hinvalid.2
    refused := fun _ _ hother => hresult.trans (if_neg hother)
    success := fun _ hsuccess => absurd hsuccess hrefused
    ok := fun _ => reproduces_of_judge }

/-- Whatever a transport returns, the header it received settles the result. -/
theorem judged_of_returned (h : Returned received capacity response) :
    Judged received response (judge response) := by
  by_cases hshort : declaredSize received < Header.size
  · exact judged_of_short h hshort
  have hlong := Nat.not_lt.mp hshort
  by_cases hsuccess : declaredCode received = Header.successCode
  · exact judged_of_success h hlong hsuccess
  · exact judged_of_refusal h hlong hsuccess

end

end ReadPublic

end TpmLink

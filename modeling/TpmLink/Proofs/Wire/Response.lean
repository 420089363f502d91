import TpmLink.Proofs.Slices
import TpmLink.Proofs.Wire.RoundTrip

/-!
# ReadPublic responses on the wire

The form of a response is written down without a reader: a header that carries the length of the
whole, a public area behind its size, and two names. Decoding accepts exactly that form, and the
form leaves no choice for the value.
-/

namespace TpmLink

open Reader

/-! ### Headers -/

theorem Header.slice_tag (header : Header) (rest : Bytes) :
    slice (header.toBytes ++ rest) 0 2 = be16 header.tag := by
  have hbytes : header.toBytes ++ rest =
      [] ++ (be16 header.tag ++ (be32 header.length ++ (be32 header.code ++ rest))) := by
    simp only [toBytes, List.append_assoc, List.nil_append]
  exact slice_of_parts _ _ _ hbytes rfl (length_be16 _)

theorem Header.slice_length (header : Header) (rest : Bytes) :
    slice (header.toBytes ++ rest) 2 4 = be32 header.length := by
  have hbytes : header.toBytes ++ rest =
      be16 header.tag ++ (be32 header.length ++ (be32 header.code ++ rest)) := by
    simp only [toBytes, List.append_assoc]
  exact slice_of_parts _ _ _ hbytes (length_be16 _) (length_be32 _)

theorem Header.slice_code (header : Header) (rest : Bytes) :
    slice (header.toBytes ++ rest) 6 4 = be32 header.code := by
  have hbytes : header.toBytes ++ rest =
      (be16 header.tag ++ be32 header.length) ++ (be32 header.code ++ rest) := by
    simp only [toBytes, List.append_assoc]
  exact slice_of_parts _ _ _ hbytes (by simp) (length_be32 _)

/-- A header is found exactly where its ten bytes stand in front. -/
theorem Header.ofBytes?_eq_some_iff (bytes : Bytes) (header : Header) :
    Header.ofBytes? bytes = some header ↔ ∃ rest, bytes = header.toBytes ++ rest := by
  constructor
  · intro h
    by_cases hshort : bytes.length < Header.size
    · rw [Header.ofBytes?, if_pos hshort] at h
      cases h
    · rw [Header.ofBytes?, if_neg hshort] at h
      have hlength : 10 ≤ bytes.length := Nat.not_lt.mp hshort
      have htag : (slice bytes 0 2).length = 2 := by simp [slice]; omega
      have hsize : (slice bytes 2 4).length = 4 := by simp [slice]; omega
      have hcode : (slice bytes 6 4).length = 4 := by simp [slice]; omega
      cases h
      refine ⟨bytes.drop 10, ?_⟩
      rw [Header.toBytes, be16_beValue htag, be32_beValue hsize, be32_beValue hcode]
      simp only [slice, List.drop_zero, List.append_assoc]
      rw [← List.drop_drop (i := 4) (j := 6), List.take_append_drop]
      rw [← List.drop_drop (i := 4) (j := 2), List.take_append_drop, List.take_append_drop]
  · rintro ⟨rest, rfl⟩
    have hlong : ¬ (header.toBytes ++ rest).length < Header.size := by simp
    rw [Header.ofBytes?, if_neg hlong, header.slice_tag, header.slice_length, header.slice_code]
    simp only [beValue_be16, beValue_be32, UInt16.ofNat_toNat, UInt32.ofNat_toNat]

theorem Header.ofBytes?_append (header : Header) (rest : Bytes) :
    Header.ofBytes? (header.toBytes ++ rest) = some header :=
  (Header.ofBytes?_eq_some_iff _ _).mpr ⟨rest, rfl⟩

namespace ReadPublic

theorem responseHeader_of_short {response : Bytes} (h : response.length < Header.size) :
    responseHeader response = .error (.noHeader response.length) := by
  rw [responseHeader, Header.ofBytes?, if_pos h]

theorem responseHeader_of_shortLength {header : Header} (h : header.length.toNat < Header.size)
    (rest : Bytes) :
    responseHeader (header.toBytes ++ rest) = .error (.shortLength header.length) := by
  simp only [responseHeader, Header.ofBytes?_append]
  rw [if_pos h]

theorem responseHeader_eq_ok_iff (response : Bytes) (header : Header) :
    responseHeader response = .ok header ↔
      header.code = Header.successCode ∧ Header.size ≤ header.length.toNat ∧
        ∃ rest, response = header.toBytes ++ rest := by
  rw [← Header.ofBytes?_eq_some_iff]
  cases hfound : Header.ofBytes? response with
  | none => simp [responseHeader, hfound]
  | some found =>
    simp only [responseHeader, hfound, Option.some.injEq]
    by_cases hsmall : found.length.toNat < Header.size
    · rw [if_pos hsmall]
      refine ⟨fun h => (by cases h), ?_⟩
      rintro ⟨-, hlarge, rfl⟩
      omega
    · rw [if_neg hsmall]
      by_cases hcode : found.code = Header.successCode
      · rw [if_pos hcode]
        constructor
        · intro h
          cases h
          exact ⟨hcode, Nat.not_lt.mp hsmall, rfl⟩
        · rintro ⟨-, -, rfl⟩
          rfl
      · rw [if_neg hcode]
        constructor
        · intro h
          split at h <;> cases h
        · rintro ⟨hzero, -, rfl⟩
          exact absurd hzero hcode

/-! ### Bodies -/

/-- The value that an area with its attribute word and two names stand for. -/
def ofParts (area : PublicArea) (attributes : UInt32) (name qualifiedName : Bytes) :
    ReadPublic where
  outPublic := SizedPublic.ofArea (area.withAttributes attributes)
  name := SizedName.ofName name
  qualifiedName := SizedName.ofName qualifiedName

/-- Are the parts as long as a response may make them? -/
structure PartsWithinBounds (area : PublicArea) (name qualifiedName : Bytes) : Prop where
  area : area.WithinBounds
  name : name.length ≤ maxName
  qualifiedName : qualifiedName.length ≤ maxName

/-- What follows the header: an area behind its size and two names. -/
def bodyBytes (area : PublicArea) (attributes : UInt32) (name qualifiedName : Bytes) : Bytes :=
  sized (area.toBytesWith attributes) ++ sized name ++ sized qualifiedName

def bodyGrammar : Grammar ReadPublic := fun bytes value =>
  ∃ area attributes name qualifiedName, PartsWithinBounds area name qualifiedName ∧
    bytes = bodyBytes area attributes name qualifiedName ∧
    value = ofParts area attributes name qualifiedName

theorem recognizes_sub (max : Nat) (hmax : max < 2 ^ 16) :
    (Reader.sub max).Recognizes fun bytes inner =>
      ∃ payload : Bytes, payload.length ≤ max ∧ inner = Cursor.ofBytes payload ∧
        bytes = sized payload := by
  refine ((recognizes_sized max).bind fun payload => recognizes_pure _).congr fun bytes inner => ?_
  rw [sized_andThen hmax]
  simp [Grammar.unit, and_assoc]

theorem recognizes_sizedName :
    SizedName.read.Recognizes fun bytes value =>
      ∃ name : Bytes, name.length ≤ maxName ∧ value = SizedName.ofName name ∧
        bytes = sized name := by
  refine ((recognizes_sized maxName).bind fun name => recognizes_pure _).congr
    fun bytes value => ?_
  rw [sized_andThen (by decide)]
  simp [Grammar.unit, and_assoc]

theorem recognizes_body : readBody.Recognizes bodyGrammar := by
  refine ((recognizes_sub maxPublicArea (by decide)).bind fun inner =>
    (recognizes_within exhausts_publicArea inner).bind fun area => recognizes_sizedName.bind
    fun name => recognizes_sizedName.bind fun qualifiedName => recognizes_pure _).congr
    fun bytes value => ?_
  constructor
  · rintro ⟨_, _, _, ⟨payload, -, rfl, rfl⟩, ⟨area, _, _, ⟨rfl, hbounds, attributes, hattributes,
      hpayload⟩, ⟨_, _, _, ⟨name, hname, rfl, rfl⟩, ⟨_, _, _, ⟨qualifiedName, hqualified, rfl, rfl⟩,
      ⟨rfl, rfl⟩, rfl⟩, rfl⟩, rfl⟩, rfl⟩
    change payload = area.toBytesWith attributes at hpayload
    refine ⟨area, attributes, name, qualifiedName, ⟨hbounds, hname, hqualified⟩, ?_, ?_⟩
    · simp [bodyBytes, hpayload]
    · have hlength := area.length_toBytes_withAttributes attributes
      rw [PublicArea.withAttributes_of_eq hattributes, ← hpayload] at hlength
      rw [ofParts, PublicArea.withAttributes_of_eq hattributes, SizedPublic.ofArea, hlength]
      rfl
  · rintro ⟨area, attributes, name, qualifiedName, ⟨hbounds, hname, hqualified⟩, rfl, rfl⟩
    have hlimit := PublicArea.length_toBytesWith_le_limit hbounds attributes
    refine ⟨Cursor.ofBytes (area.toBytesWith attributes), _, _,
      ⟨_, hlimit, rfl, rfl⟩, ⟨area.withAttributes attributes, [], _,
      ⟨rfl, hbounds, attributes, rfl, rfl⟩, ⟨SizedName.ofName name, _, _, ⟨name, hname, rfl, rfl⟩,
      ⟨SizedName.ofName qualifiedName, _, [], ⟨qualifiedName, hqualified, rfl, rfl⟩, ⟨rfl, ?_⟩,
      rfl⟩, rfl⟩, rfl⟩, ?_⟩
    · rw [ofParts, SizedPublic.ofArea, area.length_toBytes_withAttributes]
      rfl
    · simp [bodyBytes]

/-! ### Responses -/

/-- The form of a response: any tag, the length of the whole, the code of success, and a body of
parts within their bounds. -/
structure IsResponse (response : Bytes) (tag : UInt16) (area : PublicArea) (attributes : UInt32)
    (name qualifiedName : Bytes) : Prop where
  bounds : PartsWithinBounds area name qualifiedName
  bytes : response = be16 tag ++ be32 (UInt32.ofNat response.length) ++ be32 0 ++
    bodyBytes area attributes name qualifiedName

/-- Is every size in the value the real length of what it stands in front of? -/
structure HasRealSizes (value : ReadPublic) : Prop where
  outPublic : value.outPublic.size.toNat = value.outPublic.area.toBytes.length
  name : value.name.size.toNat = value.name.name.length
  qualifiedName : value.qualifiedName.size.toNat = value.qualifiedName.name.length

variable {area : PublicArea} {name qualifiedName : Bytes}

theorem size_ofName {name : Bytes} (h : name.length ≤ maxName) :
    (SizedName.ofName name).size.toNat = name.length :=
  UInt16.toNat_ofNat_of_lt' (Nat.lt_of_le_of_lt h (by decide))

theorem hasRealSizes_ofParts (h : PartsWithinBounds area name qualifiedName)
    (attributes : UInt32) : (ofParts area attributes name qualifiedName).HasRealSizes where
  outPublic := PublicArea.size_ofArea h.area
  name := size_ofName h.name
  qualifiedName := size_ofName h.qualifiedName

/-- No body is longer than 742 bytes, and so no response is longer than 752. -/
theorem length_bodyBytes_le (h : PartsWithinBounds area name qualifiedName)
    (attributes : UInt32) : (bodyBytes area attributes name qualifiedName).length ≤ 742 := by
  have harea := PublicArea.length_toBytesWith_le h.area attributes
  have hname := h.name
  have hqualified := h.qualifiedName
  simp only [maxName, maxDigest] at hname hqualified
  simp only [bodyBytes, List.length_append, length_sized]
  omega

/-- Skip the header and read what follows it. -/
theorem recognizes_skip_body :
    (Reader.bytes Header.size >>= fun _ => readBody).Recognizes fun bytes value =>
      ∃ front body : Bytes, front.length = Header.size ∧ bodyGrammar body value ∧
        bytes = front ++ body := by
  refine ((recognizes_bytes Header.size).bind fun _ => recognizes_body).congr fun bytes value => ?_
  constructor
  · rintro ⟨_, front, body, ⟨hlength, rfl⟩, hbody, hbytes⟩
    exact ⟨front, body, hlength, hbody, hbytes⟩
  · rintro ⟨front, body, hlength, hbody, hbytes⟩
    exact ⟨front, front, body, ⟨hlength, rfl⟩, hbody, hbytes⟩

/-- What reading the body comes to once the end it reached is compared with the declared length and
the real one. -/
def conclude (declared : UInt32) (held : Nat) :
    Except Malformed ReadPublic × Cursor → Except Malformed ReadPublic
  | (.error cause, _) => .error cause
  | (.ok value, after) =>
    if after.position = declared.toNat ∧ after.rest = [] then .ok value
    else .error (.lengthMismatch after.position declared held)

theorem conclude_eq_ok_iff (declared : UInt32) (held : Nat)
    (outcome : Except Malformed ReadPublic × Cursor) (value : ReadPublic) :
    conclude declared held outcome = .ok value ↔
      ∃ after, outcome = (.ok value, after) ∧ after.position = declared.toNat ∧
        after.rest = [] := by
  obtain ⟨result, after⟩ := outcome
  cases result with
  | error cause => simp [conclude]
  | ok found =>
    rw [conclude]
    split
    · simp_all [and_assoc]
    · simp_all

/-- A refusal of the header is the refusal of the response. -/
theorem ofResponse_of_header_error {response : Bytes} {cause : Malformed}
    (h : responseHeader response = .error cause) : ofResponse response = .error cause := by
  rw [ofResponse, h]
  rfl

/-- Once the header is accepted, reading the body settles the outcome. -/
theorem ofResponse_of_header {response : Bytes} {header : Header}
    (hheader : responseHeader response = .ok header) :
    ofResponse response = conclude header.length response.length
      ((Reader.bytes Header.size >>= fun _ => readBody) (Cursor.ofBytes response)) := by
  simp only [ofResponse, hheader]
  generalize (Reader.bytes Header.size >>= fun _ => readBody) (Cursor.ofBytes response) = outcome
  obtain ⟨result, position, rest⟩ := outcome
  cases result with
  | error cause => rfl
  | ok value =>
    change (if position = header.length.toNat ∧ rest.isEmpty then Except.ok value
      else Except.error _) = _
    simp only [conclude, List.isEmpty_iff]

/-- A response is read when header and body fill it and the header declares its length. -/
theorem ofResponse_eq_ok_iff_body (response : Bytes) (value : ReadPublic) :
    ofResponse response = .ok value ↔
      ∃ header body, responseHeader response = .ok header ∧ bodyGrammar body value ∧
        response = header.toBytes ++ body ∧ response.length = header.length.toNat := by
  cases hheader : responseHeader response with
  | error cause =>
    rw [ofResponse, hheader]
    constructor
    · intro h
      cases h
    · rintro ⟨header, body, h, -⟩
      cases h
  | ok header =>
    obtain ⟨-, -, rest, hresponse⟩ := (responseHeader_eq_ok_iff response header).mp hheader
    rw [ofResponse_of_header hheader, conclude_eq_ok_iff]
    constructor
    · rintro ⟨after, hafter, hposition, hend⟩
      obtain ⟨bytes, ⟨front, body, hfront, hbody, rfl⟩, hbytes, hcount⟩ :=
        (recognizes_skip_body _ _ _).mp hafter
      change response = front ++ body ++ after.rest at hbytes
      rw [hend, List.append_nil] at hbytes
      rw [hposition, ← hbytes] at hcount
      have hsplit : front ++ body = header.toBytes ++ rest := by rw [← hbytes, hresponse]
      obtain ⟨rfl, -⟩ := List.append_inj hsplit (by rw [hfront, Header.length_toBytes])
      exact ⟨header, body, rfl, hbody, hbytes, by rw [hcount]; exact (Nat.zero_add _).symm⟩
    · rintro ⟨_, body, ⟨rfl⟩, hbody, hbytes, hlength⟩
      refine ⟨⟨response.length, []⟩, (recognizes_skip_body _ _ _).mpr ?_, hlength, rfl⟩
      refine ⟨response, ⟨_, body, Header.length_toBytes _, hbody, hbytes⟩, ?_, ?_⟩
      · exact (List.append_nil _).symm
      · exact (Nat.zero_add _).symm

/-- A response has the form exactly when its header and its body are as they are read. -/
theorem exists_isResponse_iff (response : Bytes) (value : ReadPublic) :
    (∃ tag area attributes name qualifiedName,
      IsResponse response tag area attributes name qualifiedName ∧
      value = ofParts area attributes name qualifiedName) ↔
    ∃ header body, responseHeader response = .ok header ∧ bodyGrammar body value ∧
      response = header.toBytes ++ body ∧ response.length = header.length.toNat := by
  constructor
  · rintro ⟨tag, area, attributes, name, qualifiedName, ⟨hbounds, hbytes⟩, rfl⟩
    -- The bounds keep the length far below what the header can declare.
    have hbody := length_bodyBytes_le hbounds attributes
    have htotal := congrArg List.length hbytes
    simp only [List.length_append, length_be16, length_be32] at htotal
    have hmax : response.length ≤ 752 := by omega
    have hlength : (UInt32.ofNat response.length).toNat = response.length :=
      UInt32.toNat_ofNat_of_lt' (Nat.lt_of_le_of_lt hmax (by decide))
    let header : Header := ⟨tag, UInt32.ofNat response.length, Header.successCode⟩
    have hfront : response = header.toBytes ++ bodyBytes area attributes name qualifiedName :=
      hbytes
    refine ⟨header, _, (responseHeader_eq_ok_iff _ _).mpr ⟨rfl, ?_, _, hfront⟩,
      ⟨area, attributes, name, qualifiedName, hbounds, rfl, rfl⟩, hfront, hlength.symm⟩
    rw [hlength, Header.size]
    omega
  · rintro ⟨header, _, hheader, ⟨area, attributes, name, qualifiedName, hbounds, rfl, rfl⟩, hbytes,
      hlength⟩
    obtain ⟨hcode, -, -⟩ := (responseHeader_eq_ok_iff _ _).mp hheader
    refine ⟨header.tag, area, attributes, name, qualifiedName, ⟨hbounds, ?_⟩, rfl⟩
    rw [hlength, UInt32.ofNat_toNat]
    rw [Header.toBytes, hcode] at hbytes
    exact hbytes

/-- Decoding accepts exactly the form of a response. Its parts determine the value, in which every
size is the real one. -/
theorem ofResponse_eq_ok_iff (response : Bytes) (value : ReadPublic) :
    (ofResponse response = .ok value ↔
      ∃ tag area attributes name qualifiedName,
        IsResponse response tag area attributes name qualifiedName ∧
        value = ofParts area attributes name qualifiedName) ∧
    ∀ tag area attributes name qualifiedName,
      IsResponse response tag area attributes name qualifiedName →
        (ofParts area attributes name qualifiedName).HasRealSizes := by
  refine ⟨?_, fun tag area attributes name qualifiedName h => hasRealSizes_ofParts h.bounds _⟩
  rw [ofResponse_eq_ok_iff_body, exists_isResponse_iff]

/-- An ECC key with a policy and a choice made for every selector. -/
def signingKey : PublicArea where
  nameAlg := 0x000B
  attributes := FlagSet.truncate 0x00040072
  authPolicy := [0xA0, 0xA1]
  details := .ecc ⟨.aes 128 0x0043, .ecDaa 0x000B 7, 0x0003, .kdf1Sp800_56a 0x000B⟩ [1, 2, 3] [4, 5]

/-- What follows the header when the key is read, with two reserved attribute bits. -/
def signingKeyBody : Bytes := bodyBytes signingKey 0x00040309 [0x00, 0x0B, 0x55] [0x00, 0x0B, 0x66]

def signingKeyResponse : Bytes :=
  Header.toBytes ⟨Header.noSessionsTag, UInt32.ofNat (10 + signingKeyBody.length), 0⟩ ++
    signingKeyBody

def signingKeyValue : ReadPublic :=
  ofParts signingKey 0x00040309 [0x00, 0x0B, 0x55] [0x00, 0x0B, 0x66]

end ReadPublic

end TpmLink

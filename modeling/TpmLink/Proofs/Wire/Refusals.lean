import TpmLink.Proofs.Wire.Response

/-!
# Refusing bytes

A reader in sequence refuses what its first part refuses, and what its second part refuses behind
bytes that the first one accepts. Behind a header that says success, a response is refused as its
body is.
-/

namespace TpmLink

namespace Reader

variable {α β : Type} {reader : Reader α} {next : α → Reader β} {grammar : Grammar α} {value : α}
  {bytes front back : Bytes} {failure : Failure}

/-- Wherever the bytes stand, the reader fails on them with that failure. -/
def Refuses (reader : Reader α) (bytes : Bytes) (failure : Failure) : Prop :=
  ∀ position, ∃ cause after, reader ⟨position, bytes⟩ = (.error cause, after) ∧
    cause.failure = failure

theorem refuses_fail (cause : Malformed) (bytes : Bytes) :
    (fail cause : Reader α).Refuses bytes cause.failure :=
  fun _ => ⟨cause, _, rfl, rfl⟩

theorem Refuses.bind (h : reader.Refuses bytes failure) (next : α → Reader β) :
    (reader >>= next).Refuses bytes failure := by
  intro position
  obtain ⟨cause, after, hread, hcause⟩ := h position
  exact ⟨cause, after, bind_of_error hread, hcause⟩

/-- Behind what the first reader accepts, the second one refuses for both. -/
theorem Recognizes.refuses (hreader : reader.Recognizes grammar) (hfront : grammar front value)
    (h : (next value).Refuses back failure) :
    (reader >>= next).Refuses (front ++ back) failure := by
  intro position
  obtain ⟨cause, after, hread, hcause⟩ := h (position + front.length)
  have hfirst := (hreader ⟨position, front ++ back⟩ value ⟨position + front.length, back⟩).mpr
    ⟨front, hfront, rfl, rfl⟩
  exact ⟨cause, after, (bind_of_ok hfirst).trans hread, hcause⟩

/-- A payload of its own is refused from the outside as from the inside. -/
theorem Refuses.within {inner : Cursor} (h : reader.Refuses inner.rest failure) (bytes : Bytes) :
    (within inner reader).Refuses bytes failure := by
  intro position
  obtain ⟨cause, after, hread, hcause⟩ := h inner.position
  have hinner : (reader inner).1 = .error cause := congrArg Prod.fst hread
  exact ⟨cause, ⟨position, bytes⟩, Prod.ext hinner rfl, hcause⟩

/-- A length beyond the largest allowed is refused, whatever is behind it. -/
theorem refuses_oversized {max : Nat} {size : UInt16} (h : max < size.toNat) (back : Bytes) :
    (sized max).Refuses (be16 size ++ back) .deviceBusy := by
  refine recognizes_word16.refuses ⟨trivial, rfl⟩ ?_
  dsimp only
  rw [if_pos h]
  exact fun position => ⟨.oversized size.toNat (position - 2) max, _, rfl, rfl⟩

/-- An identifier is refused when it is unknown, and otherwise when its algorithm is. -/
theorem refuses_algorithm {arm : Algorithm → Reader β} {id : UInt16}
    (h : ∀ algorithm : Algorithm, algorithm.id = id → (arm algorithm).Refuses back .notSupported) :
    (algorithm >>= arm).Refuses (be16 id ++ back) .notSupported := by
  cases hid : Algorithm.ofId? id with
  | none =>
    refine (recognizes_word16.refuses ⟨trivial, rfl⟩ ?_).bind arm
    rw [hid]
    exact refuses_fail (.unknownAlgorithm id) back
  | some known =>
    have hknown := Algorithm.id_of_ofId? hid
    exact recognizes_algorithm.refuses ⟨trivial, congrArg be16 hknown.symm⟩ (h known hknown)

end Reader

open Reader

namespace ReadPublic

variable {header : Header} {body response : Bytes} {value : ReadPublic} {failure : Failure}

/-! ### Responses -/

theorem skip_header (header : Header) (body : Bytes) :
    (Reader.bytes Header.size >>= fun _ => readBody) (.ofBytes (header.toBytes ++ body)) =
      readBody ⟨Header.size, body⟩ := by
  have hskip : Reader.bytes Header.size (.ofBytes (header.toBytes ++ body)) =
      (.ok header.toBytes, ⟨Header.size, body⟩) :=
    (recognizes_bytes Header.size _ _ _).mpr
      ⟨header.toBytes, ⟨header.length_toBytes, rfl⟩, rfl, by simp [Cursor.ofBytes]⟩
  exact bind_of_ok hskip

theorem ofResponse_append (hcode : header.code = Header.successCode)
    (hlong : Header.size ≤ header.length.toNat) (body : Bytes) :
    ofResponse (header.toBytes ++ body) =
      conclude header.length (header.toBytes ++ body).length (readBody ⟨Header.size, body⟩) := by
  have hheader := (responseHeader_eq_ok_iff (header.toBytes ++ body) header).mpr
    ⟨hcode, hlong, body, rfl⟩
  rw [ofResponse_of_header hheader, skip_header]

theorem ofResponse_of_refuses (hcode : header.code = Header.successCode)
    (hlong : Header.size ≤ header.length.toNat) (h : readBody.Refuses body failure) :
    (ofResponse (header.toBytes ++ body)).mapError Malformed.failure = .error failure := by
  obtain ⟨cause, after, hread, rfl⟩ := h Header.size
  rw [ofResponse_append hcode hlong, hread]
  rfl

/-- A body that is read leaves the rest to the comparison of the three lengths. -/
theorem ofResponse_of_body (hcode : header.code = Header.successCode)
    (hlong : Header.size ≤ header.length.toNat) (hbody : bodyGrammar body value) (extra : Bytes) :
    (ofResponse (header.toBytes ++ (body ++ extra))).mapError Malformed.failure =
      if Header.size + body.length = header.length.toNat ∧ extra = [] then .ok value
      else .error .deviceBusy := by
  have hread := (recognizes_body ⟨Header.size, body ++ extra⟩ value
    ⟨Header.size + body.length, extra⟩).mpr ⟨body, hbody, rfl, rfl⟩
  rw [ofResponse_append hcode hlong, hread, conclude]
  split <;> rfl

/-- What is accepted is a header that says success and declares the length of the whole, with a body
behind it. -/
theorem exists_parts_of_ofResponse (h : ofResponse response = .ok value) :
    ∃ (header : Header) (area : PublicArea) (attributes : UInt32) (name qualifiedName : Bytes),
      header.code = Header.successCode ∧
      PartsWithinBounds area name qualifiedName ∧
      value = ofParts area attributes name qualifiedName ∧
      response = header.toBytes ++ bodyBytes area attributes name qualifiedName ∧
      response.length = header.length.toNat := by
  obtain ⟨header, _, hheader, ⟨area, attributes, name, qualifiedName, hbounds, rfl, hvalue⟩, hbytes,
    hlength⟩ := (ofResponse_eq_ok_iff_body response value).mp h
  obtain ⟨hcode, -, -⟩ := (responseHeader_eq_ok_iff response header).mp hheader
  exact ⟨header, area, attributes, name, qualifiedName, hcode, hbounds, hvalue, hbytes, hlength⟩

end ReadPublic

end TpmLink

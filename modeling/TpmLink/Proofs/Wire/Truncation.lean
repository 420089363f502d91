import TpmLink.Proofs.Wire.Refusals

/-!
# Responses that are cut, continued or declared otherwise

Every reader knows where it ends, so a strict beginning of what it accepts is refused as incomplete.
A response that is cut, continued or declares another length than it has is therefore never read,
and it is always the header or the number of bytes that is blamed.
-/

namespace TpmLink

namespace Reader

variable {α β : Type} {reader : Reader α} {next : α → Reader β} {grammar : Grammar α} {value : α}
  {bytes front back : Bytes}

/-! ### Beginnings -/

/-- Every strict beginning of the bytes is refused as incomplete. -/
def RefusesBeginnings (reader : Reader α) (bytes : Bytes) : Prop :=
  ∀ front back, bytes = front ++ back → back ≠ [] → reader.Refuses front .deviceBusy

theorem refusesBeginnings_nil (reader : Reader α) : reader.RefusesBeginnings [] := by
  intro front back hsplit hback
  exact absurd (List.append_eq_nil_iff.mp hsplit.symm).2 hback

theorem Recognizes.refusesBeginnings (hreader : reader.Recognizes grammar)
    (hfront : grammar front value) (h : reader.RefusesBeginnings front)
    (hnext : (next value).RefusesBeginnings back) :
    (reader >>= next).RefusesBeginnings (front ++ back) := by
  intro start rest hsplit hrest
  rcases List.append_eq_append_iff.mp hsplit with ⟨middle, rfl, hback⟩ | ⟨middle, hcut, rfl⟩
  · exact hreader.refuses hfront (hnext middle rest hback hrest)
  · -- The cut is at the end of the first part or before it.
    cases middle with
    | nil =>
      rw [List.append_nil] at hcut
      have hnone := hreader.refuses hfront (hnext [] back rfl hrest)
      rwa [List.append_nil, hcut] at hnone
    | cons byte middle => exact (h start (byte :: middle) hcut (List.cons_ne_nil _ _)).bind next

theorem Recognizes.refusesBeginnings_map (hreader : reader.Recognizes grammar)
    (hbytes : grammar bytes value) (h : reader.RefusesBeginnings bytes) (make : α → β) :
    (do return make (← reader) : Reader β).RefusesBeginnings bytes := by
  have hmap : (do return make (← reader) : Reader β).RefusesBeginnings (bytes ++ []) :=
    hreader.refusesBeginnings hbytes h (refusesBeginnings_nil _)
  rwa [List.append_nil] at hmap

theorem refusesBeginnings_bytes (bytes : Bytes) :
    (Reader.bytes bytes.length).RefusesBeginnings bytes := by
  intro front back hsplit hback position
  have hshort : front.length < bytes.length := by
    have hpositive := List.length_pos_iff.mpr hback
    rw [hsplit, List.length_append]
    omega
  exact ⟨.truncated bytes.length position front.length, _, if_pos hshort, rfl⟩

theorem refusesBeginnings_word16 (word : UInt16) : word16.RefusesBeginnings (be16 word) := by
  have hbytes := refusesBeginnings_bytes (be16 word)
  rw [length_be16] at hbytes
  exact (recognizes_bytes 2).refusesBeginnings_map ⟨length_be16 word, rfl⟩ hbytes _

theorem refusesBeginnings_sized {max : Nat} {payload : Bytes} (hmax : max < 2 ^ 16)
    (h : payload.length ≤ max) : (sized max).RefusesBeginnings (TpmLink.sized payload) := by
  refine recognizes_word16.refusesBeginnings ⟨trivial, rfl⟩ (refusesBeginnings_word16 _) ?_
  have hsize : (UInt16.ofNat payload.length).toNat = payload.length :=
    UInt16.toNat_ofNat_of_lt' (Nat.lt_of_le_of_lt h hmax)
  dsimp only
  rw [hsize, if_neg (Nat.not_lt.mpr h)]
  exact refusesBeginnings_bytes payload

end Reader

open Reader

namespace ReadPublic

variable {header : Header} {area : PublicArea} {name qualifiedName response : Bytes}
  {value : ReadPublic}

theorem refusesBeginnings_sizedName (h : name.length ≤ maxName) :
    SizedName.read.RefusesBeginnings (sized name) :=
  (recognizes_sized maxName).refusesBeginnings_map
    ⟨⟨h, Nat.lt_of_le_of_lt h (by decide)⟩, rfl⟩ (refusesBeginnings_sized (by decide) h) _

/-- A cut in the public area is found by its size, before any selector is judged. -/
theorem refusesBeginnings_body (h : PartsWithinBounds area name qualifiedName)
    (attributes : UInt32) :
    readBody.RefusesBeginnings (bodyBytes area attributes name qualifiedName) := by
  have hlimit := PublicArea.length_toBytesWith_le_limit h.area attributes
  have hsub : (Reader.sub maxPublicArea).RefusesBeginnings (sized (area.toBytesWith attributes)) :=
    (recognizes_sized maxPublicArea).refusesBeginnings_map
      ⟨⟨hlimit, Nat.lt_of_le_of_lt hlimit (by decide)⟩, rfl⟩
      (refusesBeginnings_sized (by decide) hlimit) _
  rw [bodyBytes, List.append_assoc]
  refine (recognizes_sub maxPublicArea (by decide)).refusesBeginnings
    ⟨_, hlimit, rfl, rfl⟩ hsub ?_
  rw [← List.nil_append (sized name ++ sized qualifiedName)]
  refine (recognizes_within exhausts_publicArea (.ofBytes _)).refusesBeginnings
    ⟨rfl, PublicArea.grammar_toBytesWith h.area attributes⟩ (refusesBeginnings_nil _) ?_
  refine recognizes_sizedName.refusesBeginnings ⟨name, h.name, rfl, rfl⟩
    (refusesBeginnings_sizedName h.name) ?_
  exact recognizes_sizedName.refusesBeginnings_map ⟨qualifiedName, h.qualifiedName, rfl, rfl⟩
    (refusesBeginnings_sizedName h.qualifiedName) _

/-! ### Cut, continued or declared otherwise -/

/-- The bytes with another length in their header, where they have a header. -/
def redeclared (bytes : Bytes) (declared : UInt32) : Bytes :=
  if bytes.length < Header.size then bytes
  else bytes.take 2 ++ be32 declared ++ bytes.drop 6

theorem redeclared_append (header : Header) (body : Bytes) (declared : UInt32) :
    redeclared (header.toBytes ++ body) declared =
      Header.toBytes { header with length := declared } ++ body := by
  have hlong : ¬ (header.toBytes ++ body).length < Header.size := by simp
  have htag : (header.toBytes ++ body).take 2 = be16 header.tag := by
    rw [Header.toBytes, List.append_assoc, List.append_assoc]
    exact List.take_left' (length_be16 _)
  have hcode : (header.toBytes ++ body).drop 6 = be32 header.code ++ body := by
    rw [Header.toBytes, List.append_assoc]
    exact List.drop_left' (by simp)
  rw [redeclared, if_neg hlong, htag, hcode]
  simp only [Header.toBytes, List.append_assoc]

/-- The first `count` bytes of a body and what follows it are a strict beginning of the body or the
whole of it with something behind it. -/
theorem take_append_cases (body extra : Bytes) (count : Nat) :
    (count < body.length ∧ ∃ back, body = (body ++ extra).take count ++ back ∧ back ≠ []) ∨
      body.length ≤ count ∧
        (body ++ extra).take count = body ++ extra.take (count - body.length) := by
  rcases Nat.lt_or_ge count body.length with hshort | hlong
  · refine .inl ⟨hshort, body.drop count, ?_, ?_⟩
    · rw [List.take_append_of_le_length (Nat.le_of_lt hshort), List.take_append_drop]
    · exact List.ne_nil_of_length_pos (by rw [List.length_drop]; omega)
  · exact .inr ⟨hlong, by rw [List.take_append, List.take_of_length_le hlong]⟩

/-- Behind a header that covers itself a body is read where it is whole, nothing follows it and the
header declares its end. -/
theorem ofResponse_take (hcode : header.code = Header.successCode)
    (hlong : Header.size ≤ header.length.toNat)
    (hbounds : PartsWithinBounds area name qualifiedName) (attributes : UInt32) (extra : Bytes)
    (count : Nat) :
    let body := bodyBytes area attributes name qualifiedName
    (ofResponse (header.toBytes ++ (body ++ extra).take count)).mapError Malformed.failure =
      if min count (body ++ extra).length = body.length ∧
        header.length.toNat = Header.size + body.length
      then .ok (ofParts area attributes name qualifiedName)
      else .error .deviceBusy := by
  intro body
  rcases take_append_cases body extra count with ⟨hshort, back, hsplit, hback⟩ | ⟨hwhole, htake⟩
  · have hrefused := refusesBeginnings_body hbounds attributes _ back hsplit hback
    rw [ofResponse_of_refuses hcode hlong hrefused, if_neg]
    omega
  · have hbody : bodyGrammar body (ofParts area attributes name qualifiedName) :=
      ⟨area, attributes, name, qualifiedName, hbounds, rfl, rfl⟩
    rw [htake, ofResponse_of_body hcode hlong hbody]
    refine if_congr ?_ rfl rfl
    rw [List.take_eq_nil_iff, ← List.length_eq_zero_iff, List.length_append]
    omega

/-- A response that is cut after `count` bytes, or continued with others, and declares another
length is too small where the header is cut or the length does not cover it. It is read as before
where neither its bytes nor its length have changed, and blames the chip otherwise. -/
theorem ofResponse_redeclared (h : ofResponse response = .ok value) (count : Nat) (extra : Bytes)
    (declared : UInt32) :
    (ofResponse (redeclared ((response ++ extra).take count) declared)).mapError Malformed.failure =
      if count < 10 ∨ declared.toNat < 10 then .error .bufferTooSmall
      else if min count (response ++ extra).length = response.length ∧
        declared.toNat = response.length then .ok value
      else .error .deviceBusy := by
  obtain ⟨header, area, attributes, name, qualifiedName, hcode, hbounds, rfl, rfl, hlength⟩ :=
    exists_parts_of_ofResponse h
  rcases Nat.lt_or_ge count Header.size with hcut | hcut
  · -- The header is cut, and no length can be put into it.
    have hshort : ((header.toBytes ++ bodyBytes area attributes name qualifiedName ++
        extra).take count).length < Header.size := by
      rw [List.length_take]
      omega
    rw [redeclared, if_pos hshort, ofResponse_of_header_error (responseHeader_of_short hshort),
      if_pos (.inl hcut)]
    rfl
  · have hheader : header.toBytes.take count = header.toBytes :=
      List.take_of_length_le (header.length_toBytes ▸ hcut)
    rw [List.append_assoc, List.take_append, hheader, header.length_toBytes, redeclared_append]
    by_cases hdeclared : declared.toNat < Header.size
    · rw [ofResponse_of_header_error (responseHeader_of_shortLength hdeclared _),
        if_pos (.inr hdeclared)]
      rfl
    · have hcovered : ¬ (count < 10 ∨ declared.toNat < 10) :=
        fun h => h.elim (Nat.not_lt.mpr hcut) hdeclared
      have hother : ({ header with length := declared } : Header).code = Header.successCode := hcode
      rw [if_neg hcovered, ofResponse_take hother (Nat.not_lt.mp hdeclared) hbounds]
      refine if_congr ?_ rfl rfl
      simp only [List.length_append, header.length_toBytes, Header.size] at hcut ⊢
      omega

/-- A cut in front of the key derivation scheme of a key, with a header that declares what is left,
and a byte too many that is cut off again. -/
theorem ofResponse_redeclared_signingKey :
    ofResponse signingKeyResponse = .ok signingKeyValue ∧
      (ofResponse (redeclared ((signingKeyResponse ++ [0xFF]).take 38) 38)).mapError
        Malformed.failure = .error .deviceBusy ∧
      (ofResponse (redeclared ((signingKeyResponse ++ [0xFF]).take 61) 61)).mapError
        Malformed.failure = .ok signingKeyValue := by
  have hok : ofResponse signingKeyResponse = .ok signingKeyValue := by decide +kernel
  have hcut := ofResponse_redeclared hok 38 [0xFF] 38
  have hwhole := ofResponse_redeclared hok 61 [0xFF] 61
  exact ⟨hok, hcut.trans (by decide +kernel), hwhole.trans (by decide +kernel)⟩

end ReadPublic

end TpmLink

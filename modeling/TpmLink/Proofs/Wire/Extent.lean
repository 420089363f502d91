import TpmLink.Proofs.Wire.Locality
import TpmLink.Proofs.Wire.Response

/-!
# Where a reader stops

Whatever the bytes of a buffer are, reading from a position of it ends at a later position of it,
and what comes before the start has no part in the result. A body that is read takes up as many
bytes as its three sizes say, and what comes behind it has no part in the result either.
-/

namespace TpmLink

open Reader

namespace Reader

variable {α : Type} {reader : Reader α} {bytes : Bytes}

/-- The value, or the failure without the offsets that its cause tells. -/
def outcome (reader : Reader α) (cursor : Cursor) : Except Failure α :=
  (reader cursor).1.mapError Malformed.failure

/-- How far the reader moves the cursor. -/
def distance (reader : Reader α) (cursor : Cursor) : Nat :=
  (reader cursor).2.position - cursor.position

/-- Reading from `start` ends at a position of the buffer, with a value or with one of two failures,
and comes to the same after the same distance wherever the bytes from `start` on stand. -/
structure SafeFrom (reader : Reader α) (buffer : Bytes) (start : Nat) : Prop where
  stops : ∃ stop, start ≤ stop ∧ stop ≤ buffer.length ∧
    (reader (.inside buffer start)).2 = .inside buffer stop
  blames : ∀ failure, reader.outcome (.inside buffer start) = .error failure →
    failure = .deviceBusy ∨ failure = .notSupported
  agrees : ∀ (other : Bytes) (position : Nat), other.drop position = buffer.drop start →
    reader.outcome (.inside other position) = reader.outcome (.inside buffer start) ∧
      reader.distance (.inside other position) = reader.distance (.inside buffer start)

theorem SettledAt.exists_outcome (h : reader.SettledAt bytes) :
    ∃ (outcome : Except Failure α) (distance : Nat), distance ≤ bytes.length ∧
      (∀ failure, outcome = .error failure → failure = .deviceBusy ∨ failure = .notSupported) ∧
      ∀ position, reader.outcome ⟨position, bytes⟩ = outcome ∧
        (reader ⟨position, bytes⟩).2 = ⟨position + distance, bytes.drop distance⟩ := by
  cases h with
  | yields value distance hwithin hreads =>
    refine ⟨.ok value, distance, hwithin, ?_, fun position => ?_⟩
    · intro failure h
      cases h
    · rw [outcome, hreads position]
      exact ⟨rfl, rfl⟩
  | fails failure distance hwithin hblames hstops =>
    refine ⟨.error failure, distance, hwithin, ?_, fun position => ?_⟩
    · intro found h
      cases h
      exact hblames
    · obtain ⟨cause, rfl, hstop⟩ := hstops position
      rw [outcome, hstop]
      exact ⟨rfl, rfl⟩

theorem Local.safeFrom (h : reader.Local) {buffer : Bytes} {start : Nat}
    (hstart : start ≤ buffer.length) : reader.SafeFrom buffer start := by
  obtain ⟨found, far, hwithin, hblames, hsettled⟩ := (h (buffer.drop start)).exists_outcome
  rw [List.length_drop] at hwithin
  constructor
  · refine ⟨start + far, Nat.le_add_right _ _, by omega, ?_⟩
    rw [Cursor.inside, (hsettled start).2, List.drop_drop, Cursor.inside]
  · intro failure hfailure
    rw [Cursor.inside, (hsettled start).1] at hfailure
    exact hblames failure hfailure
  · intro other position hsame
    rw [Cursor.inside, Cursor.inside, hsame]
    refine ⟨by rw [(hsettled _).1, (hsettled _).1], ?_⟩
    simp only [distance, (hsettled _).2]
    omega

end Reader

namespace ReadPublic

/-- What a body between `start` and `stop` holds: sizes within their limits, each the real length of
its payload, that make up the whole way; bytes behind `stop` may be any or none. -/
structure BodyBetween (buffer : Bytes) (start stop : Nat) (value : ReadPublic) : Prop where
  sizes : value.HasRealSizes
  area_le : value.outPublic.size.toNat ≤ 608
  name_le : value.name.size.toNat ≤ 66
  qualifiedName_le : value.qualifiedName.size.toNat ≤ 66
  extent : stop = start + (2 + value.outPublic.size.toNat + 2 + value.name.size.toNat + 2 +
    value.qualifiedName.size.toNat)
  unread : ∀ other : Bytes, other.take stop = buffer.take stop →
    readBody (.inside other start) = (.ok value, .inside other stop)

/-- The bytes between two positions stand in every buffer that begins alike. -/
theorem drop_eq_of_take_eq {buffer other front back : Bytes} {start stop : Nat}
    (hbuffer : buffer.drop start = front ++ back) (hstop : stop = start + front.length)
    (hsame : other.take stop = buffer.take stop) :
    other.drop start = front ++ other.drop stop := by
  have hfront : (other.drop start).take front.length = front := by
    have hcut : (other.take stop).drop start = (buffer.take stop).drop start := by rw [hsame]
    rw [List.drop_take, List.drop_take, hbuffer, hstop, Nat.add_sub_cancel_left,
      List.take_left] at hcut
    exact hcut
  calc other.drop start
      = (other.drop start).take front.length ++ (other.drop start).drop front.length :=
        (List.take_append_drop _ _).symm
    _ = front ++ other.drop stop := by rw [hfront, List.drop_drop, hstop]

theorem bodyBetween_of_read {buffer : Bytes} {start : Nat} {value : ReadPublic} {after : Cursor}
    (hread : readBody (.inside buffer start) = (.ok value, after)) :
    BodyBetween buffer start after.position value := by
  obtain ⟨bytes, hbody, hrest, hposition⟩ := (recognizes_body _ _ _).mp hread
  obtain ⟨area, attributes, name, qualifiedName, hbounds, hbytes, hvalue⟩ := id hbody
  change buffer.drop start = bytes ++ after.rest at hrest
  change after.position = start + bytes.length at hposition
  have hsizes : value.HasRealSizes := hvalue ▸ hasRealSizes_ofParts hbounds attributes
  have harea : value.outPublic.size.toNat = (area.toBytesWith attributes).length := by
    rw [hsizes.outPublic, hvalue]
    exact area.length_toBytes_withAttributes attributes
  have hname : value.name.size.toNat = name.length := by rw [hsizes.name, hvalue]; rfl
  have hqualified : value.qualifiedName.size.toNat = qualifiedName.length := by
    rw [hsizes.qualifiedName, hvalue]; rfl
  constructor
  · exact hsizes
  · rw [harea]
    exact PublicArea.length_toBytesWith_le_limit hbounds.area attributes
  · rw [hname]
    exact hbounds.name
  · rw [hqualified]
    exact hbounds.qualifiedName
  · rw [hposition, harea, hname, hqualified, hbytes]
    simp only [bodyBytes, List.length_append, length_sized]
    omega
  · intro other hsame
    have hother := drop_eq_of_take_eq hrest hposition hsame
    exact (recognizes_body _ _ _).mpr ⟨bytes, hbody, hother, hposition⟩

end ReadPublic

/-- From any position of any buffer the readers of a public area and of a body stay inside it, fail
only for the chip or for an algorithm, and see only the bytes from there on. A body that is read
ends where its sizes say, whatever comes behind it. -/
theorem decoding_isLocal (buffer : Bytes) (start : Nat) (h : start ≤ buffer.length) :
    PublicArea.read.SafeFrom buffer start ∧ ReadPublic.readBody.SafeFrom buffer start ∧
      ∀ value after, ReadPublic.readBody (.inside buffer start) = (.ok value, after) →
        ReadPublic.BodyBetween buffer start after.position value :=
  ⟨local_publicArea.safeFrom h, ReadPublic.local_body.safeFrom h,
    fun _ _ => ReadPublic.bodyBetween_of_read⟩

/-- A body with bytes on both sides: reading ends behind the second name. -/
theorem decoding_isLocal_signingKey :
    let buffer : Bytes := [0xD1, 0xD2, 0xD3] ++ ReadPublic.signingKeyBody ++ [0xE1, 0xE2]
    3 ≤ buffer.length ∧ PublicArea.read.SafeFrom buffer 3 ∧
      ReadPublic.readBody.SafeFrom buffer 3 ∧
      ReadPublic.readBody (.inside buffer 3) =
        (.ok ReadPublic.signingKeyValue, ⟨54, [0xE1, 0xE2]⟩) ∧
      ReadPublic.BodyBetween buffer 3 54 ReadPublic.signingKeyValue := by
  intro buffer
  have hstart : 3 ≤ buffer.length := by decide
  have hread : ReadPublic.readBody (.inside buffer 3) =
      (.ok ReadPublic.signingKeyValue, ⟨54, [0xE1, 0xE2]⟩) := by decide +kernel
  obtain ⟨harea, hbody, hbetween⟩ := decoding_isLocal buffer 3 hstart
  exact ⟨hstart, harea, hbody, hread, hbetween _ _ hread⟩

end TpmLink

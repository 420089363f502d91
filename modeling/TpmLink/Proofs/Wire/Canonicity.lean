import TpmLink.Proofs.Wire.Locality
import TpmLink.Proofs.Wire.RoundTrip

/-!
# One encoding for each public area

Reading drops the reserved attribute bits and nothing else. Once these bits are cleared, the bytes
that were read are the encoding of the area they were read as, so bytes that are read as the same
area differ in reserved bits at most.
-/

namespace TpmLink

open Reader

namespace PublicArea

/-- The bytes with the reserved bits cleared in the attribute word, which stands at offset 4. -/
def clearReserved (bytes : Bytes) : Bytes :=
  bytes.take 4 ++ be32 (UInt32.ofNat (beValue (slice bytes 4 4)) &&& flagMask objectFlags) ++
    bytes.drop 8

theorem clearReserved_append {front : Bytes} (hfront : front.length = 4) (word : UInt32)
    (back : Bytes) :
    clearReserved (front ++ be32 word ++ back) =
      front ++ be32 (word &&& flagMask objectFlags) ++ back := by
  have htake : (front ++ (be32 word ++ back)).take 4 = front := List.take_left' hfront
  have hdrop : (front ++ (be32 word ++ back)).drop 4 = be32 word ++ back := List.drop_left' hfront
  have hback : (be32 word ++ back).drop 4 = back := List.drop_left' (length_be32 word)
  have hword : (be32 word ++ back).take 4 = be32 word := List.take_left' (length_be32 word)
  rw [List.append_assoc, clearReserved, slice, htake, hdrop, hword, beValue_be32,
    UInt32.ofNat_toNat, ← List.drop_drop (i := 4) (j := 4), hdrop, hback]

/-- Bytes that are long enough consist of four bytes, the attribute word and the rest. -/
theorem eq_append_word {bytes : Bytes} (h : 8 ≤ bytes.length) :
    bytes = bytes.take 4 ++ be32 (UInt32.ofNat (beValue (slice bytes 4 4))) ++ bytes.drop 8 := by
  have hword : (slice bytes 4 4).length = 4 := by
    simp only [slice, List.length_take, List.length_drop]
    omega
  rw [be32_beValue hword, slice, List.append_assoc, ← List.drop_drop (i := 4) (j := 4),
    List.take_append_drop, List.take_append_drop]

theorem length_clearReserved_le (bytes : Bytes) :
    (clearReserved bytes).length ≤ max 8 bytes.length := by
  simp only [clearReserved, List.length_append, List.length_take, length_be32, List.length_drop]
  omega

/-- The bytes of an area with an attribute word in the middle. -/
theorem exists_toBytesWith (area : PublicArea) : ∃ front back : Bytes, front.length = 4 ∧
    ∀ attributes, area.toBytesWith attributes = front ++ be32 attributes ++ back :=
  ⟨area.algorithm.toBytes ++ be16 area.nameAlg, sized area.authPolicy ++ area.details.toBytes,
    by simp, fun attributes => by simp [toBytesWith]⟩

/-- The bytes of an area within bounds are those that encode it once their reserved bits are
cleared. -/
theorem grammar_iff_clearReserved (bytes : Bytes) (area : PublicArea) :
    grammar bytes area ↔ area.WithinBounds ∧ area.toBytes = clearReserved bytes := by
  obtain ⟨front, back, hfront, hsplit⟩ := area.exists_toBytesWith
  refine and_congr_right fun _ => ⟨?_, fun h => ?_⟩
  · rintro ⟨attributes, hattributes, rfl⟩
    rw [toBytes_eq, hattributes, hsplit, hsplit, clearReserved_append hfront]
    rfl
  · -- An encoding is longer than the fields in front of the policy, so the word is there.
    have hlength := length_clearReserved_le bytes
    rw [← h, toBytes_eq, length_toBytesWith] at hlength
    have hlong : 8 ≤ bytes.length := by omega
    rw [toBytes_eq, hsplit, clearReserved] at h
    obtain ⟨hhead, hback⟩ := List.append_inj h (by
      simp only [List.length_append, hfront, length_be32, List.length_take]
      omega)
    obtain ⟨htake, hword⟩ := List.append_inj hhead (by
      rw [hfront, List.length_take]
      omega)
    rw [be32_inj] at hword
    refine ⟨UInt32.ofNat (beValue (slice bytes 4 4)), FlagSet.ext hword, ?_⟩
    rw [hsplit, htake, hback]
    exact eq_append_word hlong

theorem read_inside_iff (buffer : Bytes) (start : Nat) (area : PublicArea) (after : Cursor) :
    PublicArea.read (.inside buffer start) = (.ok area, after) ↔
      area.WithinBounds ∧ after = .inside buffer buffer.length ∧
        area.toBytes = clearReserved (buffer.drop start) := by
  rw [exhausts_publicArea, Cursor.inside, grammar_iff_clearReserved, and_assoc]
  refine and_congr_right fun _ => ?_
  rw [and_comm]
  refine and_congr_left fun h => ?_
  have hlength := length_clearReserved_le (buffer.drop start)
  rw [← h, toBytes_eq, length_toBytesWith, List.length_drop] at hlength
  have hend : start + (buffer.drop start).length = buffer.length := by
    rw [List.length_drop]
    omega
  rw [hend, Cursor.inside, List.drop_length]

/-- Reading an area from a position of a buffer yields exactly the area within bounds that the bytes
from there on encode once their reserved attribute bits are cleared, and ends at the end of the
buffer. So bytes are read as one area where both are accepted and they differ in reserved bits at
most. -/
theorem read_isCanonical (buffer : Bytes) (start : Nat) :
    (∀ area after, PublicArea.read (.inside buffer start) = (.ok area, after) ↔
      area.WithinBounds ∧ after = .inside buffer buffer.length ∧
        area.toBytes = clearReserved (buffer.drop start)) ∧
    ∀ (other : Bytes) (position : Nat),
      (∃ area, (PublicArea.read (.inside buffer start)).1 = .ok area ∧
        (PublicArea.read (.inside other position)).1 = .ok area) ↔
      (∃ area, (PublicArea.read (.inside buffer start)).1 = .ok area) ∧
        (∃ area, (PublicArea.read (.inside other position)).1 = .ok area) ∧
        clearReserved (buffer.drop start) = clearReserved (other.drop position) := by
  refine ⟨read_inside_iff buffer start, fun other position => ⟨?_, ?_⟩⟩
  · rintro ⟨area, hfirst, hsecond⟩
    obtain ⟨-, -, hbytes⟩ := (read_inside_iff buffer start area _).mp (Prod.ext hfirst rfl)
    obtain ⟨-, -, hbytes'⟩ := (read_inside_iff other position area _).mp (Prod.ext hsecond rfl)
    exact ⟨⟨area, hfirst⟩, ⟨area, hsecond⟩, by rw [← hbytes, ← hbytes']⟩
  · rintro ⟨⟨area, hfirst⟩, -, hsame⟩
    obtain ⟨hbounds, -, hbytes⟩ := (read_inside_iff buffer start area _).mp (Prod.ext hfirst rfl)
    have hsecond := (read_inside_iff other position area _).mpr
      ⟨hbounds, rfl, by rw [hbytes, hsame]⟩
    exact ⟨area, hfirst, congrArg Prod.fst hsecond⟩

end PublicArea

end TpmLink

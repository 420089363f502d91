import TpmLink.Bytes

/-!
# Slices

A slice that lies inside the bytes is as long as it was asked to be. With what comes before it and
behind it, it makes up the whole.
-/

namespace TpmLink

theorem slice_append (front middle rest : Bytes) :
    slice (front ++ (middle ++ rest)) front.length middle.length = middle := by
  simp [slice]

/-- The slice at a place where the bytes are known. -/
theorem slice_of_parts {bytes : Bytes} {offset count : Nat} (front middle rest : Bytes)
    (h : bytes = front ++ (middle ++ rest)) (hoffset : front.length = offset)
    (hcount : middle.length = count) : slice bytes offset count = middle := by
  rw [h, ← hoffset, ← hcount]
  exact slice_append front middle rest

theorem length_slice {bytes : Bytes} {offset count : Nat} (h : offset + count ≤ bytes.length) :
    (slice bytes offset count).length = count := by
  simp only [slice, List.length_take, List.length_drop]
  omega

theorem getElem?_slice (bytes : Bytes) (offset count index : Nat) :
    (slice bytes offset count)[index]? =
      if index < count then bytes[offset + index]? else none := by
  simp [slice, List.getElem?_take]

/-- A slice is settled by the bytes at its places. -/
theorem slice_congr {bytes other : Bytes} {offset count : Nat}
    (h : ∀ index, offset ≤ index → index < offset + count → other[index]? = bytes[index]?) :
    slice other offset count = slice bytes offset count := by
  apply List.ext_getElem?
  intro index
  rw [getElem?_slice, getElem?_slice]
  by_cases hindex : index < count
  · simp only [hindex, if_true]
    exact h (offset + index) (by omega) (by omega)
  · simp only [hindex, if_false]

theorem slice_take {bytes : Bytes} {offset count kept : Nat} (h : offset + count ≤ kept) :
    slice (bytes.take kept) offset count = slice bytes offset count := by
  have hkept : count ≤ kept - offset := by omega
  rw [slice, slice, List.drop_take, List.take_take, Nat.min_eq_left hkept]

/-- A slice goes on where the one before it ends. -/
theorem slice_append_slice (bytes : Bytes) (offset count more : Nat) :
    slice bytes offset count ++ slice bytes (offset + count) more =
      slice bytes offset (count + more) := by
  rw [slice, slice, slice, List.take_add, List.drop_drop]

theorem slice_append_drop (bytes : Bytes) (offset count : Nat) :
    slice bytes offset count ++ bytes.drop (offset + count) = bytes.drop offset := by
  rw [slice, ← List.drop_drop, List.take_append_drop]

end TpmLink

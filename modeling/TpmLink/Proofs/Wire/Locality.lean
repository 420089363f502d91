import TpmLink.Proofs.Wire.Recognition
import TpmLink.Wire.Decoding

/-!
# Readers see the bytes in front of them only

What a reader comes to, and how far it goes, is settled by the bytes that are still to be read;
where they stand shows in the offsets of a cause and nowhere else. A reader never leaves the bytes,
also when it fails, and a structure is refused only for causes that blame the chip or an algorithm
without a place.
-/

namespace TpmLink

/-- A cursor at a position of a buffer. -/
def Cursor.inside (buffer : Bytes) (position : Nat) : Cursor := ⟨position, buffer.drop position⟩

namespace Reader

variable {α β : Type} {reader : Reader α} {next : α → Reader β}

/-- What the reader comes to at these bytes, wherever they stand: one value or one failure, and
always after the same distance. -/
inductive SettledAt (reader : Reader α) (bytes : Bytes) : Prop where
  | yields (value : α) (distance : Nat) (within : distance ≤ bytes.length)
      (reads : ∀ position,
        reader ⟨position, bytes⟩ = (.ok value, ⟨position + distance, bytes.drop distance⟩))
  | fails (failure : Failure) (distance : Nat) (within : distance ≤ bytes.length)
      (blames : failure = .deviceBusy ∨ failure = .notSupported)
      (stops : ∀ position, ∃ cause, cause.failure = failure ∧
        reader ⟨position, bytes⟩ = (.error cause, ⟨position + distance, bytes.drop distance⟩))

/-- Does the reader see nothing but the bytes in front of it? -/
def Local (reader : Reader α) : Prop := ∀ bytes, reader.SettledAt bytes

/-! ### Sequences -/

theorem bind_eq_error_iff (reader : Reader α) (next : α → Reader β) (cursor after : Cursor)
    (cause : Malformed) :
    (reader >>= next) cursor = (.error cause, after) ↔
      reader cursor = (.error cause, after) ∨
        ∃ a middle, reader cursor = (.ok a, middle) ∧ next a middle = (.error cause, after) := by
  cases hread : reader cursor with
  | mk result middle =>
    cases result with
    | ok a =>
      rw [bind_of_ok hread]
      simp [and_assoc]
    | error found =>
      rw [bind_of_error hread]
      simp

theorem Local.bind (hreader : reader.Local) (hnext : ∀ a, (next a).Local) :
    (reader >>= next).Local := by
  intro bytes
  cases hreader bytes with
  | fails failure distance hwithin hblames hstops =>
    refine .fails failure distance hwithin hblames fun position => ?_
    obtain ⟨cause, hcause, hstop⟩ := hstops position
    exact ⟨cause, hcause, (bind_eq_error_iff _ _ _ _ _).mpr (.inl hstop)⟩
  | yields a distance hwithin hreads =>
    -- The second reader starts where the first one stopped, at the same bytes each time.
    cases hnext a (bytes.drop distance) with
    | yields value further hfurther hvalue =>
      rw [List.length_drop] at hfurther
      refine .yields value (distance + further) (by omega) fun position => ?_
      have hafter := hvalue (position + distance)
      rw [List.drop_drop, Nat.add_assoc] at hafter
      exact (bind_eq_ok_iff _ _ _ _ _).mpr ⟨a, _, hreads position, hafter⟩
    | fails failure further hfurther hblames hstops =>
      rw [List.length_drop] at hfurther
      refine .fails failure (distance + further) (by omega) hblames fun position => ?_
      obtain ⟨cause, hcause, hafter⟩ := hstops (position + distance)
      rw [List.drop_drop, Nat.add_assoc] at hafter
      exact ⟨cause, hcause,
        (bind_eq_error_iff _ _ _ _ _).mpr (.inr ⟨a, _, hreads position, hafter⟩)⟩

theorem local_pure (value : α) : (pure value : Reader α).Local :=
  fun _ => .yields value 0 (Nat.zero_le _) fun _ => rfl

/-- A reader that fails where it stands, whatever it tells about the place. -/
theorem local_of_fails {failure : Failure}
    (hblames : failure = .deviceBusy ∨ failure = .notSupported)
    (h : ∀ cursor, ∃ cause, cause.failure = failure ∧ reader cursor = (.error cause, cursor)) :
    reader.Local :=
  fun _ => .fails failure 0 (Nat.zero_le _) hblames fun _ => h _

theorem local_misplaced (selector : Selector) (algorithm : Algorithm) :
    (fail (.misplaced selector algorithm) : Reader α).Local :=
  local_of_fails (.inr rfl) fun _ => ⟨_, rfl, rfl⟩

/-! ### Numbers, payloads and algorithms -/

theorem local_bytes (count : Nat) : (bytes count).Local := by
  intro bytes
  by_cases hshort : bytes.length < count
  · refine .fails .deviceBusy 0 (Nat.zero_le _) (.inl rfl) fun position => ?_
    exact ⟨.truncated count position bytes.length, rfl, if_pos hshort⟩
  · exact .yields (bytes.take count) count (Nat.not_lt.mp hshort) fun position => if_neg hshort

theorem local_word16 : word16.Local := (local_bytes 2).bind fun _ => local_pure _

theorem local_word32 : word32.Local := (local_bytes 4).bind fun _ => local_pure _

theorem local_sized (max : Nat) : (sized max).Local := by
  refine local_word16.bind fun size => ?_
  dsimp only
  split
  · exact local_of_fails (.inl rfl) fun cursor => ⟨_, rfl, rfl⟩
  · exact local_bytes _

theorem local_algorithm : algorithm.Local := by
  refine local_word16.bind fun id => ?_
  split
  · exact local_pure _
  · exact local_of_fails (.inr rfl) fun _ => ⟨_, rfl, rfl⟩

theorem local_remaining : remaining.Local :=
  fun bytes => .yields bytes.length 0 (Nat.zero_le _) fun _ => rfl

/-- From the outside a payload of its own is judged at once, without a step. -/
theorem Local.within (h : reader.Local) (inner : Cursor) : (within inner reader).Local := by
  intro bytes
  cases h inner.rest with
  | yields value distance hwithin hreads =>
    have hinner : (reader inner).1 = .ok value := congrArg Prod.fst (hreads inner.position)
    exact .yields value 0 (Nat.zero_le _) fun position => Prod.ext hinner rfl
  | fails failure distance hwithin hblames hstops =>
    obtain ⟨cause, hcause, hstop⟩ := hstops inner.position
    have hinner : (reader inner).1 = .error cause := congrArg Prod.fst hstop
    exact .fails failure 0 (Nat.zero_le _) hblames fun position =>
      ⟨cause, hcause, Prod.ext hinner rfl⟩

theorem local_oneWord (make : UInt16 → α) : (do return make (← word16) : Reader α).Local :=
  local_word16.bind fun _ => local_pure _

theorem local_twoWords (make : UInt16 → UInt16 → α) :
    (do return make (← word16) (← word16) : Reader α).Local :=
  local_word16.bind fun first => local_oneWord (make first)

end Reader

open Reader

/-! ### Structures -/

theorem local_symmetricDef (allowXor : Bool) : (SymmetricDef.read allowXor).Local := by
  refine local_algorithm.bind fun selector => ?_
  split
  · exact local_twoWords _
  · exact local_twoWords _
  · split
    · exact local_oneWord _
    · exact local_misplaced _ _
  · exact local_pure _
  · exact local_misplaced _ _

theorem local_keyedHashScheme : KeyedHashScheme.read.Local := by
  refine local_algorithm.bind fun selector => ?_
  split
  · exact local_oneWord _
  · exact local_twoWords _
  · exact local_pure _
  · exact local_misplaced _ _

theorem local_rsaScheme : RsaScheme.read.Local := by
  refine local_algorithm.bind fun selector => ?_
  split
  · exact local_oneWord _
  · exact local_oneWord _
  · exact local_pure _
  · exact local_oneWord _
  · exact local_pure _
  · exact local_misplaced _ _

theorem local_eccScheme : EccScheme.read.Local := by
  refine local_algorithm.bind fun selector => ?_
  split
  · exact local_oneWord _
  · exact local_twoWords _
  · exact local_oneWord _
  · exact local_oneWord _
  · exact local_pure _
  · exact local_misplaced _ _

theorem local_kdfScheme : KdfScheme.read.Local := by
  refine local_algorithm.bind fun selector => ?_
  split
  · exact local_oneWord _
  · exact local_oneWord _
  · exact local_oneWord _
  · exact local_oneWord _
  · exact local_pure _
  · exact local_misplaced _ _

theorem local_rsaParameters : RsaParameters.read.Local :=
  (local_symmetricDef false).bind fun _ => local_rsaScheme.bind fun _ =>
    local_word16.bind fun _ => local_word32.bind fun _ => local_pure _

theorem local_eccParameters : EccParameters.read.Local :=
  (local_symmetricDef false).bind fun _ => local_eccScheme.bind fun _ =>
    local_word16.bind fun _ => local_kdfScheme.bind fun _ => local_pure _

theorem local_publicDetails (objectType : Algorithm) : (PublicDetails.read objectType).Local := by
  unfold PublicDetails.read
  split
  · exact local_keyedHashScheme.bind fun _ => (local_sized _).bind fun _ => local_pure _
  · exact (local_symmetricDef true).bind fun _ => (local_sized _).bind fun _ => local_pure _
  · exact local_rsaParameters.bind fun _ => (local_sized _).bind fun _ => local_pure _
  · exact local_eccParameters.bind fun _ => (local_sized _).bind fun _ =>
      (local_sized _).bind fun _ => local_pure _
  · exact local_misplaced _ _

theorem local_publicArea : PublicArea.read.Local := by
  refine local_algorithm.bind fun objectType => local_word16.bind fun _ =>
    local_word32.bind fun _ => (local_sized _).bind fun _ =>
    (local_publicDetails objectType).bind fun _ => local_remaining.bind fun left => ?_
  split
  · exact local_pure _
  · exact local_of_fails (.inl rfl) fun _ => ⟨_, rfl, rfl⟩

theorem local_sizedName : SizedName.read.Local := (local_sized _).bind fun _ => local_pure _

theorem ReadPublic.local_body : readBody.Local :=
  ((local_sized _).bind fun _ => local_pure _).bind fun inner =>
    (local_publicArea.within inner).bind fun _ => local_sizedName.bind fun _ =>
    local_sizedName.bind fun _ => local_pure _

end TpmLink

import TpmLink.Proofs.Bus.Trace
import TpmLink.Proofs.Wire.Truncation
import TpmLink.Transport.Response

/-!
# Headers as they are seen

A header is written once and read three times: as a structure, by the transport that takes a
response in, and by the decoder that judges it. All of them see the same fields in the first ten
bytes, whatever follows. A ReadPublic command is given its length after it was laid out, and is a
command like any other then.
-/

namespace TpmLink

namespace Header

/-! ### What is made of a header -/

/-- A transport refuses the header, or takes as many bytes as it declares. -/
def accept (header : Header) (capacity : Nat) : Except ResponseRefusal (UInt16 × Nat) :=
  if header.tag = legacyTag then .error (.legacy header.tag)
  else if capacity < header.length.toNat then .error (.tooLong header.length.toNat capacity)
  else .ok (header.tag, header.length.toNat)

/-- The decoder refuses the header, or goes on behind it. -/
def judge (header : Header) : Except Malformed Header :=
  if header.length.toNat < size then .error (.shortLength header.length)
  else if header.code = successCode then .ok header
  else if header.code = sequenceCode then .error .sequenceObject
  else .error (.refused header.code)

theorem eq_of_accept {header : Header} {capacity size : Nat} {tag : UInt16}
    (h : header.accept capacity = .ok (tag, size)) :
    tag = header.tag ∧ size = header.length.toNat := by
  rw [accept] at h
  split at h
  · cases h
  · split at h
    · cases h
    · cases h
      exact ⟨rfl, rfl⟩

theorem eq_of_judge {header found : Header} (h : header.judge = .ok found) : found = header := by
  rw [judge] at h
  split at h
  · cases h
  · split at h
    · cases h
      rfl
    · split at h <;> cases h

/-! ### Bytes that start with a header -/

variable (header : Header) (rest : Bytes)

/-- The transport reads the fields out of the bytes itself, and reads the header's. -/
theorem judgeResponse_append (capacity : Nat) :
    judgeResponse (header.toBytes ++ rest) capacity = header.accept capacity := by
  have hlong : ¬ (header.toBytes ++ rest).length < size := by simp
  rw [judgeResponse, if_neg hlong, slice_tag, slice_length, beValue_be16, beValue_be32,
    UInt16.ofNat_toNat]
  rfl

theorem responseHeader_append :
    ReadPublic.responseHeader (header.toBytes ++ rest) = header.judge := by
  rw [ReadPublic.responseHeader, ofBytes?_append]
  rfl

/-- Bytes for a header start with one. -/
theorem exists_eq_append {bytes : Bytes} (h : size ≤ bytes.length) :
    ∃ (header : Header) (rest : Bytes), bytes = header.toBytes ++ rest := by
  cases hfound : ofBytes? bytes with
  | none =>
    rw [ofBytes?, if_neg (Nat.not_lt.mpr h)] at hfound
    cases hfound
  | some header => exact ⟨header, (ofBytes?_eq_some_iff _ _).mp hfound⟩

end Header

/-- Reports aside, a header is accepted with the size it was judged to have. -/
theorem run_acceptResponse {σ : Type} (device : Device σ) (state : σ) (bytes : Bytes)
    (capacity : Nat) :
    ((acceptResponse bytes capacity).run device state).1 =
      match judgeResponse bytes capacity with
      | .ok (_, size) => .ok size
      | .error refusal => .error refusal.failure := by
  rw [acceptResponse]
  cases judgeResponse bytes capacity with
  | ok found => rfl
  | error refusal => cases refusal <;> rfl

/-- All who look at the front of the bytes see this header in it. -/
structure Header.SeenIn (header : Header) (bytes : Bytes) : Prop where
  decoded : ofBytes? bytes = some header
  encoded : header.toBytes = bytes.take 10
  accepted : ∀ capacity, judgeResponse bytes capacity = header.accept capacity
  judged : ReadPublic.responseHeader bytes = header.judge
  /-- What the transport accepts and the decoder goes on with is of the same size. -/
  agreed : ∀ {σ : Type} (device : Device σ) (state : σ) (capacity size : Nat) (found : Header),
    ((acceptResponse bytes capacity).run device state).1 = .ok size →
      ReadPublic.responseHeader bytes = .ok found → size = found.length.toNat

theorem Header.seenIn_append (header : Header) (rest : Bytes) :
    header.SeenIn (header.toBytes ++ rest) where
  decoded := ofBytes?_append header rest
  encoded := (List.take_left' header.length_toBytes).symm
  accepted := judgeResponse_append header rest
  judged := responseHeader_append header rest
  agreed := by
    intro σ device state capacity size found haccepted hjudged
    rw [responseHeader_append] at hjudged
    rw [run_acceptResponse, judgeResponse_append] at haccepted
    cases haccept : header.accept capacity with
    | error refusal =>
      rw [haccept] at haccepted
      cases haccepted
    | ok taken =>
      rw [haccept] at haccepted
      cases haccepted
      rw [eq_of_judge hjudged]
      exact (eq_of_accept haccept).2

/-! ### ReadPublic commands -/

namespace ReadPublic

/-- The command for a handle before its length is known. -/
def unsizedCommand (handle : UInt32) : Bytes :=
  Header.toBytes ⟨0x8001, 0, 0x0173⟩ ++ be32 handle

/-- A header that declares the length of the whole, and a handle behind it. -/
structure IsCommand (handle : UInt32) (command : Bytes) : Prop where
  header : Header.ofBytes? command = some ⟨0x8001, UInt32.ofNat command.length, 0x0173⟩
  length : (UInt32.ofNat command.length).toNat = command.length
  body : command.drop 10 = be32 handle
  /-- The length may as well be put in afterwards. -/
  patched : command =
    redeclared (unsizedCommand handle) (UInt32.ofNat (unsizedCommand handle).length)

end ReadPublic

theorem readPublicCommand_eq (handle : UInt32) :
    readPublicCommand handle = Header.toBytes ⟨0x8001, 14, 0x0173⟩ ++ be32 handle := by
  simp [readPublicCommand, Header.size, Header.noSessionsTag, Header.readPublicCode]

theorem length_readPublicCommand (handle : UInt32) : (readPublicCommand handle).length = 14 := by
  simp [readPublicCommand_eq, Header.size]

theorem isCommand_readPublicCommand (handle : UInt32) :
    ReadPublic.IsCommand handle (readPublicCommand handle) where
  header := by
    rw [length_readPublicCommand, readPublicCommand_eq]
    exact Header.ofBytes?_append _ _
  length := by
    rw [length_readPublicCommand]
    rfl
  body := by
    rw [readPublicCommand_eq]
    exact List.drop_left' (Header.length_toBytes _)
  patched := by
    have hlength : (ReadPublic.unsizedCommand handle).length = 14 := by
      simp [ReadPublic.unsizedCommand, Header.size]
    rw [hlength, ReadPublic.unsizedCommand, ReadPublic.redeclared_append]
    exact readPublicCommand_eq handle

theorem readPublicCommand_injective : Function.Injective readPublicCommand := by
  intro handle other hequal
  have hbody := (isCommand_readPublicCommand handle).body
  rw [hequal, (isCommand_readPublicCommand other).body] at hbody
  exact ((be32_inj _ _).mp hbody).symm

/-! ### All of them -/

/-- A header that was written is read back whatever follows it. Ten bytes always hold a header that
they are the encoding of, and the transport and the decoder see no other. The command of a handle
declares its own length in front of the handle, so handles and commands determine each other. -/
theorem Header.layouts_agree :
    (∀ (header : Header) (rest : Bytes), Header.ofBytes? (header.toBytes ++ rest) = some header) ∧
    (∀ bytes : Bytes, 10 ≤ bytes.length → ∃ header : Header, header.SeenIn bytes) ∧
    (∀ handle, ReadPublic.IsCommand handle (readPublicCommand handle)) ∧
    Function.Injective readPublicCommand := by
  refine ⟨Header.ofBytes?_append, ?_, isCommand_readPublicCommand, readPublicCommand_injective⟩
  intro bytes hlength
  obtain ⟨header, rest, rfl⟩ := Header.exists_eq_append hlength
  exact ⟨header, Header.seenIn_append header rest⟩

/-- A response of twelve bytes is taken as such by the transport and by the decoder. -/
theorem Header.layouts_agree_twelveBytes :
    let bytes : Bytes := [0x80, 0x01, 0, 0, 0, 12, 0, 0, 0, 0, 0xAB, 0xCD]
    10 ≤ bytes.length ∧ Header.SeenIn ⟨0x8001, 12, 0⟩ bytes ∧
      ((acceptResponse bytes 4096).run Script.player []).1 = .ok 12 ∧
      ReadPublic.responseHeader bytes = .ok ⟨0x8001, 12, 0⟩ ∧ 12 = (12 : UInt32).toNat := by
  intro bytes
  have hlong : 10 ≤ bytes.length := by decide
  obtain ⟨header, hseen⟩ := Header.layouts_agree.2.1 bytes hlong
  have hheader : Header.ofBytes? bytes = some ⟨0x8001, 12, 0⟩ := by decide
  obtain rfl : (⟨0x8001, 12, 0⟩ : Header) = header :=
    Option.some.inj (hheader.symm.trans hseen.decoded)
  have haccepted : ((acceptResponse bytes 4096).run Script.player []).1 = .ok 12 := by
    rw [run_acceptResponse]
    decide
  have hjudged : ReadPublic.responseHeader bytes = .ok ⟨0x8001, 12, 0⟩ := by decide
  have hagreed := hseen.agreed Script.player [] 4096 12 _ haccepted hjudged
  exact ⟨hlong, hseen, haccepted, hjudged, hagreed⟩

end TpmLink

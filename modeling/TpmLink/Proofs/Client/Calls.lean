import Mathlib.Data.List.Forall2
import TpmLink.Proofs.Client.Reading

/-!
# Calls one after another

A client keeps nothing between its calls, so each call is settled by what the chip does during it:
where the chip serves the call with the response for an object, the call returns that object,
whatever the calls before it came to. The handle of each call and the object behind it are
arbitrary within the bounds of the format.
-/

namespace TpmLink

open Script Trace

/-! ### Exchanges -/

/-- A call, the object behind its handle, and the tag of the response. -/
structure Exchange where
  handle : UInt32
  tag : UInt16
  area : PublicArea
  name : Bytes
  qualifiedName : Bytes
  tag_ne : tag ≠ Header.legacyTag
  bounds : ReadPublic.PartsWithinBounds area name qualifiedName

namespace Exchange

open ReadPublic Response

variable (exchange : Exchange)

/-- The object with its sizes. -/
def value : ReadPublic where
  outPublic := SizedPublic.ofArea exchange.area
  name := SizedName.ofName exchange.name
  qualifiedName := SizedName.ofName exchange.qualifiedName

/-- What stands behind the header of the response. -/
def body : Bytes :=
  exchange.value.outPublic.toBytes ++ exchange.value.name.toBytes ++
    exchange.value.qualifiedName.toBytes

/-- The response of a chip that holds the object. -/
def response : Bytes :=
  Header.toBytes ⟨exchange.tag, UInt32.ofNat (Header.size + exchange.body.length),
    Header.successCode⟩ ++ exchange.body

variable {exchange}

theorem body_eq : exchange.body = bodyBytes exchange.area exchange.area.attributes.bits
    exchange.name exchange.qualifiedName := rfl

theorem length_response : exchange.response.length = Header.size + exchange.body.length := by
  rw [response, List.length_append, Header.length_toBytes]

/-- No response is longer than 752 bytes. -/
theorem length_response_le : exchange.response.length ≤ 752 := by
  have hbody := length_bodyBytes_le exchange.bounds exchange.area.attributes.bits
  have hheader : Header.size = 10 := rfl
  rw [← body_eq] at hbody
  rw [length_response]
  omega

theorem isResponse : IsResponse exchange.response exchange.tag exchange.area
    exchange.area.attributes.bits exchange.name exchange.qualifiedName where
  bounds := exchange.bounds
  bytes := by
    rw [length_response, ← body_eq]
    rfl

theorem value_eq : exchange.value = ofParts exchange.area exchange.area.attributes.bits
    exchange.name exchange.qualifiedName := by
  rw [ofParts, PublicArea.withAttributes_of_eq (FlagSet.truncate_bits _).symm]
  rfl

theorem hasRealSizes : exchange.value.HasRealSizes := by
  rw [value_eq]
  exact hasRealSizes_ofParts exchange.bounds _

theorem judge_response : judge exchange.response = .ok exchange.value := by
  have hdecoded : ofResponse exchange.response = .ok exchange.value :=
    (ofResponse_eq_ok_iff_body _ _).mpr
      ((exists_isResponse_iff _ _).mp ⟨_, _, _, _, _, isResponse, value_eq⟩)
  rw [judge, hdecoded]
  rfl

/-! ### Headers -/

theorem tag_response (rest : Bytes) :
    slice (exchange.response ++ rest) 0 2 = be16 exchange.tag := by
  rw [response, List.append_assoc, Header.slice_tag]

theorem declaredSize_response (rest : Bytes) :
    declaredSize (exchange.response ++ rest) = exchange.response.length := by
  have hlength : (UInt32.ofNat (Header.size + exchange.body.length)).toNat =
      exchange.response.length := by
    rw [length_response]
    refine UInt32.toNat_ofNat_of_lt' ?_
    rw [← length_response]
    exact Nat.lt_of_le_of_lt length_response_le (by decide)
  have hslice : slice (exchange.response ++ rest) 2 4 =
      be32 (UInt32.ofNat (Header.size + exchange.body.length)) := by
    rw [response, List.append_assoc, Header.slice_length]
  rw [declaredSize, hslice, beValue_be32, hlength]

/-- No transport refuses the response for its tag or for its length. -/
theorem judgeResponse_response {capacity : Nat} (h : 752 ≤ capacity) :
    judgeResponse exchange.response capacity = .ok (exchange.tag, exchange.response.length) := by
  have hlong : ¬ exchange.response.length < Header.size := by
    rw [length_response]
    exact Nat.not_lt.mpr (Nat.le_add_right _ _)
  have htag : slice exchange.response 0 2 = be16 exchange.tag := by
    have hrest := exchange.tag_response []
    rwa [List.append_nil] at hrest
  have hsize : beValue (slice exchange.response 2 4) = exchange.response.length := by
    have hrest := exchange.declaredSize_response []
    rwa [List.append_nil] at hrest
  have hfits : ¬ capacity < exchange.response.length :=
    Nat.not_lt.mpr (Nat.le_trans length_response_le h)
  rw [judgeResponse, if_neg hlong, htag, beValue_be16, UInt16.ofNat_toNat, hsize]
  dsimp only
  rw [if_neg exchange.tag_ne, if_neg hfits]

/-- Whatever stands behind it in the stream, the response is taken whole. -/
theorem verdict_response {capacity : Nat} (rest : Bytes) (h : 752 ≤ capacity) :
    verdict (exchange.response ++ rest) capacity = .ok exchange.response := by
  have hlong : 2 ≤ (exchange.response ++ rest).length := by
    have hheader : Header.size = 10 := rfl
    rw [List.length_append, length_response]
    omega
  have hlegacy : ¬ IsLegacy (exchange.response ++ rest) := by
    rw [← tag_eq_legacyTag_iff hlong, tag_response, beValue_be16, UInt16.ofNat_toNat]
    exact exchange.tag_ne
  refine verdict_eq_ok_iff.mpr ⟨hlegacy, ?_, ?_⟩
  · rw [declaredSize_response]
    exact Nat.le_trans length_response_le h
  · rw [declaredSize_response, List.take_left]

end Exchange

/-! ### Calls -/

/-- A call as it went. -/
structure Call where
  trace : Trace
  result : Except Failure ReadPublic

/-- Calls one after another, each from the state of the device that the one before left. -/
def Client.calls {σ : Type} (client : Client Script) (device : Device σ) :
    List UInt32 → σ → List Call
  | [], _ => []
  | handle :: handles, state =>
    ⟨(client.readPublic handle).trace device state,
        ((client.readPublic handle).run device state).1⟩ ::
      client.calls device handles ((client.readPublic handle).run device state).2

namespace Exchange

/-- During the call no access fails, no wait runs out of time, and the chip delivers the response;
it may have more bytes behind it. -/
def Served (exchange : Exchange) (connection : Connection) (call : Call) : Prop :=
  ∃ rest, connection.link.Serves (readPublicCommand exchange.handle) connection.maxResponse
    (exchange.response ++ rest) call.trace

/-- The call returns the object with its real sizes, and the chip took the command for its handle
and nothing else. -/
structure Answered (exchange : Exchange) (connection : Connection) (call : Call) : Prop where
  result_eq : call.result = .ok exchange.value
  takes : connection.link.Takes (readPublicCommand exchange.handle) call.trace

variable {σ : Type} {device : Device σ} {state : σ} {connection : Connection}

/-- One call that is served is answered, from whatever state of the device. -/
theorem answered_of_served {exchange : Exchange} (hcapacity : 752 ≤ connection.maxResponse)
    (hserved : exchange.Served connection
      ⟨(connection.client.readPublic exchange.handle).trace device state,
        ((connection.client.readPublic exchange.handle).run device state).1⟩) :
    exchange.Answered connection
      ⟨(connection.client.readPublic exchange.handle).trace device state,
        ((connection.client.readPublic exchange.handle).run device state).1⟩ := by
  obtain ⟨rest, hserves⟩ := hserved
  have hlength : (readPublicCommand exchange.handle).length ≤ dataBufferSize := by
    rw [length_readPublicCommand]
    decide
  have hruns := runs_trace device
    (connection.client.submit (readPublicCommand exchange.handle)) state
  rw [Client.trace_readPublic] at hserves
  have hresult := Link.result_of_serves hlength (by decide) hcapacity
    (fun _ => verdict_response rest) hserves hruns
  rw [hresult] at hruns
  constructor
  · rw [Client.run_readPublic, hresult]
    dsimp only [Except.bind]
    exact judge_response
  · rw [Client.trace_readPublic]
    exact Link.takes_of_ok hlength hruns

/-- However many calls there are, each that is served is answered. -/
theorem calls_answered (hcapacity : 752 ≤ connection.maxResponse) (exchanges : List Exchange) :
    List.Forall₂ (fun exchange call =>
        exchange.Served connection call → exchange.Answered connection call)
      exchanges (connection.client.calls device (exchanges.map Exchange.handle) state) := by
  induction exchanges generalizing state with
  | nil => exact .nil
  | cons exchange rest ih => exact .cons (answered_of_served hcapacity) ih

end Exchange

/-- A client for any interface that is supported reads back what the chip holds, call by call: no
response is too long for it, each call that is served returns its object with real sizes, and the
chip takes the command of each such call. Nothing that an earlier call left behind matters. -/
theorem calls_returnObjects (base : Nat) (interface : Interface) (config : Config)
    (hkind : interface.kind ≠ .unsupported) (hcapacity : 752 ≤ config.maxResponse) :
    ∃ connection, Connection.ofInterface base interface config = .ok connection ∧
      (∀ (σ : Type) (device : Device σ) (state : σ) (exchanges : List Exchange),
        List.Forall₂ (fun exchange call =>
            exchange.Served connection call → exchange.Answered connection call)
          exchanges (connection.client.calls device (exchanges.map Exchange.handle) state)) ∧
      ∀ exchange : Exchange, exchange.value.HasRealSizes ∧ exchange.response.length ≤ 752 ∧
        judgeResponse exchange.response connection.maxResponse =
          .ok (exchange.tag, exchange.response.length) := by
  obtain ⟨connection, hconnection, hmax⟩ := Connection.exists_ofInterface base config hkind
  rw [← hmax] at hcapacity
  exact ⟨connection, hconnection,
    fun σ device state exchanges => Exchange.calls_answered hcapacity exchanges,
    fun exchange => ⟨Exchange.hasRealSizes, Exchange.length_response_le,
      Exchange.judgeResponse_response hcapacity⟩⟩

/-- A keyed hash without a name. -/
def Exchange.keyedHash : Exchange where
  handle := 0x81000001
  tag := Header.noSessionsTag
  area := ⟨0x000B, FlagSet.empty, [], .keyedHash .null [0x77]⟩
  name := []
  qualifiedName := []
  tag_ne := by decide
  bounds := ⟨by decide, by decide, by decide⟩

/-- A symmetric key with a policy and a name. -/
def Exchange.symmetricKey : Exchange where
  handle := 0x81000002
  tag := Header.sessionsTag
  area := ⟨0x000B, FlagSet.all, [0x01, 0x02, 0x03], .symCipher (.aes 128 0x0043) [0xAA]⟩
  name := [0x00, 0x0B, 0x55]
  qualifiedName := [0x00, 0x0B, 0x66]
  tag_ne := by decide
  bounds := ⟨by decide, by decide, by decide⟩

/-- Two objects are read one after the other from a chip that grants three bytes at a time. The
first response has 31 bytes, so its last burst is not used up, and the second call goes well all the
same. -/
theorem calls_returnObjects_pacedChip :
    let interface : Interface := ⟨.tis, .unknown⟩
    let connection : Connection :=
      ⟨interface, .fifo ⟨0, Timeouts.fifo⟩, Config.default.maxResponse⟩
    let exchanges : List Exchange := [.keyedHash, .symmetricKey]
    let calls := connection.client.calls (Fifo.pacedChip 0) (exchanges.map Exchange.handle)
      (false, exchanges.flatMap Exchange.response)
    interface.kind ≠ .unsupported ∧ 752 ≤ Config.default.maxResponse ∧
      Connection.ofInterface 0 interface Config.default = .ok connection ∧
      List.Forall₂ (fun exchange call => exchange.Served connection call) exchanges calls ∧
      List.Forall₂ (fun exchange call => exchange.Answered connection call) exchanges calls := by
  intro interface connection exchanges calls
  have hkind : interface.kind ≠ .unsupported := by decide
  obtain ⟨found, hfound, hcalls, -⟩ :=
    calls_returnObjects 0 interface Config.default hkind (by decide)
  obtain rfl : connection = found := Except.ok.inj hfound
  have hserved : List.Forall₂ (fun exchange call => exchange.Served connection call) exchanges
      calls := by
    refine .cons ⟨Exchange.symmetricKey.response, ?_⟩ (.cons ⟨[], ?_⟩ .nil)
    · dsimp only
      rw [Client.trace_readPublic]
      have hresult : ((connection.client.submit (readPublicCommand 0x81000001)).run
          (Fifo.pacedChip 0) (false, exchanges.flatMap Exchange.response)).1 =
            .ok Exchange.keyedHash.response := by decide +kernel
      exact Fifo.serves_of_ok (runs_trace _ _ _) hresult (by decide +kernel)
    · dsimp only
      rw [Client.trace_readPublic]
      have hresult : ((connection.client.submit (readPublicCommand 0x81000002)).run
          (Fifo.pacedChip 0) ((connection.client.readPublic 0x81000001).run
            (Fifo.pacedChip 0) (false, exchanges.flatMap Exchange.response)).2).1 =
            .ok Exchange.symmetricKey.response := by decide +kernel
      exact Fifo.serves_of_ok (runs_trace _ _ _) hresult (by decide +kernel)
  have hanswered :=
    hcalls _ (Fifo.pacedChip 0) (false, exchanges.flatMap Exchange.response) exchanges
  exact ⟨hkind, by decide, hfound, hserved, hanswered.mp (fun _ _ h => h) hserved⟩

end TpmLink

import CyphalOnboard.NodeSpec
import CyphalOnboard.Deserialization
import CyphalOnboard.Periods

namespace CyphalOnboard

open ByteBuffer OpenCyphal

variable {C : Canard} {τ : Type} {R : ℕ}

namespace GetInfoResponse

/-- The identity in `info`, byte for byte: protocol version, hardware version 0.0, software version
and VCS revision, unique ID and name, no image CRC and no certificate. -/
def answer (info : GetInfoResponse) : List UInt8 :=
  [canardCyphalSpecificationVersionMajor, canardCyphalSpecificationVersionMinor, 0, 0,
    info.softwareVersion.major, info.softwareVersion.minor] ++
  leBytes 8 info.softwareVcsRevisionId.toNat ++ info.uniqueId ++
  [UInt8.ofNat info.name.count] ++ info.name.used ++ [0, 0]

/-- The object has the identity in `info`. -/
structure Identifies (obj info : GetInfoResponse) : Prop where
  protocolVersion : obj.protocolVersion =
    ⟨canardCyphalSpecificationVersionMajor, canardCyphalSpecificationVersionMinor⟩
  hardwareVersion : obj.hardwareVersion = ⟨0, 0⟩
  softwareVersion : obj.softwareVersion = info.softwareVersion
  softwareVcsRevisionId : obj.softwareVcsRevisionId = info.softwareVcsRevisionId
  uniqueId : obj.uniqueId = info.uniqueId
  nameCount : obj.name.count = info.name.count
  name : obj.name.used = info.name.used
  noCrc : obj.softwareImageCrc.count = 0
  noCertificate : obj.certificateOfAuthenticity.count = 0

/-- The infos agree on what identifies a node. -/
structure Agrees (info info' : GetInfoResponse) : Prop where
  softwareVersion : info.softwareVersion = info'.softwareVersion
  softwareVcsRevisionId : info.softwareVcsRevisionId = info'.softwareVcsRevisionId
  uniqueId : info.uniqueId = info'.uniqueId
  nameCount : info.name.count = info'.name.count
  name : info.name.used = info'.name.used

/-- The members of an info that a node reads: the unique ID and the memory of the name have the
lengths of their type. What else is in the info does not matter. -/
structure Given (info : GetInfoResponse) : Prop where
  uniqueId : info.uniqueId.length = getInfoUniqueIdCapacity
  name : info.name.elements.length = getInfoNameCapacity
  nameCount : info.name.count ≤ getInfoNameCapacity

theorem Agrees.answer_eq {info info' : GetInfoResponse} (h : info.Agrees info') :
    info.answer = info'.answer := by
  unfold answer
  rw [h.softwareVersion, h.softwareVcsRevisionId, h.uniqueId, h.nameCount, h.name]

theorem SameValue.identifies {obj obj' info : GetInfoResponse} (h : obj.SameValue obj')
    (h' : obj'.Identifies info) : obj.Identifies info where
  protocolVersion := h.protocolVersion.trans h'.protocolVersion
  hardwareVersion := h.hardwareVersion.trans h'.hardwareVersion
  softwareVersion := h.softwareVersion.trans h'.softwareVersion
  softwareVcsRevisionId := h.softwareVcsRevisionId.trans h'.softwareVcsRevisionId
  uniqueId := h.uniqueId.trans h'.uniqueId
  nameCount := h.nameCount.trans h'.nameCount
  name := h.name.trans h'.name
  noCrc := h.crcCount.trans h'.noCrc
  noCertificate := h.certificateCount.trans h'.noCertificate

theorem Identifies.representation {obj info : GetInfoResponse} (h : obj.Identifies info) :
    obj.representation = info.answer := by
  have hcrc : obj.softwareImageCrc.used = [] := by rw [VarArray.used, h.noCrc, List.take_zero]
  have hcertificate : obj.certificateOfAuthenticity.used = [] := by
    rw [VarArray.used, h.noCertificate, List.take_zero]
  unfold GetInfoResponse.representation answer arrayRepresentation Version.representation
  rw [h.protocolVersion, h.hardwareVersion, h.softwareVersion, h.softwareVcsRevisionId,
    h.uniqueId, h.nameCount, h.name, h.noCrc, h.noCertificate, hcrc, hcertificate]
  simp [bytesOf]

end GetInfoResponse

/-- The record of an answer: the members of the zeroed response are set, and the name is copied. -/
theorem processRequest_identifies {info : GetInfoResponse} (h : info.Given) :
    ∃ resp, processRequestNodeGetInfo info = .ok resp ∧ resp.WellFormed ∧
      resp.Identifies info := by
  have hcount : ¬ info.name.count > getInfoNameCapacity := not_lt.mpr h.nameCount
  have hused : info.name.used.length = info.name.count :=
    VarArray.used_length (h.name.symm ▸ h.nameCount)
  have hid : info.uniqueId.take getInfoUniqueIdCapacity = info.uniqueId :=
    List.take_of_length_le h.uniqueId.le
  have hname : (overwrite (List.replicate getInfoNameCapacity 0) 0 info.name.used).length =
      getInfoNameCapacity := by
    rw [overwrite_length, List.length_replicate]
    rw [List.length_replicate, Nat.zero_add, hused]
    exact h.nameCount
  have hcopied : (overwrite (List.replicate getInfoNameCapacity 0) 0 info.name.used).take
      info.name.count = info.name.used := by
    simp only [overwrite, List.take_zero, List.nil_append]
    exact List.take_left' hused
  unfold processRequestNodeGetInfo
  rw [if_neg hcount, hid]
  refine ⟨_, rfl, ⟨⟨h.uniqueId, hname, rfl, List.length_replicate⟩, h.nameCount, Nat.zero_le 1,
    Nat.zero_le 222⟩, ⟨rfl, rfl, rfl, rfl, rfl, rfl, hcopied, rfl, rfl⟩⟩

/-- Whatever the class of the node, a GetInfo request is answered with the identity of the node. -/
theorem receiver_getInfo {node : NodeCore C τ R} (h : node.info.Given) (clock : Fin R → UInt64)
    (i : Fin R) {transfer : CanardRxTransfer} (hkind : transfer.metadata.transferKind = .request)
    (hport : transfer.metadata.portId = getInfoFixedPortId) :
    node.receiver clock i transfer =
      .publish (some i) (transfer.timestampUsec + mega)
        { transfer.metadata with transferKind := .response } node.info.answer fun _ => .done := by
  obtain ⟨resp, hresp, hformed, hidentity⟩ := processRequest_identifies h
  have hserialize := GetInfoResponse.serialize_eq hformed
    (List.length_replicate (n := getInfoResponseBufferSize) (a := (0 : UInt8)))
  have hnode : Node.processReceivedTransfer node.info i transfer =
      .publish (some i) (transfer.timestampUsec + mega)
        { transfer.metadata with transferKind := .response } node.info.answer fun _ => .done := by
    unfold Node.processReceivedTransfer
    rw [if_pos hkind, if_pos hport, hresp]
    simp only [hserialize, List.take_left]
    rw [hidentity.representation]
  unfold NodeCore.receiver
  cases node.latency with
  | none => exact hnode
  | some latency =>
    -- the port is none of those of the latency measurement
    have hmeasure : ¬ transfer.metadata.portId = latencyMeasurementPortId := by
      rw [hport]
      decide
    have hanswer : ¬ transfer.metadata.portId = latencyMeasurementPortId + 1 := by
      rw [hport]
      decide
    have hresponse : ¬ transfer.metadata.transferKind = .response := by
      rw [hkind]
      decide
    simp only [LatencyMeasurementNode.processReceivedTransfer, hnode, if_pos hkind,
      if_neg hmeasure, if_neg hanswer, if_neg hresponse, Reaction.andThen]

/-- The record of the answer, in memory of the lengths of the type. -/
theorem GetInfoResponse.Given.record {info : GetInfoResponse} (h : info.Given) :
    ∃ obj : GetInfoResponse, obj.WellFormed ∧ obj.Identifies info :=
  let ⟨obj, _, hformed, hidentity⟩ := processRequest_identifies h
  ⟨obj, hformed, hidentity⟩

theorem GetInfoResponse.Given.answer_length {info : GetInfoResponse} (h : info.Given) :
    info.answer.length = 33 + info.name.count := by
  obtain ⟨obj, hformed, hidentity⟩ := h.record
  rw [← hidentity.representation, representation_length hformed, hidentity.nameCount,
    hidentity.noCrc, hidentity.noCertificate, Nat.zero_mul, Nat.add_zero]

theorem GetInfoResponse.Given.answer_read {info out : GetInfoResponse} (h : info.Given)
    (hout : out.Sized) : ∃ read, out.deserialize info.answer info.answer.length =
      .ok (read, info.answer.length) ∧ read.Identifies info := by
  obtain ⟨obj, hformed, hidentity⟩ := h.record
  obtain ⟨read, hread, hsame⟩ := deserialize_eq hformed hout []
  rw [List.append_nil, hidentity.representation] at hread
  exact ⟨read, hread, hsame.identifies hidentity⟩

/-- A GetInfo request is answered with the identity in the info of the node and with nothing else:
the payload of the push is that of the record, it has 33 bytes and those of the name, and it is read
back. Infos that agree on the identity are answered alike. -/
theorem getInfo_answered (L : TxLaws C) (node : NodeCore C τ R) (h : node.info.Given)
    (clock : Fin R → UInt64) (i : Fin R) (transfer : CanardRxTransfer)
    (hkind : transfer.metadata.transferKind = .request)
    (hport : transfer.metadata.portId = getInfoFixedPortId) :
    (∀ s : OpenCyphal C τ R, s.crashed = none → (s.txQueues i).isSome → ∃ r frames,
      ((node.receiver clock i transfer).run s).crashed = none ∧
        ((node.receiver clock i transfer).run s).events =
          s.events ++ [.push i (transfer.timestampUsec + mega)
            { transfer.metadata with transferKind := .response } node.info.answer r frames]) ∧
    node.info.answer.length = 33 + node.info.name.count ∧
    (∀ obj : GetInfoResponse, obj.WellFormed → obj.Identifies node.info →
      ∀ buffer, buffer.length = getInfoResponseBufferSize →
        obj.serialize buffer getInfoResponseBufferSize =
          .ok (node.info.answer ++ buffer.drop node.info.answer.length,
            node.info.answer.length)) ∧
    (∀ out : GetInfoResponse, out.Sized → ∃ read,
      out.deserialize node.info.answer node.info.answer.length =
        .ok (read, node.info.answer.length) ∧ read.Identifies node.info) ∧
    ∀ (node' : NodeCore C τ R) (clock' : Fin R → UInt64), node'.info.Given →
      node.info.Agrees node'.info →
        node'.receiver clock' i transfer = node.receiver clock i transfer := by
  refine ⟨?_, h.answer_length, ?_, fun out hout => h.answer_read hout, ?_⟩
  · intro s hc hq
    obtain ⟨r, frames, hevents, -⟩ := publishOn_events L hc hq (transfer.timestampUsec + mega)
      { transfer.metadata with transferKind := .response } node.info.answer
    obtain ⟨hrunning, hresult⟩ := publishOn_running hc (transfer.timestampUsec + mega)
      { transfer.metadata with transferKind := .response } node.info.answer hq
    obtain ⟨result, hresult⟩ := Option.isSome_iff_exists.mp hresult
    refine ⟨r, frames, ?_⟩
    rw [receiver_getInfo h clock i hkind hport, Reaction.run, publishVia, ← Prod.eta
      (s.publishOn _ _ _ i), hresult]
    exact ⟨hrunning, hevents⟩
  · intro obj hformed hidentity buffer hbuffer
    rw [GetInfoResponse.serialize_eq hformed hbuffer, hidentity.representation]
  · intro node' clock' h' hagrees
    rw [receiver_getInfo h clock i hkind hport, receiver_getInfo h' clock' i hkind hport,
      hagrees.answer_eq]

/-- A node with the name `a` and all other memory of the name left as it was. -/
def namedNode : NodeCore SingleFrame.canard Unit 1 :=
  { heartbeatNode.host with
    info := { heartbeatNode.host.info with name := ⟨97 :: List.replicate 49 205, 1⟩ } }

theorem getInfo_answered_named :
    namedNode.info.answer.length = 34 ∧
      ∀ out : GetInfoResponse, out.Sized → ∃ read,
        out.deserialize namedNode.info.answer namedNode.info.answer.length =
          .ok (read, namedNode.info.answer.length) ∧ read.Identifies namedNode.info := by
  obtain ⟨-, hlength, -, hread, -⟩ := getInfo_answered SingleFrame.txLaws namedNode
    ⟨rfl, rfl, by decide⟩ (fun _ => 0) 0
    ⟨⟨.nominal, .request, getInfoFixedPortId, 2, 0⟩, 5, none⟩ rfl rfl
  exact ⟨hlength, hread⟩

end CyphalOnboard

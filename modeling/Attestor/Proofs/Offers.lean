import Attestor.Proofs.OneAnswer

namespace Attestor

namespace Bridge

variable {b : Bridge}

theorem door_inj (h : b.validate = .ok ()) {r s : Role} : b.door r = b.door s ↔ r = s := by
  have hne : b.lockingDoor ≠ b.issuingDoor := by
    intro he
    rw [validate, if_pos he] at h
    cases h
  cases r <;> cases s <;> simp [door, hne, hne.symm]

theorem roleOfDoor_door (h : b.validate = .ok ()) (role : Role) :
    b.roleOfDoor? (b.door role) = some role := by
  unfold roleOfDoor? Role.all
  cases role <;> simp [door_inj h]

/-- Transfers of a direction arrive at the door of its destination. -/
theorem towardsDoor_destination (h : b.validate = .ok ()) (d : Direction) :
    b.towardsDoor? (b.door d.destination) = some d := by
  rw [towardsDoor?, roleOfDoor_door h]
  cases d <;> rfl

/-- They leave through the door of its source. -/
theorem door_of_resolve {door : AccountId} {d : Direction} (h : b.resolve door = .ok d) :
    b.door d.source = door := by
  unfold resolve fromDoor? roleOfDoor? at h
  cases hf : Role.all.find? fun r => b.door r = door with
  | none =>
    rw [hf] at h
    cases h
  | some role =>
    rw [hf] at h
    cases h
    rw [Direction.source_ofSource]
    have hdoor := List.find?_some hf
    exact of_decide_eq_true hdoor

end Bridge

/-- What a caller asks to have signed: a transfer towards a door. -/
structure Offer where
  door : AccountId
  bridge : Bridge
  amount : Amount
  key : ClaimKey

/-- What a request of the method for it asks to have signed, if its parameters can be read. -/
def Request.offer (r : Request) : Except Response Offer := do
  let sequence ← r.sequenceParam "sequence_number"
  let create ← r.flagParam "create_account"
  let door ← r.param "dst_door" AccountId.ofJson
  let bridge ← r.bridgeParam
  let amount ← r.param "amount" Amount.ofJson
  return ⟨door, bridge, amount, if create then .createAccount sequence else .claim sequence⟩

/-- What the request in a line asks to have signed. -/
def Offer.ofLine? (line : String) : Option Offer :=
  (Request.ofLine? line).bind fun r => if r.method = "sign" then r.offer.toOption else none

theorem Service.sign_eq (s : Signer) (request : Request) :
    sign s request = match request.offer with
      | .ok o =>
        match s.signTransfer o.door o.bridge o.amount o.key with
        | (.ok signed, s) => (.success signed.toJson, s)
        | (.error e, s) => (.ofQueryError "dst_door" e, s)
      | .error response => (response, s) := by
  unfold sign Request.offer
  cases request.sequenceParam "sequence_number" with
  | error e => rfl
  | ok sequence =>
    cases request.flagParam "create_account" with
    | error e => rfl
    | ok create =>
      cases request.param "dst_door" AccountId.ofJson with
      | error e => rfl
      | ok door =>
        cases request.bridgeParam with
        | error e => rfl
        | ok bridge =>
          cases request.param "amount" Amount.ofJson with
          | error e => rfl
          | ok amount => rfl

/-- A node without a store signs what is offered towards a door of a valid bridge. -/
theorem Service.handleLine_offer {line : String} {b : Bridge} {d : Direction} {amount : Amount}
    {key : ClaimKey} (h : Offer.ofLine? line = some ⟨b.door d.destination, b, amount, key⟩)
    (valid : b.validate = .ok ()) (own : Bridge) (s : Signer) (signal : Signal) :
    ((stateless own s signal).handleLine line).1 = .success (SignedClaim.toJson
      ⟨d, s.identity.publicKey, s.identity.sign (Message.encode b amount key d),
        s.identity.signingAccount⟩) := by
  obtain ⟨request, hr, h⟩ := Option.bind_eq_some_iff.mp h
  rw [handleLine_request hr]
  split at h
  · rename_i hm
    simp only [handle, hm, sign_eq, Except.of_toOption h, Signer.signTransfer, valid,
      Bridge.towardsDoor_destination valid, Signer.sign]
  · cases h

theorem Request.param_ok {r : Request} {name : String} {decode : Decoder α} {j : Json} {a : α}
    (hm : r.params.member? name = some j) (hd : decode j = .ok a) : r.param name decode = .ok a := by
  simp only [param, hm, hd]
  rfl

/-- A line in which a request comes. -/
def Request.line (method : String) (params : List (String × Json)) : String :=
  (Json.object [("method", .string method), ("params", .object params)]).compact

theorem Request.ofLine_line {method : String} {params : List (String × Json)}
    (h : ∀ p ∈ params, Json.ReadsBack 125 p.2) :
    ofLine? (line method params) = some ⟨method, (Json.object params).sorted⟩ := by
  have hbody : Json.ReadsBack Json.depthLimit
      (.object [("method", .string method), ("params", .object params)]) := by
    apply Json.readsBack_object
    simp only [List.forall_mem_cons, List.not_mem_nil, false_implies, implies_true, and_true]
    exact ⟨Json.readsBack_string _ _, Json.readsBack_object h⟩
  have hsorted : (Json.object [("method", .string method), ("params", .object params)]).sorted =
      .object [("method", .string method), ("params", (Json.object params).sorted)] := by
    simp only [Json.sorted, Json.sortedMembers, Json.sortMembers, List.foldl_cons, List.foldl_nil,
      Json.insertMember, String.reduceEq, String.reduceLT, ↓reduceIte]
  simp only [ofLine?, line, Json.value?, Json.document_compact hbody, Option.map_some,
    Option.bind_eq_bind, Option.bind_some, hsorted]
  rfl

namespace Offer

/-- A line in which a transfer is offered. -/
def line (o : Offer) : String :=
  Request.line "sign" [("sequence_number", .string (toString o.key.value.toNat)),
    ("create_account", .bool (o.key.kind = .createAccount)), ("dst_door", o.door.toJson),
    ("bridge_descriptor", o.bridge.toJson), ("amount", o.amount.toJson)]

/-- The parameters in their order, as the line is read. -/
def params (o : Offer) : Json :=
  .object [("amount", o.amount.toJson), ("bridge_descriptor", o.bridge.toJson.sorted),
    ("create_account", .bool (o.key.kind = .createAccount)), ("dst_door", o.door.toJson),
    ("sequence_number", .string (toString o.key.value.toNat))]

theorem request_line (o : Offer) : Request.ofLine? o.line = some ⟨"sign", o.params⟩ := by
  rw [line, Request.ofLine_line]
  · simp only [params, AccountId.toJson, Json.sorted, Json.sortedMembers, Amount.sorted_toJson,
      Json.sortMembers, List.foldl_cons, List.foldl_nil, Json.insertMember, String.reduceEq,
      String.reduceLT, ↓reduceIte]
  · simp only [List.forall_mem_cons, List.not_mem_nil, false_implies, implies_true, and_true]
    exact ⟨Json.readsBack_string _ _, Json.readsBack_bool _ _, Json.readsBack_string _ _,
      o.bridge.readsBack 123, o.amount.readsBack 124⟩

/-- Each transfer of a valid bridge can be offered. -/
theorem ofLine_line {o : Offer} (valid : o.bridge.validate = .ok ()) : ofLine? o.line = some o := by
  have hnumber : Request.sequenceParam ⟨"sign", o.params⟩ "sequence_number" = .ok o.key.value := by
    have hm : o.params.member? "sequence_number" =
        some (.string (toString o.key.value.toNat)) := rfl
    simp only [Request.sequenceParam, hm, Request.sequence?, Text.unsigned_toString,
      Option.map_some, UInt64.ofNat_toNat]
  have hcreate : Request.flagParam ⟨"sign", o.params⟩ "create_account" =
      .ok (decide (o.key.kind = .createAccount)) := rfl
  have hdoor : Request.param ⟨"sign", o.params⟩ "dst_door" AccountId.ofJson = .ok o.door :=
    Request.param_ok rfl (AccountId.ofJson_toJson o.door)
  have hbridge : Request.bridgeParam ⟨"sign", o.params⟩ = .ok o.bridge := by
    rw [Request.bridgeParam, Request.param_ok rfl (Bridge.ofJson_sorted .plain o.bridge)]
    simp only [bind, Except.bind, valid]
    rfl
  have hamount : Request.param ⟨"sign", o.params⟩ "amount" Amount.ofJson = .ok o.amount :=
    Request.param_ok rfl (Amount.ofJson_toJson o.amount)
  have hoffer : Request.offer ⟨"sign", o.params⟩ = .ok o := by
    obtain ⟨door, bridge, amount, key⟩ := o
    simp only [Request.offer, hnumber, hcreate, hdoor, hbridge, hamount]
    cases key <;> rfl
  rw [ofLine?, request_line, Option.bind_some, if_pos rfl, hoffer]
  rfl

end Offer

end Attestor

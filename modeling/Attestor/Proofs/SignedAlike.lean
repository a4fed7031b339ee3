import Attestor.Proofs.FirstDelivery
import Attestor.Proofs.Offers
import Attestor.Proofs.Provenance

namespace Attestor

namespace Question

/-- The amount that the question names. Account creations are asked for without. -/
def amount? : Question → Option Amount
  | claim _ _ _ amount => some amount
  | creation .. => none

theorem direction_ok {q : Question} {d : Direction} (h : q.direction? = .ok d) :
    q.bridge.validate = .ok () ∧ q.bridge.door d.source = q.door := by
  obtain ⟨⟨⟩, hv, hr⟩ := Except.bind_ok h
  refine ⟨?_, Bridge.door_of_resolve hr⟩
  cases hb : q.bridge.validate with
  | ok u => rfl
  | error e =>
    rw [hb] at hv
    cases hv

/-- The rows that answer a question are those of its bridge's hash, its number, and its amount if it
names one. -/
theorem picks_iff {q : Question} {a : Attestation} : q.picks (Row.ofAttestation a) = true ↔
    a.bridge.partitionKey = q.bridge.partitionKey ∧ a.key.value = q.key.value ∧
      ∀ own, q.amount? = some own → a.deliveredAmount = own := by
  have hnumber : ∀ n : UInt64, a.key.value.toInt64 = n.toInt64 ↔ a.key.value = n := by
    intro n
    exact ⟨fun h => congrArg Int64.toUInt64 h, congrArg UInt64.toInt64⟩
  cases q with
  | claim b door n amount =>
    simp only [picks, Row.ofAttestation, Bool.and_eq_true, beq_iff_eq, hnumber,
      Row.amountText_inj, amount?, Option.some.injEq, forall_eq', and_assoc]
    rfl
  | creation b door n =>
    simp only [picks, Row.ofAttestation, Bool.and_eq_true, beq_iff_eq, hnumber, amount?,
      reduceCtorEq, false_implies, implies_true, and_true]
    rfl

/-- Where rows are signed under a key and the hash tells their bridges from that of a question, an
answer that shows an attestation shows one that was made under the key for an event of the transfer
in question. -/
theorem answer_signed {q : Question} {s : Store} {i : Identity} {handed : Event → Prop}
    (signed : s.database.SignedBy i handed)
    (apart : ∀ e, handed e → e.bridge.partitionKey = q.bridge.partitionKey → e.bridge = q.bridge)
    {j : Json} (h : q.answer s = .success j) :
    ∃ direction, ∃ (e : Event) (k : Identity), q.direction? = .ok direction ∧ k.SameKey i ∧
      e.bridge = q.bridge ∧ e.key = q.key ∧ e.direction = direction ∧
      (∀ own, q.amount? = some own → e.deliveredAmount = own) ∧
      Response.attestation (k.attest e) = .success j := by
  obtain ⟨direction, r, a, hd, -, hf, ha, hj⟩ := answer_success h
  obtain ⟨_, ⟨e, k, hand, hk, rfl⟩, hkind, hdirection, rfl⟩ :=
    signed q.key.kind direction r (List.mem_of_find?_eq_some hf)
  obtain ⟨hb, hvalue, hown⟩ := picks_iff.mp (List.find?_some hf)
  have hread := k.read_attest e
  have hkey : e.key = q.key := by
    have hvalue' : e.key.value = q.key.value := hvalue
    have hkind' : e.key.kind = q.key.kind := hkind
    rw [← e.key.key_kind_value, ← q.key.key_kind_value, hkind', hvalue']
  have hdirection' : e.direction = direction := hdirection
  rw [hkey, hdirection'] at hread
  cases hread.symm.trans ha
  exact ⟨direction, e, k, hd, hk, apart e hand hb, hkey, hdirection, hown, hj⟩

end Question

theorem Request.lookup_of_question {r : Request} {q : Question} (h : r.question? = some q) :
    r.method = "witness" ∨ r.method = "witness_account_create" :=
  lookup_iff.mp (method_of_question h)

/-- A member is there and is decoded to a value. -/
def Json.Shows (j : Json) (name : String) (decode : Decoder α) (a : α) : Prop :=
  ∃ m, j.member? name = some m ∧ decode m = .ok a

/-- The transfer in question as a caller who knows its amount has it signed: towards the door on the
other side. -/
def Question.offer (q : Question) (direction : Direction) (amount : Amount) : Offer :=
  ⟨q.bridge.door direction.destination, q.bridge, amount, q.key⟩

/-- What a lookup with success shows: the transfer in question, with the amount that was asked for if
one was, and a signature under the key. A node without a store makes the same signature under that
key for whoever offers it the transfer, which can be done. -/
structure Question.Served (q : Question) (i : Identity) (direction : Direction) (amount : Amount)
    (j : Json) : Prop where
  shows_bridge : j.Shows "bridge_descriptor" (Bridge.ofJson .plain) q.bridge
  shows_amount : j.Shows "amount" Amount.ofJson amount
  shows_number : j.Shows "sequence_number" Decode.uint64 q.key.value
  shows_direction : j.Shows "direction" (Direction.ofJson .plain) direction
  shows_key : j.member? "signing_key" = some (.string (Text.Hex.encode i.publicKey))
  shows_signature : j.member? "signature" = some (.string (Text.Hex.encode
    (i.sign (Message.encode q.bridge amount q.key direction))))
  asked_amount : ∀ own, q.amount? = some own → amount = own
  asked_door : ∀ d : Direction, q.bridge.door d.source = q.door ↔ d = direction
  offered : ∃ line, Offer.ofLine? line = some (q.offer direction amount)
  signed_alike : ∀ line, Offer.ofLine? line = some (q.offer direction amount) →
    ∀ k : Identity, k.SameKey i → ∀ own count signal, ∃ result,
      ((Service.stateless own ⟨k, count⟩ signal).handleLine line).1 = .success result ∧
        ∀ name ∈ ["signing_key", "signature", "direction"], result.member? name = j.member? name

/-- The members of an answer that shows an attestation. -/
theorem Response.attestation_members {a : Attestation} {j : Json}
    (h : Response.attestation a = .success j) :
    j.member? "signing_key" = some (.string (Text.Hex.encode a.publicKey)) ∧
    j.member? "signature" = some (.string (Text.Hex.encode a.signature)) ∧
    j.member? "amount" = some a.deliveredAmount.toJson ∧
    j.member? "bridge_descriptor" = some a.bridge.toJson ∧
    j.member? "direction" = some a.direction.toJson ∧
    j.member? "sequence_number" = some (.integer a.key.value.toNat) := by
  cases h
  cases a.rewardAmount with
  | none => exact ⟨rfl, rfl, rfl, rfl, rfl, rfl⟩
  | some amount => exact ⟨rfl, rfl, rfl, rfl, rfl, rfl⟩

theorem Question.served {q : Question} {i k : Identity} {e : Event} {j : Json}
    (hd : q.direction? = .ok e.direction) (hk : k.SameKey i) (hb : e.bridge = q.bridge)
    (hkey : e.key = q.key) (hown : ∀ own, q.amount? = some own → e.deliveredAmount = own)
    (hj : Response.attestation (k.attest e) = .success j) :
    q.Served i e.direction e.deliveredAmount j := by
  obtain ⟨hvalid, hdoor⟩ := direction_ok hd
  obtain ⟨hpublic, hsignature, hamount, hbridge, hdirection, hnumber⟩ :=
    Response.attestation_members hj
  have hsigned : (k.attest e).signature =
      i.sign (Message.encode q.bridge e.deliveredAmount q.key e.direction) := by
    rw [← hk.sign, ← hb, ← hkey]
    rfl
  refine ⟨?_, ?_, ?_, ?_, ?_, ?_, hown, ?_, ⟨_, Offer.ofLine_line hvalid⟩, ?_⟩
  · refine ⟨_, hbridge, ?_⟩
    rw [← hb]
    exact Bridge.ofJson_toJson .plain e.bridge
  · exact ⟨_, hamount, Amount.ofJson_toJson e.deliveredAmount⟩
  · refine ⟨_, hnumber, ?_⟩
    rw [← hkey]
    exact Decode.uint64_toNat e.key.value
  · exact ⟨_, hdirection, Direction.ofJson_toJson .plain e.direction⟩
  · rw [hpublic, ← hk.2]
    rfl
  · rw [hsignature, hsigned]
  · intro d
    rw [← hdoor, Bridge.door_inj hvalid]
    constructor
    · intro h
      rw [← d.ofSource_source, h, Direction.ofSource_source]
    · rintro rfl
      rfl
  · intro line hline k' hk' own count signal
    refine ⟨_, Service.handleLine_offer hline hvalid own ⟨k', count⟩ signal, ?_⟩
    simp only [List.forall_mem_cons, List.not_mem_nil, false_implies, implies_true, and_true]
    rw [hpublic, hsignature, hdirection, hsigned, ← hk'.sign]
    refine ⟨?_, rfl, rfl⟩
    change some (Json.string (Text.Hex.encode k'.publicKey)) =
      some (Json.string (Text.Hex.encode k.publicKey))
    rw [hk'.2, hk.2]

/-- The bridges of the events that are handed out and of what is asked for. -/
def Act.bridges : Act → List Bridge
  | hand _ e => [e.bridge]
  | request line => ((Question.ofLine? line).map Question.bridge).toList
  | _ => []

/-- No two of the bridges' texts share a hash. -/
def Bridge.Apart (bridges : List Bridge) : Prop :=
  ∀ b ∈ bridges, ∀ b' ∈ bridges,
    Hash.Blake3.hash (Bytes.ofString b.canonicalText) =
      Hash.Blake3.hash (Bytes.ofString b'.canonicalText) →
    b.canonicalText = b'.canonicalText

theorem Bridge.apart_replicate (n : Nat) (b : Bridge) : Apart (List.replicate n b) := by
  intro b' hb' b'' hb'' _
  rw [List.eq_of_mem_replicate hb', List.eq_of_mem_replicate hb'']

theorem Bridge.apart_pair {b b' : Bridge} (h : b.partitionKey ≠ b'.partitionKey) :
    Apart [b, b'] := by
  intro x hx y hy hk
  change x.partitionKey = y.partitionKey at hk
  simp only [List.mem_cons, List.not_mem_nil, or_false] at hx hy
  rcases hx with rfl | rfl
  · rcases hy with rfl | rfl
    · rfl
    · exact absurd hk h
  · rcases hy with rfl | rfl
    · exact absurd hk.symm h
    · rfl

theorem Bridge.Apart.partitionKey_inj {bridges : List Bridge} (h : Apart bridges) {b b' : Bridge}
    (hb : b ∈ bridges) (hb' : b' ∈ bridges) : b.partitionKey = b'.partitionKey ↔ b = b' := by
  constructor
  · intro hk
    exact canonicalText_inj (h b hb b' hb' hk)
  · rintro rfl
    rfl

namespace Site

/-- From empty tables, as long as only nodes with one key start on them: a lookup with success shows
the transfer that it was asked for, with the signature that a node without a store makes for it
under the same key. -/
theorem lookups_signed_alike (i : Identity) (acts : List Act)
    (oneKey : ∀ k b, .start k b ∈ acts → k.SameKey i)
    (hashes : Bridge.Apart (acts.flatMap Act.bridges)) :
    ∀ x ∈ (down .empty).exchanges acts, ∀ request, Request.ofLine? x.line = some request →
      request.method = "witness" ∨ request.method = "witness_account_create" →
      ∀ j, x.response = .success j →
        ∃ q direction amount, request.question? = some q ∧ q.Served i direction amount j := by
  intro x hx request hr lookup j hj
  have hallowed : ∀ act ∈ acts, act.Allowed i fun e => ∃ n, .hand n e ∈ acts := by
    intro act ha
    cases act with
    | start k b => exact oneKey k b ha
    | hand n e => exact ⟨n, ha⟩
    | _ => trivial
  obtain ⟨b, r, hsigned, hasked, hresponse⟩ := exchange_signed hallowed hx
  rw [hresponse] at hj
  obtain ⟨q, hq⟩ := Service.question_of_success hr lookup hj
  rw [Service.handleLine_question hq] at hj
  have hbridge : q.bridge ∈ acts.flatMap Act.bridges := by
    refine List.mem_flatMap.mpr ⟨_, hasked, ?_⟩
    simp [Act.bridges, hq]
  have hapart : ∀ e : Event, (∃ n, .hand n e ∈ acts) →
      e.bridge.partitionKey = q.bridge.partitionKey → e.bridge = q.bridge := by
    rintro e ⟨n, he⟩ hp
    have hin : e.bridge ∈ acts.flatMap Act.bridges :=
      List.mem_flatMap.mpr ⟨_, he, List.mem_singleton_self _⟩
    exact Bridge.canonicalText_inj (hashes e.bridge hin q.bridge hbridge hp)
  obtain ⟨direction, e, k, hd, hk, hb, hkey, rfl, hown, hanswer⟩ :=
    Question.answer_signed hsigned hapart hj
  rw [Question.ofLine?, hr, Option.bind_some] at hq
  exact ⟨q, e.direction, e.deliveredAmount, hq,
    Question.served hd hk hb hkey hown hanswer⟩

/-- A request for the attestation of claim 1 of the sample bridge, its number in decimal text. -/
def lookupParams : List (String × Json) :=
  [("bridge_descriptor", Bridge.sample.toJson), ("amount", (Amount.native 10).toJson),
    ("sequence_number", .string "1"), ("door_account", Bridge.sample.lockingDoor.toJson)]

def lookupLine : String :=
  Request.line "witness" lookupParams

theorem ofLine_lookupLine : Question.ofLine? lookupLine =
    some (.claim .sample Bridge.sample.lockingDoor 1 (.native 10)) := by
  rw [Question.ofLine?, lookupLine, Request.ofLine_line]
  · rfl
  · simp only [lookupParams, List.forall_mem_cons, List.not_mem_nil, false_implies, implies_true,
      and_true]
    exact ⟨Bridge.readsBack 123 _, Amount.readsBack 124 _, Json.readsBack_string _ _,
      Json.readsBack_string _ _⟩

/-- Ten drops that leave the sample bridge's locking chain. -/
def lookedUp : Event :=
  .claim (.sample "A" 7 10) 1 none

/-- A node attests the claim, and one with the same key is asked for it later. -/
def servedActs : List Act :=
  [.start (.sample 0) .sample, .resume .locking, .hand 0 lookedUp, .turn 0 none, .halt,
    .start (.sample 0) .sample, .request lookupLine]

theorem answer_served :
    ⟨lookupLine, .attestation ((Identity.sample 0).attest lookedUp)⟩ ∈
      (down .empty).exchanges servedActs := by
  obtain ⟨r, hexchanges, healthy, hrows⟩ : ∃ r : Resources,
      (down .empty).exchanges servedActs =
        [⟨lookupLine, ((Service.persistent .sample r).handleLine lookupLine).1⟩] ∧
      r.store.poisoned = false ∧ r.store.database.rows .claim .lockingToIssuing =
        [Row.ofAttestation ((Identity.sample 0).attest lookedUp)] :=
    ⟨_, rfl, rfl, rfl⟩
  have hfound : (r.store.database.rows .claim .lockingToIssuing).find?
      (Question.claim .sample Bridge.sample.lockingDoor 1 (.native 10)).picks =
      some (Row.ofAttestation ((Identity.sample 0).attest lookedUp)) := by
    rw [hrows]
    apply List.find?_cons_of_pos
    refine Question.picks_iff.mpr ⟨rfl, rfl, ?_⟩
    rintro own ⟨⟩
    rfl
  have hanswer := Question.answer_of_found
    (q := .claim .sample Bridge.sample.lockingDoor 1 (.native 10)) rfl healthy hfound
    ((Identity.sample 0).read_attest lookedUp)
  rw [← Service.handleLine_question ofLine_lookupLine .sample] at hanswer
  rw [hexchanges, hanswer]
  exact List.mem_singleton_self _

theorem lookups_signed_alike_after_restart : ∃ shown line signed,
    ⟨lookupLine, .success shown⟩ ∈ (down .empty).exchanges servedActs ∧
    Offer.ofLine? line = some ⟨Bridge.sample.issuingDoor, .sample, .native 10, .claim 1⟩ ∧
    ((Service.stateless .sample (.ofIdentity (.sample 0)) .running).handleLine line).1 =
      .success signed ∧
    ∀ name ∈ ["signing_key", "signature", "direction"],
      signed.member? name = shown.member? name := by
  have hkey : ∀ k b, Act.start k b ∈ servedActs → k.SameKey (.sample 0) := by
    intro k b hm
    simp only [servedActs, List.mem_cons, List.not_mem_nil, or_false, Act.start.injEq,
      reduceCtorEq, false_or] at hm
    rcases hm with ⟨rfl, -⟩ | ⟨rfl, -⟩
    · exact ⟨rfl, rfl⟩
    · exact ⟨rfl, rfl⟩
  have hbridges : servedActs.flatMap Act.bridges = [.sample, .sample] := by
    simp only [servedActs, List.flatMap_cons, List.flatMap_nil, Act.bridges, ofLine_lookupLine]
    rfl
  have hapart : Bridge.Apart (servedActs.flatMap Act.bridges) := by
    rw [hbridges]
    exact Bridge.apart_replicate 2 .sample
  obtain ⟨request, hrequest, hquestion⟩ := Option.bind_eq_some_iff.mp ofLine_lookupLine
  obtain ⟨q, direction, amount, hq, served⟩ := lookups_signed_alike (.sample 0) servedActs hkey
    hapart _ answer_served request hrequest (Request.lookup_of_question hquestion) _ rfl
  cases hquestion.symm.trans hq
  cases (served.asked_door .lockingToIssuing).mp rfl
  cases served.asked_amount _ rfl
  obtain ⟨line, hoffer⟩ := served.offered
  obtain ⟨signed, hsigned, hsame⟩ :=
    served.signed_alike line hoffer (.sample 0) ⟨rfl, rfl⟩ .sample 0 .running
  exact ⟨_, line, signed, answer_served, hoffer, hsigned, hsame⟩

end Site

end Attestor

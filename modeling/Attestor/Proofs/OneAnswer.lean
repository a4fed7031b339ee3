import Attestor.Proofs.EventCommit
import Attestor.Proofs.Site

namespace Attestor

namespace Request

def claimQuestion (r : Request) : Except Response Question := do
  let bridge ← r.bridgeParam
  let amount ← r.param "amount" Amount.ofJson
  let sequence ← r.sequenceParam "sequence_number"
  let door ← r.param "door_account" AccountId.ofJson
  return .claim bridge door sequence amount

def creationQuestion (r : Request) : Except Response Question := do
  let bridge ← r.bridgeParam
  let count ← r.sequenceParam "create_count"
  let door ← r.param "door_account" AccountId.ofJson
  return .creation bridge door count

/-- The method that looks transfers of that kind up. -/
def lookupMethod : TransferKind → String
  | .claim => "witness"
  | .createAccount => "witness_account_create"

/-- What a lookup of that kind asks for, or why it asks for nothing. -/
def asked (r : Request) : TransferKind → Except Response Question
  | .claim => r.claimQuestion
  | .createAccount => r.creationQuestion

/-- What a request looks up, if it is a lookup with parameters that can be read. -/
def question? (r : Request) : Option Question :=
  if r.method = "witness" then r.claimQuestion.toOption
  else if r.method = "witness_account_create" then r.creationQuestion.toOption
  else none

/-- The request in a line. -/
def ofLine? (line : String) : Option Request := do
  let j ← Json.value? line
  (Request.ofJson j).toOption

/-- A parameter that cannot be read is named in the response. -/
theorem param_error {request : Request} {name : String} {decode : Decoder α} {e : Response}
    (h : request.param name decode = .error e) : ∃ message, e = .invalidField name message := by
  unfold param at h
  split at h
  · cases h
    exact ⟨_, rfl⟩
  · rename_i j _
    cases hd : decode j with
    | ok a =>
      rw [hd] at h
      cases h
    | error d =>
      rw [hd] at h
      cases h
      exact ⟨_, rfl⟩

theorem bridgeParam_error {request : Request} {e : Response} (h : request.bridgeParam = .error e) :
    ∃ message, e = .invalidField "bridge_descriptor" message := by
  unfold bridgeParam at h
  rcases Except.bind_error h with h | ⟨bridge, -, h⟩
  · exact param_error h
  · cases hv : bridge.validate with
    | ok u =>
      rw [hv] at h
      cases h
    | error d =>
      rw [hv] at h
      cases h
      exact ⟨_, rfl⟩

theorem sequenceParam_error {request : Request} {name : String} {e : Response}
    (h : request.sequenceParam name = .error e) : ∃ message, e = .invalidField name message := by
  unfold sequenceParam at h
  split at h
  · cases h
    exact ⟨_, rfl⟩
  · split at h
    · cases h
    · cases h
      exact ⟨_, rfl⟩

theorem claimQuestion_error {request : Request} {e : Response}
    (h : request.claimQuestion = .error e) : ∃ name message, e = .invalidField name message := by
  rcases Except.bind_error h with h | ⟨_, -, h⟩
  · exact ⟨_, bridgeParam_error h⟩
  rcases Except.bind_error h with h | ⟨_, -, h⟩
  · exact ⟨_, param_error h⟩
  rcases Except.bind_error h with h | ⟨_, -, h⟩
  · exact ⟨_, sequenceParam_error h⟩
  rcases Except.bind_error h with h | ⟨_, -, h⟩
  · exact ⟨_, param_error h⟩
  · cases h

theorem creationQuestion_error {request : Request} {e : Response}
    (h : request.creationQuestion = .error e) : ∃ name message, e = .invalidField name message := by
  rcases Except.bind_error h with h | ⟨_, -, h⟩
  · exact ⟨_, bridgeParam_error h⟩
  rcases Except.bind_error h with h | ⟨_, -, h⟩
  · exact ⟨_, sequenceParam_error h⟩
  rcases Except.bind_error h with h | ⟨_, -, h⟩
  · exact ⟨_, param_error h⟩
  · cases h

theorem asked_error {request : Request} {kind : TransferKind} {e : Response}
    (h : request.asked kind = .error e) : ∃ name message, e = .invalidField name message := by
  cases kind with
  | claim => exact claimQuestion_error h
  | createAccount => exact creationQuestion_error h

theorem lookup_iff {request : Request} : (∃ kind, request.method = lookupMethod kind) ↔
    request.method = "witness" ∨ request.method = "witness_account_create" := by
  constructor
  · rintro ⟨_ | _, hm⟩
    · exact .inl hm
    · exact .inr hm
  · rintro (hm | hm)
    · exact ⟨.claim, hm⟩
    · exact ⟨.createAccount, hm⟩

theorem question_of_method {request : Request} {kind : TransferKind}
    (hm : request.method = lookupMethod kind) :
    request.question? = (request.asked kind).toOption := by
  cases kind with
  | claim => exact if_pos hm
  | createAccount =>
    have hne : request.method ≠ "witness" := by
      rw [hm]
      decide
    rw [question?, if_neg hne]
    exact if_pos hm

theorem method_of_question {request : Request} {q : Question} (h : request.question? = some q) :
    ∃ kind, request.method = lookupMethod kind := by
  unfold question? at h
  split at h
  · exact ⟨.claim, by assumption⟩
  · split at h
    · exact ⟨.createAccount, by assumption⟩
    · cases h

end Request

/-- What the request in a line looks up. -/
def Question.ofLine? (line : String) : Option Question :=
  (Request.ofLine? line).bind Request.question?

theorem Except.of_toOption {x : Except ε α} {a : α} (h : x.toOption = some a) : x = .ok a := by
  cases x with
  | error e => cases h
  | ok b => rw [Option.some.inj h]

namespace Service

/-- A lookup of a claim answers its question, or says why it asks none. -/
theorem witness_eq (s : Store) (request : Request) :
    witness s request = match request.claimQuestion with
      | .ok q => q.answer s
      | .error response => response := by
  unfold witness Request.claimQuestion
  cases request.bridgeParam with
  | error e => rfl
  | ok bridge =>
    cases request.param "amount" Amount.ofJson with
    | error e => rfl
    | ok amount =>
      cases request.sequenceParam "sequence_number" with
      | error e => rfl
      | ok sequence =>
        cases request.param "door_account" AccountId.ofJson with
        | error e => rfl
        | ok door => rfl

theorem witnessAccountCreate_eq (s : Store) (request : Request) :
    witnessAccountCreate s request = match request.creationQuestion with
      | .ok q => q.answer s
      | .error response => response := by
  unfold witnessAccountCreate Request.creationQuestion
  cases request.bridgeParam with
  | error e => rfl
  | ok bridge =>
    cases request.sequenceParam "create_count" with
    | error e => rfl
    | ok count =>
      cases request.param "door_account" AccountId.ofJson with
      | error e => rfl
      | ok door => rfl

/-- Both kinds of lookup answer the question that is asked, or say why none is. -/
theorem handle_lookup {request : Request} {kind : TransferKind}
    (hm : request.method = Request.lookupMethod kind) (b : Bridge) (r : Resources) :
    ((persistent b r).handle request).1 = match request.asked kind with
      | .ok q => q.answer r.store
      | .error response => response := by
  cases kind with
  | claim =>
    have hm : request.method = "witness" := hm
    simp only [handle, hm, witness_eq]
    rfl
  | createAccount =>
    have hm : request.method = "witness_account_create" := hm
    simp only [handle, hm, witnessAccountCreate_eq]
    rfl

theorem handleLine_request {line : String} {request : Request}
    (h : Request.ofLine? line = some request) (s : Service) :
    s.handleLine line = s.handle request := by
  obtain ⟨j, hj, h⟩ := Option.bind_eq_some_iff.mp h
  simp only [handleLine, hj, handleJson, Except.of_toOption h]

/-- A node with a store answers lookups from the store as it is at that moment. -/
theorem handleLine_question {line : String} {q : Question} (h : Question.ofLine? line = some q)
    (b : Bridge) (r : Resources) : ((persistent b r).handleLine line).1 = q.answer r.store := by
  obtain ⟨request, hr, h⟩ := Option.bind_eq_some_iff.mp h
  obtain ⟨kind, hm⟩ := Request.method_of_question h
  rw [Request.question_of_method hm] at h
  rw [handleLine_request hr, handle_lookup hm, Except.of_toOption h]

/-- A lookup that is answered with success asks a question. -/
theorem question_of_success {line : String} {request : Request}
    (hr : Request.ofLine? line = some request)
    (lookup : request.method = "witness" ∨ request.method = "witness_account_create") {b : Bridge}
    {r : Resources} {j : Json} (h : ((persistent b r).handleLine line).1 = .success j) :
    ∃ q, Question.ofLine? line = some q := by
  obtain ⟨kind, hm⟩ := Request.lookup_iff.mpr lookup
  rw [handleLine_request hr, handle_lookup hm] at h
  cases hq : request.asked kind with
  | ok q =>
    refine ⟨q, ?_⟩
    rw [Question.ofLine?, hr, Option.bind_some, Request.question_of_method hm, hq]
    rfl
  | error e =>
    obtain ⟨name, message, rfl⟩ := Request.asked_error hq
    rw [hq] at h
    cases h

end Service

/-- A lookup that is answered with success asks for a transfer. -/
def Exchange.Asks (x : Exchange) : Prop :=
  ∀ request, Request.ofLine? x.line = some request →
    request.method = "witness" ∨ request.method = "witness_account_create" →
    ∀ j, x.response = .success j → ∃ q, Question.ofLine? x.line = some q

/-- Whether a later exchange keeps to an earlier one. If the earlier shows an attestation of a
transfer, the later one shows no other for it, and for the same question it shows it again unless
the store cannot be read. -/
def Exchange.KeptBy (x y : Exchange) : Prop :=
  ∀ p q, Question.ofLine? x.line = some p → Question.ofLine? y.line = some q → p.SameTransfer q →
    ∀ j, x.response = .success j →
      (∀ k, y.response = .success k → k = j) ∧
      (q = p → y.response = .success j ∨ y.response = .error StoreError.poisoned.message)

namespace Site

theorem exchanges_ask (s : Site) (acts : List Act) : ∀ x ∈ s.exchanges acts, x.Asks := by
  intro x hx request hr lookup j hj
  obtain ⟨b, r, -, hresponse⟩ := exchange_store hx
  rw [hresponse] at hj
  exact Service.question_of_success hr lookup hj

/-- Each later exchange keeps to each earlier one. -/
theorem exchanges_pairwise (s : Site) (keyed : s.database.Keyed) (acts : List Act) :
    (s.exchanges acts).Pairwise Exchange.KeptBy := by
  induction acts generalizing s with
  | nil => exact .nil
  | cons act rest ih =>
    have hc := s.step_changes act
    refine List.pairwise_append.mpr ⟨?_, ih _ (keyed.changes hc), ?_⟩
    · cases s.exchange? act <;> simp
    · intro x hx y hy p q hp hq same j hj
      obtain ⟨b', r', hg, hr⟩ := exchange_store hy
      rw [Option.mem_toList] at hx
      cases s with
      | down db => cases act <;> cases hx
      | up b r engines =>
        cases act with
        | request line =>
          cases hx
          have grown : r.store.database.Changes r'.store.database := hc.trans hg
          replace hj : p.answer r.store = .success j := by
            rw [← hj]
            exact (Service.handleLine_question hp b r).symm
          rw [hr, Service.handleLine_question hq]
          refine ⟨?_, ?_⟩
          · intro k hk
            exact (Question.answers_agree (keyed.changes grown) grown same hj hk).symm
          · rintro rfl
            exact Question.answer_stays grown hj
        | _ => cases hx

/-- Whatever happens to a database, every lookup with success in it is about a transfer, and no two
of them about one transfer differ. -/
theorem exchanges_kept (s : Site) (keyed : s.database.Keyed) (acts : List Act) :
    (∀ x ∈ s.exchanges acts, x.Asks) ∧ (s.exchanges acts).Pairwise Exchange.KeptBy := by
  refine ⟨?_, ?_⟩
  · exact s.exchanges_ask acts
  · exact s.exchanges_pairwise keyed acts

/-- A request for the attestation of claim 1 of the sample bridge. -/
def askedLine : String :=
  (Json.object [("method", .string "witness"), ("params", .object [
    ("bridge_descriptor", Bridge.sample.toJson), ("amount", (Amount.native 10).toJson),
    ("sequence_number", .integer 1), ("door_account", Bridge.sample.lockingDoor.toJson)])]).compact

/-- The claim is attested after a fault and asked for. A node with another key then meets it again,
for another amount and in another transaction, and is asked the same. -/
def contestedActs : List Act :=
  [.start (.sample 0) .sample, .resume .locking,
    .hand 0 (.claim (.sample "A" 7 10) 1 none), .turn 0 (some .io), .turn 0 none,
    .request askedLine, .halt, .start (.sample 1) .sample, .resume .locking,
    .hand 0 (.claim (.sample "D" 8 99) 1 none), .turn 0 none, .request askedLine]

theorem exchanges_kept_contested : Database.empty.Keyed ∧
    (∀ x ∈ (down .empty).exchanges contestedActs, x.Asks) ∧
    ((down .empty).exchanges contestedActs).Pairwise Exchange.KeptBy := by
  have hkeyed : Database.empty.Keyed := Database.keyed_empty
  exact ⟨hkeyed, exchanges_kept (down .empty) hkeyed contestedActs⟩

end Site

end Attestor

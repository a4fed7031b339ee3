import Attestor.Proofs.TableChanges
import Attestor.Request.Service

namespace Attestor

/-- What a lookup asks for. -/
inductive Question where
  | claim (bridge : Bridge) (door : AccountId) (sequence : UInt64) (amount : Amount)
  | creation (bridge : Bridge) (door : AccountId) (count : UInt64)
  deriving DecidableEq

namespace Question

def bridge : Question → Bridge
  | claim b .. | creation b .. => b

def door : Question → AccountId
  | claim _ d .. | creation _ d _ => d

/-- The number that the transfer has on its bridge, whatever its amount. -/
def key : Question → ClaimKey
  | claim _ _ n _ => .claim n
  | creation _ _ n => .createAccount n

/-- Whether two questions are about one transfer. The amounts they name may differ. -/
def SameTransfer (p q : Question) : Prop :=
  p.bridge = q.bridge ∧ p.door = q.door ∧ p.key = q.key

def direction? (q : Question) : Except QueryError Direction := do
  q.bridge.validate.mapError .bridge
  q.bridge.resolve q.door

/-- The rows that answer the question. -/
def picks : Question → Row → Bool
  | claim b _ n amount => fun r =>
    r.bridgeKey == b.partitionKey && r.number == n.toInt64
      && r.deliveredAmount == Row.amountText amount
  | creation b _ n => fun r => r.bridgeKey == b.partitionKey && r.number == n.toInt64

/-- What a node with that store answers. -/
def answer (q : Question) (s : Store) : Response :=
  .ofLookup <| match q with
    | claim bridge door sequence amount => s.witness bridge amount sequence door
    | creation bridge door count => s.witnessAccountCreate bridge count door

/-- Both kinds of lookup judge the question first and then read one row of one table. -/
theorem answer_eq (q : Question) (s : Store) : q.answer s = .ofLookup (do
    let direction ← q.direction?
    (s.read fun db => db.find q.key.kind direction q.picks).mapError .store) := by
  cases q with
  | claim bridge door sequence amount =>
    simp only [answer, Store.witness, direction?, Question.bridge, Question.door]
    cases bridge.validate with
    | error e => rfl
    | ok u => cases bridge.resolve door <;> rfl
  | creation bridge door count =>
    simp only [answer, Store.witnessAccountCreate, direction?, Question.bridge, Question.door]
    cases bridge.validate with
    | error e => rfl
    | ok u => cases bridge.resolve door <;> rfl

theorem picks_number {q : Question} {r : Row} (h : q.picks r = true) :
    r.bridgeKey = q.bridge.partitionKey ∧ r.number = q.key.value.toInt64 := by
  cases q <;> simp only [picks, Bool.and_eq_true, beq_iff_eq] at h
  · exact h.1
  · exact h

theorem SameTransfer.direction? {p q : Question} (h : p.SameTransfer q) :
    p.direction? = q.direction? := by
  obtain ⟨hb, hd, -⟩ := h
  rw [Question.direction?, Question.direction?, hb, hd]

theorem answer_of_direction_error {q : Question} {e : QueryError} (h : q.direction? = .error e)
    (s : Store) : q.answer s = .ofQueryError "door_account" e := by
  rw [answer_eq, h]
  rfl

/-- A poisoned store is reported once the question itself is found in order. -/
theorem answer_of_poisoned {q : Question} {direction : Direction}
    (h : q.direction? = .ok direction) {s : Store} (hp : s.poisoned = true) :
    q.answer s = .error StoreError.poisoned.message := by
  rw [answer_eq, h]
  simp only [bind, Except.bind, Store.read, hp, ↓reduceIte]
  rfl

theorem answer_of_found {q : Question} {direction : Direction} (h : q.direction? = .ok direction)
    {s : Store} (hp : s.poisoned = false) {r : Row} {a : Attestation}
    (hf : (s.database.rows q.key.kind direction).find? q.picks = some r)
    (ha : Database.read q.key.kind direction r = .ok a) : q.answer s = .attestation a := by
  rw [answer_eq, h]
  simp only [bind, Except.bind, Store.read, hp, Bool.false_eq_true, ↓reduceIte, Database.find, hf,
    ha]
  rfl

/-- An answer that shows an attestation shows the one in the first row that answers the question. -/
theorem answer_success {q : Question} {s : Store} {j : Json} (h : q.answer s = .success j) :
    ∃ direction r a, q.direction? = .ok direction ∧ s.poisoned = false ∧
      (s.database.rows q.key.kind direction).find? q.picks = some r ∧
      Database.read q.key.kind direction r = .ok a ∧ Response.attestation a = .success j := by
  cases hd : q.direction? with
  | error e =>
    rw [answer_of_direction_error hd] at h
    cases e <;> cases h
  | ok direction =>
    cases hp : s.poisoned with
    | true =>
      rw [answer_of_poisoned hd hp] at h
      cases h
    | false =>
      rw [answer_eq, hd] at h
      simp only [bind, Except.bind, Store.read, hp, Bool.false_eq_true, ↓reduceIte,
        Database.find] at h
      cases hf : (s.database.rows q.key.kind direction).find? q.picks with
      | none =>
        rw [hf] at h
        cases h
      | some r =>
        rw [hf] at h
        cases hr : Database.read q.key.kind direction r with
        | error e =>
          simp only [hr] at h
          cases h
        | ok a =>
          simp only [hr] at h
          exact ⟨direction, r, a, rfl, rfl, hf, hr, h⟩

/-- Answers about one transfer agree, also when the store has grown between them and when they name
different amounts. -/
theorem answers_agree {p q : Question} {s t : Store} {j k : Json} (keyed : t.database.Keyed)
    (grown : s.database.Changes t.database) (same : p.SameTransfer q)
    (hj : p.answer s = .success j) (hk : q.answer t = .success k) : j = k := by
  obtain ⟨direction, r, a, hd, -, hr, ha, hj⟩ := answer_success hj
  obtain ⟨direction', r', a', hd', -, hr', ha', hk⟩ := answer_success hk
  rw [same.direction?, hd'] at hd
  cases hd
  rw [same.2.2] at hr ha
  have hm : r ∈ t.database.rows q.key.kind direction :=
    (grown.rows_prefix _ _).subset (List.mem_of_find?_eq_some hr)
  obtain ⟨hb, hn⟩ := picks_number (List.find?_some hr)
  obtain ⟨hb', hn'⟩ := picks_number (List.find?_some hr')
  have he : r = r' := keyed.eq_of_number hm (List.mem_of_find?_eq_some hr')
    (by rw [hb, hb', same.1]) (by rw [hn, hn', same.2.2])
  subst he
  cases ha.symm.trans ha'
  cases hj.symm.trans hk
  rfl

/-- What was once answered is answered again, as long as the store can be read. -/
theorem answer_stays {q : Question} {s t : Store} {j : Json}
    (grown : s.database.Changes t.database) (h : q.answer s = .success j) :
    q.answer t = .success j ∨ q.answer t = .error StoreError.poisoned.message := by
  obtain ⟨direction, r, a, hd, -, hr, ha, hj⟩ := answer_success h
  cases hp : t.poisoned with
  | true => exact .inr (answer_of_poisoned hd hp)
  | false =>
    left
    rw [answer_of_found hd hp ((grown.rows_prefix _ _).find?_eq_some hr) ha, hj]

end Question

end Attestor

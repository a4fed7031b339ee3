import Attestor.Proofs.Legible
import Attestor.Proofs.SignedAlike

namespace Attestor

/-- A number of 64 bits as callers write it: an integer, or digits in text after at most one plus
sign. -/
inductive Json.Numbers : Json → Nat → Prop
  | integer {n : Nat} (range : n < twoPow 64) : Numbers (.integer n) n
  | text {s : String} {digits : List Char} (spelled : s.toList = digits ∨ s.toList = '+' :: digits)
    (plain : Text.Digits digits) (range : Text.digitsValue 0 digits < twoPow 64) :
    Numbers (.string s) (Text.digitsValue 0 digits)

/-- Whether every read succeeds: no writer has died, and there is no row that cannot be read. -/
structure Store.FaultFree (s : Store) : Prop where
  alive : s.poisoned = false
  readable : ∀ kind direction, ∀ r ∈ s.database.rows kind direction,
    ∃ a, Database.read kind direction r = .ok a

/-- Stores as writes leave them are free of faults until a writer dies. -/
theorem Database.Legible.faultFree {s : Store} (h : s.database.Legible)
    (alive : s.poisoned = false) : s.FaultFree :=
  ⟨alive, fun _ _ _ hr => h.read hr⟩

namespace Request

/-- The parameter in which the number of transfers of that kind comes. -/
def numberField : TransferKind → String
  | .claim => "sequence_number"
  | .createAccount => "create_count"

/-- A lookup in order: every parameter is there and can be read, the bridge is valid, and the door
is one of its two. -/
def InOrder (request : Request) (kind : TransferKind) : Prop :=
  ∃ bridge door, ∃ n : UInt64,
    request.params.Shows "bridge_descriptor" (Bridge.ofJson .plain) bridge ∧
    bridge.validate = .ok () ∧
    (kind = .claim → ∃ amount, request.params.Shows "amount" Amount.ofJson amount) ∧
    (∃ m, request.params.member? (numberField kind) = some m ∧ m.Numbers n.toNat) ∧
    request.params.Shows "door_account" AccountId.ofJson door ∧
    (door = bridge.lockingDoor ∨ door = bridge.issuingDoor)

theorem param_iff {request : Request} {name : String} {decode : Decoder α} {a : α} :
    request.param name decode = .ok a ↔ request.params.Shows name decode a := by
  constructor
  · intro h
    unfold param at h
    split at h
    · cases h
    · rename_i m hm
      refine ⟨m, hm, ?_⟩
      cases hd : decode m with
      | ok b =>
        rw [hd] at h
        cases h
        rfl
      | error e =>
        rw [hd] at h
        cases h
  · rintro ⟨m, hm, hd⟩
    exact param_ok hm hd

theorem bridgeParam_iff {request : Request} {b : Bridge} :
    request.bridgeParam = .ok b ↔
      request.params.Shows "bridge_descriptor" (Bridge.ofJson .plain) b ∧ b.validate = .ok () := by
  rw [← param_iff, bridgeParam]
  constructor
  · intro h
    obtain ⟨b', hb, h⟩ := Except.bind_ok h
    cases hv : b'.validate with
    | ok u =>
      rw [hv] at h
      cases h
      exact ⟨hb, hv⟩
    | error e =>
      rw [hv] at h
      cases h
  · rintro ⟨hb, hv⟩
    rw [hb]
    simp only [bind, Except.bind, hv]
    rfl

theorem sequence_iff {m : Json} {n : UInt64} : sequence? m = some n ↔ m.Numbers n.toNat := by
  have hsize : twoPow 64 = UInt64.size := rfl
  constructor
  · intro h
    cases m with
    | integer x =>
      simp only [sequence?] at h
      split at h
      · rename_i hx
        obtain ⟨k, rfl⟩ := Int.eq_ofNat_of_zero_le hx.1
        have hk : k < twoPow 64 := by exact_mod_cast hx.2
        cases h
        rw [Int.toNat_natCast, UInt64.toNat_ofNat_of_lt' (hsize ▸ hk)]
        exact .integer hk
      · cases h
    | string s =>
      obtain ⟨k, hk, rfl⟩ := Option.map_eq_some_iff.mp h
      obtain ⟨digits, hspelled, hplain, rfl, hrange⟩ := Text.unsigned_iff.mp hk
      rw [UInt64.toNat_ofNat_of_lt' (hsize ▸ hrange)]
      exact .text hspelled hplain hrange
    | _ => cases h
  · intro h
    generalize hk : n.toNat = k at h
    obtain rfl : UInt64.ofNat k = n := by rw [← hk, UInt64.ofNat_toNat]
    cases h with
    | integer range =>
      have hx : FitsUnsigned 64 (k : Int) := ⟨Int.natCast_nonneg k, by exact_mod_cast range⟩
      rw [sequence?, if_pos hx, Int.toNat_natCast]
    | text spelled plain range =>
      rw [sequence?, Text.unsigned_iff.mpr ⟨_, spelled, plain, rfl, range⟩, Option.map_some]

theorem sequenceParam_iff {request : Request} {name : String} {n : UInt64} :
    request.sequenceParam name = .ok n ↔
      ∃ m, request.params.member? name = some m ∧ m.Numbers n.toNat := by
  unfold sequenceParam
  constructor
  · intro h
    split at h
    · cases h
    · rename_i m hm
      split at h
      · rename_i k hk
        cases h
        exact ⟨m, hm, sequence_iff.mp hk⟩
      · cases h
  · rintro ⟨m, hm, hn⟩
    simp only [hm, sequence_iff.mpr hn]

theorem claimQuestion_iff {request : Request} {q : Question} :
    request.claimQuestion = .ok q ↔ ∃ bridge amount n door, q = .claim bridge door n amount ∧
      request.bridgeParam = .ok bridge ∧ request.param "amount" Amount.ofJson = .ok amount ∧
      request.sequenceParam "sequence_number" = .ok n ∧
      request.param "door_account" AccountId.ofJson = .ok door := by
  constructor
  · intro h
    obtain ⟨bridge, hb, h⟩ := Except.bind_ok h
    obtain ⟨amount, ha, h⟩ := Except.bind_ok h
    obtain ⟨n, hn, h⟩ := Except.bind_ok h
    obtain ⟨door, hd, h⟩ := Except.bind_ok h
    cases h
    exact ⟨bridge, amount, n, door, rfl, hb, ha, hn, hd⟩
  · rintro ⟨bridge, amount, n, door, rfl, hb, ha, hn, hd⟩
    rw [claimQuestion, hb, ha, hn, hd]
    rfl

theorem creationQuestion_iff {request : Request} {q : Question} :
    request.creationQuestion = .ok q ↔ ∃ bridge n door, q = .creation bridge door n ∧
      request.bridgeParam = .ok bridge ∧ request.sequenceParam "create_count" = .ok n ∧
      request.param "door_account" AccountId.ofJson = .ok door := by
  constructor
  · intro h
    obtain ⟨bridge, hb, h⟩ := Except.bind_ok h
    obtain ⟨n, hn, h⟩ := Except.bind_ok h
    obtain ⟨door, hd, h⟩ := Except.bind_ok h
    cases h
    exact ⟨bridge, n, door, rfl, hb, hn, hd⟩
  · rintro ⟨bridge, n, door, rfl, hb, hn, hd⟩
    rw [creationQuestion, hb, hn, hd]
    rfl

end Request

theorem Bridge.resolve_iff {b : Bridge} {door : AccountId} :
    (∃ d, b.resolve door = .ok d) ↔ door = b.lockingDoor ∨ door = b.issuingDoor := by
  have hfound : (b.roleOfDoor? door).isSome = true ↔
      door = b.lockingDoor ∨ door = b.issuingDoor := by
    rw [roleOfDoor?, List.find?_isSome]
    constructor
    · rintro ⟨role, -, h⟩
      have hdoor : b.door role = door := of_decide_eq_true h
      cases role with
      | locking => exact .inl hdoor.symm
      | issuing => exact .inr hdoor.symm
    · rintro (rfl | rfl)
      · exact ⟨.locking, Role.mem_all _, decide_eq_true rfl⟩
      · exact ⟨.issuing, Role.mem_all _, decide_eq_true rfl⟩
  rw [← hfound, resolve, fromDoor?]
  cases b.roleOfDoor? door <;> simp

namespace Question

variable {q : Question}

theorem direction_iff (valid : q.bridge.validate = .ok ()) :
    (∃ d, q.direction? = .ok d) ↔
      q.door = q.bridge.lockingDoor ∨ q.door = q.bridge.issuingDoor := by
  rw [← Bridge.resolve_iff, direction?, valid]
  rfl

/-- A question that is not in order is refused for its bridge or its door. -/
theorem direction_error {e : QueryError} (h : q.direction? = .error e) (field : String) :
    ∃ name message, Response.ofQueryError field e = .invalidField name message := by
  rcases Except.bind_error h with h | ⟨_, -, h⟩
  · cases hv : q.bridge.validate with
    | ok u =>
      rw [hv] at h
      cases h
    | error v =>
      rw [hv] at h
      cases h
      exact ⟨_, _, rfl⟩
  · unfold Bridge.resolve at h
    split at h
    · cases h
    · cases h
      exact ⟨_, _, rfl⟩

/-- One that is in order is answered from the store. -/
theorem answer_of_direction {d : Direction} (h : q.direction? = .ok d) (s : Store) :
    q.answer s = .notFound ∨ (∃ result, q.answer s = .success result) ∨
      ∃ message, q.answer s = .error message := by
  rw [answer_eq, h]
  simp only [bind, Except.bind]
  cases (s.read fun db => db.find q.key.kind d q.picks) with
  | error e => exact .inr (.inr ⟨_, rfl⟩)
  | ok found =>
    cases found with
    | none => exact .inl rfl
    | some a => exact .inr (.inl ⟨_, rfl⟩)

end Question

theorem Store.FaultFree.find {s : Store} (h : s.FaultFree) (kind : TransferKind)
    (direction : Direction) (picks : Row → Bool) :
    ∃ found, s.read (fun db => db.find kind direction picks) = .ok found := by
  rw [read, h.alive, if_neg Bool.false_ne_true]
  cases hf : (s.database.rows kind direction).find? picks with
  | none => exact ⟨none, by rw [Database.find, hf]⟩
  | some r =>
    obtain ⟨a, ha⟩ := h.readable kind direction r (List.mem_of_find?_eq_some hf)
    exact ⟨some a, by rw [Database.find, hf]; simp only [ha]; rfl⟩

theorem Question.answer_of_faultFree {q : Question} {d : Direction} (h : q.direction? = .ok d)
    {s : Store} (free : s.FaultFree) :
    q.answer s = .notFound ∨ ∃ result, q.answer s = .success result := by
  obtain ⟨found, hfound⟩ := free.find q.key.kind d q.picks
  rw [answer_eq, h]
  simp only [bind, Except.bind, hfound]
  cases found with
  | none => exact .inl rfl
  | some a => exact .inr ⟨_, rfl⟩

/-- A lookup is in order exactly if it asks a question that leaves through one of the doors. -/
theorem Request.inOrder_iff {request : Request} {kind : TransferKind} :
    request.InOrder kind ↔ ∃ q d, request.asked kind = .ok q ∧ q.direction? = .ok d := by
  cases kind with
  | claim =>
    constructor
    · rintro ⟨bridge, door, n, hb, hv, ha, hn, hd, hdoor⟩
      obtain ⟨amount, ha⟩ := ha rfl
      obtain ⟨d, hdirection⟩ :=
        (Question.direction_iff (q := .claim bridge door n amount) hv).mpr hdoor
      exact ⟨_, d, claimQuestion_iff.mpr ⟨bridge, amount, n, door, rfl,
        bridgeParam_iff.mpr ⟨hb, hv⟩, param_iff.mpr ha, sequenceParam_iff.mpr hn,
        param_iff.mpr hd⟩, hdirection⟩
    · rintro ⟨q, d, hq, hdirection⟩
      obtain ⟨bridge, amount, n, door, rfl, hb, ha, hn, hd⟩ := claimQuestion_iff.mp hq
      obtain ⟨hb, hv⟩ := bridgeParam_iff.mp hb
      exact ⟨bridge, door, n, hb, hv, fun _ => ⟨amount, param_iff.mp ha⟩,
        sequenceParam_iff.mp hn, param_iff.mp hd,
        (Question.direction_iff (q := .claim bridge door n amount) hv).mp ⟨d, hdirection⟩⟩
  | createAccount =>
    constructor
    · rintro ⟨bridge, door, n, hb, hv, -, hn, hd, hdoor⟩
      obtain ⟨d, hdirection⟩ := (Question.direction_iff (q := .creation bridge door n) hv).mpr hdoor
      exact ⟨_, d, creationQuestion_iff.mpr ⟨bridge, n, door, rfl, bridgeParam_iff.mpr ⟨hb, hv⟩,
        sequenceParam_iff.mpr hn, param_iff.mpr hd⟩, hdirection⟩
    · rintro ⟨q, d, hq, hdirection⟩
      obtain ⟨bridge, n, door, rfl, hb, hn, hd⟩ := creationQuestion_iff.mp hq
      obtain ⟨hb, hv⟩ := bridgeParam_iff.mp hb
      exact ⟨bridge, door, n, hb, hv, nofun, sequenceParam_iff.mp hn, param_iff.mp hd,
        (Question.direction_iff (q := .creation bridge door n) hv).mp ⟨d, hdirection⟩⟩

namespace Service

variable {b b' : Bridge} {r r' : Resources} {request : Request} {kind : TransferKind}

/-- A lookup that is not in order is refused in the same way whatever is stored. -/
theorem handle_refused (hm : request.method = Request.lookupMethod kind)
    (h : ¬ request.InOrder kind) : ∃ field message, ∀ b r,
      ((persistent b r).handle request).1 = .invalidField field message := by
  cases hq : request.asked kind with
  | error e =>
    obtain ⟨field, message, rfl⟩ := Request.asked_error hq
    exact ⟨field, message, fun b r => by rw [handle_lookup hm, hq]⟩
  | ok q =>
    cases hd : q.direction? with
    | ok d => exact absurd (Request.inOrder_iff.mpr ⟨q, d, hq, hd⟩) h
    | error e =>
      obtain ⟨field, message, he⟩ := Question.direction_error hd "door_account"
      refine ⟨field, message, fun b r => ?_⟩
      rw [handle_lookup hm, hq, ← he]
      exact Question.answer_of_direction_error hd r.store

/-- One that is in order is not refused, and answered where the store has no fault. -/
theorem handle_inOrder (hm : request.method = Request.lookupMethod kind)
    (h : request.InOrder kind) (b : Bridge) (r : Resources) :
    (∀ field message, ((persistent b r).handle request).1 ≠ .invalidField field message) ∧
    (r.store.FaultFree → ((persistent b r).handle request).1 = .notFound ∨
      ∃ result, ((persistent b r).handle request).1 = .success result) := by
  obtain ⟨q, d, hq, hd⟩ := Request.inOrder_iff.mp h
  rw [handle_lookup hm, hq]
  refine ⟨?_, Question.answer_of_faultFree hd⟩
  intro field message
  dsimp only
  obtain ha | ⟨_, ha⟩ | ⟨_, ha⟩ := q.answer_of_direction hd r.store <;> rw [ha] <;> nofun

/-- What one node refuses every other node with a store refuses alike, whatever it has stored. -/
theorem handle_blind {field message : String}
    (h : ((persistent b r).handle request).1 = .invalidField field message) (b' : Bridge)
    (r' : Resources) : ((persistent b' r').handle request).1 = .invalidField field message := by
  by_cases lookup : ∃ kind, request.method = Request.lookupMethod kind
  · obtain ⟨kind, hm⟩ := lookup
    by_cases hin : request.InOrder kind
    · exact absurd h ((handle_inOrder hm hin b r).1 field message)
    · obtain ⟨name, text, hall⟩ := handle_refused hm hin
      rw [hall b' r', ← hall b r, h]
  · have claims : request.method ≠ "witness" := fun hm => lookup ⟨.claim, hm⟩
    have creations : request.method ≠ "witness_account_create" :=
      fun hm => lookup ⟨.createAccount, hm⟩
    unfold handle at h ⊢
    -- what is refused beside lookups is a method that no node knows
    split at h
    · contradiction
    · contradiction
    · rename_i hs
      cases hs
    · unfold serverInfo at h
      split at h
      · cases h
      · split at h <;> cases h
    · cases h
    · cases h
    · cases h
    · cases h
    · split
      all_goals first | contradiction | exact h

/-- A refusal is the same at every node with a store. A lookup is refused exactly if it is not in
order, and where the store has no fault it is answered exactly if it is. -/
theorem rejections_blind (j : Json) (b : Bridge) (r : Resources) :
    (∀ field message, ((persistent b r).handleJson j).1 = .invalidField field message →
      ∀ b' r', ((persistent b' r').handleJson j).1 = .invalidField field message) ∧
    ∀ request kind, Request.ofJson j = .ok request → request.method = Request.lookupMethod kind →
      ((∃ field message, ((persistent b r).handleJson j).1 = .invalidField field message) ↔
        ¬ request.InOrder kind) ∧
      (r.store.FaultFree →
        ((((persistent b r).handleJson j).1 = .notFound ∨
          ∃ result, ((persistent b r).handleJson j).1 = .success result) ↔
          request.InOrder kind)) := by
  constructor
  · intro field message h b' r'
    unfold handleJson at h ⊢
    split at h
    · exact handle_blind h b' r'
    · exact h
  · intro request kind hj hm
    have hline : ∀ b r, (persistent b r).handleJson j = (persistent b r).handle request := by
      intro b r
      rw [handleJson, hj]
    rw [hline]
    by_cases hin : request.InOrder kind
    · obtain ⟨hnever, hanswered⟩ := handle_inOrder hm hin b r
      refine ⟨⟨?_, fun hnot => absurd hin hnot⟩,
        fun free => ⟨fun _ => hin, fun _ => hanswered free⟩⟩
      rintro ⟨field, message, h⟩
      exact absurd h (hnever field message)
    · obtain ⟨field, message, hall⟩ := handle_refused hm hin
      rw [hall b r]
      refine ⟨⟨fun _ => hin, fun _ => ⟨field, message, rfl⟩⟩, fun _ => ⟨?_, fun h => absurd h hin⟩⟩
      rintro (h | ⟨_, h⟩) <;> cases h

/-- A node on a database that holds nothing, whose writers have died or not. -/
def blankNode (poisoned : Bool) : Service :=
  .persistent .sample ⟨.ofIdentity (.sample 0), ⟨.empty, .zero, poisoned⟩, .running, .both .zero⟩

/-- An account creation that is asked for at a door of no bridge. -/
def strayParams : List (String × Json) :=
  [("bridge_descriptor", Bridge.sample.toJson), ("create_count", .string "+2"),
    ("door_account", .string "rStranger")]

def requestJson (method : String) (params : List (String × Json)) : Json :=
  .object [("method", .string method), ("params", .object params)]

theorem rejections_blind_stray :
    (∃ field message,
      ((blankNode false).handleJson (requestJson "witness_account_create" strayParams)).1 =
        .invalidField field message ∧
      ((blankNode true).handleJson (requestJson "witness_account_create" strayParams)).1 =
        .invalidField field message) ∧
    (((blankNode false).handleJson (requestJson "witness" Site.lookupParams)).1 = .notFound ∨
      ∃ result, ((blankNode false).handleJson (requestJson "witness" Site.lookupParams)).1 =
        .success result) := by
  have hfree : (⟨.empty, .zero, false⟩ : Store).FaultFree :=
    Database.blank_empty.legible.faultFree rfl
  have hstray :
      ((blankNode false).handleJson (requestJson "witness_account_create" strayParams)).1 =
        .invalidField "door_account"
          "Door account rStranger matches neither side of the bridge" := by
    rfl
  have hin : Request.InOrder ⟨"witness", .object Site.lookupParams⟩ .claim := by
    refine ⟨.sample, Bridge.sample.lockingDoor, 1, ?_, rfl, ?_, ?_, ?_, .inl rfl⟩
    · exact ⟨_, rfl, Bridge.ofJson_toJson .plain .sample⟩
    · exact fun _ => ⟨.native 10, _, rfl, Amount.ofJson_toJson (.native 10)⟩
    · exact ⟨_, rfl, (Request.sequence_iff (m := .string "1") (n := 1)).mp rfl⟩
    · exact ⟨_, rfl, AccountId.ofJson_toJson Bridge.sample.lockingDoor⟩
  refine ⟨⟨_, _, hstray, ?_⟩, ?_⟩
  · exact (rejections_blind _ _ _).1 _ _ hstray _ _
  · exact (((rejections_blind (requestJson "witness" Site.lookupParams) .sample _).2
      ⟨"witness", .object Site.lookupParams⟩ .claim rfl rfl).2 hfree).mpr hin

end Service

end Attestor

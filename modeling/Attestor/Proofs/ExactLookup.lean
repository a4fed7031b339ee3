import Attestor.Proofs.DecimalValue
import Attestor.Proofs.SignedAlike
import Attestor.Proofs.WriteOnce

namespace Attestor

/-- A key is told by its kind and by its number as it is stored. -/
theorem ClaimKey.eq_key_iff (kind : TransferKind) {k : ClaimKey} {n : UInt64} :
    k = kind.key n ↔ k.kind = kind ∧ k.value.toInt64 = n.toInt64 := by
  constructor
  · rintro rfl
    cases kind <;> exact ⟨rfl, rfl⟩
  · rintro ⟨rfl, hn⟩
    have hvalue : k.value = n := congrArg Int64.toUInt64 hn
    rw [← hvalue, k.key_kind_value]

namespace Attestation

/-- Those of some attestations that belong in a table. -/
def within (added : List Attestation) (kind : TransferKind) (direction : Direction) :
    List Attestation :=
  added.filter fun a => a.key.kind = kind ∧ a.direction = direction

theorem mem_within {added : List Attestation} {kind : TransferKind} {direction : Direction}
    {a : Attestation} :
    a ∈ within added kind direction ↔ a ∈ added ∧ a.key.kind = kind ∧ a.direction = direction := by
  simp [within]

/-- Only account creations have a reward. -/
def RewardsCreation (a : Attestation) : Prop :=
  a.rewardAmount ≠ none → a.isAccountCreate = true

theorem RewardsCreation.kept_eq {a : Attestation} (h : a.RewardsCreation) : a.kept = a := by
  obtain ⟨direction, key, transactionId, ledger, success, amount, reward, bridge, sender, rewarded,
    destination, signer, publicKey, signature⟩ := a
  cases key with
  | claim n =>
    cases reward with
    | none => rfl
    | some r => exact absurd (h nofun) nofun
  | createAccount n => rfl

end Attestation

namespace Database

/-- The tables hold the rows of these attestations, each in its own table, and no others. -/
def Records (db : Database) (added : List Attestation) : Prop :=
  ∀ kind direction, db.rows kind direction =
    (Attestation.within added kind direction).map Row.ofAttestation

variable {db : Database} {added : List Attestation}

theorem records_empty : empty.Records [] :=
  blank_empty.bare

theorem Records.append (h : db.Records added) (a : Attestation) :
    (db.append a).Records (added ++ [a]) := by
  intro kind direction
  rw [Attestation.within, List.filter_append, List.map_append, ← Attestation.within]
  by_cases hk : kind = a.key.kind ∧ direction = a.direction
  · obtain ⟨rfl, rfl⟩ := hk
    rw [rows_append, h]
    simp
  · have hk' : ¬(a.key.kind = kind ∧ a.direction = direction) :=
      fun he => hk ⟨he.1.symm, he.2.symm⟩
    rw [rows_append_other db a hk, h, List.filter_cons_of_neg (by simpa using hk')]
    simp

theorem Records.of_rows {db' : Database} (h : db.Records added)
    (hrows : ∀ kind direction, db'.rows kind direction = db.rows kind direction) :
    db'.Records added := by
  intro kind direction
  rw [hrows]
  exact h kind direction

theorem Records.effect (h : db.Records added) (d : Deed) :
    (d.effect db).Records (added ++ d.inserted?.toList) := by
  unfold Deed.effect
  split
  · change (db.setCheckpoint _ _).Records (added ++ [])
    rw [List.append_nil]
    exact h.of_rows fun kind direction => rows_setCheckpoint ..
  · change (db.ensure _).Records (added ++ [])
    rw [List.append_nil]
    exact h.of_rows fun kind direction => rows_ensure ..
  · cases d.inserted? with
    | none => simpa using h
    | some a => exact h.append a

theorem Records.effects (h : db.Records added) (deeds : List Deed) :
    (deeds.foldl Deed.effect db).Records (added ++ Deed.inserted deeds) := by
  induction deeds generalizing db added with
  | nil => simpa [Deed.inserted] using h
  | cons d deeds ih =>
    have hd : Deed.inserted (d :: deeds) = d.inserted?.toList ++ Deed.inserted deeds := by
      unfold Deed.inserted
      cases hi : d.inserted? <;> simp [hi]
    rw [List.foldl_cons, hd, ← List.append_assoc]
    exact ih (h.effect d)

end Database

/-- What a batch has inserted, going by its report. One that was not committed has inserted
nothing. -/
def Batch.inserted (b : Batch) (report : Report) : List Attestation :=
  match report.failure with
  | none => Deed.inserted (b.deeds report.answers)
  | some _ => []

theorem Batch.inserted_of_failure {b : Batch} {report : Report} (h : report.failure ≠ none) :
    b.inserted report = [] := by
  obtain ⟨e, he⟩ := Option.ne_none_iff_exists'.mp h
  rw [inserted, he]

/-- A batch under way has added the rows that its answers tell of. -/
theorem Draft.run_records {db : Database} {added : List Attestation} (h : db.Records added)
    {b : Batch} {answers : List StepAnswer} {d : Draft}
    (hr : run b.lenient b.steps (.ofDatabase db) = (answers, .ok d)) :
    d.database.Records (added ++ Deed.inserted (b.deeds answers)) := by
  have heffects := h.effects (b.deeds answers)
  rw [(run_after hr).2.database]
  exact heffects

namespace Store

theorem write_records {s : Store} {added : List Attestation} (h : s.database.Records added)
    (b : Batch) : (s.write b).2.database.Records (added ++ b.inserted (s.write b).1) := by
  obtain ⟨hf, ht, -⟩ | ⟨answers, d, -, hr, -, hw⟩ := s.write_cases b
  · rw [ht, Batch.inserted_of_failure hf, List.append_nil]
    exact h
  · rw [hw]
    exact Draft.run_records h hr

/-- Only what a step was to insert has been inserted. -/
theorem step_of_inserted {s : Store} {b : Batch} {a : Attestation}
    (h : a ∈ b.inserted (s.write b).1) : ∃ step ∈ b.steps, step.attestation? = some a := by
  obtain ⟨hf, -, -⟩ | ⟨answers, d, -, hr, -, hw⟩ := s.write_cases b
  · rw [Batch.inserted_of_failure hf] at h
    cases h
  · rw [hw] at h
    exact Batch.step_of_inserted h

/-- A batch without inserts adds no rows. -/
theorem write_records_same {s : Store} {added : List Attestation} (h : s.database.Records added)
    {b : Batch} (none : ∀ step ∈ b.steps, step.attestation? = none) :
    (s.write b).2.database.Records added := by
  have hnil : b.inserted (s.write b).1 = [] := by
    rw [List.eq_nil_iff_forall_not_mem]
    intro a ha
    obtain ⟨step, hs, hstep⟩ := step_of_inserted ha
    cases (none step hs).symm.trans hstep
  have hw := write_records h b
  rwa [hnil, List.append_nil] at hw

end Store

/-- The attestations that an operation is to insert. -/
def Operation.attestations : Operation → List Attestation
  | write _ b => b.steps.filterMap WriteStep.attestation?
  | _ => []

namespace Holding

/-- The attestations that an operation has inserted: those whose inserts were answered as new, in a
batch that was committed. -/
def inserted : Holding → Operation → List Attestation
  | opened s, .write fault b => b.inserted (s.writeUnder fault b).1
  | _, _ => []

/-- All that operations have inserted, one after the other. -/
def history : Holding → List Operation → List Attestation
  | _, [] => []
  | h, o :: rest => h.inserted o ++ (h.step o).history rest

theorem inserted_attestations (h : Holding) (o : Operation) :
    ∀ a ∈ h.inserted o, a ∈ o.attestations := by
  intro a ha
  cases h with
  | closed db => cases ha
  | opened s =>
    cases o with
    | write fault b =>
      cases fault with
      | none =>
        obtain ⟨step, hs, hstep⟩ := Store.step_of_inserted ha
        exact List.mem_filterMap.mpr ⟨step, hs, hstep⟩
      | some f =>
        simp only [inserted, Batch.inserted_of_failure (s.writeUnder_fault_fails f b).1] at ha
        cases ha
    | _ => cases ha

theorem history_attestations {h : Holding} {operations : List Operation} :
    ∀ a ∈ h.history operations, a ∈ operations.flatMap Operation.attestations := by
  induction operations generalizing h with
  | nil =>
    intro a ha
    cases ha
  | cons o rest ih =>
    intro a ha
    rw [List.flatMap_cons, List.mem_append]
    rcases List.mem_append.mp ha with ha | ha
    · exact .inl (h.inserted_attestations o a ha)
    · exact .inr (ih a ha)

theorem step_records {h : Holding} {added : List Attestation} (hr : h.database.Records added)
    (o : Operation) : (h.step o).database.Records (added ++ h.inserted o) := by
  have hreopen : (reopen h.database).database.Records added := by
    rw [database_reopen]
    exact hr.of_rows fun kind direction => Database.rows_prepare ..
  cases h with
  | closed db =>
    change (step (closed db) o).database.Records (added ++ [])
    rw [List.append_nil]
    cases o with
    | reopen => exact hreopen
    | _ => exact hr
  | opened s =>
    cases o with
    | write fault b =>
      cases fault with
      | none => exact Store.write_records hr b
      | some f =>
        obtain ⟨hf, ht⟩ := s.writeUnder_fault_fails f b
        change (s.writeUnder (some f) b).2.database.Records
          (added ++ b.inserted (s.writeUnder (some f) b).1)
        rw [ht, Batch.inserted_of_failure hf, List.append_nil]
        exact hr
    | advance role transactionId ledger =>
      change (s.advance role transactionId ledger).2.database.Records (added ++ [])
      rw [List.append_nil]
      apply Store.write_records_same hr
      simp [WriteStep.attestation?]
    | ensureCheckpoint role =>
      change (s.ensureCheckpoint role).2.database.Records (added ++ [])
      rw [List.append_nil, Store.ensureCheckpoint_store]
      apply Store.write_records_same hr
      simp [WriteStep.attestation?]
    | die steps =>
      change (s.writeAndDie steps).2.database.Records (added ++ [])
      rw [List.append_nil, Store.writeAndDie_database]
      exact hr
    | reopen =>
      change (reopen s.database).database.Records (added ++ [])
      rw [List.append_nil]
      exact hreopen
    | _ =>
      change s.database.Records (added ++ [])
      rw [List.append_nil]
      exact hr

theorem run_records {h : Holding} {added : List Attestation} (hr : h.database.Records added)
    (operations : List Operation) :
    (h.run operations).database.Records (added ++ h.history operations) := by
  induction operations generalizing h added with
  | nil =>
    rw [history, List.append_nil]
    exact hr
  | cons o rest ih =>
    rw [history, ← List.append_assoc]
    exact ih (step_records hr o)

end Holding

namespace Database

variable {db : Database} {added : List Attestation}

theorem Records.mem_rows (h : db.Records added) {kind : TransferKind} {direction : Direction}
    {r : Row} : r ∈ db.rows kind direction ↔ ∃ a ∈ added, a.key.kind = kind ∧
      a.direction = direction ∧ r = Row.ofAttestation a := by
  rw [h kind direction, List.mem_map]
  constructor
  · rintro ⟨a, ha, rfl⟩
    obtain ⟨hm, hk, hd⟩ := Attestation.mem_within.mp ha
    exact ⟨a, hm, hk, hd, rfl⟩
  · rintro ⟨a, hm, hk, hd, rfl⟩
    exact ⟨a, Attestation.mem_within.mpr ⟨hm, hk, hd⟩, rfl⟩

/-- What was inserted could be stored, as its row can be read. -/
theorem Records.storable (h : db.Records added) (legible : db.Legible) {a : Attestation}
    (ha : a ∈ added) : a.Storable := by
  intro hk hnone
  obtain ⟨a', hs, hk', -, hrow⟩ :=
    legible.stored _ _ _ (h.mem_rows.mpr ⟨a, ha, rfl, rfl, rfl⟩)
  have hc : a.isAccountCreate = true := decide_eq_true hk
  have hc' : a'.isAccountCreate = true := decide_eq_true (hk'.trans hk)
  have hreward := congrArg Row.rewardAmount hrow
  simp only [Row.ofAttestation, hc, hc', hnone, ↓reduceIte, Option.map_none] at hreward
  exact hs (hk'.trans hk) (Option.map_eq_none_iff.mp hreward.symm)

/-- A search for one bridge and one number finds what was inserted with them and fits, and reads it
as it was. -/
theorem Records.find_iff (h : db.Records added) (legible : db.Legible) (keyed : db.Keyed)
    (rewards : ∀ a ∈ added, a.RewardsCreation) (matches? : Row → Bool) {bridgeKey : Bytes}
    {number : Int64} (one : ∀ r, matches? r = true → r.bridgeKey = bridgeKey ∧ r.number = number)
    (kind : TransferKind) (direction : Direction) :
    ∃ found, db.find kind direction matches? = .ok found ∧ ∀ x, found = some x ↔
      x ∈ added ∧ x.key.kind = kind ∧ x.direction = direction ∧
        matches? (Row.ofAttestation x) = true := by
  have hread : ∀ a ∈ added, a.key.kind = kind → a.direction = direction →
      Database.read kind direction (Row.ofAttestation a) = .ok a := by
    rintro a ha rfl rfl
    rw [Row.read_ofAttestation (h.storable legible ha), (rewards a ha).kept_eq]
  unfold Database.find
  cases hf : (db.rows kind direction).find? matches? with
  | none =>
    refine ⟨none, rfl, fun x => ⟨nofun, ?_⟩⟩
    rintro ⟨hx, hk, hd, hm⟩
    exact absurd hm (List.find?_eq_none.mp hf _ (h.mem_rows.mpr ⟨x, hx, hk, hd, rfl⟩))
  | some r =>
    have hr := List.mem_of_find?_eq_some hf
    obtain ⟨a, ha, hk, hd, rfl⟩ := h.mem_rows.mp hr
    refine ⟨some a, ?_, fun x => ⟨?_, ?_⟩⟩
    · simp only [hread a ha hk hd]
      rfl
    · rintro ⟨⟩
      exact ⟨ha, hk, hd, List.find?_some hf⟩
    · rintro ⟨hx, hkx, hdx, hm⟩
      obtain ⟨hb, hn⟩ := one _ (List.find?_some hf)
      obtain ⟨hbx, hnx⟩ := one _ hm
      have hrow : Row.ofAttestation a = Row.ofAttestation x :=
        keyed.eq_of_number hr (h.mem_rows.mpr ⟨x, hx, hkx, hdx, rfl⟩) (hb.trans hbx.symm)
          (hn.trans hnx.symm)
      have hax := hread a ha hk hd
      rw [hrow, hread x hx hkx hdx] at hax
      rw [Except.ok.inj hax]

end Database

namespace Holding

/-- Lookups are exact. Whatever was done with a database that begins empty, a lookup of a claim
finds an attestation exactly if it was inserted in that direction, for that bridge, under that
number and with an amount of the same value, and finds it in every field as it was inserted; and so
does a lookup of an account creation, whatever the amount. -/
theorem lookups_exact (operations : List Operation) {s : Store}
    (reached : fresh.run operations = opened s) (healthy : s.poisoned = false)
    (rewards : ∀ a ∈ operations.flatMap Operation.attestations,
      a.rewardAmount ≠ none → a.isAccountCreate = true)
    (direction : Direction) (bridge : Bridge) (n : UInt64)
    (hashes : Bridge.Apart
      (bridge :: (operations.flatMap Operation.attestations).map Attestation.bridge)) :
    (∀ amount, ∃ found, s.lookupClaim direction bridge n amount = .ok found ∧
      ∀ x, found = some x ↔ x ∈ fresh.history operations ∧ x.direction = direction ∧
        x.bridge = bridge ∧ x.key = .claim n ∧ x.deliveredAmount.SameValue amount) ∧
    ∃ found, s.lookupAccountCreate direction bridge n = .ok found ∧
      ∀ x, found = some x ↔ x ∈ fresh.history operations ∧ x.direction = direction ∧
        x.bridge = bridge ∧ x.key = .createAccount n := by
  have hdb : (fresh.run operations).database = s.database := congrArg database reached
  have hrecords : s.database.Records (fresh.history operations) := by
    have hempty : fresh.database.Records [] := Database.records_empty
    rw [← hdb]
    exact run_records hempty operations
  have hlegible : s.database.Legible := hdb ▸ run_legible operations
  have hkeyed : s.database.Keyed :=
    hdb ▸ Database.keyed_empty.changes (fresh.run_changes operations)
  have hrewards : ∀ a ∈ fresh.history operations, a.RewardsCreation :=
    fun a ha => rewards a (history_attestations a ha)
  have hbridge : ∀ a ∈ fresh.history operations,
      a.bridge.partitionKey = bridge.partitionKey ↔ a.bridge = bridge := by
    intro a ha
    have hin : a.bridge ∈ (operations.flatMap Operation.attestations).map Attestation.bridge :=
      List.mem_map_of_mem (history_attestations a ha)
    refine ⟨fun h => Bridge.canonicalText_inj ?_, congrArg Bridge.partitionKey⟩
    exact hashes a.bridge (List.mem_cons_of_mem _ hin) bridge List.mem_cons_self h
  refine ⟨?_, ?_⟩
  · intro amount
    obtain ⟨found, hfound, hiff⟩ := hrecords.find_iff hlegible hkeyed hrewards
      (fun r => r.bridgeKey == bridge.partitionKey && r.number == n.toInt64
        && r.deliveredAmount == Row.amountText amount)
      (by simpa using fun r hb hn _ => ⟨hb, hn⟩) .claim direction
    refine ⟨found, ?_, ?_⟩
    · rw [Store.lookupClaim, Store.read, healthy]
      exact hfound
    · intro x
      rw [hiff x]
      simp only [Row.ofAttestation, Bool.and_eq_true, beq_iff_eq, Row.amountText_inj,
        Amount.sameValue_iff]
      constructor
      · rintro ⟨hx, hk, hd, ⟨hb, hn⟩, ha⟩
        exact ⟨hx, hd, (hbridge x hx).mp hb, (ClaimKey.eq_key_iff .claim).mpr ⟨hk, hn⟩, ha⟩
      · rintro ⟨hx, hd, hb, hk, ha⟩
        obtain ⟨hk, hn⟩ := (ClaimKey.eq_key_iff .claim).mp hk
        exact ⟨hx, hk, hd, ⟨(hbridge x hx).mpr hb, hn⟩, ha⟩
  · obtain ⟨found, hfound, hiff⟩ := hrecords.find_iff hlegible hkeyed hrewards
      (fun r => r.bridgeKey == bridge.partitionKey && r.number == n.toInt64)
      (by simpa using fun r hb hn => ⟨hb, hn⟩) .createAccount direction
    refine ⟨found, ?_, ?_⟩
    · rw [Store.lookupAccountCreate, Store.read, healthy]
      exact hfound
    · intro x
      rw [hiff x]
      simp only [Row.ofAttestation, Bool.and_eq_true, beq_iff_eq]
      constructor
      · rintro ⟨hx, hk, hd, hb, hn⟩
        exact ⟨hx, hd, (hbridge x hx).mp hb, (ClaimKey.eq_key_iff .createAccount).mpr ⟨hk, hn⟩⟩
      · rintro ⟨hx, hd, hb, hk⟩
        obtain ⟨hk, hn⟩ := (ClaimKey.eq_key_iff .createAccount).mp hk
        exact ⟨hx, hk, hd, (hbridge x hx).mpr hb, hn⟩

/-- A claim with a number that is negative where it is stored. -/
def highClaim : Attestation :=
  (Identity.sample 0).attest (.claim (.sample "A" 7 10) 9223372036854775809 none)

/-- An account creation with the same number. -/
def highCreation : Attestation :=
  (Identity.sample 0).attest (.createAccount (.sample "B" 7 20) 9223372036854775809 (.native 1)
    Bridge.sample.issuingDoor)

/-- Both are inserted, the claim once more in a batch that fails, and the database is opened
again. -/
def highNumbers : List Operation :=
  [.reopen, .write none
      ⟨[.insertClaim highClaim, .insertAccountCreate highCreation, .advance .locking "B" 7], false⟩,
    .write none ⟨[.fail "stop", .insert highClaim], false⟩, .reopen]

theorem lookups_exact_high_numbers : ∃ s, fresh.run highNumbers = opened s ∧
    s.lookupClaim .lockingToIssuing .sample 9223372036854775809 (.native 10) =
      .ok (some highClaim) ∧
    s.lookupClaim .lockingToIssuing .sample 9223372036854775809 (.native 11) = .ok none ∧
    s.lookupAccountCreate .lockingToIssuing .sample 9223372036854775809 =
      .ok (some highCreation) := by
  obtain ⟨s, reached, healthy⟩ : ∃ s, fresh.run highNumbers = opened s ∧ s.poisoned = false :=
    ⟨_, rfl, rfl⟩
  have hattestations : highNumbers.flatMap Operation.attestations =
      [highClaim, highCreation, highClaim] := rfl
  have hhistory : fresh.history highNumbers = [highClaim, highCreation] := rfl
  have rewards : ∀ a ∈ highNumbers.flatMap Operation.attestations,
      a.rewardAmount ≠ none → a.isAccountCreate = true := by
    rw [hattestations]
    simp only [List.forall_mem_cons, List.not_mem_nil, false_implies, implies_true, and_true]
    exact ⟨fun h => absurd rfl h, fun _ => rfl, fun h => absurd rfl h⟩
  have hashes : Bridge.Apart (.sample ::
      (highNumbers.flatMap Operation.attestations).map Attestation.bridge) := by
    have hbridges : Bridge.sample ::
        (highNumbers.flatMap Operation.attestations).map Attestation.bridge =
        List.replicate 4 .sample := rfl
    rw [hbridges]
    exact Bridge.apart_replicate 4 .sample
  obtain ⟨hclaim, created, hcreated, hcreation⟩ := lookups_exact highNumbers reached healthy rewards
    .lockingToIssuing .sample 9223372036854775809 hashes
  rw [hhistory] at hclaim hcreation
  obtain ⟨found, hfound, hiff⟩ := hclaim (.native 10)
  obtain ⟨other, hother, hothers⟩ := hclaim (.native 11)
  refine ⟨s, reached, ?_, ?_, ?_⟩
  · rw [hfound, (hiff highClaim).mpr ⟨by simp, rfl, rfl, rfl, rfl⟩]
  · rw [hother]
    cases other with
    | none => rfl
    | some x =>
      obtain ⟨hx, -, -, hk, ha⟩ := (hothers x).mp rfl
      simp only [List.mem_cons, List.not_mem_nil, or_false] at hx
      rcases hx with rfl | rfl
      · have ha : (10 : UInt64) = 11 := ha
        exact absurd ha (by decide)
      · cases hk
  · rw [hcreated, (hcreation highCreation).mpr ⟨by simp, rfl, rfl, rfl⟩]

end Holding

end Attestor

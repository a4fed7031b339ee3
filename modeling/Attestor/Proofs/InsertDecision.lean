import Attestor.Proofs.ExactLookup

namespace Attestor

namespace Database

/-- The rows of the attestation's bridge in its table. -/
def peers (db : Database) (a : Attestation) : List Row :=
  (db.rows a.key.kind a.direction).filter fun r => r.bridge = a.bridge.canonicalText

/-- The row that an insert of the attestation is answered with: that of its transaction, or, where
there is none, that of its number. -/
def Meets (db : Database) (a : Attestation) (r : Row) : Prop :=
  r ∈ db.peers a ∧ (r.transactionId = a.transactionId ∨
    (∀ s ∈ db.peers a, s.transactionId ≠ a.transactionId) ∧ r.number.toUInt64 = a.key.value)

/-- The key of a bridge tells the attestation's from the others in its table. -/
def Tells (db : Database) (a : Attestation) : Prop :=
  ∀ r ∈ db.rows a.key.kind a.direction,
    r.bridgeKey = (Row.ofAttestation a).bridgeKey ↔ r.bridge = a.bridge.canonicalText

variable {db : Database} {a : Attestation}

theorem Records.tells {added : List Attestation} (h : db.Records added)
    (apart : Bridge.Apart (a.bridge :: added.map Attestation.bridge)) : db.Tells a := by
  intro r hr
  obtain ⟨b, hb, -, -, rfl⟩ := h.mem_rows.mp hr
  constructor
  · exact apart b.bridge (List.mem_cons_of_mem _ (List.mem_map_of_mem hb)) a.bridge
      List.mem_cons_self
  · intro ht
    exact congrArg (fun text => Hash.Blake3.hash (Bytes.ofString text)) ht

theorem mem_peers {r : Row} : r ∈ db.peers a ↔
    r ∈ db.rows a.key.kind a.direction ∧ r.bridge = a.bridge.canonicalText := by
  simp [peers]

theorem Tells.mem_peers (h : db.Tells a) {r : Row} : r ∈ db.peers a ↔
    r ∈ db.rows a.key.kind a.direction ∧ r.bridgeKey = (Row.ofAttestation a).bridgeKey := by
  rw [Database.mem_peers]
  exact and_congr_right fun hr => (h r hr).symm

/-- Numbers are told apart as they are stored. -/
theorem number_column {r : Row} :
    r.number = (Row.ofAttestation a).number ↔ r.number.toUInt64 = a.key.value :=
  ⟨congrArg Int64.toUInt64, congrArg UInt64.toInt64⟩

theorem Tells.free_iff (h : db.Tells a) : ¬db.Blocks a ↔
    ∀ r ∈ db.peers a, r.transactionId ≠ a.transactionId ∧ r.number.toUInt64 ≠ a.key.value := by
  constructor
  · intro hfree r hr
    obtain ⟨hm, hk⟩ := h.mem_peers.mp hr
    constructor
    · intro ht
      exact hfree ⟨r, hm, Row.conflicts_iff.mpr ⟨hk, .inl ht⟩⟩
    · intro hn
      exact hfree ⟨r, hm, Row.conflicts_iff.mpr ⟨hk, .inr (number_column.mpr hn)⟩⟩
  · rintro hpeers ⟨r, hm, hc⟩
    obtain ⟨hk, ht | hn⟩ := Row.conflicts_iff.mp hc
    · exact (hpeers r (h.mem_peers.mpr ⟨hm, hk⟩)).1 ht
    · exact (hpeers r (h.mem_peers.mpr ⟨hm, hk⟩)).2 (number_column.mp hn)

theorem Tells.meets (h : db.Tells a) {r : Row}
    (hb : Draft.blocking? (db.rows a.key.kind a.direction) (Row.ofAttestation a) = some r) :
    db.Meets a r := by
  obtain ⟨hm, hk, ht | ⟨hnone, hn⟩⟩ := Draft.blocking_some hb
  · exact ⟨h.mem_peers.mpr ⟨hm, hk⟩, .inl ht⟩
  · refine ⟨h.mem_peers.mpr ⟨hm, hk⟩, .inr ⟨?_, number_column.mp hn⟩⟩
    intro s hs
    obtain ⟨hm', hk'⟩ := h.mem_peers.mp hs
    exact hnone s hm' hk'

/-- The keys of a table leave one row to answer with. -/
theorem Tells.meets_unique (h : db.Tells a) (keyed : db.Keyed) {r s : Row} (hr : db.Meets a r)
    (hs : db.Meets a s) : r = s := by
  obtain ⟨hrp, hr⟩ := hr
  obtain ⟨hsp, hs⟩ := hs
  obtain ⟨hrm, hrk⟩ := h.mem_peers.mp hrp
  obtain ⟨hsm, hsk⟩ := h.mem_peers.mp hsp
  refine keyed.eq_of_conflicts hrm hsm (Row.conflicts_iff.mpr ⟨hrk.trans hsk.symm, ?_⟩)
  rcases hr with hrt | ⟨hnone, hrn⟩
  · rcases hs with hst | ⟨hnone, -⟩
    · exact .inl (hrt.trans hst.symm)
    · exact absurd hrt (hnone r hrp)
  · rcases hs with hst | ⟨-, hsn⟩
    · exact absurd hst (hnone s hsp)
    · exact .inr (congrArg UInt64.toInt64 (hrn.trans hsn.symm))

end Database

/-- On tables that can be read, with their keys in order, an insert adds its row or finds the one
row to answer with. -/
theorem Draft.insert_decides {d : Draft} {a : Attestation} (legible : d.database.Legible)
    (keyed : d.database.Keyed) (tells : d.database.Tells a) (storable : a.Storable) :
    ∃ i d', d.insert a = .ok (i, d') ∧
      (i = .inserted ↔ ∀ r ∈ d.database.peers a,
        r.transactionId ≠ a.transactionId ∧ r.number.toUInt64 ≠ a.key.value) ∧
      (i = .inserted → d'.database = d.database.append a) ∧
      ∀ x, i = .exists x → d'.database = d.database ∧
        ∃ r, (∀ r', d.database.Meets a r' ↔ r' = r) ∧
          Database.read a.key.kind a.direction r = .ok x := by
  obtain ⟨i, d', hi⟩ := insert_succeeds legible storable
  obtain ⟨-, hnew, -⟩ := insert_record hi
  refine ⟨i, d', hi, hnew.trans tells.free_iff, ?_, ?_⟩
  · intro hinserted
    obtain ⟨-, -, -, rfl⟩ | ⟨_, _, -, -, hold, -⟩ := insert_cases hi
    · rfl
    · cases hinserted.symm.trans hold
  · intro x hold
    obtain ⟨-, -, hinserted, -⟩ | ⟨r, y, hb, hread, hexists, rfl⟩ := insert_cases hi
    · cases hinserted.symm.trans hold
    · cases hexists.symm.trans hold
      have hmeets := tells.meets hb
      refine ⟨rfl, r, fun r' => ⟨fun h => tells.meets_unique keyed h hmeets, ?_⟩, hread⟩
      rintro rfl
      exact hmeets

namespace Holding

/-- A conditional insert decides rightly. Whatever was done with a database that begins empty, and
whatever a batch on it has done so far, an attestation is inserted exactly if no row of its kind,
direction and bridge has its transaction or its number, and then its row is added and nothing else
changed. Otherwise nothing is changed, and the answer is what the row of the transaction holds, or,
where there is none, that of the number. -/
theorem inserts_decide (operations : List Operation) {s : Store}
    (reached : fresh.run operations = opened s) (batch : Batch) {answers : List StepAnswer}
    {d : Draft}
    (underway : Draft.run batch.lenient batch.steps (.ofDatabase s.database) = (answers, .ok d))
    (a : Attestation) (rewarded : a.key.kind = .createAccount → a.rewardAmount ≠ none)
    (hashes : Bridge.Apart (a.bridge :: (operations.flatMap Operation.attestations ++
      batch.steps.filterMap WriteStep.attestation?).map Attestation.bridge)) :
    ∃ i d', d.insert a = .ok (i, d') ∧
      (i = .inserted ↔ ∀ r ∈ d.database.peers a,
        r.transactionId ≠ a.transactionId ∧ r.number.toUInt64 ≠ a.key.value) ∧
      (i = .inserted → d'.database = d.database.append a) ∧
      ∀ x, i = .exists x → d'.database = d.database ∧
        ∃ r, (∀ r', d.database.Meets a r' ↔ r' = r) ∧
          Database.read a.key.kind a.direction r = .ok x := by
  have hdb : (fresh.run operations).database = s.database := congrArg database reached
  have hchanges : Database.empty.Changes d.database := by
    have hbatch : s.database.Changes d.database :=
      Draft.run_changes (congrArg Prod.snd underway)
    rw [← hdb] at hbatch
    exact (fresh.run_changes operations).trans hbatch
  have hrecords : d.database.Records
      (fresh.history operations ++ Deed.inserted (batch.deeds answers)) := by
    have hempty : fresh.database.Records [] := Database.records_empty
    have hstore := run_records hempty operations
    rw [hdb] at hstore
    exact Draft.run_records hstore underway
  have htells : d.database.Tells a := by
    apply hrecords.tells
    intro b hb b' hb'
    refine hashes b (List.cons_subset_cons _ ?_ hb) b' (List.cons_subset_cons _ ?_ hb')
    all_goals
      apply List.map_subset
      apply List.append_subset.mpr
      refine ⟨?_, ?_⟩
      · intro x hx
        exact List.mem_append_left _ (history_attestations x hx)
      · intro x hx
        exact List.mem_append_right _ (List.mem_filterMap.mpr (Batch.step_of_inserted hx))
  exact Draft.insert_decides (Database.blank_empty.legible.changes hchanges)
    (Database.keyed_empty.changes hchanges) htells rewarded

/-- A claim that is inserted after the sample. -/
def secondClaim : Event :=
  .claim (.sample "B" 8 20) 2 none

/-- A batch that has inserted it, and has not moved the checkpoint yet. -/
def secondInserted : Batch :=
  ⟨[.insertClaim ((Identity.sample 0).attest secondClaim)], false⟩

/-- A claim with the transaction of one row and the number of another. -/
def contestedClaim : Attestation :=
  (Identity.sample 0).attest (.claim (.sample "B" 9 30) 1 none)

/-- An account creation with the same transaction and number, which are in nobody's way. -/
def contestedCreation : Attestation :=
  (Identity.sample 0).attest (.createAccount (.sample "B" 9 30) 1 (.native 1)
    Bridge.sample.issuingDoor)

/-- The batch has come so far, and its claim is in nobody's way. -/
theorem secondInserted_underway : ∃ s d, fresh.run committedOnce = opened s ∧
    Draft.run false secondInserted.steps (.ofDatabase s.database) =
      ([.insertion .inserted], .ok d) ∧
    d.database = s.database.append ((Identity.sample 0).attest secondClaim) ∧
    s.database.rows .createAccount .lockingToIssuing = [] := by
  obtain ⟨s, reached, hclaims, hcreations⟩ : ∃ s, fresh.run committedOnce = opened s ∧
      s.database.rows .claim .lockingToIssuing = [Row.ofAttestation Store.insertedSample] ∧
      s.database.rows .createAccount .lockingToIssuing = [] := ⟨_, rfl, rfl, rfl⟩
  have hfree : ¬s.database.Blocks ((Identity.sample 0).attest secondClaim) := by
    rintro ⟨r, hm, hc⟩
    change r ∈ s.database.rows .claim .lockingToIssuing at hm
    rw [hclaims, List.mem_singleton] at hm
    subst hm
    obtain ⟨-, ht | hn⟩ := Row.conflicts_iff.mp hc
    · exact absurd ht (by decide)
    · exact absurd hn (by decide)
  obtain ⟨i, d, hi⟩ := Draft.insert_succeeds (d := .ofDatabase s.database)
    (opened_legible reached) ((Identity.sample 0).attest_storable secondClaim)
  obtain ⟨hd, hnew, -⟩ := Draft.insert_record hi
  rw [hnew.mpr hfree] at hi
  refine ⟨s, d, reached, ?_, hd.trans (Database.record_of_free hfree), hcreations⟩
  have hstep : Draft.step (.ofDatabase s.database)
      (.insertClaim ((Identity.sample 0).attest secondClaim)) = .ok (.insertion .inserted, d) := by
    rw [Draft.step, if_neg (by decide), hi]
    rfl
  simp only [secondInserted, Draft.run, hstep]

theorem inserts_decide_contested : ∃ s d, fresh.run committedOnce = opened s ∧
    Draft.run false secondInserted.steps (.ofDatabase s.database) =
      ([.insertion .inserted], .ok d) ∧
    (∃ d', d.insert contestedClaim = .ok (.exists ((Identity.sample 0).attest secondClaim), d') ∧
      d'.database = d.database) ∧
    ∃ d', d.insert contestedCreation = .ok (.inserted, d') ∧
      d'.database = d.database.append contestedCreation := by
  obtain ⟨s, d, reached, underway, hdb, hcreations⟩ := secondInserted_underway
  have hashes : ∀ a : Attestation, a.bridge = .sample → Bridge.Apart (a.bridge ::
      (committedOnce.flatMap Operation.attestations ++
        secondInserted.steps.filterMap WriteStep.attestation?).map Attestation.bridge) := by
    intro a ha
    have hbridges : a.bridge :: (committedOnce.flatMap Operation.attestations ++
        secondInserted.steps.filterMap WriteStep.attestation?).map Attestation.bridge =
        List.replicate 4 .sample := by
      rw [ha]
      rfl
    rw [hbridges]
    exact Bridge.apart_replicate 4 .sample
  refine ⟨s, d, reached, underway, ?_, ?_⟩
  · obtain ⟨i, d', hi, hnew, -, hold⟩ := inserts_decide committedOnce reached secondInserted
      underway contestedClaim (Identity.attest_storable _ _) (hashes _ rfl)
    have hrows : d.database.rows .claim .lockingToIssuing =
        s.database.rows .claim .lockingToIssuing ++
          [Row.ofAttestation ((Identity.sample 0).attest secondClaim)] := by
      rw [hdb]
      exact Database.rows_append s.database ((Identity.sample 0).attest secondClaim)
    have hpeer : Row.ofAttestation ((Identity.sample 0).attest secondClaim) ∈
        d.database.peers contestedClaim := by
      refine Database.mem_peers.mpr ⟨?_, rfl⟩
      change _ ∈ d.database.rows .claim .lockingToIssuing
      rw [hrows]
      exact List.mem_append_right _ (List.mem_singleton_self _)
    cases i with
    | inserted => exact absurd rfl (hnew.mp rfl _ hpeer).1
    | «exists» x =>
      obtain ⟨hsame, r, hmeets, hread⟩ := hold x rfl
      rw [← (hmeets _).mp ⟨hpeer, .inl rfl⟩] at hread
      cases ((Identity.sample 0).read_attest secondClaim).symm.trans hread
      exact ⟨d', hi, hsame⟩
  · obtain ⟨i, d', hi, hnew, hadded, -⟩ := inserts_decide committedOnce reached secondInserted
      underway contestedCreation (Identity.attest_storable _ _) (hashes _ rfl)
    have hinserted : i = .inserted := by
      refine hnew.mpr fun r hr => ?_
      have hm := (Database.mem_peers.mp hr).1
      rw [hdb, Database.rows_append_other s.database _ (by decide)] at hm
      change r ∈ s.database.rows .createAccount .lockingToIssuing at hm
      rw [hcreations] at hm
      cases hm
    rw [hinserted] at hi
    exact ⟨d', hi, hadded hinserted⟩

end Holding

end Attestor

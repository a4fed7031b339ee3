import Attestor.Proofs.Commit

namespace Attestor

theorem Identity.attest_storable (i : Identity) (e : Event) : (i.attest e).Storable := by
  cases e with
  | claim t n d => exact nofun
  | createAccount t n reward d => exact fun _ => nofun

theorem Identity.attest_source (i : Identity) (e : Event) :
    (i.attest e).direction.source = e.source :=
  Direction.source_ofSource e.source

namespace Engine

/-- An engine with an event in hand that a write can commit. -/
structure Holds (en : Engine) (i : Identity) (s : Store) (e : Event) : Prop where
  phase : en.phase = .writing e (i.attest e) ∨ en.phase = .waiting e (i.attest e)
  source : e.source = en.role
  healthy : s.poisoned = false
  legible : s.database.Legible
  reaches : s.database.Reaches (i.attest e)

/-- The move that commits an event. -/
structure Commits (role : Role) (i : Identity) (db : Database) (e : Event) (m : Move) : Prop where
  outcome : ∃ x, m.outcome = some (.committed x)
  engine : m.engine = ⟨role, ⟨role, some e.transactionId, e.ledgerSequence⟩, .idle⟩
  database : m.resources.store.database = db.commit (i.attest e)
  healthy : m.resources.store.poisoned = false
  identity : m.resources.signer.identity = i

/-- A write that no fault hits commits the event, as new if no row is in its way. -/
theorem write_committed {en : Engine} {r : Resources} {e : Event}
    (h : en.Holds r.signer.identity r.store e) :
    ∃ i counts, (i = .inserted ↔ ¬r.store.database.Blocks (r.signer.identity.attest e)) ∧
      en.write r e (r.signer.identity.attest e) none = en.committed
        { r with store := ⟨r.store.database.commit (r.signer.identity.attest e), counts, false⟩ }
        e i := by
  obtain ⟨i, counts, hnew, hw⟩ := Store.write_commitBatch h.healthy h.legible
    (r.signer.identity.attest_storable e) h.reaches
  rw [Identity.attest_source, h.source] at hw
  refine ⟨i, counts, hnew, ?_⟩
  unfold write
  simp only [Store.writeUnder, hw]

theorem write_commits {en : Engine} {r : Resources} {e : Event}
    (h : en.Holds r.signer.identity r.store e) :
    Commits en.role r.signer.identity r.store.database e
        (en.write r e (r.signer.identity.attest e) none) ∧
      (en.write r e (r.signer.identity.attest e) none).resources.signal = r.signal := by
  obtain ⟨i, counts, -, hw⟩ := write_committed h
  rw [hw]
  exact ⟨⟨⟨i, rfl⟩, rfl, rfl, rfl, rfl⟩, rfl⟩

/-- A fault costs a write, and nothing else. -/
theorem write_faulted {en : Engine} {r : Resources} {e : Event}
    (h : en.Holds r.signer.identity r.store e) (f : Fault) :
    en.write r e (r.signer.identity.attest e) (some f) =
      ⟨none, { en with phase := .waiting e (r.signer.identity.attest e) },
        r.tally en.role fun t => { t with faults := t.faults + 1 }⟩ := by
  have hw : r.store.writeUnder (some f) (commitBatch en.role (r.signer.identity.attest e)) =
      (⟨[], some f.error⟩, r.store) := by
    simp [Store.writeUnder, h.healthy]
  have ht : f.error.isTransient = true := by
    cases f <;> rfl
  unfold write
  simp only [hw, Option.getD_some, ht, ↓reduceIte]

theorem Holds.wait {en : Engine} {i : Identity} {s : Store} {e : Event} (h : en.Holds i s e) :
    ({ en with phase := .waiting e (i.attest e) } : Engine).Holds i s e :=
  ⟨.inr rfl, h.source, h.healthy, h.legible, h.reaches⟩

/-- A turn with an event in hand gives it up, or writes. -/
theorem turn_cases {en : Engine} {e : Event} {a : Attestation}
    (hand : en.phase = .writing e a ∨ en.phase = .waiting e a) (r : Resources)
    (fault : Option Fault) :
    (r.signal.stops = true ∧
      en.turn r fault = ⟨some .abandoned, { en with phase := .idle }, r⟩) ∨
    en.turn r fault = en.write r e a fault := by
  unfold turn
  rcases hand with hp | hp
  · rw [hp]
    exact .inr rfl
  · rw [hp]
    dsimp only
    split
    · rename_i hs
      exact .inl ⟨hs, rfl⟩
    · exact .inr rfl

/-- While nothing stops the node, an engine with an event in hand goes on writing. -/
theorem turn_running {en : Engine} {r : Resources} {e : Event}
    (h : en.Holds r.signer.identity r.store e) (hs : r.signal.stops = false)
    (fault : Option Fault) :
    en.turn r fault = en.write r e (r.signer.identity.attest e) fault := by
  obtain ⟨hstop, -⟩ | ht := turn_cases h.phase r fault
  · rw [hs] at hstop
    cases hstop
  · exact ht

/-- The turns of an event commit it, or leave the store as it was when they began. -/
theorem finish_cases {en : Engine} {r : Resources} {e : Event}
    (h : en.Holds r.signer.identity r.store e) (chances : List Chance) :
    Commits en.role r.signer.identity r.store.database e (en.finish r chances) ∨
      ((en.finish r chances).outcome = none ∨ (en.finish r chances).outcome = some .abandoned) ∧
        (en.finish r chances).resources.store = r.store := by
  induction chances generalizing en r with
  | nil => exact .inr ⟨.inl rfl, rfl⟩
  | cons c rest ih =>
    obtain ⟨signal, hsignal⟩ : ∃ signal, signal = c.signal.getD r.signal := ⟨_, rfl⟩
    have h' : en.Holds ({ r with signal } : Resources).signer.identity
      ({ r with signal } : Resources).store e := h
    simp only [finish, ← hsignal]
    obtain ⟨-, ht⟩ | ht := turn_cases h'.phase { r with signal } c.fault
    · rw [ht]
      exact .inr ⟨.inr rfl, rfl⟩
    · rw [ht]
      cases c.fault with
      | none =>
        obtain ⟨hc, -⟩ := write_commits h'
        obtain ⟨x, hx⟩ := hc.outcome
        rw [hx]
        exact .inl hc
      | some f =>
        rw [write_faulted h' f]
        exact ih (r := Resources.tally { r with signal } en.role _) h.wait

/-- Faults before a write that gets through. -/
def Chance.afterFaults (faults : List Fault) : List Chance :=
  faults.map (⟨.none, some ·⟩) ++ [Chance.none]

/-- Faults that pass do not keep an event from being committed while nothing stops the node. -/
theorem finish_faults {en : Engine} {r : Resources} {e : Event}
    (h : en.Holds r.signer.identity r.store e) (hs : r.signal.stops = false)
    (faults : List Fault) :
    Commits en.role r.signer.identity r.store.database e
        (en.finish r (Chance.afterFaults faults)) ∧
      (en.finish r (Chance.afterFaults faults)).resources.signal = r.signal := by
  induction faults generalizing en r with
  | nil =>
    obtain ⟨hc, hsignal⟩ := write_commits h
    obtain ⟨x, hx⟩ := hc.outcome
    simp only [Chance.afterFaults, List.map_nil, List.nil_append, finish, Chance.none,
      Option.getD_none, turn_running h hs, hx]
    exact ⟨hc, hsignal⟩
  | cons f rest ih =>
    simp only [Chance.afterFaults, List.map_cons, List.cons_append, finish, Option.getD_none,
      turn_running h hs, write_faulted h f]
    exact ih (r := r.tally en.role _) h.wait hs

/-- An engine between events, at the stored checkpoint of a store that can be read. -/
structure Ready (en : Engine) (r : Resources) : Prop where
  idle : en.phase = .idle
  healthy : r.store.poisoned = false
  legible : r.store.database.Legible
  covered : r.store.database.Covered
  synced : en.checkpoint = r.store.database.position en.role

theorem resume_ready (role : Role) {r : Resources} (hh : r.store.poisoned = false)
    (hl : r.store.database.Legible) (hc : r.store.database.Covered) :
    resume role r.store = .ok ⟨role, r.store.database.position role, .idle⟩ ∧
      Ready ⟨role, r.store.database.position role, .idle⟩ r := by
  refine ⟨?_, rfl, hh, hl, hc, rfl⟩
  simp only [resume, Store.checkpoint, Store.read, hh, Bool.false_eq_true, ↓reduceIte]
  obtain ⟨-, hr, hp⟩ | ⟨transactionId, n, -, hr, hp⟩ := hl.position role
  · rw [hr, hp]
    rfl
  · rw [hr, hp]
    rfl

theorem Ready.tally {en : Engine} {r : Resources} (h : en.Ready r) (tallies : ByRole Tally) :
    en.Ready { r with tallies } :=
  ⟨h.idle, h.healthy, h.legible, h.covered, h.synced⟩

theorem not_seen_start (role : Role) (e : Event) : alreadySeen ⟨role, none, 0⟩ e = false := by
  simp [alreadySeen]

theorem not_seen_reaches {c : Checkpoint} {e : Event} (h : alreadySeen c e = false) :
    c.ledgerSequence ≤ e.ledgerSequence := by
  simp only [alreadySeen, Bool.or_eq_false_iff, decide_eq_false_iff_not] at h
  exact UInt32.not_lt.mp h.1

/-- At or after the checkpoint's ledger, only the transaction that the checkpoint is at is
discarded. -/
theorem seen_at_checkpoint {c : Checkpoint} {e : Event} (hl : c.ledgerSequence ≤ e.ledgerSequence)
    (h : alreadySeen c e = true) : c.transactionId = some e.transactionId := by
  simp only [alreadySeen, Bool.or_eq_true, decide_eq_true_eq, Bool.and_eq_true, beq_iff_eq] at h
  rcases h with hlt | ⟨-, ht⟩
  · exact absurd hlt (UInt32.not_lt.mpr hl)
  · exact ht

/-- A new event is taken in hand. -/
theorem take_holds {en : Engine} {r : Resources} (h : en.Ready r) {e : Event}
    (hrole : e.source = en.role) (hnew : alreadySeen en.checkpoint e = false) :
    ∃ en' r', en.take r e = ⟨none, en', r'⟩ ∧ en'.role = en.role ∧ r'.store = r.store ∧
      r'.signer.identity = r.signer.identity ∧ r'.signal = r.signal ∧
      en'.Holds r.signer.identity r.store e := by
  refine ⟨{ en with phase := .writing e (r.signer.identity.attest e) },
    { r with signer := r.signer.count }, ?_, rfl, rfl, rfl, rfl, .inl rfl, hrole, h.healthy,
    h.legible, ?_⟩
  · rw [take, if_neg (not_not.mpr hrole), hnew]
    rfl
  · apply h.legible.reaches
    rw [Identity.attest_source, hrole, ← h.synced]
    exact not_seen_reaches hnew

theorem process_seen {en : Engine} (r : Resources) {e : Event} (hrole : e.source = en.role)
    (hseen : alreadySeen en.checkpoint e = true) (chances : List Chance) :
    ∃ tallies, en.process r e chances = ⟨some .discarded, en, { r with tallies }⟩ := by
  have ht : ∃ tallies, en.take r e = ⟨some .discarded, en, { r with tallies }⟩ := by
    rw [take, if_neg (not_not.mpr hrole), if_pos hseen]
    exact ⟨_, rfl⟩
  obtain ⟨tallies, ht⟩ := ht
  exact ⟨tallies, by rw [process, ht]⟩

/-- An event that is not behind the checkpoint is committed, or the store stays as it was. -/
theorem process_new {en : Engine} {r : Resources} (h : en.Ready r) {e : Event}
    (hrole : e.source = en.role) (hnew : alreadySeen en.checkpoint e = false)
    (chances : List Chance) :
    Commits en.role r.signer.identity r.store.database e (en.process r e chances) ∨
      ((en.process r e chances).outcome = none ∨
        (en.process r e chances).outcome = some .abandoned) ∧
        (en.process r e chances).resources.store = r.store := by
  obtain ⟨en', r', ht, hr, hs, hi, -, hh⟩ := take_holds h hrole hnew
  have hh' : en'.Holds r'.signer.identity r'.store e := by
    rw [hi, hs]
    exact hh
  have hf := finish_cases hh' chances
  rw [hr, hi, hs] at hf
  rw [process, ht]
  exact hf

theorem process_faults {en : Engine} {r : Resources} (h : en.Ready r) {e : Event}
    (hrole : e.source = en.role) (hnew : alreadySeen en.checkpoint e = false)
    (hs : r.signal.stops = false) (faults : List Fault) :
    Commits en.role r.signer.identity r.store.database e
        (en.process r e (Chance.afterFaults faults)) ∧
      (en.process r e (Chance.afterFaults faults)).resources.signal = r.signal := by
  obtain ⟨en', r', ht, hr, hst, hi, hsig, hh⟩ := take_holds h hrole hnew
  have hh' : en'.Holds r'.signer.identity r'.store e := by
    rw [hi, hst]
    exact hh
  have hf := finish_faults hh' (by rw [hsig]; exact hs) faults
  rw [hr, hi, hst, hsig] at hf
  rw [process, ht]
  exact hf

/-- An engine that has committed an event is at the stored checkpoint again. -/
theorem Commits.ready {en : Engine} {r : Resources} (h : en.Ready r) {e : Event}
    (hrole : e.source = en.role) (hnew : alreadySeen en.checkpoint e = false) {m : Move}
    (hm : Commits en.role r.signer.identity r.store.database e m) : m.engine.Ready m.resources := by
  have hstorable := r.signer.identity.attest_storable e
  have hsource : (r.signer.identity.attest e).direction.source = en.role := by
    rw [Identity.attest_source, hrole]
  have hreaches : r.store.database.Reaches (r.signer.identity.attest e) := by
    apply h.legible.reaches
    rw [hsource, ← h.synced]
    exact not_seen_reaches hnew
  refine ⟨?_, hm.healthy, ?_, ?_, ?_⟩
  · rw [hm.engine]
  · rw [hm.database]
    exact h.legible.commit hstorable
  · rw [hm.database]
    exact h.covered.commit h.legible.tabled hreaches
  · have hp := Database.position_commit h.legible hstorable
    rw [hsource] at hp
    rw [hm.engine, hm.database]
    exact hp.symm

end Engine

/-- A bridge for native assets. -/
def Bridge.sample : Bridge where
  lockingDoor := ⟨"rLockingDoor", by decide, by decide, by decide⟩
  lockingIssue := .native
  issuingDoor := ⟨"rIssuingDoor", by decide, by decide, by decide⟩
  issuingIssue := .native

/-- A transfer of so many drops to the issuing chain of that bridge. -/
def Transfer.sample (transactionId : String) (ledger : UInt32) (drops : UInt64) : Transfer where
  source := .locking
  transactionId := transactionId
  ledgerSequence := ledger
  deliveredAmount := .native drops
  bridge := .sample
  sendingAccount := Bridge.sample.lockingDoor
  rewardAccount := Bridge.sample.issuingDoor
  success := true

/-- An identity that signs with a key of zeros, or of other equal bytes. -/
def Identity.sample (byte : UInt8) : Identity where
  secret := List.replicate keyLength byte
  publicKey := Ed25519.publicKey (List.replicate keyLength byte)
  keyId := Identity.keyIdOf (Ed25519.publicKey (List.replicate keyLength byte))
  signingAccount := Bridge.sample.issuingDoor

end Attestor

import Attestor.Proofs.WriteOnce

namespace Attestor

/-- The step has advanced the chain's checkpoint. -/
def Deed.Advances (role : Role) (d : Deed) : Prop :=
  ∃ transactionId ledger, d = ⟨.advance role transactionId ledger, .advanced⟩

/-- A batch that was committed has advanced the chain's checkpoint. -/
def Batch.Advances (role : Role) (b : Batch) (report : Report) : Prop :=
  report.failure = none ∧ ∃ d ∈ b.deeds report.answers, d.Advances role

namespace Database

/-- The chain's checkpoint is what it was, or has been created at ledger zero. -/
def Unmoved (role : Role) (db db' : Database) : Prop :=
  db'.checkpointRow? role = db.checkpointRow? role ∨
    db.checkpointRow? role = none ∧ db'.checkpointRow? role = some ⟨none, 0⟩

variable {role : Role} {db db' db'' : Database}

theorem Unmoved.refl (role : Role) (db : Database) : db.Unmoved role db :=
  .inl rfl

theorem Unmoved.trans (h : Unmoved role db db') (h' : Unmoved role db' db'') :
    Unmoved role db db'' := by
  rcases h with h | ⟨hn, hz⟩
  · rcases h' with h' | ⟨hn', hz'⟩
    · exact .inl (h'.trans h)
    · exact .inr ⟨h.symm.trans hn', hz'⟩
  · rcases h' with h' | ⟨hn', -⟩
    · exact .inr ⟨hn, h'.trans hz⟩
    · cases hz.symm.trans hn'

/-- A checkpoint that is missing reads as one at ledger zero. -/
theorem Unmoved.position (h : Unmoved role db db') (legible : db.Legible)
    (legible' : db'.Legible) : db'.position role = db.position role := by
  obtain ⟨hn, -, hp⟩ | ⟨transactionId, n, hr, -, hp⟩ := legible.position role
  · obtain ⟨-, -, hp'⟩ | ⟨transactionId', n', hr', -, hp'⟩ := legible'.position role
    · rw [hp, hp']
    · rcases h with h | ⟨-, hz⟩
      · cases hr'.symm.trans (h.trans hn)
      · rw [hr', Option.some.injEq, CheckpointRow.mk.injEq] at hz
        obtain ⟨rfl, hl⟩ := hz
        rw [hp, hp', show n' = 0 from Row.ledger_inj hl]
  · rcases h with h | ⟨hn, -⟩
    · obtain ⟨hn', -⟩ | ⟨transactionId', n', hr', -, hp'⟩ := legible'.position role
      · cases hn'.symm.trans (h.trans hr)
      · rw [h, hr, Option.some.injEq, CheckpointRow.mk.injEq] at hr'
        obtain ⟨rfl, hl⟩ := hr'
        rw [hp, hp', Row.ledger_inj hl]
    · cases hr.symm.trans hn

theorem unmoved_setCheckpoint_other {moved : Role} (h : role ≠ moved) (db : Database)
    (row : CheckpointRow) : db.Unmoved role (db.setCheckpoint moved row) :=
  .inl (checkpointRow_setCheckpoint_other db h row)

theorem unmoved_ensure (role created : Role) (db : Database) :
    db.Unmoved role (db.ensure created) := by
  unfold ensure
  split
  · exact .refl role db
  · rename_i hn
    by_cases hr : role = created
    · subst hr
      by_cases ht : db.checkpoints = none
      · left
        simp [checkpointRow?, setCheckpoint, ht]
      · exact .inr ⟨hn, checkpointRow_setCheckpoint ht role ⟨none, 0⟩⟩
    · exact unmoved_setCheckpoint_other hr db _

end Database

namespace Deed

variable {role : Role}

theorem effect_unmoved {d : Deed} (h : ¬d.Advances role) (db : Database) :
    db.Unmoved role (d.effect db) := by
  unfold effect
  split
  · rename_i moved transactionId ledger
    apply Database.unmoved_setCheckpoint_other
    rintro rfl
    exact h ⟨transactionId, ledger, rfl⟩
  · exact Database.unmoved_ensure ..
  · split
    · exact .inl (Database.checkpointRow_append ..)
    · exact .refl role db

theorem effects_unmoved {deeds : List Deed} (h : ∀ d ∈ deeds, ¬d.Advances role) (db : Database) :
    db.Unmoved role (deeds.foldl effect db) := by
  induction deeds generalizing db with
  | nil => exact .refl role db
  | cons d deeds ih =>
    obtain ⟨hd, hdeeds⟩ := List.forall_mem_cons.mp h
    exact (effect_unmoved hd db).trans (ih hdeeds (d.effect db))

end Deed

namespace Store

variable {s : Store} {role : Role}

theorem write_unmoved {b : Batch} (h : ¬b.Advances role (s.write b).1) :
    s.database.Unmoved role (s.write b).2.database := by
  obtain ⟨-, ht, -⟩ | ⟨answers, d, -, hr, -, hw⟩ := s.write_cases b
  · rw [ht]
    exact .refl role s.database
  · rw [hw] at h ⊢
    change s.database.Unmoved role d.database
    rw [(Draft.run_after hr).2.database]
    apply Deed.effects_unmoved
    intro deed hd hadvances
    exact h ⟨rfl, deed, hd, hadvances⟩

theorem writeUnder_unmoved {fault : Option Fault} {b : Batch}
    (h : ¬b.Advances role (s.writeUnder fault b).1) :
    s.database.Unmoved role (s.writeUnder fault b).2.database := by
  cases fault with
  | none => exact write_unmoved h
  | some f =>
    rw [(s.writeUnder_fault_fails f b).2]
    exact .refl role s.database

theorem ensureCheckpoint_unmoved (s : Store) (role created : Role) :
    s.database.Unmoved role (s.ensureCheckpoint created).2.database := by
  rw [ensureCheckpoint_store]
  apply write_unmoved
  rintro ⟨-, d, hd, transactionId, ledger, rfl⟩
  have hstep := List.mem_singleton.mp (Batch.step_mem hd)
  cases hstep

end Store

namespace Engine

/-- The engine goes by the stored checkpoint, and the event in hand is not behind it. -/
structure InStep (en : Engine) (r : Resources) : Prop where
  legible : r.store.database.Legible
  synced : en.checkpoint = r.store.database.position en.role
  inHand : ∀ e a, en.phase = .writing e a ∨ en.phase = .waiting e a →
    a = r.signer.identity.attest e ∧ e.source = en.role ∧ alreadySeen en.checkpoint e = false

variable {en : Engine} {r : Resources} {e : Event}

theorem InStep.holds (h : en.InStep r) (healthy : r.store.poisoned = false) {a : Attestation}
    (hand : en.phase = .writing e a ∨ en.phase = .waiting e a) :
    en.Holds r.signer.identity r.store e := by
  obtain ⟨rfl, hsource, hnew⟩ := h.inHand e a hand
  refine ⟨hand, hsource, healthy, h.legible, h.legible.reaches ?_⟩
  rw [Identity.attest_source, hsource, ← h.synced]
  exact not_seen_reaches hnew

/-- A checkpoint that is missing counts as one at ledger zero without a transaction. -/
theorem InStep.stored (h : en.InStep r) : ∃ found,
    r.store.database.checkpoint en.role = .ok found ∧
      en.checkpoint = found.getD ⟨en.role, none, 0⟩ := by
  obtain ⟨-, hs, hp⟩ | ⟨transactionId, n, -, hs, hp⟩ := h.legible.position en.role
  · exact ⟨none, hs, h.synced.trans hp⟩
  · exact ⟨_, hs, h.synced.trans hp⟩

/-- What others do to the store is no matter, as long as the checkpoint stays. -/
theorem InStep.other (h : en.InStep r) {r' : Resources}
    (legible : r'.store.database.Legible)
    (unmoved : r.store.database.Unmoved en.role r'.store.database)
    (signer : r'.signer.identity = r.signer.identity) : en.InStep r' := by
  refine ⟨legible, ?_, ?_⟩
  · rw [unmoved.position h.legible legible]
    exact h.synced
  · rw [signer]
    exact h.inHand

theorem InStep.idle (h : en.InStep r) : ({ en with phase := .idle } : Engine).InStep r := by
  refine ⟨h.legible, h.synced, ?_⟩
  rintro e a (hp | hp) <;> cases hp

/-- A write commits the event in hand, is hit by a fault that passes, or finds the store
poisoned. -/
theorem InStep.write_cases (h : en.InStep r) {a : Attestation}
    (hand : en.phase = .writing e a ∨ en.phase = .waiting e a) (fault : Option Fault) :
    (∃ i counts, (i = .inserted ↔ ¬r.store.database.Blocks (r.signer.identity.attest e)) ∧
      en.write r e a fault = en.committed
        { r with store := ⟨r.store.database.commit (r.signer.identity.attest e), counts, false⟩ }
        e i) ∨
    en.write r e a fault = ⟨none, { en with phase := .waiting e a },
      r.tally en.role fun t => { t with faults := t.faults + 1 }⟩ ∨
    en.write r e a fault = ⟨some (.failed .poisoned), { en with phase := .idle },
      r.tally en.role fun t => { t with faults := t.faults + 1 }⟩ := by
  cases hp : r.store.poisoned with
  | true =>
    have hw : r.store.writeUnder fault (commitBatch en.role a) =
        (⟨[], some .poisoned⟩, r.store) := by
      cases fault <;> simp [Store.writeUnder, Store.write, hp]
    unfold write
    simp only [hw]
    exact .inr (.inr rfl)
  | false =>
    have hholds := h.holds hp hand
    obtain ⟨rfl, -⟩ := h.inHand e a hand
    cases fault with
    | none => exact .inl (write_committed hholds)
    | some f => exact .inr (.inl (write_faulted hholds f))

/-- The engine has the event in hand. -/
def Has (en : Engine) (e : Event) : Prop :=
  ∃ a, en.phase = .writing e a ∨ en.phase = .waiting e a

/-- A move with an event stays in step. The checkpoint is the event's if that is committed and stays
otherwise; the event remains in hand or ends, and fails in a poisoned store only. -/
structure Keeps (en : Engine) (e : Event) (m : Move) : Prop where
  role : m.engine.role = en.role
  inStep : m.engine.InStep m.resources
  checkpoint : (∃ i, m.outcome = some (.committed i)) ∧
      en.checkpoint.ledgerSequence ≤ e.ledgerSequence ∧
      m.engine.checkpoint = ⟨en.role, some e.transactionId, e.ledgerSequence⟩ ∨
    (∀ i, m.outcome ≠ some (.committed i)) ∧ m.engine.checkpoint = en.checkpoint
  hand : m.outcome = none → m.engine.Has e
  failure : ∀ error, m.outcome = some (.failed error) → error = .poisoned

/-- A move that has not ended the event is followed by another. -/
theorem Keeps.trans {m m' : Move} (h : en.Keeps e m) (hnone : m.outcome = none)
    (h' : m.engine.Keeps e m') : en.Keeps e m' := by
  have hc : m.engine.checkpoint = en.checkpoint := by
    obtain ⟨⟨i, hi⟩, -⟩ | ⟨-, hc⟩ := h.checkpoint
    · cases hnone.symm.trans hi
    · exact hc
  refine ⟨h'.role.trans h.role, h'.inStep, ?_, h'.hand, h'.failure⟩
  rw [← hc, ← h.role]
  exact h'.checkpoint

theorem InStep.take_keeps (h : en.InStep r) (e : Event) : en.Keeps e (en.take r e) := by
  unfold take
  split
  · exact ⟨rfl, ⟨h.legible, h.synced, h.inHand⟩, .inr ⟨fun _ h => (nomatch h), rfl⟩, nofun,
      fun _ h => nomatch h⟩
  · rename_i hsource
    split
    · exact ⟨rfl, ⟨h.legible, h.synced, h.inHand⟩, .inr ⟨fun _ h => (nomatch h), rfl⟩, nofun,
      fun _ h => nomatch h⟩
    · rename_i hnew
      refine ⟨rfl, ⟨h.legible, h.synced, ?_⟩, .inr ⟨fun _ h => (nomatch h), rfl⟩,
        fun _ => ⟨_, .inl rfl⟩, fun _ h => nomatch h⟩
      rintro e' a (hp | hp)
      · cases hp
        exact ⟨rfl, not_not.mp hsource, Bool.eq_false_iff.mpr hnew⟩
      · cases hp

/-- Committing the event leaves the engine at the checkpoint that was written with it. -/
theorem InStep.committed_keeps (h : en.InStep r) (hand : en.Has e) (counts : StoreCounts)
    (i : Insertion) : en.Keeps e (en.committed
      { r with store := ⟨r.store.database.commit (r.signer.identity.attest e), counts, false⟩ }
      e i) := by
  obtain ⟨a, hand⟩ := hand
  obtain ⟨-, hsource, hnew⟩ := h.inHand e a hand
  have hstorable := r.signer.identity.attest_storable e
  have hposition := Database.position_commit h.legible hstorable
  rw [Identity.attest_source, hsource] at hposition
  refine ⟨rfl, ⟨h.legible.commit hstorable, hposition.symm, ?_⟩,
    .inl ⟨⟨i, rfl⟩, not_seen_reaches hnew, rfl⟩, nofun, fun _ h => nomatch h⟩
  rintro e' a' (hp | hp) <;> cases hp

theorem InStep.write_keeps (h : en.InStep r) {a : Attestation}
    (hand : en.phase = .writing e a ∨ en.phase = .waiting e a) (fault : Option Fault) :
    en.Keeps e (en.write r e a fault) := by
  obtain ⟨i, counts, -, hw⟩ | hw | hw := h.write_cases hand fault
  · rw [hw]
    exact h.committed_keeps ⟨a, hand⟩ counts i
  · rw [hw]
    refine ⟨rfl, ⟨h.legible, h.synced, ?_⟩, .inr ⟨fun _ h => (nomatch h), rfl⟩,
      fun _ => ⟨a, .inr rfl⟩, fun _ h => nomatch h⟩
    rintro e' a' (hp | hp) <;> cases hp
    exact h.inHand e a hand
  · rw [hw]
    have hidle := h.idle
    exact ⟨rfl, ⟨hidle.legible, hidle.synced, hidle.inHand⟩, .inr ⟨fun _ h => (nomatch h), rfl⟩,
      nofun, fun error he => by cases he; rfl⟩

theorem InStep.turn_keeps (h : en.InStep r) (hand : en.Has e) (fault : Option Fault) :
    en.Keeps e (en.turn r fault) := by
  obtain ⟨a, hand⟩ := hand
  have hwrite := h.write_keeps hand fault
  unfold turn
  rcases hand with hp | hp
  · rw [hp]
    exact hwrite
  · rw [hp]
    dsimp only
    split
    · exact ⟨rfl, h.idle, .inr ⟨fun _ h => (nomatch h), rfl⟩, nofun,
      fun _ h => nomatch h⟩
    · exact hwrite

/-- By induction on what happens around the turns: while one leaves the event in hand, another
follows. -/
theorem InStep.finish_keeps (h : en.InStep r) (hand : en.Has e) (chances : List Chance) :
    en.Keeps e (en.finish r chances) := by
  induction chances generalizing en r with
  | nil => exact ⟨rfl, h, .inr ⟨fun _ h => (nomatch h), rfl⟩, fun _ => hand, fun _ h => nomatch h⟩
  | cons c rest ih =>
    have h' : en.InStep { r with signal := c.signal.getD r.signal } :=
      ⟨h.legible, h.synced, h.inHand⟩
    have hturn := h'.turn_keeps hand c.fault
    unfold finish
    dsimp only
    split
    · exact hturn
    · rename_i hnone
      exact hturn.trans hnone (ih hturn.inStep (hturn.hand hnone))

theorem InStep.process_keeps (h : en.InStep r) (e : Event) (chances : List Chance) :
    en.Keeps e (en.process r e chances) := by
  have htake := h.take_keeps e
  unfold process
  dsimp only
  split
  · exact htake
  · rename_i hnone
    exact htake.trans hnone (htake.inStep.finish_keeps (htake.hand hnone) chances)

theorem resume_inStep {role : Role} (legible : r.store.database.Legible)
    (h : resume role r.store = .ok en) :
    en.role = role ∧ en.phase = .idle ∧ en.InStep r := by
  obtain ⟨found, hfound, h⟩ := Except.bind_ok h
  cases h
  refine ⟨rfl, rfl, legible, ?_, ?_⟩
  · have hread : r.store.database.checkpoint role = .ok found := by
      rw [Store.checkpoint, Store.read] at hfound
      split at hfound
      · cases hfound
      · exact hfound
    unfold Database.position
    rw [hread]
    cases found <;> rfl
  · rintro e a (hp | hp) <;> cases hp

end Engine

end Attestor

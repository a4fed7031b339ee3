import Attestor.Proofs.WriteOnce

namespace Attestor

namespace Database

/-- The rows that were there stay covered when checkpoints move. -/
theorem Covered.of_rows {db db' : Database} (h : db.Covered) (hc : db.Changes db')
    {kind : TransferKind} {direction : Direction} {r : Row} (hr : r ∈ db.rows kind direction) :
    ∃ row, db'.checkpointRow? direction.source = some row ∧
      r.ledgerSequence ≤ row.ledgerSequence := by
  obtain ⟨row, hrow, hle⟩ := h kind direction r hr
  obtain ⟨row', hrow', hle'⟩ := hc.checkpoint_le hrow
  exact ⟨row', hrow', Int64.le_trans hle hle'⟩

theorem Legible.covers_row {db : Database} (h : db.Legible) {role : Role} {ledger : UInt32}
    (hc : db.Covers role ledger) : ∃ row, db.checkpointRow? role = some row ∧
      ledger.toUInt64.toInt64 ≤ row.ledgerSequence := by
  obtain ⟨c, hc, hl⟩ := hc
  obtain ⟨-, hn, -⟩ | ⟨transactionId, n, hrow, hs, -⟩ := h.position role
  · cases hc.symm.trans hn
  · cases hc.symm.trans hs
    exact ⟨_, hrow, Row.ledger_le_iff.mpr hl⟩

theorem covered_prepare {db : Database} : db.prepare.Covered ↔ db.Covered := by
  simp only [Covered, rows_prepare, checkpointRow_prepare]

theorem not_covered_iff {db : Database} : ¬db.Covered ↔ ∃ kind direction,
    ∃ r ∈ db.rows kind direction, ∀ row, db.checkpointRow? direction.source = some row →
      row.ledgerSequence < r.ledgerSequence := by
  simp only [Covered, not_forall, not_exists, not_and, Int64.not_le, exists_prop]

theorem Measured.prepare {db : Database} (h : db.Measured) : db.prepare.Measured := by
  refine ⟨?_, ?_⟩
  · intro kind direction
    rw [rows_prepare]
    exact h.rows kind direction
  · intro role
    rw [checkpointRow_prepare]
    exact h.checkpoints role

end Database

/-- A batch that is committed leaves no row beyond its checkpoint: the rows it found were covered,
and those it inserted were checked. -/
theorem Store.write_covered (s : Store) (b : Batch) (legible : s.database.Legible)
    (h : s.database.Covered) : (s.write b).2.database.Covered := by
  have hchanges := s.write_changes b
  obtain ⟨-, ht, -⟩ | ⟨answers, d, -, hr, hc, hw⟩ := s.write_cases b
  · rw [ht]
    exact h
  · rw [hw] at hchanges ⊢
    have hafter := (Draft.run_after hr).2
    intro kind direction r hmem
    change r ∈ d.database.rows kind direction at hmem
    rw [hafter.database] at hmem
    rcases Deed.mem_rows_effects hmem with hold | ⟨a, ha, rfl, rfl, rfl⟩
    · exact h.of_rows hchanges hold
    · exact (legible.changes hchanges).covers_row (hafter.check_ok_iff.mp hc a ha)

namespace Holding

theorem step_covered (h : Holding) (o : Operation) (legible : h.database.Legible)
    (covered : h.database.Covered) : (h.step o).database.Covered := by
  obtain hs | hs | ⟨s, b, rfl, hs⟩ := h.step_cases o
  · rwa [hs]
  · rwa [hs, legible.prepare]
  · rw [hs]
    exact s.write_covered b legible covered

theorem run_covered (h : Holding) (operations : List Operation) (legible : h.database.Legible)
    (covered : h.database.Covered) : (h.run operations).database.Covered := by
  induction operations generalizing h with
  | nil => exact covered
  | cons o operations ih =>
    exact ih (h.step o) (legible.changes (h.step_changes o)) (h.step_covered o legible covered)

/-- Whatever is done with a database that begins empty, each of its rows has a checkpoint at or
after it on its source chain, and the database opens. Whoever wrote a database whose ledgers are
numbers of 32 bits, opening it finds it corrupted exactly if some row has no such checkpoint, and it
opens otherwise. -/
theorem opens_exactly_covered :
    (∀ operations, (fresh.run operations).database.Covered ∧
      Store.openChecked (fresh.run operations).database.prepare =
        .ok ⟨(fresh.run operations).database, .zero, false⟩) ∧
    ∀ db : Database, db.Measured →
      ((∃ c, db.prepare.check = .error (.corrupted c)) ↔
        ∃ kind direction, ∃ r ∈ db.rows kind direction, ∀ row,
          db.checkpointRow? direction.source = some row →
            row.ledgerSequence < r.ledgerSequence) ∧
      ((∃ s, Store.openChecked db.prepare = .ok s) ↔ db.Covered) := by
  refine ⟨?_, ?_⟩
  · intro operations
    have hlegible := run_legible operations
    have hcovered := fresh.run_covered operations Database.blank_empty.legible
      Database.blank_empty.covered
    rw [hlegible.prepare]
    exact ⟨hcovered, hlegible.openChecked hcovered⟩
  · intro db hm
    rw [← Database.not_covered_iff, ← Database.covered_prepare]
    obtain ⟨hcheck, hc⟩ | ⟨direction, highest, checkpoint, hcheck, hn⟩ :=
      hm.prepare.check_cases nofun
    · refine ⟨⟨?_, fun hn => absurd hc hn⟩, ⟨fun _ => hc, fun _ => ⟨⟨db.prepare, .zero, false⟩, ?_⟩⟩⟩
      · rintro ⟨c, he⟩
        cases hcheck.symm.trans he
      · rw [Store.openChecked, hcheck]
        rfl
    · refine ⟨⟨fun _ => hn, fun _ => ⟨_, hcheck⟩⟩, ⟨?_, fun hc => absurd hc hn⟩⟩
      rintro ⟨s, hs⟩
      rw [Store.openChecked, hcheck] at hs
      cases hs

/-- A claim's row on ledger 9 that somebody has put into the file. -/
def foreignRow : Row where
  bridgeKey := []
  transactionId := "A"
  ledgerSequence := 9
  number := 1
  success := 1
  deliveredAmount := ""
  rewardAmount := none
  bridge := ""
  sendingAccount := ""
  rewardAccount := ""
  destination := none
  signingAccount := ""
  publicKey := []
  signature := []

/-- The chain of the row has been processed up to ledger 5 only. -/
def tampered : Database :=
  (Database.empty.withRows .claim .issuingToLocking [foreignRow]).setCheckpoint .issuing ⟨none, 5⟩

theorem opens_exactly_covered_tampered :
    (fresh.run committedOnce).database.Covered ∧ tampered.Measured ∧
      ∃ c, tampered.prepare.check = .error (.corrupted c) := by
  have hrows : ∀ kind direction, ∀ r ∈ tampered.rows kind direction, r = foreignRow := by
    intro kind direction r hr
    cases kind <;> cases direction <;>
      first | exact List.mem_singleton.mp hr | exact absurd hr List.not_mem_nil
  have hm : tampered.Measured := by
    refine ⟨?_, ?_⟩
    · intro kind direction r hr
      rw [hrows kind direction r hr]
      decide
    · intro role row hrow
      cases role <;> cases hrow
      decide
  refine ⟨(opens_exactly_covered.1 committedOnce).1, hm, ?_⟩
  refine ((opens_exactly_covered.2 tampered hm).1).mpr ?_
  refine ⟨.claim, .issuingToLocking, foreignRow, List.mem_singleton_self _, ?_⟩
  rintro row ⟨⟩
  decide

end Holding

end Attestor

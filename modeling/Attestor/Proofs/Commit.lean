import Attestor.Proofs.Legible
import Attestor.Witness.Engine

namespace Attestor

namespace Database

/-- The tables with the row of an attestation, unless a row is in its way. -/
def record (db : Database) (a : Attestation) : Database :=
  match Draft.blocking? (db.rows a.key.kind a.direction) (Row.ofAttestation a) with
  | none => db.append a
  | some _ => db

/-- What committing an attestation makes of the tables. -/
def commit (db : Database) (a : Attestation) : Database :=
  (db.record a).setCheckpoint a.direction.source
    ⟨some a.transactionId, a.ledgerSequence.toUInt64.toInt64⟩

/-- The attestation's ledger is at or after the checkpoint of its source chain. -/
def Reaches (db : Database) (a : Attestation) : Prop :=
  ∀ row, db.checkpointRow? a.direction.source = some row →
    row.ledgerSequence ≤ a.ledgerSequence.toUInt64.toInt64

@[simp] theorem checkpoints_record (db : Database) (a : Attestation) :
    (db.record a).checkpoints = db.checkpoints := by
  unfold record
  split
  · exact checkpoints_withRows ..
  · rfl

theorem checkpointRow_record (db : Database) (a : Attestation) (role : Role) :
    (db.record a).checkpointRow? role = db.checkpointRow? role := by
  rw [checkpointRow?, checkpoints_record]
  rfl

theorem Legible.record {db : Database} (h : db.Legible) {a : Attestation} (ha : a.Storable) :
    (db.record a).Legible := by
  unfold Database.record
  split
  · exact h.append ha
  · exact h

theorem Legible.commit {db : Database} (h : db.Legible) {a : Attestation} (ha : a.Storable) :
    (db.commit a).Legible :=
  (h.record ha).setCheckpoint ..

@[simp] theorem rows_commit (db : Database) (a : Attestation) (kind : TransferKind)
    (direction : Direction) :
    (db.commit a).rows kind direction = (db.record a).rows kind direction :=
  rows_setCheckpoint ..

theorem rows_record_prefix (db : Database) (a : Attestation) (kind : TransferKind)
    (direction : Direction) : db.rows kind direction <+: (db.record a).rows kind direction := by
  unfold record
  split
  · exact rows_append_prefix db a kind direction
  · exact List.prefix_refl _

theorem mem_rows_record {db : Database} {a : Attestation} {kind : TransferKind}
    {direction : Direction} {r : Row} (h : r ∈ (db.record a).rows kind direction) :
    r ∈ db.rows kind direction ∨
      kind = a.key.kind ∧ direction = a.direction ∧ r = Row.ofAttestation a := by
  unfold record at h
  split at h
  · exact mem_rows_append h
  · exact .inl h

/-- A row is in the way of the attestation's. -/
def Blocks (db : Database) (a : Attestation) : Prop :=
  ∃ r ∈ db.rows a.key.kind a.direction, r.conflicts (Row.ofAttestation a) = true

theorem blocks_iff {db : Database} {a : Attestation} : db.Blocks a ↔
    Draft.blocking? (db.rows a.key.kind a.direction) (Row.ofAttestation a) ≠ none := by
  rw [Ne, Draft.blocking_none_iff]
  simp [Blocks]

theorem record_of_blocks {db : Database} {a : Attestation} (h : db.Blocks a) :
    db.record a = db := by
  obtain ⟨r, hr⟩ := Option.ne_none_iff_exists'.mp (blocks_iff.mp h)
  rw [record, hr]

theorem record_of_free {db : Database} {a : Attestation} (h : ¬db.Blocks a) :
    db.record a = db.append a := by
  rw [blocks_iff, not_not] at h
  rw [record, h]

theorem Blocks.mono {db db' : Database} {a : Attestation} (h : db.Blocks a)
    (rows : ∀ kind direction, db.rows kind direction <+: db'.rows kind direction) :
    db'.Blocks a := by
  obtain ⟨r, hm, hc⟩ := h
  exact ⟨r, (rows _ _).subset hm, hc⟩

/-- Once recorded, an attestation is never recorded again, as rows stay. -/
theorem blocks_of_recorded (db : Database) {db' : Database} {a : Attestation}
    (h : ∀ kind direction, (db.record a).rows kind direction <+: db'.rows kind direction) :
    db'.Blocks a := by
  have hr : (db.record a).Blocks a := by
    by_cases hb : db.Blocks a
    · rw [record_of_blocks hb]
      exact hb
    · refine ⟨Row.ofAttestation a, ?_, ?_⟩
      · rw [record_of_free hb, rows_append]
        simp
      · exact Row.conflicts_iff.mpr ⟨rfl, .inl rfl⟩
  exact hr.mono h

theorem setCheckpoint_setCheckpoint (db : Database) (role : Role) (row row' : CheckpointRow) :
    (db.setCheckpoint role row).setCheckpoint role row' = db.setCheckpoint role row' := by
  obtain ⟨claims, creates, checkpoints⟩ := db
  cases checkpoints with
  | none => rfl
  | some table => cases role <;> rfl

theorem setCheckpoint_self {db : Database} {role : Role} {row : CheckpointRow}
    (h : db.checkpointRow? role = some row) : db.setCheckpoint role row = db := by
  obtain ⟨claims, creates, checkpoints⟩ := db
  cases checkpoints with
  | none => rfl
  | some table =>
    obtain ⟨locking, issuing⟩ := table
    cases role with
    | locking =>
      have hl : locking = some row := h
      subst hl
      rfl
    | issuing =>
      have hi : issuing = some row := h
      subst hi
      rfl

theorem record_setCheckpoint (db : Database) (role : Role) (row : CheckpointRow)
    (a : Attestation) :
    (db.setCheckpoint role row).record a = (db.record a).setCheckpoint role row := by
  unfold record
  rw [rows_setCheckpoint]
  split
  · rw [append, append, rows_setCheckpoint]
    cases a.key.kind <;> rfl
  · rfl

/-- A commit forgets where the checkpoint stood. -/
theorem commit_setCheckpoint (db : Database) (a : Attestation) (row : CheckpointRow) :
    (db.setCheckpoint a.direction.source row).commit a = db.commit a := by
  rw [commit, record_setCheckpoint, setCheckpoint_setCheckpoint]
  rfl

theorem checkpointRow_commit {db : Database} (h : db.checkpoints ≠ none) (a : Attestation) :
    (db.commit a).checkpointRow? a.direction.source =
      some ⟨some a.transactionId, a.ledgerSequence.toUInt64.toInt64⟩ := by
  refine checkpointRow_setCheckpoint ?_ _ _
  rw [checkpoints_record]
  exact h

theorem Covered.commit {db : Database} (hc : db.Covered) (h : db.checkpoints ≠ none)
    {a : Attestation} (ahead : db.Reaches a) : (db.commit a).Covered := by
  intro kind direction r hr
  rw [rows_commit] at hr
  by_cases hs : direction.source = a.direction.source
  · rw [hs]
    refine ⟨_, checkpointRow_commit h a, ?_⟩
    rcases mem_rows_record hr with hr | ⟨rfl, rfl, rfl⟩
    · obtain ⟨row, hrow, hle⟩ := hc kind direction r hr
      rw [hs] at hrow
      exact Int64.le_trans hle (ahead row hrow)
    · exact Int64.le_refl _
  · rcases mem_rows_record hr with hr | ⟨-, rfl, -⟩
    · obtain ⟨row, hrow, hle⟩ := hc kind direction r hr
      refine ⟨row, ?_, hle⟩
      rw [Database.commit, checkpointRow_setCheckpoint_other _ hs, checkpointRow_record]
      exact hrow
    · exact absurd rfl hs

/-- The checkpoint that an engine resumes from. -/
def position (db : Database) (role : Role) : Checkpoint :=
  match db.checkpoint role with
  | .ok (some c) => c
  | _ => ⟨role, none, 0⟩

theorem Legible.position {db : Database} (h : db.Legible) (role : Role) :
    (db.checkpointRow? role = none ∧ db.checkpoint role = .ok none ∧
      db.position role = ⟨role, none, 0⟩) ∨
    ∃ transactionId n, db.checkpointRow? role = some ⟨transactionId, n.toUInt64.toInt64⟩ ∧
      db.checkpoint role = .ok (some ⟨role, transactionId, n⟩) ∧
      db.position role = ⟨role, transactionId, n⟩ := by
  have hc := checkpoint_eq h.tabled role
  cases hr : db.checkpointRow? role with
  | none =>
    rw [hr] at hc
    exact .inl ⟨rfl, hc, by rw [Database.position, hc]⟩
  | some row =>
    obtain ⟨n, hn⟩ := h.ranged role row hr
    obtain ⟨transactionId, ledger⟩ := row
    dsimp only at hn
    subst hn
    simp only [hr, Row.ledger_column] at hc
    exact .inr ⟨transactionId, n, rfl, hc, by rw [Database.position, hc]⟩

theorem checkpoint_setCheckpoint {db : Database} (h : db.checkpoints ≠ none) (role : Role)
    (transactionId : Option String) (ledger : UInt32) :
    (db.setCheckpoint role ⟨transactionId, ledger.toUInt64.toInt64⟩).checkpoint role =
      .ok (some ⟨role, transactionId, ledger⟩) := by
  rw [checkpoint_eq (tabled_setCheckpoint h _ _), checkpointRow_setCheckpoint h]
  simp only [Row.ledger_column]

theorem checkpoint_setCheckpoint_other (db : Database) {role other : Role} (h : other ≠ role)
    (row : CheckpointRow) : (db.setCheckpoint role row).checkpoint other = db.checkpoint other := by
  unfold checkpoint setCheckpoint
  cases db.checkpoints with
  | none => rfl
  | some table => simp only [Option.map_some, ByRole.get_set_of_ne table h]

theorem position_setCheckpoint {db : Database} (h : db.Legible) (role : Role)
    (transactionId : Option String) (ledger : UInt32) :
    (db.setCheckpoint role ⟨transactionId, ledger.toUInt64.toInt64⟩).position role =
      ⟨role, transactionId, ledger⟩ := by
  rw [position, checkpoint_setCheckpoint h.tabled]

theorem position_commit {db : Database} (h : db.Legible) {a : Attestation} (ha : a.Storable) :
    (db.commit a).position a.direction.source =
      ⟨a.direction.source, some a.transactionId, a.ledgerSequence⟩ :=
  position_setCheckpoint (h.record ha) ..

/-- A commit that is repeated at once changes nothing. -/
theorem commit_commit {db : Database} (h : db.checkpoints ≠ none) (a : Attestation) :
    (db.commit a).commit a = db.commit a := by
  have hb : (db.commit a).Blocks a := by
    apply blocks_of_recorded db
    intro kind direction
    rw [rows_commit]
  rw [commit, record_of_blocks hb]
  exact setCheckpoint_self (checkpointRow_commit h a)

theorem Legible.reaches {db : Database} (h : db.Legible) {a : Attestation}
    (hl : (db.position a.direction.source).ledgerSequence ≤ a.ledgerSequence) : db.Reaches a := by
  intro row hrow
  obtain ⟨hn, -⟩ | ⟨transactionId, n, hr, -, hp⟩ := h.position a.direction.source
  · rw [hrow] at hn
    cases hn
  · rw [hrow] at hr
    cases hr
    rw [hp] at hl
    exact Row.ledger_le_iff.mpr hl

end Database

namespace Draft

theorem insert_succeeds {d : Draft} (h : d.database.Legible) {a : Attestation} (ha : a.Storable) :
    ∃ i d', d.insert a = .ok (i, d') := by
  have hr : ¬(a.key.kind = .createAccount ∧ a.rewardAmount = none) := fun ⟨hk, hn⟩ => ha hk hn
  unfold insert
  dsimp only
  rw [if_neg hr]
  split
  · exact ⟨_, _, rfl⟩
  · rename_i hfull
    cases hb : blocking? (d.database.rows a.key.kind a.direction) (Row.ofAttestation a) with
    | none => exact absurd (admits_iff.mpr hb) hfull
    | some stored =>
      obtain ⟨x, hx⟩ := h.read (blocking_some hb).1
      simp only [hx]
      exact ⟨_, _, rfl⟩

/-- An insert that does not fail leaves a row in the attestation's way, its own if there was
none. -/
theorem insert_record {d d' : Draft} {a : Attestation} {i : Insertion}
    (h : d.insert a = .ok (i, d')) : d'.database = d.database.record a ∧
      (i = .inserted ↔ ¬d.database.Blocks a) ∧ (d'.reach = d.reach ∨
        d'.reach = d.reach.modify a.direction.source fun r => extend r a.ledgerSequence) := by
  rw [Database.blocks_iff]
  unfold Database.record
  obtain ⟨hb, -, rfl, rfl⟩ | ⟨stored, x, hb, -, rfl, rfl⟩ := insert_cases h
  · rw [hb]
    exact ⟨rfl, by simp, .inr rfl⟩
  · rw [hb]
    exact ⟨rfl, by simp, .inl rfl⟩

theorem advance_succeeds {d : Draft} (h : d.database.checkpoints ≠ none) {role : Role}
    {ledger : UInt32} (ahead : ∀ row, d.database.checkpointRow? role = some row →
      row.ledgerSequence ≤ ledger.toUInt64.toInt64) (transactionId : String) :
    ∃ d', d.advance role transactionId ledger = .ok d' ∧ d'.reach = d.reach ∧ d'.database =
      d.database.setCheckpoint role ⟨some transactionId, ledger.toUInt64.toInt64⟩ := by
  obtain ⟨table, ht⟩ := Option.ne_none_iff_exists'.mp h
  unfold advance
  simp only [Database.checkpointRow?, ht, Option.bind_some] at ahead ⊢
  cases hg : table.get role with
  | none => exact ⟨_, rfl, rfl, rfl⟩
  | some row =>
    simp only [ahead row hg, decide_true, ↓reduceIte]
    exact ⟨_, rfl, rfl, rfl⟩

/-- The insert that suits the attestation, and the advance after it. -/
theorem commitBatch_steps (role : Role) (a : Attestation) :
    ∃ x, (Engine.commitBatch role a).steps =
        [x, .advance role a.transactionId a.ledgerSequence] ∧
      ∀ d, step d x = (insert d a).map fun r => (.insertion r.1, r.2) := by
  unfold Engine.commitBatch
  cases hk : a.key.kind with
  | claim => exact ⟨.insertClaim a, rfl, fun d => by simp [step, Attestation.isAccountCreate, hk]⟩
  | createAccount =>
    exact ⟨.insertAccountCreate a, rfl, fun d => by simp [step, Attestation.isAccountCreate, hk]⟩

/-- The checkpoint that has just been moved covers a row at its own ledger, and no other chain has
got a row. -/
theorem check_advanced {d : Draft} {role : Role} {row : CheckpointRow} {ledger : UInt32}
    (h : d.database.checkpoints ≠ none) (hrow : d.database.checkpointRow? role = some row)
    (hl : row.ledgerSequence = ledger.toUInt64.toInt64)
    (hreach : d.reach = .both none ∨
      d.reach = (ByRole.both none).modify role fun r => extend r ledger) :
    d.check = .ok () := by
  have hrole : ∀ other, d.checkRole other = .ok () := by
    intro other
    unfold checkRole
    rcases hreach with hreach | hreach
    · rw [hreach, ByRole.get_both]
    · by_cases ho : other = role
      · subst ho
        simp only [hreach, ByRole.modify, ByRole.get_set_self, ByRole.get_both, extend,
          Database.checkpoint_eq h, hrow, hl, Row.ledger_column]
        simp [Database.covers, bind, Except.bind]
      · rw [hreach, ByRole.modify, ByRole.get_set_of_ne _ ho, ByRole.get_both]
  simp only [check, hrole, bind, Except.bind]

end Draft

namespace Store

/-- The batch of an event is taken in full, whether its row is new or not. -/
theorem write_commitBatch {s : Store} (hopen : s.poisoned = false) (h : s.database.Legible)
    {a : Attestation} (ha : a.Storable) (ahead : s.database.Reaches a) :
    ∃ i counts, (i = .inserted ↔ ¬s.database.Blocks a) ∧
      s.write (Engine.commitBatch a.direction.source a) =
        (⟨[.insertion i, .advanced], none⟩, ⟨s.database.commit a, counts, false⟩) := by
  obtain ⟨i, d, hi⟩ := Draft.insert_succeeds (d := .ofDatabase s.database) h ha
  obtain ⟨hd, hnew, hreach⟩ := Draft.insert_record hi
  have hl : d.database.Legible := by
    rw [hd]
    exact h.record ha
  have ahead' : ∀ row, d.database.checkpointRow? a.direction.source = some row →
      row.ledgerSequence ≤ a.ledgerSequence.toUInt64.toInt64 := by
    rw [hd]
    intro row hrow
    rw [Database.checkpointRow_record] at hrow
    exact ahead row hrow
  obtain ⟨d', ha', hr', hd'⟩ := Draft.advance_succeeds hl.tabled ahead' a.transactionId
  obtain ⟨x, hx, hstep⟩ := Draft.commitBatch_steps a.direction.source a
  have hrun : Draft.run false (Engine.commitBatch a.direction.source a).steps
      (.ofDatabase s.database) = ([.insertion i, .advanced], .ok d') := by
    rw [hx, Draft.run, hstep, hi]
    simp only [Draft.run, Draft.step, ha', Except.map]
  have hcommit : d'.database = s.database.commit a := by
    rw [hd', hd]
    rfl
  have hcheck : d'.check = .ok () := by
    rw [hr'.symm] at hreach
    have hrow : d'.database.checkpointRow? a.direction.source =
        some ⟨some a.transactionId, a.ledgerSequence.toUInt64.toInt64⟩ := by
      rw [hd']
      exact Database.checkpointRow_setCheckpoint hl.tabled _ _
    refine Draft.check_advanced ?_ hrow rfl hreach
    rw [hcommit]
    exact (h.commit ha).tabled
  unfold write
  simp only [hopen, Bool.false_eq_true, ↓reduceIte]
  rw [show (Engine.commitBatch a.direction.source a).lenient = false from rfl, hrun]
  simp only [hcheck, hcommit]
  exact ⟨i, _, hnew, rfl⟩

end Store

end Attestor

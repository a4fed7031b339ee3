import Attestor.Proofs.RowReading
import Attestor.Proofs.TableChanges

namespace Attestor

theorem Row.ledger_le_iff {m n : UInt32} :
    m.toUInt64.toInt64 ≤ n.toUInt64.toInt64 ↔ m ≤ n := by
  rw [Int64.le_iff_toInt_le, toInt_ledger, toInt_ledger, UInt32.le_iff_toNat_le]
  omega

namespace Database

/-- The checkpoint of a chain as it is stored. -/
def checkpointRow? (db : Database) (role : Role) : Option CheckpointRow :=
  db.checkpoints.bind fun table => table.get role

@[simp] theorem checkpointRow_append (db : Database) (a : Attestation) (role : Role) :
    (db.append a).checkpointRow? role = db.checkpointRow? role := by
  rw [checkpointRow?, append, checkpoints_withRows]
  rfl

theorem tabled_setCheckpoint {db : Database} (h : db.checkpoints ≠ none) (role : Role)
    (row : CheckpointRow) : (db.setCheckpoint role row).checkpoints ≠ none := by
  obtain ⟨table, ht⟩ := Option.ne_none_iff_exists'.mp h
  simp [setCheckpoint, ht]

theorem checkpointRow_setCheckpoint {db : Database} (h : db.checkpoints ≠ none) (role : Role)
    (row : CheckpointRow) : (db.setCheckpoint role row).checkpointRow? role = some row := by
  obtain ⟨table, ht⟩ := Option.ne_none_iff_exists'.mp h
  simp [checkpointRow?, setCheckpoint, ht]

theorem checkpointRow_setCheckpoint_other (db : Database) {role other : Role} (h : other ≠ role)
    (row : CheckpointRow) :
    (db.setCheckpoint role row).checkpointRow? other = db.checkpointRow? other := by
  unfold checkpointRow? setCheckpoint
  cases db.checkpoints with
  | none => rfl
  | some table => exact ByRole.get_set_of_ne table h _

@[simp] theorem checkpointRow_prepare (db : Database) (role : Role) :
    db.prepare.checkpointRow? role = db.checkpointRow? role := by
  unfold checkpointRow? prepare
  cases db.checkpoints with
  | none => cases role <;> rfl
  | some table => rfl

theorem checkpoint_eq {db : Database} (h : db.checkpoints ≠ none) (role : Role) :
    db.checkpoint role = match db.checkpointRow? role with
      | none => .ok none
      | some row => match Row.ledger? row.ledgerSequence with
        | none => .error .database
        | some ledger => .ok (some ⟨role, row.transactionId, ledger⟩) := by
  obtain ⟨claims, creates, checkpoints⟩ := db
  obtain ⟨table, rfl⟩ := Option.ne_none_iff_exists'.mp h
  rfl

/-- Whatever is stored can be read. -/
structure Legible (db : Database) : Prop where
  tabled : db.checkpoints ≠ none
  stored : ∀ kind direction, ∀ r ∈ db.rows kind direction, ∃ a : Attestation,
    a.Storable ∧ a.key.kind = kind ∧ a.direction = direction ∧ r = Row.ofAttestation a
  ranged : ∀ role row, db.checkpointRow? role = some row →
    ∃ n : UInt32, row.ledgerSequence = n.toUInt64.toInt64

theorem Legible.read {db : Database} (h : db.Legible) {kind : TransferKind}
    {direction : Direction} {r : Row} (hr : r ∈ db.rows kind direction) :
    ∃ a, Database.read kind direction r = .ok a := by
  obtain ⟨a, hs, rfl, rfl, rfl⟩ := h.stored kind direction r hr
  exact ⟨a.kept, Row.read_ofAttestation hs⟩

theorem Legible.append {db : Database} (h : db.Legible) {a : Attestation} (ha : a.Storable) :
    (db.append a).Legible := by
  refine ⟨?_, ?_, ?_⟩
  · rw [Database.append, checkpoints_withRows]
    exact h.tabled
  · intro kind direction r hr
    rcases mem_rows_append hr with hr | ⟨rfl, rfl, rfl⟩
    · exact h.stored kind direction r hr
    · exact ⟨a, ha, rfl, rfl, rfl⟩
  · intro role row hr
    rw [checkpointRow_append] at hr
    exact h.ranged role row hr

theorem Legible.setCheckpoint {db : Database} (h : db.Legible) (role : Role)
    (transactionId : Option String) (ledger : UInt32) :
    (db.setCheckpoint role ⟨transactionId, ledger.toUInt64.toInt64⟩).Legible := by
  refine ⟨tabled_setCheckpoint h.tabled _ _, ?_, ?_⟩
  · intro kind direction r hr
    rw [rows_setCheckpoint] at hr
    exact h.stored kind direction r hr
  · intro other row hr
    by_cases ho : other = role
    · subst ho
      rw [checkpointRow_setCheckpoint h.tabled] at hr
      cases hr
      exact ⟨ledger, rfl⟩
    · rw [checkpointRow_setCheckpoint_other db ho] at hr
      exact h.ranged other row hr

theorem Legible.prepare {db : Database} (h : db.Legible) : db.prepare = db := by
  obtain ⟨table, ht⟩ := Option.ne_none_iff_exists'.mp h.tabled
  obtain ⟨claims, creates, checkpoints⟩ := db
  dsimp only at ht
  subst ht
  rfl

theorem Legible.change {db db' : Database} (h : db.Legible) (hc : db.Change db') : db'.Legible := by
  cases hc with
  | insert a _ rewarded => exact h.append rewarded
  | advance table role transactionId ledger _ _ => exact h.setCheckpoint role _ ledger
  | create table role _ _ => exact h.setCheckpoint role none 0
  | prepare =>
    rw [h.prepare]
    exact h

theorem Legible.changes {db db' : Database} (h : db.Legible) (hc : db.Changes db') :
    db'.Legible := by
  induction hc with
  | refl => exact h
  | tail _ hc ih => exact ih.change hc

/-- Every row of a direction lies at or before the checkpoint of its source chain. -/
def CoveredIn (db : Database) (direction : Direction) : Prop :=
  ∀ kind, ∀ r ∈ db.rows kind direction, ∃ row,
    db.checkpointRow? direction.source = some row ∧ r.ledgerSequence ≤ row.ledgerSequence

/-- Every row lies at or before the checkpoint of its source chain. -/
def Covered (db : Database) : Prop :=
  ∀ kind direction, ∀ r ∈ db.rows kind direction, ∃ row,
    db.checkpointRow? direction.source = some row ∧ r.ledgerSequence ≤ row.ledgerSequence

/-- Every ledger that is stored is a number of 32 bits. -/
structure Measured (db : Database) : Prop where
  rows : ∀ kind direction, ∀ r ∈ db.rows kind direction, FitsUnsigned 32 r.ledgerSequence.toInt
  checkpoints : ∀ role row, db.checkpointRow? role = some row →
    FitsUnsigned 32 row.ledgerSequence.toInt

theorem Legible.measured {db : Database} (h : db.Legible) : db.Measured := by
  refine ⟨?_, ?_⟩
  · intro kind direction r hr
    obtain ⟨a, -, -, -, rfl⟩ := h.stored kind direction r hr
    exact Row.fits_ledger a.ledgerSequence
  · intro role row hrow
    obtain ⟨n, hn⟩ := h.ranged role row hrow
    rw [hn]
    exact Row.fits_ledger n

/-- The greatest ledger among rows, if there are any. -/
def Tops (stored : Row → Prop) : Option UInt32 → Prop
  | none => ∀ r, ¬stored r
  | some k => (∃ r, stored r ∧ r.ledgerSequence = k.toUInt64.toInt64) ∧
      ∀ r, stored r → r.ledgerSequence ≤ k.toUInt64.toInt64

theorem foldl_max_mem (n : Int64) (rest : List Int64) : rest.foldl max n ∈ n :: rest := by
  induction rest generalizing n with
  | nil => simp
  | cons m rest ih =>
    rw [List.foldl_cons]
    have hm : max n m = n ∨ max n m = m := by
      change (if n ≤ m then m else n) = n ∨ (if n ≤ m then m else n) = m
      split <;> simp
    rcases List.mem_cons.mp (ih (max n m)) with h | h
    · rw [h]
      rcases hm with hm | hm <;> simp [hm]
    · exact List.mem_cons_of_mem _ (List.mem_cons_of_mem _ h)

theorem le_foldl_max (n : Int64) (rest : List Int64) :
    ∀ m ∈ n :: rest, m ≤ rest.foldl max n := by
  induction rest generalizing n with
  | nil =>
    intro m hm
    rw [List.mem_singleton.mp hm]
    exact Int64.le_refl n
  | cons k rest ih =>
    have hk : n ≤ max n k ∧ k ≤ max n k := by
      change n ≤ (if n ≤ k then k else n) ∧ k ≤ (if n ≤ k then k else n)
      split
      · rename_i h
        exact ⟨h, Int64.le_refl k⟩
      · rename_i h
        exact ⟨Int64.le_refl n, Int64.le_of_lt (Int64.not_le.mp h)⟩
    have htop := ih (max n k)
    intro m hm
    rcases List.mem_cons.mp hm with rfl | hm
    · exact Int64.le_trans hk.1 (htop _ List.mem_cons_self)
    · rcases List.mem_cons.mp hm with rfl | hm
      · exact Int64.le_trans hk.2 (htop _ List.mem_cons_self)
      · exact htop m (List.mem_cons_of_mem _ hm)

theorem tops_highestOf {rows : List Row}
    (h : ∀ r ∈ rows, FitsUnsigned 32 r.ledgerSequence.toInt) : Tops (· ∈ rows) (highestOf rows) := by
  cases rows with
  | nil => exact fun r => List.not_mem_nil
  | cons r rest =>
    have hmem := foldl_max_mem r.ledgerSequence (rest.map Row.ledgerSequence)
    have hle := le_foldl_max r.ledgerSequence (rest.map Row.ledgerSequence)
    rw [← List.map_cons] at hmem hle
    obtain ⟨top, htop, he⟩ := List.mem_map.mp hmem
    obtain ⟨n, hn⟩ := Row.exists_ledger (h top htop)
    have hk : highestOf (r :: rest) = some n := by
      simp only [highestOf, List.map_cons, ← he, hn]
      simp
    rw [hk]
    refine ⟨⟨top, htop, hn⟩, ?_⟩
    intro s hs
    rw [← hn, he]
    exact hle s.ledgerSequence (List.mem_map_of_mem hs)

theorem Tops.max {stored stored' : Row → Prop} {m n : UInt32} (hm : Tops stored (some m))
    (hn : Tops stored' (some n)) : Tops (fun r => stored r ∨ stored' r) (some (max m n)) := by
  obtain ⟨⟨r, hr, hrm⟩, hle⟩ := hm
  obtain ⟨⟨s, hs, hsn⟩, hle'⟩ := hn
  change Tops _ (some (if m ≤ n then n else m))
  split
  · rename_i h
    refine ⟨⟨s, .inr hs, hsn⟩, ?_⟩
    rintro t (ht | ht)
    · exact Int64.le_trans (hle t ht) (Row.ledger_le_iff.mpr h)
    · exact hle' t ht
  · rename_i h
    refine ⟨⟨r, .inl hr, hrm⟩, ?_⟩
    rintro t (ht | ht)
    · exact hle t ht
    · exact Int64.le_trans (hle' t ht) (Row.ledger_le_iff.mpr (UInt32.le_of_lt (UInt32.not_le.mp h)))

theorem Tops.congr {stored stored' : Row → Prop} {k : Option UInt32} (h : Tops stored k)
    (hiff : ∀ r, stored r ↔ stored' r) : Tops stored' k := by
  rwa [← funext fun r => propext (hiff r)]

theorem tops_highest {db : Database} (h : db.Measured) (direction : Direction) :
    Tops (fun r => ∃ kind, r ∈ db.rows kind direction) (db.highest direction) := by
  have hclaim := tops_highestOf (h.rows .claim direction)
  have hcreate := tops_highestOf (h.rows .createAccount direction)
  have hboth : Tops (fun r => r ∈ db.rows .claim direction ∨ r ∈ db.rows .createAccount direction)
      (db.highest direction) := by
    unfold highest
    cases hc : highestOf (db.rows .claim direction) with
    | none =>
      rw [hc] at hclaim
      exact hcreate.congr fun r => (or_iff_right (hclaim r)).symm
    | some a =>
      rw [hc] at hclaim
      cases hd : highestOf (db.rows .createAccount direction) with
      | none =>
        rw [hd] at hcreate
        exact hclaim.congr fun r => (or_iff_left (hcreate r)).symm
      | some b =>
        rw [hd] at hcreate
        exact hclaim.max hcreate
  apply hboth.congr
  intro r
  constructor
  · rintro (hr | hr)
    · exact ⟨.claim, hr⟩
    · exact ⟨.createAccount, hr⟩
  · rintro ⟨⟨⟩, hr⟩
    · exact .inl hr
    · exact .inr hr

/-- A direction passes the check if the checkpoint of its source chain covers its rows, and else it
is found corrupted. -/
theorem Measured.checkDirection_cases {db : Database} (h : db.Measured)
    (tabled : db.checkpoints ≠ none) (direction : Direction) :
    (db.checkDirection direction = .ok () ∧ db.CoveredIn direction) ∨
    ∃ highest checkpoint, db.checkDirection direction =
        .error (.corrupted (.uncoveredRows direction highest checkpoint)) ∧
      ¬db.CoveredIn direction := by
  have htop := tops_highest h direction
  unfold Database.checkDirection
  cases hh : db.highest direction with
  | none =>
    rw [hh] at htop
    exact .inl ⟨rfl, fun kind r hr => absurd ⟨kind, hr⟩ (htop r)⟩
  | some k =>
    rw [hh] at htop
    obtain ⟨⟨top, ⟨kind, hmem⟩, htop⟩, hle⟩ := htop
    cases hrow : db.checkpointRow? direction.source with
    | none =>
      refine .inr ⟨k, none, ?_, ?_⟩
      · simp [checkpoint_eq tabled, hrow, covers, bind, Except.bind]
      · intro hc
        obtain ⟨row, hrow', -⟩ := hc kind top hmem
        cases hrow.symm.trans hrow'
    | some row =>
      obtain ⟨n, hn⟩ := Row.exists_ledger (h.checkpoints _ row hrow)
      have hcheckpoint : db.checkpoint direction.source =
          .ok (some ⟨direction.source, row.transactionId, n⟩) := by
        simp only [checkpoint_eq tabled, hrow, hn, Row.ledger_column]
      have hcovered : db.CoveredIn direction ↔ k ≤ n := by
        rw [← Row.ledger_le_iff, ← hn]
        constructor
        · intro hc
          obtain ⟨row', hrow', hl⟩ := hc kind top hmem
          cases hrow.symm.trans hrow'
          rwa [← htop]
        · intro hk kind r hr
          exact ⟨row, hrow, Int64.le_trans (hle r ⟨kind, hr⟩) hk⟩
      by_cases hk : k ≤ n
      · refine .inl ⟨?_, hcovered.mpr hk⟩
        simp [hcheckpoint, covers, hk, bind, Except.bind]
      · refine .inr ⟨k, some n, ?_, fun hc => hk (hcovered.mp hc)⟩
        simp [hcheckpoint, covers, hk, bind, Except.bind]

/-- The check passes if the checkpoints cover the rows, and else finds them corrupted. -/
theorem Measured.check_cases {db : Database} (h : db.Measured) (tabled : db.checkpoints ≠ none) :
    (db.check = .ok () ∧ db.Covered) ∨
    ∃ direction highest checkpoint,
      db.check = .error (.corrupted (.uncoveredRows direction highest checkpoint)) ∧
      ¬db.Covered := by
  have hcovered : db.Covered ↔ ∀ direction, db.CoveredIn direction :=
    ⟨fun hc direction kind => hc kind direction, fun hc kind direction => hc direction kind⟩
  unfold check
  obtain ⟨hl, hlc⟩ | ⟨highest, checkpoint, hl, hlc⟩ :=
    h.checkDirection_cases tabled .lockingToIssuing
  · obtain ⟨hi, hic⟩ | ⟨highest, checkpoint, hi, hic⟩ :=
      h.checkDirection_cases tabled .issuingToLocking
    · refine .inl ⟨by rw [hl, hi]; rfl, hcovered.mpr ?_⟩
      rintro ⟨⟩
      · exact hlc
      · exact hic
    · exact .inr ⟨_, _, _, by rw [hl, hi]; rfl, fun hc => hic (hcovered.mp hc _)⟩
  · exact .inr ⟨_, _, _, by rw [hl]; rfl, fun hc => hlc (hcovered.mp hc _)⟩

/-- Where all can be read and the checkpoints cover the rows, the database opens. -/
theorem Legible.openChecked {db : Database} (h : db.Legible) (hc : db.Covered) :
    Store.openChecked db = .ok ⟨db, .zero, false⟩ := by
  obtain ⟨hcheck, -⟩ | ⟨_, _, _, -, hn⟩ := h.measured.check_cases h.tabled
  · rw [Store.openChecked, hcheck]
    rfl
  · exact absurd hc hn

end Database

end Attestor

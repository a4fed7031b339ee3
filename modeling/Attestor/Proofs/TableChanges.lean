import Attestor.Store
import Mathlib.Data.List.Infix
import Mathlib.Data.List.Pairwise
import Mathlib.Logic.Relation

namespace Attestor

theorem Except.bind_ok {x : Except ε α} {f : α → Except ε β} {b : β} (h : x >>= f = .ok b) :
    ∃ a, x = .ok a ∧ f a = .ok b := by
  cases x with
  | error e => cases h
  | ok a => exact ⟨a, rfl, h⟩

theorem Except.bind_error {x : Except ε α} {f : α → Except ε β} {e : ε}
    (h : x >>= f = .error e) : x = .error e ∨ ∃ a, x = .ok a ∧ f a = .error e := by
  cases x with
  | error d =>
    cases h
    exact .inl rfl
  | ok a => exact .inr ⟨a, rfl, h⟩

theorem Except.map_ok {x : Except ε α} {f : α → β} {b : β} (h : x.map f = .ok b) :
    ∃ a, x = .ok a ∧ f a = b := by
  cases x with
  | error e => cases h
  | ok a => exact ⟨a, rfl, Except.ok.inj h⟩

namespace Database

@[simp] theorem rows_withRows (db : Database) (kind : TransferKind) (direction : Direction)
    (rows : List Row) : (db.withRows kind direction rows).rows kind direction = rows := by
  cases kind <;> exact ByRole.get_set_self ..

theorem rows_withRows_other (db : Database) {kind kind' : TransferKind}
    {direction direction' : Direction} (rows : List Row)
    (h : ¬(kind' = kind ∧ direction' = direction)) :
    (db.withRows kind direction rows).rows kind' direction' = db.rows kind' direction' := by
  cases kind <;> cases kind' <;> cases direction <;> cases direction' <;>
    first | rfl | exact absurd ⟨rfl, rfl⟩ h

@[simp] theorem checkpoints_withRows (db : Database) (kind : TransferKind)
    (direction : Direction) (rows : List Row) :
    (db.withRows kind direction rows).checkpoints = db.checkpoints := by
  cases kind <;> rfl

@[simp] theorem rows_setCheckpoint (db : Database) (role : Role) (row : CheckpointRow)
    (kind : TransferKind) (direction : Direction) :
    (db.setCheckpoint role row).rows kind direction = db.rows kind direction := by
  cases kind <;> rfl

@[simp] theorem rows_prepare (db : Database) (kind : TransferKind) (direction : Direction) :
    db.prepare.rows kind direction = db.rows kind direction := by
  cases kind <;> rfl

/-- The tables with a row at the end of its table. -/
def append (db : Database) (a : Attestation) : Database :=
  db.withRows a.key.kind a.direction (db.rows a.key.kind a.direction ++ [Row.ofAttestation a])

theorem rows_append (db : Database) (a : Attestation) :
    (db.append a).rows a.key.kind a.direction =
      db.rows a.key.kind a.direction ++ [Row.ofAttestation a] :=
  rows_withRows ..

theorem rows_append_other (db : Database) (a : Attestation) {kind : TransferKind}
    {direction : Direction} (h : ¬(kind = a.key.kind ∧ direction = a.direction)) :
    (db.append a).rows kind direction = db.rows kind direction :=
  rows_withRows_other _ _ h

theorem rows_append_prefix (db : Database) (a : Attestation) (kind : TransferKind)
    (direction : Direction) : db.rows kind direction <+: (db.append a).rows kind direction := by
  by_cases hk : kind = a.key.kind ∧ direction = a.direction
  · obtain ⟨rfl, rfl⟩ := hk
    rw [rows_append]
    exact List.prefix_append ..
  · rw [rows_append_other db a hk]

theorem mem_rows_append {db : Database} {a : Attestation} {kind : TransferKind}
    {direction : Direction} {r : Row} (h : r ∈ (db.append a).rows kind direction) :
    r ∈ db.rows kind direction ∨
      kind = a.key.kind ∧ direction = a.direction ∧ r = Row.ofAttestation a := by
  by_cases hk : kind = a.key.kind ∧ direction = a.direction
  · obtain ⟨rfl, rfl⟩ := hk
    rw [rows_append, List.mem_append] at h
    rcases h with h | h
    · exact .inl h
    · exact .inr ⟨rfl, rfl, List.mem_singleton.mp h⟩
  · rw [rows_append_other db a hk] at h
    exact .inl h

/-- One change of the tables: a row that is not blocked, a checkpoint that moves to a ledger at or
after its own, a checkpoint that was missing, or the table of checkpoints where it was. -/
inductive Change (db : Database) : Database → Prop
  | insert (a : Attestation)
      (free : Draft.blocking? (db.rows a.key.kind a.direction) (Row.ofAttestation a) = none)
      (rewarded : a.key.kind = .createAccount → a.rewardAmount ≠ none) :
      Change db (db.append a)
  | advance (table : CheckpointTable) (role : Role) (transactionId : String) (ledger : UInt32)
      (present : db.checkpoints = some table)
      (ahead : ∀ row, table.get role = some row →
        row.ledgerSequence ≤ ledger.toUInt64.toInt64) :
      Change db (db.setCheckpoint role ⟨some transactionId, ledger.toUInt64.toInt64⟩)
  | create (table : CheckpointTable) (role : Role) (present : db.checkpoints = some table)
      (missing : table.get role = none) :
      Change db (db.setCheckpoint role ⟨none, 0⟩)
  | prepare : Change db db.prepare

/-- Any number of changes, one after the other. -/
abbrev Changes : Database → Database → Prop :=
  Relation.ReflTransGen Change

end Database

namespace Row

theorem conflicts_iff {r s : Row} : r.conflicts s = true ↔
    r.bridgeKey = s.bridgeKey ∧ (r.transactionId = s.transactionId ∨ r.number = s.number) := by
  simp [conflicts]

theorem conflicts_comm (r s : Row) : r.conflicts s = s.conflicts r := by
  rw [Bool.eq_iff_iff, conflicts_iff, conflicts_iff]
  constructor <;> exact fun ⟨hk, hc⟩ => ⟨hk.symm, hc.imp Eq.symm Eq.symm⟩

end Row

theorem Draft.blocking_none_iff {rows : List Row} {row : Row} :
    blocking? rows row = none ↔ ∀ r ∈ rows, r.conflicts row = false := by
  unfold blocking?
  dsimp only
  constructor
  · intro h r hr
    rw [Bool.eq_false_iff]
    intro hc
    obtain ⟨hk, hc⟩ := Row.conflicts_iff.mp hc
    have hf : r ∈ rows.filter fun r => r.bridgeKey == row.bridgeKey :=
      List.mem_filter.mpr ⟨hr, by simp [hk]⟩
    split at h
    · cases h
    · rename_i ht
      rcases hc with hc | hc
      · exact List.find?_eq_none.mp ht r hf (by simp [hc])
      · exact List.find?_eq_none.mp h r hf (by simp [hc])
  · intro h
    have hn : ∀ r ∈ rows.filter fun r => r.bridgeKey == row.bridgeKey,
        r.transactionId ≠ row.transactionId ∧ r.number ≠ row.number := by
      intro r hr
      obtain ⟨hm, hk⟩ := List.mem_filter.mp hr
      have hc := h r hm
      simp_all [Row.conflicts]
    rw [List.find?_eq_none.mpr fun r hr => by simp [(hn r hr).1]]
    exact List.find?_eq_none.mpr fun r hr => by simp [(hn r hr).2]

/-- The row of the same transaction goes before that of the same number. -/
theorem Draft.blocking_some {rows : List Row} {row r : Row} (h : blocking? rows row = some r) :
    r ∈ rows ∧ r.bridgeKey = row.bridgeKey ∧ (r.transactionId = row.transactionId ∨
      (∀ s ∈ rows, s.bridgeKey = row.bridgeKey → s.transactionId ≠ row.transactionId) ∧
        r.number = row.number) := by
  unfold blocking? at h
  dsimp only at h
  split at h
  · rename_i hf
    cases h
    obtain ⟨hm, hk⟩ := List.mem_filter.mp (List.mem_of_find?_eq_some hf)
    have ht := List.find?_some hf
    exact ⟨hm, by simpa using hk, .inl (by simpa using ht)⟩
  · rename_i hnone
    obtain ⟨hm, hk⟩ := List.mem_filter.mp (List.mem_of_find?_eq_some h)
    have hn := List.find?_some h
    refine ⟨hm, by simpa using hk, .inr ⟨?_, by simpa using hn⟩⟩
    intro s hs hb ht
    exact List.find?_eq_none.mp hnone s (List.mem_filter.mpr ⟨hs, by simpa using hb⟩)
      (by simpa using ht)

/-- A table has room for a row exactly if the search for one in its way finds nothing. -/
theorem Draft.admits_iff {rows : List Row} {row : Row} :
    admits rows row = true ↔ blocking? rows row = none := by
  simp [admits, blocking_none_iff]

namespace Draft

open Database

theorem insert_cases {d d' : Draft} {a : Attestation} {i : Insertion}
    (h : d.insert a = .ok (i, d')) :
    (blocking? (d.database.rows a.key.kind a.direction) (Row.ofAttestation a) = none ∧
      (a.key.kind = .createAccount → a.rewardAmount ≠ none) ∧ i = .inserted ∧
      d' = ⟨d.database.append a, { d.counts with inserted := d.counts.inserted + 1 },
        d.reach.modify a.direction.source fun r => extend r a.ledgerSequence⟩) ∨
    ∃ stored x, blocking? (d.database.rows a.key.kind a.direction) (Row.ofAttestation a) =
        some stored ∧ Database.read a.key.kind a.direction stored = .ok x ∧ i = .exists x ∧
      d' = { d with counts := { d.counts with duplicates := d.counts.duplicates + 1 } } := by
  unfold insert at h
  dsimp only at h
  split at h
  · cases h
  · rename_i hr
    split at h
    · rename_i hfree
      simp only [Except.ok.injEq, Prod.mk.injEq] at h
      obtain ⟨rfl, rfl⟩ := h
      exact .inl ⟨admits_iff.mp hfree, fun hk hn => hr ⟨hk, hn⟩, rfl, rfl⟩
    · split at h
      · cases h
      · rename_i stored hb
        obtain ⟨x, hx, h⟩ := Except.bind_ok h
        simp only [pure, Except.pure, Except.ok.injEq, Prod.mk.injEq] at h
        obtain ⟨rfl, rfl⟩ := h
        exact .inr ⟨stored, x, hb, hx, rfl, rfl⟩

theorem advance_cases {d d' : Draft} {role : Role} {transactionId : String} {ledger : UInt32}
    (h : d.advance role transactionId ledger = .ok d') :
    ∃ table, d.database.checkpoints = some table ∧
      (∀ row, table.get role = some row → row.ledgerSequence ≤ ledger.toUInt64.toInt64) ∧
      d' = { d with
        database := d.database.setCheckpoint role ⟨some transactionId, ledger.toUInt64.toInt64⟩
        counts := { d.counts with advances := d.counts.advances + 1 } } := by
  unfold advance at h
  cases ht : d.database.checkpoints with
  | none =>
    rw [ht] at h
    cases h
  | some table =>
    simp only [ht] at h
    refine ⟨table, rfl, ?_⟩
    cases hg : table.get role with
    | none =>
      simp only [hg, ↓reduceIte, Except.ok.injEq] at h
      exact ⟨by simp, h.symm⟩
    | some row =>
      simp only [hg, decide_eq_true_eq] at h
      split at h
      · rename_i hl
        refine ⟨?_, (Except.ok.inj h).symm⟩
        rintro _ ⟨⟩
        exact hl
      · obtain ⟨_, _, h⟩ := Except.bind_ok h
        cases h

theorem ensure_cases {d d' : Draft} {role : Role} {c : Checkpoint}
    (h : d.ensureCheckpoint role = .ok (c, d')) :
    d' = d ∨ ∃ table, d.database.checkpoints = some table ∧ table.get role = none ∧
      d' = { d with database := d.database.setCheckpoint role ⟨none, 0⟩ } := by
  unfold ensureCheckpoint at h
  split at h
  · cases h
  · rename_i table ht
    obtain ⟨found, _, h⟩ := Except.bind_ok h
    cases found with
    | none => cases h
    | some c' =>
      simp only [pure, Except.pure, Except.ok.injEq, Prod.mk.injEq] at h
      obtain ⟨-, rfl⟩ := h
      cases hg : table.get role with
      | some row => exact .inl rfl
      | none => exact .inr ⟨table, ht, hg, rfl⟩

theorem insert_changes {d d' : Draft} {a : Attestation} {i : Insertion}
    (h : d.insert a = .ok (i, d')) : Changes d.database d'.database := by
  obtain ⟨hb, hr, -, rfl⟩ | ⟨_, _, -, -, -, rfl⟩ := insert_cases h
  · exact .single (.insert a hb hr)
  · exact .refl

theorem step_changes {d d' : Draft} {s : WriteStep} {x : StepAnswer}
    (h : d.step s = .ok (x, d')) : Changes d.database d'.database := by
  cases s with
  | insertClaim a =>
    simp only [step] at h
    split at h
    · cases h
    · obtain ⟨_, hi, he⟩ := Except.map_ok h
      cases he
      exact insert_changes hi
  | insertAccountCreate a =>
    simp only [step] at h
    split at h
    · obtain ⟨_, hi, he⟩ := Except.map_ok h
      cases he
      exact insert_changes hi
    · cases h
  | insert a =>
    obtain ⟨_, hi, he⟩ := Except.map_ok h
    cases he
    exact insert_changes hi
  | advance role transactionId ledger =>
    obtain ⟨_, ha, he⟩ := Except.map_ok h
    cases he
    obtain ⟨table, ht, hl, rfl⟩ := advance_cases ha
    exact .single (.advance table role transactionId ledger ht hl)
  | readCheckpoint role =>
    obtain ⟨_, -, he⟩ := Except.map_ok h
    cases he
    exact .refl
  | ensureCheckpoint role =>
    obtain ⟨⟨c, d''⟩, hc, he⟩ := Except.map_ok h
    cases he
    obtain rfl | ⟨table, ht, hm, rfl⟩ := ensure_cases hc
    · exact .refl
    · exact .single (.create table role ht hm)
  | fail reason => cases h

theorem run_changes {lenient : Bool} {steps : List WriteStep} {d d' : Draft}
    (h : (run lenient steps d).2 = .ok d') : Changes d.database d'.database := by
  induction steps generalizing d with
  | nil =>
    cases h
    exact .refl
  | cons s rest ih =>
    simp only [run] at h
    split at h
    · rename_i hs
      exact (step_changes hs).trans (ih h)
    · split at h
      · exact ih h
      · cases h

end Draft

namespace Store

open Database

/-- A write that fails changes nothing, and one that succeeds leaves what its steps made. -/
theorem write_changes (s : Store) (b : Batch) : Changes s.database (s.write b).2.database := by
  unfold write
  split
  · exact .refl
  · split
    · exact .refl
    · rename_i hr
      split
      · exact .refl
      · exact Draft.run_changes (congrArg Prod.snd hr)

theorem writeUnder_changes (s : Store) (fault : Option Fault) (b : Batch) :
    Changes s.database (s.writeUnder fault b).2.database := by
  unfold writeUnder
  split
  · exact s.write_changes b
  · split <;> exact .refl

theorem writeAndDie_database (s : Store) (steps : List WriteStep) :
    (s.writeAndDie steps).2.database = s.database := by
  unfold writeAndDie
  split
  · rfl
  · split <;> rfl

/-- The tables with a checkpoint ensured are those of a batch of that one step. -/
theorem ensureCheckpoint_store (s : Store) (role : Role) :
    (s.ensureCheckpoint role).2 = (s.write ⟨[.ensureCheckpoint role], false⟩).2 := by
  unfold ensureCheckpoint
  split <;> simp_all

theorem ensureCheckpoint_changes (s : Store) (role : Role) :
    Changes s.database (s.ensureCheckpoint role).2.database := by
  rw [ensureCheckpoint_store]
  exact s.write_changes _

/-- A store that has just been opened shows the database as it is. -/
theorem openChecked_eq {db : Database} {s : Store} (h : openChecked db = .ok s) :
    s = ⟨db, .zero, false⟩ := by
  obtain ⟨_, -, h⟩ := Except.bind_ok h
  exact (Except.ok.inj h).symm

end Store

namespace Database

/-- In no table do two rows of one bridge share a transaction or a number, as the keys of the tables
demand. -/
def Keyed (db : Database) : Prop :=
  ∀ kind direction, (db.rows kind direction).Pairwise fun r s => r.conflicts s = false

theorem keyed_empty : empty.Keyed := by
  intro kind direction
  cases kind <;> cases direction <;> exact .nil

theorem Keyed.append {db : Database} (h : db.Keyed) (a : Attestation)
    (free : Draft.blocking? (db.rows a.key.kind a.direction) (Row.ofAttestation a) = none) :
    (db.append a).Keyed := by
  intro kind direction
  by_cases hk : kind = a.key.kind ∧ direction = a.direction
  · obtain ⟨rfl, rfl⟩ := hk
    rw [rows_append, List.pairwise_append]
    refine ⟨h _ _, List.pairwise_singleton .., ?_⟩
    intro r hr s hs
    rw [List.mem_singleton.mp hs]
    exact Draft.blocking_none_iff.mp free r hr
  · rw [rows_append_other db a hk]
    exact h kind direction

theorem Keyed.change {db db' : Database} (h : db.Keyed) (hc : db.Change db') : db'.Keyed := by
  cases hc with
  | insert a free _ => exact h.append a free
  | advance table role transactionId ledger _ _ =>
    intro kind direction
    rw [rows_setCheckpoint]
    exact h kind direction
  | create table role _ _ =>
    intro kind direction
    rw [rows_setCheckpoint]
    exact h kind direction
  | prepare =>
    intro kind direction
    rw [rows_prepare]
    exact h kind direction

theorem Keyed.changes {db db' : Database} (h : db.Keyed) (hc : db.Changes db') : db'.Keyed := by
  induction hc with
  | refl => exact h
  | tail _ hc ih => exact ih.change hc

theorem Keyed.eq_of_conflicts {db : Database} (h : db.Keyed) {kind : TransferKind}
    {direction : Direction} {r s : Row} (hr : r ∈ db.rows kind direction)
    (hs : s ∈ db.rows kind direction) (hc : r.conflicts s = true) : r = s := by
  by_contra hne
  have : Std.Symm fun r s : Row => r.conflicts s = false :=
    ⟨fun r s hc => (Row.conflicts_comm s r).trans hc⟩
  have hf := (h kind direction).forall hr hs hne
  rw [hc] at hf
  cases hf

/-- The bridge and the number name at most one row of a table. -/
theorem Keyed.eq_of_number {db : Database} (h : db.Keyed) {kind : TransferKind}
    {direction : Direction} {r s : Row} (hr : r ∈ db.rows kind direction)
    (hs : s ∈ db.rows kind direction) (hk : r.bridgeKey = s.bridgeKey)
    (hn : r.number = s.number) : r = s :=
  h.eq_of_conflicts hr hs (Row.conflicts_iff.mpr ⟨hk, .inr hn⟩)

theorem Change.rows_prefix {db db' : Database} (hc : db.Change db') (kind : TransferKind)
    (direction : Direction) : db.rows kind direction <+: db'.rows kind direction := by
  cases hc with
  | insert a _ _ => exact rows_append_prefix db a kind direction
  | advance table role transactionId ledger _ _ =>
    rw [rows_setCheckpoint]
  | create table role _ _ =>
    rw [rows_setCheckpoint]
  | prepare =>
    rw [rows_prepare]

/-- Rows are never removed, overwritten or moved. -/
theorem Changes.rows_prefix {db db' : Database} (hc : db.Changes db') (kind : TransferKind)
    (direction : Direction) : db.rows kind direction <+: db'.rows kind direction := by
  induction hc with
  | refl => exact List.prefix_refl _
  | tail _ hc ih => exact ih.trans (hc.rows_prefix kind direction)

end Database

end Attestor

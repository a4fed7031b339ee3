import Attestor.Proofs.Delivery
import Attestor.Proofs.InStep

namespace Attestor

namespace Database

/-- The tables of one chain: the rows of its direction and its checkpoint. -/
def part (db : Database) (role : Role) : Database where
  claims := (ByRole.both []).set role (db.claims.get role)
  creates := (ByRole.both []).set role (db.creates.get role)
  checkpoints := db.checkpoints.map fun table => (ByRole.both none).set role (table.get role)

@[simp] theorem rows_part (db : Database) (kind : TransferKind) (direction : Direction) :
    (db.part direction.source).rows kind direction = db.rows kind direction := by
  cases kind <;> exact ByRole.get_set_self ..

@[simp] theorem checkpointRow_part (db : Database) (role : Role) :
    (db.part role).checkpointRow? role = db.checkpointRow? role := by
  unfold checkpointRow? part
  cases db.checkpoints with
  | none => rfl
  | some table => exact ByRole.get_set_self ..

/-- The two parts make up the whole. -/
theorem ext_part {db db' : Database} (h : ∀ role, db.part role = db'.part role) : db = db' := by
  obtain ⟨⟨claims, claims'⟩, ⟨creates, creates'⟩, checkpoints⟩ := db
  obtain ⟨⟨otherClaims, otherClaims'⟩, ⟨otherCreates, otherCreates'⟩, otherCheckpoints⟩ := db'
  have hl := h .locking
  have hi := h .issuing
  simp only [part, ByRole.set, ByRole.get, ByRole.both, mk.injEq, ByRole.mk.injEq] at hl hi
  obtain ⟨⟨rfl, -⟩, ⟨rfl, -⟩, hlocking⟩ := hl
  obtain ⟨⟨-, rfl⟩, ⟨-, rfl⟩, hissuing⟩ := hi
  congr 1
  cases checkpoints with
  | none =>
    cases otherCheckpoints with
    | none => rfl
    | some other => cases hlocking
  | some table =>
    cases otherCheckpoints with
    | none => cases hlocking
    | some other =>
      obtain ⟨locking, issuing⟩ := table
      obtain ⟨otherLocking, otherIssuing⟩ := other
      cases hlocking
      cases hissuing
      rfl

theorem part_append (db : Database) (a : Attestation) :
    (db.append a).part a.direction.source = (db.part a.direction.source).append a := by
  unfold append
  rw [rows_part]
  cases a.key.kind <;> cases a.direction <;> rfl

theorem part_append_other (db : Database) (a : Attestation) {role : Role}
    (h : a.direction.source ≠ role) : (db.append a).part role = db.part role := by
  unfold append
  cases role <;> cases hd : a.direction <;> rw [hd] at h <;>
    first | exact absurd rfl h | (cases a.key.kind <;> rfl)

theorem part_setCheckpoint (db : Database) (role : Role) (row : CheckpointRow) :
    (db.setCheckpoint role row).part role = (db.part role).setCheckpoint role row := by
  unfold setCheckpoint part
  cases db.checkpoints with
  | none => rfl
  | some table => cases role <;> rfl

theorem part_setCheckpoint_other (db : Database) {moved role : Role} (h : moved ≠ role)
    (row : CheckpointRow) : (db.setCheckpoint moved row).part role = db.part role := by
  unfold setCheckpoint part
  cases db.checkpoints with
  | none => rfl
  | some table => cases role <;> cases moved <;> first | rfl | exact absurd rfl h

instance (db : Database) (a : Attestation) : Decidable (db.Blocks a) :=
  inferInstanceAs (Decidable
    (∃ r ∈ db.rows a.key.kind a.direction, r.conflicts (Row.ofAttestation a) = true))

/-- What is in an attestation's way is in its chain's part. -/
theorem blocks_part (db : Database) (a : Attestation) :
    (db.part a.direction.source).Blocks a ↔ db.Blocks a := by
  unfold Blocks
  rw [rows_part]

/-- A commit can be told from its chain's part alone. -/
theorem part_commit (db : Database) (a : Attestation) :
    (db.commit a).part a.direction.source = (db.part a.direction.source).commit a := by
  unfold commit
  rw [part_setCheckpoint]
  by_cases hb : db.Blocks a
  · rw [record_of_blocks hb, record_of_blocks ((db.blocks_part a).mpr hb)]
  · rw [record_of_free hb, record_of_free (mt (db.blocks_part a).mp hb), part_append]

/-- A commit leaves the other chain's part alone. -/
theorem part_commit_other (db : Database) (a : Attestation) {role : Role}
    (h : a.direction.source ≠ role) : (db.commit a).part role = db.part role := by
  unfold commit
  rw [part_setCheckpoint_other _ h]
  by_cases hb : db.Blocks a
  · rw [record_of_blocks hb]
  · rw [record_of_free hb, part_append_other db a h]

theorem Unmoved.of_part {role : Role} {db db' : Database} (h : db'.part role = db.part role) :
    db.Unmoved role db' := by
  left
  rw [← checkpointRow_part db', h, checkpointRow_part]

end Database

/-- The counts of events, without that of failed writes. -/
def Tally.events (t : Tally) : Tally :=
  { t with faults := 0 }

/-- How far an engine has come: its checkpoint, its chain's tables, and its counts of events. -/
@[ext] structure Progress where
  checkpoint : Checkpoint
  tables : Database
  tally : Tally
  deriving DecidableEq

namespace Progress

/-- What an event of the chain makes of it. -/
def next (i : Identity) (p : Progress) (e : Event) : Progress :=
  if Engine.alreadySeen p.checkpoint e then
    { p with tally := { p.tally with discarded := p.tally.discarded + 1 } }
  else
    { checkpoint := ⟨e.source, some e.transactionId, e.ledgerSequence⟩
      tables := p.tables.commit (i.attest e)
      tally := { p.tally with
        processed := p.tally.processed + 1
        duplicates := p.tally.duplicates + if p.tables.Blocks (i.attest e) then 1 else 0 } }

/-- What events of the chain make of it, one after the other. -/
def through (i : Identity) (p : Progress) (events : List Event) : Progress :=
  events.foldl (next i) p

theorem through_append (i : Identity) (p : Progress) (events : List Event) (e : Event) :
    p.through i (events ++ [e]) = (p.through i events).next i e := by
  rw [through, List.foldl_append]
  rfl

/-- No event of the chain is rejected. -/
theorem rejected_through (i : Identity) (p : Progress) (events : List Event) :
    (p.through i events).tally.rejected = p.tally.rejected := by
  induction events generalizing p with
  | nil => rfl
  | cons e rest ih =>
    refine (ih (p.next i e)).trans ?_
    unfold next
    split <;> rfl

end Progress

/-- The other chain's part is left as it was, and so is what concerns no chain. -/
structure Resources.Leaves (role : Role) (r r' : Resources) : Prop where
  identity : r'.signer.identity = r.signer.identity
  signal : r'.signal = r.signal
  healthy : r'.store.poisoned = r.store.poisoned
  tables : ∀ other ≠ role, r'.store.database.part other = r.store.database.part other
  tallies : ∀ other ≠ role, r'.tallies.get other = r.tallies.get other

namespace Resources

variable {role : Role} {r r' r'' : Resources}

theorem Leaves.refl (role : Role) (r : Resources) : r.Leaves role r :=
  ⟨rfl, rfl, rfl, fun _ _ => rfl, fun _ _ => rfl⟩

theorem Leaves.trans (h : r.Leaves role r') (h' : r'.Leaves role r'') : r.Leaves role r'' :=
  ⟨h'.identity.trans h.identity, h'.signal.trans h.signal, h'.healthy.trans h.healthy,
    fun other ho => (h'.tables other ho).trans (h.tables other ho),
    fun other ho => (h'.tallies other ho).trans (h.tallies other ho)⟩

theorem leaves_tally (r : Resources) (role : Role) (f : Tally → Tally) :
    r.Leaves role (r.tally role f) :=
  ⟨rfl, rfl, rfl, fun _ _ => rfl, fun _ ho => ByRole.get_set_of_ne _ ho _⟩

end Resources

namespace Engine

/-- How far the engine has come with what the engines share. -/
def progress (en : Engine) (r : Resources) : Progress :=
  ⟨en.checkpoint, r.store.database.part en.role, (r.tallies.get en.role).events⟩

/-- What an engine does with an event of its chain: it leaves the other chain's part alone, and has
the event still in hand, or has made of it what was to be made. -/
structure Serves (en : Engine) (r : Resources) (e : Event) (m : Move) : Prop where
  role : m.engine.role = en.role
  inStep : m.engine.InStep m.resources
  leaves : r.Leaves en.role m.resources
  stage : (m.outcome = none ∧ m.engine.Has e ∧ m.engine.progress m.resources = en.progress r) ∨
    (m.outcome = some .discarded ∨ ∃ i, m.outcome = some (.committed i)) ∧
      m.engine.phase = .idle ∧
      m.engine.progress m.resources = (en.progress r).next r.signer.identity e

/-- The engine is between events or has one of its chain in hand, and nothing stops it. -/
structure Runs (en : Engine) (r : Resources) : Prop where
  inStep : en.InStep r
  healthy : r.store.poisoned = false
  running : r.signal.stops = false

variable {en : Engine} {r : Resources} {e : Event}

theorem Serves.runs {m : Move} (h : en.Serves r e m) (hr : en.Runs r) : m.engine.Runs m.resources :=
  ⟨h.inStep, h.leaves.healthy.trans hr.healthy, by rw [h.leaves.signal, hr.running]⟩

/-- What an engine does, the other engine does not notice. -/
theorem Runs.other (h : en.Runs r) {role : Role} {r' : Resources} (hl : r.Leaves role r')
    (legible : r'.store.database.Legible) (hrole : en.role ≠ role) :
    en.Runs r' ∧ en.progress r' = en.progress r := by
  have hpart := hl.tables en.role hrole
  refine ⟨⟨h.inStep.other legible (.of_part hpart) hl.identity, hl.healthy.trans h.healthy, ?_⟩, ?_⟩
  · rw [hl.signal, h.running]
  · rw [progress, hpart, hl.tallies en.role hrole]
    rfl

/-- An engine between events discards an event of its chain or takes it in hand. -/
theorem Runs.take_serves (h : en.Runs r) (idle : en.phase = .idle) (hsource : e.source = en.role) :
    en.Serves r e (en.take r e) := by
  have hkeeps := h.inStep.take_keeps e
  refine ⟨hkeeps.role, hkeeps.inStep, ?_, ?_⟩
  all_goals
    unfold take
    rw [if_neg (not_not.mpr hsource)]
    split
  · exact r.leaves_tally ..
  · exact ⟨rfl, rfl, rfl, fun _ _ => rfl, fun _ _ => rfl⟩
  · rename_i hseen
    refine .inr ⟨.inl rfl, idle, ?_⟩
    simp [Progress.next, hseen, progress, Resources.tally, ByRole.modify, Tally.events]
  · exact .inl ⟨rfl, ⟨_, .inl rfl⟩, rfl⟩

/-- Committing an event makes of the chain's part what was to be made of it. -/
theorem Runs.committed_serves (h : en.Runs r) (hand : en.Has e) (counts : StoreCounts)
    {i : Insertion}
    (hi : i = .inserted ↔ ¬r.store.database.Blocks (r.signer.identity.attest e)) :
    en.Serves r e (en.committed
      { r with store := ⟨r.store.database.commit (r.signer.identity.attest e), counts, false⟩ }
      e i) := by
  have hkeeps := h.inStep.committed_keeps hand counts i
  obtain ⟨a, hand⟩ := hand
  obtain ⟨-, hsource, hnew⟩ := h.inStep.inHand e a hand
  have hchain : (r.signer.identity.attest e).direction.source = en.role :=
    (Identity.attest_source ..).trans hsource
  refine ⟨rfl, hkeeps.inStep, ?_, .inr ⟨.inr ⟨i, rfl⟩, rfl, ?_⟩⟩
  · refine ⟨rfl, rfl, h.healthy.symm, ?_, fun _ ho => ByRole.get_set_of_ne _ ho _⟩
    intro other ho
    exact Database.part_commit_other _ _ (by rw [hchain]; exact ho.symm)
  · have hpart := Database.part_commit r.store.database (r.signer.identity.attest e)
    have hblocks := Database.blocks_part r.store.database (r.signer.identity.attest e)
    rw [hchain] at hpart hblocks
    cases i with
    | inserted =>
      have hfree := hi.mp rfl
      simp [Progress.next, progress, committed, Resources.tally, ByRole.modify, Tally.events,
        hnew, hsource, hpart, hblocks, hfree]
    | «exists» x =>
      have hblocked : r.store.database.Blocks (r.signer.identity.attest e) := by
        by_contra hfree
        cases hi.mpr hfree
      simp [Progress.next, progress, committed, Resources.tally, ByRole.modify, Tally.events,
        hnew, hsource, hpart, hblocks, hblocked]

/-- With an event in hand, an engine commits it, or keeps it because of a fault. -/
theorem Runs.turn_serves (h : en.Runs r) (hand : en.Has e) (fault : Option Fault) :
    en.Serves r e (en.turn r fault) ∧ (fault = none → (en.turn r fault).outcome ≠ none) := by
  have hkeeps := h.inStep.turn_keeps hand fault
  obtain ⟨a, hphase⟩ := hand
  obtain ⟨rfl, -, -⟩ := h.inStep.inHand e a hphase
  have hholds := h.inStep.holds h.healthy hphase
  rw [turn_running hholds h.running] at hkeeps ⊢
  cases fault with
  | none =>
    obtain ⟨i, counts, hi, hw⟩ := write_committed hholds
    rw [hw]
    exact ⟨h.committed_serves ⟨_, hphase⟩ counts hi, fun _ => Option.some_ne_none _⟩
  | some f =>
    rw [write_faulted hholds] at hkeeps ⊢
    refine ⟨⟨rfl, hkeeps.inStep, r.leaves_tally .., .inl ⟨rfl, ⟨_, .inr rfl⟩, ?_⟩⟩, ?_⟩
    · simp [progress, Resources.tally, ByRole.modify, Tally.events]
    · intro hnone
      cases hnone

theorem Serves.pending {m : Move} (h : en.Serves r e m) (hnone : m.outcome = none) :
    m.engine.Has e ∧ m.engine.progress m.resources = en.progress r := by
  obtain ⟨-, hpending⟩ | ⟨hsome | ⟨i, hsome⟩, -⟩ := h.stage
  · exact hpending
  · cases hnone.symm.trans hsome
  · cases hnone.symm.trans hsome

theorem Serves.done {m : Move} (h : en.Serves r e m) (hends : m.outcome ≠ none) :
    (m.outcome = some .discarded ∨ ∃ i, m.outcome = some (.committed i)) ∧
      m.engine.phase = .idle ∧
      m.engine.progress m.resources = (en.progress r).next r.signer.identity e := by
  obtain ⟨hnone, -⟩ | hdone := h.stage
  · exact absurd hnone hends
  · exact hdone

/-- A move that leaves the event in hand is followed by another. -/
theorem Serves.trans {m m' : Move} (h : en.Serves r e m) (hnone : m.outcome = none)
    (h' : m.engine.Serves m.resources e m') : en.Serves r e m' := by
  have hstage := h'.stage
  rw [(h.pending hnone).2, h.leaves.identity] at hstage
  exact ⟨h'.role.trans h.role, h'.inStep, h.leaves.trans (h.role ▸ h'.leaves), hstage⟩

/-- Without faults an event of the chain is done with when it has been processed. -/
theorem Runs.process_serves (h : en.Runs r) (idle : en.phase = .idle)
    (hsource : e.source = en.role) :
    en.Serves r e (en.process r e [.none]) ∧ (en.process r e [.none]).outcome ≠ none := by
  have htake := h.take_serves idle hsource
  unfold process
  dsimp only
  split
  · rename_i o ho
    exact ⟨htake, fun hn => nomatch ho.symm.trans hn⟩
  · rename_i hnone
    obtain ⟨hturn, hends⟩ := (htake.runs h).turn_serves (htake.pending hnone).1 none
    have hfinish : (en.take r e).engine.finish (en.take r e).resources [.none] =
        (en.take r e).engine.turn (en.take r e).resources none := by
      obtain ⟨o, ho⟩ := Option.ne_none_iff_exists'.mp (hends rfl)
      simp [finish, Chance.none, ho]
    rw [hfinish]
    exact ⟨htake.trans hnone hturn, hends rfl⟩

/-- Processes events one at a time, with no fault. -/
def deliverEach (en : Engine) (r : Resources) (events : List Event) : Delivery :=
  en.deliver r (events.map fun e => (e, [.none]))

theorem deliverEach_cons (events : List Event)
    (h : (en.process r e [.none]).outcome = some .discarded ∨
      ∃ i, (en.process r e [.none]).outcome = some (.committed i)) :
    ∃ committed, en.deliverEach r (e :: events) =
      { (en.process r e [.none]).engine.deliverEach (en.process r e [.none]).resources events with
        committed } := by
  unfold deliverEach
  rw [List.map_cons, deliver]
  rcases h with h | ⟨i, h⟩ <;> rw [h] <;> exact ⟨_, rfl⟩

/-- Events of the chain that are processed one at a time are all done with, and make of the chain's
part what they make of it one after the other. -/
theorem Runs.deliverEach {events : List Event} (h : en.Runs r) (idle : en.phase = .idle)
    (hsource : ∀ e ∈ events, e.source = en.role) :
    let d := en.deliverEach r events
    d.done = true ∧ d.engine.role = en.role ∧ d.engine.InStep d.resources ∧
      r.Leaves en.role d.resources ∧
      d.engine.progress d.resources = (en.progress r).through r.signer.identity events := by
  induction events generalizing en r with
  | nil => exact ⟨rfl, rfl, h.inStep, .refl .., rfl⟩
  | cons e rest ih =>
    obtain ⟨he, hrest⟩ := List.forall_mem_cons.mp hsource
    obtain ⟨hserves, hends⟩ := h.process_serves idle he
    obtain ⟨ho, hidle, hprogress⟩ := hserves.done hends
    obtain ⟨hdone, hrole, hstep, hleaves, hthrough⟩ := ih (hserves.runs h) hidle
      (by rw [hserves.role]; exact hrest)
    rw [hprogress, hserves.leaves.identity] at hthrough
    obtain ⟨committed, hd⟩ := deliverEach_cons rest ho
    rw [hd]
    exact ⟨hdone, hrole.trans hserves.role, hstep,
      hserves.leaves.trans (hserves.role ▸ hleaves), hthrough⟩

end Engine

end Attestor

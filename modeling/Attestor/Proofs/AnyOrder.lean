import Attestor.Proofs.Redelivery
import Attestor.Proofs.Site
import Attestor.Proofs.SoleEngine
import Attestor.Proofs.WholeEvents

namespace Attestor

namespace Engine

theorem Took.blocks {en : Engine} {r : Resources} {e : Event} {i : Insertion} {m : Move}
    (h : en.Took r e i m) (k : Identity) : m.resources.store.database.Blocks (k.attest e) := by
  obtain ⟨row, hm, hk, hc⟩ := h.row
  exact ⟨row, hm, Row.conflicts_iff.mpr ⟨hk, hc.imp_right (congrArg UInt64.toInt64)⟩⟩

/-- An engine in step, whose checkpoint is at some event and not behind any of these, on tables in
which a row is in the way of each of them. -/
structure Remembers (en : Engine) (r : Resources) (events : List Event) : Prop where
  inStep : en.InStep r
  source : ∀ e ∈ events, e.source = en.role
  reached : ∀ e ∈ events, e.ledgerSequence ≤ en.checkpoint.ledgerSequence ∧
    en.checkpoint.transactionId ≠ none
  stored : ∀ e ∈ events, ∀ i : Identity, r.store.database.Blocks (i.attest e)

theorem InStep.remembers_none {en : Engine} {r : Resources} (h : en.InStep r) :
    en.Remembers r [] :=
  ⟨h, by simp, by simp, by simp⟩

/-- A move with an event stays in step, and a commit leaves a row in the event's way. -/
structure Stores (en : Engine) (r : Resources) (e : Event) (m : Move) : Prop where
  keeps : en.Keeps e m
  changes : r.store.database.Changes m.resources.store.database
  stored : ∀ i, m.outcome = some (.committed i) → e.source = en.role ∧
    ∀ k : Identity, m.resources.store.database.Blocks (k.attest e)

variable {en : Engine} {r : Resources} {e : Event} {events : List Event}

theorem InStep.take_stores (h : en.InStep r) (e : Event) : en.Stores r e (en.take r e) := by
  refine ⟨h.take_keeps e, by rw [take_store], ?_⟩
  intro i hi
  obtain ⟨-, ht⟩ | ⟨-, ⟨-, ht⟩ | ⟨-, ht⟩⟩ := en.take_cases r e
  all_goals
    rw [ht] at hi
    simp at hi

theorem InStep.turn_stores (h : en.InStep r) (hand : en.Has e) (fault : Option Fault) :
    en.Stores r e (en.turn r fault) := by
  refine ⟨h.turn_keeps hand fault, en.turn_changes r fault, ?_⟩
  intro i hi
  obtain ⟨a, hand⟩ := hand
  obtain ⟨rfl, hsource, -⟩ := h.inHand e a hand
  obtain ⟨-, ht⟩ | ht := turn_cases hand r fault
  · rw [ht] at hi
    simp at hi
  · rw [ht] at hi ⊢
    obtain ⟨i, store, hw, hm⟩ | ⟨error, -, ⟨-, hm⟩ | ⟨-, hm⟩⟩ :=
      en.write_cases r e (r.signer.identity.attest e) fault
    · rw [hm]
      exact ⟨hsource, (took_committed hw rfl).blocks⟩
    · rw [hm] at hi
      simp at hi
    · rw [hm] at hi
      simp at hi

theorem InStep.process_stores (h : en.InStep r) (e : Event) (chances : List Chance) :
    en.Stores r e (en.process r e chances) := by
  obtain ⟨i, -, hs, htook, -, -⟩ | ⟨hno, hspared, -, -⟩ := en.process_whole r e chances
  · refine ⟨h.process_keeps e chances, ?_, fun _ _ => ⟨hs, htook.blocks⟩⟩
    have hchanges := r.store.write_changes (commitBatch en.role (r.signer.identity.attest e))
    rwa [htook.write] at hchanges
  · refine ⟨h.process_keeps e chances, ?_, fun i hi => absurd hi (hno i)⟩
    rw [hspared.store]

theorem InStep.moves_stores {m : Move} (h : en.InStep r) (hm : en.Moves r e m) :
    en.Stores r e m := by
  cases hm with
  | process chances => exact h.process_stores e chances
  | take => exact h.take_stores e
  | turn hand fault => exact h.turn_stores hand fault

/-- A checkpoint never moves back over what was committed. -/
theorem Stores.remembers {m : Move} (hm : en.Stores r e m) (h : en.Remembers r events) :
    m.engine.Remembers m.resources events := by
  refine ⟨hm.keeps.inStep, ?_, ?_, ?_⟩
  · intro f hf
    exact (h.source f hf).trans hm.keeps.role.symm
  · intro f hf
    obtain ⟨-, hle, hc⟩ | ⟨-, hc⟩ := hm.keeps.checkpoint
    · rw [hc]
      exact ⟨UInt32.le_trans (h.reached f hf).1 hle, by simp⟩
    · rw [hc]
      exact h.reached f hf
  · intro f hf i
    exact (h.stored f hf i).mono hm.changes.rows_prefix

theorem Stores.remembers_committed {m : Move} (hm : en.Stores r e m) (h : en.Remembers r events)
    {i : Insertion} (hi : m.outcome = some (.committed i)) :
    m.engine.Remembers m.resources (events ++ [e]) := by
  obtain ⟨hin, hsource, hreached, hstored⟩ := hm.remembers h
  obtain ⟨hs, hblocks⟩ := hm.stored i hi
  refine ⟨hin, ?_, ?_, ?_⟩
  · intro f hf
    rcases List.mem_append.mp hf with hf | hf
    · exact hsource f hf
    · rw [List.mem_singleton.mp hf]
      exact hs.trans hm.keeps.role.symm
  · intro f hf
    rcases List.mem_append.mp hf with hf | hf
    · exact hreached f hf
    · obtain ⟨-, -, hc⟩ | ⟨hno, -⟩ := hm.keeps.checkpoint
      · rw [List.mem_singleton.mp hf, hc]
        exact ⟨UInt32.le_refl _, by simp⟩
      · exact absurd hi (hno i)
  · intro f hf
    rcases List.mem_append.mp hf with hf | hf
    · exact hstored f hf
    · rw [List.mem_singleton.mp hf]
      exact hblocks

/-- What others write is no matter, as long as they leave the checkpoint. -/
theorem Remembers.other (h : en.Remembers r events) {store : Store}
    (changes : r.store.database.Changes store.database)
    (unmoved : r.store.database.Unmoved en.role store.database) :
    en.Remembers { r with store } events :=
  ⟨h.inStep.other (h.inStep.legible.changes changes) unmoved rfl, h.source, h.reached,
    fun e he i => (h.stored e he i).mono changes.rows_prefix⟩

/-- An engine that resumes where another has left off goes by the same checkpoint. -/
theorem Remembers.resumed (h : en.Remembers r events) {r' : Resources} {en' : Engine}
    (changes : r.store.database.Changes r'.store.database)
    (unmoved : r.store.database.Unmoved en.role r'.store.database)
    (created : resume en.role r'.store = .ok en') :
    en'.role = en.role ∧ en'.Remembers r' events := by
  have hlegible := h.inStep.legible.changes changes
  obtain ⟨hrole, -, hin⟩ := resume_inStep hlegible created
  have hcheckpoint : en'.checkpoint = en.checkpoint := by
    rw [hin.synced, hrole, unmoved.position h.inStep.legible hlegible, h.inStep.synced]
  refine ⟨hrole, hin, ?_, ?_, ?_⟩
  · rw [hrole]
    exact h.source
  · rw [hcheckpoint]
    exact h.reached
  · exact fun e he i => (h.stored e he i).mono changes.rows_prefix

end Engine

namespace Course

/-- The chain's engine remembers what earlier engines of the chain have committed, and what it has
committed itself. -/
structure Recalls (role : Role) (past : List Event) (c : Course) : Prop where
  role : c.engine.role = role
  remembers : c.engine.Remembers c.resources (past ++ c.committed)

variable {role : Role} {past : List Event} {c : Course}

theorem Recalls.step (h : c.Recalls role past) {x : Happening} (sole : ¬c.Interferes role x) :
    (c.step x).Recalls role past := by
  rw [← h.role] at sole
  obtain hs | ⟨e, m, hm, hs⟩ | ⟨signal, hs⟩ | ⟨store, changes, unmoved, hs⟩ := c.step_cases sole
  · rw [hs]
    exact h
  · have hstores := h.remembers.inStep.moves_stores hm
    rw [hs]
    refine ⟨hstores.keeps.role.trans h.role, ?_⟩
    obtain ⟨⟨i, hi⟩, hcommitted⟩ | ⟨-, hcommitted⟩ := c.committed_after e m
    · rw [hcommitted, ← List.append_assoc]
      exact hstores.remembers_committed h.remembers hi
    · rw [hcommitted]
      exact hstores.remembers h.remembers
  · obtain ⟨hin, hsource, hreached, hstored⟩ := h.remembers
    rw [hs]
    exact ⟨h.role, ⟨hin.legible, hin.synced, hin.inHand⟩, hsource, hreached, hstored⟩
  · rw [hs]
    exact ⟨h.role, h.remembers.other changes unmoved⟩

theorem Recalls.run (h : c.Recalls role past) {happenings : List Happening}
    (sole : c.Sole role happenings) : (c.run happenings).Recalls role past := by
  induction happenings generalizing c with
  | nil => exact h
  | cons x rest ih => exact ih (h.step sole.1) sole.2

end Course

/-- What is done with a database to start a node on it again. -/
def Operation.Restarts : Operation → Prop
  | .reopen | .close | .ensureCheckpoint _ | .read => True
  | _ => False

namespace Holding

theorem step_unmoved (role : Role) (h : Holding) {o : Operation} (restarts : o.Restarts) :
    h.database.Unmoved role (h.step o).database := by
  have hprepare : h.database.Unmoved role h.database.prepare :=
    .inl (Database.checkpointRow_prepare ..)
  cases h with
  | closed db =>
    cases o with
    | reopen =>
      simp only [step, database_reopen]
      exact hprepare
    | _ => exact .refl role db
  | opened s =>
    cases o with
    | reopen =>
      simp only [step, database_reopen]
      exact hprepare
    | ensureCheckpoint created => exact s.ensureCheckpoint_unmoved role created
    | close | read => exact .refl role s.database
    | write fault b => cases restarts
    | advance moved transactionId ledger => cases restarts
    | die steps => cases restarts

theorem run_unmoved (role : Role) (h : Holding) {operations : List Operation}
    (restarts : ∀ o ∈ operations, o.Restarts) :
    h.database.Unmoved role (h.run operations).database := by
  induction operations generalizing h with
  | nil => exact .refl role h.database
  | cons o rest ih =>
    obtain ⟨ho, hrest⟩ := List.forall_mem_cons.mp restarts
    exact (h.step_unmoved role ho).trans (ih (h.step o) hrest)

end Holding

namespace Course

/-- The lives of a chain's engines, one after the other, with the events that the earlier ones have
committed. The first begins on whatever was made of an empty file, each later one after a
restart. -/
inductive Lived (role : Role) : List Event → Course → Prop
  | born {operations : List Operation} {r : Resources} {en : Engine}
      (reached : Holding.fresh.run operations = .opened r.store)
      (created : Engine.resume role r.store = .ok en) : Lived role [] (start en r)
  | goes {past : List Event} {c : Course} (before : Lived role past c)
      {happenings : List Happening} (sole : c.Sole role happenings) :
      Lived role past (c.run happenings)
  | again {past : List Event} {c : Course} (before : Lived role past c)
      {operations : List Operation} (restarts : ∀ o ∈ operations, o.Restarts) {r : Resources}
      {en : Engine} (reached : (Holding.opened c.resources.store).run operations = .opened r.store)
      (created : Engine.resume role r.store = .ok en) :
      Lived role (past ++ c.committed) (start en r)

theorem Lived.recalls {role : Role} {past : List Event} {c : Course} (h : Lived role past c) :
    c.Recalls role past := by
  induction h with
  | born reached created =>
    obtain ⟨hrole, -, hin⟩ := Engine.resume_inStep (Holding.opened_legible reached) created
    exact ⟨hrole, hin.remembers_none⟩
  | goes before sole ih => exact ih.run sole
  | again before restarts reached created ih =>
    rename_i past c operations r en
    have hchanges := (Holding.opened c.resources.store).run_changes operations
    have hunmoved := (Holding.opened c.resources.store).run_unmoved c.engine.role restarts
    rw [reached] at hchanges hunmoved
    rw [← ih.role] at created
    obtain ⟨hrole, hremembers⟩ := ih.remembers.resumed hchanges hunmoved created
    refine ⟨hrole.trans ih.role, ?_⟩
    rw [show (start en r).committed = [] from rfl, List.append_nil]
    exact hremembers

end Course

/-- So many events are counted as discarded, or as processed although they were stored. -/
def Tally.Repeats (t : Tally) (n : Nat) (t' : Tally) : Prop :=
  ∃ discarded duplicates faults, discarded + duplicates = n ∧ t' = { t with
    processed := t.processed + duplicates
    duplicates := t.duplicates + duplicates
    discarded := t.discarded + discarded
    faults }

theorem Tally.Repeats.trans {t t' t'' : Tally} {n m : Nat} (h : t.Repeats n t')
    (h' : t'.Repeats m t'') : t.Repeats (n + m) t'' := by
  obtain ⟨discarded, duplicates, faults, rfl, rfl⟩ := h
  obtain ⟨discarded', duplicates', faults', rfl, rfl⟩ := h'
  refine ⟨discarded + discarded', duplicates + duplicates', faults', by omega, ?_⟩
  simp only [Nat.add_assoc]

theorem Database.mark_mark (db : Database) {e f : Event} (h : f.source = e.source) :
    (db.mark f).mark e = db.mark e := by
  rw [mark, mark, h, setCheckpoint_setCheckpoint]
  rfl

namespace Engine

/-- No row has come, and the checkpoint is on its ledger, where it may be at one of the events. -/
structure Stays (en : Engine) (r : Resources) (fed : List Event) (en' : Engine) (r' : Resources) :
    Prop where
  role : en'.role = en.role
  ledger : en'.checkpoint.ledgerSequence = en.checkpoint.ledgerSequence
  database : r'.store.database = r.store.database ∨
    ∃ e ∈ fed, e.source = en.role ∧ e.ledgerSequence = en.checkpoint.ledgerSequence ∧
      r'.store.database = r.store.database.mark e
  inserted : r'.store.counts.inserted = r.store.counts.inserted
  healthy : r.store.poisoned = false → r'.store.poisoned = false

variable {en en' : Engine} {r r' : Resources} {e : Event} {events fed fed' : List Event}

theorem Stays.unchanged (role : en'.role = en.role) (checkpoint : en'.checkpoint = en.checkpoint)
    (store : r'.store = r.store) : en.Stays r fed en' r' := by
  refine ⟨role, ?_, .inl ?_, ?_, ?_⟩
  · rw [checkpoint]
  · rw [store]
  · rw [store]
  · rw [store]
    exact id

theorem Stays.trans {en'' : Engine} {r'' : Resources} (h : en.Stays r fed en' r')
    (h' : en'.Stays r' fed' en'' r'') : en.Stays r (fed ++ fed') en'' r'' := by
  refine ⟨h'.role.trans h.role, h'.ledger.trans h.ledger, ?_, h'.inserted.trans h.inserted,
    fun healthy => h'.healthy (h.healthy healthy)⟩
  rcases h'.database with hd' | ⟨e', he', hs', hl', hd'⟩
  · rcases h.database with hd | ⟨e, he, hs, hl, hd⟩
    · exact .inl (hd'.trans hd)
    · exact .inr ⟨e, List.mem_append_left _ he, hs, hl, hd'.trans hd⟩
  · rw [h.role] at hs'
    rw [h.ledger] at hl'
    refine .inr ⟨e', List.mem_append_right _ he', hs', hl', ?_⟩
    rw [hd']
    rcases h.database with hd | ⟨e, he, hs, hl, hd⟩
    · rw [hd]
    · rw [hd, Database.mark_mark _ (hs.trans hs'.symm)]

/-- What is committed again is found to be stored, and lies on the checkpoint's ledger. -/
theorem Remembers.committed_again (h : en.Remembers r events) (he : e ∈ events)
    (hnew : alreadySeen en.checkpoint e = false) (waited : r.Waited r') {i : Insertion}
    {store : Store} (hw : r.store.write (commitBatch en.role (r.signer.identity.attest e)) =
      (⟨[.insertion i, .advanced], none⟩, store)) {m : Move}
    (hm : m = en.committed { r' with store } e i) :
    (∃ x, m.outcome = some (.committed (.exists x))) ∧ en.Stays r [e] m.engine m.resources ∧
      (r.tallies.get en.role).Repeats 1 (m.resources.tallies.get en.role) := by
  have hblocks := h.stored e he r.signer.identity
  have hl : e.ledgerSequence = en.checkpoint.ledgerSequence :=
    UInt32.le_antisymm (h.reached e he).1 (not_seen_reaches hnew)
  obtain ⟨i, hi, -, hw'⟩ | ⟨error, hf, -⟩ :=
    r.store.write_commitBatch_cases en.role (r.signer.identity.attest e)
  · rw [Database.record_of_blocks hblocks] at hw'
    cases hw.symm.trans hw'
    rw [hm]
    cases i with
    | inserted => exact absurd hblocks (hi.mp rfl)
    | «exists» x =>
      refine ⟨⟨x, rfl⟩, ⟨rfl, hl, .inr ⟨e, by simp, h.source e he, hl, ?_⟩, rfl, fun _ => rfl⟩, ?_⟩
      · rw [Database.mark, h.source e he]
        rfl
      · obtain ⟨faults, ht⟩ := waited.tallies en.role
        refine ⟨0, 1, faults, rfl, ?_⟩
        unfold committed
        rw [Resources.tally_get_self, ht]
        rfl
  · rw [hw] at hf
    cases hf

/-- An event that was committed before is discarded, or found to be stored, or it does not come to
its end. -/
theorem Remembers.process_again (h : en.Remembers r events) (he : e ∈ events)
    (chances : List Chance) :
    en.Stays r [e] (en.process r e chances).engine (en.process r e chances).resources ∧
    (((en.process r e chances).outcome = some .discarded ∨
        ∃ x, (en.process r e chances).outcome = some (.committed (.exists x))) ∧
        (r.tallies.get en.role).Repeats 1
          ((en.process r e chances).resources.tallies.get en.role) ∨
      (en.process r e chances).outcome = none ∨
      (en.process r e chances).outcome = some .abandoned ∨
      ∃ error, (en.process r e chances).outcome = some (.failed error)) := by
  obtain ⟨hs, -⟩ | ⟨-, ⟨-, ht⟩ | ⟨hnew, ht⟩⟩ := en.take_cases r e
  · exact absurd (h.source e he) hs
  · rw [process_turned_away ht]
    refine ⟨.unchanged rfl rfl rfl, .inl ⟨.inl rfl, 1, 0, (r.tallies.get en.role).faults, rfl, ?_⟩⟩
    rw [Resources.tally_get_self]
    rfl
  · rw [process_in_hand ht]
    obtain ⟨i, r', store, hr, hw, hf⟩ | ⟨outcome, phase, r', hr, hf, ho⟩ :=
      finish_whole (en.writing_phase e _) { r with signer := r.signer.count } chances
    · have hwaited : r.Waited { r' with signer := r.signer } := ⟨rfl, hr.store, hr.tallies⟩
      obtain ⟨hx, hstays, hrepeats⟩ := h.committed_again he hnew hwaited hw rfl
      rw [hf]
      exact ⟨⟨rfl, hstays.ledger, hstays.database, hstays.inserted, hstays.healthy⟩,
        .inl ⟨.inr hx, hrepeats⟩⟩
    · rw [hf]
      refine ⟨.unchanged rfl rfl hr.store, .inr ?_⟩
      rcases ho with ho | ⟨-, ho | ho⟩
      · exact .inl ho
      · exact .inr (.inl ho)
      · exact .inr (.inr ho)

theorem deliver_rest {chances : List Chance}
    (h : (en.process r e chances).outcome = some .discarded ∨
      ∃ i, (en.process r e chances).outcome = some (.committed i))
    (rest : List (Event × List Chance)) :
    ∃ committed, en.deliver r ((e, chances) :: rest) =
      { (en.process r e chances).engine.deliver (en.process r e chances).resources rest with
        committed } := by
  rcases h with h | ⟨i, h⟩
  · exact ⟨_, by simp only [deliver, h]; rfl⟩
  · exact ⟨_, by simp only [deliver, h]; rfl⟩

/-- By induction on the events: each finds an engine that remembers them all. -/
theorem Remembers.deliver (h : en.Remembers r events) {feed : List (Event × List Chance)}
    (again : ∀ p ∈ feed, p.1 ∈ events) :
    en.Stays r (feed.map (·.1)) (en.deliver r feed).engine (en.deliver r feed).resources ∧
    (en.deliver r feed).engine.Remembers (en.deliver r feed).resources events ∧
    ((en.deliver r feed).done = true → (r.tallies.get en.role).Repeats feed.length
      ((en.deliver r feed).resources.tallies.get en.role)) := by
  induction feed generalizing en r with
  | nil => exact ⟨.unchanged rfl rfl rfl, h, fun _ => ⟨0, 0, _, rfl, rfl⟩⟩
  | cons p feed ih =>
    obtain ⟨e, chances⟩ := p
    obtain ⟨he, hrest⟩ := List.forall_mem_cons.mp again
    have hremembers := (h.inStep.process_stores e chances).remembers h
    obtain ⟨hstays, hout⟩ := h.process_again he chances
    rcases hout with ⟨hends, hrepeats⟩ | hstop
    · obtain ⟨committed, hd⟩ := deliver_rest (hends.imp_right fun ⟨x, hx⟩ => ⟨_, hx⟩) feed
      obtain ⟨hrest, hremembers, hdone⟩ := ih hremembers hrest
      rw [hstays.role] at hdone
      rw [hd]
      refine ⟨hstays.trans hrest, hremembers, fun done => ?_⟩
      rw [List.length_cons, Nat.add_comm]
      exact hrepeats.trans (hdone done)
    · rw [deliver_stopped hstop]
      refine ⟨hstays.trans (.unchanged rfl rfl rfl), hremembers, nofun⟩

/-- While the node goes on and the store is in order, faults that pass do not keep an event from its
end. -/
theorem InStep.process_running (h : en.InStep r) (own : e.source = en.role)
    (healthy : r.store.poisoned = false) (running : r.signal.stops = false)
    (faults : List Fault) :
    ((en.process r e (Chance.afterFaults faults)).outcome = some .discarded ∨
        ∃ i, (en.process r e (Chance.afterFaults faults)).outcome = some (.committed i)) ∧
      (en.process r e (Chance.afterFaults faults)).resources.store.poisoned = false ∧
      (en.process r e (Chance.afterFaults faults)).resources.signal.stops = false := by
  have hkeeps := h.take_keeps e
  obtain ⟨hs, -⟩ | ⟨-, ⟨-, ht⟩ | ⟨-, ht⟩⟩ := en.take_cases r e
  · exact absurd own hs
  · rw [process_turned_away ht]
    exact ⟨.inl rfl, healthy, running⟩
  · rw [ht] at hkeeps
    obtain ⟨hm, hsignal⟩ := finish_faults (hkeeps.inStep.holds healthy (.inl rfl)) running faults
    rw [process_in_hand ht]
    refine ⟨.inr hm.outcome, hm.healthy, ?_⟩
    rw [hsignal]
    exact running

theorem Remembers.deliver_done (h : en.Remembers r events) (healthy : r.store.poisoned = false)
    (running : r.signal.stops = false) {feed : List (Event × List Chance)}
    (again : ∀ p ∈ feed, p.1 ∈ events)
    (passing : ∀ p ∈ feed, ∃ faults, p.2 = Chance.afterFaults faults) :
    (en.deliver r feed).done = true := by
  induction feed generalizing en r with
  | nil => rfl
  | cons p feed ih =>
    obtain ⟨e, chances⟩ := p
    obtain ⟨he, hrest⟩ := List.forall_mem_cons.mp again
    obtain ⟨⟨faults, rfl⟩, hpassing⟩ := List.forall_mem_cons.mp passing
    obtain ⟨hends, hhealthy, hrunning⟩ :=
      h.inStep.process_running (h.source e he) healthy running faults
    obtain ⟨committed, hd⟩ := deliver_rest hends feed
    rw [hd]
    exact ih ((h.inStep.process_stores e _).remembers h) hhealthy hrunning hrest hpassing

theorem Stays.rows (h : en.Stays r fed en' r') (kind : TransferKind) (direction : Direction) :
    r'.store.database.rows kind direction = r.store.database.rows kind direction := by
  rcases h.database with hd | ⟨e, -, -, -, hd⟩
  · rw [hd]
  · rw [hd]
    exact Database.rows_setCheckpoint ..

theorem Stays.other (h : en.Stays r fed en' r') {other : Role} (ne : other ≠ en.role) :
    r'.store.database.checkpoint other = r.store.database.checkpoint other := by
  rcases h.database with hd | ⟨e, -, hs, -, hd⟩
  · rw [hd]
  · rw [← hs] at ne
    rw [hd]
    exact Database.checkpoint_setCheckpoint_other _ ne _

/-- The stored checkpoint stays, or its transaction has become that of one of the events. -/
theorem Remembers.stored_stays (h : en.Remembers r events) (again : ∀ e ∈ fed, e ∈ events)
    (stays : en.Stays r fed en' r') :
    ∃ found found', r.store.database.checkpoint en.role = .ok found ∧
      r'.store.database.checkpoint en.role = .ok found' ∧
      (found' = found ∨ ∃ current, found = some current ∧
        ∃ e ∈ fed, e.ledgerSequence = current.ledgerSequence ∧
          found' = some { current with transactionId := some e.transactionId }) := by
  have hlegible := h.inStep.legible
  obtain ⟨found, hfound, -⟩ := h.inStep.stored
  rcases stays.database with hd | ⟨e, he, hs, hl, hd⟩
  · refine ⟨found, found, hfound, ?_, .inl rfl⟩
    rw [hd]
    exact hfound
  · have hmoved := Database.checkpoint_setCheckpoint hlegible.tabled e.source
      (some e.transactionId) e.ledgerSequence
    have hsynced := h.inStep.synced
    obtain ⟨-, -, hp⟩ | ⟨transactionId, n, -, hc, hp⟩ := hlegible.position en.role
    · rw [hp] at hsynced
      exact absurd (congrArg Checkpoint.transactionId hsynced) (h.reached e (again e he)).2
    · rw [hsynced, hp] at hl
      refine ⟨_, _, hc, ?_, .inr ⟨_, rfl, e, he, hl, rfl⟩⟩
      rw [hd, Database.mark, ← hs, hmoved, hl]

end Engine

namespace Course

/-- Events come again. The engines of a chain have lived one after the other, alone in advancing its
checkpoint, and have committed events; any of these are delivered again, in any order and with any
repetitions, whatever writes fail. No row comes or changes, and the other chain's checkpoint stays.
The chain's own stays on its ledger, where it may move to one of the events. If all of them come to
their end, each is counted as discarded or as a duplicate; and they do come to their end, faults
that pass notwithstanding, while the node goes on and the store is in order. -/
theorem redelivered_in_any_order {role : Role} {past : List Event} {c : Course}
    (lived : Lived role past c) {feed : List (Event × List Engine.Chance)}
    (again : ∀ p ∈ feed, p.1 ∈ past ++ c.committed) :
    let d := c.engine.deliver c.resources feed
    (∀ kind direction,
      d.database.rows kind direction = c.resources.store.database.rows kind direction) ∧
    d.resources.store.counts.inserted = c.resources.store.counts.inserted ∧
    (∀ other, other ≠ role →
      d.database.checkpoint other = c.resources.store.database.checkpoint other) ∧
    (∃ found found', c.resources.store.database.checkpoint role = .ok found ∧
      d.database.checkpoint role = .ok found' ∧
      d.engine.checkpoint = found'.getD ⟨role, none, 0⟩ ∧
      (found' = found ∨ ∃ current, found = some current ∧
        ∃ e ∈ feed.map (·.1), e.ledgerSequence = current.ledgerSequence ∧
          found' = some { current with transactionId := some e.transactionId })) ∧
    (d.done = true → (c.resources.tallies.get role).Repeats feed.length
      (d.resources.tallies.get role)) ∧
    (c.resources.store.poisoned = false → c.resources.signal.stops = false →
      (∀ p ∈ feed, ∃ faults, p.2 = Engine.Chance.afterFaults faults) → d.done = true) := by
  intro d
  obtain ⟨hrole, hremembers⟩ := lived.recalls
  obtain ⟨hstays, hremembers', hrepeats⟩ := hremembers.deliver again
  have hfed : ∀ e ∈ feed.map (·.1), e ∈ past ++ c.committed := by
    simpa using again
  obtain ⟨found, found', hfound, hfound', hmoved⟩ := hremembers.stored_stays hfed hstays
  obtain ⟨stored, hstored, hcheckpoint⟩ := hremembers'.inStep.stored
  rw [hstays.role] at hstored hcheckpoint
  cases hfound'.symm.trans hstored
  rw [hrole] at hfound hfound' hcheckpoint hrepeats
  refine ⟨hstays.rows, hstays.inserted, ?_, ⟨found, found', hfound, hfound', hcheckpoint, hmoved⟩,
    hrepeats, ?_⟩
  · intro other ne
    rw [← hrole] at ne
    exact hstays.other ne
  · intro healthy running passing
    exact hremembers.deliver_done healthy running again passing

def sameLedgerClaim : Event :=
  .claim (.sample "B" 9 10) 1 none

def sameLedgerCreation : Event :=
  .createAccount (.sample "D" 9 20) 1 (.native 1) Bridge.sample.issuingDoor

/-- Both are committed, the claim first. -/
def commitsBoth : List Happening :=
  [.process sameLedgerClaim [.none], .process sameLedgerCreation [.none]]

/-- The engine that a node with another identity then starts. -/
def restarted : Course :=
  .start ⟨.locking, ⟨.locking, some "D", 9⟩, .idle⟩ ⟨.ofIdentity (.sample 1),
    ⟨(movedCourse.run commitsBoth).resources.store.database, .zero, false⟩, .running, .both .zero⟩

/-- The claim comes first again, and last. -/
def shuffled : List (Event × List Engine.Chance) :=
  [(sameLedgerClaim, [⟨none, some .io⟩, .none]), (sameLedgerCreation, [.none]),
    (sameLedgerCreation, [.none]), (sameLedgerClaim, [.none])]

theorem redelivered_in_any_order_shuffled :
    Lived .locking (movedCourse.run commitsBoth).committed restarted ∧
    (∀ p ∈ shuffled, p.1 ∈ (movedCourse.run commitsBoth).committed ++ restarted.committed) ∧
    (restarted.engine.deliver restarted.resources shuffled).done = true ∧
    (∀ kind direction,
      (restarted.engine.deliver restarted.resources shuffled).database.rows kind direction =
        restarted.resources.store.database.rows kind direction) ∧
    (restarted.resources.tallies.get .locking).Repeats 4
      ((restarted.engine.deliver restarted.resources shuffled).resources.tallies.get .locking) := by
  have reached : Holding.fresh.run movedOnce = .opened movedCourse.resources.store := rfl
  have sole : movedCourse.Sole .locking commitsBoth := ⟨id, id, trivial⟩
  have reopened : (Holding.opened (movedCourse.run commitsBoth).resources.store).run [.reopen] =
      .opened restarted.resources.store := rfl
  have restarts : ∀ o ∈ [Operation.reopen], o.Restarts := by
    simp [Operation.Restarts]
  have born : Lived .locking [] movedCourse := .born reached rfl
  have lived : Lived .locking (movedCourse.run commitsBoth).committed restarted :=
    (born.goes sole).again restarts reopened rfl
  have again : ∀ p ∈ shuffled,
      p.1 ∈ (movedCourse.run commitsBoth).committed ++ restarted.committed := by
    have hcommitted : (movedCourse.run commitsBoth).committed ++ restarted.committed =
        [sameLedgerClaim, sameLedgerCreation] := rfl
    rw [hcommitted]
    simp [shuffled]
  obtain ⟨hrows, -, -, -, hrepeats, hdone⟩ := redelivered_in_any_order lived again
  have passing : ∀ p ∈ shuffled, ∃ faults, p.2 = Engine.Chance.afterFaults faults := by
    intro p hp
    simp only [shuffled, List.mem_cons, List.not_mem_nil, or_false] at hp
    rcases hp with rfl | rfl | rfl | rfl
    · exact ⟨[.io], rfl⟩
    all_goals exact ⟨[], rfl⟩
  have done := hdone rfl rfl passing
  exact ⟨lived, again, done, hrows, hrepeats done⟩

end Course

end Attestor

import Attestor.Proofs.BatchEffect

namespace Attestor

namespace Draft

/-- A checkpoint that is ahead of the ledger refuses to move. -/
theorem advance_regresses {d : Draft} (h : d.database.Legible) {role : Role} {row : CheckpointRow}
    {ledger : UInt32} (hrow : d.database.checkpointRow? role = some row)
    (ahead : ¬row.ledgerSequence ≤ ledger.toUInt64.toInt64) (transactionId : String) :
    ∃ current, d.advance role transactionId ledger = .error (.regression role current ledger) := by
  obtain ⟨hn, -⟩ | ⟨found, n, -, hs, -⟩ := h.position role
  · cases hrow.symm.trans hn
  · obtain ⟨table, ht⟩ := Option.ne_none_iff_exists'.mp h.tabled
    rw [Database.checkpointRow?, ht, Option.bind_some] at hrow
    unfold advance
    simp only [ht, hrow, ahead, decide_false, Bool.false_eq_true, ↓reduceIte, hs]
    exact ⟨_, rfl⟩

/-- The batch of an event, if it comes to its end. -/
theorem run_commitBatch {role : Role} {a : Attestation} {d d' : Draft} {answers : List StepAnswer}
    (h : run false (Engine.commitBatch role a).steps d = (answers, .ok d')) :
    ∃ i, answers = [.insertion i, .advanced] ∧ (i = .inserted ↔ ¬d.database.Blocks a) ∧
      d.database.checkpoints ≠ none ∧ d'.database = (d.database.record a).setCheckpoint role
        ⟨some a.transactionId, a.ledgerSequence.toUInt64.toInt64⟩ := by
  obtain ⟨x, hx, hstep⟩ := commitBatch_steps role a
  rw [hx] at h
  obtain ⟨answer, d₁, rest, rfl, hrest, hs | ⟨hl, -⟩⟩ := run_cons h
  · rw [hstep] at hs
    obtain ⟨⟨i, d₁⟩, hi, he⟩ := Except.map_ok hs
    cases he
    obtain ⟨hd, hnew, -⟩ := insert_record hi
    obtain ⟨answer, d₂, rest, rfl, hend, hs | ⟨hl, -⟩⟩ := run_cons hrest
    · obtain ⟨d₂, ha, he⟩ := Except.map_ok hs
      cases he
      cases hend
      obtain ⟨table, ht, -, rfl⟩ := advance_cases ha
      refine ⟨i, rfl, hnew, ?_, ?_⟩
      · rw [← Database.checkpoints_record d.database a, ← hd, ht]
        exact nofun
      · rw [hd]
    · cases hl
  · cases hl

end Draft

namespace Store

/-- The batch of an event takes effect as a whole, or fails and leaves the store as it was. -/
theorem write_commitBatch_cases (s : Store) (role : Role) (a : Attestation) :
    (∃ i, (i = .inserted ↔ ¬s.database.Blocks a) ∧ s.database.checkpoints ≠ none ∧
      s.write (Engine.commitBatch role a) = (⟨[.insertion i, .advanced], none⟩,
        ⟨(s.database.record a).setCheckpoint role
            ⟨some a.transactionId, a.ledgerSequence.toUInt64.toInt64⟩,
          s.counts.add (.ofAnswers [.insertion i, .advanced]), false⟩)) ∨
    ∃ error, (s.write (Engine.commitBatch role a)).1.failure = some error ∧
      (s.write (Engine.commitBatch role a)).2 = s := by
  obtain ⟨hf, ht, -⟩ | ⟨answers, d, -, hr, -, hw⟩ := s.write_cases (Engine.commitBatch role a)
  · obtain ⟨error, he⟩ := Option.ne_none_iff_exists'.mp hf
    exact .inr ⟨error, he, ht⟩
  · obtain ⟨i, rfl, hnew, htabled, hdb⟩ := Draft.run_commitBatch hr
    rw [Draft.run_counts hr, hdb] at hw
    exact .inl ⟨i, hnew, htabled, hw⟩

/-- Where all can be read, no failure but a fault's may pass. -/
theorem write_commitBatch_failure {s : Store} (h : s.database.Legible) {a : Attestation}
    (ha : a.Storable) {error : StoreError}
    (hf : (s.write (Engine.commitBatch a.direction.source a)).1.failure = some error) :
    error.isTransient = false := by
  cases hp : s.poisoned with
  | true =>
    rw [write, hp] at hf
    cases hf
    rfl
  | false =>
    by_cases hreaches : s.database.Reaches a
    · obtain ⟨i, counts, -, hw⟩ := write_commitBatch hp h ha hreaches
      rw [hw] at hf
      cases hf
    · simp only [Database.Reaches, not_forall] at hreaches
      obtain ⟨row, hrow, hahead⟩ := hreaches
      obtain ⟨i, d, hi⟩ := Draft.insert_succeeds (d := .ofDatabase s.database) h ha
      obtain ⟨hd, -, -⟩ := Draft.insert_record hi
      have hl : d.database.Legible := by
        rw [hd]
        exact h.record ha
      have hrow' : d.database.checkpointRow? a.direction.source = some row := by
        rw [hd]
        exact (Database.checkpointRow_record ..).trans hrow
      obtain ⟨current, hc⟩ := Draft.advance_regresses hl hrow' hahead a.transactionId
      obtain ⟨x, hx, hstep⟩ := Draft.commitBatch_steps a.direction.source a
      have hrun : Draft.run false (Engine.commitBatch a.direction.source a).steps
          (.ofDatabase s.database) = ([.insertion i],
            .error (.regression a.direction.source current a.ledgerSequence)) := by
        rw [hx, Draft.run, hstep, hi]
        simp only [Draft.run, Draft.step, hc, Except.map, Bool.false_eq_true, ↓reduceIte]
      unfold write at hf
      simp only [hp, Bool.false_eq_true, ↓reduceIte] at hf
      rw [show (Engine.commitBatch a.direction.source a).lenient = false from rfl, hrun] at hf
      cases hf
      rfl

end Store

/-- What has become of a node's resources while an engine waited: writes have failed, and signals
have come. -/
structure Resources.Waited (r r' : Resources) : Prop where
  signer : r'.signer = r.signer
  store : r'.store = r.store
  tallies : ∀ role, ∃ faults, r'.tallies.get role = { r.tallies.get role with faults }

namespace Resources

variable {r r' r'' : Resources}

theorem tally_get_self (r : Resources) (role : Role) (f : Tally → Tally) :
    (r.tally role f).tallies.get role = f (r.tallies.get role) :=
  ByRole.get_set_self ..

theorem tally_get_other (r : Resources) {role other : Role} (h : other ≠ role)
    (f : Tally → Tally) : (r.tally role f).tallies.get other = r.tallies.get other :=
  ByRole.get_set_of_ne _ h _

theorem Waited.refl (r : Resources) : r.Waited r :=
  ⟨rfl, rfl, fun _ => ⟨_, rfl⟩⟩

theorem Waited.trans (h : Waited r r') (h' : Waited r' r'') : Waited r r'' := by
  refine ⟨h'.signer.trans h.signer, h'.store.trans h.store, ?_⟩
  intro role
  obtain ⟨m, hm⟩ := h.tallies role
  obtain ⟨n, hn⟩ := h'.tallies role
  exact ⟨n, by rw [hn, hm]⟩

theorem waited_signal (r : Resources) (signal : Signal) : r.Waited { r with signal } :=
  ⟨rfl, rfl, fun _ => ⟨_, rfl⟩⟩

theorem waited_fault (r : Resources) (role : Role) :
    r.Waited (r.tally role fun t => { t with faults := t.faults + 1 }) := by
  refine ⟨rfl, rfl, ?_⟩
  intro other
  by_cases ho : other = role
  · subst ho
    exact ⟨_, tally_get_self ..⟩
  · exact ⟨_, tally_get_other r ho _⟩

end Resources

namespace Engine

/-- An event is rejected, discarded, or signed and taken in hand. -/
theorem take_cases (en : Engine) (r : Resources) (e : Event) :
    (e.source ≠ en.role ∧ en.take r e = ⟨some .rejected, en,
      r.tally en.role fun t => { t with rejected := t.rejected + 1 }⟩) ∨
    e.source = en.role ∧ (alreadySeen en.checkpoint e = true ∧ en.take r e = ⟨some .discarded, en,
        r.tally en.role fun t => { t with discarded := t.discarded + 1 }⟩ ∨
      alreadySeen en.checkpoint e = false ∧ en.take r e = ⟨none,
        { en with phase := .writing e (r.signer.identity.attest e) },
        { r with signer := r.signer.count }⟩) := by
  unfold take
  by_cases hs : e.source = en.role
  · rw [if_neg (not_not.mpr hs)]
    refine .inr ⟨hs, ?_⟩
    cases alreadySeen en.checkpoint e with
    | true => exact .inl ⟨rfl, rfl⟩
    | false => exact .inr ⟨rfl, rfl⟩
  · exact .inl ⟨hs, if_pos hs⟩

/-- A write that fails leaves the event in hand if the failure may pass, and else ends it. -/
theorem write_failed {en : Engine} {r : Resources} {a : Attestation} (fault : Option Fault)
    {error : StoreError}
    (hf : (r.store.writeUnder fault (commitBatch en.role a)).1.failure = some error)
    (hs : (r.store.writeUnder fault (commitBatch en.role a)).2 = r.store) (e : Event) :
    error.isTransient = true ∧ en.write r e a fault = ⟨none, { en with phase := .waiting e a },
        r.tally en.role fun t => { t with faults := t.faults + 1 }⟩ ∨
      error.isTransient = false ∧ en.write r e a fault =
        ⟨some (.failed error), { en with phase := .idle },
          r.tally en.role fun t => { t with faults := t.faults + 1 }⟩ := by
  unfold write
  revert hf hs
  rcases r.store.writeUnder fault (commitBatch en.role a) with ⟨⟨answers, failure⟩, store⟩
  intro hf hs
  cases hf
  cases hs
  simp only [Option.getD_some]
  cases error.isTransient with
  | true => exact .inl ⟨rfl, rfl⟩
  | false => exact .inr ⟨rfl, rfl⟩

/-- A write commits the event in hand, or fails. -/
theorem write_cases (en : Engine) (r : Resources) (e : Event) (a : Attestation)
    (fault : Option Fault) :
    (∃ i store, r.store.write (commitBatch en.role a) =
        (⟨[.insertion i, .advanced], none⟩, store) ∧
      en.write r e a fault = en.committed { r with store } e i) ∨
    ∃ error, (fault = none →
        (r.store.write (commitBatch en.role a)).1.failure = some error) ∧
      (error.isTransient = true ∧ en.write r e a fault =
          ⟨none, { en with phase := .waiting e a },
            r.tally en.role fun t => { t with faults := t.faults + 1 }⟩ ∨
        error.isTransient = false ∧ en.write r e a fault =
          ⟨some (.failed error), { en with phase := .idle },
            r.tally en.role fun t => { t with faults := t.faults + 1 }⟩) := by
  cases fault with
  | some f =>
    obtain ⟨hf, hs⟩ := r.store.writeUnder_fault_fails f (commitBatch en.role a)
    obtain ⟨error, he⟩ := Option.ne_none_iff_exists'.mp hf
    exact .inr ⟨error, nofun, write_failed f he hs e⟩
  | none =>
    obtain ⟨i, -, -, hw⟩ | ⟨error, hf, hs⟩ := r.store.write_commitBatch_cases en.role a
    · refine .inl ⟨i, _, hw, ?_⟩
      unfold write
      simp only [Store.writeUnder, hw]
    · exact .inr ⟨error, fun _ => hf, write_failed none hf hs e⟩

theorem writing_phase (en : Engine) (e : Event) (a : Attestation) :
    ({ en with phase := .writing e a } : Engine).phase = .writing e a ∨
      ({ en with phase := .writing e a } : Engine).phase = .waiting e a :=
  .inl rfl

theorem waiting_phase (en : Engine) (e : Event) (a : Attestation) :
    ({ en with phase := .waiting e a } : Engine).phase = .writing e a ∨
      ({ en with phase := .waiting e a } : Engine).phase = .waiting e a :=
  .inr rfl

/-- What the turns with an event in hand come to: one write commits it, or it stays in hand, or it
ends without having left anything behind. -/
theorem finish_whole {en : Engine} {e : Event} {a : Attestation}
    (hand : en.phase = .writing e a ∨ en.phase = .waiting e a) (r : Resources)
    (chances : List Chance) :
    (∃ i r' store, r.Waited r' ∧ r.store.write (commitBatch en.role a) =
        (⟨[.insertion i, .advanced], none⟩, store) ∧
      en.finish r chances = en.committed { r' with store } e i) ∨
    ∃ outcome phase r', r.Waited r' ∧ en.finish r chances = ⟨outcome, { en with phase }, r'⟩ ∧
      (outcome = none ∨ phase = .idle ∧
        (outcome = some .abandoned ∨ ∃ error, outcome = some (.failed error))) := by
  induction chances generalizing en r with
  | nil => exact .inr ⟨none, en.phase, r, .refl r, rfl, .inl rfl⟩
  | cons c rest ih =>
    have hsignal := r.waited_signal (c.signal.getD r.signal)
    simp only [finish]
    obtain ⟨-, ht⟩ | ht := turn_cases hand { r with signal := c.signal.getD r.signal } c.fault
    · rw [ht]
      exact .inr ⟨_, .idle, _, hsignal, rfl, .inr ⟨rfl, .inl rfl⟩⟩
    · rw [ht]
      obtain ⟨i, store, hw, hm⟩ | ⟨error, -, ⟨-, hm⟩ | ⟨-, hm⟩⟩ :=
        en.write_cases { r with signal := c.signal.getD r.signal } e a c.fault
      · rw [hm]
        exact .inl ⟨i, _, store, hsignal, hw, rfl⟩
      · -- the event stays in hand, and the turns that are left begin where these began
        have hwaited := hsignal.trans (Resources.waited_fault _ en.role)
        rw [hm]
        obtain ⟨i, r', store, hr, hw, hf⟩ | ⟨outcome, phase, r', hr, hf, ho⟩ :=
          ih (en.waiting_phase e a) _
        · exact .inl ⟨i, r', store, hwaited.trans hr, hw, hf⟩
        · exact .inr ⟨outcome, phase, r', hwaited.trans hr, hf, ho⟩
      · rw [hm]
        exact .inr ⟨_, .idle, _, hsignal.trans (Resources.waited_fault _ en.role), rfl,
          .inr ⟨rfl, .inr ⟨error, rfl⟩⟩⟩

/-- Where no failure but a fault's may pass, a write that no fault hits ends the event. -/
theorem finish_through {en : Engine} {e : Event} {a : Attestation}
    (hand : en.phase = .writing e a ∨ en.phase = .waiting e a) {r : Resources}
    (sound : ∀ error, (r.store.write (commitBatch en.role a)).1.failure = some error →
      error.isTransient = false) {chances : List Chance} (through : ∃ c ∈ chances, c.fault = none) :
    (en.finish r chances).outcome ≠ none := by
  induction chances generalizing en r with
  | nil =>
    obtain ⟨c, hc, -⟩ := through
    cases hc
  | cons c rest ih =>
    simp only [finish]
    obtain ⟨-, ht⟩ | ht := turn_cases hand { r with signal := c.signal.getD r.signal } c.fault
    · rw [ht]
      exact Option.some_ne_none _
    · rw [ht]
      obtain ⟨i, store, -, hm⟩ | ⟨error, hfailure, ⟨hpass, hm⟩ | ⟨-, hm⟩⟩ :=
        en.write_cases { r with signal := c.signal.getD r.signal } e a c.fault
      · rw [hm]
        exact Option.some_ne_none _
      · rw [hm]
        refine ih (en.waiting_phase e a) sound ?_
        obtain ⟨c', hc, hf⟩ := through
        rcases List.mem_cons.mp hc with rfl | hc
        · cases (sound error (hfailure hf)).symm.trans hpass
        · exact ⟨c', hc, hf⟩
      · rw [hm]
        exact Option.some_ne_none _

end Engine

/-- The signal after some chances. -/
def Signal.after (s : Signal) (chances : List Engine.Chance) : Signal :=
  chances.foldl (fun s c => c.signal.getD s) s

namespace Engine

/-- A stop ends an event that has been written before. -/
theorem finish_stopped {en : Engine} {e : Event} {a : Attestation} {r : Resources}
    {chances before : List Chance} (hand : en.phase = .writing e a ∨ en.phase = .waiting e a)
    (length : 1 ≤ before.length) (written : en.phase = .writing e a → 2 ≤ before.length)
    (first : before <+: chances) (stop : (r.signal.after before).stops = true) :
    (en.finish r chances).outcome ≠ none := by
  induction chances generalizing en r before with
  | nil =>
    rw [List.prefix_nil.mp first] at length
    cases length
  | cons c rest ih =>
    obtain ⟨c', before, rfl⟩ : ∃ c' before', before = c' :: before' :=
      List.exists_cons_of_length_pos length
    obtain ⟨rfl, hrest⟩ := List.cons_prefix_cons.mp first
    rw [List.length_cons] at written
    have hturn := turn_cases hand { r with signal := c'.signal.getD r.signal } c'.fault
    -- a stop that comes now ends an event that waits; otherwise it comes with the turns that follow
    have hlater : (c'.signal.getD r.signal).stops = true ∧ en.phase = .waiting e a ∨
        1 ≤ before.length := by
      rcases hand with hp | hp
      · have := written hp
        exact .inr (by omega)
      · cases before with
        | nil => exact .inl ⟨stop, hp⟩
        | cons c before => exact .inr (by simp)
    simp only [finish]
    rcases hlater with ⟨hs, hp⟩ | hl
    · simp [turn, hp, hs]
    · obtain ⟨-, ht⟩ | ht := hturn
      · rw [ht]
        exact Option.some_ne_none _
      · rw [ht]
        obtain ⟨i, store, -, hm⟩ | ⟨error, -, ⟨-, hm⟩ | ⟨-, hm⟩⟩ :=
          en.write_cases { r with signal := c'.signal.getD r.signal } e a c'.fault
        · rw [hm]
          exact Option.some_ne_none _
        · rw [hm]
          exact ih (en.waiting_phase e a) hl (by simp) hrest stop
        · rw [hm]
          exact Option.some_ne_none _

/-- The event was committed by one write. A row stands for it, and the checkpoint is the event's, in
memory as in the store. -/
structure Took (en : Engine) (r : Resources) (e : Event) (i : Insertion) (m : Move) : Prop where
  write : r.store.write (commitBatch en.role (r.signer.identity.attest e)) =
    (⟨[.insertion i, .advanced], none⟩, m.resources.store)
  once : m.resources.store.counts.advances = r.store.counts.advances + 1
  row : ∃ row ∈ m.resources.store.database.rows e.key.kind e.direction,
    row.bridgeKey = e.bridge.partitionKey ∧
      (row.transactionId = e.transactionId ∨ row.number.toUInt64 = e.key.value)
  checkpoint : m.engine.checkpoint = ⟨en.role, some e.transactionId, e.ledgerSequence⟩
  stored : m.resources.store.checkpoint en.role = .ok (some m.engine.checkpoint)
  processed : (m.resources.tallies.get en.role).processed =
    (r.tallies.get en.role).processed + 1

/-- The event has changed nothing that is kept, and no count of events that were committed. -/
structure Spared (en : Engine) (r : Resources) (m : Move) : Prop where
  store : m.resources.store = r.store
  checkpoint : m.engine.checkpoint = en.checkpoint
  counts : ∀ role, (m.resources.tallies.get role).processed = (r.tallies.get role).processed ∧
    (m.resources.tallies.get role).duplicates = (r.tallies.get role).duplicates

/-- What a write leaves that has committed an event. -/
theorem took_committed {en : Engine} {r r' : Resources} {e : Event} {i : Insertion} {store : Store}
    (hw : r.store.write (commitBatch en.role (r.signer.identity.attest e)) =
      (⟨[.insertion i, .advanced], none⟩, store))
    (hp : (r'.tallies.get en.role).processed = (r.tallies.get en.role).processed) :
    en.Took r e i (en.committed { r' with store } e i) := by
  obtain ⟨i, -, htabled, hw'⟩ | ⟨error, hf, -⟩ :=
    r.store.write_commitBatch_cases en.role (r.signer.identity.attest e)
  · cases hw.symm.trans hw'
    refine ⟨hw, ?_, ?_, rfl, ?_, ?_⟩
    · simp [committed, Resources.tally, StoreCounts.add, StoreCounts.ofAnswers]
    · obtain ⟨row, hm, hc⟩ := Database.blocks_of_recorded r.store.database
        (a := r.signer.identity.attest e) fun _ _ => List.prefix_refl _
      obtain ⟨hk, hc⟩ := Row.conflicts_iff.mp hc
      refine ⟨row, ?_, hk, hc.imp_right (congrArg Int64.toUInt64)⟩
      exact (Database.rows_setCheckpoint ..).symm ▸ hm
    · have htabled' :
          (r.store.database.record (r.signer.identity.attest e)).checkpoints ≠ none := by
        rw [Database.checkpoints_record]
        exact htabled
      exact Database.checkpoint_setCheckpoint htabled' en.role (some e.transactionId)
        e.ledgerSequence
    · unfold committed
      rw [Resources.tally_get_self]
      exact congrArg (· + 1) hp
  · rw [hw] at hf
    cases hf

theorem process_turned_away {en : Engine} {r : Resources} {e : Event} {outcome : Outcome}
    {en' : Engine} {r' : Resources} (h : en.take r e = ⟨some outcome, en', r'⟩)
    (chances : List Chance) : en.process r e chances = ⟨some outcome, en', r'⟩ := by
  rw [process, h]

theorem process_in_hand {en : Engine} {r : Resources} {e : Event} {en' : Engine} {r' : Resources}
    (h : en.take r e = ⟨none, en', r'⟩) (chances : List Chance) :
    en.process r e chances = en'.finish r' chances := by
  rw [process, h]

/-- An event that is turned away is counted, and no more. -/
theorem spared_tally (en : Engine) (r : Resources) (outcome : Option Outcome) {f : Tally → Tally}
    (processed : ∀ t, (f t).processed = t.processed)
    (duplicates : ∀ t, (f t).duplicates = t.duplicates) :
    en.Spared r ⟨outcome, en, r.tally en.role f⟩ := by
  refine ⟨rfl, rfl, ?_⟩
  intro role
  by_cases hr : role = en.role
  · subst hr
    rw [Resources.tally_get_self]
    exact ⟨processed _, duplicates _⟩
  · rw [Resources.tally_get_other r hr]
    exact ⟨rfl, rfl⟩

/-- One write has committed an event, which was signed once; or the event has left nothing behind,
and was signed once at most. -/
theorem process_whole (en : Engine) (r : Resources) (e : Event) (chances : List Chance) :
    (∃ i, (en.process r e chances).outcome = some (.committed i) ∧ e.source = en.role ∧
      en.Took r e i (en.process r e chances) ∧ (en.process r e chances).engine.phase = .idle ∧
      (en.process r e chances).resources.signer = r.signer.count) ∨
    (∀ i, (en.process r e chances).outcome ≠ some (.committed i)) ∧
      en.Spared r (en.process r e chances) ∧
      ((en.process r e chances).outcome ≠ none → en.phase = .idle →
        (en.process r e chances).engine.phase = .idle) ∧
      ((en.process r e chances).resources.signer = r.signer ∨
        (en.process r e chances).resources.signer = r.signer.count) := by
  obtain ⟨-, ht⟩ | ⟨hs, ⟨-, ht⟩ | ⟨-, ht⟩⟩ := en.take_cases r e
  · rw [process_turned_away ht]
    refine .inr ⟨by simp, ?_, fun _ idle => idle, .inl rfl⟩
    exact en.spared_tally r _ (fun _ => rfl) fun _ => rfl
  · rw [process_turned_away ht]
    refine .inr ⟨by simp, ?_, fun _ idle => idle, .inl rfl⟩
    exact en.spared_tally r _ (fun _ => rfl) fun _ => rfl
  · rw [process_in_hand ht]
    obtain ⟨i, r', store, hr, hw, hf⟩ | ⟨outcome, phase, r', hr, hf, ho⟩ :=
      finish_whole (en.writing_phase e _) { r with signer := r.signer.count } chances
    · rw [hf]
      refine .inl ⟨i, rfl, hs, took_committed hw ?_, rfl, hr.signer⟩
      obtain ⟨faults, ht⟩ := hr.tallies en.role
      rw [ht]
    · rw [hf]
      refine .inr ⟨?_, ⟨hr.store, rfl, fun role => ?_⟩, ?_, .inr hr.signer⟩
      · rintro i rfl
        simp at ho
      · obtain ⟨faults, ht⟩ := hr.tallies role
        dsimp only
        rw [ht]
        exact ⟨rfl, rfl⟩
      · intro hne _
        exact (ho.resolve_left hne).1

/-- An event ends if the node has been told to stop before a turn but the first, or if a turn meets
no fault and the store can be read. -/
theorem process_ends {en : Engine} {r : Resources} {chances : List Chance}
    (h : (∃ before, before <+: chances ∧ 2 ≤ before.length ∧ (r.signal.after before).stops) ∨
      r.store.database.Legible ∧ ∃ c ∈ chances, c.fault = none) (e : Event) :
    (en.process r e chances).outcome ≠ none := by
  obtain ⟨-, ht⟩ | ⟨hs, ⟨-, ht⟩ | ⟨-, ht⟩⟩ := en.take_cases r e
  · rw [process_turned_away ht]
    exact Option.some_ne_none _
  · rw [process_turned_away ht]
    exact Option.some_ne_none _
  · rw [process_in_hand ht]
    rcases h with ⟨before, hfirst, hlength, hstop⟩ | ⟨hlegible, hthrough⟩
    · exact finish_stopped (en.writing_phase e _) (by omega) (fun _ => hlength) hfirst hstop
    · refine finish_through (en.writing_phase e _) (fun error hf => ?_) hthrough
      apply Store.write_commitBatch_failure hlegible (r.signer.identity.attest_storable e)
      rw [Identity.attest_source, hs]
      exact hf

/-- An event is processed as a whole. However far the checkpoint in memory lies behind the stored
one, whatever the store holds, which writes fail and when the node is told to stop: the event is
committed by exactly one write, with the checkpoint that comes with it, or the tables, both
checkpoints and the counts of commits are what they were. The engine is between events again when
the event ends, and has signed at most once. The event does end if the node has been told to stop
before a turn but the first, or if a turn meets no fault and the store can be read. -/
theorem process_all_or_nothing {en : Engine} (idle : en.phase = .idle) (r : Resources) (e : Event)
    (chances : List Chance) :
    (∀ i, (en.process r e chances).outcome = some (.committed i) →
      en.Took r e i (en.process r e chances)) ∧
    ((∀ i, (en.process r e chances).outcome ≠ some (.committed i)) →
      en.Spared r (en.process r e chances)) ∧
    ((en.process r e chances).outcome ≠ none → (en.process r e chances).engine.phase = .idle) ∧
    ((en.process r e chances).resources.signer = r.signer ∨
      (en.process r e chances).resources.signer = r.signer.count) ∧
    ((∃ before, before <+: chances ∧ 2 ≤ before.length ∧ (r.signal.after before).stops) ∨
        r.store.database.Legible ∧ (∃ c ∈ chances, c.fault = none) →
      (en.process r e chances).outcome ≠ none) := by
  obtain ⟨i, hi, -, htook, hidle, hsigner⟩ | ⟨hno, hspared, hidle, hsigner⟩ :=
    en.process_whole r e chances
  · refine ⟨?_, fun hno => absurd hi (hno i), fun _ => hidle, .inr hsigner, ?_⟩
    · intro i' hi'
      cases hi.symm.trans hi'
      exact htook
    · exact fun h => process_ends h e
  · refine ⟨fun i hi => absurd hi (hno i), fun _ => hspared, ?_, hsigner, ?_⟩
    · exact fun hne => hidle hne idle
    · exact fun h => process_ends h e

/-- An engine that has not heard of the checkpoint that others have moved to ledger 7. -/
def stale : Engine :=
  ⟨.locking, ⟨.locking, none, 0⟩, .idle⟩

def staleResources : Resources :=
  ⟨.ofIdentity (.sample 0), ⟨Database.empty.setCheckpoint .locking ⟨some "A", 7⟩, ⟨0, 0, 1⟩, false⟩,
    .running, .both .zero⟩

/-- A fault, and then nothing. -/
def faultOnce : List Chance :=
  [⟨none, some .io⟩, .none]

/-- It fails with a claim from before that ledger, and commits one from after it. -/
theorem process_all_or_nothing_stale :
    (stale.process staleResources (.claim (.sample "B" 5 10) 1 none) faultOnce).outcome =
      some (.failed (.regression .locking 7 5)) ∧
    stale.Spared staleResources
      (stale.process staleResources (.claim (.sample "B" 5 10) 1 none) faultOnce) ∧
    (stale.process staleResources (.claim (.sample "B" 5 10) 1 none) faultOnce).engine.phase =
      .idle ∧
    stale.Took staleResources (.claim (.sample "C" 9 10) 1 none) .inserted
      (stale.process staleResources (.claim (.sample "C" 9 10) 1 none) faultOnce) := by
  have hfailed : (stale.process staleResources (.claim (.sample "B" 5 10) 1 none)
      faultOnce).outcome = some (.failed (.regression .locking 7 5)) := rfl
  have idle : stale.phase = .idle := rfl
  obtain ⟨-, hspared, hidle, -⟩ := process_all_or_nothing idle staleResources
    (.claim (.sample "B" 5 10) 1 none) faultOnce
  obtain ⟨htook, -⟩ := process_all_or_nothing idle staleResources
    (.claim (.sample "C" 9 10) 1 none) faultOnce
  refine ⟨hfailed, hspared ?_, hidle ?_, htook .inserted rfl⟩
  · rw [hfailed]
    simp
  · rw [hfailed]
    simp

end Engine

end Attestor

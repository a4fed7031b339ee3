import Attestor.Proofs.EventCommit

namespace Attestor

namespace StepAnswer

/-- An insert met an attestation that was stored before. -/
def isDuplicate : StepAnswer → Bool
  | insertion (.exists _) => true
  | _ => false

def isFailure : StepAnswer → Bool
  | failed _ => true
  | _ => false

end StepAnswer

namespace StoreCounts

/-- What the answers to the steps of a batch count for. -/
def ofAnswers (answers : List StepAnswer) : StoreCounts :=
  ⟨answers.countP (· = .insertion .inserted), answers.countP StepAnswer.isDuplicate,
    answers.countP (· = .advanced)⟩

theorem ofAnswers_append (xs ys : List StepAnswer) :
    ofAnswers (xs ++ ys) = (ofAnswers xs).add (ofAnswers ys) := by
  simp only [ofAnswers, add, List.countP_append]

theorem add_assoc (a b c : StoreCounts) : (a.add b).add c = a.add (b.add c) := by
  simp only [add, Nat.add_assoc]

@[simp] theorem zero_add (a : StoreCounts) : zero.add a = a := by
  simp only [add, zero, Nat.zero_add]

end StoreCounts

namespace Database

/-- The tables with a checkpoint for the chain, at ledger zero if it is new. -/
def ensure (db : Database) (role : Role) : Database :=
  match db.checkpointRow? role with
  | some _ => db
  | none => db.setCheckpoint role ⟨none, 0⟩

@[simp] theorem rows_ensure (db : Database) (role : Role) (kind : TransferKind)
    (direction : Direction) : (db.ensure role).rows kind direction = db.rows kind direction := by
  unfold ensure
  split
  · rfl
  · exact rows_setCheckpoint ..

/-- The chain has a checkpoint that can be read, at or after the ledger. -/
def Covers (db : Database) (role : Role) (ledger : UInt32) : Prop :=
  ∃ c, db.checkpoint role = .ok (some c) ∧ ledger ≤ c.ledgerSequence

theorem covers_max {db : Database} {role : Role} {m n : UInt32} :
    db.Covers role (max m n) ↔ db.Covers role m ∧ db.Covers role n := by
  have hle : ∀ c : UInt32, max m n ≤ c ↔ m ≤ c ∧ n ≤ c := by
    intro c
    change (if m ≤ n then n else m) ≤ c ↔ m ≤ c ∧ n ≤ c
    split
    · rename_i h
      exact ⟨fun hn => ⟨UInt32.le_trans h hn, hn⟩, And.right⟩
    · rename_i h
      exact ⟨fun hm => ⟨hm, UInt32.le_trans (UInt32.le_of_lt (UInt32.not_le.mp h)) hm⟩, And.left⟩
  constructor
  · rintro ⟨c, hc, hl⟩
    exact ⟨⟨c, hc, ((hle _).mp hl).1⟩, ⟨c, hc, ((hle _).mp hl).2⟩⟩
  · rintro ⟨⟨c, hc, hm⟩, ⟨c', hc', hn⟩⟩
    cases hc.symm.trans hc'
    exact ⟨c, hc, (hle _).mpr ⟨hm, hn⟩⟩

end Database

/-- A step of a batch and its answer. -/
structure Deed where
  step : WriteStep
  answer : StepAnswer

namespace Deed

/-- The attestation whose row the step has added. -/
def inserted? : Deed → Option Attestation
  | ⟨.insertClaim a, .insertion .inserted⟩
  | ⟨.insertAccountCreate a, .insertion .inserted⟩
  | ⟨.insert a, .insertion .inserted⟩ => some a
  | _ => none

/-- What the step has made of the tables. -/
def effect (db : Database) (d : Deed) : Database :=
  match d with
  | ⟨.advance role transactionId ledger, .advanced⟩ =>
    db.setCheckpoint role ⟨some transactionId, ledger.toUInt64.toInt64⟩
  | ⟨.ensureCheckpoint role, .checkpoint _⟩ => db.ensure role
  | d => match d.inserted? with
    | some a => db.append a
    | none => db

/-- The attestations that steps have added. -/
def inserted (deeds : List Deed) : List Attestation :=
  deeds.filterMap inserted?

/-- The steps that have not failed. -/
def successes (deeds : List Deed) : List Deed :=
  deeds.filter fun d => !d.answer.isFailure

theorem mem_rows_effect {db : Database} {d : Deed} {kind : TransferKind} {direction : Direction}
    {r : Row} (h : r ∈ (effect db d).rows kind direction) : r ∈ db.rows kind direction ∨
      ∃ a, d.inserted? = some a ∧ kind = a.key.kind ∧ direction = a.direction ∧
        r = Row.ofAttestation a := by
  unfold effect at h
  split at h
  · rw [Database.rows_setCheckpoint] at h
    exact .inl h
  · rw [Database.rows_ensure] at h
    exact .inl h
  · split at h
    · rename_i a ha
      exact (Database.mem_rows_append h).imp_right fun hr => ⟨a, ha, hr⟩
    · exact .inl h

/-- Every row was there before, or is that of an attestation that was inserted. -/
theorem mem_rows_effects {deeds : List Deed} {db : Database} {kind : TransferKind}
    {direction : Direction} {r : Row}
    (h : r ∈ (deeds.foldl effect db).rows kind direction) : r ∈ db.rows kind direction ∨
      ∃ a ∈ inserted deeds, kind = a.key.kind ∧ direction = a.direction ∧
        r = Row.ofAttestation a := by
  induction deeds generalizing db with
  | nil => exact .inl h
  | cons d deeds ih =>
    have hsub : ∀ a ∈ inserted deeds, a ∈ inserted (d :: deeds) := by
      intro a ha
      obtain ⟨d', hd, ha⟩ := List.mem_filterMap.mp ha
      exact List.mem_filterMap.mpr ⟨d', List.mem_cons_of_mem _ hd, ha⟩
    rcases ih h with h | ⟨a, ha, hr⟩
    · rcases mem_rows_effect h with h | ⟨a, ha, hr⟩
      · exact .inl h
      · exact .inr ⟨a, List.mem_filterMap.mpr ⟨d, List.mem_cons_self, ha⟩, hr⟩
    · exact .inr ⟨a, hsub a ha, hr⟩

end Deed

/-- The steps of a batch with their answers. -/
def Batch.deeds (b : Batch) (answers : List StepAnswer) : List Deed :=
  List.zipWith Deed.mk b.steps answers

theorem Batch.answers_deeds {b : Batch} {answers : List StepAnswer}
    (h : answers.length = b.steps.length) : (b.deeds answers).map Deed.answer = answers := by
  apply List.ext_getElem
  · simp [deeds, h]
  · simp [deeds]

theorem Batch.step_mem {b : Batch} {answers : List StepAnswer} {d : Deed}
    (h : d ∈ b.deeds answers) : d.step ∈ b.steps := by
  rw [deeds, ← List.map_uncurry_zip_eq_zipWith] at h
  obtain ⟨p, hp, rfl⟩ := List.mem_map.mp h
  exact (List.of_mem_zip hp).1

namespace Draft

/-- The reach of a draft with one more row. -/
def extendBy (reach : ByRole (Option UInt32)) (a : Attestation) : ByRole (Option UInt32) :=
  reach.modify a.direction.source fun r => extend r a.ledgerSequence

/-- A draft after steps that were answered so. -/
structure After (d : Draft) (deeds : List Deed) (d' : Draft) : Prop where
  database : d'.database = deeds.foldl Deed.effect d.database
  counts : d'.counts = d.counts.add (.ofAnswers (deeds.map Deed.answer))
  reach : d'.reach = (Deed.inserted deeds).foldl extendBy d.reach

theorem After.nil (d : Draft) : After d [] d :=
  ⟨rfl, rfl, rfl⟩

theorem After.trans {d₁ d₂ d₃ : Draft} {xs ys : List Deed} (h : After d₁ xs d₂)
    (h' : After d₂ ys d₃) : After d₁ (xs ++ ys) d₃ := by
  refine ⟨?_, ?_, ?_⟩
  · rw [h'.database, h.database, List.foldl_append]
  · rw [h'.counts, h.counts, List.map_append, StoreCounts.ofAnswers_append, StoreCounts.add_assoc]
  · rw [h'.reach, h.reach, Deed.inserted, Deed.inserted, Deed.inserted, List.filterMap_append,
      List.foldl_append]

/-- A step that fails leaves the draft as it was. -/
theorem After.failure (d : Draft) (s : WriteStep) (e : StoreError) :
    After d [⟨s, .failed e⟩] d := by
  cases s <;> exact ⟨rfl, rfl, rfl⟩

/-- The three ways to ask for an insert come to the same. -/
theorem After.insert {d d' : Draft} {a : Attestation} {i : Insertion}
    (h : d.insert a = .ok (i, d')) {s : WriteStep}
    (hs : s = .insertClaim a ∨ s = .insertAccountCreate a ∨ s = .insert a) :
    After d [⟨s, .insertion i⟩] d' := by
  obtain ⟨-, -, rfl, rfl⟩ | ⟨_, x, -, -, rfl, rfl⟩ := insert_cases h
  · rcases hs with rfl | rfl | rfl <;> exact ⟨rfl, rfl, rfl⟩
  · rcases hs with rfl | rfl | rfl <;> exact ⟨rfl, rfl, rfl⟩

theorem ensure_after {d d' : Draft} {role : Role} {c : Checkpoint}
    (h : d.ensureCheckpoint role = .ok (c, d')) :
    After d [⟨.ensureCheckpoint role, .checkpoint (some c)⟩] d' := by
  have hdb : d' = { d with database := d.database.ensure role } := by
    unfold ensureCheckpoint at h
    unfold Database.ensure Database.checkpointRow?
    split at h
    · cases h
    · rename_i table ht
      obtain ⟨found, _, h⟩ := Except.bind_ok h
      rw [ht, Option.bind_some]
      cases found with
      | none => cases h
      | some c' =>
        simp only [pure, Except.pure, Except.ok.injEq, Prod.mk.injEq] at h
        refine h.2.symm.trans ?_
        cases table.get role <;> rfl
  rw [hdb]
  exact ⟨rfl, rfl, rfl⟩

/-- A step that succeeds has the effect that its answer tells of. -/
theorem step_after {d d' : Draft} {s : WriteStep} {x : StepAnswer} (h : d.step s = .ok (x, d')) :
    After d [⟨s, x⟩] d' ∧ x.isFailure = false := by
  cases s with
  | insertClaim a =>
    simp only [step] at h
    split at h
    · cases h
    · obtain ⟨r, hi, he⟩ := Except.map_ok h
      cases he
      exact ⟨.insert hi (.inl rfl), rfl⟩
  | insertAccountCreate a =>
    simp only [step] at h
    split at h
    · obtain ⟨r, hi, he⟩ := Except.map_ok h
      cases he
      exact ⟨.insert hi (.inr (.inl rfl)), rfl⟩
    · cases h
  | insert a =>
    obtain ⟨r, hi, he⟩ := Except.map_ok h
    cases he
    exact ⟨.insert hi (.inr (.inr rfl)), rfl⟩
  | advance role transactionId ledger =>
    obtain ⟨_, ha, he⟩ := Except.map_ok h
    cases he
    obtain ⟨_, -, -, rfl⟩ := advance_cases ha
    exact ⟨⟨rfl, rfl, rfl⟩, rfl⟩
  | readCheckpoint role =>
    obtain ⟨_, -, he⟩ := Except.map_ok h
    cases he
    exact ⟨⟨rfl, rfl, rfl⟩, rfl⟩
  | ensureCheckpoint role =>
    obtain ⟨⟨c, d''⟩, hc, he⟩ := Except.map_ok h
    cases he
    exact ⟨ensure_after hc, rfl⟩
  | fail reason => cases h

/-- The first step of a run that comes to its end: it succeeds, or it fails in a lenient batch. -/
theorem run_cons {lenient : Bool} {s : WriteStep} {rest : List WriteStep} {d d' : Draft}
    {answers : List StepAnswer} (h : run lenient (s :: rest) d = (answers, .ok d')) :
    ∃ x d₁ answers', answers = x :: answers' ∧ run lenient rest d₁ = (answers', .ok d') ∧
      (d.step s = .ok (x, d₁) ∨
        lenient = true ∧ ∃ e, d.step s = .error e ∧ x = .failed e ∧ d₁ = d) := by
  simp only [run] at h
  cases hs : d.step s with
  | ok r =>
    obtain ⟨x, d₁⟩ := r
    simp only [hs, Prod.mk.injEq] at h
    exact ⟨x, d₁, _, h.1.symm, Prod.ext rfl h.2, .inl rfl⟩
  | error e =>
    simp only [hs] at h
    split at h
    · rename_i hl
      simp only [Prod.mk.injEq] at h
      exact ⟨.failed e, d, _, h.1.symm, Prod.ext rfl h.2, .inr ⟨hl, e, rfl, rfl, rfl⟩⟩
    · cases h

/-- Steps that took one draft to another, each answered so. Only a lenient batch goes on after a
step that failed, with the draft as it was. -/
inductive Runs (lenient : Bool) : Draft → List Deed → Draft → Prop where
  | nil (d : Draft) : Runs lenient d [] d
  | success {d d₁ d' : Draft} {s : WriteStep} {x : StepAnswer} {deeds : List Deed}
      (done : d.step s = .ok (x, d₁)) (tail : Runs lenient d₁ deeds d') :
      Runs lenient d (⟨s, x⟩ :: deeds) d'
  | failure {d d' : Draft} {s : WriteStep} {e : StoreError} {deeds : List Deed}
      (goesOn : lenient = true) (failed : d.step s = .error e) (tail : Runs lenient d deeds d') :
      Runs lenient d (⟨s, .failed e⟩ :: deeds) d'

/-- Steps that were taken have the effects that their answers tell of. -/
theorem Runs.after {lenient : Bool} {d d' : Draft} {deeds : List Deed}
    (h : Runs lenient d deeds d') : After d deeds d' := by
  induction h with
  | nil d => exact .nil d
  | success done _ ih => exact (step_after done).1.trans ih
  | failure _ _ _ ih => exact (After.failure _ _ _).trans ih

/-- The steps that succeed would do the same without the others. -/
theorem Runs.successes {lenient : Bool} {d d' : Draft} {deeds : List Deed}
    (h : Runs lenient d deeds d') : Runs false d (Deed.successes deeds) d' := by
  induction h with
  | nil d => exact .nil d
  | success done _ ih =>
    rw [Deed.successes, List.filter_cons_of_pos (by simp [(step_after done).2])]
    exact .success done ih
  | failure _ _ _ ih => exact ih

/-- Running the steps again gives the answers again. -/
theorem Runs.run_eq {lenient : Bool} {d d' : Draft} {deeds : List Deed}
    (h : Runs lenient d deeds d') :
    run lenient (deeds.map Deed.step) d = (deeds.map Deed.answer, .ok d') := by
  induction h with
  | nil d => rfl
  | success done _ ih => simp only [List.map_cons, run, done, ih]
  | failure goesOn failed _ ih =>
    subst goesOn
    simp only [List.map_cons, run, failed, ↓reduceIte, ih]

/-- A run that comes to its end has answered every step. -/
theorem runs_of_run {lenient : Bool} {steps : List WriteStep} {d d' : Draft}
    {answers : List StepAnswer} (h : run lenient steps d = (answers, .ok d')) :
    answers.length = steps.length ∧ Runs lenient d (List.zipWith Deed.mk steps answers) d' := by
  induction steps generalizing d answers with
  | nil =>
    cases h
    exact ⟨rfl, .nil _⟩
  | cons s rest ih =>
    obtain ⟨x, d₁, answers', rfl, hr, hs⟩ := run_cons h
    obtain ⟨hl, hrest⟩ := ih hr
    refine ⟨congrArg Nat.succ hl, ?_⟩
    rcases hs with hs | ⟨hlenient, e, hs, rfl, rfl⟩
    · exact .success hs hrest
    · exact .failure hlenient hs hrest

/-- A run that fails has taken the steps up to one that fails, in a batch that is not lenient. -/
theorem failing_of_run {lenient : Bool} {steps : List WriteStep} {d : Draft}
    {answers : List StepAnswer} {e : StoreError} (h : run lenient steps d = (answers, .error e)) :
    lenient = false ∧ ∃ before s after d', steps = before ++ s :: after ∧
      answers.length = before.length ∧ Runs false d (List.zipWith Deed.mk before answers) d' ∧
      d'.step s = .error e := by
  induction steps generalizing d answers with
  | nil => cases h
  | cons s rest ih =>
    simp only [run] at h
    cases hs : d.step s with
    | ok r =>
      obtain ⟨x, d₁⟩ := r
      simp only [hs, Prod.mk.injEq] at h
      obtain ⟨rfl, he⟩ := h
      obtain ⟨hl, before, s', after, d', rfl, hn, hrun, hf⟩ := ih (Prod.ext rfl he)
      exact ⟨hl, s :: before, s', after, d', rfl, congrArg Nat.succ hn, .success hs hrun, hf⟩
    | error e' =>
      simp only [hs] at h
      cases lenient with
      | true =>
        simp only [↓reduceIte, Prod.mk.injEq] at h
        cases (ih (Prod.ext rfl h.2)).1
      | false =>
        cases h
        exact ⟨rfl, [], s, rest, d, rfl, rfl, .nil d, hs⟩

/-- A run that comes to its end has the effects that its answers tell of. -/
theorem run_after {lenient : Bool} {steps : List WriteStep} {d d' : Draft}
    {answers : List StepAnswer} (h : run lenient steps d = (answers, .ok d')) :
    answers.length = steps.length ∧ After d (List.zipWith Deed.mk steps answers) d' :=
  (runs_of_run h).imp_right Runs.after

theorem run_counts {b : Batch} {db : Database} {answers : List StepAnswer} {d : Draft}
    (h : run b.lenient b.steps (.ofDatabase db) = (answers, .ok d)) :
    d.counts = .ofAnswers answers := by
  obtain ⟨hl, ha⟩ := run_after h
  rw [ha.counts, ← Batch.deeds, Batch.answers_deeds hl]
  exact StoreCounts.zero_add _

theorem covers_extendBy {db : Database} {reach : ByRole (Option UInt32)} {a : Attestation}
    {role : Role} : (∀ n, (extendBy reach a).get role = some n → db.Covers role n) ↔
      (∀ n, reach.get role = some n → db.Covers role n) ∧
        (a.direction.source = role → db.Covers role a.ledgerSequence) := by
  unfold extendBy
  by_cases hr : a.direction.source = role
  · subst hr
    rw [ByRole.modify, ByRole.get_set_self]
    cases hg : reach.get a.direction.source with
    | none => simp [extend]
    | some m => simp [extend, Database.covers_max]
  · rw [ByRole.modify, ByRole.get_set_of_ne _ (Ne.symm hr)]
    simp [hr]

theorem covers_extends {db : Database} {rows : List Attestation}
    {reach : ByRole (Option UInt32)} {role : Role} :
    (∀ n, (rows.foldl extendBy reach).get role = some n → db.Covers role n) ↔
      (∀ n, reach.get role = some n → db.Covers role n) ∧
        ∀ a ∈ rows, a.direction.source = role → db.Covers role a.ledgerSequence := by
  induction rows generalizing reach with
  | nil => simp
  | cons a rows ih =>
    rw [List.foldl_cons, ih, covers_extendBy, List.forall_mem_cons, and_assoc]

theorem checkRole_ok_iff {d : Draft} {role : Role} : d.checkRole role = .ok () ↔
    ∀ n, d.reach.get role = some n → d.database.Covers role n := by
  unfold checkRole Database.Covers
  cases d.reach.get role with
  | none => simp
  | some n =>
    cases d.database.checkpoint role with
    | error e => simp [bind, Except.bind]
    | ok c => cases c <;> simp [bind, Except.bind, Database.covers]

theorem check_ok_iff_roles {d : Draft} :
    d.check = .ok () ↔ ∀ role, d.checkRole role = .ok () := by
  unfold check
  constructor
  · intro h role
    obtain ⟨⟨⟩, hl, hi⟩ := Except.bind_ok h
    cases role with
    | locking => exact hl
    | issuing => exact hi
  · intro h
    rw [h .locking, h .issuing]
    rfl

/-- The check looks at the greatest ledger that was inserted for each chain, which comes to looking
at every attestation that was. -/
theorem After.check_ok_iff {db : Database} {deeds : List Deed} {d : Draft}
    (h : After (.ofDatabase db) deeds d) : d.check = .ok () ↔
      ∀ a ∈ Deed.inserted deeds, d.database.Covers a.direction.source a.ledgerSequence := by
  have hstart : ∀ role n, (ofDatabase db).reach.get role = some n → d.database.Covers role n := by
    intro role n hn
    rw [ofDatabase, ByRole.get_both] at hn
    cases hn
  simp only [check_ok_iff_roles, checkRole_ok_iff, h.reach, covers_extends]
  constructor
  · intro hc a ha
    exact (hc a.direction.source).2 a ha rfl
  · intro hc role
    refine ⟨hstart role, ?_⟩
    rintro a ha rfl
    exact hc a ha

end Draft

namespace Batch

/-- The batch can be taken to its end, and its steps are answered so. -/
def Completes (b : Batch) (db : Database) (answers : List StepAnswer) (d : Draft) : Prop :=
  answers.length = b.steps.length ∧ Draft.Runs b.lenient (.ofDatabase db) (b.deeds answers) d

/-- The batch stops at a step that fails. The steps before it have succeeded and were answered. -/
def Breaks (b : Batch) (db : Database) (answers : List StepAnswer) (e : StoreError) : Prop :=
  b.lenient = false ∧ ∃ before s after d, b.steps = before ++ s :: after ∧
    Completes ⟨before, false⟩ db answers d ∧ d.step s = .error e

theorem completes_of_run {b : Batch} {db : Database} {answers : List StepAnswer} {d : Draft}
    (h : Draft.run b.lenient b.steps (.ofDatabase db) = (answers, .ok d)) :
    b.Completes db answers d :=
  Draft.runs_of_run h

theorem breaks_of_run {b : Batch} {db : Database} {answers : List StepAnswer} {e : StoreError}
    (h : Draft.run b.lenient b.steps (.ofDatabase db) = (answers, .error e)) :
    b.Breaks db answers e := by
  obtain ⟨hl, before, s, after, d, hb, hn, hrun, hs⟩ := Draft.failing_of_run h
  exact ⟨hl, before, s, after, d, hb, ⟨hn, hrun⟩, hs⟩

/-- A batch that was taken to its end is refused for what it has inserted beyond a checkpoint. -/
theorem Completes.check_fails_iff {b : Batch} {db : Database} {answers : List StepAnswer}
    {d : Draft} (h : b.Completes db answers d) : d.check ≠ .ok () ↔
      ∃ a ∈ Deed.inserted (b.deeds answers),
        ¬d.database.Covers a.direction.source a.ledgerSequence := by
  rw [Ne, h.2.after.check_ok_iff, not_forall]
  simp only [exists_prop, not_forall]

end Batch

namespace Store

theorem write_of_poisoned {s : Store} (hp : s.poisoned = true) (b : Batch) :
    s.write b = (⟨[], some .poisoned⟩, s) := by
  simp only [write, hp, ↓reduceIte]

theorem write_of_break {s : Store} {b : Batch} {answers : List StepAnswer} {e : StoreError}
    (hp : s.poisoned = false)
    (hr : Draft.run b.lenient b.steps (.ofDatabase s.database) = (answers, .error e)) :
    s.write b = (⟨answers, some e⟩, s) := by
  simp only [write, hp, Bool.false_eq_true, ↓reduceIte, hr]

theorem write_of_refusal {s : Store} {b : Batch} {answers : List StepAnswer} {d : Draft}
    {e : StoreError} (hp : s.poisoned = false)
    (hr : Draft.run b.lenient b.steps (.ofDatabase s.database) = (answers, .ok d))
    (hc : d.check = .error e) : s.write b = (⟨answers, some e⟩, s) := by
  simp only [write, hp, Bool.false_eq_true, ↓reduceIte, hr, hc]

theorem write_of_success {s : Store} {b : Batch} {answers : List StepAnswer} {d : Draft}
    (hp : s.poisoned = false)
    (hr : Draft.run b.lenient b.steps (.ofDatabase s.database) = (answers, .ok d))
    (hc : d.check = .ok ()) :
    s.write b = (⟨answers, none⟩, ⟨d.database, s.counts.add d.counts, false⟩) := by
  simp only [write, hp, Bool.false_eq_true, ↓reduceIte, hr, hc]

/-- A write fails and leaves the store as it was, or its steps come to their end, the check passes,
and the draft becomes the store. -/
theorem write_cases (s : Store) (b : Batch) :
    ((s.write b).1.failure ≠ none ∧ (s.write b).2 = s ∧
      ∀ answers d, s.poisoned = false →
        Draft.run b.lenient b.steps (.ofDatabase s.database) = (answers, .ok d) →
        d.check ≠ .ok ()) ∨
    ∃ answers d, s.poisoned = false ∧
      Draft.run b.lenient b.steps (.ofDatabase s.database) = (answers, .ok d) ∧
      d.check = .ok () ∧
      s.write b = (⟨answers, none⟩, ⟨d.database, s.counts.add d.counts, false⟩) := by
  cases hp : s.poisoned with
  | true =>
    rw [write_of_poisoned hp]
    exact .inl ⟨nofun, rfl, nofun⟩
  | false =>
    rcases hr : Draft.run b.lenient b.steps (.ofDatabase s.database) with ⟨answers, e | d⟩
    · rw [write_of_break hp hr]
      refine .inl ⟨nofun, rfl, ?_⟩
      rintro _ _ - ⟨⟩
    · cases hc : d.check with
      | error e =>
        rw [write_of_refusal hp hr hc]
        refine .inl ⟨nofun, rfl, ?_⟩
        rintro _ _ - ⟨⟩
        rw [hc]
        exact nofun
      | ok u => exact .inr ⟨answers, d, rfl, rfl, hc, write_of_success hp hr hc⟩

theorem writeUnder_fault_fails (s : Store) (f : Fault) (b : Batch) :
    (s.writeUnder (some f) b).1.failure ≠ none ∧ (s.writeUnder (some f) b).2 = s := by
  unfold writeUnder
  dsimp only
  split
  · exact ⟨nofun, rfl⟩
  · exact ⟨nofun, rfl⟩

/-- All or nothing. A write that fails leaves tables, checkpoints and counts as they were. One that
succeeds has answered every step; the tables are what the effects of its steps in their order make
of them, the counts have grown by the answers, and the steps that did not fail would have done the
same alone. A poisoned store takes no step. On any other a batch that breaks at a step fails with
the error of that step, and one whose steps come to their end is committed, or refused for one
reason only: one of them inserted an attestation that no checkpoint of its source chain covers when
the last step is done. -/
theorem write_all_or_nothing {s t : Store} {b : Batch} {report : Report}
    (h : s.write b = (report, t)) :
    (report.failure ≠ none → t = s) ∧
    (report.failure = none → report.answers.length = b.steps.length ∧
      t.database = (b.deeds report.answers).foldl Deed.effect s.database ∧
      t.counts = s.counts.add (.ofAnswers report.answers) ∧ t.poisoned = s.poisoned ∧
      s.write ⟨(Deed.successes (b.deeds report.answers)).map Deed.step, false⟩ =
        (⟨(Deed.successes (b.deeds report.answers)).map Deed.answer, none⟩, t)) ∧
    (s.poisoned = true → report = ⟨[], some .poisoned⟩ ∧ t = s) ∧
    (∀ answers e, s.poisoned = false →
      Draft.run b.lenient b.steps (.ofDatabase s.database) = (answers, .error e) →
      b.Breaks s.database answers e ∧ report = ⟨answers, some e⟩ ∧ t = s) ∧
    ∀ answers d, s.poisoned = false →
      Draft.run b.lenient b.steps (.ofDatabase s.database) = (answers, .ok d) →
      b.Completes s.database answers d ∧ report.answers = answers ∧
      (d.check = .ok () → report.failure = none ∧ t.database = d.database) ∧
      (∀ e, d.check = .error e → report.failure = some e ∧ t = s) ∧
      (report.failure ≠ none ↔ d.check ≠ .ok ()) ∧
      (d.check ≠ .ok () ↔ ∃ a ∈ Deed.inserted (b.deeds answers),
        ¬d.database.Covers a.direction.source a.ledgerSequence) := by
  refine ⟨?unchanged, ?committed, ?poisoned, ?breaks, ?ends⟩
  case unchanged =>
    intro hf
    obtain ⟨-, ht, -⟩ | ⟨answers, d, -, -, -, hw⟩ := s.write_cases b
    · rw [h] at ht
      exact ht
    · cases h.symm.trans hw
      exact absurd rfl hf
  case committed =>
    intro hf
    obtain ⟨hn, -, -⟩ | ⟨answers, d, hp, hr, hc, hw⟩ := s.write_cases b
    · rw [h] at hn
      exact absurd hf hn
    · cases h.symm.trans hw
      obtain ⟨hl, hruns⟩ := Draft.runs_of_run hr
      refine ⟨hl, hruns.after.database, ?_, hp.symm, ?_⟩
      · rw [Draft.run_counts hr]
      · exact write_of_success hp hruns.successes.run_eq hc
  case poisoned =>
    intro hp
    cases h.symm.trans (write_of_poisoned hp b)
    exact ⟨rfl, rfl⟩
  case breaks =>
    intro answers e hp hr
    cases h.symm.trans (write_of_break hp hr)
    exact ⟨Batch.breaks_of_run hr, rfl, rfl⟩
  case ends =>
    intro answers d hp hr
    have hcompletes := Batch.completes_of_run hr
    have hcheck := hcompletes.check_fails_iff
    refine ⟨hcompletes, ?_⟩
    cases hc : d.check with
    | ok u =>
      cases h.symm.trans (write_of_success hp hr hc)
      rw [hc] at hcheck
      exact ⟨rfl, fun _ => ⟨rfl, rfl⟩, nofun,
        ⟨fun hn => absurd rfl hn, fun hn => absurd rfl hn⟩, hcheck⟩
    | error e =>
      cases h.symm.trans (write_of_refusal hp hr hc)
      rw [hc] at hcheck
      refine ⟨rfl, nofun, ?_, ⟨fun _ => nofun, fun _ => nofun⟩, hcheck⟩
      rintro _ ⟨⟩
      exact ⟨rfl, rfl⟩

/-- A claim on ledger 7. -/
def insertedSample : Attestation :=
  (Identity.sample 0).attest (.claim (.sample "A" 7 10) 1 none)

/-- A batch that passes over a checkpoint that would move back and an insert of the wrong kind. -/
def halfFailed : Batch :=
  ⟨[.insertClaim insertedSample, .advance .locking "A" 7, .advance .locking "B" 5,
    .insertAccountCreate insertedSample, .readCheckpoint .locking], true⟩

/-- A batch whose checkpoint stays behind its row. -/
def uncovered : Batch :=
  ⟨[.insertClaim insertedSample, .advance .locking "A" 5], false⟩

/-- A store that has seen ledger 9 and nothing to attest to. -/
def atLedgerNine : Store :=
  ⟨Database.empty.setCheckpoint .locking ⟨some "T0", 9⟩, ⟨0, 0, 1⟩, false⟩

/-- A batch that fails after its insert and its advance. -/
def crashing : Batch :=
  ⟨[.insertClaim ((Identity.sample 0).attest (.claim (.sample "T1" 10 22) 1 none)),
    .advance .locking "T1" 10, .fail "simulated crash"], false⟩

theorem write_all_or_nothing_half_failed :
    (∃ t, write ⟨.empty, .zero, false⟩ halfFailed = (⟨[.insertion .inserted, .advanced,
        .failed (.regression .locking 7 5), .failed (.refused (.notAccountCreation (.claim 1))),
        .checkpoint (some ⟨.locking, some "A", 7⟩)], none⟩, t) ∧
      t.counts = ⟨1, 0, 1⟩ ∧ t.database =
        (Database.empty.append insertedSample).setCheckpoint .locking ⟨some "A", 7⟩) ∧
    (∃ report t, write ⟨.empty, .zero, false⟩ uncovered = (report, t) ∧ report.failure ≠ none ∧
      t = ⟨.empty, .zero, false⟩) ∧
    atLedgerNine.write crashing = (⟨[.insertion .inserted, .advanced],
      some (.refused (.other "simulated crash"))⟩, atLedgerNine) ∧
    crashing.Breaks atLedgerNine.database [.insertion .inserted, .advanced]
      (.refused (.other "simulated crash")) := by
  refine ⟨?_, ?_, ?_⟩
  · obtain ⟨t, hw⟩ : ∃ t, write ⟨.empty, .zero, false⟩ halfFailed = (⟨[.insertion .inserted,
        .advanced, .failed (.regression .locking 7 5),
        .failed (.refused (.notAccountCreation (.claim 1))),
        .checkpoint (some ⟨.locking, some "A", 7⟩)], none⟩, t) := ⟨_, rfl⟩
    obtain ⟨-, hdb, hcounts, -⟩ := (write_all_or_nothing hw).2.1 rfl
    refine ⟨t, hw, ?_, ?_⟩
    · rw [hcounts]
      decide
    · rw [hdb]
      rfl
  · obtain ⟨report, t, hw⟩ : ∃ report t, write ⟨.empty, .zero, false⟩ uncovered = (report, t) :=
      ⟨_, _, rfl⟩
    have hfailed : report.failure ≠ none := by
      rw [show report = (write ⟨.empty, .zero, false⟩ uncovered).1 from (congrArg Prod.fst hw).symm]
      exact nofun
    exact ⟨report, t, hw, hfailed, (write_all_or_nothing hw).1 hfailed⟩
  · obtain ⟨report, t, hw⟩ : ∃ report t, atLedgerNine.write crashing = (report, t) := ⟨_, _, rfl⟩
    obtain ⟨hbreaks, rfl, rfl⟩ := (write_all_or_nothing hw).2.2.2.1 [.insertion .inserted, .advanced]
      (.refused (.other "simulated crash")) rfl rfl
    exact ⟨hw, hbreaks⟩

end Store

end Attestor

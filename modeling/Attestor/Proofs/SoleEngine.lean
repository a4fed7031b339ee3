import Attestor.Proofs.InStep

namespace Attestor

/-- An engine with all that it works with, and how the events have ended that it was handed. -/
structure Course where
  engine : Engine
  resources : Resources
  ended : List (Event × Outcome)

/-- What happens in the life of an engine. -/
inductive Happening where
  /-- an event is processed while its chances last, if the engine is between events -/
  | process (e : Event) (chances : List Engine.Chance)
  /-- an event is handed to it and judged, if it is between events -/
  | hand (e : Event)
  /-- it goes on with the event in hand -/
  | turn (fault : Option Fault)
  | signal (s : Signal)
  /-- others write a batch -/
  | write (fault : Option Fault) (b : Batch)
  | ensureCheckpoint (role : Role)
  /-- another writer dies in the middle of its steps, which poisons the store -/
  | die (steps : List WriteStep)

def Phase.event? : Phase → Option Event
  | idle => none
  | writing e _ | waiting e _ => some e

theorem Phase.event?_some {p : Phase} {e : Event} (h : p.event? = some e) :
    ∃ a, p = .writing e a ∨ p = .waiting e a := by
  unfold event? at h
  split at h
  · cases h
  · rename_i a
    cases h
    exact ⟨a, .inl rfl⟩
  · rename_i a
    cases h
    exact ⟨a, .inr rfl⟩

namespace Engine

/-- The moves that an engine can make with an event. -/
inductive Moves (en : Engine) (r : Resources) (e : Event) : Move → Prop
  | process (chances : List Chance) : Moves en r e (en.process r e chances)
  | take : Moves en r e (en.take r e)
  | turn (hand : en.Has e) (fault : Option Fault) : Moves en r e (en.turn r fault)

theorem InStep.moves_keeps {en : Engine} {r : Resources} {e : Event} {m : Move}
    (h : en.InStep r) (hm : en.Moves r e m) : en.Keeps e m := by
  cases hm with
  | process chances => exact h.process_keeps e chances
  | take => exact h.take_keeps e
  | turn hand fault => exact h.turn_keeps hand fault

end Engine

namespace Course

def start (en : Engine) (r : Resources) : Course :=
  ⟨en, r, []⟩

/-- The course after a move that the engine has made with an event. -/
def after (c : Course) (e : Event) (m : Move) : Course :=
  ⟨m.engine, m.resources, c.ended ++ (m.outcome.map fun o => (e, o)).toList⟩

/-- The course after others have changed the store. -/
def withStore (c : Course) (store : Store) : Course :=
  { c with resources := { c.resources with store } }

def step (c : Course) : Happening → Course
  | .process e chances =>
    if c.engine.phase = .idle then c.after e (c.engine.process c.resources e chances) else c
  | .hand e => if c.engine.phase = .idle then c.after e (c.engine.take c.resources e) else c
  | .turn fault =>
    match c.engine.phase.event? with
    | some e => c.after e (c.engine.turn c.resources fault)
    | none => c
  | .signal s => { c with resources := { c.resources with signal := s } }
  | .write fault b => c.withStore (c.resources.store.writeUnder fault b).2
  | .ensureCheckpoint role => c.withStore (c.resources.store.ensureCheckpoint role).2
  | .die steps => c.withStore (c.resources.store.writeAndDie steps).2

def run (c : Course) (happenings : List Happening) : Course :=
  happenings.foldl step c

/-- Whether somebody else advances the chain's checkpoint. -/
def Interferes (c : Course) (role : Role) : Happening → Prop
  | .write fault b => b.Advances role (c.resources.store.writeUnder fault b).1
  | _ => False

/-- Nobody else ever advances the chain's checkpoint. -/
def Sole (c : Course) (role : Role) : List Happening → Prop
  | [] => True
  | x :: rest => ¬c.Interferes role x ∧ (c.step x).Sole role rest

/-- Nothing happens, the engine moves with an event, a signal comes, or the store changes under the
engine while its checkpoint stays. -/
theorem step_cases (c : Course) {x : Happening} (sole : ¬c.Interferes c.engine.role x) :
    c.step x = c ∨
    (∃ e m, c.engine.Moves c.resources e m ∧ c.step x = c.after e m) ∨
    (∃ signal, c.step x = { c with resources := { c.resources with signal } }) ∨
    ∃ store, c.resources.store.database.Changes store.database ∧
      c.resources.store.database.Unmoved c.engine.role store.database ∧
      c.step x = c.withStore store := by
  cases x with
  | process e chances =>
    simp only [step]
    split
    · exact .inr (.inl ⟨e, _, .process chances, rfl⟩)
    · exact .inl rfl
  | hand e =>
    simp only [step]
    split
    · exact .inr (.inl ⟨e, _, .take, rfl⟩)
    · exact .inl rfl
  | turn fault =>
    simp only [step]
    split
    · rename_i e he
      exact .inr (.inl ⟨e, _, .turn (Phase.event?_some he) fault, rfl⟩)
    · exact .inl rfl
  | signal s => exact .inr (.inr (.inl ⟨s, rfl⟩))
  | write fault b =>
    exact .inr (.inr (.inr ⟨_, Store.writeUnder_changes .., Store.writeUnder_unmoved sole, rfl⟩))
  | ensureCheckpoint created =>
    exact .inr (.inr (.inr ⟨_, Store.ensureCheckpoint_changes ..,
      Store.ensureCheckpoint_unmoved .., rfl⟩))
  | die steps =>
    refine .inr (.inr (.inr ⟨_, ?_, ?_, rfl⟩))
    · rw [Store.writeAndDie_database]
    · rw [Store.writeAndDie_database]
      exact .refl ..

/-- The events that were committed, in their order. -/
def committed (c : Course) : List Event :=
  c.ended.filterMap fun
    | (e, .committed _) => some e
    | _ => none

/-- The engine is in step, and its checkpoint tells of all that it has committed since the start. -/
structure Follows (origin : Engine) (c : Course) : Prop where
  role : c.engine.role = origin.role
  inStep : c.engine.InStep c.resources
  ledger : c.engine.checkpoint.ledgerSequence =
    c.committed.foldl (fun n e => max n e.ledgerSequence) origin.checkpoint.ledgerSequence
  transaction : c.engine.checkpoint.transactionId =
    (c.committed.getLast?.map Event.transactionId).or origin.checkpoint.transactionId
  failures : ∀ e error, (e, Outcome.failed error) ∈ c.ended → error = .poisoned

variable {origin : Engine} {c : Course}

theorem follows_start {en : Engine} {r : Resources} (h : en.InStep r) :
    (start en r).Follows en :=
  ⟨rfl, h, rfl, by simp [start, committed], fun _ _ he => nomatch he⟩

theorem committed_after (c : Course) (e : Event) (m : Move) :
    (∃ i, m.outcome = some (.committed i)) ∧ (c.after e m).committed = c.committed ++ [e] ∨
      (∀ i, m.outcome ≠ some (.committed i)) ∧ (c.after e m).committed = c.committed := by
  unfold after committed
  dsimp only
  rw [List.filterMap_append]
  cases ho : m.outcome with
  | none => exact .inr ⟨fun _ h => (nomatch h), by simp⟩
  | some o =>
    cases o with
    | committed i => exact .inl ⟨⟨i, rfl⟩, by simp⟩
    | _ => exact .inr ⟨fun _ h => (nomatch h), by simp⟩

/-- A commit moves the checkpoint on to the event, which is not behind it; nothing else moves it. -/
theorem Follows.after (h : Follows origin c) {e : Event} {m : Move} (hm : c.engine.Keeps e m) :
    (c.after e m).Follows origin := by
  have hfailures : ∀ e' error, (e', Outcome.failed error) ∈ (c.after e m).ended →
      error = .poisoned := by
    intro e' error hin
    rcases List.mem_append.mp hin with hin | hin
    · exact h.failures e' error hin
    · rw [Option.mem_toList, Option.map_eq_some_iff] at hin
      obtain ⟨o, ho, heq⟩ := hin
      cases heq
      exact hm.failure error ho
  obtain ⟨⟨i, hi⟩, hcommitted⟩ | ⟨hno, hcommitted⟩ := c.committed_after e m
  · obtain ⟨-, hle, hcheckpoint⟩ | ⟨hno, -⟩ := hm.checkpoint
    · refine ⟨hm.role.trans h.role, hm.inStep, ?_, ?_, hfailures⟩
      · rw [hcommitted, List.foldl_append, ← h.ledger]
        change m.engine.checkpoint.ledgerSequence = max _ _
        rw [hcheckpoint]
        exact (if_pos hle).symm
      · rw [hcommitted, List.getLast?_concat]
        change m.engine.checkpoint.transactionId = _
        rw [hcheckpoint]
        rfl
    · exact absurd hi (hno i)
  · obtain ⟨⟨i, hi⟩, -⟩ | ⟨-, hcheckpoint⟩ := hm.checkpoint
    · exact absurd hi (hno i)
    · refine ⟨hm.role.trans h.role, hm.inStep, ?_, ?_, hfailures⟩
      · rw [hcommitted, ← h.ledger]
        exact congrArg Checkpoint.ledgerSequence hcheckpoint
      · rw [hcommitted, ← h.transaction]
        exact congrArg Checkpoint.transactionId hcheckpoint

theorem Follows.withStore (h : Follows origin c) {store : Store}
    (changes : c.resources.store.database.Changes store.database)
    (unmoved : c.resources.store.database.Unmoved c.engine.role store.database) :
    (c.withStore store).Follows origin :=
  ⟨h.role, h.inStep.other (h.inStep.legible.changes changes) unmoved rfl, h.ledger, h.transaction,
    h.failures⟩

theorem Follows.step (h : Follows origin c) {x : Happening}
    (sole : ¬c.Interferes origin.role x) : (c.step x).Follows origin := by
  rw [← h.role] at sole
  obtain hs | ⟨e, m, hm, hs⟩ | ⟨signal, hs⟩ | ⟨store, changes, unmoved, hs⟩ := c.step_cases sole
  · rw [hs]
    exact h
  · rw [hs]
    exact h.after (h.inStep.moves_keeps hm)
  · rw [hs]
    exact ⟨h.role, ⟨h.inStep.legible, h.inStep.synced, h.inStep.inHand⟩, h.ledger, h.transaction,
      h.failures⟩
  · rw [hs]
    exact h.withStore changes unmoved

theorem Follows.run (h : Follows origin c) {happenings : List Happening}
    (sole : c.Sole origin.role happenings) : (c.run happenings).Follows origin := by
  induction happenings generalizing c with
  | nil => exact h
  | cons x rest ih => exact ih (h.step sole.1) sole.2

/-- An engine is created on a store that anything was done with, and nobody else advances its
chain's checkpoint. Whatever happens then, the checkpoint that it goes by is the stored one, where a
missing one counts as ledger zero without a transaction; its ledger is the greatest of that at the
start and those of the events committed since, and its transaction is that of the last of them; and
no event fails but for a poisoned store. -/
theorem stays_in_step {role : Role} {operations : List Operation} {r : Resources} {en : Engine}
    (reached : Holding.fresh.run operations = .opened r.store)
    (created : Engine.resume role r.store = .ok en) {happenings : List Happening}
    (sole : (start en r).Sole role happenings) :
    let c := (start en r).run happenings
    (∃ found, c.resources.store.database.checkpoint role = .ok found ∧
      c.engine.checkpoint = found.getD ⟨role, none, 0⟩) ∧
    c.engine.checkpoint.ledgerSequence =
      c.committed.foldl (fun n e => max n e.ledgerSequence) en.checkpoint.ledgerSequence ∧
    c.engine.checkpoint.transactionId =
      (c.committed.getLast?.map Event.transactionId).or en.checkpoint.transactionId ∧
    ∀ e error, (e, Outcome.failed error) ∈ c.ended → error = .poisoned := by
  obtain ⟨hrole, -, hstart⟩ := Engine.resume_inStep (Holding.opened_legible reached) created
  have hfollows := (follows_start hstart).run (hrole ▸ sole)
  refine ⟨?_, hfollows.ledger, hfollows.transaction, hfollows.failures⟩
  have hstored := hfollows.inStep.stored
  rwa [hfollows.role, hrole] at hstored

/-- The chain's checkpoint is created, and moved to ledger 7. -/
def movedOnce : List Operation :=
  [.reopen, .ensureCheckpoint .locking, .advance .locking "A" 7]

/-- A claim that is committed in spite of a fault, and an account creation on its ledger that is
abandoned when the node stops and then handed over again. In between the other chain moves on, and
events come from it, or too late. -/
def restless : List Happening :=
  [.process (.claim { Transfer.sample "X" 8 10 with source := .issuing } 1 none) [],
    .process (.claim (.sample "B" 9 10) 1 none) [⟨none, some .io⟩, .none],
    .write none ⟨[.advance .issuing "Y" 3], false⟩, .ensureCheckpoint .locking,
    .hand (.claim (.sample "C" 8 10) 2 none),
    .hand (.createAccount (.sample "D" 9 20) 1 (.native 1) Bridge.sample.issuingDoor),
    .turn (some .database), .signal .requested, .turn none,
    .process (.createAccount (.sample "D" 9 20) 1 (.native 1) Bridge.sample.issuingDoor) [.none]]

/-- The engine on the store that this leaves. -/
def movedCourse : Course :=
  .start ⟨.locking, ⟨.locking, some "A", 7⟩, .idle⟩ ⟨.ofIdentity (.sample 0),
    ⟨Database.empty.setCheckpoint .locking ⟨some "A", 7⟩, ⟨0, 0, 1⟩, false⟩, .running, .both .zero⟩

theorem stays_in_step_restless :
    Holding.fresh.run movedOnce = .opened movedCourse.resources.store ∧
    Engine.resume .locking movedCourse.resources.store = .ok movedCourse.engine ∧
    movedCourse.Sole .locking restless ∧
    (movedCourse.run restless).engine.checkpoint.ledgerSequence = 9 ∧
    (movedCourse.run restless).engine.checkpoint.transactionId = some "D" ∧
    ∀ e error, (e, Outcome.failed error) ∈ (movedCourse.run restless).ended →
      error = .poisoned := by
  have reached : Holding.fresh.run movedOnce = .opened movedCourse.resources.store := rfl
  have created : Engine.resume .locking movedCourse.resources.store = .ok movedCourse.engine := rfl
  have sole : movedCourse.Sole .locking restless := by
    refine ⟨id, id, ?_, id, id, id, id, id, id, id, trivial⟩
    rintro ⟨-, d, hd, transactionId, ledger, rfl⟩
    cases List.mem_singleton.mp (Batch.step_mem hd)
  have hcommitted : (movedCourse.run restless).committed = [.claim (.sample "B" 9 10) 1 none,
      .createAccount (.sample "D" 9 20) 1 (.native 1) Bridge.sample.issuingDoor] := rfl
  obtain ⟨-, hledger, htransaction, hfailures⟩ := stays_in_step reached created sole
  refine ⟨reached, created, sole, ?_, ?_, hfailures⟩
  · refine hledger.trans ?_
    rw [show (start movedCourse.engine movedCourse.resources) = movedCourse from rfl, hcommitted]
    rfl
  · refine htransaction.trans ?_
    rw [show (start movedCourse.engine movedCourse.resources) = movedCourse from rfl, hcommitted]
    rfl

end Course

end Attestor

import Attestor.Proofs.Site
import Attestor.Proofs.WholeEvents

namespace Attestor

/-- Adds up over both chains. -/
def Role.sum (f : Role → Nat) : Nat :=
  f .locking + f .issuing

theorem Role.sum_other (f : Role → Nat) (role : Role) : Role.sum f = f role + f role.other := by
  cases role with
  | locking => rfl
  | issuing => exact Nat.add_comm ..

/-- The event was given up, or failed for good. -/
def Outcome.isLoss : Outcome → Bool
  | abandoned | failed _ => true
  | _ => false

/-- Whether a move has ended an event so. -/
def Outcome.loss : Option Outcome → Nat
  | some outcome => outcome.isLoss.toNat
  | none => 0

/-- The events that were judged or committed. -/
def Tally.settled (t : Tally) : Nat :=
  t.rejected + t.discarded + t.processed

namespace Database

/-- The attestations of both directions. -/
def total (db : Database) : Nat :=
  db.count .lockingToIssuing + db.count .issuingToLocking

theorem total_of_rows {db db' : Database}
    (h : ∀ kind direction, db'.rows kind direction = db.rows kind direction) :
    db'.total = db.total := by
  simp only [total, count, h]

theorem length_rows_append (db : Database) (a : Attestation) (kind : TransferKind)
    (direction : Direction) : ((db.append a).rows kind direction).length =
      (db.rows kind direction).length +
        if kind = a.key.kind ∧ direction = a.direction then 1 else 0 := by
  by_cases hk : kind = a.key.kind ∧ direction = a.direction
  · obtain ⟨rfl, rfl⟩ := hk
    simp [rows_append]
  · simp [rows_append_other db a hk, hk]

theorem total_append (db : Database) (a : Attestation) : (db.append a).total = db.total + 1 := by
  simp only [total, count, length_rows_append]
  cases a.key.kind <;> cases a.direction <;> simp <;> omega

end Database

/-- Whether an event is in hand. -/
def Phase.load : Phase → Nat
  | idle => 0
  | writing .. | waiting .. => 1

namespace Engine

theorem load_hand {en : Engine} {e : Event} {a : Attestation}
    (h : en.phase = .writing e a ∨ en.phase = .waiting e a) : en.phase.load = 1 := by
  rcases h with h | h <;> rw [h] <;> rfl

/-- A move before which so many events were handed in keeps the counts in balance. -/
structure Balanced (en : Engine) (r : Resources) (taken : Nat) (m : Move) : Prop where
  role : m.engine.role = en.role
  others : ∀ role, role ≠ en.role → m.resources.tallies.get role = r.tallies.get role
  handed : (m.resources.tallies.get en.role).settled + Outcome.loss m.outcome +
    m.engine.phase.load = (r.tallies.get en.role).settled + en.phase.load + taken
  signed : m.resources.signer.signed + (r.tallies.get en.role).processed + en.phase.load =
    r.signer.signed + (m.resources.tallies.get en.role).processed + Outcome.loss m.outcome +
      m.engine.phase.load
  stored : ∃ new old,
    (m.resources.tallies.get en.role).processed = (r.tallies.get en.role).processed + new + old ∧
    (m.resources.tallies.get en.role).duplicates = (r.tallies.get en.role).duplicates + old ∧
    m.resources.store.counts = r.store.counts.add ⟨new, old, new + old⟩ ∧
    m.resources.store.database.total = r.store.database.total + new

variable {en : Engine} {r : Resources} {e : Event} {a : Attestation}

/-- A move that commits nothing. -/
theorem balanced_tally {taken : Nat} {outcome : Option Outcome} {phase : Phase} {signer : Signer}
    {f : Tally → Tally} (processed : ∀ t, (f t).processed = t.processed)
    (duplicates : ∀ t, (f t).duplicates = t.duplicates)
    (handed : ∀ t, (f t).settled + Outcome.loss outcome + phase.load =
      t.settled + en.phase.load + taken)
    (signed : signer.signed + en.phase.load =
      r.signer.signed + Outcome.loss outcome + phase.load) :
    en.Balanced r taken ⟨outcome, { en with phase }, { r with signer }.tally en.role f⟩ := by
  refine ⟨rfl, fun role h => Resources.tally_get_other _ h f, ?_, ?_, 0, 0, ?_, ?_, rfl, rfl⟩
  · rw [Resources.tally_get_self]
    exact handed _
  · rw [Resources.tally_get_self, processed]
    change signer.signed + (r.tallies.get en.role).processed + en.phase.load = r.signer.signed +
      (r.tallies.get en.role).processed + Outcome.loss outcome + phase.load
    omega
  · rw [Resources.tally_get_self, processed]
    rfl
  · rw [Resources.tally_get_self, duplicates]
    rfl

theorem balanced_still {outcome : Option Outcome} {phase : Phase} {signer : Signer} {taken : Nat}
    (handed : Outcome.loss outcome + phase.load = en.phase.load + taken)
    (signed : signer.signed + en.phase.load =
      r.signer.signed + Outcome.loss outcome + phase.load) :
    en.Balanced r taken ⟨outcome, { en with phase }, { r with signer }⟩ := by
  refine ⟨rfl, fun _ _ => rfl, ?_, ?_, 0, 0, rfl, rfl, rfl, rfl⟩
  · dsimp only
    omega
  · dsimp only
    omega

theorem balanced_none (en : Engine) (r : Resources) : en.Balanced r 0 ⟨none, en, r⟩ :=
  balanced_still (Nat.zero_add _) rfl

theorem take_balanced (idle : en.phase = .idle) (r : Resources) (e : Event) :
    en.Balanced r 1 (en.take r e) := by
  have hload : en.phase.load = 0 := congrArg Phase.load idle
  obtain ⟨-, ht⟩ | ⟨-, ⟨-, ht⟩ | ⟨-, ht⟩⟩ := en.take_cases r e
  · rw [ht]
    refine balanced_tally (fun _ => rfl) (fun _ => rfl) (fun t => ?_) rfl
    change t.rejected + 1 + t.discarded + t.processed + 0 + en.phase.load = _
    simp only [Tally.settled]
    omega
  · rw [ht]
    refine balanced_tally (fun _ => rfl) (fun _ => rfl) (fun t => ?_) rfl
    change t.rejected + (t.discarded + 1) + t.processed + 0 + en.phase.load = _
    simp only [Tally.settled]
    omega
  · rw [ht]
    refine balanced_still ?_ ?_
    · rw [hload]
      rfl
    · rw [hload]
      rfl

/-- What committing an event counts for in the store is what it counts for in the engine. -/
theorem committed_balanced {i : Insertion} {store : Store} (load : en.phase.load = 1)
    (hw : r.store.write (commitBatch en.role a) = (⟨[.insertion i, .advanced], none⟩, store)) :
    en.Balanced r 0 (en.committed { r with store } e i) := by
  obtain ⟨i, hnew, -, hw'⟩ | ⟨error, hf, -⟩ := r.store.write_commitBatch_cases en.role a
  · cases hw.symm.trans hw'
    have htotal : ((r.store.database.record a).setCheckpoint en.role
        ⟨some a.transactionId, a.ledgerSequence.toUInt64.toInt64⟩).total =
        (r.store.database.record a).total :=
      Database.total_of_rows fun kind direction => Database.rows_setCheckpoint ..
    refine ⟨rfl, fun role h => Resources.tally_get_other _ h _, ?_, ?_, ?_⟩
    · unfold committed
      rw [Resources.tally_get_self, load]
      change (r.tallies.get en.role).rejected + (r.tallies.get en.role).discarded +
        ((r.tallies.get en.role).processed + 1) + 0 + 0 = _
      simp only [Tally.settled]
      omega
    · unfold committed
      rw [Resources.tally_get_self, load]
      rfl
    · unfold committed
      rw [Resources.tally_get_self]
      cases i with
      | inserted =>
        refine ⟨1, 0, rfl, rfl, rfl, htotal.trans ?_⟩
        rw [Database.record_of_free (hnew.mp rfl)]
        exact Database.total_append ..
      | «exists» x =>
        refine ⟨0, 1, rfl, rfl, rfl, htotal.trans ?_⟩
        have hblocks : r.store.database.Blocks a := by
          by_contra hfree
          cases hnew.mpr hfree
        rw [Database.record_of_blocks hblocks]
        rfl
  · rw [hw] at hf
    cases hf

theorem write_balanced (hand : en.phase = .writing e a ∨ en.phase = .waiting e a) (r : Resources)
    (fault : Option Fault) : en.Balanced r 0 (en.write r e a fault) := by
  have hload := load_hand hand
  obtain ⟨i, store, hw, hm⟩ | ⟨error, -, ⟨-, hm⟩ | ⟨-, hm⟩⟩ := en.write_cases r e a fault
  · rw [hm]
    exact committed_balanced hload hw
  · rw [hm]
    refine balanced_tally (fun _ => rfl) (fun _ => rfl) (fun t => ?_) ?_
    · rw [hload]
      rfl
    · rw [hload]
      rfl
  · rw [hm]
    refine balanced_tally (fun _ => rfl) (fun _ => rfl) (fun t => ?_) ?_
    · rw [hload]
      rfl
    · rw [hload]
      rfl

theorem turn_balanced (en : Engine) (r : Resources) (fault : Option Fault) :
    en.Balanced r 0 (en.turn r fault) := by
  have hand : ∀ e a, en.phase = .writing e a ∨ en.phase = .waiting e a →
      en.Balanced r 0 (en.turn r fault) := by
    intro e a hand
    obtain ⟨-, ht⟩ | ht := turn_cases hand r fault
    · rw [ht]
      apply balanced_still
      all_goals
        rw [load_hand hand]
        rfl
    · rw [ht]
      exact write_balanced hand r fault
  cases hp : en.phase with
  | idle =>
    have ht : en.turn r fault = ⟨none, en, r⟩ := by
      rw [turn, hp]
    rw [ht]
    exact balanced_none en r
  | writing e a => exact hand e a (.inl hp)
  | waiting e a => exact hand e a (.inr hp)

end Engine

namespace Store

/-- A checkpoint that is ensured counts for nothing. -/
theorem ensureCheckpoint_counts (s : Store) (role : Role) :
    (s.ensureCheckpoint role).2.counts = s.counts ∧
      (s.ensureCheckpoint role).2.database.total = s.database.total := by
  rw [ensureCheckpoint_store]
  obtain ⟨-, ht, -⟩ | ⟨answers, d, -, hr, -, hw⟩ := s.write_cases ⟨[.ensureCheckpoint role], false⟩
  · rw [ht]
    exact ⟨rfl, rfl⟩
  · have hcounts := Draft.run_counts hr
    obtain ⟨x, d', rest, rfl, hend, hs | ⟨hl, -⟩⟩ := Draft.run_cons hr
    · obtain ⟨⟨c, d''⟩, hc, he⟩ := Except.map_ok hs
      cases he
      cases hend
      rw [hw]
      refine ⟨?_, Database.total_of_rows fun kind direction => ?_⟩
      · rw [hcounts]
        rfl
      · have hd := (Draft.ensure_after hc).database
        exact (congrArg (·.rows kind direction) hd).trans (Database.rows_ensure ..)
    · cases hl

theorem writeAndDie_counts (s : Store) (steps : List WriteStep) :
    (s.writeAndDie steps).2.counts = s.counts := by
  unfold writeAndDie
  split
  · rfl
  · split <;> rfl

end Store

namespace Node

theorem ensureCheckpoints_counts (s : Store) :
    (ensureCheckpoints s).2.counts = s.counts ∧
      (ensureCheckpoints s).2.database.total = s.database.total := by
  have hl := s.ensureCheckpoint_counts .locking
  unfold ensureCheckpoints
  split
  · simp_all
  · rename_i _ store h
    have hi := store.ensureCheckpoint_counts .issuing
    rw [h] at hl
    split <;> simp_all

/-- A start adds no rows, and a node that comes up begins to count. -/
theorem openPersistent_counts (i : Identity) (b : Bridge) (db : Database) :
    (openPersistent i b db).2.total = db.total ∧ ∀ n, (openPersistent i b db).1 = .ok n →
      ∃ store, n.service = .persistent b ⟨.ofIdentity i, store, .running, .both .zero⟩ ∧
        store.counts = .zero ∧ store.database.total = db.total := by
  have hp : db.prepare.total = db.total :=
    Database.total_of_rows fun kind direction => Database.rows_prepare ..
  unfold openPersistent
  dsimp only
  split
  · exact ⟨hp, by simp⟩
  · rename_i store ho
    have he := ensureCheckpoints_counts store
    rw [Store.openChecked_eq ho] at he
    split
    · rename_i h
      rw [Store.openChecked_eq ho] at h
      rw [h] at he
      exact ⟨he.2.trans hp, by simp⟩
    · rename_i store' h
      rw [Store.openChecked_eq ho] at h
      rw [h] at he
      refine ⟨he.2.trans hp, ?_⟩
      rintro n ⟨⟩
      exact ⟨store', rfl, he.1, he.2.trans hp⟩

end Node

namespace Site

/-- The chain whose engine takes the event that an act hands out. -/
def taker? : Site → Act → Option Role
  | up _ _ engines, .hand i _ =>
    engines[i]?.bind fun en => if en.phase = .idle then some en.role else none
  | _, _ => none

/-- The chain whose event an act ends, and how. -/
def ending? : Site → Act → Option (Role × Outcome)
  | up _ r engines, .hand i e =>
    engines[i]?.bind fun en => (handTo r e en).outcome.map fun o => (en.role, o)
  | up _ r engines, .turn i fault =>
    engines[i]?.bind fun en => (en.turn r fault).outcome.map fun o => (en.role, o)
  | _, _ => none

def run (s : Site) (acts : List Act) : Site :=
  acts.foldl step s

/-- What is to be seen of the acts of a run, in their order. -/
def log (see : Site → Act → Option α) : Site → List Act → List α
  | _, [] => []
  | s, act :: rest => (see s act).toList ++ log see (s.step act) rest

/-- The events of a chain that were given up or failed. -/
def losses (endings : List (Role × Outcome)) (role : Role) : Nat :=
  endings.countP fun p => p.1 = role && p.2.isLoss

/-- The events that a chain's engines have in hand. -/
def inHand (engines : List Engine) (role : Role) : Nat :=
  (engines.map fun en => if en.role = role then en.phase.load else 0).sum

theorem losses_append (endings : List (Role × Outcome)) (owner : Role) (outcome : Option Outcome)
    (role : Role) : losses (endings ++ (outcome.map fun o => (owner, o)).toList) role =
      losses endings role + if owner = role then Outcome.loss outcome else 0 := by
  rw [losses, List.countP_append, ← losses]
  cases outcome with
  | none => simp [Outcome.loss]
  | some o =>
    by_cases hr : owner = role
    · cases ho : o.isLoss <;> simp [Outcome.loss, hr, ho]
    · simp [hr]

theorem inHand_set {engines : List Engine} {i : Nat} {en en' : Engine} (h : engines[i]? = some en)
    (role : en'.role = en.role) (owner : Role) :
    inHand (engines.set i en') owner + (if en.role = owner then en.phase.load else 0) =
      inHand engines owner + if en.role = owner then en'.phase.load else 0 := by
  obtain ⟨hi, rfl⟩ := List.getElem?_eq_some_iff.mp h
  obtain ⟨front, back, hsplit, -, hset⟩ : ∃ front back, engines = front ++ engines[i] :: back ∧
      front.length = i ∧ engines.set i en' = front ++ en' :: back :=
    List.exists_of_set hi
  have hold := congrArg (inHand · owner) hsplit
  simp only [inHand, List.map_append, List.sum_append, List.map_cons, List.sum_cons] at hold
  simp only [inHand, hset, List.map_append, List.sum_append, List.map_cons, List.sum_cons, role]
  omega

theorem inHand_eraseIdx {engines : List Engine} {i : Nat}
    (idle : ∀ en, engines[i]? = some en → en.phase = .idle) (role : Role) :
    inHand (engines.eraseIdx i) role = inHand engines role := by
  induction engines generalizing i with
  | nil => rfl
  | cons en rest ih =>
    cases i with
    | zero => simp [inHand, idle en rfl, Phase.load]
    | succ i =>
      have hrest := ih (i := i) idle
      simp only [inHand] at hrest
      simp only [inHand, List.eraseIdx_cons_succ, List.map_cons, List.sum_cons, hrest]

/-- The counts of a node agree with each other and with what has become of the events. -/
structure Books (base : Nat) (takers : List Role) (endings : List (Role × Outcome)) (r : Resources)
    (engines : List Engine) : Prop where
  handed : ∀ role, takers.count role =
    (r.tallies.get role).settled + losses endings role + inHand engines role
  fresh : ∀ role, (r.tallies.get role).duplicates ≤ (r.tallies.get role).processed
  duplicates : (Role.sum fun role => (r.tallies.get role).duplicates) = r.store.counts.duplicates
  advances : (Role.sum fun role => (r.tallies.get role).processed) = r.store.counts.advances
  inserted : r.store.counts.inserted + r.store.counts.duplicates = r.store.counts.advances
  rows : r.store.database.total = base + r.store.counts.inserted
  signed : r.signer.signed = Role.sum fun role =>
    (r.tallies.get role).processed + losses endings role + inHand engines role

variable {base : Nat} {takers : List Role} {endings : List (Role × Outcome)} {r : Resources}
  {engines : List Engine}

theorem Books.move (h : Books base takers endings r engines) {i : Nat} {en : Engine}
    (hi : engines[i]? = some en) {taken : Bool} {m : Move} (hm : en.Balanced r taken.toNat m) :
    Books base (takers ++ if taken then [en.role] else [])
      (endings ++ (m.outcome.map fun o => (en.role, o)).toList) m.resources
      (engines.set i m.engine) := by
  have htakers : ∀ role, (takers ++ if taken then [en.role] else []).count role =
      takers.count role + if en.role = role then taken.toNat else 0 := by
    intro role
    rw [List.count_append]
    cases taken <;> simp [List.count_singleton]
  have hother : en.role.other ≠ en.role := by
    cases en.role <;> decide
  have hsame := hm.others en.role.other hother
  obtain ⟨new, old, hp, hd, hcounts, hrows⟩ := hm.stored
  have hlosses := losses_append endings en.role m.outcome
  have hhand := inHand_set hi hm.role
  refine ⟨?_, ?_, ?_, ?_, ?_, ?_, ?_⟩
  · intro role
    have hrole := hhand role
    rw [htakers, hlosses, h.handed role]
    by_cases hr : en.role = role
    · subst hr
      have hm' := hm.handed
      simp only [↓reduceIte] at hrole ⊢
      omega
    · simp only [hr, ↓reduceIte] at hrole ⊢
      rw [hm.others role (Ne.symm hr)]
      omega
  · intro role
    by_cases hr : role = en.role
    · subst hr
      have hf := h.fresh en.role
      omega
    · rw [hm.others role hr]
      exact h.fresh role
  · have hold := h.duplicates
    rw [Role.sum_other _ en.role] at hold ⊢
    rw [hsame, hcounts, hd]
    simp only [StoreCounts.add]
    omega
  · have hold := h.advances
    rw [Role.sum_other _ en.role] at hold ⊢
    rw [hsame, hcounts, hp]
    simp only [StoreCounts.add]
    omega
  · have hold := h.inserted
    rw [hcounts]
    simp only [StoreCounts.add]
    omega
  · have hold := h.rows
    rw [hcounts, hrows, hold]
    simp only [StoreCounts.add]
    omega
  · have hold := h.signed
    have hm' := hm.signed
    have hrole := hhand en.role
    have hrole' := hhand en.role.other
    rw [Role.sum_other _ en.role] at hold ⊢
    rw [hsame, hlosses, hlosses]
    simp only [↓reduceIte, Ne.symm hother] at hrole hrole' ⊢
    omega

/-- Before a node comes up nothing has happened. -/
def Booked (base : Nat) (takers : List Role) (endings : List (Role × Outcome)) : Site → Prop
  | down db => db.total = base ∧ takers = [] ∧ endings = []
  | up _ r engines => Books base takers endings r engines

/-- An act that ends a node, or an engine that has an event in hand. -/
def Cuts : Site → Act → Prop
  | up .., .halt => True
  | up _ _ engines, .drop i => ∃ en, engines[i]? = some en ∧ en.phase ≠ .idle
  | _, _ => False

/-- Nothing is cut short. -/
def Steady : Site → List Act → Prop
  | _, [] => True
  | s, act :: rest => ¬s.Cuts act ∧ (s.step act).Steady rest

theorem handTo_balanced (r : Resources) (e : Event) (en : Engine) :
    en.Balanced r (decide (en.phase = .idle)).toNat (handTo r e en) := by
  unfold handTo
  by_cases h : en.phase = .idle
  · rw [if_pos h]
    simpa [h] using Engine.take_balanced h r e
  · rw [if_neg h]
    simp only [h, decide_false, Bool.toNat_false]
    exact Engine.balanced_none en r

theorem books_opened (identity : Identity) {store : Store} (counts : store.counts = .zero)
    (total : store.database.total = base) :
    Books base [] [] ⟨.ofIdentity identity, store, .running, .both .zero⟩ [] := by
  obtain ⟨db, counted, poisoned⟩ := store
  cases counts
  refine ⟨?_, ?_, rfl, rfl, rfl, total, rfl⟩
  · intro role
    cases role <;> rfl
  · intro role
    cases role <;> exact Nat.le_refl 0

/-- A node that comes up has nothing on its books, and one that does not leaves the rows alone. -/
theorem booked_start (db : Database) (identity : Identity) (bridge : Bridge) :
    ((down db).step (.start identity bridge)).Booked db.total [] [] := by
  obtain ⟨hd, hn⟩ := Node.openPersistent_counts identity bridge db
  simp only [step]
  split
  · rename_i b r loops _ ho
    rw [ho] at hn
    obtain ⟨store, hs, hcounts, htotal⟩ := hn _ rfl
    cases hs
    exact books_opened identity hcounts htotal
  · rename_i ho
    rw [ho] at hd
    exact ⟨hd, rfl, rfl⟩

/-- What others have done while no engine moved. -/
theorem Books.others (h : Books base takers endings r engines) {r' : Resources}
    {engines' : List Engine} (tallies : r'.tallies = r.tallies) (signer : r'.signer = r.signer)
    (counts : r'.store.counts = r.store.counts)
    (rows : r'.store.database.total = r.store.database.total)
    (hand : ∀ role, inHand engines' role = inHand engines role) :
    Books base takers endings r' engines' := by
  refine ⟨?_, ?_, ?_, ?_, ?_, ?_, ?_⟩
  · intro role
    rw [tallies, hand]
    exact h.handed role
  · rw [tallies]
    exact h.fresh
  · rw [tallies, counts]
    exact h.duplicates
  · rw [tallies, counts]
    exact h.advances
  · rw [counts]
    exact h.inserted
  · rw [rows, counts]
    exact h.rows
  · simp only [tallies, signer, hand]
    exact h.signed

theorem Booked.step {s : Site} (h : s.Booked base takers endings) {act : Act}
    (steady : ¬s.Cuts act) : (s.step act).Booked base (takers ++ (s.taker? act).toList)
      (endings ++ (s.ending? act).toList) := by
  cases s with
  | down db =>
    obtain ⟨rfl, rfl, rfl⟩ := h
    cases act with
    | start identity bridge => exact booked_start db identity bridge
    | _ => exact ⟨rfl, rfl, rfl⟩
  | up b r engines =>
    have hstill : ∀ {r' : Resources} {engines' : List Engine}, r'.tallies = r.tallies →
        r'.signer = r.signer → r'.store.counts = r.store.counts →
        r'.store.database.total = r.store.database.total →
        (∀ role, inHand engines' role = inHand engines role) →
        (up b r' engines').Booked base (takers ++ []) (endings ++ []) := by
      intro r' engines' ht hs hc hr hh
      rw [List.append_nil, List.append_nil]
      exact Books.others h ht hs hc hr hh
    cases act with
    | halt => exact absurd trivial steady
    | resume role =>
      simp only [Site.step]
      split
      · rename_i en hen
        refine hstill rfl rfl rfl rfl fun owner => ?_
        have hidle : en.phase = .idle := by
          obtain ⟨_, -, he⟩ := Except.bind_ok hen
          cases he
          rfl
        simp [inHand, hidle, Phase.load]
      · exact hstill rfl rfl rfl rfl fun _ => rfl
    | drop i =>
      refine hstill rfl rfl rfl rfl (inHand_eraseIdx fun en hen => ?_)
      by_contra hbusy
      exact steady ⟨en, hen, hbusy⟩
    | hand i e =>
      simp only [Site.step, Site.move, taker?, ending?]
      cases hi : engines[i]? with
      | none => exact hstill rfl rfl rfl rfl fun _ => rfl
      | some en =>
        have hmove := Books.move h hi (handTo_balanced r e en)
        by_cases hidle : en.phase = .idle
        all_goals simpa [Booked, hidle] using hmove
    | turn i fault =>
      simp only [Site.step, Site.move, taker?, ending?]
      cases hi : engines[i]? with
      | none => exact hstill rfl rfl rfl rfl fun _ => rfl
      | some en =>
        have hturn : en.Balanced r false.toNat (en.turn r fault) := en.turn_balanced r fault
        exact Books.move h hi hturn
    | request line =>
      obtain ⟨signal, hline⟩ := Service.handleLine_persistent b r line
      simp only [Site.step, hline]
      exact hstill rfl rfl rfl rfl fun _ => rfl
    | die steps =>
      refine hstill rfl rfl ?_ ?_ fun _ => rfl
      · exact r.store.writeAndDie_counts steps
      · exact congrArg Database.total (r.store.writeAndDie_database steps)
    | start identity bridge => exact hstill rfl rfl rfl rfl fun _ => rfl
    | signal signal => exact hstill rfl rfl rfl rfl fun _ => rfl

/-- The books stay right, act by act. -/
theorem Booked.run {s : Site} (h : s.Booked base takers endings) {acts : List Act}
    (steady : s.Steady acts) : (s.run acts).Booked base (takers ++ s.log taker? acts)
      (endings ++ s.log ending? acts) := by
  induction acts generalizing s takers endings with
  | nil =>
    rw [log, log, List.append_nil, List.append_nil]
    exact h
  | cons act rest ih =>
    rw [log, log, ← List.append_assoc, ← List.append_assoc]
    exact ih (h.step steady.1) steady.2

theorem inHand_idle (idle : ∀ en ∈ engines, en.phase = .idle) (role : Role) :
    inHand engines role = 0 := by
  refine List.sum_eq_zero fun n hn => ?_
  obtain ⟨en, hen, rfl⟩ := List.mem_map.mp hn
  simp [idle en hen, Phase.load]

/-- The counters account for every event. A node starts on a database, engines come and go between
events, are handed whatever events there are and write under whatever faults, the node is asked and
told to stop. Between events: those that were handed to a chain's engines are those it has rejected,
discarded and processed and those that were given up or failed; the processed ones that were no
duplicates are what the store has counted as inserted and what it holds more than at the start; the
store has counted the duplicates, and an advance for each event that was processed; and the messages
signed are the events that were processed, given up or failed. -/
theorem counters_account (db : Database) {acts : List Act} (steady : (down db).Steady acts)
    {b : Bridge} {r : Resources} {engines : List Engine}
    (reached : (down db).run acts = up b r engines)
    (between : ∀ en ∈ engines, en.phase = .idle) :
    (∀ role, ((down db).log taker? acts).count role =
      (r.tallies.get role).rejected + (r.tallies.get role).discarded +
        (r.tallies.get role).processed + losses ((down db).log ending? acts) role) ∧
    (∀ role, (r.tallies.get role).duplicates ≤ (r.tallies.get role).processed) ∧
    (Role.sum fun role => (r.tallies.get role).processed - (r.tallies.get role).duplicates) =
      r.store.counts.inserted ∧
    r.store.database.total = db.total + r.store.counts.inserted ∧
    (Role.sum fun role => (r.tallies.get role).duplicates) = r.store.counts.duplicates ∧
    (Role.sum fun role => (r.tallies.get role).processed) = r.store.counts.advances ∧
    r.signer.signed = Role.sum fun role =>
      (r.tallies.get role).processed + losses ((down db).log ending? acts) role := by
  have hstart : (down db).Booked db.total [] [] := ⟨rfl, rfl, rfl⟩
  have hbooks := hstart.run steady
  rw [reached, List.nil_append, List.nil_append] at hbooks
  obtain ⟨handed, fresh, duplicates, advances, inserted, rows, signed⟩ := hbooks
  simp only [inHand_idle between, Nat.add_zero] at handed signed
  refine ⟨handed, fresh, ?_, rows, duplicates, advances, signed⟩
  have hlocking := fresh .locking
  have hissuing := fresh .issuing
  simp only [Role.sum] at duplicates advances ⊢
  omega

/-- Both chains are observed. The first writes a claim at the second attempt, is handed one from
before it, and writes an account creation although the node is to stop; the second is handed an
event of the first, and gives up one of its own. -/
def workday : List Act :=
  [.start (.sample 0) .sample, .resume .locking, .resume .issuing,
    .hand 0 (.claim (.sample "A" 7 10) 1 none), .turn 0 (some .io),
    .hand 1 (.claim (.sample "A" 7 10) 1 none), .turn 0 none,
    .hand 1 (.claim { Transfer.sample "B" 3 10 with source := .issuing } 1 none),
    .turn 1 (some .database), .hand 0 (.claim (.sample "C" 6 10) 2 none), .signal .requested,
    .turn 1 none,
    .hand 0 (.createAccount (.sample "D" 8 20) 1 (.native 1) Bridge.sample.issuingDoor),
    .turn 0 none]

theorem counters_account_workday : ∃ b r engines, (down .empty).run workday = up b r engines ∧
    (down .empty).Steady workday ∧ (∀ en ∈ engines, en.phase = .idle) ∧
    ((down .empty).log taker? workday).count .locking = 3 ∧ r.store.counts.inserted = 2 ∧
    r.store.database.total = 2 ∧ r.signer.signed = 3 := by
  have steady : (down .empty).Steady workday :=
    ⟨id, id, id, id, id, id, id, id, id, id, id, id, id, id, trivial⟩
  obtain ⟨b, r, engines, reached, hphases, htallies⟩ : ∃ b r engines,
      (down .empty).run workday = up b r engines ∧
      engines.map Engine.phase = [.idle, .idle] ∧
      r.tallies = ⟨⟨2, 0, 1, 0, 1⟩, ⟨0, 0, 0, 1, 1⟩⟩ := ⟨_, _, _, rfl, rfl, rfl⟩
  have hendings : (down .empty).log ending? workday = [(.issuing, .rejected),
      (.locking, .committed .inserted), (.locking, .discarded), (.issuing, .abandoned),
      (.locking, .committed .inserted)] := rfl
  have between : ∀ en ∈ engines, en.phase = .idle := by
    intro en hen
    have hmem := List.mem_map_of_mem (f := Engine.phase) hen
    rw [hphases] at hmem
    simpa using hmem
  obtain ⟨handed, -, inserted, rows, -, -, signed⟩ := counters_account .empty steady reached between
  have hlocking := handed .locking
  rw [htallies, hendings] at hlocking signed
  rw [htallies] at inserted
  have htwo : r.store.counts.inserted = 2 := inserted.symm
  refine ⟨b, r, engines, reached, steady, between, hlocking, htwo, ?_, signed⟩
  rw [rows, htwo]
  rfl

end Site

end Attestor

import Attestor.Proofs.Lookup
import Attestor.Witness.Node

namespace Attestor

namespace Engine

theorem take_store (en : Engine) (r : Resources) (e : Event) :
    (en.take r e).resources.store = r.store := by
  unfold take
  split
  · rfl
  · split <;> rfl

theorem write_store (en : Engine) (r : Resources) (e : Event) (a : Attestation)
    (fault : Option Fault) :
    (en.write r e a fault).resources.store =
      (r.store.writeUnder fault (commitBatch en.role a)).2 := by
  unfold write
  dsimp only
  split
  · rfl
  · split <;> rfl

theorem turn_changes (en : Engine) (r : Resources) (fault : Option Fault) :
    r.store.database.Changes (en.turn r fault).resources.store.database := by
  unfold turn
  split
  · exact .refl
  · rw [write_store]
    exact r.store.writeUnder_changes ..
  · split
    · exact .refl
    · rw [write_store]
      exact r.store.writeUnder_changes ..

end Engine

namespace Service

theorem handle_persistent (b : Bridge) (r : Resources) (request : Request) :
    ∃ signal, ((persistent b r).handle request).2 = persistent b { r with signal } := by
  unfold handle
  split
  all_goals first | exact ⟨r.signal, rfl⟩ | exact ⟨.requested, rfl⟩ | contradiction

/-- A request leaves the node as it is, apart from the stop signal. -/
theorem handleLine_persistent (b : Bridge) (r : Resources) (line : String) :
    ∃ signal, ((persistent b r).handleLine line).2 = persistent b { r with signal } := by
  unfold handleLine
  split
  · unfold handleJson
    split
    · exact handle_persistent b r _
    · exact ⟨r.signal, rfl⟩
  · exact ⟨r.signal, rfl⟩

end Service

namespace Node

theorem ensureCheckpoints_changes (s : Store) :
    s.database.Changes (ensureCheckpoints s).2.database := by
  have hl := s.ensureCheckpoint_changes .locking
  unfold ensureCheckpoints
  split
  · simp_all
  · rename_i _ store h
    have hi := store.ensureCheckpoint_changes .issuing
    rw [h] at hl
    split <;> simp_all only
    all_goals exact hl.trans hi

/-- A start changes the tables as writes do, and a node that comes up works on what it leaves. -/
theorem openPersistent_changes (i : Identity) (b : Bridge) (db : Database) :
    db.Changes (openPersistent i b db).2 ∧ ∀ n, (openPersistent i b db).1 = .ok n →
      ∃ store, n.service = .persistent b ⟨.ofIdentity i, store, .running, .both .zero⟩ ∧
        store.database = (openPersistent i b db).2 := by
  have hp : db.Changes db.prepare := .single .prepare
  unfold openPersistent
  dsimp only
  split
  · exact ⟨hp, by simp⟩
  · rename_i store ho
    have hd : store.database = db.prepare := by
      rw [Store.openChecked_eq ho]
    have he := ensureCheckpoints_changes store
    rw [hd] at he
    split
    · rename_i h
      rw [h] at he
      exact ⟨hp.trans he, by simp⟩
    · rename_i store' h
      rw [h] at he
      refine ⟨hp.trans he, ?_⟩
      rintro n ⟨⟩
      exact ⟨store', rfl, rfl⟩

end Node

/-- A database without a node, or with one at work on it: its bridge, what its engines share, and
the engines. -/
inductive Site where
  | down (db : Database)
  | up (bridge : Bridge) (resources : Resources) (engines : List Engine)

/-- What can happen next. Engines are named by their position. -/
inductive Act where
  | start (identity : Identity) (bridge : Bridge)
  /-- the node ends, in order or not; only the database remains -/
  | halt
  | resume (role : Role)
  | drop (i : Nat)
  | hand (i : Nat) (e : Event)
  /-- an engine goes on with the event in hand; a fault may hit its write -/
  | turn (i : Nat) (fault : Option Fault)
  | signal (s : Signal)
  | request (line : String)
  /-- a writer dies in the middle of its steps -/
  | die (steps : List WriteStep)

/-- A request and the answer to it. -/
structure Exchange where
  line : String
  response : Response

namespace Site

def database : Site → Database
  | down db => db
  | up _ r _ => r.store.database

/-- A move of the engine at a position, if there is one. -/
def move (b : Bridge) (r : Resources) (engines : List Engine) (i : Nat) (f : Engine → Move) :
    Site :=
  match engines[i]? with
  | some en => up b (f en).resources (engines.set i (f en).engine)
  | none => up b r engines

/-- An engine that is busy takes no other event. -/
def handTo (r : Resources) (e : Event) (en : Engine) : Move :=
  if en.phase = .idle then en.take r e else ⟨none, en, r⟩

def step : Site → Act → Site
  | down db, .start identity bridge =>
    match Node.openPersistent identity bridge db with
    | (.ok ⟨.persistent b r, _⟩, _) => up b r []
    | (_, db) => down db
  | down db, _ => down db
  | up b r engines, .start .. => up b r engines
  | up _ r _, .halt => down r.store.database
  | up b r engines, .resume role =>
    match Engine.resume role r.store with
    | .ok en => up b r (engines ++ [en])
    | .error _ => up b r engines
  | up b r engines, .drop i => up b r (engines.eraseIdx i)
  | up b r engines, .hand i e => move b r engines i (handTo r e)
  | up b r engines, .turn i fault => move b r engines i fun en => en.turn r fault
  | up b r engines, .signal s => up b { r with signal := s } engines
  | up b r engines, .request line =>
    match ((Service.persistent b r).handleLine line).2 with
    | .persistent b r => up b r engines
    | .stateless .. => up b r engines
  | up b r engines, .die steps => up b { r with store := (r.store.writeAndDie steps).2 } engines

/-- The exchange that an act is, if it is one. Without a node nobody answers. -/
def exchange? : Site → Act → Option Exchange
  | up b r _, .request line => some ⟨line, ((Service.persistent b r).handleLine line).1⟩
  | _, _ => none

/-- The exchanges of a run, in their order. -/
def exchanges : Site → List Act → List Exchange
  | _, [] => []
  | s, act :: rest => (s.exchange? act).toList ++ (s.step act).exchanges rest

theorem move_changes {b : Bridge} {r : Resources} (engines : List Engine) (i : Nat)
    {f : Engine → Move}
    (h : ∀ en, r.store.database.Changes (f en).resources.store.database) :
    r.store.database.Changes (move b r engines i f).database := by
  unfold move
  split
  · exact h _
  · exact .refl

theorem handTo_store (r : Resources) (e : Event) (en : Engine) :
    (handTo r e en).resources.store = r.store := by
  unfold handTo
  split
  · exact en.take_store r e
  · rfl

/-- One act changes the tables as writes do. -/
theorem step_changes (s : Site) (act : Act) : s.database.Changes (s.step act).database := by
  cases s with
  | down db =>
    cases act with
    | start identity bridge =>
      obtain ⟨hc, hn⟩ := Node.openPersistent_changes identity bridge db
      simp only [step]
      split
      · rename_i b r loops _ h
        rw [h] at hc hn
        obtain ⟨store, hs, hd⟩ := hn _ rfl
        cases hs
        rw [database, database, hd]
        exact hc
      · rename_i h
        rw [h] at hc
        exact hc
    | _ => exact .refl
  | up b r engines =>
    cases act with
    | resume role =>
      simp only [step]
      split <;> exact .refl
    | hand i e =>
      apply move_changes
      intro en
      rw [handTo_store]
    | turn i fault =>
      apply move_changes
      intro en
      exact en.turn_changes r fault
    | request line =>
      obtain ⟨signal, h⟩ := Service.handleLine_persistent b r line
      simp only [step, h]
      exact .refl
    | die steps =>
      simp only [step, database, Store.writeAndDie_database]
      exact .refl
    | _ => exact .refl

/-- Every exchange of a run is with a node at a site of which whatever the acts keep is true. -/
theorem exchange_at {P : Site → Prop} {acts : List Act}
    (kept : ∀ s, ∀ act ∈ acts, P s → P (s.step act)) {s : Site} (start : P s) {x : Exchange}
    (h : x ∈ s.exchanges acts) : ∃ b r engines, P (up b r engines) ∧ .request x.line ∈ acts ∧
      x.response = ((Service.persistent b r).handleLine x.line).1 := by
  induction acts generalizing s with
  | nil => cases h
  | cons act rest ih =>
    rcases List.mem_append.mp h with h | h
    · rw [Option.mem_toList] at h
      cases s with
      | down db => cases act <;> cases h
      | up b r engines =>
        cases act with
        | request line =>
          cases h
          exact ⟨b, r, engines, start, List.mem_cons_self, rfl⟩
        | _ => cases h
    · have hrest : ∀ s, ∀ act ∈ rest, P s → P (s.step act) := by
        intro s act ha
        exact kept s act (List.mem_cons_of_mem _ ha)
      obtain ⟨b, r, engines, hp, hm, hx⟩ := ih hrest (kept s act List.mem_cons_self start) h
      exact ⟨b, r, engines, hp, List.mem_cons_of_mem _ hm, hx⟩

/-- Every exchange of a run is with a node whose store has come from the first tables by writes. -/
theorem exchange_store {s : Site} {acts : List Act} {x : Exchange} (h : x ∈ s.exchanges acts) :
    ∃ b r, s.database.Changes r.store.database ∧
      x.response = ((Service.persistent b r).handleLine x.line).1 := by
  have hkept : ∀ t : Site, ∀ act ∈ acts, s.database.Changes t.database →
      s.database.Changes (t.step act).database := by
    intro t act _ hc
    exact hc.trans (t.step_changes act)
  obtain ⟨b, r, engines, hc, -, hx⟩ :=
    exchange_at (P := fun t => s.database.Changes t.database) hkept .refl h
  exact ⟨b, r, hc, hx⟩

end Site

end Attestor

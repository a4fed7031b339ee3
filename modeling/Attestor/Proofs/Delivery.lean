import Attestor.Proofs.EventCommit

namespace Attestor

/-- What becomes of events that an engine takes one after the other: those that it commits, whether
all of them come to their end, and where that leaves it. -/
structure Delivery where
  committed : List Event
  done : Bool
  engine : Engine
  resources : Resources

def Delivery.database (d : Delivery) : Database :=
  d.resources.store.database

namespace Engine

/-- Takes events in their order, each with what happens around its turns. An event that is
abandoned, that fails for good or whose chances run out is the last. -/
def deliver (en : Engine) (r : Resources) : List (Event × List Chance) → Delivery
  | [] => ⟨[], true, en, r⟩
  | (e, chances) :: rest =>
    let m := en.process r e chances
    match m.outcome with
    | some .rejected | some .discarded => m.engine.deliver m.resources rest
    | some (.committed _) =>
      let d := m.engine.deliver m.resources rest
      { d with committed := e :: d.committed }
    | _ => ⟨[], false, m.engine, m.resources⟩

/-- An event that lies behind the checkpoint changes counts only. -/
theorem deliver_seen {en : Engine} (r : Resources) {e : Event} (hrole : e.source = en.role)
    (hseen : alreadySeen en.checkpoint e = true) (chances : List Chance)
    (rest : List (Event × List Chance)) :
    ∃ tallies, en.deliver r ((e, chances) :: rest) = en.deliver { r with tallies } rest := by
  obtain ⟨tallies, hp⟩ := process_seen r hrole hseen chances
  exact ⟨tallies, by rw [deliver, hp]⟩

theorem deliver_committed {en : Engine} {r : Resources} {i : Identity} {db : Database} {e : Event}
    {chances : List Chance} (h : Commits en.role i db e (en.process r e chances))
    (rest : List (Event × List Chance)) :
    en.deliver r ((e, chances) :: rest) =
      { (en.process r e chances).engine.deliver (en.process r e chances).resources rest with
        committed := e :: ((en.process r e chances).engine.deliver
          (en.process r e chances).resources rest).committed } := by
  obtain ⟨x, hx⟩ := h.outcome
  simp only [deliver, hx]

theorem deliver_stopped {en : Engine} {r : Resources} {e : Event} {chances : List Chance}
    (h : (en.process r e chances).outcome = none ∨
      (en.process r e chances).outcome = some .abandoned ∨
      ∃ error, (en.process r e chances).outcome = some (.failed error))
    (rest : List (Event × List Chance)) :
    en.deliver r ((e, chances) :: rest) =
      ⟨[], false, (en.process r e chances).engine, (en.process r e chances).resources⟩ := by
  rcases h with h | h | ⟨error, h⟩ <;> simp only [deliver, h]

end Engine

namespace Database

/-- Neither rows nor a checkpoint beyond the start of a chain. -/
structure Blank (db : Database) : Prop where
  tabled : db.checkpoints ≠ none
  bare : ∀ kind direction, db.rows kind direction = []
  unmoved : ∀ role, db.checkpointRow? role = none ∨ db.checkpointRow? role = some ⟨none, 0⟩

theorem blank_empty : empty.Blank := by
  refine ⟨nofun, ?_, ?_⟩
  · intro kind direction
    cases kind <;> cases direction <;> rfl
  · intro role
    cases role <;> exact .inl rfl

theorem Blank.legible {db : Database} (h : db.Blank) : db.Legible := by
  refine ⟨h.tabled, ?_, ?_⟩
  · intro kind direction r hr
    rw [h.bare] at hr
    cases hr
  · intro role row hr
    rcases h.unmoved role with hn | hz
    · rw [hn] at hr
      cases hr
    · rw [hz] at hr
      cases hr
      exact ⟨0, rfl⟩

theorem Blank.covered {db : Database} (h : db.Blank) : db.Covered := by
  intro kind direction r hr
  rw [h.bare] at hr
  cases hr

theorem Blank.position {db : Database} (h : db.Blank) (role : Role) :
    db.position role = ⟨role, none, 0⟩ := by
  obtain ⟨-, -, hp⟩ | ⟨transactionId, n, hr, -, hp⟩ := h.legible.position role
  · exact hp
  · rcases h.unmoved role with hn | hz
    · rw [hr] at hn
      cases hn
    · rw [hr, Option.some.injEq, CheckpointRow.mk.injEq] at hz
      obtain ⟨rfl, hl⟩ := hz
      have hn : n = 0 := Row.ledger_inj hl
      rw [hp, hn]

/-- The tables after the attestations of events are committed in their order. -/
def commits (db : Database) (i : Identity) (events : List Event) : Database :=
  events.foldl (fun db e => db.commit (i.attest e)) db

theorem commits_append (db : Database) (i : Identity) (events : List Event) (e : Event) :
    db.commits i (events ++ [e]) = (db.commits i events).commit (i.attest e) := by
  rw [commits, List.foldl_append]
  rfl

theorem Legible.commits {db : Database} (h : db.Legible) (i : Identity) (events : List Event) :
    (db.commits i events).Legible := by
  induction events generalizing db with
  | nil => exact h
  | cons e rest ih => exact ih (h.commit (i.attest_storable e))

theorem rows_commits_prefix (db : Database) (i : Identity) (events : List Event)
    (kind : TransferKind) (direction : Direction) :
    db.rows kind direction <+: (db.commits i events).rows kind direction := by
  induction events generalizing db with
  | nil => exact List.prefix_refl _
  | cons e rest ih =>
    have hr := rows_record_prefix db (i.attest e) kind direction
    rw [← rows_commit] at hr
    exact hr.trans (ih (db.commit (i.attest e)))

/-- An event that was committed once is never recorded again. -/
theorem blocks_of_committed (db : Database) (i : Identity) {events : List Event} {e : Event}
    (h : e ∈ events) : (db.commits i events).Blocks (i.attest e) := by
  obtain ⟨before, after, rfl⟩ := List.append_of_mem h
  have hsplit : db.commits i (before ++ e :: after) =
      ((db.commits i before).commit (i.attest e)).commits i after := by
    simp only [commits, List.foldl_append, List.foldl_cons]
  rw [hsplit]
  apply blocks_of_recorded (db.commits i before)
  intro kind direction
  rw [← rows_commit]
  exact rows_commits_prefix _ i after kind direction

end Database

namespace Engine

/-- The checkpoint after events: that of the last of them, or the start of the chain. -/
def IsAt (en : Engine) (events : List Event) : Prop :=
  (events = [] ∧ en.checkpoint = ⟨en.role, none, 0⟩) ∨
    ∃ before e, events = before ++ [e] ∧
      en.checkpoint = ⟨en.role, some e.transactionId, e.ledgerSequence⟩

/-- Events in the order of their ledgers. A transaction that comes again is the same event. -/
structure Ordered (events : List Event) : Prop where
  ledgers : events.Pairwise fun e f => e.ledgerSequence ≤ f.ledgerSequence
  named : ∀ e ∈ events, ∀ f ∈ events, e.transactionId = f.transactionId → e = f

theorem IsAt.seen {en : Engine} {events rest : List Event} {e : Event} (h : en.IsAt events)
    (ho : Ordered (events ++ e :: rest)) (hseen : alreadySeen en.checkpoint e = true) :
    ∃ before, events = before ++ [e] ∧
      en.checkpoint = ⟨en.role, some e.transactionId, e.ledgerSequence⟩ := by
  obtain ⟨rfl, hc⟩ | ⟨before, f, rfl, hc⟩ := h
  · rw [hc, not_seen_start] at hseen
    cases hseen
  · have hl : f.ledgerSequence ≤ e.ledgerSequence :=
      (List.pairwise_append.mp ho.ledgers).2.2 f (by simp) e (by simp)
    rw [hc] at hseen
    have ht := Option.some.inj (seen_at_checkpoint hl hseen)
    have hfe : f = e := ho.named f (by simp) e (by simp) ht
    subst hfe
    exact ⟨before, rfl, hc⟩

/-- Faults that pass do not keep an engine from going through all events. -/
theorem deliver_done {feed : List (Event × List Fault)} {en : Engine} {r : Resources}
    (h : en.Ready r) (hs : r.signal.stops = false) (hrole : ∀ p ∈ feed, p.1.source = en.role) :
    (en.deliver r (feed.map fun p => (p.1, Chance.afterFaults p.2))).done = true := by
  induction feed generalizing en r with
  | nil => rfl
  | cons p feed ih =>
    obtain ⟨e, faults⟩ := p
    obtain ⟨he, hrest⟩ := List.forall_mem_cons.mp hrole
    rw [List.map_cons]
    cases hseen : alreadySeen en.checkpoint e with
    | true =>
      obtain ⟨tallies, hd⟩ := deliver_seen r he hseen (Chance.afterFaults faults)
        (feed.map fun p => (p.1, Chance.afterFaults p.2))
      rw [hd]
      exact ih (h.tally tallies) hs hrest
    | false =>
      obtain ⟨hm, hsignal⟩ := process_faults h he hseen hs faults
      rw [deliver_committed hm]
      apply ih (hm.ready h he hseen)
      · rw [hsignal]
        exact hs
      · rw [hm.engine]
        exact hrest

/-- Without a stop, the tables come to hold what committing all events one by one makes of them. -/
theorem deliver_all {start : Database} (hstart : start.Legible)
    {feed : List (Event × List Fault)} {before : List Event} {en : Engine} {r : Resources}
    (h : en.Ready r) (hs : r.signal.stops = false)
    (hdb : r.store.database = start.commits r.signer.identity before) (hat : en.IsAt before)
    (ho : Ordered (before ++ feed.map (·.1))) (hrole : ∀ p ∈ feed, p.1.source = en.role) :
    (en.deliver r (feed.map fun p => (p.1, Chance.afterFaults p.2))).database =
      start.commits r.signer.identity (before ++ feed.map (·.1)) := by
  induction feed generalizing before en r with
  | nil =>
    simp only [List.map_nil, List.append_nil, ← hdb]
    rfl
  | cons p feed ih =>
    obtain ⟨e, faults⟩ := p
    obtain ⟨he, hrest⟩ := List.forall_mem_cons.mp hrole
    rw [List.map_cons] at ho ⊢
    rw [List.map_cons, List.append_cons]
    have ho' : Ordered (before ++ [e] ++ feed.map (·.1)) := by
      rwa [List.append_cons] at ho
    cases hseen : alreadySeen en.checkpoint e with
    | true =>
      -- only the event just committed is passed over, and committing it again changes nothing
      obtain ⟨earlier, rfl, hc⟩ := hat.seen ho hseen
      obtain ⟨tallies, hd⟩ := deliver_seen r he hseen (Chance.afterFaults faults)
        (feed.map fun p => (p.1, Chance.afterFaults p.2))
      rw [hd]
      have hdb' : start.commits r.signer.identity (earlier ++ [e] ++ [e]) =
          start.commits r.signer.identity (earlier ++ [e]) := by
        rw [Database.commits_append, Database.commits_append]
        exact Database.commit_commit (hstart.commits _ earlier).tabled _
      exact ih (h.tally tallies) hs (hdb.trans hdb'.symm) (.inr ⟨_, e, rfl, hc⟩) ho' hrest
    | false =>
      obtain ⟨hm, hsignal⟩ := process_faults h he hseen hs faults
      rw [deliver_committed hm, ← hm.identity]
      refine ih (hm.ready h he hseen) ?_ ?_ ?_ ho' ?_
      · rw [hsignal]
        exact hs
      · rw [hm.identity, Database.commits_append, ← hdb]
        exact hm.database
      · rw [hm.engine]
        exact .inr ⟨before, e, rfl, rfl⟩
      · rw [hm.engine]
        exact hrest

end Engine

end Attestor

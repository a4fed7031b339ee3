import Attestor.Proofs.Redelivery

namespace Attestor

namespace Engine

/-- What an engine finds when it starts on a store. -/
def startOn (i : Identity) (s : Store) : Resources :=
  ⟨.ofIdentity i, s, .running, .both .zero⟩

/-- A life of an engine: the database is opened, and the engine resumes from it and takes events. -/
def live (i : Identity) (role : Role) (db : Database) (feed : List (Event × List Chance)) :
    Except StoreError Delivery := do
  let store ← Store.openChecked db.prepare
  let en ← resume role store
  return en.deliver (startOn i store) feed

/-- A database that can be read and is covered is good for another life. -/
theorem live_eq (i : Identity) (role : Role) {db : Database} (hl : db.Legible) (hc : db.Covered) :
    ∃ en : Engine, en.role = role ∧ en.checkpoint = db.position role ∧
      en.Ready (startOn i ⟨db, .zero, false⟩) ∧
      ∀ feed, live i role db feed = .ok (en.deliver (startOn i ⟨db, .zero, false⟩) feed) := by
  obtain ⟨hr, hready⟩ := resume_ready (r := startOn i ⟨db, .zero, false⟩) role rfl hl hc
  refine ⟨_, rfl, rfl, hready, ?_⟩
  intro feed
  have hr' : resume role ⟨db, .zero, false⟩ = .ok ⟨role, db.position role, .idle⟩ := hr
  simp only [live, hl.prepare, hl.openChecked hc, hr', bind, Except.bind, pure, Except.pure]
  rfl

/-- Lives of an engine on one database, one after the other: the database that they leave and the
events that they have committed. Each may end anywhere, between events, in the middle of one or
while a write is tried again. Each begins at or before the first event that none has committed. -/
inductive Lives (i : Identity) (role : Role) (events : List Event) (start : Database) :
    Database → List Event → Prop
  | fresh : Lives i role events start start []
  | lived {db : Database} {committed : List Event} {d : Delivery}
      (before : Lives i role events start db committed) (first : Nat)
      (replay : ∀ e ∈ events.take first, e ∈ committed) (feed : List (Event × List Chance))
      (fed : feed.map (·.1) <+: events.drop first) (life : live i role db feed = .ok d) :
      Lives i role events start d.database (committed ++ d.committed)

/-- What comes from a position at or before the first event that is not stored: some of the events
that are, up to the last of them, and all others. -/
theorem drop_eq_again {stored new : List Event} (hnodup : (stored ++ new).Nodup) {first : Nat}
    (h : ∀ e ∈ (stored ++ new).take first, e ∈ stored) :
    ∃ before again, stored = before ++ again ∧
      (stored ++ new).drop first <+: again ++ new := by
  by_cases hf : first ≤ stored.length
  · refine ⟨stored.take first, stored.drop first, (List.take_append_drop first stored).symm, ?_⟩
    rw [List.drop_append_of_le_length hf]
  · cases new with
    | nil =>
      refine ⟨stored, [], (List.append_nil _).symm, ?_⟩
      rw [List.append_nil, List.drop_of_length_le (by omega)]
      exact List.nil_prefix
    | cons e rest =>
      obtain ⟨n, hn⟩ : ∃ n, first - stored.length = n + 1 := ⟨first - stored.length - 1, by omega⟩
      have he : e ∈ stored := by
        apply h
        rw [List.take_append, hn, List.take_succ_cons]
        simp
      exact absurd rfl ((List.nodup_append.mp hnodup).2.2 e he e (by simp))

variable {i : Identity} {role : Role} {events : List Event} {start : Database}

/-- One more life takes the stored events on from where they are. -/
theorem live_advance (blank : start.Blank) {stored new : List Event} {last : Option Event}
    {db : Database} (hthrough : Through i start stored last db) (hl : db.Legible)
    (hc : db.Covered) (distinct : Distinct (stored ++ new))
    (own : ∀ e ∈ stored ++ new, e.source = role) {first : Nat}
    (replay : ∀ e ∈ (stored ++ new).take first, e ∈ stored) {feed : List (Event × List Chance)}
    (fed : feed.map (·.1) <+: (stored ++ new).drop first) :
    ∃ d stored' last', live i role db feed = .ok d ∧
      Advance i start (stored ++ new) stored last (feed.map (·.1)) d stored' last' := by
  obtain ⟨en, hrole, -, hready, hlive⟩ := live_eq i role hl hc
  obtain ⟨before, again, hagain, hdrop⟩ := drop_eq_again distinct.nodup replay
  obtain ⟨stored', last', ha⟩ := deliver_advance blank ⟨hrole, hready, rfl, hthrough⟩ distinct own
    hagain (fed.trans hdrop)
  exact ⟨_, stored', last', hlive feed, ha⟩

/-- After any lives the first so many events are stored, which are those that some life has
committed. -/
theorem Lives.through (blank : start.Blank) (distinct : Distinct events)
    (own : ∀ e ∈ events, e.source = role) {db : Database} {committed : List Event}
    (h : Lives i role events start db committed) :
    ∃ stored new last, events = stored ++ new ∧ Through i start stored last db ∧ db.Legible ∧
      db.Covered ∧ ∀ e, e ∈ stored ↔ e ∈ committed := by
  induction h with
  | fresh => exact ⟨[], events, none, rfl, .fresh, blank.legible, blank.covered, by simp⟩
  | lived before first replay feed fed life ih =>
    obtain ⟨stored, new, last, rfl, hthrough, hl, hc, hmem⟩ := ih
    have hreplay : ∀ e ∈ (stored ++ new).take first, e ∈ stored := by
      intro e he
      exact (hmem e).mpr (replay e he)
    obtain ⟨d, stored', last', hd, ha⟩ := live_advance blank hthrough hl hc distinct own hreplay fed
    cases life.symm.trans hd
    obtain ⟨new', hnew⟩ := ha.initial
    refine ⟨stored', new', last', hnew.symm, ha.through, ha.legible, ha.covered, ?_⟩
    intro e
    rw [List.mem_append]
    constructor
    · intro he
      exact (ha.explained e he).imp (hmem e).mp id
    · rintro (he | he)
      · exact ha.kept e ((hmem e).mpr he)
      · exact ha.committed e he

/-- Faults that pass do not keep a life from going through its events. -/
theorem live_done {db : Database} (hl : db.Legible) (hc : db.Covered)
    {feed : List (Event × List Fault)} (own : ∀ p ∈ feed, p.1.source = role) :
    ∃ d, live i role db (feed.map fun p => (p.1, Chance.afterFaults p.2)) = .ok d ∧
      d.done = true := by
  obtain ⟨en, hrole, -, hready, hlive⟩ := live_eq i role hl hc
  rw [← hrole] at own
  exact ⟨_, hlive _, deliver_done hready rfl own⟩

/-- A life without interruptions leaves what committing the events makes of the tables. -/
theorem live_uninterrupted (blank : start.Blank) (distinct : Distinct events)
    (own : ∀ e ∈ events, e.source = role) :
    ∃ u, live i role start (events.map (·, Chance.afterFaults [])) = .ok u ∧ u.done = true ∧
      u.database = start.commits i events := by
  obtain ⟨en, hrole, hcheckpoint, hready, hlive⟩ := live_eq i role blank.legible blank.covered
  have hfeed : (events.map (·, ([] : List Fault))).map (fun p => (p.1, Chance.afterFaults p.2)) =
      events.map (·, Chance.afterFaults []) := by
    rw [List.map_map]
    rfl
  have hfed : (events.map (·, ([] : List Fault))).map (·.1) = events := by
    rw [List.map_map]
    exact List.map_id events
  have hat : en.IsAt [] := by
    refine .inl ⟨rfl, ?_⟩
    rw [hcheckpoint, hrole]
    exact blank.position role
  have ho : Ordered ([] ++ (events.map (·, ([] : List Fault))).map (·.1)) := by
    rw [hfed]
    exact ⟨distinct.imp And.left, fun e he f hf => distinct.named he hf⟩
  have hown : ∀ p ∈ events.map (·, ([] : List Fault)), p.1.source = en.role := by
    intro p hp
    obtain ⟨e, he, rfl⟩ := List.mem_map.mp hp
    rw [hrole]
    exact own e he
  have hdone := deliver_done hready rfl hown
  have hdb := deliver_all blank.legible hready rfl rfl hat ho hown
  rw [hfeed] at hdone hdb
  rw [hfed] at hdb
  exact ⟨_, hlive _, hdone, hdb⟩

/-- Neither skipped nor repeated. Whatever lives an engine has had, another one can begin, and if it
goes through the events from somewhere at or before the first that is not committed to the last of
all, it leaves the database that one life without interruptions makes. -/
theorem recovers (blank : start.Blank)
    (ordered : events.Pairwise (·.ledgerSequence ≤ ·.ledgerSequence))
    (named : events.Pairwise (·.transactionId ≠ ·.transactionId))
    (own : ∀ e ∈ events, e.source = role) {db : Database} {committed : List Event}
    (lives : Lives i role events start db committed) {first : Nat}
    (replay : ∀ e ∈ events.take first, e ∈ committed) (nonempty : events.drop first ≠ [])
    {feed : List (Event × List Chance)} (whole : feed.map (·.1) = events.drop first) :
    ∃ d u, live i role db feed = .ok d ∧
      live i role start (events.map (·, Chance.afterFaults [])) = .ok u ∧ u.done = true ∧
      (d.done = true → d.database = u.database) := by
  have distinct : Distinct events := ordered.and named
  obtain ⟨u, hu, hdone, hdb⟩ := live_uninterrupted (i := i) blank distinct own
  obtain ⟨stored, new, last, rfl, hthrough, hl, hc, hmem⟩ := lives.through blank distinct own
  have hreplay : ∀ e ∈ (stored ++ new).take first, e ∈ stored := by
    intro e he
    exact (hmem e).mpr (replay e he)
  have hfed : feed.map (·.1) <+: (stored ++ new).drop first := by
    rw [whole]
  obtain ⟨d, stored', last', hd, ha⟩ := live_advance blank hthrough hl hc distinct own hreplay hfed
  refine ⟨d, u, hd, hu, hdone, ?_⟩
  intro hd
  rw [hdb]
  apply ha.complete distinct ?_ ?_ hd
  · rw [whole]
    exact List.drop_suffix _ _
  · rw [whole]
    exact nonempty

/-- Two events on one ledger and one on the next. -/
def replayedEvents : List Event :=
  [.claim (.sample "A" 7 10) 1 none,
    .createAccount (.sample "B" 7 20) 1 (.native 1) Bridge.sample.issuingDoor,
    .claim (.sample "C" 8 30) 2 none]

/-- A stop while the write of the second event is tried again. -/
def abandonedFeed : List (Event × List Chance) :=
  [(.claim (.sample "A" 7 10) 1 none, [Chance.none]),
    (.createAccount (.sample "B" 7 20) 1 (.native 1) Bridge.sample.issuingDoor,
      [⟨none, some .database⟩, ⟨some .requested, none⟩])]

theorem recovers_from_abandoned : ∃ d₁ d₂ u,
    live (.sample 0) .locking .empty abandonedFeed = .ok d₁ ∧
    live (.sample 0) .locking d₁.database (replayedEvents.map (·, Chance.afterFaults [])) =
      .ok d₂ ∧
    live (.sample 0) .locking .empty (replayedEvents.map (·, Chance.afterFaults [])) = .ok u ∧
    d₂.done = true ∧ d₂.database = u.database := by
  have blank := Database.blank_empty
  have hown : ∀ e ∈ replayedEvents, e.source = .locking := by
    decide
  obtain ⟨en, -, -, -, hlive⟩ := live_eq (.sample 0) .locking blank.legible blank.covered
  have hlives : Lives (.sample 0) .locking replayedEvents .empty
      (en.deliver (startOn (.sample 0) ⟨.empty, .zero, false⟩) abandonedFeed).database _ :=
    .lived .fresh 0 (by simp) abandonedFeed (by decide) (hlive abandonedFeed)
  have hfed : (replayedEvents.map (·, Chance.afterFaults [])).map (·.1) = replayedEvents.drop 0 :=
    rfl
  have hordered : replayedEvents.Pairwise (·.ledgerSequence ≤ ·.ledgerSequence) := by
    decide
  have hnamed : replayedEvents.Pairwise (·.transactionId ≠ ·.transactionId) := by
    decide
  obtain ⟨d₂, u, hd, hu, -, he⟩ := recovers blank hordered hnamed hown hlives (by simp) (by decide)
    hfed
  obtain ⟨_, _, _, -, -, hl, hc, -⟩ := hlives.through blank (hordered.and hnamed) hown
  have hrole : ∀ p ∈ replayedEvents.map (·, ([] : List Fault)), p.1.source = .locking := by
    decide
  obtain ⟨d, hd', hdone⟩ := live_done (i := .sample 0) hl hc hrole
  cases hd.symm.trans hd'
  exact ⟨_, _, u, hlive abandonedFeed, hd, hu, hdone, he hdone⟩

end Engine

end Attestor

import Attestor.Proofs.Delivery

namespace Attestor

namespace Database

/-- The tables with the checkpoint at an event. -/
def mark (db : Database) (e : Event) : Database :=
  db.setCheckpoint e.source ⟨some e.transactionId, e.ledgerSequence.toUInt64.toInt64⟩

theorem commit_attest (db : Database) (i : Identity) (e : Event) :
    db.commit (i.attest e) = (db.record (i.attest e)).mark e := by
  rw [commit, Identity.attest_source]
  rfl

/-- A commit forgets which event of the chain the checkpoint was at. -/
theorem commit_mark (db : Database) (i : Identity) {e f : Event} (h : f.source = e.source) :
    (db.mark f).commit (i.attest e) = db.commit (i.attest e) := by
  rw [mark, h, ← i.attest_source e]
  exact commit_setCheckpoint db (i.attest e) _

theorem mark_commit (db : Database) (i : Identity) (e : Event) :
    (db.commit (i.attest e)).mark e = db.commit (i.attest e) := by
  rw [commit_attest, mark, mark, setCheckpoint_setCheckpoint]

end Database

/-- Where interrupted engines have got to: the tables hold what committing the events makes of them,
except that the checkpoint may be at another event of the last ledger. -/
inductive Through (i : Identity) (start : Database) : List Event → Option Event → Database → Prop
  | fresh : Through i start [] none start
  | past {events : List Event} {e : Event} (mem : e ∈ events)
      (top : ∀ f ∈ events, f.ledgerSequence ≤ e.ledgerSequence) :
      Through i start events (some e) ((start.commits i events).mark e)

namespace Through

variable {i : Identity} {start db : Database} {events : List Event} {last : Option Event}
  {role : Role}

theorem position (h : Through i start events last db) (blank : start.Blank)
    (own : ∀ e ∈ events, e.source = role) :
    db.position role = match last with
      | none => ⟨role, none, 0⟩
      | some e => ⟨role, some e.transactionId, e.ledgerSequence⟩ := by
  cases h with
  | fresh => exact blank.position role
  | past mem top =>
    rename_i e
    have hp := Database.position_setCheckpoint (blank.legible.commits i events) e.source
      (some e.transactionId) e.ledgerSequence
    rw [own e mem] at hp
    dsimp only
    rw [Database.mark, own e mem]
    exact hp

/-- A new event is at or after the last one, so nothing that is not stored is passed over. -/
theorem not_seen (h : Through i start events last db) (blank : start.Blank)
    (own : ∀ e ∈ events, e.source = role) {e : Event}
    (after : ∀ f ∈ events, f.ledgerSequence ≤ e.ledgerSequence)
    (new : ∀ f ∈ events, f.transactionId ≠ e.transactionId) :
    Engine.alreadySeen (db.position role) e = false := by
  rw [h.position blank own, Bool.eq_false_iff]
  intro hseen
  cases h with
  | fresh =>
    rw [Engine.not_seen_start] at hseen
    cases hseen
  | past mem top =>
    exact new _ mem (Option.some.inj (Engine.seen_at_checkpoint (after _ mem) hseen))

theorem commit_new (h : Through i start events last db)
    (own : ∀ e ∈ events, e.source = role) {e : Event} (he : e.source = role)
    (after : ∀ f ∈ events, f.ledgerSequence ≤ e.ledgerSequence) :
    Through i start (events ++ [e]) (some e) (db.commit (i.attest e)) := by
  have hdb : db.commit (i.attest e) = (start.commits i (events ++ [e])).mark e := by
    rw [Database.commits_append, Database.mark_commit]
    cases h with
    | fresh => rfl
    | past mem top => exact Database.commit_mark _ i ((own _ mem).trans he.symm)
  rw [hdb]
  refine .past (by simp) ?_
  intro f hf
  rcases List.mem_append.mp hf with hf | hf
  · exact after f hf
  · rw [List.mem_singleton.mp hf]
    exact UInt32.le_refl _

/-- An event that is delivered again moves the checkpoint within its ledger, no more. -/
theorem commit_again (h : Through i start events last db)
    (own : ∀ e ∈ events, e.source = role) {e : Event} (he : e ∈ events)
    (top : ∀ f ∈ events, f.ledgerSequence ≤ e.ledgerSequence) :
    Through i start events (some e) (db.commit (i.attest e)) := by
  have hdb : db.commit (i.attest e) = (start.commits i events).mark e := by
    cases h with
    | fresh => cases he
    | past mem _ =>
      rw [Database.commit_mark _ i ((own _ mem).trans (own e he).symm), Database.commit_attest,
        Database.record_of_blocks (Database.blocks_of_committed start i he)]
  rw [hdb]
  exact .past he top

/-- What an engine discards is behind its checkpoint, or is the event that the checkpoint is at. -/
theorem seen_last (h : Through i start events last db) (blank : start.Blank)
    (own : ∀ e ∈ events, e.source = role) {e : Event}
    (named : ∀ f ∈ events, f.transactionId = e.transactionId → f = e)
    (hseen : Engine.alreadySeen (db.position role) e = true)
    (top : ∀ f ∈ events, f.ledgerSequence ≤ e.ledgerSequence) : last = some e := by
  rw [h.position blank own] at hseen
  cases h with
  | fresh =>
    rw [Engine.not_seen_start] at hseen
    cases hseen
  | past mem _ =>
    rw [named _ mem (Option.some.inj (Engine.seen_at_checkpoint (top _ mem) hseen))]

/-- What an engine takes although it is stored lies on the last ledger. -/
theorem top_of_not_seen (h : Through i start events last db) (blank : start.Blank)
    (own : ∀ e ∈ events, e.source = role) {e : Event}
    (hnew : Engine.alreadySeen (db.position role) e = false) :
    ∀ f ∈ events, f.ledgerSequence ≤ e.ledgerSequence := by
  rw [h.position blank own] at hnew
  have hl := Engine.not_seen_reaches hnew
  cases h with
  | fresh =>
    intro f hf
    cases hf
  | past mem top =>
    intro f hf
    exact UInt32.le_trans (top f hf) hl

end Through

/-- What a delivery of some of the events leaves of a state in which the first of them were stored:
now at least as many are, those that were committed on the way among them. -/
structure Advance (i : Identity) (start : Database) (events stored : List Event)
    (last : Option Event) (fed : List Event) (d : Delivery) (stored' : List Event)
    (last' : Option Event) : Prop where
  initial : stored' <+: events
  through : Through i start stored' last' d.database
  legible : d.database.Legible
  covered : d.database.Covered
  kept : ∀ e ∈ stored, e ∈ stored'
  explained : ∀ e ∈ stored', e ∈ stored ∨ e ∈ d.committed
  committed : ∀ e ∈ d.committed, e ∈ stored'
  finished : d.done = true → ∀ e ∈ fed, e ∈ stored'
  ended : d.done = true → ∀ e, (last.toList ++ fed).getLast? = some e →
    (∀ f ∈ events, f.ledgerSequence ≤ e.ledgerSequence) → last' = some e

namespace Advance

variable {i : Identity} {start : Database} {events stored fed stored' : List Event}
  {last last' : Option Event} {d : Delivery}

/-- Nothing is delivered, or the engine stops at once. -/
theorem unmoved (through : Through i start stored last d.database) (legible : d.database.Legible)
    (covered : d.database.Covered) (initial : stored <+: events) (hnone : d.committed = [])
    (hfed : d.done = true → fed = []) : Advance i start events stored last fed d stored last := by
  refine ⟨initial, through, legible, covered, ?_, ?_, ?_, ?_, ?_⟩
  · intro e he
    exact he
  · intro e he
    exact .inl he
  · intro e he
    rw [hnone] at he
    cases he
  · intro hdone e he
    rw [hfed hdone] at he
    cases he
  · intro hdone e he _
    rw [hfed hdone, List.append_nil] at he
    cases last with
    | none => cases he
    | some f => simpa using he

/-- One event more in front, which was discarded. -/
theorem discard (h : Advance i start events stored last fed d stored' last') {e : Event}
    (he : e ∈ stored)
    (hlast : (∀ f ∈ events, f.ledgerSequence ≤ e.ledgerSequence) → last = some e) :
    Advance i start events stored last (e :: fed) d stored' last' := by
  refine ⟨h.initial, h.through, h.legible, h.covered, h.kept, h.explained, h.committed, ?_, ?_⟩
  · intro hdone f hf
    rcases List.mem_cons.mp hf with rfl | hf
    · exact h.kept _ he
    · exact h.finished hdone f hf
  · intro hdone g hg top
    refine h.ended hdone g ?_ top
    cases fed with
    | nil =>
      rw [List.getLast?_append_of_ne_nil _ (by simp)] at hg
      cases hg
      rw [hlast top]
      rfl
    | cons f fed =>
      rw [List.getLast?_append_of_ne_nil _ (by simp)] at hg ⊢
      rwa [List.getLast?_cons_cons] at hg

/-- One event more in front, which was committed. -/
theorem commit {e : Event} {stored₁ : List Event}
    (h : Advance i start events stored₁ (some e) fed d stored' last')
    (hsub : ∀ f ∈ stored, f ∈ stored₁) (hsup : ∀ f ∈ stored₁, f ∈ stored ∨ f = e)
    (he : e ∈ stored₁) : Advance i start events stored last (e :: fed)
      { d with committed := e :: d.committed } stored' last' := by
  refine ⟨h.initial, h.through, h.legible, h.covered, fun f hf => h.kept f (hsub f hf), ?_, ?_, ?_,
    ?_⟩
  · intro f hf
    rcases h.explained f hf with hf | hf
    · rcases hsup f hf with hf | rfl
      · exact .inl hf
      · exact .inr List.mem_cons_self
    · exact .inr (List.mem_cons_of_mem _ hf)
  · intro f hf
    rcases List.mem_cons.mp hf with rfl | hf
    · exact h.kept _ he
    · exact h.committed f hf
  · intro hdone f hf
    rcases List.mem_cons.mp hf with rfl | hf
    · exact h.kept _ he
    · exact h.finished hdone f hf
  · intro hdone g hg top
    refine h.ended hdone g ?_ top
    rwa [List.getLast?_append_of_ne_nil _ (by simp)] at hg

end Advance

namespace Engine

/-- Events with their ledgers in order, and no transaction twice. -/
def Distinct (events : List Event) : Prop :=
  events.Pairwise fun e f => e.ledgerSequence ≤ f.ledgerSequence ∧ e.transactionId ≠ f.transactionId

theorem Distinct.named {events : List Event} (h : Distinct events) {e f : Event} (he : e ∈ events)
    (hf : f ∈ events) (ht : e.transactionId = f.transactionId) : e = f := by
  by_contra hne
  have : Std.Symm fun e f : Event => e.transactionId ≠ f.transactionId := ⟨fun _ _ => Ne.symm⟩
  exact (h.imp And.right).forall he hf hne ht

/-- An engine between events, of which the first ones are stored. -/
structure Stands (role : Role) (i : Identity) (start : Database) (stored : List Event)
    (last : Option Event) (en : Engine) (r : Resources) : Prop where
  role : en.role = role
  ready : en.Ready r
  identity : r.signer.identity = i
  through : Through i start stored last r.store.database

section Steps

variable {role : Role} {i : Identity} {start : Database} {stored : List Event}
  {last : Option Event} {en : Engine} {r : Resources}

theorem Stands.seen_eq (h : Stands role i start stored last en r) (e : Event) :
    alreadySeen (r.store.database.position role) e = alreadySeen en.checkpoint e := by
  rw [h.ready.synced, h.role]

/-- The engine commits an event, and the tables are as they are to be. -/
theorem Stands.commit (h : Stands role i start stored last en r) {e : Event}
    (hsource : e.source = en.role) (hnew : alreadySeen en.checkpoint e = false)
    {stored' : List Event}
    (hthrough : Through i start stored' (some e) (r.store.database.commit (i.attest e))) {m : Move}
    (hm : Commits en.role r.signer.identity r.store.database e m) :
    Stands role i start stored' (some e) m.engine m.resources := by
  refine ⟨?_, hm.ready h.ready hsource hnew, hm.identity.trans h.identity, ?_⟩
  · rw [hm.engine]
    exact h.role
  · rw [hm.database, h.identity]
    exact hthrough

/-- An event that is stored comes again. -/
theorem Stands.again (h : Stands role i start stored last en r) (blank : start.Blank)
    (own : ∀ f ∈ stored, f.source = role) {e : Event} (he : e ∈ stored)
    (named : ∀ f ∈ stored, f.transactionId = e.transactionId → f = e) (chances : List Chance)
    (feed : List (Event × List Chance)) :
    (∃ r', en.deliver r ((e, chances) :: feed) = en.deliver r' feed ∧
      Stands role i start stored last en r' ∧
      ((∀ f ∈ stored, f.ledgerSequence ≤ e.ledgerSequence) → last = some e)) ∨
    (∃ en' r', en.deliver r ((e, chances) :: feed) =
        { en'.deliver r' feed with committed := e :: (en'.deliver r' feed).committed } ∧
      Stands role i start stored (some e) en' r') ∨
    ∃ en' r', en.deliver r ((e, chances) :: feed) = ⟨[], false, en', r'⟩ ∧ r'.store = r.store := by
  have hsource : e.source = en.role := (own e he).trans h.role.symm
  have hseen := h.seen_eq e
  cases hs : alreadySeen en.checkpoint e with
  | true =>
    rw [hs] at hseen
    obtain ⟨tallies, hd⟩ := deliver_seen r hsource hs chances feed
    refine .inl ⟨_, hd, ⟨h.role, h.ready.tally tallies, h.identity, h.through⟩, ?_⟩
    exact h.through.seen_last blank own named hseen
  | false =>
    rw [hs] at hseen
    rcases process_new h.ready hsource hs chances with hm | ⟨hout, hstore⟩
    · have hthrough := h.through.commit_again own he (h.through.top_of_not_seen blank own hseen)
      exact .inr (.inl ⟨_, _, deliver_committed hm feed, h.commit hsource hs hthrough hm⟩)
    · exact .inr (.inr ⟨_, _, deliver_stopped (hout.imp_right .inl) feed, hstore⟩)

/-- An event that is not stored yet comes in its turn. -/
theorem Stands.next (h : Stands role i start stored last en r) (blank : start.Blank)
    (own : ∀ f ∈ stored, f.source = role) {e : Event} (he : e.source = role)
    (after : ∀ f ∈ stored, f.ledgerSequence ≤ e.ledgerSequence)
    (new : ∀ f ∈ stored, f.transactionId ≠ e.transactionId) (chances : List Chance)
    (feed : List (Event × List Chance)) :
    (∃ en' r', en.deliver r ((e, chances) :: feed) =
        { en'.deliver r' feed with committed := e :: (en'.deliver r' feed).committed } ∧
      Stands role i start (stored ++ [e]) (some e) en' r') ∨
    ∃ en' r', en.deliver r ((e, chances) :: feed) = ⟨[], false, en', r'⟩ ∧ r'.store = r.store := by
  have hsource : e.source = en.role := he.trans h.role.symm
  have hs : alreadySeen en.checkpoint e = false := by
    rw [← h.seen_eq e]
    exact h.through.not_seen blank own after new
  rcases process_new h.ready hsource hs chances with hm | ⟨hout, hstore⟩
  · have hthrough := h.through.commit_new own he after
    exact .inl ⟨_, _, deliver_committed hm feed, h.commit hsource hs hthrough hm⟩
  · exact .inr ⟨_, _, deliver_stopped (hout.imp_right .inl) feed, hstore⟩

/-- An engine that stops at an event stores no more of them. -/
theorem Stands.stopped (h : Stands role i start stored last en r) (new fed : List Event)
    (en' : Engine) {r' : Resources} (store : r'.store = r.store) :
    Advance i start (stored ++ new) stored last fed ⟨[], false, en', r'⟩ stored last := by
  refine .unmoved ?_ ?_ ?_ (List.prefix_append ..) rfl nofun
  all_goals rw [Delivery.database, store]
  · exact h.through
  · exact h.ready.legible
  · exact h.ready.covered

/-- A delivery that begins among the stored events, or right after them, takes them on. -/
theorem deliver_advance (blank : start.Blank) {feed : List (Event × List Chance)}
    {before again new : List Event} (h : Stands role i start stored last en r)
    (distinct : Distinct (stored ++ new)) (own : ∀ e ∈ stored ++ new, e.source = role)
    (hstored : stored = before ++ again) (hfeed : feed.map (·.1) <+: again ++ new) :
    ∃ stored' last', Advance i start (stored ++ new) stored last (feed.map (·.1))
      (en.deliver r feed) stored' last' := by
  induction feed generalizing stored before again new last en r with
  | nil =>
    refine ⟨stored, last, .unmoved h.through h.ready.legible h.ready.covered ?_ rfl ?_⟩
    · exact List.prefix_append ..
    · intro _
      rfl
  | cons p feed ih =>
    obtain ⟨e, chances⟩ := p
    rw [List.map_cons] at hfeed ⊢
    have howns : ∀ f ∈ stored, f.source = role := by
      intro f hf
      exact own f (List.mem_append_left _ hf)
    cases again with
    | cons f again =>
      obtain ⟨rfl, hrest⟩ := List.cons_prefix_cons.mp hfeed
      have he : e ∈ stored := by simp [hstored]
      have hstored' : stored = before ++ [e] ++ again := by simp [hstored]
      have hnamed : ∀ f ∈ stored, f.transactionId = e.transactionId → f = e := by
        intro f hf ht
        exact distinct.named (List.mem_append_left _ hf) (List.mem_append_left _ he) ht
      obtain ⟨r', hd, hs, hlast⟩ | ⟨en', r', hd, hs⟩ | ⟨en', r', hd, hstore⟩ :=
        h.again blank howns he hnamed chances feed
      · obtain ⟨stored', last', ha⟩ := ih hs distinct own hstored' hrest
        rw [hd]
        refine ⟨stored', last', ha.discard he ?_⟩
        intro top
        apply hlast
        intro f hf
        exact top f (List.mem_append_left _ hf)
      · obtain ⟨stored', last', ha⟩ := ih hs distinct own hstored' hrest
        rw [hd]
        refine ⟨stored', last', ha.commit ?_ ?_ he⟩
        · intro f hf
          exact hf
        · intro f hf
          exact .inl hf
      · rw [hd]
        exact ⟨stored, last, h.stopped _ _ en' hstore⟩
    | nil =>
      obtain ⟨new, rfl, hrest⟩ : ∃ rest, new = e :: rest ∧ feed.map (·.1) <+: rest := by
        rw [List.nil_append] at hfeed
        cases new with
        | nil => cases List.prefix_nil.mp hfeed
        | cons g rest =>
          obtain ⟨rfl, hrest⟩ := List.cons_prefix_cons.mp hfeed
          exact ⟨rest, rfl, hrest⟩
      have hafter : ∀ f ∈ stored,
          f.ledgerSequence ≤ e.ledgerSequence ∧ f.transactionId ≠ e.transactionId := by
        intro f hf
        exact (List.pairwise_append.mp distinct).2.2 f hf e (by simp)
      obtain ⟨en', r', hd, hs⟩ | ⟨en', r', hd, hstore⟩ := h.next blank howns (own e (by simp))
        (fun f hf => (hafter f hf).1) (fun f hf => (hafter f hf).2) chances feed
      · rw [List.append_cons] at distinct own ⊢
        obtain ⟨stored', last', ha⟩ := ih hs distinct own (List.append_nil _).symm hrest
        rw [hd]
        refine ⟨stored', last', ha.commit ?_ ?_ (by simp)⟩
        · intro f hf
          exact List.mem_append_left _ hf
        · intro f hf
          simpa using hf
      · rw [hd]
        exact ⟨stored, last, h.stopped _ _ en' hstore⟩

end Steps

theorem Distinct.nodup {events : List Event} (h : Distinct events) : events.Nodup :=
  h.imp fun hne he => hne.2 (congrArg Event.transactionId he)

end Engine

/-- A delivery that goes on to the last event of all has stored every event, and has the checkpoint
there. -/
theorem Advance.complete {i : Identity} {start : Database} {events stored fed stored' : List Event}
    {last last' : Option Event} {d : Delivery}
    (h : Advance i start events stored last fed d stored' last')
    (distinct : Engine.Distinct events) (hfed : fed <:+ events) (hne : fed ≠ [])
    (hdone : d.done = true) : d.database = start.commits i events := by
  obtain ⟨front, e, rfl⟩ : ∃ front e, fed = front ++ [e] :=
    ⟨fed.dropLast, fed.getLast hne, (List.dropLast_append_getLast hne).symm⟩
  obtain ⟨skipped, hskipped⟩ := hfed
  rw [← List.append_assoc] at hskipped
  have htop : ∀ f ∈ events, f.ledgerSequence ≤ e.ledgerSequence := by
    intro f hf
    rw [← hskipped] at hf distinct
    rcases List.mem_append.mp hf with hf | hf
    · exact ((List.pairwise_append.mp distinct).2.2 f hf e (by simp)).1
    · rw [List.mem_singleton.mp hf]
      exact UInt32.le_refl _
  have hlast : last' = some e := h.ended hdone e (by simp) htop
  have hall : stored' = events := by
    obtain ⟨rest, hrest⟩ := h.initial
    rcases List.eq_nil_or_concat rest with rfl | ⟨more, f, rfl⟩
    · rw [← hrest, List.append_nil]
    · -- the last event is stored, so it cannot be among those that are not
      rw [List.concat_eq_append] at hrest
      have hfe : f = e := by
        rw [← hskipped, ← List.append_assoc] at hrest
        exact List.singleton_inj.mp (List.append_inj_right' hrest rfl)
      have hnodup := distinct.nodup
      rw [← hrest, hfe] at hnodup
      exact absurd rfl ((List.nodup_append.mp hnodup).2.2 e (h.finished hdone e (by simp)) e
        (by simp))
  have hthrough := h.through
  rw [hlast, hall] at hthrough
  generalize d.database = db at hthrough
  cases hthrough
  rw [← hskipped, Database.commits_append, Database.mark_commit]

end Attestor

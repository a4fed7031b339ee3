import Attestor.Proofs.Relay

namespace Attestor

theorem Engine.resume_healthy {role : Role} {store : Store} {en : Engine}
    (h : resume role store = .ok en) : store.poisoned = false := by
  obtain ⟨found, hfound, -⟩ := Except.bind_ok h
  cases hp : store.poisoned with
  | false => rfl
  | true => simp [Store.checkpoint, Store.read, hp] at hfound

/-- The loops that are started are those of engines that resume from the store. -/
theorem Node.spawn_ok {n n' : Node} {b : Bridge} {r : Resources} {capacity : Nat}
    (persistent : n.service = .persistent b r) (h : n.spawn capacity = (.ok (), n')) :
    ∃ engines : ByRole Engine, (∀ role, Engine.resume role r.store = .ok (engines.get role)) ∧
      n'.service = .persistent b r ∧
      ∀ role, n'.loops.get role = some (Loop.start (engines.get role) capacity) := by
  unfold spawn at h
  rw [persistent] at h
  dsimp only at h
  split at h
  · cases h
  · split at h
    · cases h
    · rename_i locking hlocking
      split at h
      · cases h
      · rename_i issuing hissuing
        cases h
        refine ⟨⟨locking, issuing⟩, ?_, rfl, ?_⟩ <;> intro role <;> cases role
        · exact hlocking
        · exact hissuing
        · rfl
        · rfl

/-- Engines between events, one for each chain, that nothing stops. -/
structure Engine.Pair (engines : ByRole Engine) (r : Resources) : Prop where
  chain : ∀ role, (engines.get role).role = role
  idle : ∀ role, (engines.get role).phase = .idle
  runs : ∀ role, (engines.get role).Runs r

/-- How far each of them has come. -/
def Engine.origins (engines : ByRole Engine) (r : Resources) (role : Role) : Progress :=
  (engines.get role).progress r

namespace Engine

variable {engines : ByRole Engine} {r : Resources}

theorem pair_of_resume (legible : r.store.database.Legible) (going : r.signal.stops = false)
    (h : ∀ role, resume role r.store = .ok (engines.get role)) : Pair engines r := by
  refine ⟨?_, ?_, ?_⟩ <;> intro role <;>
    obtain ⟨hrole, hidle, hstep⟩ := resume_inStep legible (h role)
  · exact hrole
  · exact hidle
  · exact ⟨hstep, resume_healthy (h role), going⟩

/-- Both chains' events are all done with when the locking chain's are processed first and the
issuing chain's after them, and each engine makes of its chain's part what its events make of it. -/
theorem Pair.in_turn (h : Pair engines r) (events : List Event) :
    let first := engines.locking.deliverEach r (Event.ofChain .locking events)
    let second := engines.issuing.deliverEach first.resources (Event.ofChain .issuing events)
    first.done = true ∧ second.done = true ∧ ∀ role,
      second.database.part role = ((origins engines r role).through r.signer.identity
        (Event.ofChain role events)).tables ∧
      (second.resources.tallies.get role).events = ((origins engines r role).through
        r.signer.identity (Event.ofChain role events)).tally := by
  have hown : ∀ role, ∀ e ∈ Event.ofChain role events, e.source = (engines.get role).role := by
    intro role e he
    rw [h.chain]
    simpa using (List.mem_filter.mp he).2
  intro first second
  obtain ⟨hdone, hrole, hstep, hleaves, hprogress⟩ :=
    (h.runs .locking).deliverEach (h.idle _) (hown .locking)
  -- The issuing chain's engine finds its own part as it was, whatever the other has done.
  obtain ⟨hruns, hsame⟩ := (h.runs .issuing).other hleaves hstep.legible
    (by rw [h.chain, h.chain]; decide)
  obtain ⟨hdone', hrole', -, hleaves', hprogress'⟩ :=
    hruns.deliverEach (h.idle _) (hown .issuing)
  rw [hsame, hleaves.identity] at hprogress'
  refine ⟨hdone, hdone', ?_⟩
  intro role
  cases role with
  | locking =>
    have hother : Role.locking ≠ (engines.get .issuing).role := by rw [h.chain]; decide
    rw [Progress.ext_iff, progress, hrole, h.chain] at hprogress
    exact ⟨(hleaves'.tables _ hother).trans hprogress.2.1,
      (congrArg Tally.events (hleaves'.tallies _ hother)).trans hprogress.2.2⟩
  | issuing =>
    rw [Progress.ext_iff, progress, hrole', h.chain] at hprogress'
    exact hprogress'.2

end Engine

namespace Relay

variable {engines : ByRole Engine} {b : Bridge} {i : Identity} {origin : Role → Progress}
  {events : List Event} {n : Node} {x : Relay} {r : Resources}

theorem orderly_start (pair : Engine.Pair engines r) {capacity : Nat} (roomy : 1 ≤ capacity)
    (persistent : n.service = .persistent b r)
    (loops : ∀ role, n.loops.get role = some (Loop.start (engines.get role) capacity))
    (events : List Event) :
    Orderly b r.signer.identity (Engine.origins engines r) events (start n events) r := by
  refine ⟨persistent, rfl, ?_⟩
  intro role
  have hnone : (ByRole.both ([] : List Event)).get role = [] := ByRole.get_both ..
  refine ⟨_, loops role, pair.chain role, roomy, ⟨pair.runs role, ?_, ?_, ?_⟩, ?_, ?_⟩
  · intro e he
    cases he
  · exact .inl ⟨pair.idle role, by rw [start, hnone]; rfl⟩
  · intro hover
    cases hover
  · rw [start, hnone]
    rfl
  · intro hclosed
    cases hclosed

/-- Nothing has been lost, and nothing comes twice. -/
theorem Orderly.queue (h : Orderly b i origin events x r) (role : Role) :
    x.received.get role ++ x.node.queue role ++ Event.ofChain role x.pending =
      Event.ofChain role events := by
  obtain ⟨l, hl⟩ := h.lanes role
  rw [Node.queue, hl.loop]
  exact hl.flow

theorem Orderly.rejected (h : Orderly b i origin events x r) (role : Role) :
    (r.tallies.get role).rejected = (origin role).tally.rejected := by
  obtain ⟨l, hl⟩ := h.lanes role
  rw [← hl.tracks.rejected, hl.chain]

/-- A loop that is over has received all events of its chain, and has come as far as they lead. -/
theorem Orderly.of_finished (h : Orderly b i origin events x r) (finished : x.Finished)
    (role : Role) :
    (∃ l, x.node.loops.get role = some l ∧ l.result = some (.ok ())) ∧
    x.received.get role = Event.ofChain role events ∧
    r.store.database.part role = ((origin role).through i (Event.ofChain role events)).tables ∧
    (r.tallies.get role).events =
      ((origin role).through i (Event.ofChain role events)).tally := by
  obtain ⟨l, hl⟩ := h.lanes role
  have hover := finished role
  rw [Node.isOver, hl.loop] at hover
  obtain ⟨hresult, hclosed, hload⟩ := hl.tracks.ended hover
  have hqueue : l.feed.queue = [] := by
    unfold Loop.load at hload
    exact List.length_eq_zero_iff.mp (by omega)
  have hreceived : x.received.get role = Event.ofChain role events := by
    have hflow := hl.flow
    rw [hqueue, hl.closed hclosed, List.append_nil] at hflow
    exact (List.append_nil _).symm.trans hflow
  have hprogress := hl.tracks.progress hload
  rw [h.identity, hreceived, Progress.ext_iff, Engine.progress, hl.chain] at hprogress
  exact ⟨⟨l, hl.loop, hresult⟩, hreceived, hprogress.2⟩

/-- A node, whose store anything was done with, has started its loops on feeds with room for an
event at least, and a router sends them events. Nothing stops the node, nobody else writes to its
store, and writes fail for passing reasons only. Whatever the schedule, each engine receives its
chain's events in the order in which they were routed, none is lost on the way, and none rejected.
Once both loops are over they have received them all, and the tables and the counts, but for those of
failed writes, are what they are when the locking chain's events and then the issuing chain's are
processed one at a time. And from wherever they are, both loops can be brought to their end. -/
theorem loops_do_not_interfere {operations : List Operation} {n n' : Node} {b : Bridge}
    {r : Resources} {capacity : Nat} (reached : Holding.fresh.run operations = .opened r.store)
    (persistent : n.service = .persistent b r) (going : r.signal.stops = false)
    (roomy : 1 ≤ capacity) (spawned : n.spawn capacity = (.ok (), n')) (events : List Event) :
    ∃ locking issuing, Engine.resume .locking r.store = .ok locking ∧
      Engine.resume .issuing r.store = .ok issuing ∧ ∀ ticks : List Tick,
      let x := (start n' events).run ticks
      let first := locking.deliverEach r (Event.ofChain .locking events)
      let second := issuing.deliverEach first.resources (Event.ofChain .issuing events)
      (∃ r', x.node.service = .persistent b r' ∧
        (∀ role, x.received.get role ++ x.node.queue role ++ Event.ofChain role x.pending =
          Event.ofChain role events) ∧
        (∀ role, (r'.tallies.get role).rejected = (r.tallies.get role).rejected) ∧
        (x.Finished → first.done = true ∧ second.done = true ∧
          (∀ role, ∃ l, x.node.loops.get role = some l ∧ l.result = some (.ok ())) ∧
          (∀ role, x.received.get role = Event.ofChain role events) ∧
          r'.store.database = second.resources.store.database ∧
          ∀ role, (r'.tallies.get role).events = (second.resources.tallies.get role).events)) ∧
      ∃ more, (x.run more).Finished := by
  obtain ⟨engines, hresume, hservice, hloops⟩ := Node.spawn_ok persistent spawned
  have hpair := Engine.pair_of_resume (Holding.opened_legible reached) going hresume
  refine ⟨engines.locking, engines.issuing, hresume .locking, hresume .issuing, ?_⟩
  intro ticks
  obtain ⟨r', hr'⟩ := (orderly_start hpair roomy hservice hloops events).run ticks
  refine ⟨⟨r', hr'.service, hr'.queue, ?_, ?_⟩, hr'.finishes⟩
  · intro role
    rw [hr'.rejected, Engine.origins, Engine.progress, hpair.chain]
    rfl
  · intro finished
    have hfinal := hr'.of_finished finished
    obtain ⟨hdone, hdone', hturn⟩ := hpair.in_turn events
    refine ⟨hdone, hdone', fun role => (hfinal role).1, fun role => (hfinal role).2.1, ?_, ?_⟩
    · apply Database.ext_part
      intro role
      exact (hfinal role).2.2.1.trans (hturn role).1.symm
    · intro role
      exact (hfinal role).2.2.2.trans (hturn role).2.symm

/-- A claim and an account creation from the locking chain, a claim from the issuing chain between
them, and the first claim once more. -/
def mixed : List Event :=
  [.claim (.sample "A" 5 10) 1 none,
    .claim { Transfer.sample "B" 3 20 with source := .issuing } 1 none,
    .createAccount (.sample "C" 6 30) 1 (.native 1) Bridge.sample.issuingDoor,
    .claim (.sample "A" 5 10) 1 none]

/-- The router waits for room, the loops take turns, and writes of both are hit by a fault. -/
def interleaved : List Tick :=
  [.send, .send, .work .locking none, .send, .work .issuing none, .work .locking (some .io),
    .work .issuing (some .database), .send, .work .locking none, .work .locking none, .send,
    .work .issuing none, .drop, .work .issuing none, .work .locking none, .work .locking none,
    .work .locking none]

/-- What a node's engines share when both checkpoints have just been created. -/
def watched : Resources :=
  ⟨.ofIdentity (.sample 0),
    ⟨(Database.empty.setCheckpoint .locking ⟨none, 0⟩).setCheckpoint .issuing ⟨none, 0⟩, .zero,
      false⟩, .running, .both .zero⟩

/-- A node that has started its loops on these, and has been through that schedule. -/
def mixedRun : Relay :=
  (start (Node.spawn ⟨.persistent .sample watched, .both none⟩ 1).2 mixed).run interleaved

theorem loops_do_not_interfere_mixed :
    Holding.fresh.run [.reopen, .ensureCheckpoint .locking, .ensureCheckpoint .issuing] =
      .opened watched.store ∧
    mixedRun.Finished ∧ ∃ locking issuing r',
      Engine.resume .locking watched.store = .ok locking ∧
      Engine.resume .issuing watched.store = .ok issuing ∧
      mixedRun.node.service = .persistent .sample r' ∧
      (∀ role, mixedRun.received.get role = Event.ofChain role mixed) ∧
      r'.store.database =
        (issuing.deliverEach (locking.deliverEach watched (Event.ofChain .locking mixed)).resources
          (Event.ofChain .issuing mixed)).resources.store.database := by
  have reached : Holding.fresh.run [.reopen, .ensureCheckpoint .locking,
      .ensureCheckpoint .issuing] = .opened watched.store := rfl
  have finished : mixedRun.Finished := by
    intro role
    cases role <;> decide +kernel
  obtain ⟨locking, issuing, hlocking, hissuing, hall⟩ :=
    loops_do_not_interfere (n := ⟨.persistent .sample watched, .both none⟩) reached rfl rfl
      (le_refl 1) rfl mixed
  obtain ⟨⟨r', hservice, -, -, hfinal⟩, -⟩ := hall interleaved
  obtain ⟨-, -, -, hreceived, hdatabase, -⟩ := hfinal finished
  exact ⟨reached, finished, locking, issuing, r', hlocking, hissuing, hservice, hreceived,
    hdatabase⟩

end Relay

end Attestor

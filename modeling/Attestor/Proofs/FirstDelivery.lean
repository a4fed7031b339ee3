import Attestor.Proofs.Delivery
import Mathlib.Data.List.Induction

namespace Attestor

namespace Event

/-- Whether two events are of one transfer, as the door of its bridge counts them. -/
def SameTransfer (e f : Event) : Prop :=
  e.bridge = f.bridge ∧ e.key = f.key

instance (e f : Event) : Decidable (e.SameTransfer f) :=
  inferInstanceAs (Decidable (e.bridge = f.bridge ∧ e.key = f.key))

/-- The first event of each transfer. -/
def earliest : List Event → List Event
  | [] => []
  | e :: rest => e :: (earliest rest).filter fun f => ¬e.SameTransfer f

theorem mem_of_mem_earliest {events : List Event} {e : Event} (h : e ∈ earliest events) :
    e ∈ events := by
  induction events with
  | nil => exact h
  | cons f rest ih =>
    rcases List.mem_cons.mp h with rfl | h
    · exact List.mem_cons_self
    · exact List.mem_cons_of_mem _ (ih (List.mem_filter.mp h).1)

/-- Every transfer is among the earliest events. -/
theorem exists_earliest {events : List Event} {e : Event} (h : e ∈ events) :
    ∃ f ∈ earliest events, f.SameTransfer e := by
  induction events with
  | nil => cases h
  | cons g rest ih =>
    by_cases hs : g.SameTransfer e
    · exact ⟨g, List.mem_cons_self, hs⟩
    · rcases List.mem_cons.mp h with rfl | h
      · exact absurd ⟨rfl, rfl⟩ hs
      · obtain ⟨f, hf, hfe⟩ := ih h
        refine ⟨f, List.mem_cons_of_mem _ (List.mem_filter.mpr ⟨hf, ?_⟩), hfe⟩
        simp only [decide_eq_true_eq]
        exact fun hgf => hs ⟨hgf.1.trans hfe.1, hgf.2.trans hfe.2⟩

/-- One event more is among the earliest unless its transfer has been seen. -/
theorem earliest_append (events : List Event) (e : Event) : earliest (events ++ [e]) =
    if ∃ f ∈ events, f.SameTransfer e then earliest events else earliest events ++ [e] := by
  induction events with
  | nil => simp [earliest]
  | cons g rest ih =>
    rw [List.cons_append, earliest, ih, earliest]
    by_cases hg : g.SameTransfer e
    · have hin : ∃ f ∈ g :: rest, f.SameTransfer e := ⟨g, List.mem_cons_self, hg⟩
      rw [if_pos hin]
      by_cases hr : ∃ f ∈ rest, f.SameTransfer e
      · rw [if_pos hr]
      · rw [if_neg hr, List.filter_append]
        simp [hg]
    · have hiff : (∃ f ∈ g :: rest, f.SameTransfer e) ↔ ∃ f ∈ rest, f.SameTransfer e := by
        simp [hg]
      by_cases hr : ∃ f ∈ rest, f.SameTransfer e
      · rw [if_pos hr, if_pos (hiff.mpr hr)]
      · rw [if_neg hr, if_neg (fun h => hr (hiff.mp h)), List.filter_append]
        simp [hg]

end Event

/-- No two of the bridges' texts share a hash. -/
def CollisionFree (events : List Event) : Prop :=
  ∀ e ∈ events, ∀ f ∈ events,
    Hash.Blake3.hash (Bytes.ofString e.bridge.canonicalText) =
      Hash.Blake3.hash (Bytes.ofString f.bridge.canonicalText) →
    e.bridge.canonicalText = f.bridge.canonicalText

theorem Identity.conflicts_iff (i : Identity) {e f : Event} (hk : f.key.kind = e.key.kind)
    (hn : f.transactionId = e.transactionId → f = e)
    (hh : f.bridge.partitionKey = e.bridge.partitionKey → f.bridge = e.bridge) :
    (Row.ofAttestation (i.attest f)).conflicts (Row.ofAttestation (i.attest e)) = true ↔
      f.SameTransfer e := by
  rw [Row.conflicts_iff]
  constructor
  · rintro ⟨hb, ht | hv⟩
    · rw [hn ht]
      exact ⟨rfl, rfl⟩
    · refine ⟨hh hb, ?_⟩
      have hv' : f.key.value = e.key.value := by
        have hc : f.key.value.toInt64 = e.key.value.toInt64 := hv
        exact congrArg Int64.toUInt64 hc
      rw [← f.key.key_kind_value, ← e.key.key_kind_value, hk, hv']
  · rintro ⟨hb, hkey⟩
    refine ⟨congrArg Bridge.partitionKey hb, .inr ?_⟩
    exact congrArg (fun k : ClaimKey => k.value.toInt64) hkey

/-- The rows of one kind that the earliest events of their transfers make. -/
def Identity.firstRows (i : Identity) (events : List Event) (kind : TransferKind) : List Row :=
  ((Event.earliest events).filter (·.key.kind = kind)).map fun e => Row.ofAttestation (i.attest e)

namespace Identity

variable {i : Identity} {events : List Event} {e : Event}

theorem mem_firstRows {kind : TransferKind} {r : Row} : r ∈ i.firstRows events kind ↔
    ∃ f ∈ Event.earliest events, f.key.kind = kind ∧ r = Row.ofAttestation (i.attest f) := by
  simp only [firstRows, List.mem_map, List.mem_filter, decide_eq_true_eq]
  constructor
  · rintro ⟨f, ⟨hf, hk⟩, rfl⟩
    exact ⟨f, hf, hk, rfl⟩
  · rintro ⟨f, hf, hk, rfl⟩
    exact ⟨f, ⟨hf, hk⟩, rfl⟩

theorem firstRows_again (h : ∃ f ∈ events, f.SameTransfer e) (kind : TransferKind) :
    i.firstRows (events ++ [e]) kind = i.firstRows events kind := by
  rw [firstRows, Event.earliest_append, if_pos h]
  rfl

theorem firstRows_new (h : ¬∃ f ∈ events, f.SameTransfer e) (kind : TransferKind) :
    i.firstRows (events ++ [e]) kind = if e.key.kind = kind then
      i.firstRows events kind ++ [Row.ofAttestation (i.attest e)] else i.firstRows events kind := by
  rw [firstRows, Event.earliest_append, if_neg h, List.filter_append, List.map_append]
  split
  · rename_i hk
    rw [List.filter_cons_of_pos (by simp [hk])]
    rfl
  · rename_i hk
    rw [List.filter_cons_of_neg (by simp [hk])]
    exact List.append_nil _

end Identity

namespace Database

/-- Where the rows are those of earliest events, an event is blocked if its transfer was seen. -/
theorem blocks_iff_seen {db : Database} {i : Identity} {events : List Event} {e : Event}
    (hrows : db.rows e.key.kind e.direction = i.firstRows events e.key.kind)
    (hn : ∀ f ∈ events, f.transactionId = e.transactionId → f = e)
    (hh : ∀ f ∈ events, f.bridge.partitionKey = e.bridge.partitionKey → f.bridge = e.bridge) :
    db.Blocks (i.attest e) ↔ ∃ f ∈ events, f.SameTransfer e := by
  have hrows' : db.rows (i.attest e).key.kind (i.attest e).direction =
      i.firstRows events e.key.kind := hrows
  unfold Blocks
  rw [hrows']
  constructor
  · rintro ⟨r, hr, hc⟩
    obtain ⟨f, hf, hk, rfl⟩ := Identity.mem_firstRows.mp hr
    have hin := Event.mem_of_mem_earliest hf
    exact ⟨f, hin, (i.conflicts_iff hk (hn f hin) (hh f hin)).mp hc⟩
  · rintro ⟨f, hf, hs⟩
    obtain ⟨g, hg, hgf⟩ := Event.exists_earliest hf
    have hin := Event.mem_of_mem_earliest hg
    have hge : g.SameTransfer e := ⟨hgf.1.trans hs.1, hgf.2.trans hs.2⟩
    have hk : g.key.kind = e.key.kind := congrArg ClaimKey.kind hge.2
    refine ⟨_, Identity.mem_firstRows.mpr ⟨g, hg, hk, rfl⟩, ?_⟩
    exact (i.conflicts_iff hk (hn g hin) (hh g hin)).mpr hge

/-- Committed in their order, events leave one row for each transfer, made from the earliest. -/
theorem rows_commits {start : Database} (hstart : start.Blank) (i : Identity) {events : List Event}
    {direction : Direction} (hd : ∀ e ∈ events, e.direction = direction)
    (hn : ∀ e ∈ events, ∀ f ∈ events, e.transactionId = f.transactionId → e = f)
    (hh : CollisionFree events) (kind : TransferKind) :
    (start.commits i events).rows kind direction = i.firstRows events kind := by
  induction events using List.reverseRecOn generalizing kind with
  | nil => exact hstart.bare kind direction
  | append_singleton before e ih =>
    have hsub : ∀ f ∈ before, f ∈ before ++ [e] := by
      intro f hf
      exact List.mem_append_left _ hf
    have ih' : ∀ kind, (start.commits i before).rows kind direction = i.firstRows before kind := by
      apply ih
      · intro f hf
        exact hd f (hsub f hf)
      · intro f hf g hg
        exact hn f (hsub f hf) g (hsub g hg)
      · intro f hf g hg
        exact hh f (hsub f hf) g (hsub g hg)
    have hde : e.direction = direction := hd e (by simp)
    have hblocks : (start.commits i before).Blocks (i.attest e) ↔
        ∃ f ∈ before, f.SameTransfer e := by
      apply blocks_iff_seen
      · rw [hde]
        exact ih' e.key.kind
      · intro f hf
        exact hn f (hsub f hf) e (by simp)
      · intro f hf hb
        exact Bridge.canonicalText_inj (hh f (hsub f hf) e (by simp) hb)
    rw [commits_append, rows_commit]
    by_cases hb : ∃ f ∈ before, f.SameTransfer e
    · rw [record_of_blocks (hblocks.mpr hb), Identity.firstRows_again hb, ih']
    · rw [record_of_free (fun h => hb (hblocks.mp h)), Identity.firstRows_new hb, ← ih']
      subst hde
      split
      · rename_i hk
        subst hk
        exact rows_append ..
      · rename_i hk
        exact rows_append_other _ _ fun h => hk h.1.symm

end Database

theorem Identity.read_attest (i : Identity) (e : Event) :
    Database.read e.key.kind e.direction (Row.ofAttestation (i.attest e)) = .ok (i.attest e) := by
  have hr := Row.read_ofAttestation (i.attest_storable e)
  have hk : (i.attest e).kept = i.attest e := by
    cases e <;> rfl
  rw [hk] at hr
  exact hr

namespace Engine

/-- From tables without rows, an engine that goes through a feed leaves one row for each transfer in
it, which reads back as the attestation of its earliest event, signed over that event's message. -/
theorem first_delivery_stands {role : Role} {r : Resources} (blank : r.store.database.Blank)
    (healthy : r.store.poisoned = false) (running : r.signal = .running)
    {feed : List (Event × List Fault)} (own : ∀ p ∈ feed, p.1.source = role)
    (ordered : Ordered (feed.map (·.1))) (hashes : CollisionFree (feed.map (·.1))) :
    ∃ en d, resume role r.store = .ok en ∧
      en.deliver r (feed.map fun p => (p.1, Chance.afterFaults p.2)) = d ∧ d.done = true ∧
      ∀ kind, d.database.rows kind (.ofSource role) =
          ((Event.earliest (feed.map (·.1))).filter (·.key.kind = kind)).map
            (fun e => Row.ofAttestation (r.signer.identity.attest e)) ∧
        (d.database.rows kind (.ofSource role)).map (Database.read kind (.ofSource role)) =
          ((Event.earliest (feed.map (·.1))).filter (·.key.kind = kind)).map fun e =>
            .ok (.ofEvent e r.signer.identity.signingAccount r.signer.identity.publicKey
              (r.signer.identity.sign
                (Message.encode e.bridge e.deliveredAmount e.key e.direction))) := by
  obtain ⟨hresume, hready⟩ := resume_ready role healthy blank.legible blank.covered
  have hstart : r.store.database = r.store.database.commits r.signer.identity [] := rfl
  have hstops : r.signal.stops = false := by
    rw [running]
    rfl
  have hdone := deliver_done hready hstops own
  have hdb := deliver_all blank.legible hready hstops hstart (.inl ⟨rfl, blank.position role⟩)
    ordered own
  have hown : ∀ e ∈ feed.map (·.1), e.direction = .ofSource role := by
    intro e he
    obtain ⟨p, hp, rfl⟩ := List.mem_map.mp he
    exact congrArg Direction.ofSource (own p hp)
  refine ⟨_, _, hresume, rfl, hdone, ?_⟩
  intro kind
  rw [hdb, List.nil_append,
    Database.rows_commits blank r.signer.identity hown ordered.named hashes kind]
  refine ⟨rfl, ?_⟩
  rw [Identity.firstRows, List.map_map]
  apply List.map_congr_left
  intro e he
  obtain ⟨he, hk⟩ := List.mem_filter.mp he
  have hr := r.signer.identity.read_attest e
  rw [of_decide_eq_true hk, hown e (Event.mem_of_mem_earliest he)] at hr
  exact hr

/-- Two claims and an account creation, the first claim again, and its number under another
transaction and with another amount. -/
def contestedFeed : List (Event × List Fault) :=
  [(.claim (.sample "A" 7 10) 1 none, []),
    (.claim (.sample "B" 7 20) 2 none, [.database, .io]),
    (.createAccount (.sample "C" 7 30) 1 (.native 1) Bridge.sample.issuingDoor, []),
    (.claim (.sample "A" 7 10) 1 none, [.io]),
    (.claim (.sample "D" 8 99) 1 none, [])]

theorem first_delivery_of_contested : ∃ en d,
    resume .locking ⟨.empty, .zero, false⟩ = .ok en ∧
    en.deliver ⟨.ofIdentity (.sample 0), ⟨.empty, .zero, false⟩, .running, .both .zero⟩
      (contestedFeed.map fun p => (p.1, Chance.afterFaults p.2)) = d ∧ d.done = true ∧
    d.database.rows .claim .lockingToIssuing =
      [Row.ofAttestation ((Identity.sample 0).attest (.claim (.sample "A" 7 10) 1 none)),
        Row.ofAttestation ((Identity.sample 0).attest (.claim (.sample "B" 7 20) 2 none))] := by
  have hown : ∀ p ∈ contestedFeed, p.1.source = .locking := by
    decide
  have hordered : Ordered (contestedFeed.map (·.1)) :=
    ⟨by decide, by decide⟩
  have hbridge : ∀ e ∈ contestedFeed.map (·.1), e.bridge = .sample := by
    decide
  have hhashes : CollisionFree (contestedFeed.map (·.1)) := by
    intro e he f hf _
    rw [hbridge e he, hbridge f hf]
  obtain ⟨en, d, hr, hd, hdone, hrows⟩ := first_delivery_stands
    (r := ⟨.ofIdentity (.sample 0), ⟨.empty, .zero, false⟩, .running, .both .zero⟩)
    Database.blank_empty rfl rfl hown hordered hhashes
  refine ⟨en, d, hr, hd, hdone, ?_⟩
  have he : (Event.earliest (contestedFeed.map (·.1))).filter (·.key.kind = .claim) =
      [.claim (.sample "A" 7 10) 1 none, .claim (.sample "B" 7 20) 2 none] := by
    decide
  have h := (hrows .claim).1
  rw [he] at h
  exact h

end Engine

end Attestor

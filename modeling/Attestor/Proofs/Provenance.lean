import Attestor.Proofs.BatchEffect
import Attestor.Proofs.Delivery
import Attestor.Proofs.Site

namespace Attestor

/-- One key may sign for several accounts. -/
def Identity.SameKey (i k : Identity) : Prop :=
  i.secret = k.secret ∧ i.publicKey = k.publicKey

theorem Identity.SameKey.sign {i k : Identity} (h : i.SameKey k) (message : Bytes) :
    i.sign message = k.sign message := by
  rw [Identity.sign, Identity.sign, h.1, h.2]

/-- The attestation that a step is to insert, if it is an insert. -/
def WriteStep.attestation? : WriteStep → Option Attestation
  | insertClaim a | insertAccountCreate a | insert a => some a
  | _ => none

theorem Deed.step_of_inserted {d : Deed} {a : Attestation} (h : d.inserted? = some a) :
    d.step.attestation? = some a := by
  unfold inserted? at h
  split at h
  all_goals first | exact h | cases h

theorem Batch.step_of_inserted {b : Batch} {answers : List StepAnswer} {a : Attestation}
    (h : a ∈ Deed.inserted (b.deeds answers)) : ∃ step ∈ b.steps, step.attestation? = some a := by
  obtain ⟨deed, hd, ha⟩ := List.mem_filterMap.mp h
  exact ⟨deed.step, step_mem hd, Deed.step_of_inserted ha⟩

/-- A write adds rows only for attestations that its steps are to insert. -/
theorem Store.mem_rows_write {s : Store} {b : Batch} {kind : TransferKind} {direction : Direction}
    {r : Row} (h : r ∈ (s.write b).2.database.rows kind direction) :
    r ∈ s.database.rows kind direction ∨ ∃ step ∈ b.steps, ∃ a, step.attestation? = some a ∧
      kind = a.key.kind ∧ direction = a.direction ∧ r = Row.ofAttestation a := by
  obtain ⟨-, ht, -⟩ | ⟨answers, d, -, hr, -, hw⟩ := s.write_cases b
  · rw [ht] at h
    exact .inl h
  · rw [hw] at h
    change r ∈ d.database.rows kind direction at h
    rw [(Draft.run_after hr).2.database] at h
    refine (Deed.mem_rows_effects h).imp_right ?_
    rintro ⟨a, hm, hrow⟩
    obtain ⟨step, hs, ha⟩ := Batch.step_of_inserted (b := b) hm
    exact ⟨step, hs, a, ha, hrow⟩

section

variable {i : Identity} {handed : Event → Prop}

/-- The attestation of an event that was handed out, under the key. -/
def Attestation.MadeBy (i : Identity) (handed : Event → Prop) (a : Attestation) : Prop :=
  ∃ (e : Event) (k : Identity), handed e ∧ k.SameKey i ∧ a = k.attest e

/-- Every row is that of an attestation under the key. -/
def Database.SignedBy (i : Identity) (handed : Event → Prop) (db : Database) : Prop :=
  ∀ kind direction, ∀ r ∈ db.rows kind direction, ∃ a : Attestation, a.MadeBy i handed ∧
    a.key.kind = kind ∧ a.direction = direction ∧ r = Row.ofAttestation a

theorem Database.signedBy_empty : empty.SignedBy i handed := by
  intro kind direction r hr
  rw [blank_empty.bare] at hr
  cases hr

theorem Database.SignedBy.prepare {db : Database} (h : db.SignedBy i handed) :
    db.prepare.SignedBy i handed := by
  intro kind direction r hr
  rw [rows_prepare] at hr
  exact h kind direction r hr

namespace Store

theorem write_signed {s : Store} (h : s.database.SignedBy i handed) {b : Batch}
    (made : ∀ step ∈ b.steps, ∀ a, step.attestation? = some a → a.MadeBy i handed) :
    (s.write b).2.database.SignedBy i handed := by
  intro kind direction r hr
  rcases mem_rows_write hr with hr | ⟨step, hs, a, ha, hk, hd, hrow⟩
  · exact h kind direction r hr
  · exact ⟨a, made step hs a ha, hk.symm, hd.symm, hrow⟩

theorem writeUnder_signed {s : Store} (h : s.database.SignedBy i handed) {fault : Option Fault}
    {b : Batch} (made : ∀ step ∈ b.steps, ∀ a, step.attestation? = some a → a.MadeBy i handed) :
    (s.writeUnder fault b).2.database.SignedBy i handed := by
  unfold writeUnder
  split
  · exact write_signed h made
  · split <;> exact h

theorem ensureCheckpoint_signed {s : Store} (h : s.database.SignedBy i handed) (role : Role) :
    (s.ensureCheckpoint role).2.database.SignedBy i handed := by
  rw [ensureCheckpoint_store]
  apply write_signed h
  intro step hs a ha
  rw [List.mem_singleton.mp hs] at ha
  cases ha

end Store

theorem Node.ensureCheckpoints_signed {s : Store} (h : s.database.SignedBy i handed) :
    (ensureCheckpoints s).2.database.SignedBy i handed := by
  have hl := Store.ensureCheckpoint_signed h .locking
  unfold ensureCheckpoints
  split
  · rename_i hs
    rwa [hs] at hl
  · rename_i store hs
    rw [hs] at hl
    have hi := Store.ensureCheckpoint_signed hl .issuing
    split
    all_goals
      rename_i hs'
      rwa [hs'] at hi

theorem Node.openPersistent_signed {db : Database} (h : db.SignedBy i handed) (k : Identity)
    (b : Bridge) : (openPersistent k b db).2.SignedBy i handed := by
  unfold openPersistent
  dsimp only
  split
  · exact h.prepare
  · rename_i store ho
    have he : (ensureCheckpoints store).2.database.SignedBy i handed := by
      apply ensureCheckpoints_signed
      rw [Store.openChecked_eq ho]
      exact h.prepare
    split
    all_goals
      rename_i hs
      rwa [hs] at he

/-- What engines share: the rows are signed under the key, and so will others be. -/
structure Resources.Honest (i : Identity) (handed : Event → Prop) (r : Resources) : Prop where
  signer : r.signer.identity.SameKey i
  database : r.store.database.SignedBy i handed

namespace Engine

/-- What the engine is about to write is signed under the key. -/
def Carries (i : Identity) (handed : Event → Prop) (en : Engine) : Prop :=
  ∀ e a, en.phase = .writing e a ∨ en.phase = .waiting e a → a.MadeBy i handed

theorem carries_idle {en : Engine} (h : en.phase = .idle) : en.Carries i handed := by
  intro e a hp
  rw [h] at hp
  rcases hp with hp | hp <;> cases hp

theorem resume_idle {role : Role} {store : Store} {en : Engine} (h : resume role store = .ok en) :
    en.phase = .idle := by
  obtain ⟨_, -, h⟩ := Except.bind_ok h
  cases h
  rfl

theorem take_honest {en : Engine} (he : en.Carries i handed) {r : Resources}
    (hr : r.Honest i handed) {e : Event} (hand : handed e) :
    (en.take r e).engine.Carries i handed ∧ (en.take r e).resources.Honest i handed := by
  unfold take
  split
  · exact ⟨he, hr.signer, hr.database⟩
  · split
    · exact ⟨he, hr.signer, hr.database⟩
    · refine ⟨?_, hr.signer, hr.database⟩
      rintro e' a (hp | hp)
      · cases hp
        exact ⟨e, r.signer.identity, hand, hr.signer, rfl⟩
      · cases hp

theorem commitBatch_inserts {role : Role} {a a' : Attestation} {step : WriteStep}
    (hs : step ∈ (commitBatch role a).steps) (h : step.attestation? = some a') : a' = a := by
  have hin : step = .insertClaim a ∨ step = .insertAccountCreate a ∨
      step = .advance role a.transactionId a.ledgerSequence := by
    simp only [commitBatch, List.mem_cons, List.not_mem_nil, or_false] at hs
    rcases hs with hs | hs
    · cases hk : a.key.kind with
      | claim => exact .inl (by rw [hs, hk])
      | createAccount => exact .inr (.inl (by rw [hs, hk]))
    · exact .inr (.inr hs)
  rcases hin with rfl | rfl | rfl <;> cases h <;> rfl

theorem write_honest {en : Engine} {r : Resources} (hr : r.Honest i handed) (e : Event)
    {a : Attestation} (ha : a.MadeBy i handed) (fault : Option Fault) :
    (en.write r e a fault).engine.Carries i handed ∧
      (en.write r e a fault).resources.Honest i handed := by
  have hdb : (en.write r e a fault).resources.store.database.SignedBy i handed := by
    rw [write_store]
    apply Store.writeUnder_signed hr.database
    intro step hs a' ha'
    rwa [commitBatch_inserts hs ha']
  have hsigner : (en.write r e a fault).resources.signer = r.signer := by
    unfold write
    dsimp only
    split
    · rfl
    · split <;> rfl
  refine ⟨?_, ⟨by rw [hsigner]; exact hr.signer, hdb⟩⟩
  unfold write
  dsimp only
  split
  · exact carries_idle rfl
  · split
    · rintro e' a' (hp | hp)
      · cases hp
      · cases hp
        exact ha
    · exact carries_idle rfl

theorem turn_honest {en : Engine} (he : en.Carries i handed) {r : Resources}
    (hr : r.Honest i handed) (fault : Option Fault) :
    (en.turn r fault).engine.Carries i handed ∧ (en.turn r fault).resources.Honest i handed := by
  unfold turn
  split
  · exact ⟨he, hr⟩
  · rename_i e a hp
    exact write_honest hr e (he e a (.inl hp)) fault
  · rename_i e a hp
    split
    · exact ⟨carries_idle rfl, hr⟩
    · exact write_honest hr e (he e a (.inr hp)) fault

end Engine

/-- Only nodes with the key start, and only events of that kind are handed out. -/
def Act.Allowed (i : Identity) (handed : Event → Prop) : Act → Prop
  | start k _ => k.SameKey i
  | hand _ e => handed e
  | _ => True

namespace Site

/-- All that is signed here, on disk or in hand, is signed under the key. -/
def Honest (i : Identity) (handed : Event → Prop) : Site → Prop
  | down db => db.SignedBy i handed
  | up _ r engines => r.Honest i handed ∧ ∀ en ∈ engines, en.Carries i handed

theorem handTo_honest {en : Engine} (he : en.Carries i handed) {r : Resources}
    (hr : r.Honest i handed) {e : Event} (hand : handed e) :
    (handTo r e en).engine.Carries i handed ∧ (handTo r e en).resources.Honest i handed := by
  unfold handTo
  split
  · exact Engine.take_honest he hr hand
  · exact ⟨he, hr⟩

theorem move_honest {b : Bridge} {r : Resources} {engines : List Engine} (n : Nat)
    {f : Engine → Move} (h : (up b r engines).Honest i handed)
    (hf : ∀ en : Engine, en.Carries i handed →
      (f en).engine.Carries i handed ∧ (f en).resources.Honest i handed) :
    (move b r engines n f).Honest i handed := by
  unfold move
  split
  · rename_i en hn
    obtain ⟨hengine, hresources⟩ := hf en (h.2 en (List.mem_of_getElem? hn))
    refine ⟨hresources, ?_⟩
    intro en' hm
    rcases List.mem_or_eq_of_mem_set hm with hm | rfl
    · exact h.2 en' hm
    · exact hengine
  · exact h

theorem step_honest {s : Site} (h : s.Honest i handed) {act : Act}
    (allowed : act.Allowed i handed) : (s.step act).Honest i handed := by
  cases s with
  | down db =>
    cases act with
    | start k bridge =>
      have hopen := Node.openPersistent_signed h k bridge
      obtain ⟨-, hn⟩ := Node.openPersistent_changes k bridge db
      simp only [step]
      split
      · rename_i b r loops db' ho
        rw [ho] at hopen hn
        obtain ⟨store, hs, hd⟩ := hn _ rfl
        cases hs
        refine ⟨⟨allowed, ?_⟩, fun en hm => absurd hm List.not_mem_nil⟩
        rw [hd]
        exact hopen
      · rename_i ho
        rwa [ho] at hopen
    | _ => exact h
  | up b r engines =>
    obtain ⟨hr, hengines⟩ := h
    cases act with
    | start k bridge => exact ⟨hr, hengines⟩
    | signal signal => exact ⟨⟨hr.signer, hr.database⟩, hengines⟩
    | die steps =>
      refine ⟨⟨hr.signer, ?_⟩, hengines⟩
      change (r.store.writeAndDie steps).2.database.SignedBy i handed
      rw [Store.writeAndDie_database]
      exact hr.database
    | halt => exact hr.database
    | resume role =>
      simp only [step]
      split
      · rename_i en hresume
        refine ⟨hr, ?_⟩
        intro en' hm
        rcases List.mem_append.mp hm with hm | hm
        · exact hengines en' hm
        · rw [List.mem_singleton.mp hm]
          exact Engine.carries_idle (Engine.resume_idle hresume)
      · exact ⟨hr, hengines⟩
    | drop n =>
      refine ⟨hr, ?_⟩
      intro en hm
      exact hengines en (List.mem_of_mem_eraseIdx hm)
    | hand n e => exact move_honest n ⟨hr, hengines⟩ fun en he => handTo_honest he hr allowed
    | turn n fault => exact move_honest n ⟨hr, hengines⟩ fun en he => en.turn_honest he hr fault
    | request line =>
      obtain ⟨signal, hs⟩ := Service.handleLine_persistent b r line
      simp only [step, hs]
      exact ⟨⟨hr.signer, hr.database⟩, hengines⟩

/-- Every exchange of a run from empty tables is with a node whose rows are signed under the key. -/
theorem exchange_signed {acts : List Act} (allowed : ∀ act ∈ acts, act.Allowed i handed)
    {x : Exchange} (h : x ∈ (down .empty).exchanges acts) :
    ∃ b r, r.store.database.SignedBy i handed ∧ .request x.line ∈ acts ∧
      x.response = ((Service.persistent b r).handleLine x.line).1 := by
  have hkept : ∀ s : Site, ∀ act ∈ acts, s.Honest i handed → (s.step act).Honest i handed := by
    intro s act ha hs
    exact step_honest hs (allowed act ha)
  have hstart : (down .empty).Honest i handed := Database.signedBy_empty
  obtain ⟨b, r, engines, hs, hm, hx⟩ := exchange_at (P := Site.Honest i handed) hkept hstart h
  exact ⟨b, r, hs.1.database, hm, hx⟩

end Site

end

end Attestor

import Attestor.Proofs.OnDuty

namespace Attestor.Duty

variable {x y : Duty} {b : Beat} {beats : List Beat} {m : Made}

theorem moves_cons (x : Duty) (b : Beat) (beats : List Beat) :
    x.moves (b :: beats) = (x.made? b).toList ++ (x.step b).moves beats :=
  rfl

/-- The moves that a stopped loop has yet to make, by what its engine has in hand. -/
inductive Remaining : Engine → List Made → Prop
  | nothing (en : Engine) : Remaining en []
  | abandons {m : Made} {a : Attestation} (sound : m.Sound)
    (waiting : m.engine.phase = .waiting m.event a)
    (move : m.move = ⟨some .abandoned, { m.engine with phase := .idle }, m.resources⟩)
    (late : m.signal.stops = true) : Remaining m.engine [m]
  | writes {m : Made} {a : Attestation} {made : List Made} (sound : m.Sound) (fault : Option Fault)
    (writing : m.engine.phase = .writing m.event a)
    (move : m.move = m.engine.write m.resources m.event a fault) (late : m.signal.stops = true)
    (next : Remaining m.move.engine made) : Remaining m.engine (m :: made)

theorem Remaining.of_idle {en : Engine} {made : List Made} (h : Remaining en made)
    (idle : en.phase = .idle) : made = [] := by
  cases h with
  | nothing => rfl
  | abandons _ waiting => cases idle.symm.trans waiting
  | writes _ fault writing => cases idle.symm.trans writing

/-- After the word to stop, at most a write is left and the abandonment of its event. -/
theorem remaining (stopped : x.Stopped) (beats : List Beat) :
    Remaining x.loop.engine (x.moves beats) := by
  induction beats generalizing x with
  | nil => exact .nothing _
  | cons b beats ih =>
    rw [moves_cons]
    obtain ⟨hm, hrests, -⟩ | ⟨m, hm, -, hmoves⟩ := x.step_cases b
    · rw [hm]
      exact hrests.engine ▸ ih (hrests.stopped stopped)
    · have hnext := ih (hmoves.stopped stopped)
      have hlate := hmoves.late.mpr (hmoves.stopped stopped)
      rw [hmoves.next] at hnext
      rw [hm, ← hmoves.engine]
      obtain ⟨a, fault, writing, hmove⟩ | ⟨a, waiting, hmove⟩ :=
        hmoves.sound.of_stopped (hmoves.began stopped)
      · exact .writes hmoves.sound fault writing hmove hlate hnext
      · have hidle : m.move.engine.phase = .idle := by rw [hmove]
        rw [hnext.of_idle hidle]
        exact .abandons hmoves.sound waiting hmove hlate

theorem Remaining.late {en : Engine} {made : List Made} (h : Remaining en made) :
    ∀ m ∈ made, m.signal.stops = true := by
  induction h with
  | nothing => exact fun _ hm => absurd hm List.not_mem_nil
  | abandons _ _ _ late => exact List.forall_mem_singleton.mpr late
  | writes _ _ _ _ late _ ih => exact List.forall_mem_cons.mpr ⟨late, ih⟩

theorem late_of_stopped (stopped : x.Stopped) (beats : List Beat) :
    x.late beats = x.moves beats :=
  List.filter_eq_self.mpr (remaining stopped beats).late

theorem late_cons (x : Duty) (b : Beat) (beats : List Beat) :
    x.late (b :: beats) = (x.made? b).toList.filter (·.signal.stops) ++ (x.step b).late beats := by
  rw [late, moves_cons, List.filter_append]
  rfl

/-- The moves that the word to stop overtakes: those that remain after it, behind one at most in the
middle of which it came. -/
theorem late_cases (x : Duty) (beats : List Beat) :
    (∃ en, Remaining en (x.late beats)) ∨
    ∃ m made, x.late beats = m :: made ∧ m.Sound ∧ Remaining m.move.engine made := by
  induction beats generalizing x with
  | nil => exact .inl ⟨x.loop.engine, .nothing _⟩
  | cons b beats ih =>
    rw [late_cons]
    obtain ⟨hm, -, -⟩ | ⟨m, hm, -, hmoves⟩ := x.step_cases b
    · rw [hm]
      exact ih (x.step b)
    · rw [hm]
      by_cases hlate : m.signal.stops = true
      · have stopped := hmoves.late.mp hlate
        refine .inr ⟨m, (x.step b).moves beats, ?_, hmoves.sound, ?_⟩
        · rw [late_of_stopped stopped]
          simp [hlate]
        · rw [← hmoves.next]
          exact remaining stopped beats
      · simpa [hlate] using ih (x.step b)

namespace Remaining

variable {en : Engine} {made : List Made}

/-- All that remain go on with the event in hand. -/
theorem event (h : Remaining en made) : ∀ m ∈ made, en.phase.event? = some m.event := by
  induction h with
  | nothing => exact fun _ hm => absurd hm List.not_mem_nil
  | abandons _ waiting => exact List.forall_mem_singleton.mpr (by rw [waiting]; rfl)
  | writes sound fault writing _ _ _ ih =>
    refine List.forall_mem_cons.mpr ⟨by rw [writing]; rfl, ?_⟩
    intro n hn
    rw [sound.event (ih n hn), writing]
    rfl

/-- An event that a move behind it ends is the last. -/
theorem after_ended {m : Made} (h : Remaining m.move.engine made) (sound : m.Sound)
    (ended : m.move.outcome ≠ none) : made = [] :=
  h.of_idle (sound.idle ended)

theorem commits_le (h : Remaining en made) : (made.filter Made.commits).length ≤ 1 := by
  induction h with
  | nothing => exact Nat.zero_le 1
  | abandons => exact List.length_filter_le ..
  | @writes m a made sound fault _ _ _ next ih =>
    by_cases hc : m.commits = true
    · rw [next.after_ended sound (Made.ended_of_commits hc)]
      exact List.length_filter_le ..
    · rwa [List.filter_cons_of_neg hc]

/-- All that remains for an engine that waits is to abandon its event. -/
theorem of_waiting (h : Remaining en made) {e : Event} {a : Attestation}
    (waiting : en.phase = .waiting e a) : made = [] ∨ ∃ n, made = [n] ∧
      n.move = ⟨some .abandoned, { en with phase := .idle }, n.resources⟩ := by
  cases h with
  | nothing => exact .inl rfl
  | abandons _ _ move => exact .inr ⟨_, rfl, move⟩
  | writes _ _ writing => cases waiting.symm.trans writing

/-- What follows a move is what remains for the engine as the move has left it. -/
theorem next (h : Remaining en made) {before after : List Made} {m : Made}
    (hm : made = before ++ m :: after) : m.Sound ∧ Remaining m.move.engine after := by
  induction h generalizing before with
  | nothing => simp at hm
  | abandons sound =>
    cases before with
    | nil =>
      cases hm
      exact ⟨sound, .nothing _⟩
    | cons => simp at hm
  | writes sound _ _ _ _ next ih =>
    cases before with
    | nil =>
      cases hm
      exact ⟨sound, next⟩
    | cons k before =>
      cases hm
      exact ih rfl

end Remaining

theorem late_next {before after : List Made} (hm : x.late beats = before ++ m :: after) :
    m.Sound ∧ Remaining m.move.engine after := by
  obtain ⟨en, h⟩ | ⟨k, made, hlate, sound, h⟩ := x.late_cases beats
  · exact h.next hm
  · rw [hlate] at hm
    cases before with
    | nil =>
      cases hm
      exact ⟨sound, h⟩
    | cons n before =>
      cases hm
      exact h.next rfl

/-- No more than one event is committed by moves that the word to stop overtakes. -/
theorem late_commits (x : Duty) (beats : List Beat) :
    ((x.late beats).filter Made.commits).length ≤ 1 := by
  obtain ⟨en, h⟩ | ⟨m, made, hlate, sound, h⟩ := x.late_cases beats
  · exact h.commits_le
  · rw [hlate]
    by_cases hc : m.commits = true
    · rw [h.after_ended sound (Made.ended_of_commits hc)]
      exact List.length_filter_le ..
    · rw [List.filter_cons_of_neg hc]
      exact h.commits_le

/-- All of them are about one event. -/
theorem late_event {n : Made} (hm : m ∈ x.late beats) (hn : n ∈ x.late beats) :
    n.event = m.event := by
  obtain ⟨en, h⟩ | ⟨k, made, hlate, sound, h⟩ := x.late_cases beats
  · exact Option.some.inj ((h.event n hn).symm.trans (h.event m hm))
  · have hall : ∀ i ∈ x.late beats, i.event = k.event := by
      rw [hlate]
      exact List.forall_mem_cons.mpr ⟨rfl, fun i hi => sound.event (h.event i hi)⟩
    exact (hall n hn).trans (hall m hm).symm

theorem run_cons (x : Duty) (b : Beat) (beats : List Beat) :
    x.run (b :: beats) = (x.step b).run beats :=
  rfl

/-- A loop that is over after a move was ended by it. -/
theorem Moves.ended (h : x.Moves m y) (hover : y.loop.isOver = true) :
    m.move.engine.phase = .idle := by
  obtain ⟨error, ho, -⟩ | hresult := h.failed
  · exact h.sound.idle (by rw [ho]; nofun)
  · have going := h.going
    rw [Loop.isOver, ← hresult, ← Loop.isOver, hover] at going
    cases going

theorem run_quiet (h : x.moves beats = []) : (x.run beats).loop.engine = x.loop.engine ∧
    ((x.run beats).loop.isOver = true → x.loop.isOver = true ∨ x.loop.engine.phase = .idle) := by
  induction beats generalizing x with
  | nil => exact ⟨rfl, .inl⟩
  | cons b beats ih =>
    rw [moves_cons] at h
    rw [run_cons]
    obtain ⟨hm, hrests, -⟩ | ⟨m, hm, -, -⟩ := x.step_cases b
    · rw [hm] at h
      obtain ⟨hengine, hover⟩ := ih h
      refine ⟨hengine.trans hrests.engine, fun hend => ?_⟩
      obtain hend | idle := hover hend
      · exact hrests.ended hend
      · exact .inr (hrests.engine ▸ idle)
    · rw [hm] at h
      cases h

/-- A run leaves the engine as its last move does, and is over only if that ended its event. -/
theorem run_last {made : List Made} (h : x.moves beats = made ++ [m]) :
    (x.run beats).loop.engine = m.move.engine ∧
      ((x.run beats).loop.isOver = true → m.move.engine.phase = .idle) := by
  induction beats generalizing x made with
  | nil => simp [moves] at h
  | cons b beats ih =>
    rw [moves_cons] at h
    rw [run_cons]
    obtain ⟨hm, -, -⟩ | ⟨n, hm, -, hmoves⟩ := x.step_cases b
    · rw [hm] at h
      exact ih h
    · rw [hm] at h
      cases made with
      | nil =>
        obtain ⟨rfl, hquiet⟩ := List.cons.inj h
        obtain ⟨hengine, hover⟩ := run_quiet hquiet
        refine ⟨hengine.trans hmoves.next, fun hend => ?_⟩
        obtain hend | idle := hover hend
        · exact hmoves.ended hend
        · exact hmoves.next ▸ idle
      | cons k made =>
        obtain ⟨-, hrest⟩ := List.cons.inj h
        exact ih hrest

/-- No move of a stopped loop comes before one of a loop that is not. -/
theorem late_suffix (x : Duty) (beats : List Beat) : x.late beats <:+ x.moves beats := by
  induction beats generalizing x with
  | nil => exact List.suffix_refl _
  | cons b beats ih =>
    by_cases stopped : x.Stopped
    · rw [late_of_stopped stopped]
    · rw [late_cons, moves_cons]
      obtain ⟨hm, -, -⟩ | ⟨m, hm, -, hmoves⟩ := x.step_cases b
      · rw [hm]
        exact ih (x.step b)
      · rw [hm]
        by_cases hlate : m.signal.stops = true
        · rw [late_of_stopped (hmoves.late.mp hlate)]
          simp [hlate]
        · have hnone : [m].filter (·.signal.stops) = [] := List.filter_cons_of_neg hlate
          rw [Option.toList_some, hnone]
          exact (ih (x.step b)).trans (List.suffix_append ..)

/-- Every move is one that the engine can make, and whoever is told to stop stays so. -/
theorem moves_sound (x : Duty) (beats : List Beat) :
    ∀ m ∈ x.moves beats, m.Sound ∧ (m.resources.signal.stops = true → m.signal.stops = true) := by
  induction beats generalizing x with
  | nil => exact fun _ hm => absurd hm List.not_mem_nil
  | cons b beats ih =>
    rw [moves_cons]
    obtain ⟨hm, -, -⟩ | ⟨m, hm, -, hmoves⟩ := x.step_cases b
    · rw [hm]
      exact ih (x.step b)
    · rw [hm]
      refine List.forall_mem_cons.mpr ⟨⟨hmoves.sound, ?_⟩, ih (x.step b)⟩
      rw [hmoves.resources, hmoves.signal]
      exact hmoves.stopped

/-- After the word to stop nothing is taken from the feed. -/
theorem queue_stays (stopped : x.Stopped) (beats : List Beat) :
    x.loop.feed.queue <+: (x.run beats).loop.feed.queue := by
  induction beats generalizing x with
  | nil => exact List.prefix_refl _
  | cons b beats ih =>
    rw [run_cons]
    obtain ⟨-, hrests, -⟩ | ⟨m, -, -, hmoves⟩ := x.step_cases b
    · exact hrests.queue.trans (ih (hrests.stopped stopped))
    · exact hmoves.queue stopped ▸ ih (hmoves.stopped stopped)

/-- An error that a loop returns is one for which a move failed. -/
theorem result_failed {error : StoreError}
    (h : (x.run beats).loop.result = some (.error error)) :
    x.loop.result = some (.error error) ∨
      ∃ m ∈ x.moves beats, m.move.outcome = some (.failed error) := by
  induction beats generalizing x with
  | nil => exact .inl h
  | cons b beats ih =>
    rw [moves_cons]
    obtain ⟨hm, hrests, -⟩ | ⟨m, hm, -, hmoves⟩ := x.step_cases b
    · rw [hm]
      exact (ih h).imp_left (hrests.failed error)
    · rw [hm]
      obtain hresult | ⟨n, hn, ho⟩ := ih h
      · obtain ⟨own, ho, hown⟩ | hsame := hmoves.failed
        · cases hresult.symm.trans hown
          exact .inr ⟨m, List.mem_cons_self, ho⟩
        · exact .inl (hsame.symm.trans hresult)
      · exact .inr ⟨n, List.mem_cons_of_mem _ hn, ho⟩

/-- How many steps a stopped loop needs at most until it is over. -/
def distance (x : Duty) : Nat :=
  if x.loop.isOver then 0
  else match x.loop.engine.phase with
    | .idle => 1
    | .waiting .. => 2
    | .writing .. => 3

theorem distance_idle (h : x.loop.engine.phase = .idle) : x.distance ≤ 1 := by
  rw [distance, h]
  split <;> decide

theorem distance_waiting {e : Event} {a : Attestation} (h : x.loop.engine.phase = .waiting e a) :
    x.distance ≤ 2 := by
  rw [distance, h]
  split
  · exact Nat.zero_le 2
  · exact Nat.le_refl 2

theorem distance_le (x : Duty) : x.distance ≤ 3 := by
  unfold distance
  repeat' split
  all_goals decide

theorem nearer (stopped : x.Stopped) (b : Beat) :
    (x.step b).distance ≤ x.distance - if b.isWork then 1 else 0 := by
  obtain ⟨-, hrests, hover⟩ | ⟨m, -, hwork, hmoves⟩ := x.step_cases b
  · by_cases hwork : b.isWork = true
    · rw [distance, if_pos (hover hwork stopped)]
      exact Nat.zero_le _
    · rw [if_neg hwork, Nat.sub_zero, distance, distance, hrests.engine]
      by_cases hend : x.loop.isOver = true
      · rw [if_pos hend, if_pos (hrests.stays hend)]
      · rw [if_neg hend]
        split
        · exact Nat.zero_le _
        · exact Nat.le_refl _
  · have going : ¬ x.loop.isOver = true := Bool.eq_false_iff.mp hmoves.going
    have hnext := hmoves.next
    have hengine := hmoves.engine
    rw [if_pos hwork]
    obtain ⟨a, fault, writing, hmove⟩ | ⟨a, waiting, hmove⟩ :=
      hmoves.sound.of_stopped (hmoves.began stopped)
    · have hx : x.distance = 3 := by
        rw [distance, if_neg going, ← hengine, writing]
      rw [hx]
      rw [hmove] at hnext
      obtain ⟨-, -, ⟨i, -, idle⟩ | ⟨-, ⟨error, -, hen⟩ | ⟨-, hen⟩⟩⟩ :=
        m.engine.write_ends m.resources m.event a fault
      · exact (distance_idle (hnext ▸ idle)).trans (by decide)
      · exact (distance_idle (by rw [hnext, hen])).trans (by decide)
      · exact distance_waiting (e := m.event) (a := a) (by rw [hnext, hen])
    · have hx : x.distance = 2 := by
        rw [distance, if_neg going, ← hengine, waiting]
      rw [hx]
      exact distance_idle (by rw [hnext, hmove])

/-- Three steps after the word to stop a loop is over. -/
theorem distance_run (stopped : x.Stopped) (beats : List Beat) :
    (x.run beats).distance ≤ x.distance - (beats.filter Beat.isWork).length := by
  induction beats generalizing x with
  | nil => exact Nat.le_refl _
  | cons b beats ih =>
    have hstep := nearer stopped b
    have hrun := ih (stopped.step b)
    rw [run_cons, List.filter_cons]
    split at hstep <;> rename_i hwork
    · rw [if_pos hwork, List.length_cons]
      omega
    · rw [if_neg hwork]
      omega

theorem over_of_distance (h : x.distance = 0) : x.loop.isOver = true := by
  unfold distance at h
  split at h
  · assumption
  · split at h <;> cases h

/-- However events, faults and the word to stop fall, no more than one event is committed by moves
that the word overtakes, and all of these are about it. A move that begins after the word goes on
with the event in hand and signs nothing. A write that fails for a passing reason leaves the store
as it was, and so does the abandonment, which alone may follow. A loop returns an error only for a
write that failed for good. And once stopped it takes nothing from its feed, makes no move but for
the event in hand, and is over after three steps. -/
theorem winds_down (x : Duty) (beats : List Beat) :
    ((x.late beats).filter Made.commits).length ≤ 1 ∧
    (∀ m ∈ x.late beats, ∀ n ∈ x.late beats, n.event = m.event) ∧
    (∀ m ∈ x.moves beats, m.resources.signal.stops = true →
      m ∈ x.late beats ∧ m.engine.Has m.event ∧
      (∃ fault, m.move = m.engine.turn m.resources fault) ∧
      m.move.resources.signer = m.resources.signer ∧
      (m.commits = false → m.move.resources.store = m.resources.store)) ∧
    (∀ before m after, x.late beats = before ++ m :: after → m.engine.Has m.event →
      m.move.outcome = none →
        m.move.resources.store = m.resources.store ∧
        m.move.engine.checkpoint = m.engine.checkpoint ∧
        (after = [] ∧ (x.run beats).loop.isOver = false ∨
          ∃ n, after = [n] ∧ n.move.outcome = some .abandoned ∧
            n.move.resources.store = n.resources.store ∧
            n.move.engine.checkpoint = m.engine.checkpoint)) ∧
    (∀ error, (x.run beats).loop.result = some (.error error) →
      x.loop.result = some (.error error) ∨ ∃ m ∈ x.moves beats, ∃ a fault,
        (m.engine.phase = .writing m.event a ∨ m.engine.phase = .waiting m.event a) ∧
        (m.resources.store.writeUnder fault (Engine.commitBatch m.engine.role a)).1.failure =
          some error ∧ error.isTransient = false) ∧
    (x.Stopped → x.loop.feed.queue <+: (x.run beats).loop.feed.queue ∧
      (∀ m ∈ x.moves beats, x.loop.engine.Has m.event) ∧
      (3 ≤ (beats.filter Beat.isWork).length → (x.run beats).loop.isOver = true)) := by
  refine ⟨x.late_commits beats, fun m hm n hn => late_event hm hn, ?_, ?_, ?_, ?_⟩
  · intro m hm stop
    obtain ⟨sound, hlate⟩ := x.moves_sound beats m hm
    exact ⟨List.mem_filter.mpr ⟨hm, hlate stop⟩, sound.stopped stop⟩
  · intro before m after hm hand stays
    obtain ⟨⟨fault, hmakes⟩, next⟩ := late_next hm
    obtain ⟨hstore, a, hen⟩ := hmakes.waits hand stays
    rw [hen] at next
    refine ⟨hstore, by rw [hen], ?_⟩
    obtain rfl | ⟨n, rfl, hn⟩ := next.of_waiting rfl
    · refine .inl ⟨rfl, Bool.eq_false_iff.mpr fun hover => ?_⟩
      obtain ⟨made, hmade⟩ := x.late_suffix beats
      rw [hm, ← List.append_assoc] at hmade
      have hidle := (run_last hmade.symm).2 hover
      rw [hen] at hidle
      cases hidle
    · refine .inr ⟨n, rfl, ?_⟩
      rw [hn]
      exact ⟨rfl, rfl, rfl⟩
  · intro error h
    obtain hx | ⟨m, hm, ho⟩ := result_failed h
    · exact .inl hx
    · obtain ⟨⟨fault, hmakes⟩, -⟩ := x.moves_sound beats m hm
      obtain ⟨a, hand, hfailure, hlasts⟩ := hmakes.failed ho
      exact .inr ⟨m, hm, a, fault, hand, hfailure, hlasts⟩
  · intro stopped
    refine ⟨queue_stays stopped beats, ?_, ?_⟩
    · intro m hm
      exact Phase.event?_some ((remaining stopped beats).event m hm)
    · intro steps
      have hle := distance_run stopped beats
      have hmost := x.distance_le
      exact over_of_distance (by omega)

/-- Two claims wait in the feed of a node that runs. -/
def sampleDuty : Duty where
  loop := ⟨⟨.locking, ⟨.locking, none, 0⟩, .idle⟩,
    ⟨8, [.claim (.sample "A" 7 10) 1 none, .claim (.sample "B" 8 20) 2 none], false⟩, none⟩
  resources := ⟨.ofIdentity (.sample 0), ⟨.empty, .zero, false⟩, .running, .both .zero⟩

/-- The first claim is taken, and a fault hits its write, in the middle of which the node is told to
stop. A third claim comes in before the loop has its last two steps. -/
def failingBeats : List Beat :=
  [.work none none, .work (some .io) (some ⟨.requested, rfl⟩),
    .send (.claim (.sample "C" 9 30) 3 none), .work none none, .work none none]

theorem winds_down_failing : ∃ m n, sampleDuty.late failingBeats = [m, n] ∧
    m.move.resources.store = m.resources.store ∧ n.move.outcome = some .abandoned ∧
    n.move.resources.store = n.resources.store ∧
    (sampleDuty.run failingBeats).loop.result = some (.ok ()) ∧
    (sampleDuty.run failingBeats).loop.feed.queue.map Event.transactionId = ["B", "C"] := by
  obtain ⟨m, n, hlate, hand, stays⟩ : ∃ m n, sampleDuty.late failingBeats = [m, n] ∧
      m.engine.Has m.event ∧ m.move.outcome = none :=
    ⟨_, _, rfl, ⟨_, .inl rfl⟩, rfl⟩
  obtain ⟨-, -, -, hfailed, -⟩ := winds_down sampleDuty failingBeats
  obtain ⟨hstore, -, ⟨hnil, -⟩ | ⟨k, hk, habandoned, hkept, -⟩⟩ := hfailed [] m [n] hlate hand stays
  · cases hnil
  · cases hk
    exact ⟨m, n, hlate, hstore, habandoned, hkept, rfl, rfl⟩

end Attestor.Duty

import Attestor.Proofs.RoleParts
import Attestor.Witness.Loop

namespace Attestor

theorem Engine.Has.unique {en : Engine} {e f : Event} (h : en.Has e) (h' : en.Has f) : e = f := by
  obtain ⟨a, hp | hp⟩ := h <;> obtain ⟨b, hp' | hp'⟩ := h' <;> cases hp.symm.trans hp' <;> rfl

namespace Loop

section

variable (l : Loop) (r : Resources) (fault : Option Fault) (m : Move)

@[simp] theorem after_engine : (l.after m).1.engine = m.engine := by
  unfold after
  split <;> rfl

@[simp] theorem after_feed : (l.after m).1.feed = l.feed := by
  unfold after
  split <;> rfl

@[simp] theorem after_resources : (l.after m).2 = m.resources := by
  unfold after
  split <;> rfl

/-- A loop is over after a move that failed for good. -/
theorem after_result : (∃ error, m.outcome = some (.failed error) ∧
      (l.after m).1.result = some (.error error)) ∨ (l.after m).1.result = l.result := by
  unfold after
  split
  · rename_i error ho
    exact .inl ⟨error, ho, rfl⟩
  · exact .inr rfl

/-- The move that a step makes of the engine, and the event that it is about. -/
def move? : Option (Event × Move) :=
  if l.isOver then none
  else match l.engine.phase with
    | .idle =>
      if r.signal.stops then none
      else l.feed.queue.head?.map fun e => (e, l.engine.take r e)
    | .writing e _ | .waiting e _ => some (e, l.engine.turn r fault)

/-- All that a step can do: the loop rests, or ends, or takes an event from its feed, or goes on with
that in hand. -/
theorem step_cases :
    (l.move? r fault = none ∧ l.step r fault = (l, r) ∧
      (l.isOver = true ∨ l.engine.phase = .idle ∧ r.signal.stops = false ∧ l.feed.queue = [] ∧
        l.feed.closed = false)) ∨
    (l.move? r fault = none ∧ l.step r fault = (l.finish (.ok ()), r) ∧ l.isOver = false ∧
      l.engine.phase = .idle ∧
      (r.signal.stops = true ∨ l.feed.queue = [] ∧ l.feed.closed = true)) ∨
    (l.isOver = false ∧ l.engine.phase = .idle ∧ r.signal.stops = false ∧
      ∃ e rest, l.feed.queue = e :: rest ∧ l.move? r fault = some (e, l.engine.take r e) ∧
        l.step r fault =
          { l with feed := { l.feed with queue := rest } }.after (l.engine.take r e)) ∨
    (l.isOver = false ∧ ∃ e, l.engine.Has e ∧ l.move? r fault = some (e, l.engine.turn r fault) ∧
      l.step r fault = l.after (l.engine.turn r fault)) := by
  unfold step move?
  by_cases hover : l.isOver = true
  · rw [if_pos hover, if_pos hover]
    exact .inl ⟨rfl, rfl, .inl hover⟩
  rw [if_neg hover, if_neg hover]
  have hgoing := Bool.eq_false_iff.mpr hover
  cases hp : l.engine.phase with
  | idle =>
    dsimp only
    by_cases stop : r.signal.stops = true
    · rw [if_pos stop, if_pos stop]
      exact .inr (.inl ⟨rfl, rfl, hgoing, rfl, .inl stop⟩)
    rw [if_neg stop, if_neg stop]
    have hrunning := Bool.eq_false_iff.mpr stop
    cases hq : l.feed.queue with
    | nil =>
      cases hc : l.feed.closed with
      | true => exact .inr (.inl ⟨rfl, rfl, hgoing, rfl, .inr ⟨rfl, rfl⟩⟩)
      | false => exact .inl ⟨rfl, rfl, .inr ⟨rfl, hrunning, rfl, rfl⟩⟩
    | cons e rest => exact .inr (.inr (.inl ⟨hgoing, rfl, hrunning, e, rest, rfl, rfl, rfl⟩))
  | writing e a => exact .inr (.inr (.inr ⟨hgoing, e, ⟨a, .inl hp⟩, rfl, rfl⟩))
  | waiting e a => exact .inr (.inr (.inr ⟨hgoing, e, ⟨a, .inr hp⟩, rfl, rfl⟩))

end

/-- How many steps a loop needs for what it has got: two for an event in the feed, and one for that
in hand. -/
def load (l : Loop) : Nat :=
  2 * l.feed.queue.length + if l.engine.phase = .idle then 0 else 1

/-- A loop that has received some events. Its engine has come as far as they lead, or the last of
them is still in hand. It is over only because its feed is closed and nothing is left. -/
structure Tracks (origin : Progress) (l : Loop) (r : Resources) (received : List Event) : Prop where
  runs : l.engine.Runs r
  own : ∀ e ∈ l.feed.queue, e.source = l.engine.role
  stage : (l.engine.phase = .idle ∧
      l.engine.progress r = origin.through r.signer.identity received) ∨
    ∃ before e, received = before ++ [e] ∧ l.engine.Has e ∧
      l.engine.progress r = origin.through r.signer.identity before
  ended : l.isOver = true → l.result = some (.ok ()) ∧ l.feed.closed = true ∧ l.load = 0

variable {origin : Progress} {l : Loop} {r : Resources} {received : List Event}

theorem after_serves {e : Event} {m : Move} (h : l.engine.Serves r e m) :
    l.after m = ({ l with engine := m.engine }, m.resources) := by
  unfold after
  obtain ⟨ho, -⟩ | ⟨ho | ⟨i, ho⟩, -⟩ := h.stage <;> rw [ho]

/-- The loop rests, ends, takes an event from its feed, or goes on with that in hand. -/
theorem Tracks.step_cases (h : l.Tracks origin r received) (fault : Option Fault) :
    (l.load = 0 ∧ (l.isOver = true ∨ l.feed.closed = false) ∧ l.step r fault = (l, r)) ∨
    (l.load = 0 ∧ l.feed.closed = true ∧ l.step r fault = (l.finish (.ok ()), r)) ∨
    (l.isOver = false ∧ l.engine.phase = .idle ∧
      l.engine.progress r = origin.through r.signer.identity received ∧
      ∃ e rest m, l.feed.queue = e :: rest ∧ l.engine.Serves r e m ∧ l.step r fault =
        (⟨m.engine, { l.feed with queue := rest }, l.result⟩, m.resources)) ∨
    (l.isOver = false ∧ ∃ before e m, received = before ++ [e] ∧ l.engine.Has e ∧
      l.engine.progress r = origin.through r.signer.identity before ∧ l.engine.Serves r e m ∧
      (fault = none → m.outcome ≠ none) ∧
      l.step r fault = (⟨m.engine, l.feed, l.result⟩, m.resources)) := by
  obtain ⟨-, hs, hover | ⟨idle, -, hq, hc⟩⟩ | ⟨-, hs, -, idle, hstop | ⟨hq, hc⟩⟩ |
    ⟨going, idle, -, e, rest, hq, -, hs⟩ | ⟨going, e, hand, -, hs⟩ := l.step_cases r fault
  · exact .inl ⟨(h.ended hover).2.2, .inl hover, hs⟩
  · exact .inl ⟨by simp [load, hq, idle], .inr hc, hs⟩
  · rw [h.runs.running] at hstop
    cases hstop
  · exact .inr (.inl ⟨by simp [load, hq, idle], hc, hs⟩)
  · have hserves := h.runs.take_serves idle (h.own e (by rw [hq]; exact List.mem_cons_self))
    rw [after_serves (l := { l with feed := { l.feed with queue := rest } }) hserves] at hs
    obtain ⟨-, hprogress⟩ | ⟨-, f, -, ⟨a, hp | hp⟩, -⟩ := h.stage
    · exact .inr (.inr (.inl ⟨going, idle, hprogress, e, rest, _, hq, hserves, hs⟩))
    · cases idle.symm.trans hp
    · cases idle.symm.trans hp
  · obtain ⟨idle, -⟩ | ⟨before, f, hreceived, hf, hprogress⟩ := h.stage
    · obtain ⟨a, hp | hp⟩ := hand <;> cases idle.symm.trans hp
    · obtain rfl := hand.unique hf
      obtain ⟨hserves, hends⟩ := h.runs.turn_serves hand fault
      rw [after_serves hserves] at hs
      exact .inr (.inr (.inr ⟨going, before, e, _, hreceived, hand, hprogress, hserves, hends, hs⟩))

theorem load_of_hand {e : Event} (h : l.engine.Has e) :
    l.load = 2 * l.feed.queue.length + 1 := by
  obtain ⟨a, hp | hp⟩ := h <;> simp [load, hp]

theorem load_of_idle (h : l.engine.phase = .idle) : l.load = 2 * l.feed.queue.length := by
  simp [load, h]

/-- The engine has served an event that it had received. -/
theorem Tracks.serves (h : l.Tracks origin r received) (going : l.isOver = false)
    {before : List Event} {e : Event} {m : Move}
    (progress : l.engine.progress r = origin.through r.signer.identity before)
    (serves : l.engine.Serves r e m) {queue : List Event} (fed : queue ⊆ l.feed.queue) :
    Tracks origin ⟨m.engine, { l.feed with queue }, l.result⟩ m.resources (before ++ [e]) := by
  refine ⟨serves.runs h.runs, ?_, ?_, ?_⟩
  · intro e' he'
    exact (h.own e' (fed he')).trans serves.role.symm
  · rw [serves.leaves.identity, Progress.through_append, ← progress]
    obtain ⟨-, hand, hprogress⟩ | ⟨-, hidle, hprogress⟩ := serves.stage
    · exact .inr ⟨before, e, rfl, hand, hprogress.trans progress⟩
    · exact .inl ⟨hidle, hprogress⟩
  · intro hover
    exact absurd hover (Bool.eq_false_iff.mp going)

/-- A step of the loop takes events from the head of its feed. -/
theorem Tracks.step (h : l.Tracks origin r received) (fault : Option Fault) :
    ∃ taken, l.feed.queue = taken ++ (l.step r fault).1.feed.queue ∧
      Tracks origin (l.step r fault).1 (l.step r fault).2 (received ++ taken) ∧
      r.Leaves l.engine.role (l.step r fault).2 ∧
      (l.step r fault).1.engine.role = l.engine.role ∧
      (l.step r fault).1.feed.capacity = l.feed.capacity ∧
      (l.step r fault).1.feed.closed = l.feed.closed := by
  obtain ⟨-, -, hs⟩ | ⟨hload, hclosed, hs⟩ | ⟨going, -, hprogress, e, rest, m, hq, hserves, hs⟩ |
    ⟨going, before, e, m, rfl, -, hprogress, hserves, -, hs⟩ := h.step_cases fault <;> rw [hs]
  · refine ⟨[], rfl, ?_, .refl .., rfl, rfl, rfl⟩
    rw [List.append_nil]
    exact h
  · refine ⟨[], rfl, ?_, .refl .., rfl, rfl, rfl⟩
    rw [List.append_nil]
    exact ⟨h.runs, h.own, h.stage, fun _ => ⟨rfl, hclosed, hload⟩⟩
  · refine ⟨[e], hq, ?_, hserves.leaves, hserves.role, rfl, rfl⟩
    exact h.serves going hprogress hserves (by rw [hq]; exact List.subset_cons_self ..)
  · refine ⟨[], rfl, ?_, hserves.leaves, hserves.role, rfl, rfl⟩
    rw [List.append_nil]
    exact h.serves going hprogress hserves (List.Subset.refl _)

/-- Without faults a step takes a loop that has got something nearer to its rest. -/
theorem Tracks.step_nearer (h : l.Tracks origin r received) (busy : l.load ≠ 0) :
    (l.step r none).1.load < l.load := by
  obtain ⟨hload, -⟩ | ⟨hload, -⟩ | ⟨-, idle, -, e, rest, m, hq, hserves, hs⟩ |
    ⟨-, before, e, m, -, hand, -, hserves, hends, hs⟩ := h.step_cases none
  · exact absurd hload busy
  · exact absurd hload busy
  · rw [hs, load_of_idle idle, hq]
    simp only [load, List.length_cons]
    split <;> omega
  · obtain ⟨-, hidle, -⟩ := hserves.done (hends rfl)
    rw [hs, load_of_hand hand, load_of_idle hidle]
    exact Nat.lt_succ_self _

/-- A loop that has nothing left ends once its feed is closed. -/
theorem Tracks.step_ends (h : l.Tracks origin r received) (rests : l.load = 0)
    (closed : l.feed.closed = true) (fault : Option Fault) : (l.step r fault).1.isOver = true := by
  obtain ⟨-, hover | hopen, hs⟩ | ⟨-, -, hs⟩ | ⟨-, -, -, e, rest, m, hq, -⟩ |
    ⟨-, before, e, m, -, hand, -⟩ := h.step_cases fault
  · rw [hs]
    exact hover
  · cases closed.symm.trans hopen
  · rw [hs]
    rfl
  · rw [load, hq, List.length_cons] at rests
    omega
  · rw [load_of_hand hand] at rests
    omega

/-- What the other chain's loop does, the loop does not notice. -/
theorem Tracks.other (h : l.Tracks origin r received) {role : Role} {r' : Resources}
    (leaves : r.Leaves role r') (legible : r'.store.database.Legible)
    (hrole : l.engine.role ≠ role) : l.Tracks origin r' received := by
  obtain ⟨hruns, hprogress⟩ := h.runs.other leaves legible hrole
  refine ⟨hruns, h.own, ?_, h.ended⟩
  rw [hprogress, leaves.identity]
  exact h.stage

theorem Tracks.enqueue (h : l.Tracks origin r received) (going : l.isOver = false) {e : Event}
    (he : e.source = l.engine.role) :
    Tracks origin { l with feed := { l.feed with queue := l.feed.queue ++ [e] } } r received := by
  refine ⟨h.runs, ?_, h.stage, fun hover => absurd hover (Bool.eq_false_iff.mp going)⟩
  intro e' he'
  rcases List.mem_append.mp he' with he' | he'
  · exact h.own e' he'
  · rw [List.mem_singleton.mp he', he]

theorem Tracks.close (h : l.Tracks origin r received) : l.close.Tracks origin r received := by
  refine ⟨h.runs, h.own, h.stage, ?_⟩
  intro hover
  obtain ⟨hresult, -, hload⟩ := h.ended hover
  exact ⟨hresult, rfl, hload⟩

/-- A loop that has nothing left has come as far as what it received leads. -/
theorem Tracks.progress (h : l.Tracks origin r received) (rests : l.load = 0) :
    l.engine.progress r = origin.through r.signer.identity received := by
  obtain ⟨-, hprogress⟩ | ⟨before, e, -, hand, -⟩ := h.stage
  · exact hprogress
  · rw [load_of_hand hand] at rests
    omega

/-- No event is rejected, and one in hand does not count yet. -/
theorem Tracks.rejected (h : l.Tracks origin r received) :
    (r.tallies.get l.engine.role).rejected = origin.tally.rejected := by
  change (l.engine.progress r).tally.rejected = _
  obtain ⟨-, hprogress⟩ | ⟨before, e, -, -, hprogress⟩ := h.stage <;>
    rw [hprogress, Progress.rejected_through]

end Loop

end Attestor

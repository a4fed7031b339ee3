import Attestor.Proofs.RoleLoops
import Attestor.Proofs.SoleEngine
import Attestor.Proofs.WholeEvents

namespace Attestor

namespace Engine

variable {en : Engine} {r : Resources} {e : Event} {a : Attestation} {m : Move}
  {fault : Option Fault}

/-- A move of an engine that is between events and not told to stop, or has the event in hand. -/
inductive Makes (en : Engine) (r : Resources) (fault : Option Fault) (e : Event) : Move → Prop
  | take (idle : en.phase = .idle) (running : r.signal.stops = false) :
    Makes en r fault e (en.take r e)
  | turn (hand : en.Has e) : Makes en r fault e (en.turn r fault)

theorem turn_writing (h : en.phase = .writing e a) (r : Resources) (fault : Option Fault) :
    en.turn r fault = en.write r e a fault := by
  rw [turn, h]

theorem turn_stopped (h : en.phase = .waiting e a) (stop : r.signal.stops = true)
    (fault : Option Fault) :
    en.turn r fault = ⟨some .abandoned, { en with phase := .idle }, r⟩ := by
  rw [turn, h]
  exact if_pos stop

/-- A write ends its event or keeps it in hand, and changes the store only to commit it. -/
theorem write_ends (en : Engine) (r : Resources) (e : Event) (a : Attestation)
    (fault : Option Fault) :
    (en.write r e a fault).resources.signal = r.signal ∧
    (en.write r e a fault).resources.signer = r.signer ∧
    ((∃ i, (en.write r e a fault).outcome = some (.committed i) ∧
        (en.write r e a fault).engine.phase = .idle) ∨
      (en.write r e a fault).resources.store = r.store ∧
      ((∃ error, (en.write r e a fault).outcome = some (.failed error) ∧
          (en.write r e a fault).engine = { en with phase := .idle }) ∨
        (en.write r e a fault).outcome = none ∧
          (en.write r e a fault).engine = { en with phase := .waiting e a })) := by
  obtain ⟨i, store, -, hm⟩ | ⟨error, -, ⟨-, hm⟩ | ⟨-, hm⟩⟩ := en.write_cases r e a fault
  · rw [hm]
    exact ⟨rfl, rfl, .inl ⟨i, rfl, rfl⟩⟩
  · rw [hm]
    exact ⟨rfl, rfl, .inr ⟨rfl, .inr ⟨rfl, rfl⟩⟩⟩
  · rw [hm]
    exact ⟨rfl, rfl, .inr ⟨rfl, .inl ⟨error, rfl, rfl⟩⟩⟩

/-- Only a failure that does not pass is the end of a write. -/
theorem write_permanent {error : StoreError}
    (h : (en.write r e a fault).outcome = some (.failed error)) :
    (r.store.writeUnder fault (commitBatch en.role a)).1.failure = some error ∧
      error.isTransient = false := by
  unfold write at h
  revert h
  rcases r.store.writeUnder fault (commitBatch en.role a) with ⟨⟨answers, failure⟩, store⟩
  intro h
  cases failure with
  | none =>
    dsimp only at h
    split at h
    · cases h
    · rename_i heq
      cases heq
      cases h
  | some failure =>
    simp only [Option.getD_some] at h
    split at h
    · cases h
    · rename_i hpass
      cases h
      exact ⟨rfl, Bool.eq_false_iff.mpr hpass⟩

theorem Makes.signal (h : en.Makes r fault e m) : m.resources.signal = r.signal := by
  cases h with
  | take =>
    obtain ⟨-, hm⟩ | ⟨-, ⟨-, hm⟩ | ⟨-, hm⟩⟩ := en.take_cases r e <;> rw [hm] <;> rfl
  | turn hand =>
    obtain ⟨a, hand⟩ := hand
    obtain ⟨-, hm⟩ | hm := turn_cases hand r fault
    · rw [hm]
    · rw [hm]
      exact (en.write_ends r e a fault).1

/-- After the word to stop only a first write is left to be made, or the abandonment of an event. -/
theorem Makes.of_stopped (h : en.Makes r fault e m) (stop : r.signal.stops = true) :
    (∃ a, en.phase = .writing e a ∧ m = en.write r e a fault) ∨
      ∃ a, en.phase = .waiting e a ∧ m = ⟨some .abandoned, { en with phase := .idle }, r⟩ := by
  cases h with
  | take idle running => exact absurd stop (Bool.eq_false_iff.mp running)
  | turn hand =>
    obtain ⟨a, writing | waiting⟩ := hand
    · exact .inl ⟨a, writing, turn_writing writing r fault⟩
    · exact .inr ⟨a, waiting, turn_stopped waiting stop fault⟩

/-- A move that fails has made a write that failed for good. -/
theorem Makes.failed (h : en.Makes r fault e m) {error : StoreError}
    (ho : m.outcome = some (.failed error)) :
    ∃ a, (en.phase = .writing e a ∨ en.phase = .waiting e a) ∧
      (r.store.writeUnder fault (commitBatch en.role a)).1.failure = some error ∧
      error.isTransient = false := by
  cases h with
  | take =>
    obtain ⟨-, hm⟩ | ⟨-, ⟨-, hm⟩ | ⟨-, hm⟩⟩ := en.take_cases r e <;> rw [hm] at ho <;> cases ho
  | turn hand =>
    obtain ⟨a, hand⟩ := hand
    obtain ⟨-, hm⟩ | hm := turn_cases hand r fault <;> rw [hm] at ho
    · cases ho
    · exact ⟨a, hand, write_permanent ho⟩

/-- A move that goes on with an event and does not end it was a write that failed, and has changed
nothing. -/
theorem Makes.waits (h : en.Makes r fault e m) (hand : en.Has e) (stays : m.outcome = none) :
    m.resources.store = r.store ∧ ∃ a, m.engine = { en with phase := .waiting e a } := by
  cases h with
  | take idle =>
    obtain ⟨a, hp | hp⟩ := hand <;> cases idle.symm.trans hp
  | turn =>
    obtain ⟨a, hand⟩ := hand
    obtain ⟨-, hm⟩ | hm := turn_cases hand r fault
    · rw [hm] at stays
      cases stays
    · rw [hm] at stays ⊢
      obtain ⟨-, -, ⟨i, ho, -⟩ | ⟨hstore, ⟨error, ho, -⟩ | ⟨-, hen⟩⟩⟩ := en.write_ends r e a fault
      · cases stays.symm.trans ho
      · cases stays.symm.trans ho
      · exact ⟨hstore, a, hen⟩

/-- A move that ends its event leaves the engine between events, and any other keeps the event in
hand. -/
theorem Makes.ends (h : en.Makes r fault e m) :
    m.outcome ≠ none ∧ m.engine.phase = .idle ∨
      m.outcome = none ∧ m.engine.phase.event? = some e := by
  cases h with
  | take idle =>
    obtain ⟨-, hm⟩ | ⟨-, ⟨-, hm⟩ | ⟨-, hm⟩⟩ := en.take_cases r e
    · rw [hm]
      exact .inl ⟨nofun, idle⟩
    · rw [hm]
      exact .inl ⟨nofun, idle⟩
    · rw [hm]
      exact .inr ⟨rfl, rfl⟩
  | turn hand =>
    obtain ⟨a, hand⟩ := hand
    obtain ⟨-, hm⟩ | hm := turn_cases hand r fault
    · rw [hm]
      exact .inl ⟨nofun, rfl⟩
    · rw [hm]
      obtain ⟨-, -, ⟨i, ho, hidle⟩ | ⟨-, ⟨error, ho, hen⟩ | ⟨ho, hen⟩⟩⟩ := en.write_ends r e a fault
      · exact .inl ⟨by rw [ho]; nofun, hidle⟩
      · exact .inl ⟨by rw [ho]; nofun, by rw [hen]⟩
      · exact .inr ⟨ho, by rw [hen]; rfl⟩

end Engine

/-- A word to stop: somebody asked for it, or nobody is left who could. -/
def Stop : Type :=
  { s : Signal // s.stops = true }

/-- The signal after a word to stop has come, or not. -/
def Stop.after (stop : Option Stop) (s : Signal) : Signal :=
  (stop.map Subtype.val).getD s

theorem Stop.stops_after {s : Signal} (h : s.stops = true) (stop : Option Stop) :
    (after stop s).stops = true := by
  cases stop with
  | none => exact h
  | some stop => exact stop.2

/-- A loop on duty, with what it shares with others. -/
structure Duty where
  loop : Loop
  resources : Resources

/-- What happens around a loop and in it. -/
inductive Beat where
  | send (e : Event)
  | close
  /-- the loop takes a step, whose write a fault may hit; the word to stop may come in the middle of
  it, when the step has looked for it already -/
  | work (fault : Option Fault) (stop : Option Stop)
  | stop (stop : Stop)
  /-- others sign, write and count -/
  | others (signer : Signer) (store : Store) (tallies : ByRole Tally)

def Beat.isWork : Beat → Bool
  | work .. => true
  | _ => false

/-- A move that a loop's engine has made: its event, the engine and the resources before it, the
move itself, and the signal at its end. -/
structure Made where
  event : Event
  engine : Engine
  resources : Resources
  move : Move
  signal : Signal

namespace Made

def commits (m : Made) : Bool :=
  match m.move.outcome with
  | some (.committed _) => true
  | _ => false

/-- The move is one that the engine can make, with this event and in that place. -/
def Sound (m : Made) : Prop :=
  ∃ fault, m.engine.Makes m.resources fault m.event m.move

/-- What an engine has in hand after a move is the event of the move. -/
theorem Sound.event {m : Made} (h : m.Sound) {e : Event}
    (hand : m.move.engine.phase.event? = some e) : e = m.event := by
  obtain ⟨fault, hmakes⟩ := h
  obtain ⟨-, hidle⟩ | ⟨-, hevent⟩ := hmakes.ends
  · rw [hidle] at hand
    cases hand
  · exact (Option.some.inj (hevent.symm.trans hand)).symm

theorem Sound.idle {m : Made} (h : m.Sound) (ended : m.move.outcome ≠ none) :
    m.move.engine.phase = .idle := by
  obtain ⟨fault, hmakes⟩ := h
  obtain ⟨-, hidle⟩ | ⟨hnone, -⟩ := hmakes.ends
  · exact hidle
  · exact absurd hnone ended

/-- A move that begins after the word to stop is a write that was due, or abandons the event. -/
theorem Sound.of_stopped {m : Made} (h : m.Sound) (stop : m.resources.signal.stops = true) :
    (∃ a fault, m.engine.phase = .writing m.event a ∧
        m.move = m.engine.write m.resources m.event a fault) ∨
      ∃ a, m.engine.phase = .waiting m.event a ∧
        m.move = ⟨some .abandoned, { m.engine with phase := .idle }, m.resources⟩ := by
  obtain ⟨fault, hmakes⟩ := h
  obtain ⟨a, writing, hmove⟩ | waiting := hmakes.of_stopped stop
  · exact .inl ⟨a, fault, writing, hmove⟩
  · exact .inr waiting

/-- It goes on with the event in hand, signs nothing, and changes the store only to commit this
event. -/
theorem Sound.stopped {m : Made} (h : m.Sound) (stop : m.resources.signal.stops = true) :
    m.engine.Has m.event ∧ (∃ fault, m.move = m.engine.turn m.resources fault) ∧
      m.move.resources.signer = m.resources.signer ∧
      (m.commits = false → m.move.resources.store = m.resources.store) := by
  obtain ⟨a, fault, writing, hmove⟩ | ⟨a, waiting, hmove⟩ := h.of_stopped stop
  · obtain ⟨-, hsigner, hstore⟩ := m.engine.write_ends m.resources m.event a fault
    refine ⟨⟨a, .inl writing⟩, ⟨fault, ?_⟩, by rw [hmove, hsigner], ?_⟩
    · rw [hmove, Engine.turn_writing writing]
    · intro hc
      obtain ⟨i, ho, -⟩ | ⟨hstore, -⟩ := hstore
      · rw [commits, hmove, ho] at hc
        cases hc
      · rw [hmove, hstore]
  · refine ⟨⟨a, .inr waiting⟩, ⟨none, ?_⟩, by rw [hmove], fun _ => by rw [hmove]⟩
    rw [hmove, Engine.turn_stopped waiting stop]

theorem ended_of_commits {m : Made} (h : m.commits = true) : m.move.outcome ≠ none := by
  intro hnone
  rw [commits, hnone] at h
  cases h

end Made

namespace Duty

def step (x : Duty) : Beat → Duty
  | .send e =>
    match x.loop.send e with
    | .accepted l => { x with loop := l }
    | .full | .closed => x
  | .close => { x with loop := x.loop.close }
  | .work fault stop =>
    let (l, r) := x.loop.step x.resources fault
    ⟨l, { r with signal := Stop.after stop r.signal }⟩
  | .stop s => { x with resources := { x.resources with signal := s.1 } }
  | .others signer store tallies =>
    { x with resources := ⟨signer, store, x.resources.signal, tallies⟩ }

def run (x : Duty) (beats : List Beat) : Duty :=
  beats.foldl step x

/-- The move that is made, if one is. -/
def made? (x : Duty) : Beat → Option Made
  | .work fault stop => (x.loop.move? x.resources fault).map fun (e, m) =>
    ⟨e, x.loop.engine, x.resources, m, Stop.after stop m.resources.signal⟩
  | _ => none

/-- The moves of a run, in their order. -/
def moves : Duty → List Beat → List Made
  | _, [] => []
  | x, b :: rest => (x.made? b).toList ++ (x.step b).moves rest

/-- The moves that were not over when the word to stop came. -/
def late (x : Duty) (beats : List Beat) : List Made :=
  (x.moves beats).filter (·.signal.stops)

/-- Whether the word to stop has come. -/
def Stopped (x : Duty) : Prop :=
  x.resources.signal.stops = true

/-- What a beat leaves in which the engine makes no move. -/
structure Rests (x y : Duty) : Prop where
  engine : y.loop.engine = x.loop.engine
  queue : x.loop.feed.queue <+: y.loop.feed.queue
  stopped : x.Stopped → y.Stopped
  stays : x.loop.isOver = true → y.loop.isOver = true
  ended : y.loop.isOver = true → x.loop.isOver = true ∨ x.loop.engine.phase = .idle
  failed : ∀ error, y.loop.result = some (.error error) → x.loop.result = some (.error error)

/-- What a beat leaves in which the engine makes a move. -/
structure Moves (x : Duty) (m : Made) (y : Duty) : Prop where
  engine : m.engine = x.loop.engine
  resources : m.resources = x.resources
  sound : m.Sound
  signal : m.signal = y.resources.signal
  stopped : x.Stopped → y.Stopped
  next : y.loop.engine = m.move.engine
  going : x.loop.isOver = false
  queue : x.Stopped → y.loop.feed.queue = x.loop.feed.queue
  failed : (∃ error, m.move.outcome = some (.failed error) ∧
    y.loop.result = some (.error error)) ∨ y.loop.result = x.loop.result

variable {x y : Duty} {m : Made}

theorem Moves.late (h : x.Moves m y) : m.signal.stops = true ↔ y.Stopped := by
  rw [Stopped, h.signal]

theorem Moves.began (h : x.Moves m y) (stopped : x.Stopped) : m.resources.signal.stops = true := by
  rw [h.resources]
  exact stopped

theorem send_rests (x : Duty) (e : Event) : x.Rests (x.step (.send e)) := by
  simp only [step, Loop.send]
  by_cases hclosed : x.loop.isOver = true ∨ x.loop.feed.closed = true
  · rw [if_pos hclosed]
    exact ⟨rfl, List.prefix_refl _, id, id, .inl, fun _ => id⟩
  · rw [if_neg hclosed]
    by_cases hroom : x.loop.feed.queue.length < x.loop.feed.capacity
    · rw [if_pos hroom]
      exact ⟨rfl, List.prefix_append .., id, id, .inl, fun _ => id⟩
    · rw [if_neg hroom]
      exact ⟨rfl, List.prefix_refl _, id, id, .inl, fun _ => id⟩

/-- In a beat the engine makes no move, and a step after the word to stop ends the loop; or it makes
one, and takes nothing from the feed after the word to stop. -/
theorem step_cases (x : Duty) (b : Beat) :
    (x.made? b = none ∧ x.Rests (x.step b) ∧
      (b.isWork = true → x.Stopped → (x.step b).loop.isOver = true)) ∨
    ∃ m, x.made? b = some m ∧ b.isWork = true ∧ x.Moves m (x.step b) := by
  cases b with
  | send e => exact .inl ⟨rfl, x.send_rests e, nofun⟩
  | close => exact .inl ⟨rfl, ⟨rfl, List.prefix_refl _, id, id, .inl, fun _ => id⟩, nofun⟩
  | stop s =>
    exact .inl ⟨rfl, ⟨rfl, List.prefix_refl _, fun _ => s.2, id, .inl, fun _ => id⟩, nofun⟩
  | others signer store tallies =>
    exact .inl ⟨rfl, ⟨rfl, List.prefix_refl _, id, id, .inl, fun _ => id⟩, nofun⟩
  | work fault stop =>
    simp only [step, made?]
    obtain ⟨hm, hs, hrest⟩ | ⟨hm, hs, -, idle, -⟩ | ⟨going, idle, running, e, rest, hq, hm, hs⟩ |
      ⟨going, e, hand, hm, hs⟩ := x.loop.step_cases x.resources fault
    · rw [hm, hs]
      refine .inl ⟨rfl, ⟨rfl, List.prefix_refl _, fun h => Stop.stops_after h stop, id,
        .inl, fun _ => id⟩, ?_⟩
      intro _ stopped
      obtain hover | ⟨-, running, -⟩ := hrest
      · exact hover
      · exact absurd stopped (Bool.eq_false_iff.mp running)
    · rw [hm, hs]
      exact .inl ⟨rfl, ⟨rfl, List.prefix_refl _, fun h => Stop.stops_after h stop, fun _ => rfl,
        fun _ => .inr idle, nofun⟩, fun _ _ => rfl⟩
    · rw [hm, hs]
      refine .inr ⟨_, rfl, rfl, rfl, rfl, ⟨fault, .take idle running⟩, by simp, ?_, by simp, going,
        ?_, Loop.after_result ..⟩
      · intro stopped
        exact absurd stopped (Bool.eq_false_iff.mp running)
      · intro stopped
        exact absurd stopped (Bool.eq_false_iff.mp running)
    · have hmakes : x.loop.engine.Makes x.resources fault e _ := .turn hand
      rw [hm, hs]
      refine .inr ⟨_, rfl, rfl, rfl, rfl, ⟨fault, hmakes⟩, by simp, ?_, by simp, going, by simp,
        Loop.after_result ..⟩
      intro stopped
      rw [Loop.after_resources]
      exact Stop.stops_after (hmakes.signal ▸ stopped) stop

/-- Whoever is told to stop stays so. -/
theorem Stopped.step (stopped : x.Stopped) (b : Beat) : (x.step b).Stopped := by
  obtain ⟨-, hrests, -⟩ | ⟨m, -, -, hmoves⟩ := x.step_cases b
  · exact hrests.stopped stopped
  · exact hmoves.stopped stopped

end Duty

end Attestor

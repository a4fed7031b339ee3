import Attestor.Proofs.RoleLoops
import Attestor.Witness.Node

namespace Attestor

/-- The events of one chain. -/
def Event.ofChain (role : Role) (events : List Event) : List Event :=
  events.filter fun e => e.source = role

theorem Event.ofChain_cons_self (e : Event) (events : List Event) :
    ofChain e.source (e :: events) = e :: ofChain e.source events :=
  List.filter_cons_of_pos (by simp)

theorem Event.ofChain_cons_other {role : Role} {e : Event} (h : role ≠ e.source)
    (events : List Event) : ofChain role (e :: events) = ofChain role events :=
  List.filter_cons_of_neg (by simpa using h.symm)

/-- A node, the events that the router has still to send to it, and those that each chain's engine
has received. -/
structure Relay where
  node : Node
  pending : List Event
  received : ByRole (List Event)

/-- What happens next: the router sends an event, or has sent all and is dropped; or a loop takes a
step, whose write a fault may hit. -/
inductive Tick where
  | send
  | drop
  | work (role : Role) (fault : Option Fault)

/-- The events in the feed of a chain's loop. -/
def Node.queue (n : Node) (role : Role) : List Event :=
  match n.loops.get role with
  | some l => l.feed.queue
  | none => []

/-- Whether the loop of a chain is over. -/
def Node.isOver (n : Node) (role : Role) : Bool :=
  (n.loops.get role).any Loop.isOver

theorem Node.loops_closeFeeds (n : Node) (role : Role) :
    n.closeFeeds.loops.get role = (n.loops.get role).map Loop.close := by
  cases role <;> rfl

namespace Relay

def start (n : Node) (events : List Event) : Relay :=
  ⟨n, events, .both []⟩

/-- Sends the next event. While its feed is full the router waits, and if its feed is closed the
event is lost. -/
def send (x : Relay) : Relay :=
  match x.pending with
  | [] => x
  | e :: rest =>
    match x.node.route e with
    | .routed n => { x with node := n, pending := rest }
    | .waiting => x
    | .closed _ => { x with pending := rest }

/-- A step of a chain's loop. What leaves the feed has been received. -/
def work (x : Relay) (role : Role) (fault : Option Fault) : Relay :=
  let n := x.node.step role fault
  let before := x.node.queue role
  { x with
    node := n
    received := x.received.modify role
      (· ++ before.take (before.length - (n.queue role).length)) }

def step (x : Relay) : Tick → Relay
  | .send => x.send
  | .drop => if x.pending = [] then { x with node := x.node.closeFeeds } else x
  | .work role fault => x.work role fault

def run (x : Relay) (ticks : List Tick) : Relay :=
  ticks.foldl step x

/-- Both loops are over. -/
def Finished (x : Relay) : Prop :=
  ∀ role, x.node.isOver role = true

/-- A chain's loop on its way through the events: every one of its chain has been received, is in
the feed, or is yet to be sent, in this order. -/
structure Lane (origin : Progress) (events : List Event) (x : Relay) (r : Resources) (role : Role)
    (l : Loop) : Prop where
  loop : x.node.loops.get role = some l
  chain : l.engine.role = role
  roomy : 1 ≤ l.feed.capacity
  tracks : l.Tracks origin r (x.received.get role)
  flow : x.received.get role ++ l.feed.queue ++ Event.ofChain role x.pending =
    Event.ofChain role events
  closed : l.feed.closed = true → x.pending = []

/-- Both loops are on their way, from where their engines started. -/
structure Orderly (b : Bridge) (i : Identity) (origin : Role → Progress) (events : List Event)
    (x : Relay) (r : Resources) : Prop where
  service : x.node.service = .persistent b r
  identity : r.signer.identity = i
  lanes : ∀ role, ∃ l, Lane (origin role) events x r role l

variable {b : Bridge} {i : Identity} {origin : Role → Progress} {events : List Event}
  {x : Relay} {r : Resources}

theorem Lane.going {p : Progress} {role : Role} {l : Loop} (h : Lane p events x r role l)
    (hp : x.pending ≠ []) : l.isOver = false ∧ l.feed.closed = false := by
  have hopen : l.feed.closed = false := Bool.eq_false_iff.mpr (mt h.closed hp)
  refine ⟨Bool.eq_false_iff.mpr ?_, hopen⟩
  intro hover
  cases hopen.symm.trans (h.tracks.ended hover).2.1

/-- An event goes to the end of its chain's feed, if that is not full. -/
theorem Orderly.send_cases (h : Orderly b i origin events x r) {e : Event} {rest : List Event}
    (hp : x.pending = e :: rest) :
    ∃ l, Lane (origin e.source) events x r e.source l ∧
      (l.feed.queue.length < l.feed.capacity ∧ x.send =
        ⟨⟨x.node.service, x.node.loops.set e.source
          (some { l with feed := { l.feed with queue := l.feed.queue ++ [e] } })⟩, rest,
          x.received⟩ ∨
      l.feed.capacity ≤ l.feed.queue.length ∧ x.send = x) := by
  obtain ⟨l, hlane⟩ := h.lanes e.source
  obtain ⟨hgoing, hopen⟩ := hlane.going (by rw [hp]; nofun)
  refine ⟨l, hlane, ?_⟩
  unfold send Node.route Loop.send
  simp only [hp, hlane.loop, hgoing, hopen, Bool.false_eq_true, or_self, ↓reduceIte]
  by_cases hroom : l.feed.queue.length < l.feed.capacity
  · exact .inl ⟨hroom, by simp only [hroom, ↓reduceIte]⟩
  · exact .inr ⟨Nat.not_lt.mp hroom, by simp only [hroom, ↓reduceIte]⟩

theorem Orderly.send (h : Orderly b i origin events x r) : Orderly b i origin events x.send r := by
  cases hp : x.pending with
  | nil =>
    have hs : x.send = x := by simp [Relay.send, hp]
    rw [hs]
    exact h
  | cons e rest =>
    obtain ⟨l, hlane, ⟨-, hs⟩ | ⟨-, hs⟩⟩ := h.send_cases hp
    · rw [hs]
      obtain ⟨hgoing, hopen⟩ := hlane.going (by rw [hp]; nofun)
      refine ⟨h.service, h.identity, ?_⟩
      intro role
      by_cases hrole : role = e.source
      · subst hrole
        refine ⟨_, ByRole.get_set_self .., hlane.chain, hlane.roomy,
          hlane.tracks.enqueue hgoing hlane.chain.symm, ?_, ?_⟩
        · rw [← hlane.flow, hp, Event.ofChain_cons_self]
          simp
        · intro hclosed
          cases hopen.symm.trans hclosed
      · obtain ⟨l', hl'⟩ := h.lanes role
        refine ⟨l', (ByRole.get_set_of_ne _ hrole _).trans hl'.loop, hl'.chain, hl'.roomy,
          hl'.tracks, ?_, ?_⟩
        · rw [← hl'.flow, hp, Event.ofChain_cons_other hrole]
        · intro hclosed
          cases hp.symm.trans (hl'.closed hclosed)
    · rw [hs]
      exact h

theorem Orderly.drop (h : Orderly b i origin events x r) (hp : x.pending = []) :
    Orderly b i origin events { x with node := x.node.closeFeeds } r := by
  refine ⟨h.service, h.identity, ?_⟩
  intro role
  obtain ⟨l, hl⟩ := h.lanes role
  refine ⟨l.close, ?_, hl.chain, hl.roomy, hl.tracks.close, hl.flow, fun _ => hp⟩
  rw [Node.loops_closeFeeds, hl.loop]
  rfl

theorem Orderly.node_work (h : Orderly b i origin events x r) {role : Role} {l : Loop}
    (hl : Lane (origin role) events x r role l) (fault : Option Fault) :
    (x.work role fault).node =
      ⟨.persistent b (l.step r fault).2, x.node.loops.set role (some (l.step r fault).1)⟩ := by
  simp only [Relay.work, Node.step, h.service, hl.loop]

/-- A step of one chain's loop: what it takes from its feed has been received, and the other chain's
loop goes on from where it was. -/
theorem Orderly.work (h : Orderly b i origin events x r) (role : Role) (fault : Option Fault) :
    ∃ r', Orderly b i origin events (x.work role fault) r' := by
  obtain ⟨l, hl⟩ := h.lanes role
  obtain ⟨taken, hqueue, htracks, hleaves, hrole, hcapacity, hclosed⟩ := hl.tracks.step fault
  have hnode := h.node_work hl fault
  have hreceived : (x.work role fault).received =
      x.received.set role (x.received.get role ++ taken) := by
    have hafter : (x.node.step role fault).queue role = (l.step r fault).1.feed.queue := by
      change (x.work role fault).node.queue role = _
      rw [hnode, Node.queue, ByRole.get_set_self]
    have hbefore : x.node.queue role = taken ++ (l.step r fault).1.feed.queue := by
      rw [Node.queue, hl.loop]
      exact hqueue
    simp [Relay.work, ByRole.modify, hafter, hbefore]
  have hlegible := htracks.runs.inStep.legible
  refine ⟨(l.step r fault).2, congrArg Node.service hnode, hleaves.identity.trans h.identity, ?_⟩
  intro other
  by_cases ho : other = role
  · subst ho
    refine ⟨(l.step r fault).1, ?_, hrole.trans hl.chain, hcapacity ▸ hl.roomy, ?_, ?_, ?_⟩
    · rw [hnode, ByRole.get_set_self]
    · rw [hreceived, ByRole.get_set_self]
      exact htracks
    · rw [hreceived, ByRole.get_set_self, List.append_assoc _ taken, ← hqueue]
      exact hl.flow
    · rw [hclosed]
      exact hl.closed
  · obtain ⟨l', hl'⟩ := h.lanes other
    refine ⟨l', ?_, hl'.chain, hl'.roomy, ?_, ?_, hl'.closed⟩
    · rw [hnode, ByRole.get_set_of_ne _ ho]
      exact hl'.loop
    · rw [hreceived, ByRole.get_set_of_ne _ ho]
      exact hl'.tracks.other (hl.chain ▸ hleaves) hlegible (by rw [hl'.chain]; exact ho)
    · rw [hreceived, ByRole.get_set_of_ne _ ho]
      exact hl'.flow

theorem Orderly.step (h : Orderly b i origin events x r) (t : Tick) :
    ∃ r', Orderly b i origin events (x.step t) r' := by
  cases t with
  | send => exact ⟨r, h.send⟩
  | drop =>
    unfold Relay.step
    dsimp only
    split
    · rename_i hp
      exact ⟨r, h.drop hp⟩
    · exact ⟨r, h⟩
  | work role fault => exact h.work role fault

theorem Orderly.run (h : Orderly b i origin events x r) (ticks : List Tick) :
    ∃ r', Orderly b i origin events (x.run ticks) r' := by
  induction ticks generalizing x r with
  | nil => exact ⟨r, h⟩
  | cons t rest ih =>
    obtain ⟨r', h'⟩ := h.step t
    exact ih h'

theorem run_append (x : Relay) (ticks more : List Tick) :
    x.run (ticks ++ more) = (x.run ticks).run more :=
  List.foldl_append ..

/-- How many steps the loop of a chain needs for what it has got. -/
def load (x : Relay) (role : Role) : Nat :=
  match x.node.loops.get role with
  | some l => l.load
  | none => 0

/-- How much is left to do: one tick sends an event, and two steps of its loop serve it. -/
def weight (x : Relay) : Nat :=
  3 * x.pending.length + (x.load .locking + x.load .issuing)

theorem Lane.load {p : Progress} {role : Role} {l : Loop} (h : Lane p events x r role l) :
    x.load role = l.load := by
  rw [Relay.load, h.loop]

theorem Orderly.load_work (h : Orderly b i origin events x r) {role : Role}
    (busy : x.load role ≠ 0) : (x.work role none).load role < x.load role := by
  obtain ⟨l, hl⟩ := h.lanes role
  rw [hl.load] at busy ⊢
  rw [Relay.load, h.node_work hl none, ByRole.get_set_self]
  exact hl.tracks.step_nearer busy

theorem Orderly.loops_work_other (h : Orderly b i origin events x r) {role other : Role}
    (ho : other ≠ role) (fault : Option Fault) :
    (x.work role fault).node.loops.get other = x.node.loops.get other := by
  obtain ⟨l, hl⟩ := h.lanes role
  rw [h.node_work hl fault, ByRole.get_set_of_ne _ ho]

theorem Orderly.load_work_other (h : Orderly b i origin events x r) {role other : Role}
    (ho : other ≠ role) (fault : Option Fault) : (x.work role fault).load other = x.load other := by
  rw [Relay.load, h.loops_work_other ho, ← Relay.load]

theorem Orderly.weight_work (h : Orderly b i origin events x r) {role : Role}
    (busy : x.load role ≠ 0) : (x.work role none).weight < x.weight := by
  have hpending : (x.work role none).pending = x.pending := rfl
  have hless := h.load_work busy
  unfold weight
  rw [hpending]
  cases role with
  | locking =>
    rw [h.load_work_other (show Role.issuing ≠ .locking by decide)]
    omega
  | issuing =>
    rw [h.load_work_other (show Role.locking ≠ .issuing by decide)]
    omega

/-- The feeds are empty, so there is room for the next event. -/
theorem Orderly.weight_send (h : Orderly b i origin events x r) {e : Event} {rest : List Event}
    (hp : x.pending = e :: rest) (rests : ∀ role, x.load role = 0) : x.send.weight < x.weight := by
  obtain ⟨l, hlane, ⟨-, hs⟩ | ⟨hfull, -⟩⟩ := h.send_cases hp
  · have hl : l.load = 0 := hlane.load.symm.trans (rests e.source)
    have hload : ∀ role, x.send.load role ≤ if role = e.source then 2 else 0 := by
      intro role
      by_cases hrole : role = e.source
      · subst hrole
        rw [hs, if_pos rfl, Relay.load, ByRole.get_set_self]
        simp only [Loop.load, List.length_append, List.length_singleton] at hl ⊢
        omega
      · rw [hs, if_neg hrole, Relay.load, ByRole.get_set_of_ne _ hrole]
        exact (rests role).le
    have hpending : x.send.pending.length + 1 = x.pending.length := by
      rw [hs, hp]
      rfl
    have hlocking := hload .locking
    have hissuing := hload .issuing
    unfold weight
    cases hsource : e.source <;> simp [hsource] at hlocking hissuing <;> omega
  · have hl : l.load = 0 := hlane.load.symm.trans (rests e.source)
    have hroomy := hlane.roomy
    unfold Loop.load at hl
    omega

/-- While there is something left to do, a tick without a fault does some of it. -/
theorem Orderly.nearer (h : Orderly b i origin events x r) (hw : x.weight ≠ 0) :
    ∃ t, (x.step t).weight < x.weight := by
  by_cases hlocking : x.load .locking = 0
  · by_cases hissuing : x.load .issuing = 0
    · cases hp : x.pending with
      | nil => simp [weight, hp, hlocking, hissuing] at hw
      | cons e rest =>
        refine ⟨.send, h.weight_send hp ?_⟩
        intro role
        cases role <;> assumption
    · exact ⟨.work .issuing none, h.weight_work hissuing⟩
  · exact ⟨.work .locking none, h.weight_work hlocking⟩

/-- By induction on what is left to do. -/
theorem Orderly.rests (h : Orderly b i origin events x r) :
    ∃ ticks, (x.run ticks).weight = 0 := by
  induction hn : x.weight using Nat.strong_induction_on generalizing x r with
  | _ n ih =>
    by_cases hw : x.weight = 0
    · exact ⟨[], hw⟩
    · obtain ⟨t, ht⟩ := h.nearer hw
      obtain ⟨r', h'⟩ := h.step t
      obtain ⟨ticks, hticks⟩ := ih _ (hn ▸ ht) h' rfl
      exact ⟨t :: ticks, hticks⟩

/-- A loop that has nothing left ends with its next step once the router is dropped. -/
theorem Orderly.ends (h : Orderly b i origin events x r) {role : Role} (rests : x.load role = 0)
    (closed : ∀ l, x.node.loops.get role = some l → l.feed.closed = true)
    (fault : Option Fault) : (x.work role fault).node.isOver role = true := by
  obtain ⟨l, hl⟩ := h.lanes role
  rw [Node.isOver, h.node_work hl fault, ByRole.get_set_self]
  exact hl.tracks.step_ends (hl.load.symm.trans rests) (closed l hl.loop) fault

/-- With nothing left to do, the router is dropped and each loop takes one step more. -/
theorem Orderly.finish (h : Orderly b i origin events x r) (rests : x.weight = 0) :
    (x.run [.drop, .work .locking none, .work .issuing none]).Finished := by
  have hw := Nat.add_eq_zero_iff.mp rests
  have hp : x.pending = [] := List.length_eq_zero_iff.mp (by omega)
  obtain ⟨y, hy⟩ : ∃ y, y = x.step .drop := ⟨_, rfl⟩
  have hdrop : y = { x with node := x.node.closeFeeds } := hy.trans (if_pos hp)
  have h' : Orderly b i origin events y r := hdrop ▸ h.drop hp
  have hclosed : ∀ role l, y.node.loops.get role = some l → l.feed.closed = true := by
    intro role l hl
    rw [hdrop, Node.loops_closeFeeds, Option.map_eq_some_iff] at hl
    obtain ⟨l', -, rfl⟩ := hl
    rfl
  have hrests : ∀ role, y.load role = 0 := by
    intro role
    obtain ⟨l, hl⟩ := h.lanes role
    have hload : l.close.load = 0 := by
      refine hl.load.symm.trans ?_
      cases role <;> omega
    rw [hdrop, load, Node.loops_closeFeeds, hl.loop]
    exact hload
  obtain ⟨r'', h''⟩ := h'.work .locking none
  have hother := h'.loops_work_other (show Role.issuing ≠ .locking by decide) none
  change ((x.step .drop).work .locking none |>.work .issuing none).Finished
  rw [← hy]
  intro role
  cases role with
  | locking =>
    rw [Node.isOver, h''.loops_work_other (by decide)]
    exact h'.ends (hrests _) (hclosed _) none
  | issuing =>
    apply h''.ends
    · rw [h'.load_work_other (by decide)]
      exact hrests _
    · rw [hother]
      exact hclosed _

/-- From wherever they are, both loops can be brought to their end. -/
theorem Orderly.finishes (h : Orderly b i origin events x r) :
    ∃ ticks, (x.run ticks).Finished := by
  obtain ⟨ticks, hrests⟩ := h.rests
  obtain ⟨r', h'⟩ := h.run ticks
  refine ⟨ticks ++ [.drop, .work .locking none, .work .issuing none], ?_⟩
  rw [run_append]
  exact h'.finish hrests

end Relay

end Attestor

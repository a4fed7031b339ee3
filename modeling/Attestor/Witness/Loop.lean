import Attestor.Witness.Engine

namespace Attestor

/-- Events in the order in which they were sent, up to a capacity. -/
structure Feed where
  capacity : Nat
  queue : List Event
  closed : Bool
  deriving DecidableEq

/-- An engine at work on its feed, until the feed is closed and empty, the node stops, or a write
fails for good. The feed takes no events afterwards. -/
structure Loop where
  engine : Engine
  feed : Feed
  /-- how the loop ended, if it has -/
  result : Option (Except StoreError Unit)

/-- What becomes of an event that is sent to a feed. -/
inductive Sending where
  | accepted (l : Loop)
  | full
  | closed

namespace Loop

def start (engine : Engine) (capacity : Nat) : Loop :=
  ⟨engine, ⟨capacity, [], false⟩, none⟩

def isOver (l : Loop) : Bool :=
  l.result.isSome

def send (l : Loop) (e : Event) : Sending :=
  if l.isOver ∨ l.feed.closed then .closed
  else if l.feed.queue.length < l.feed.capacity then
    .accepted { l with feed := { l.feed with queue := l.feed.queue ++ [e] } }
  else .full

/-- No event will follow those in the feed. -/
def close (l : Loop) : Loop :=
  { l with feed := { l.feed with closed := true } }

def finish (l : Loop) (result : Except StoreError Unit) : Loop :=
  { l with result := some result }

/-- The loop after a move of its engine. A write that failed for good ends the loop. -/
def after (l : Loop) (m : Move) : Loop × Resources :=
  let l := { l with engine := m.engine }
  match m.outcome with
  | some (.failed e) => (l.finish (.error e), m.resources)
  | _ => (l, m.resources)

/-- One step: between events the loop looks for a stop before it takes the next event. -/
def step (l : Loop) (r : Resources) (fault : Option Fault) : Loop × Resources :=
  if l.isOver then (l, r)
  else match l.engine.phase with
    | .idle =>
      if r.signal.stops then (l.finish (.ok ()), r)
      else match l.feed.queue with
        | e :: rest => { l with feed := { l.feed with queue := rest } }.after (l.engine.take r e)
        | [] => if l.feed.closed then (l.finish (.ok ()), r) else (l, r)
    | _ => l.after (l.engine.turn r fault)

/-- At most `n` steps without faults. -/
def steps : (n : Nat) → Loop → Resources → Loop × Resources
  | 0, l, r => (l, r)
  | n + 1, l, r =>
    let (l, r) := l.step r none
    steps n l r

/-- Steps enough to take every event in the feed, commit it and come to rest. An event takes two
steps, or three if it is abandoned. -/
def drain (l : Loop) (r : Resources) : Loop × Resources :=
  l.steps (3 * l.feed.queue.length + 4) r

end Loop

end Attestor

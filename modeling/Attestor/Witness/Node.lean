import Attestor.Config
import Attestor.Request.Service
import Attestor.Signing.KeyText
import Attestor.Witness.Loop

namespace Attestor

inductive NodeError where
  | key (e : KeyError)
  | store (e : StoreError)
  | engine (e : StoreError)
  | alreadyRunning
  | stateless
  deriving DecidableEq, Repr

def NodeError.message : NodeError → String
  | key e => "Key error: " ++ e.message
  | store e => "Storage error: " ++ e.message
  | engine e => "Engine error: Storage error: " ++ e.message
  | alreadyRunning => "Engines are already running"
  | stateless => "Stateless nodes do not run role engines"

/-- The service that a node answers requests with, and one loop for each chain while it observes
them. -/
structure Node where
  service : Service
  loops : ByRole (Option Loop)

/-- What becomes of an event that is routed. -/
inductive Routing where
  | routed (n : Node)
  | waiting
  | closed (role : Role)

namespace Node

/-- Creates the checkpoints that are missing, the locking chain's first. -/
def ensureCheckpoints (store : Store) : Except StoreError Unit × Store :=
  match store.ensureCheckpoint .locking with
  | (.error e, store) => (.error e, store)
  | (.ok _, store) =>
    match store.ensureCheckpoint .issuing with
    | (.error e, store) => (.error e, store)
    | (.ok _, store) => (.ok (), store)

/-- A node that keeps attestations in a database, and the database as the start leaves it. -/
def openPersistent (identity : Identity) (bridge : Bridge) (db : Database) :
    Except NodeError Node × Database :=
  let db := db.prepare
  match Store.openChecked db with
  | .error e => (.error (.store e), db)
  | .ok store =>
    match ensureCheckpoints store with
    | (.error e, store) => (.error (.store e), store.database)
    | (.ok (), store) =>
      let resources : Resources := ⟨.ofIdentity identity, store, .running, .both .zero⟩
      (.ok ⟨.persistent bridge resources, .both none⟩, store.database)

def openStateless (identity : Identity) (bridge : Bridge) : Node :=
  ⟨.stateless bridge (.ofIdentity identity) .running, .both none⟩

/-- Whether there are loops that have not been waited for. -/
def isObserving (n : Node) : Bool :=
  n.loops.locking.isSome || n.loops.issuing.isSome

/-- Starts a loop for each chain, the locking chain's first, on feeds of that capacity. If the
second cannot start, the first one's feed is closed. -/
def spawn (n : Node) (capacity : Nat) : Except NodeError Unit × Node :=
  match n.service with
  | .stateless .. => (.error .stateless, n)
  | .persistent _ r =>
    if n.isObserving then (.error .alreadyRunning, n)
    else
      match Engine.resume .locking r.store with
      | .error e => (.error (.engine e), n)
      | .ok locking =>
        let first := Loop.start locking capacity
        match Engine.resume .issuing r.store with
        | .error e => (.error (.engine e), { n with loops := ⟨some first.close, none⟩ })
        | .ok issuing =>
          (.ok (), { n with loops := ⟨some first, some (Loop.start issuing capacity)⟩ })

/-- Sends an event to the feed of its source chain. -/
def route (n : Node) (e : Event) : Routing :=
  match n.loops.get e.source with
  | none => .closed e.source
  | some l =>
    match l.send e with
    | .accepted l => .routed { n with loops := n.loops.set e.source (some l) }
    | .full => .waiting
    | .closed => .closed e.source

/-- Closes both feeds. -/
def closeFeeds (n : Node) : Node :=
  { n with loops := ⟨n.loops.locking.map Loop.close, n.loops.issuing.map Loop.close⟩ }

def requestStop (n : Node) : Node :=
  { n with service := n.service.setSignal .requested }

/-- One step of a chain's loop, whose write a fault may hit. -/
def step (n : Node) (role : Role) (fault : Option Fault) : Node :=
  match n.service, n.loops.get role with
  | .persistent bridge r, some l =>
    let (l, r) := l.step r fault
    ⟨.persistent bridge r, n.loops.set role (some l)⟩
  | _, _ => n

def drainRole (n : Node) (role : Role) : Node :=
  match n.service, n.loops.get role with
  | .persistent bridge r, some l =>
    let (l, r) := l.drain r
    ⟨.persistent bridge r, n.loops.set role (some l)⟩
  | _, _ => n

/-- Lets both loops work until they rest. -/
def drain (n : Node) : Node :=
  (n.drainRole .locking).drainRole .issuing

def failureOf (l : Option Loop) : Option NodeError :=
  match l with
  | some ⟨_, _, some (.error e)⟩ => some (.engine e)
  | _ => none

/-- Waits for both loops and reports the first failure, the locking chain's before the other. -/
def join (n : Node) : Except NodeError Unit × Node :=
  let n := n.drain
  let result := match failureOf n.loops.locking, failureOf n.loops.issuing with
    | some e, _ => .error e
    | none, some e => .error e
    | none, none => .ok ()
  (result, { n with loops := .both none })

/-- Answers one line of a request. -/
def answer (n : Node) (line : String) : Response × Node :=
  let (response, service) := n.service.handleLine line
  (response, { n with service })

end Node

end Attestor

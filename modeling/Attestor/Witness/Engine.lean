import Attestor.Signing.Identity
import Attestor.Store
import Attestor.Transfer.Message

namespace Attestor

/-- What an engine has done with the events handed to it, and how many writes failed. -/
structure Tally where
  processed : Nat
  duplicates : Nat
  discarded : Nat
  rejected : Nat
  faults : Nat
  deriving DecidableEq, Repr

namespace Tally

def zero : Tally :=
  ⟨0, 0, 0, 0, 0⟩

def toJson (t : Tally) : Json :=
  .object [("events_processed_total", .integer t.processed),
    ("duplicates_total", .integer t.duplicates),
    ("discarded_total", .integer t.discarded), ("rejected_total", .integer t.rejected),
    ("storage_faults_total", .integer t.faults)]

end Tally

/-- Whether the node goes on. A node that nobody can stop any more stops as well. -/
inductive Signal where
  | running
  | requested
  | orphaned
  deriving DecidableEq, Repr

def Signal.stops : Signal → Bool
  | running => false
  | requested | orphaned => true

/-- What the engines of a node share. -/
structure Resources where
  signer : Signer
  store : Store
  signal : Signal
  tallies : ByRole Tally

namespace Resources

def tally (r : Resources) (role : Role) (f : Tally → Tally) : Resources :=
  { r with tallies := r.tallies.modify role f }

end Resources

/-- Between events, about to write for the first time, or waiting to write again. -/
inductive Phase where
  | idle
  | writing (event : Event) (attestation : Attestation)
  | waiting (event : Event) (attestation : Attestation)
  deriving DecidableEq

def Phase.name : Phase → String
  | idle => "idle"
  | writing .. | waiting .. => "advancing"

/-- The engine of one chain takes finalized events one at a time, drops those at or behind its
checkpoint, signs the others once, and commits each attestation together with the checkpoint. A
write that fails for a passing reason is tried again until it succeeds or the node shuts down. -/
structure Engine where
  role : Role
  checkpoint : Checkpoint
  phase : Phase
  deriving DecidableEq

/-- How an event ends. -/
inductive Outcome where
  | rejected
  | discarded
  | committed (i : Insertion)
  | abandoned
  | failed (e : StoreError)
  deriving DecidableEq

/-- One move of an engine, with the outcome if it ends an event. -/
structure Move where
  outcome : Option Outcome
  engine : Engine
  resources : Resources

/-- The attestation of an event under an identity. -/
def Identity.attest (i : Identity) (e : Event) : Attestation :=
  .ofEvent e i.signingAccount i.publicKey
    (i.sign (Message.encode e.bridge e.deliveredAmount e.key e.direction))

namespace Engine

/-- Resumes from the stored checkpoint. Without one the chain starts at ledger zero. -/
def resume (role : Role) (store : Store) : Except StoreError Engine := do
  let checkpoint ← store.checkpoint role
  return ⟨role, checkpoint.getD ⟨role, none, 0⟩, .idle⟩

/-- Whether the event lies behind the checkpoint, or is the checkpoint's own transaction. -/
def alreadySeen (c : Checkpoint) (e : Event) : Bool :=
  e.ledgerSequence < c.ledgerSequence
    || (e.ledgerSequence == c.ledgerSequence && c.transactionId == some e.transactionId)

/-- The attestation and the checkpoint that covers it, in one batch. -/
def commitBatch (role : Role) (a : Attestation) : Batch :=
  let insert := match a.key.kind with
    | .claim => WriteStep.insertClaim a
    | .createAccount => WriteStep.insertAccountCreate a
  ⟨[insert, .advance role a.transactionId a.ledgerSequence], false⟩

/-- Judges an event, and signs it if it is new. -/
def take (en : Engine) (r : Resources) (e : Event) : Move :=
  if e.source ≠ en.role then
    ⟨some .rejected, en, r.tally en.role fun t => { t with rejected := t.rejected + 1 }⟩
  else if alreadySeen en.checkpoint e then
    ⟨some .discarded, en, r.tally en.role fun t => { t with discarded := t.discarded + 1 }⟩
  else
    ⟨none, { en with phase := .writing e (r.signer.identity.attest e) },
      { r with signer := r.signer.count }⟩

/-- The engine after its event is committed. -/
def committed (en : Engine) (r : Resources) (e : Event) (i : Insertion) : Move :=
  let duplicate := match i with
    | .inserted => 0
    | .exists _ => 1
  ⟨some (.committed i),
    { en with
      checkpoint := ⟨en.role, some e.transactionId, e.ledgerSequence⟩
      phase := .idle },
    r.tally en.role fun t =>
      { t with processed := t.processed + 1, duplicates := t.duplicates + duplicate }⟩

/-- One write of the event's attestation, which a fault may hit. -/
def write (en : Engine) (r : Resources) (e : Event) (a : Attestation) (fault : Option Fault) :
    Move :=
  let (report, store) := r.store.writeUnder fault (commitBatch en.role a)
  let r := { r with store }
  match report with
  | ⟨[.insertion i, .advanced], none⟩ => en.committed r e i
  | ⟨_, failure⟩ =>
    let error := failure.getD .database
    let r := r.tally en.role fun t => { t with faults := t.faults + 1 }
    if error.isTransient then ⟨none, { en with phase := .waiting e a }, r⟩
    else ⟨some (.failed error), { en with phase := .idle }, r⟩

/-- Goes on with the event in hand. A stop is heeded only before a write is repeated. -/
def turn (en : Engine) (r : Resources) (fault : Option Fault) : Move :=
  match en.phase with
  | .idle => ⟨none, en, r⟩
  | .writing e a => en.write r e a fault
  | .waiting e a =>
    if r.signal.stops then ⟨some .abandoned, { en with phase := .idle }, r⟩
    else en.write r e a fault

/-- What happens around a turn: a signal that arrives before it, and a fault that hits its write. -/
structure Chance where
  signal : Option Signal
  fault : Option Fault
  deriving DecidableEq, Repr

/-- Nothing happens. -/
def Chance.none : Chance :=
  ⟨.none, .none⟩

/-- Turns until the event ends or the chances do. -/
def finish (en : Engine) (r : Resources) : List Chance → Move
  | [] => ⟨none, en, r⟩
  | c :: rest =>
    let r := { r with signal := c.signal.getD r.signal }
    let m := en.turn r c.fault
    match m.outcome with
    | some _ => m
    | none => m.engine.finish m.resources rest

/-- Takes an event and goes on with it while the chances last. -/
def process (en : Engine) (r : Resources) (e : Event) (chances : List Chance) : Move :=
  let m := en.take r e
  match m.outcome with
  | some _ => m
  | none => m.engine.finish m.resources chances

end Engine

end Attestor

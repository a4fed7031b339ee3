import Attestor.Witness.Node

namespace Attestor.Program

inductive Command where
  | version
  | run (configPath : String)
  deriving DecidableEq, Repr

/-- Why the program ends with a failure. -/
inductive Failure where
  | noConfig
  | noConfigPath
  | loading (path : String)
  | starting
  | node (e : NodeError)

def Failure.message : Failure → String
  | noConfig => "Error: missing required --config <path> argument"
  | noConfigPath => "Error: --config was provided without a path"
  | loading path => "Error: loading " ++ path
  | starting => "Error: starting witness node"
  | node e => "Error: " ++ e.message

/-- The argument after the first `--config`, whatever it is. -/
def configPath : List String → Except Failure String
  | [] => .error .noConfig
  | [last] => if last = "--config" then .error .noConfigPath else .error .noConfig
  | arg :: next :: rest =>
    if arg = "--config" then .ok next else configPath (next :: rest)

/-- A request for the version is granted wherever it stands. -/
def command (args : List String) : Except Failure Command :=
  if "--version-json" ∈ args then .ok .version else (configPath args).map .run

def versionLine : String :=
  (Json.object [("version", .string Service.version), ("runtime_version", .integer 1),
    ("protocol_version", .integer 1)]).compact

/-- How many events a feed holds. -/
def feedCapacity : Nat :=
  1024

/-- The configuration in a file, whose text is missing where it cannot be read. -/
def load (path : String) (text : Option String) : Except Failure Config :=
  match text with
  | none => .error (.loading path)
  | some text => (Config.ofText text).mapError fun _ => .loading path

/-- The identity of the node, which is judged before the database is looked at. -/
def identity (config : Config) : Except Failure Identity :=
  (KeyText.identity config.signing.key config.signing.account).mapError fun _ => .starting

/-- Starts a node and its loops. A stateless node has no database. -/
def start (config : Config) (identity : Identity) (database : Except StoreError Database) :
    Except Failure Node × Option Database :=
  match config.node.mode, database with
  | .stateless, _ => (.ok (Node.openStateless identity config.bridge), none)
  | .persistent, .error _ => (.error .starting, none)
  | .persistent, .ok db =>
    match Node.openPersistent identity config.bridge db with
    | (.error _, db) => (.error .starting, some db)
    | (.ok node, db) =>
      match node.spawn feedCapacity with
      | (.ok (), node) => (.ok node, some db)
      | (.error e, _) => (.error (.node e), some db)

/-- What a line leads to: perhaps a line of output, and perhaps the end of the input. -/
structure Step where
  node : Node
  output : Option String
  stopped : Bool

/-- Hands an event to its loop and lets the loops come to rest. -/
def observe (node : Node) (e : Event) : Step :=
  match node.route e with
  | .routed node => ⟨node.drain, none, false⟩
  | .waiting => ⟨node, none, false⟩
  | .closed _ => ⟨node, none, true⟩

/-- A line that is an object with a method is a request, any other is an event. Blank lines and what
is neither are passed over. -/
def line (node : Node) (text : String) : Step :=
  match Json.value? (Text.trim text) with
  | none => ⟨node, none, false⟩
  | some j =>
    match j.member? "method" with
    | some _ =>
      let (response, node) := node.answer (Text.trim text)
      ⟨node, some response.toJson.compact, node.service.signal.stops⟩
    | none =>
      match node.service with
      | .stateless .. => ⟨node, none, false⟩
      | .persistent .. =>
        match Event.ofJson j with
        | .ok e => observe node e
        | .error _ => ⟨node, none, false⟩

/-- Reads lines until the input ends or a line stops the node. -/
def serve (node : Node) : List String → Node × List String
  | [] => (node, [])
  | text :: rest =>
    let step := line node text
    let (node, output) := if step.stopped then (step.node.requestStop, []) else serve step.node rest
    (node, step.output.toList ++ output)

/-- Closes the feeds and waits for the loops. -/
def finish (node : Node) : Except Failure Unit × Node :=
  let (result, node) := node.closeFeeds.join
  (result.mapError .node, node)

/-- The lines of a text. What follows the last line end is a line unless it is empty. -/
def lines (text : String) : List String :=
  let pieces := (text.split '\n').toList.map fun piece => piece.toString
  if pieces.getLast? = some "" then pieces.dropLast else pieces

end Attestor.Program

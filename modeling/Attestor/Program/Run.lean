import Attestor.Program
import Attestor.Program.Files

namespace Attestor.Program

/-- How a run ends, with its lines of output. -/
structure Ending where
  output : List String
  failure : Option Failure
  files : Files

def runNode (files : Files) (workingDirectory : Place) (config : Config) (identity : Identity)
    (input : String) : Ending :=
  let (opened, files) := match config.node.mode with
    | .persistent => (Attempt.openName workingDirectory config.node.databasePath).run.run files
    | .stateless => (.ok (none, .empty), files)
  let place := match opened with
    | .ok (place, _) => place
    | .error _ => none
  match start config identity (opened.map (·.2)) with
  | (.error f, db) => ⟨[], some f, files.save place db⟩
  | (.ok node, _) =>
    let (node, output) := serve node (lines input)
    let (result, node) := finish node
    let files := files.save place (node.service.store?.map Store.database)
    match result with
    | .ok () => ⟨output, none, files⟩
    | .error f => ⟨output, some f, files⟩

/-- A run with arguments and a text of input. -/
def run (files : Files) (workingDirectory : Place) (args : List String) (input : String) :
    Ending :=
  match command args with
  | .error f => ⟨[], some f, files⟩
  | .ok .version => ⟨[versionLine], none, files⟩
  | .ok (.run path) =>
    let (text, input) := files.text? workingDirectory path input
    match load path text with
    | .error f => ⟨[], some f, files⟩
    | .ok config =>
      match identity config with
      | .error f => ⟨[], some f, files⟩
      | .ok identity => runNode files workingDirectory config identity input

end Attestor.Program

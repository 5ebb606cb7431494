import Scriptlet.Run.Inner
import Scriptlet.Run.Program

/-!
# Imports

An import takes over the declarations of a file into the global frame, once per file. All failures become
one fault of the import.
-/
namespace Scriptlet

/-- The declarations of an imported file. -/
def Eval.readDeclarations (line : Nat) (path text : String) : Eval (List Stmt) := do
  let program ← modifyGet (·.load false text)
  if !program.isSound then fail line (.importBroken path)
  let declarations := program.statements.filter Stmt.isDeclaration
  let sound ← modifyGet (·.analyse declarations)
  if !sound then fail line (.importBroken path)
  return declarations

def Eval.markImported (place : Place) : Eval Unit :=
  modify fun m => { m with imported := place :: m.imported }

/-- The context inside an imported file. -/
def Context.enterFile (c : Context) (place : Place) : Context :=
  { c with
    frame := globalFrame
    loopDepth := 0
    importChain := c.importChain ++ [place]
    scriptDirectory := Path.ofNames place.dropLast }

namespace Inner

variable {ν : Type}

/-- Runs the declarations of an imported file in the global frame, outside of all loops. -/
def runImported (inner : Inner ν) (place : Place) (declarations : List Stmt) : Watched ν Flow :=
  inner.inContext (·.enterFile place) (inner.runAll declarations)

/-- Runs the declarations of an imported file. Its fault is reported, and the import fails. -/
def runDeclarations (inner : Inner ν) (line : Nat) (path : String) (place : Place)
    (declarations : List Stmt) : Watched ν Unit := do
  inner.tell (.starting declarations)
  let run : Watched ν Unit := do
    let _ ← inner.runImported place declarations
  tryCatch run fun halt => do
    match halt with
    | .fault line' f =>
      Eval.report (.ofFault line' f)
      Eval.fail line (.importBroken path)
    | .outOfFuel => throw .outOfFuel
  Eval.markImported place

/-- Takes over the declarations of a text, if it could be read. -/
def importSource (inner : Inner ν) (line : Nat) (path : String) (place : Place) :
    Except SourceError String → Watched ν Unit
  | .error e => Eval.fail line (.importUnreadable path e)
  | .ok text => do
    let declarations ← Eval.readDeclarations line path text
    inner.runDeclarations line path place declarations

/-- Takes over the declarations of a file, once. -/
def importFile (inner : Inner ν) (line : Nat) (path : String) : Watched ν Unit := do
  let m ← Eval.getMachine
  match m.files.resolve (Path.join m.context.scriptDirectory path) with
  | .error e => Eval.fail line (.importUnreadable path (.file e))
  | .ok place =>
    if m.context.importChain.contains place then Eval.fail line (.circularImport path)
    else if m.imported.contains place then return ()
    else inner.importSource line path place (m.files.readSource (Path.ofNames place))

end Inner

end Scriptlet

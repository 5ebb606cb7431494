import Scriptlet.Diagnostic
import Scriptlet.Scope.Analysis
import Scriptlet.Value.Store

/-!
# The machine

Everything that running a program can read or change. An evaluation either yields a result or stops with a
fault at a line; in both cases the machine goes on with what was changed until then. Evaluations are bounded
by a counter, and running out of it is an outcome of its own.
-/
namespace Scriptlet

structure Settings where
  /-- Values of expression statements are written out. -/
  echo : Bool
  /-- Nesting limit for calls of functions. -/
  maxCallDepth : Nat
  deriving DecidableEq, Repr

/-- Where execution stands. -/
structure Context where
  frame : FrameId
  /-- Number of loops around the running statement in the current call. -/
  loopDepth : Nat
  callDepth : Nat
  /-- The script and the imported files being run, outermost first. -/
  importChain : List Place
  /-- Relative imports start here. -/
  scriptDirectory : String
  deriving DecidableEq, Repr

/-- Where diagnostics go. -/
inductive Sink where
  /-- Kept for later. -/
  | collected
  | console
  | log (path : String)
  deriving DecidableEq, Repr

structure Reporter where
  sink : Sink
  /-- The script named in front of diagnostics. -/
  currentFile : Option String
  diagnostics : List Diagnostic
  /-- Text written to the console. -/
  console : String

def Reporter.ofSink (sink : Sink) : Reporter := ⟨sink, none, [], ""⟩

structure Machine where
  settings : Settings
  context : Context
  store : Store
  distances : Distances
  /-- The next unused node identity. -/
  nextNode : NodeId
  /-- Files whose declarations are in the global frame. -/
  imported : List Place
  output : String
  reporter : Reporter
  files : FileTree
  /-- Time in microseconds; each reading advances it. -/
  clock : Nat

def globalFrame : FrameId := 0

namespace Machine

/-- The deepest nesting of calls unless another limit is set. -/
def defaultCallDepth : Nat := 256

def initial (settings : Settings) (sink : Sink) (files : FileTree) (clock : Nat) : Machine where
  settings := settings
  context := ⟨globalFrame, 0, 0, [], "."⟩
  store := .initial
  distances := ∅
  nextNode := 0
  imported := []
  output := ""
  reporter := .ofSink sink
  files := files
  clock := clock

def withContext (m : Machine) (context : Context) : Machine := { m with context }

/-- Adds a line to the console. -/
def writeConsole (m : Machine) (line : String) : Machine :=
  { m with reporter := { m.reporter with console := m.reporter.console ++ line ++ "\n" } }

/-- Sends a diagnostic to where diagnostics go. A log that cannot be written is replaced by the console. -/
def report (m : Machine) (d : Diagnostic) : Machine :=
  match m.reporter.sink with
  | .collected =>
    { m with reporter := { m.reporter with diagnostics := m.reporter.diagnostics ++ [d] } }
  | .console => m.writeConsole (d.render m.reporter.currentFile)
  | .log path =>
    let line := d.render m.reporter.currentFile
    match m.files.append path (line ++ "\n") with
    | .ok files => { m with files }
    | .error _ => m.writeConsole line

def reportAll (m : Machine) (ds : List Diagnostic) : Machine := ds.foldl report m

end Machine

/-- Why an evaluation stops without a result. -/
inductive Halt where
  | fault (line : Nat) (fault : Fault)
  /-- The bound on the evaluation was too small. -/
  | outOfFuel
  deriving DecidableEq, Repr

abbrev Eval := EStateM Halt Machine

namespace Eval

def fail (line : Nat) (f : Fault) : Eval α := throw (.fault line f)

/-- Turns an error of binding into a fault. -/
def liftBinding (line : Nat) : Except BindingError α → Eval α
  | .ok a => pure a
  | .error e => fail line (.binding e)

/-- Fails if there is an error of binding. -/
def refuse (line : Nat) : Option BindingError → Eval Unit
  | none => return ()
  | some e => fail line (.binding e)

def getMachine : Eval Machine := get

def getStore : Eval Store := return (← get).store

def modifyStore (f : Store → Store) : Eval Unit :=
  modify fun m => { m with store := f m.store }

/-- Runs a change of the store that yields a result. -/
def withStore (f : Store → α × Store) : Eval α := fun m =>
  let (a, store) := f m.store
  .ok a { m with store }

def getContext : Eval Context := return (← get).context

def freshIdentity : Eval Identity := withStore Store.freshIdentity

def newFrame (enclosing : FrameId) : Eval FrameId := withStore (·.newFrame enclosing)

def newCollection (kind : CollectionKind) (elements : Array Value) : Eval Value := do
  return .collection kind (← withStore (·.allocate elements))

/-- A new list of values with duplicates dropped. -/
def newSet (elements : List Value) : Eval Value := do
  let unique := (← getStore).distinct elements
  newCollection .set unique.toArray

def textOf (v : Value) : Eval String := return (← getStore).text v

/-- Binds a name in a frame that does not bind it yet. -/
def define (frame : FrameId) (name : Name) (value : Value) (constant : Bool) : Eval Unit := do
  refuse name.line ((← getStore).frames.defineError? frame name.text)
  modifyStore (·.updateFrames (·.bind frame name.text value constant))

/-- Writes a value and a newline. -/
def writeLine (v : Value) : Eval Unit := do
  let text ← textOf v
  modify fun m => { m with output := m.output ++ text ++ "\n" }

def report (d : Diagnostic) : Eval Unit := modify (·.report d)

def reportAll (ds : List Diagnostic) : Eval Unit := modify (·.reportAll ds)

end Eval

end Scriptlet

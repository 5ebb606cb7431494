import Scriptlet.CommandLine
import Std.Time.DateTime

/-!
# The program

Reads the working directory into a file tree, carries out the command, and writes back the files that
changed. Lines of an interactive prompt are run as they come.
-/
namespace Scriptlet.Main

/-- Bound on the steps of an evaluation. -/
def stepLimit : Nat := Number.tenTo 18

/-- Directories are read down to this depth. -/
def depthLimit : Nat := 16

/-- Adds what lies in a directory to the tree. Files that cannot be read are left out. -/
def readDirectory : (depth : Nat) → (path : String) → Place → FileTree → IO FileTree
  | 0, _, _, tree => return tree
  | depth + 1, path, place, tree => do
    let mut tree := tree
    for entry in ← (System.mkFilePath [path]).readDir do
      let inner := place ++ [entry.fileName]
      if ← entry.path.isDir then
        tree ← readDirectory depth (path ++ "/" ++ entry.fileName) inner (tree.install inner .directory)
      else
        match ← (IO.FS.readBinFile entry.path).toBaseIO with
        | .ok content => tree := tree.install inner (.file content)
        | .error _ => pure ()
    return tree

def readWorkingDirectory : IO FileTree := do
  let path := (← IO.currentDir).toString
  let place := (Path.segments path).filter (· != "")
  readDirectory depthLimit path place (.ofWorkingDirectory place)

/-- Entries below the working directory, those of outer directories first. -/
def sortedContents (t : FileTree) : List (Place × FileEntry) :=
  t.contents.mergeSort fun a b => a.1.length ≤ b.1.length

def isUnchanged (before : FileTree) (place : Place) (entry : FileEntry) : Bool :=
  match before.contents.lookup place, entry with
  | some (.file old), .file new => old == new
  | some .directory, .directory => true
  | _, _ => false

/-- Makes the working directory equal to the tree. -/
def writeBack (before after : FileTree) : IO Unit := do
  for (place, entry) in (sortedContents before).reverse do
    if !isUnchanged after place entry then
      let path := "/".intercalate place
      match entry with
      | .directory => IO.FS.removeDir path
      | .file _ => IO.FS.removeFile path
  for (place, entry) in sortedContents after do
    if !isUnchanged before place entry then
      let path := "/".intercalate place
      match entry with
      | .directory => IO.FS.createDirAll path
      | .file content => IO.FS.writeBinFile path content

def emit (output errors : String) : IO Unit := do
  let stdout ← IO.getStdout
  stdout.putStr output
  stdout.flush
  (← IO.getStderr).putStr errors

/-- Shows what the machine has written and stores the files it has changed. -/
def settle (before : FileTree) (m : Machine) : IO Machine := do
  emit m.output m.reporter.console
  writeBack before m.files
  return { m with output := "", reporter := { m.reporter with console := "" } }

/-- Runs an action of the session and settles what it leaves. -/
def perform (s : Session) (action : Session.Action Unit) : IO (Except Session.Stop Session) := do
  match action s with
  | .ok _ next => return .ok { next with machine := ← settle s.machine.files next.machine }
  | .error stop next => do
    let _ ← settle s.machine.files next.machine
    return .error stop

/-- Runs the lines of the standard input until it ends. -/
partial def promptLoop (s : Session) : IO UInt32 := do
  emit Session.promptText ""
  let line ← (← IO.getStdin).getLine
  if line.isEmpty then
    emit "\n" ""
    return 0
  let action := (Text.byteLines line.toUTF8).forM (Session.runLine stepLimit)
  match ← perform s action with
  | .ok next => promptLoop next
  | .error stop =>
    emit "" (CommandLine.Failure.message ⟨none, stop.message⟩)
    return CommandLine.failureCode.toUInt32

def startPrompt (m : Machine) : IO UInt32 := do
  match ← perform (.initial m) Session.echoValues with
  | .ok s => promptLoop s
  | .error _ => return CommandLine.failureCode.toUInt32

/-- Shows what a command leaves and stores the files it has changed. -/
def finish (before : FileTree) (c : CommandLine.Completion) : IO UInt32 := do
  emit c.output c.errors
  writeBack before c.files
  return c.exitCode.toUInt32

/-- Microseconds since the epoch. -/
def readClock : IO Nat := do
  let now ← Std.Time.Timestamp.now
  return (now.val.toNanoseconds.val / 1000).toNat

def run (arguments : List String) : IO UInt32 := do
  let files ← readWorkingDirectory
  let clock ← readClock
  match CommandLine.Invocation.ofArguments arguments with
  | .ok i =>
    match i.command, i.prepare files clock with
    | .repl, .ok m => startPrompt m
    | _, _ => finish files (CommandLine.execute stepLimit i .empty files clock)
  | .error _ => finish files (CommandLine.runArguments stepLimit arguments .empty files clock)

end Scriptlet.Main

def main (arguments : List String) : IO UInt32 := Scriptlet.Main.run arguments

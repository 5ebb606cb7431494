import Scriptlet.Builtin.Argument
import Scriptlet.Text.Search

/-!
# File methods

A file value is a path; each method looks at the file tree anew.
-/
namespace Scriptlet.Builtin

/-- The property of a file. -/
def fileProperty (path : String) (name : Name) : Eval Value := do
  match FileMethod.all.find? (·.name == name.text) with
  | some m => freshNative (.file m path)
  | none => Eval.fail name.line (.undefinedMember .file name.text)

def getFiles : Eval FileTree := return (← get).files

def setFiles (files : FileTree) : Eval Unit := modify fun m => { m with files }

def liftFile (line : Nat) (action : FileAction) : Except FileError α → Eval α
  | .ok a => pure a
  | .error e => Eval.fail line (.file action e)

def callFile (line : Nat) (m : FileMethod) (path : String) (args : List Value) : Eval Value :=
  match m, args with
  | .create, [] => do
    let (made, files) ← liftFile line .creation ((← getFiles).create path)
    setFiles files
    return .bool made
  | .delete, [] => do
    let (removed, files) := (← getFiles).delete path
    setFiles files
    return .bool (← liftFile line .deletion removed)
  | .exists, [] => do return .bool ((← getFiles).exists? path)
  | .read, [] => do return .string (← liftFile line .reading ((← getFiles).readText path))
  | .readLines, [] => do
    let text ← liftFile line .reading ((← getFiles).readText path)
    Eval.newCollection .list ((Text.lines text).map Value.string).toArray
  | .write, [value] => do
    let text ← Eval.textOf value
    setFiles (← liftFile line .writing ((← getFiles).write path text))
    return .null
  | .append, [value] => do
    let text ← Eval.textOf value
    setFiles (← liftFile line .appending ((← getFiles).append path text))
    return .null
  | .rename, [value] => do
    let target ← Eval.textOf value
    if (← getFiles).exists? target then return .bool false
    setFiles (← liftFile line .renaming ((← getFiles).rename path target))
    return .bool true
  | .size, [] => do return .number (Number.ofInt ((← getFiles).size path))
  | .absolutePath, [] => do
    match Path.absolute? (← getFiles).workingDirectory path with
    | some text => return .string text
    | none => Eval.fail line (.file .pathResolution .emptyPath)
  | .isDirectory, [] => do return .bool ((← getFiles).isDirectory path)
  | m, args => countFault line (.file m path) args

end Scriptlet.Builtin

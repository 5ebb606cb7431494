import Scriptlet.Files.Path
import Scriptlet.Text.Utf8

/-!
# File trees

Files and directories by their names from the root on, with a working directory. A path is walked part by
part: every part but the last has to name a directory that exists.
-/
namespace Scriptlet

inductive FileError where
  | notFound
  | notDirectory
  | isDirectory
  | alreadyExists
  | invalidArgument
  | busy
  | noDevice
  | nameTooLong
  | notEmpty
  | zeroInPath
  | notText
  | emptyPath
  deriving DecidableEq, Repr

def FileError.message : FileError → String
  | .notFound => "No such file or directory (os error 2)"
  | .notDirectory => "Not a directory (os error 20)"
  | .isDirectory => "Is a directory (os error 21)"
  | .alreadyExists => "File exists (os error 17)"
  | .invalidArgument => "Invalid argument (os error 22)"
  | .busy => "Device or resource busy (os error 16)"
  | .noDevice => "No such device (os error 19)"
  | .nameTooLong => "File name too long (os error 36)"
  | .notEmpty => "Directory not empty (os error 39)"
  | .zeroInPath => "file name contained an unexpected NUL byte"
  | .notText => "stream did not contain valid UTF-8"
  | .emptyPath => "cannot make an empty path absolute"

inductive FileEntry where
  | file (content : ByteArray)
  | directory

def FileEntry.isDirectory : FileEntry → Bool
  | .file _ => false
  | .directory => true

/-- A place in the tree: the names from the root on. -/
abbrev Place := List String

structure FileTree where
  /-- All files and directories below the root, with the parents of each. -/
  entries : List (Place × FileEntry)
  workingDirectory : Place

namespace FileTree

def entryAt? (t : FileTree) (place : Place) : Option FileEntry :=
  if place.isEmpty then some .directory else t.entries.lookup place

def isDirectoryAt (t : FileTree) (place : Place) : Bool :=
  match t.entryAt? place with
  | some .directory => true
  | _ => false

def put (t : FileTree) (place : Place) (entry : FileEntry) : FileTree :=
  { t with entries := (place, entry) :: t.entries.filter (·.1 != place) }

/-- Removes an entry with all that lies below it. -/
def remove (t : FileTree) (place : Place) : FileTree :=
  { t with entries := t.entries.filter fun entry => !place.isPrefixOf entry.1 }

/-- Removes all that lies below a directory. -/
def clear (t : FileTree) (place : Place) : FileTree :=
  { t with entries := t.entries.filter fun entry => entry.1 == place || !place.isPrefixOf entry.1 }

def isEmptyAt (t : FileTree) (place : Place) : Bool :=
  t.entries.all fun entry => entry.1 == place || !place.isPrefixOf entry.1

/-- Moves an entry with all that lies below it. -/
def move (t : FileTree) (source target : Place) : FileTree :=
  { t with entries := t.entries.map fun (place, entry) =>
      if source.isPrefixOf place then (target ++ place.drop source.length, entry) else (place, entry) }

/-- The directories from the root down to `place`, without `place` itself. -/
def parents (place : Place) : List Place := (List.range' 1 (place.length - 1)).map place.take

/-- Puts an entry and the directories above it. -/
def install (t : FileTree) (place : Place) (entry : FileEntry) : FileTree :=
  let t := (parents place).foldl (fun t p => if (t.entryAt? p).isSome then t else t.put p .directory) t
  t.put place entry

/-- A tree with an empty working directory. -/
def ofWorkingDirectory (place : Place) : FileTree :=
  (FileTree.mk [] place).install place .directory

/-- The longest name that a directory can hold, in bytes. -/
def longestName : Nat := 255

/-- What a directory holds under the last name of a place. -/
def lookUp (t : FileTree) (place : Place) : Except FileError (Option FileEntry) :=
  if (place.getLast?.getD "").utf8ByteSize > longestName then .error .nameTooLong
  else .ok (t.entryAt? place)

def checkDirectory (t : FileTree) (place : Place) : Except FileError Unit :=
  match t.entryAt? place with
  | some .directory => .ok ()
  | some (.file _) => .error .notDirectory
  | none => .error .notFound

/-- Goes on from a directory by one part of a path. -/
def step (t : FileTree) (place : Place) (part : String) : Except FileError Place := do
  t.checkDirectory place
  if part == "" || part == "." then return place
  else if part == ".." then return place.dropLast
  else
    match ← t.lookUp (place ++ [part]) with
    | some _ => return place ++ [part]
    | none => .error .notFound

def walk (t : FileTree) : Place → List String → Except FileError Place
  | place, [] => .ok place
  | place, part :: parts =>
    match t.step place part with
    | .ok next => t.walk next parts
    | .error e => .error e

def startOf (t : FileTree) (path : String) : Place :=
  if Path.isAbsolute path then [] else t.workingDirectory

/-- The parts of a path that are walked, without empty ones. -/
def walked (path : String) : List String := (Path.segments path).filter (· != "")

/-- No path has a zero character in it. -/
def checkText (path : String) : Except FileError Unit :=
  if path.toList.contains '\x00' then .error .zeroInPath else .ok ()

/-- The place of an existing file or directory, found part by part, however long the path is. A slash at the
end asks for a directory. -/
def resolve (t : FileTree) (path : String) : Except FileError Place := do
  checkText path
  if path.isEmpty then .error .notFound
  else
    let place ← t.walk (t.startOf path) (walked path)
    if Path.endsInSlash path then t.checkDirectory place
    return place

/-- A path that is handed over as a whole has fewer bytes than this. -/
def pathLimit : Nat := 4096

/-- What is wrong with a path before it is walked. -/
def checkPath (path : String) : Except FileError Unit := do
  checkText path
  if path.isEmpty then .error .notFound
  else if path.utf8ByteSize ≥ pathLimit then .error .nameTooLong
  else .ok ()

/-- The place of an existing file or directory, by a path of limited length. -/
def locate (t : FileTree) (path : String) : Except FileError Place := do
  checkPath path
  t.resolve path

/-- The last part of a path. -/
inductive LastPart where
  | root
  /-- A dot: the directory reached before it. -/
  | dot (place : Place)
  /-- A double dot: the directory above. -/
  | doubleDot (place : Place)
  /-- A name in a directory, with a slash after it or not. -/
  | named (place : Place) (slash : Bool)

/-- The place of a file that may still have to be made: all but the last part exist. -/
def locateParent (t : FileTree) (path : String) : Except FileError LastPart := do
  checkPath path
  match (walked path).getLast? with
  | none => return .root
  | some last =>
    let parent ← t.walk (t.startOf path) (walked path).dropLast
    t.checkDirectory parent
    if last == "." then return .dot parent
    else if last == ".." then return .doubleDot parent.dropLast
    else return .named (parent ++ [last]) (Path.endsInSlash path)

def exists? (t : FileTree) (path : String) : Bool := (t.locate path).toOption.isSome

def isDirectory (t : FileTree) (path : String) : Bool :=
  match t.locate path with
  | .ok place => t.isDirectoryAt place
  | .error _ => false

def read (t : FileTree) (path : String) : Except FileError ByteArray :=
  match t.locate path with
  | .error e => .error e
  | .ok place =>
    match t.entryAt? place with
    | some (.file content) => .ok content
    | some .directory => .error .isDirectory
    | none => .error .notFound

def readText (t : FileTree) (path : String) : Except FileError String :=
  match t.read path with
  | .error e => .error e
  | .ok content =>
    match Text.decodeUtf8 content with
    | .ok text => .ok text
    | .error _ => .error .notText

/-- The size that a directory reports. -/
def directorySize : Nat := 4096

/-- The size of a file in bytes; zero if there is none. -/
def size (t : FileTree) (path : String) : Nat :=
  match t.locate path with
  | .error _ => 0
  | .ok place =>
    match t.entryAt? place with
    | some (.file content) => content.size
    | some .directory => directorySize
    | none => 0

/-- Makes an empty file; false if something is there already. -/
def create (t : FileTree) (path : String) : Except FileError (Bool × FileTree) := do
  match ← t.locateParent path with
  | .named place slash =>
    if slash then .error .isDirectory
    else
      match ← t.lookUp place with
      | some _ => return (false, t)
      | none => return (true, t.put place (.file .empty))
  | _ => return (false, t)

/-- Changes the content of a file, which is made if it does not exist. -/
def update (t : FileTree) (path : String) (f : ByteArray → ByteArray) : Except FileError FileTree := do
  match ← t.locateParent path with
  | .named place slash =>
    if slash then .error .isDirectory
    else
      match ← t.lookUp place with
      | some .directory => .error .isDirectory
      | some (.file content) => return t.put place (.file (f content))
      | none => return t.put place (.file (f .empty))
  | _ => .error .isDirectory

def write (t : FileTree) (path : String) (text : String) : Except FileError FileTree :=
  t.update path fun _ => text.toUTF8

def append (t : FileTree) (path : String) (text : String) : Except FileError FileTree :=
  t.update path (· ++ text.toUTF8)

/-- Removes an empty directory. Its path has to end in a name. -/
def removeDirectory (t : FileTree) (path : String) : Except FileError FileTree := do
  match ← t.locateParent path with
  | .root => .error .busy
  | .dot _ => .error .invalidArgument
  | .doubleDot _ => .error .notEmpty
  | .named place _ =>
    match ← t.lookUp place with
    | none => .error .notFound
    | some (.file _) => .error .notDirectory
    | some .directory => if t.isEmptyAt place then return t.remove place else .error .notEmpty

/-- Removes a file, or a directory with all that lies in it; false if there is nothing to remove. A directory
is emptied first, and stays if its path then leads nowhere any more. -/
def delete (t : FileTree) (path : String) : Except FileError Bool × FileTree :=
  match t.locate path with
  | .error .notFound => (.ok false, t)
  | .error e => (.error e, t)
  | .ok place =>
    if t.isDirectoryAt place then
      let emptied := t.clear place
      match emptied.removeDirectory path with
      | .ok removed => (.ok true, removed)
      | .error .notFound => (.ok true, emptied)
      | .error e => (.error e, emptied)
    else (.ok true, t.remove place)

/-- Whether one entry may take the place of another. -/
def checkReplacement (t : FileTree) (entry : FileEntry) (place : Place) : Except FileError Unit :=
  match t.entryAt? place, entry.isDirectory with
  | some (.file _), true => .error .notDirectory
  | some .directory, false => .error .isDirectory
  | some .directory, true => if t.isEmptyAt place then .ok () else .error .notEmpty
  | _, _ => .ok ()

/-- Gives an entry another path. -/
def rename (t : FileTree) (path target : String) : Except FileError FileTree := do
  checkText path
  checkText target
  let source ← t.locateParent path
  let destination ← t.locateParent target
  match source, destination with
  | .named old oldSlash, .named new newSlash =>
    match ← t.lookUp old with
    | none => .error .notFound
    | some entry =>
      let _ ← t.lookUp new
      if !entry.isDirectory && (oldSlash || newSlash) then .error .notDirectory
      else if old == new then return t
      else if old.isPrefixOf new then .error .invalidArgument
      else if new.isPrefixOf old then .error .notEmpty
      else
        t.checkReplacement entry new
        return (t.remove new).move old new
  | _, _ => .error .busy

/-- All entries below the working directory, by their names from there on. -/
def contents (t : FileTree) : List (Place × FileEntry) :=
  t.entries.filterMap fun (place, entry) =>
    if t.workingDirectory.isPrefixOf place && place != t.workingDirectory then
      some (place.drop t.workingDirectory.length, entry)
    else none

end FileTree

/-- Why a script cannot be read. -/
inductive SourceError where
  | file (error : FileError)
  | encoding (error : Text.Utf8Error)
  deriving DecidableEq, Repr

def SourceError.message : SourceError → String
  | .file e => e.message
  | .encoding e => e.message

/-- The text of a script. A directory can be opened, but not read as a script. -/
def FileTree.readSource (t : FileTree) (path : String) : Except SourceError String :=
  match t.read path with
  | .error .isDirectory => .error (.file .noDevice)
  | .error e => .error (.file e)
  | .ok content =>
    match Text.decodeUtf8 content with
    | .ok text => .ok text
    | .error e => .error (.encoding e)

end Scriptlet

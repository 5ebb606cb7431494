import Scriptlet.Files.Tree
import Scriptlet.Value.Frame

/-!
# Faults

What can go wrong while a program runs.
-/
namespace Scriptlet

/-- Numeric arguments by the names used in messages. -/
inductive NumericArgument where
  | index (kind : CollectionKind)
  | substringStart
  | substringEnd
  | repeatCount
  | paddingLength
  | position
  deriving DecidableEq, Repr

def NumericArgument.text : NumericArgument → String
  | .index kind => kind.type.text ++ " index"
  | .substringStart => "Substring start"
  | .substringEnd => "Substring end"
  | .repeatCount => "Repeat count"
  | .paddingLength => "Padding length"
  | .position => "Position"

/-- What was tried on a file. -/
inductive FileAction where
  | creation
  | deletion
  | reading
  | writing
  | appending
  | renaming
  | pathResolution
  deriving DecidableEq, Repr

def FileAction.text : FileAction → String
  | .creation => "creation"
  | .deletion => "deletion"
  | .reading => "reading"
  | .writing => "writing"
  | .appending => "appending"
  | .renaming => "renaming"
  | .pathResolution => "path resolution"

/-- The plural of a built-in type. -/
def ValueType.plural : ValueType → String
  | .array => "arrays"
  | .list => "lists"
  | .set => "sets"
  | .string => "strings"
  | .file => "files"
  | t => t.text

inductive Fault where
  | binding (error : BindingError)
  | argumentCount (arity : Arity) (given : Nat)
  | notCallable
  | stackOverflow
  | operandNotNumber
  | operandsNotNumbers
  | moduloByZero
  | breakOutsideLoop
  | continueOutsideLoop
  | superclassNotClass
  | superOutsideSubclass
  | superWithoutInstance
  | undefinedProperty (name : String)
  | undefinedStatic (name : String)
  | noProperties
  | classFieldSet
  | noFields
  | fixedProperties (type : ValueType)
  | undefinedMember (type : ValueType) (name : String)
  | argumentNotNumber (what : NumericArgument) (given : ValueType)
  | indexOutOfBounds (kind : CollectionKind) (index : Int)
  | arraySize (given : String)
  | arrayTooLarge
  | concatMismatch (kind : CollectionKind)
  | notSet (operation : SetMethod)
  | substringRange (first last : Int)
  | repeatCount
  | paddingNotCharacter
  | paddingTooLarge
  | positionOutOfRange
  | file (action : FileAction) (error : FileError)
  | importUnreadable (path : String) (error : SourceError)
  | circularImport (path : String)
  | importBroken (path : String)
  deriving DecidableEq, Repr

namespace Fault

/-- The article and name of a kind of collection. -/
def article : CollectionKind → String
  | .array => "an Array"
  | .list => "a List"
  | .set => "a Set"

def message : Fault → String
  | .binding e => e.message
  | .argumentCount arity given => s!"Expected {arity.text} arguments but got {given}."
  | .notCallable => "Can only call functions and classes."
  | .stackOverflow => "Stack overflow."
  | .operandNotNumber => "Operand must be a number."
  | .operandsNotNumbers => "Operands must be numbers."
  | .moduloByZero => "Modulo by zero."
  | .breakOutsideLoop => "Cannot use 'break' outside of a loop."
  | .continueOutsideLoop => "Cannot use 'continue' outside of a loop."
  | .superclassNotClass => "Superclass must be a class."
  | .superOutsideSubclass => "Cannot use 'super' outside of a subclass."
  | .superWithoutInstance => "Cannot use 'super' without an instance."
  | .undefinedProperty name => s!"Undefined property {name}."
  | .undefinedStatic name => s!"Undefined static method {name}."
  | .noProperties => "Only instances have properties."
  | .classFieldSet => "Cannot set properties on a class."
  | .noFields => "Only class instances have fields."
  | .fixedProperties type => s!"Cannot add properties to {type.plural}."
  | .undefinedMember type name => s!"Undefined {type.text} property {name}."
  | .argumentNotNumber what given => s!"{what.text} must be a number, got {given.text}."
  | .indexOutOfBounds kind index => s!"{kind.type.text} index {index} is out of bounds."
  | .arraySize given => s!"Array size must be a non-negative integer, got {given}."
  | .arrayTooLarge => "Array size too large."
  | .concatMismatch kind =>
    "Argument for " ++ kind.type.text ++ ".concat should be " ++ article kind ++ "."
  | .notSet operation => s!"Cannot call '{operation.name}' with non Set."
  | .substringRange first last => s!"Substring range {first}..{last} is out of bounds."
  | .repeatCount => "Invalid value for String.repeat."
  | .paddingNotCharacter => "The value used for the padding should be a character."
  | .paddingTooLarge => "Padding length too large."
  | .positionOutOfRange => "Position for charAt out of the string length range."
  | .file action e => s!"File {action.text} failed : {e.message}."
  | .importUnreadable path e => s!"Cannot import {path}: {e.message}."
  | .circularImport path => s!"Circular import of {path}."
  | .importBroken path => s!"Error while interpreting file {path}'s content."

end Fault

end Scriptlet

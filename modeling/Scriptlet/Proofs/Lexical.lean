import Scriptlet.Run.Watch

/-!
# Lexical scopes

Which regions of a text lie around a use of a name, and which names are declared there before it. This is said
of texts alone, without the analysis and without a run: the analysis has to find these regions, and a run has
to open a frame for each of them.
-/
namespace Scriptlet

/-! ## Uses of names -/

inductive Access where
  | read
  | assign
  /-- By `this` or `super`. -/
  | keyword
  deriving DecidableEq, Repr

/-- A node that reads or assigns a name. -/
structure Use where
  id : NodeId
  name : String
  access : Access
  deriving DecidableEq, Repr

def Variable.reading (v : Variable) : Use := ⟨v.id, v.name.text, .read⟩

def Variable.assigning (v : Variable) : Use := ⟨v.id, v.name.text, .assign⟩

/-- The name that an expression itself reads: a variable, the receiver or the superclass. -/
def Expr.reading? : Expr → Option Use
  | .variable v => some v.reading
  | .this id _ => some ⟨id, thisName, .keyword⟩
  | .super id _ _ => some ⟨id, superName, .keyword⟩
  | _ => none

namespace Expr

mutual

/-- All uses of names in an expression. -/
def uses : Expr → List Use
  | .literal _ => []
  | .group e => uses e
  | .unary _ _ e => uses e
  | .binary l _ _ r => uses l ++ uses r
  | .logical l _ _ r => uses l ++ uses r
  | .variable v => [v.reading]
  | .assign target e => uses e ++ [target.assigning]
  | .this id _ => [⟨id, thisName, .keyword⟩]
  | .super id _ _ => [⟨id, superName, .keyword⟩]
  | .call f _ args => uses f ++ listUses args
  | .get o _ => uses o
  | .set o _ e => uses e ++ uses o
  | .array es => listUses es

def listUses : List Expr → List Use
  | [] => []
  | e :: es => uses e ++ listUses es

end

def optionUses : Option Expr → List Use
  | none => []
  | some e => uses e

end Expr

namespace Stmt

/-- The uses of names in the expressions of a statement itself, not in statements inside it. -/
def uses : Stmt → List Use
  | .expression e | .print e | .constDecl _ e | .ifThen e _ | .ifElse e _ _ | .doWhile _ e => e.uses
  | .letDecl _ init | .returnValue _ init => Expr.optionUses init
  | .whileLoop c _ inc => c.uses ++ Expr.optionUses inc
  | .classDecl _ superclass _ _ => superclass.toList.map Variable.reading
  | .block _ | .function _ | .breakLoop _ | .continueLoop _ | .importFile .. => []

/-- The name that a statement declares in the region it stands in. -/
def declared? : Stmt → Option Name
  | .letDecl name _ | .constDecl name _ | .classDecl name .. => some name
  | .function d => some d.name
  | _ => none

/-- The statement declares a variable of this name, with an initial value. -/
def Initializes (s : Stmt) (name : String) : Prop :=
  ∃ n : Name, n.text = name ∧ ((∃ init, s = .letDecl n init) ∨ ∃ init, s = .constDecl n init)

/-- The statements that a statement chooses from or repeats. -/
def branches : Stmt → List Stmt
  | .ifThen _ t => [t]
  | .ifElse _ t e => [t, e]
  | .whileLoop _ body _ | .doWhile body _ => [body]
  | _ => []

/-- The statements that the rule for a statement executes. -/
def parts : Stmt → List Stmt
  | .block body => body
  | s => s.branches

end Stmt

/-! ## Regions around a part of a text -/

/-- A region around a part of a text, with the names that it declares before that part. A name is marked
`false` in its own initializer. -/
structure Layer where
  region : Region
  names : Scope

namespace Layer

def block (body : List Stmt) : Layer := ⟨.block body, ∅⟩

/-- The parameters are declared from the start. -/
def routine (d : FunctionDecl) : Layer := ⟨.routine d, d.params.foldl (fun names p => names.insert p.text true) ∅⟩

def receiver (method : FunctionDecl) : Layer := ⟨.receiver method, Table.empty.insert thisName true⟩

def superclass (declaration : Stmt) : Layer := ⟨.superclass declaration, Table.empty.insert superName true⟩

def statics (declaration : Stmt) : Layer := ⟨.statics declaration, ∅⟩

end Layer

namespace Layers

/-- Marks a name in the innermost region. What stands outside of all regions is global. -/
def mark (name : String) (defined : Bool) : List Layer → List Layer
  | [] => []
  | layer :: outer => { layer with names := layer.names.insert name defined } :: outer

/-- Behind a statement the name that it declares is known. -/
def after (s : Stmt) (layers : List Layer) : List Layer :=
  match s.declared? with
  | none => layers
  | some name => mark name.text true layers

/-- In its initializer a variable is announced. -/
def inside (s : Stmt) (layers : List Layer) : List Layer :=
  match s with
  | .letDecl name _ | .constDecl name _ => mark name.text false layers
  | _ => layers

/-- The regions around the methods of a class. -/
def ofClass (name : Name) (superclass : Option Variable) (methods statics : List FunctionDecl)
    (layers : List Layer) : List Layer :=
  let outer := mark name.text true layers
  match superclass with
  | none => outer
  | some _ => Layer.superclass (.classDecl name superclass methods statics) :: outer

/-- The names declared around, innermost first. -/
def scopes (layers : List Layer) : List Scope := layers.map Layer.names

/-- The innermost layer that declares the name, with `d` layers inside it. -/
def Nearest (name : String) (layers : List Layer) (d : Nat) (layer : Layer) : Prop :=
  layers[d]? = some layer ∧ layer.names.contains name ∧
    ∀ k < d, ∀ inner, layers[k]? = some inner → inner.names.contains name = false

end Layers

/-- A part of a text. -/
inductive Part where
  /-- Statements one after another, up to the end of the region. -/
  | statements (ss : List Stmt)
  | statement (s : Stmt)
  | use (u : Use)

open Layers in
/-- The part stands in the text, with the given regions around it. -/
inductive Placed (text : List Stmt) : List Layer → Part → Prop where
  | whole : Placed text [] (.statements text)
  | first {layers s ss} : Placed text layers (.statements (s :: ss)) → Placed text layers (.statement s)
  | rest {layers s ss} : Placed text layers (.statements (s :: ss)) →
    Placed text (after s layers) (.statements ss)
  | branch {layers s t} : Placed text layers (.statement s) → t ∈ s.branches →
    Placed text layers (.statement t)
  | block {layers body} : Placed text layers (.statement (.block body)) →
    Placed text (.block body :: layers) (.statements body)
  | function {layers d} : Placed text layers (.statement (.function d)) →
    Placed text (.routine d :: mark d.name.text true layers) (.statements d.body)
  | method {layers name superclass methods statics d} :
    Placed text layers (.statement (.classDecl name superclass methods statics)) → d ∈ methods →
    Placed text (.routine d :: .receiver d :: ofClass name superclass methods statics layers)
      (.statements d.body)
  | static {layers name superclass methods statics d} :
    Placed text layers (.statement (.classDecl name superclass methods statics)) → d ∈ statics →
    Placed text
      (.routine d :: .statics (.classDecl name superclass methods statics) ::
        ofClass name superclass methods statics layers)
      (.statements d.body)
  | use {layers s u} : Placed text layers (.statement s) → u ∈ s.uses →
    Placed text (inside s layers) (.use u)

end Scriptlet

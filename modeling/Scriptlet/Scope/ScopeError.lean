/-!
# Errors of scope

Violations of the rules on names, `return`, `this` and `super` that show in the text alone.
-/
namespace Scriptlet

inductive ScopeError where
  | alreadyDeclared (name : String)
  | ownInitializer
  | selfInheritance
  | staticInitializer
  | returnOutsideFunction
  | returnFromInitializer
  | thisOutsideClass
  | thisInStatic
  | superOutsideClass
  | superWithoutSuperclass
  | superInStatic
  deriving DecidableEq, Repr

def ScopeError.message : ScopeError → String
  | .alreadyDeclared name => s!"Variable {name} is already declared in this scope."
  | .ownInitializer => "Cannot read local variable in its own initializer."
  | .selfInheritance => "A class cannot inherit from itself."
  | .staticInitializer => "A static method cannot be an initializer."
  | .returnOutsideFunction => "Cannot return from top-level code."
  | .returnFromInitializer => "Cannot return a value from an initializer."
  | .thisOutsideClass => "Cannot use 'this' outside of a class."
  | .thisInStatic => "Cannot use 'this' in a static method."
  | .superOutsideClass => "Cannot use 'super' outside of a class."
  | .superWithoutSuperclass => "Cannot use 'super' in a class with no superclass."
  | .superInStatic => "Cannot use 'super' in a static method."

end Scriptlet

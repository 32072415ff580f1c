import MatrixScript.Bindings
import MatrixScript.Descriptor

/-!
# Scopes

A scope chain is the list of scopes that enclose a place in a program, from the
innermost out.  A name means what the innermost scope with that name says.
-/

namespace MatrixScript

/-- The names that one scope declares. -/
abbrev Scope := Bindings Descriptor

/-- The scopes around a place, from the innermost out; there is at least one. -/
structure ScopeChain where
  inner : Scope
  outer : List Scope

namespace ScopeChain

/-- A single scope without names. -/
def root : ScopeChain := ⟨.empty, []⟩

/-- The scopes from the innermost out. -/
def scopes (chain : ScopeChain) : List Scope :=
  chain.inner :: chain.outer

/-- The chain with a new innermost scope. -/
def enter (chain : ScopeChain) : ScopeChain :=
  ⟨.empty, chain.scopes⟩

/-- The chain without its innermost scope; a root scope stays. -/
def leave (chain : ScopeChain) : ScopeChain :=
  match chain.outer with
  | [] => chain
  | next :: rest => ⟨next, rest⟩

/-- Declare a name in the innermost scope. -/
def put (chain : ScopeChain) (name : String) (descriptor : Descriptor) : ScopeChain :=
  { chain with inner := chain.inner.insert name descriptor }

/-- What a name means. -/
def get? (chain : ScopeChain) (name : String) : Option Descriptor :=
  chain.scopes.findSome? fun scope => scope.get? name

/-- The names of some scopes, inner ones first and each once. -/
def namesOf : List Scope → List String
  | [] => []
  | scope :: rest =>
      scope.names ++ (namesOf rest).filter fun name => !scope.names.contains name

/-- Every name with a meaning, inner scopes first. -/
def visibleNames (chain : ScopeChain) : List String :=
  namesOf chain.scopes

@[simp]
theorem leave_enter (chain : ScopeChain) : chain.enter.leave = chain := rfl

end ScopeChain

end MatrixScript

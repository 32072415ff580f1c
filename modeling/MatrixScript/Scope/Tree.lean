import MatrixScript.Scope

/-!
# Trees of scopes

All scopes of a program form a tree.  Scopes are numbered in the order in which they
were opened; the root has number zero.  The scopes on the way from a scope to the root
are its chain, and a name means in a scope what it means in that chain.
-/

namespace MatrixScript

/-- A scope that was opened inside another. -/
structure ScopeNode where
  parent : Nat
  scope : Scope

/-- The root scope, and the scopes opened after it. -/
structure ScopeTree where
  root : Scope
  nodes : List ScopeNode

namespace ScopeTree

/-- A tree of one scope without names. -/
def empty : ScopeTree := ⟨.empty, []⟩

/-- The number of scopes. -/
def size (tree : ScopeTree) : Nat :=
  tree.nodes.length + 1

/-- Open a scope inside another; its number is the size of the tree before. -/
def addChild (tree : ScopeTree) (parent : Nat) : ScopeTree :=
  { tree with nodes := tree.nodes ++ [⟨parent, .empty⟩] }

/-- The scope around a scope. -/
def parent? (tree : ScopeTree) (number : Nat) : Option Nat :=
  match number with
  | 0 => none
  | place + 1 => tree.nodes[place]?.map ScopeNode.parent

/-- The names that a scope declares. -/
def scopeAt (tree : ScopeTree) (number : Nat) : Scope :=
  match number with
  | 0 => tree.root
  | place + 1 => (tree.nodes[place]?.map ScopeNode.scope).getD .empty

/-- Declare a name in a scope. -/
def put (tree : ScopeTree) (number : Nat) (name : String) (descriptor : Descriptor) :
    ScopeTree :=
  match number with
  | 0 => { tree with root := tree.root.insert name descriptor }
  | place + 1 =>
      { tree with
        nodes := tree.nodes.modify place fun node =>
          { node with scope := node.scope.insert name descriptor } }

/-- The scopes around a scope, at most `fuel` of them. -/
def ancestors (tree : ScopeTree) : Nat → Nat → List Scope
  | 0, _ => []
  | fuel + 1, number =>
      match tree.parent? number with
      | none => []
      | some parent => tree.scopeAt parent :: tree.ancestors fuel parent

/-- The chain of a scope.  A scope is opened after its parent, so its number bounds the way. -/
def chain (tree : ScopeTree) (number : Nat) : ScopeChain :=
  ⟨tree.scopeAt number, tree.ancestors number number⟩

/-- What a name means in a scope. -/
def get? (tree : ScopeTree) (number : Nat) (name : String) : Option Descriptor :=
  (tree.chain number).get? name

/-- Every name with a meaning in a scope, inner scopes first. -/
def visibleNames (tree : ScopeTree) (number : Nat) : List String :=
  (tree.chain number).visibleNames

end ScopeTree

end MatrixScript

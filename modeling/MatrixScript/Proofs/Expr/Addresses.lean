import Mathlib.Data.List.Forall2
import MatrixScript.Proofs.Expr.Layout
import MatrixScript.Proofs.Node

/-!
# Addresses of nodes

A place in a program is given by its address: the way down to it from the node around it.  One
place is inside another just if its address continues that of the other.

Which span belongs to which node is up to the program, and nodes may share a span.  So a span
alone does not tell a place; `Expr.Alike` compares expressions that differ in nothing but
their spans, and an address means the same place in all of them.
-/

namespace MatrixScript

/-! ## Addresses -/

/-- The way from a node down to another: which child to go to, each time. -/
abbrev Address := List Nat

/-- Neither of the two places is inside the other, and they are not the same. -/
def Address.Apart (first second : Address) : Prop :=
  ¬ first <+: second ∧ ¬ second <+: first

namespace Node

/-- The node at an address. -/
def at? : Node → Address → Option Node
  | node, [] => some node
  | node, place :: rest =>
      match node.children[place]? with
      | some child => child.at? rest
      | none => none

/-- The diagnostic has the span of the node at the address. -/
def RaisedAt (node : Node) (site : Address) (diagnostic : Diagnostic) : Prop :=
  ∃ inner, node.at? site = some inner ∧ diagnostic.span = inner.span

end Node

/-- A place inside one of several nodes: which of them, and where in it. -/
structure Branch where
  place : Nat
  rest : Address

namespace Branch

/-- The place as one inside the node around the several nodes. -/
def address (branch : Branch) : Address :=
  branch.place :: branch.rest

/-- The same place if there is one more node in front. -/
def next (branch : Branch) : Branch :=
  ⟨branch.place + 1, branch.rest⟩

/-- The diagnostic has the span of the node at the place. -/
def Raised (nodes : List Node) (branch : Branch) (diagnostic : Diagnostic) : Prop :=
  ∃ node, nodes[branch.place]? = some node ∧ node.RaisedAt branch.rest diagnostic

/-- Neither of the two places is inside the other, and they are not the same. -/
def Apart (first second : Branch) : Prop :=
  first.place = second.place → first.rest.Apart second.rest

theorem address_apart {first second : Branch} (apart : first.Apart second) :
    first.address.Apart second.address := by
  constructor
  · intro inside
    rcases List.cons_prefix_cons.mp inside with ⟨same, deeper⟩
    exact (apart same).1 deeper
  · intro inside
    rcases List.cons_prefix_cons.mp inside with ⟨same, deeper⟩
    exact (apart same.symm).2 deeper

theorem raisedAt_address {node : Node} {branch : Branch} {diagnostic : Diagnostic}
    (raised : Raised node.children branch diagnostic) :
    node.RaisedAt branch.address diagnostic := by
  rcases raised with ⟨child, isChild, inner, found, same⟩
  refine ⟨inner, ?_, same⟩
  simp only [address, Node.at?, isChild, found]

/-- The places in a first node and those in the nodes behind it, as places in all of them. -/
def joined (sites : List Address) (branches : List Branch) : List Branch :=
  sites.map (Branch.mk 0) ++ branches.map next

variable {sites : List Address} {branches : List Branch}

theorem joined_eq_nil_iff : joined sites branches = [] ↔ sites = [] ∧ branches = [] := by
  simp [joined]

theorem length_joined : (joined sites branches).length = sites.length + branches.length := by
  simp [joined]

theorem next_apart (apart : branches.Pairwise Apart) : (branches.map next).Pairwise Apart := by
  refine List.pairwise_map.mpr (apart.imp ?_)
  intro first second apart same
  exact apart (Nat.succ.inj same)

theorem joined_apart (inFirst : sites.Pairwise Address.Apart)
    (behind : branches.Pairwise Apart) : (joined sites branches).Pairwise Apart := by
  refine List.pairwise_append.mpr ⟨?_, next_apart behind, ?_⟩
  · refine List.pairwise_map.mpr (inFirst.imp ?_)
    intro first second apart _
    exact apart
  · intro first inSites second inBranches same
    rcases List.mem_map.mp inSites with ⟨site, _, rfl⟩
    rcases List.mem_map.mp inBranches with ⟨branch, _, rfl⟩
    cases same

variable {node : Node} {nodes : List Node} {diagnostics others : List Diagnostic}

theorem next_raised (raised : List.Forall₂ (Raised nodes) branches diagnostics) :
    List.Forall₂ (Raised (node :: nodes)) (branches.map next) diagnostics :=
  List.forall₂_map_left_iff.mpr raised

theorem joined_raised (inFirst : List.Forall₂ node.RaisedAt sites diagnostics)
    (behind : List.Forall₂ (Raised nodes) branches others) :
    List.Forall₂ (Raised (node :: nodes)) (joined sites branches) (diagnostics ++ others) := by
  refine List.rel_append (List.forall₂_map_left_iff.mpr ?_) (next_raised behind)
  exact inFirst.imp fun site diagnostic raised => ⟨node, rfl, raised⟩

end Branch

/-! ## Leaves -/

mutual

/-- The number of literals and variables, where a reference or a call counts at least once. -/
def Expr.leaves : Expr → Nat
  | .int _ _ | .float _ _ | .string _ _ | .var _ _ => 1
  | .vector _ elements => max 1 (Expr.leavesOfAll elements)
  | .matrix _ rows => max 1 (Row.leavesOfAll rows)
  | .reference _ _ coordinates => max 1 (Expr.leavesOfAll coordinates)
  | .call _ _ arguments => max 1 (Expr.leavesOfAll arguments)
  | .binary _ left _ right => left.leaves + right.leaves
  | .compare _ left _ right => left.leaves + right.leaves
  | .unary _ _ operand => operand.leaves

/-- The number of leaves of several expressions. -/
def Expr.leavesOfAll : List Expr → Nat
  | [] => 0
  | head :: tail => head.leaves + Expr.leavesOfAll tail

/-- The number of leaves of the cells of several rows. -/
def Row.leavesOfAll : List Row → Nat
  | [] => 0
  | .mk _ cells :: tail => Expr.leavesOfAll cells + Row.leavesOfAll tail

end

theorem Expr.leaves_pos (expr : Expr) : 1 ≤ expr.leaves := by
  induction expr with
  | int => exact Nat.le_refl 1
  | float => exact Nat.le_refl 1
  | string => exact Nat.le_refl 1
  | var => exact Nat.le_refl 1
  | vector => exact Nat.le_max_left 1 _
  | matrix => exact Nat.le_max_left 1 _
  | reference => exact Nat.le_max_left 1 _
  | call => exact Nat.le_max_left 1 _
  | binary span left op right leftPos rightPos => exact Nat.le_add_right_of_le leftPos
  | compare span left op right leftPos rightPos => exact Nat.le_add_right_of_le leftPos
  | unary span op operand pos => exact pos

/-! ## Expressions that differ in their spans -/

namespace Expr

/-- The expressions are the same up to spans. -/
def Alike (first second : Expr) : Prop :=
  first.bare = second.bare

/-- The expressions in the two lists are the same up to spans. -/
def AllAlike (first second : List Expr) : Prop :=
  bareAll first = bareAll second

variable {chain : ScopeChain}

theorem AllAlike.length_eq {first second : List Expr} (alike : AllAlike first second) :
    first.length = second.length := by
  rw [AllAlike, bareAll_eq_map, bareAll_eq_map] at alike
  simpa using congrArg List.length alike

theorem AllAlike.of_cons {others : List Expr} {head : Expr} {tail : List Expr}
    (alike : AllAlike others (head :: tail)) :
    ∃ first rest, others = first :: rest ∧ first.Alike head ∧ AllAlike rest tail := by
  cases others with
  | nil => cases alike
  | cons first rest =>
      rw [AllAlike, bareAll, bareAll, List.cons.injEq] at alike
      exact ⟨first, rest, rfl, alike.1, alike.2⟩

theorem AllAlike.of_nil {others : List Expr} (alike : AllAlike others []) : others = [] :=
  List.length_eq_zero_iff.mp alike.length_eq

namespace Alike

variable {first second other : Expr} {span : Span}

theorem literal?_eq (alike : first.Alike second) : first.literal? = second.literal? := by
  have kept (expr : Expr) : expr.bare.literal? = expr.literal? := by
    cases expr <;> rfl
  rw [← kept first, ← kept second, alike]

theorem check_bare_eq (alike : first.Alike second) :
    (first.check chain).bare = (second.check chain).bare := by
  rw [← check_bare, ← check_bare, alike]

theorem check_result (alike : first.Alike second) :
    (first.check chain).result = (second.check chain).result := by
  show (first.check chain).bare.result = (second.check chain).bare.result
  rw [alike.check_bare_eq]

theorem of_var {name : String} (alike : other.Alike (.var span name)) :
    ∃ span, other = .var span name := by
  cases other with
  | var span other =>
      cases alike
      exact ⟨span, rfl⟩
  | _ => cases alike

theorem of_reference {name : Located String} {coordinates : List Expr}
    (alike : other.Alike (.reference span name coordinates)) :
    ∃ span place places, other = .reference span ⟨name.item, place⟩ places ∧
      AllAlike places coordinates := by
  cases other with
  | reference span word places =>
      rw [Alike, bare, bare, Expr.reference.injEq, Located.mk.injEq] at alike
      rcases word with ⟨item, place⟩
      rcases alike with ⟨_, ⟨rfl, _⟩, same⟩
      exact ⟨span, place, places, rfl, same⟩
  | _ => cases alike

theorem of_call {builtin : Builtin} {arguments : List Expr}
    (alike : other.Alike (.call span builtin arguments)) :
    ∃ span sizes, other = .call span builtin sizes ∧ AllAlike sizes arguments := by
  cases other with
  | call span name sizes =>
      rw [Alike, bare, bare, Expr.call.injEq] at alike
      rcases alike with ⟨_, rfl, same⟩
      exact ⟨span, sizes, rfl, same⟩
  | _ => cases alike

theorem of_binary {left right : Expr} {op : BinaryOp}
    (alike : other.Alike (.binary span left op right)) :
    ∃ span first second, other = .binary span first op second ∧ first.Alike left ∧
      second.Alike right := by
  cases other with
  | binary span first sign second =>
      rw [Alike, bare, bare, Expr.binary.injEq] at alike
      rcases alike with ⟨_, sameLeft, rfl, sameRight⟩
      exact ⟨span, first, second, rfl, sameLeft, sameRight⟩
  | _ => cases alike

theorem of_compare {left right : Expr} {op : Comparison}
    (alike : other.Alike (.compare span left op right)) :
    ∃ span first second, other = .compare span first op second ∧ first.Alike left ∧
      second.Alike right := by
  cases other with
  | compare span first sign second =>
      rw [Alike, bare, bare, Expr.compare.injEq] at alike
      rcases alike with ⟨_, sameLeft, rfl, sameRight⟩
      exact ⟨span, first, second, rfl, sameLeft, sameRight⟩
  | _ => cases alike

theorem of_unary {operand : Expr} {op : UnaryOp}
    (alike : other.Alike (.unary span op operand)) :
    ∃ span inner, other = .unary span op inner ∧ inner.Alike operand := by
  cases other with
  | unary span sign inner =>
      rw [Alike, bare, bare, Expr.unary.injEq] at alike
      rcases alike with ⟨_, rfl, same⟩
      exact ⟨span, inner, rfl, same⟩
  | _ => cases alike

end Alike

end Expr

end MatrixScript

import Mathlib.Data.List.Basic
import MatrixScript.Scope.Tree
import MatrixScript.Proofs.Bindings

/-!
# Histories of scope trees

A tree is built by opening scopes and by declaring names in them, in any order.  What
a name means in a scope can be read off that history: it is the latest declaration of the
name in the nearest scope on the way to the root that has one.

So a declaration in one scope can be seen in another only if it is made on the way from
there to the root, and if no scope before it on that way declares the name.
-/

namespace MatrixScript.ScopeTree

/-! ## Histories -/

/-- What can be done to a tree. -/
inductive Action where
  | addChild (parent : Nat)
  | put (number : Nat) (name : String) (descriptor : Descriptor)
deriving DecidableEq

/-- The scope in which something is done. -/
def Action.scope : Action → Nat
  | .addChild parent => parent
  | .put number _ _ => number

/-- The parent of the scope that is opened. -/
def Action.opens? : Action → Option Nat
  | .addChild parent => some parent
  | .put _ _ _ => none

/-- What is declared for a name in a scope. -/
def Action.declares? (number : Nat) (name : String) : Action → Option Descriptor
  | .addChild _ => none
  | .put scope declared descriptor =>
      if scope = number ∧ declared = name then some descriptor else none

/-- The tree after an action. -/
def step (tree : ScopeTree) : Action → ScopeTree
  | .addChild parent => tree.addChild parent
  | .put number name descriptor => tree.put number name descriptor

/-- The tree after some actions, from the first on. -/
def run (tree : ScopeTree) (actions : List Action) : ScopeTree :=
  actions.foldl step tree

/-- Every action is done in a scope that the tree has by then. -/
def Possible (tree : ScopeTree) : List Action → Prop
  | [] => True
  | action :: actions => action.scope < tree.size ∧ Possible (tree.step action) actions

instance decidablePossible (tree : ScopeTree) :
    (actions : List Action) → Decidable (Possible tree actions)
  | [] => .isTrue trivial
  | action :: actions =>
      have := decidablePossible (tree.step action) actions
      inferInstanceAs (Decidable (action.scope < tree.size ∧ Possible (tree.step action) actions))

/-! ## What a history says -/

/-- The parent of a scope: scopes have their numbers in the order in which they were opened. -/
def parentIn (actions : List Action) : Nat → Option Nat
  | 0 => none
  | place + 1 => (actions.filterMap Action.opens?)[place]?

/-- The scopes from a scope to the root. -/
inductive Path (actions : List Action) : Nat → List Nat → Prop
  | root : Path actions 0 [0]
  | up {number parent : Nat} {path : List Nat} (opened : parentIn actions number = some parent)
      (rest : Path actions parent path) : Path actions number (number :: path)

/-- The name was declared in the scope. -/
def Declared (actions : List Action) (number : Nat) (name : String) : Prop :=
  ∃ descriptor, .put number name descriptor ∈ actions

/-- The latest declaration of a name in a scope. -/
def LastPut (actions : List Action) (number : Nat) (name : String) (descriptor : Descriptor) :
    Prop :=
  ∃ before after, actions = before ++ .put number name descriptor :: after ∧
    ¬ Declared after number name

/-- The latest declaration of a name in a scope, if there is one. -/
def lastPut? (actions : List Action) (number : Nat) (name : String) : Option Descriptor :=
  actions.reverse.findSome? (Action.declares? number name)

variable {actions : List Action} {tree : ScopeTree} {number : Nat} {name : String}
  {descriptor : Descriptor}

theorem Action.declares?_eq_some_iff {action : Action} :
    action.declares? number name = some descriptor ↔ action = .put number name descriptor := by
  cases action with
  | addChild parent => simp [declares?]
  | put scope declared found => simp [declares?, and_assoc]

theorem Action.declares?_eq_none_iff {action : Action} :
    action.declares? number name = none ↔ ∀ descriptor, action ≠ .put number name descriptor := by
  simp [Option.eq_none_iff_forall_ne_some, declares?_eq_some_iff]

theorem Action.declares?_put_of_ne {scope : Nat} {declared : String}
    (different : number ≠ scope ∨ declared ≠ name) :
    Action.declares? number name (.put scope declared descriptor) = none := by
  rw [declares?, if_neg]
  rintro ⟨rfl, rfl⟩
  rcases different with impossible | impossible <;> exact impossible rfl

theorem lastPut?_append (actions : List Action) (action : Action) (number : Nat) (name : String) :
    lastPut? (actions ++ [action]) number name =
      (action.declares? number name).or (lastPut? actions number name) := by
  rw [lastPut?, List.reverse_append, List.reverse_singleton, List.singleton_append,
    List.findSome?_cons]
  cases action.declares? number name <;> rfl

theorem lastPut?_eq_none_iff :
    lastPut? actions number name = none ↔ ¬ Declared actions number name := by
  simp only [lastPut?, List.findSome?_eq_none_iff, Action.declares?_eq_none_iff, List.mem_reverse,
    Declared, not_exists]
  constructor
  · intro none descriptor member
    exact none _ member descriptor rfl
  · rintro none action member descriptor rfl
    exact none descriptor member

theorem lastPut?_eq_some_iff :
    lastPut? actions number name = some descriptor ↔ LastPut actions number name descriptor := by
  rw [lastPut?, List.findSome?_eq_some_iff]
  constructor
  · rintro ⟨later, action, earlier, split, declares, silent⟩
    refine ⟨earlier.reverse, later.reverse, ?_, ?_⟩
    · rw [← Action.declares?_eq_some_iff.mp declares, ← List.reverse_inj, split]
      simp
    · rw [← lastPut?_eq_none_iff, lastPut?, List.reverse_reverse, List.findSome?_eq_none_iff]
      exact silent
  · rintro ⟨before, after, rfl, silent⟩
    refine ⟨after.reverse, _, before.reverse, by simp, Action.declares?_eq_some_iff.mpr rfl, ?_⟩
    rw [← lastPut?_eq_none_iff, lastPut?, List.findSome?_eq_none_iff] at silent
    exact silent

/-! ## Trees agree with their histories -/

/-- The tree has the scopes that were opened, with the latest declarations in them. -/
structure Agrees (actions : List Action) (tree : ScopeTree) : Prop where
  parents : tree.nodes.map ScopeNode.parent = actions.filterMap Action.opens?
  below : ∀ number parent, tree.parent? number = some parent → parent < number
  scopes : ∀ number name, (tree.scopeAt number).get? name = lastPut? actions number name

theorem scopeAt_addChild (tree : ScopeTree) (parent number : Nat) :
    (tree.addChild parent).scopeAt number = tree.scopeAt number := by
  cases number with
  | zero => rfl
  | succ place =>
      rw [scopeAt, scopeAt, addChild, List.getElem?_append]
      split
      · rfl
      · rename_i outside
        -- The new scope has no names, and neither has a scope that is not there.
        rw [List.getElem?_eq_none (Nat.le_of_not_lt outside)]
        cases place - tree.nodes.length <;> rfl

theorem scopeAt_put {scope : Nat} (inside : scope < tree.size) (name : String)
    (descriptor : Descriptor) (number : Nat) :
    (tree.put scope name descriptor).scopeAt number =
      if scope = number then (tree.scopeAt number).insert name descriptor
      else tree.scopeAt number := by
  cases scope with
  | zero => cases number <;> rfl
  | succ place =>
      cases number with
      | zero => rfl
      | succ other =>
          have there : place < tree.nodes.length := Nat.lt_of_succ_lt_succ inside
          rw [put, scopeAt, scopeAt, List.getElem?_modify]
          by_cases same : place = other
          · subst same
            simp [List.getElem?_eq_getElem there]
          · simp [same]

theorem parents_put (tree : ScopeTree) (scope : Nat) (name : String) (descriptor : Descriptor) :
    (tree.put scope name descriptor).nodes.map ScopeNode.parent =
      tree.nodes.map ScopeNode.parent := by
  cases scope with
  | zero => rfl
  | succ place =>
      apply List.ext_getElem?
      intro other
      rw [List.getElem?_map, List.getElem?_map, put, List.getElem?_modify]
      cases tree.nodes[other]? with
      | none => rfl
      | some node =>
          by_cases same : place = other <;> simp [same]

theorem parent?_succ (tree : ScopeTree) (place : Nat) :
    tree.parent? (place + 1) = (tree.nodes.map ScopeNode.parent)[place]? := by
  rw [parent?, List.getElem?_map]

theorem parent?_put (tree : ScopeTree) (scope : Nat) (name : String) (descriptor : Descriptor)
    (number : Nat) : (tree.put scope name descriptor).parent? number = tree.parent? number := by
  cases number with
  | zero => rfl
  | succ place => rw [parent?_succ, parent?_succ, parents_put]

theorem parent?_addChild {parent found : Nat}
    (has : (tree.addChild parent).parent? number = some found) :
    tree.parent? number = some found ∨ number = tree.size ∧ found = parent := by
  cases number with
  | zero => cases has
  | succ place =>
      rw [parent?_succ, addChild, List.map_append, List.getElem?_append, List.length_map] at has
      split at has
      · exact .inl (by rwa [parent?_succ])
      · rename_i outside
        rcases Nat.eq_zero_or_pos (place - tree.nodes.length) with next | beyond
        · rw [next] at has
          cases has
          exact .inr ⟨by rw [size]; omega, rfl⟩
        · rw [List.getElem?_eq_none (Nat.succ_le_of_lt beyond)] at has
          cases has

theorem agrees_empty : Agrees [] empty := by
  refine ⟨rfl, ?_, ?_⟩
  · intro number parent has
    cases number <;> cases has
  · intro number name
    cases number <;> rfl

/-- An action in a scope of the tree is one more action of its history. -/
theorem Agrees.step (agrees : Agrees actions tree) {action : Action}
    (inside : action.scope < tree.size) : Agrees (actions ++ [action]) (tree.step action) := by
  cases action with
  | addChild parent =>
      refine ⟨?_, ?_, ?_⟩
      · simp [ScopeTree.step, addChild, agrees.parents, Action.opens?]
      · intro number found has
        rcases parent?_addChild has with old | ⟨rfl, rfl⟩
        · exact agrees.below number found old
        · exact inside
      · intro number name
        rw [lastPut?_append, ← agrees.scopes]
        exact congrArg (Bindings.get? · name) (scopeAt_addChild tree parent number)
  | put scope declared descriptor =>
      have there : scope < tree.size := inside
      refine ⟨?_, ?_, ?_⟩
      · rw [ScopeTree.step, parents_put, agrees.parents, List.filterMap_append]
        simp [Action.opens?]
      · intro number parent has
        rw [ScopeTree.step, parent?_put] at has
        exact agrees.below number parent has
      · intro number name
        rw [lastPut?_append, ← agrees.scopes, ScopeTree.step, scopeAt_put there, Action.declares?]
        by_cases here : scope = number
        · rw [if_pos here, Bindings.get?_insert]
          by_cases same : declared = name
          · simp [here, same]
          · simp [same, Ne.symm same]
        · simp [here]

theorem Agrees.run {later : List Action} (agrees : Agrees actions tree)
    (possible : Possible tree later) : Agrees (actions ++ later) (tree.run later) := by
  induction later generalizing actions tree with
  | nil => rwa [List.append_nil]
  | cons action later ih =>
      rw [List.append_cons]
      exact ih (agrees.step possible.1) possible.2

/-! ## Paths -/

namespace Agrees

theorem parent?_eq (agrees : Agrees actions tree) (number : Nat) :
    tree.parent? number = parentIn actions number := by
  cases number with
  | zero => rfl
  | succ place => rw [parent?_succ, agrees.parents, parentIn]

/-- Every scope of the tree has a way to the root. -/
theorem exists_path (agrees : Agrees actions tree) (inside : number < tree.size) :
    ∃ path, Path actions number path := by
  induction number using Nat.strongRecOn with
  | ind number ih =>
      cases number with
      | zero => exact ⟨[0], .root⟩
      | succ place =>
          have there : place < tree.nodes.length := Nat.lt_of_succ_lt_succ inside
          have opened : tree.parent? (place + 1) = some tree.nodes[place].parent := by
            rw [parent?, List.getElem?_eq_getElem there, Option.map_some]
          have below := agrees.below _ _ opened
          rcases ih _ below (Nat.lt_trans below inside) with ⟨path, rest⟩
          rw [agrees.parent?_eq] at opened
          exact ⟨_, .up opened rest⟩

/-- Numbers get smaller on the way to the root. -/
theorem path_le (agrees : Agrees actions tree) {path : List Nat} (way : Path actions number path) :
    ∀ scope ∈ path, scope ≤ number := by
  induction way with
  | root => simp
  | up opened rest ih =>
      rw [← agrees.parent?_eq] at opened
      have below := agrees.below _ _ opened
      intro scope member
      rcases List.mem_cons.mp member with rfl | further
      · exact Nat.le_refl _
      · exact Nat.le_trans (ih scope further) (Nat.le_of_lt below)

/-- The chain of a scope has the scopes on its path. -/
theorem scopes_path (agrees : Agrees actions tree) {path : List Nat}
    (way : Path actions number path) {fuel : Nat} (enough : number ≤ fuel) :
    tree.scopeAt number :: tree.ancestors fuel number = path.map tree.scopeAt := by
  induction way generalizing fuel with
  | root => cases fuel <;> rfl
  | up opened rest ih =>
      rw [← agrees.parent?_eq] at opened
      have below := agrees.below _ _ opened
      cases fuel with
      | zero => omega
      | succ fuel =>
          rw [ancestors, opened, List.map_cons]
          exact congrArg _ (ih (by omega))

/-- A name means what was last declared for it in the first scope of the path that has it. -/
theorem get?_eq (agrees : Agrees actions tree) {path : List Nat} (way : Path actions number path)
    (name : String) :
    tree.get? number name = path.findSome? fun scope => lastPut? actions scope name := by
  rw [get?, ScopeChain.get?, ScopeChain.scopes, chain, agrees.scopes_path way (Nat.le_refl _),
    List.findSome?_map]
  exact congrArg (path.findSome? ·) (funext fun scope => agrees.scopes scope name)

theorem path_nodup (agrees : Agrees actions tree) {path : List Nat}
    (way : Path actions number path) : path.Nodup := by
  induction way with
  | root => simp
  | up opened rest ih =>
      rw [← agrees.parent?_eq] at opened
      have below := agrees.below _ _ opened
      refine List.nodup_cons.mpr ⟨fun member => ?_, ih⟩
      exact Nat.not_le_of_lt below (agrees.path_le rest _ member)

end Agrees

theorem Path.exists_cons {path : List Nat} (way : Path actions number path) :
    ∃ rest, path = number :: rest := by
  cases way with
  | root => exact ⟨[], rfl⟩
  | up _ _ => exact ⟨_, rfl⟩

/-- The path of a scope with a parent goes on with the path of the parent. -/
theorem Path.exists_of_parentIn {path : List Nat} {parent : Nat} (way : Path actions number path)
    (opened : parentIn actions number = some parent) :
    ∃ rest, path = number :: rest ∧ Path actions parent rest := by
  cases way with
  | root => cases opened
  | up found rest =>
      rw [opened] at found
      cases found
      exact ⟨_, rfl, rest⟩

/-- Declarations open no scopes. -/
theorem Path.put {path : List Nat} (way : Path actions number path) (scope : Nat) (name : String)
    (descriptor : Descriptor) : Path (actions ++ [.put scope name descriptor]) number path := by
  have same : ∀ number, parentIn (actions ++ [.put scope name descriptor]) number =
      parentIn actions number := by
    intro number
    cases number with
    | zero => rfl
    | succ place =>
        rw [parentIn, parentIn, List.filterMap_append]
        exact congrArg (·[place]?) (List.append_nil _)
  induction way with
  | root => exact .root
  | up opened _ ih => exact .up ((same _).trans opened) ih

/-! ## Declarations seen from other scopes -/

theorem findSome?_congr {α β : Type} {list : List α} {first second : α → Option β}
    (same : ∀ item ∈ list, first item = second item) :
    list.findSome? first = list.findSome? second := by
  induction list with
  | nil => rfl
  | cons head tail ih =>
      rw [List.forall_mem_cons] at same
      rw [List.findSome?_cons, List.findSome?_cons, same.1, ih same.2]

namespace Agrees

variable {scope : Nat} {path inner outer : List Nat}

theorem get?_put (agrees : Agrees actions tree) (inside : scope < tree.size)
    (way : Path actions number path) (name other : String) (descriptor : Descriptor) :
    (tree.put scope name descriptor).get? number other =
      path.findSome? fun found =>
        (Action.declares? found other (.put scope name descriptor)).or
          (lastPut? actions found other) := by
  have after : Agrees (actions ++ [.put scope name descriptor]) (tree.put scope name descriptor) :=
    agrees.step inside
  rw [after.get?_eq (way.put scope name descriptor)]
  simp only [lastPut?_append]

/-- A declaration of another name, or off the path, is not seen. -/
theorem get?_put_of_unseen (agrees : Agrees actions tree) (inside : scope < tree.size)
    (way : Path actions number path) {name other : String} (unseen : other ≠ name ∨ scope ∉ path)
    (descriptor : Descriptor) :
    (tree.put scope name descriptor).get? number other = tree.get? number other := by
  rw [agrees.get?_put inside way, agrees.get?_eq way]
  apply findSome?_congr
  intro found member
  rw [Action.declares?_put_of_ne, Option.none_or]
  rcases unseen with different | off
  · exact .inr different.symm
  · exact .inl fun same => off (same ▸ member)

/-- On the path, a declaration is seen behind the scopes before it. -/
theorem get?_put_of_split (agrees : Agrees actions tree) (inside : scope < tree.size)
    (way : Path actions number (inner ++ scope :: outer)) (name : String)
    (descriptor : Descriptor) :
    (tree.put scope name descriptor).get? number name =
      (inner.findSome? fun found => lastPut? actions found name).or (some descriptor) := by
  have once : scope ∉ inner := fun member =>
    (List.nodup_append.mp (agrees.path_nodup way)).2.2 scope member scope List.mem_cons_self rfl
  have before : (inner.findSome? fun found =>
      (Action.declares? found name (.put scope name descriptor)).or (lastPut? actions found name)) =
        inner.findSome? fun found => lastPut? actions found name := by
    apply findSome?_congr
    intro found member
    have apart : found ≠ scope := by
      rintro rfl
      exact once member
    rw [Action.declares?_put_of_ne (.inl apart), Option.none_or]
  have here : Action.declares? scope name (.put scope name descriptor) = some descriptor :=
    Action.declares?_eq_some_iff.mpr rfl
  rw [agrees.get?_put inside way, List.findSome?_append, before, List.findSome?_cons, here,
    Option.some_or]

theorem findSome?_eq_none_iff {scopes : List Nat} :
    (scopes.findSome? fun found => lastPut? actions found name) = none ↔
      ∀ found ∈ scopes, ¬ Declared actions found name := by
  simp only [List.findSome?_eq_none_iff, lastPut?_eq_none_iff]

/-- A declaration is seen where no scope before it on the path has the name. -/
theorem get?_put_of_free (agrees : Agrees actions tree) (inside : scope < tree.size)
    (way : Path actions number (inner ++ scope :: outer)) {name : String}
    (free : ∀ found ∈ inner, ¬ Declared actions found name) (descriptor : Descriptor) :
    (tree.put scope name descriptor).get? number name = some descriptor := by
  rw [agrees.get?_put_of_split inside way, findSome?_eq_none_iff.mpr free, Option.none_or]

/-- Only such a declaration is seen. -/
theorem free_of_changed (agrees : Agrees actions tree) (inside : scope < tree.size)
    (way : Path actions number path) {name other : String} {descriptor : Descriptor}
    (changed : (tree.put scope name descriptor).get? number other ≠ tree.get? number other) :
    other = name ∧ ∃ inner outer, path = inner ++ scope :: outer ∧
      ∀ found ∈ inner, ¬ Declared actions found name := by
  have seen : ¬ (other ≠ name ∨ scope ∉ path) := fun unseen =>
    changed (agrees.get?_put_of_unseen inside way unseen descriptor)
  rcases not_or.mp seen with ⟨same, onPath⟩
  cases not_not.mp same
  rcases List.mem_iff_append.mp (not_not.mp onPath) with ⟨inner, outer, rfl⟩
  refine ⟨rfl, inner, outer, rfl, findSome?_eq_none_iff.mp ?_⟩
  cases before : inner.findSome? fun found => lastPut? actions found name with
  | none => rfl
  | some hidden =>
      rw [agrees.get?_put_of_split inside way, agrees.get?_eq way, List.findSome?_append,
        before] at changed
      exact absurd rfl changed

/-- Scopes with one parent are not on each other's paths. -/
theorem sibling_not_mem (agrees : Agrees actions tree) (way : Path actions number path)
    {sibling parent : Nat} (different : sibling ≠ number)
    (first : tree.parent? sibling = some parent) (second : tree.parent? number = some parent) :
    sibling ∉ path := by
  have below := agrees.below sibling parent first
  rw [agrees.parent?_eq] at second
  rcases way.exists_of_parentIn second with ⟨rest, rfl, up⟩
  intro member
  rcases List.mem_cons.mp member with same | further
  · exact different same
  · exact Nat.not_le_of_lt below (agrees.path_le up sibling further)

end Agrees

/--
In a tree that was built by any actions, a name means in a scope what was last declared for
it in the nearest scope on the path to the root that declares it.  A declaration changes what
a name means in a scope only if it is a declaration of that name, made on the path and
behind no scope with the name; and then it is what the name means.  So a scope does not
see the declarations of its siblings, and sees later ones of its parent.
-/
theorem nearest_declaration {actions : List Action} {tree : ScopeTree}
    (possible : Possible empty actions) (built : empty.run actions = tree) {number : Nat}
    (inside : number < tree.size) :
    ∃ path, Path actions number path ∧
      (∀ name descriptor, tree.get? number name = some descriptor ↔
        ∃ inner scope outer, path = inner ++ scope :: outer ∧
          (∀ found ∈ inner, ¬ Declared actions found name) ∧
          LastPut actions scope name descriptor) ∧
      (∀ name, tree.get? number name = none ↔ ∀ found ∈ path, ¬ Declared actions found name) ∧
      (∀ scope < tree.size, ∀ name descriptor other,
        (tree.put scope name descriptor).get? number other ≠ tree.get? number other →
          other = name ∧ ∃ inner outer, path = inner ++ scope :: outer ∧
            ∀ found ∈ inner, ¬ Declared actions found name) ∧
      (∀ scope < tree.size, ∀ name descriptor inner outer, path = inner ++ scope :: outer →
        (∀ found ∈ inner, ¬ Declared actions found name) →
          (tree.put scope name descriptor).get? number name = some descriptor) ∧
      (∀ sibling < tree.size, ∀ parent name descriptor other, sibling ≠ number →
        tree.parent? sibling = some parent → tree.parent? number = some parent →
          (tree.put sibling name descriptor).get? number other = tree.get? number other) ∧
      ∀ parent name descriptor, tree.parent? number = some parent →
        ¬ Declared actions number name →
          (tree.put parent name descriptor).get? number name = some descriptor := by
  have agrees : Agrees actions tree := by
    rw [← built]
    exact agrees_empty.run possible
  rcases agrees.exists_path inside with ⟨path, way⟩
  refine ⟨path, way, ?_, ?_, ?_, ?_, ?_, ?_⟩
  · intro name descriptor
    rw [agrees.get?_eq way, List.findSome?_eq_some_iff]
    simp only [lastPut?_eq_some_iff, lastPut?_eq_none_iff, and_comm]
  · intro name
    rw [agrees.get?_eq way, Agrees.findSome?_eq_none_iff]
  · intro scope there name descriptor other changed
    exact agrees.free_of_changed there way changed
  · rintro scope there name descriptor inner outer rfl free
    exact agrees.get?_put_of_free there way free descriptor
  · intro sibling there parent name descriptor other different first second
    have off := agrees.sibling_not_mem way different first second
    exact agrees.get?_put_of_unseen there way (.inr off) descriptor
  · intro parent name descriptor opened free
    have there := Nat.lt_trans (agrees.below number parent opened) inside
    rw [agrees.parent?_eq] at opened
    rcases way.exists_of_parentIn opened with ⟨rest, rfl, up⟩
    rcases up.exists_cons with ⟨outer, rfl⟩
    have onPath : Path actions number ([number] ++ parent :: outer) := way
    exact agrees.get?_put_of_free there onPath (by simpa using free) descriptor

/-- Two branches under the root, one of them with a scope that hides a name. -/
def branches : List Action :=
  [.put 0 "x" (.scalar .int), .addChild 0, .addChild 0, .addChild 1,
    .put 1 "x" (.scalar .string), .put 2 "y" (.scalar .int), .put 1 "x" (.scalar .float)]

/-- The inner scope sees the latest declaration around it, and a later one of its parent. -/
theorem nearest_declaration_branches :
    Possible empty branches ∧ 3 < (empty.run branches).size ∧
      ∃ path, Path branches 3 path ∧
        (empty.run branches).get? 3 "x" = some (.scalar .float) ∧
        (∃ inner scope outer, path = inner ++ scope :: outer ∧
          (∀ found ∈ inner, ¬ Declared branches found "x") ∧
          LastPut branches scope "x" (.scalar .float)) ∧
        ((empty.run branches).put 1 "y" (.scalar .int)).get? 3 "y" = some (.scalar .int) := by
  have possible : Possible empty branches := by decide
  have inside : 3 < (empty.run branches).size := by decide
  rcases nearest_declaration possible rfl inside with ⟨path, way, resolved, _, _, _, _, fromParent⟩
  have known : (empty.run branches).get? 3 "x" = some (.scalar .float) := by rfl
  have free : ¬ Declared branches 3 "y" := by
    rintro ⟨descriptor, member⟩
    simp [branches] at member
  exact ⟨possible, inside, path, way, known, (resolved _ _).mp known, fromParent 1 "y" _ rfl free⟩

end MatrixScript.ScopeTree

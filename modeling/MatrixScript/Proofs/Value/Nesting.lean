import MatrixScript.Proofs.Value.Products

/-!
# Nesting and leaves

An array may hold arrays at any depth, and next to them other things, which are its leaves.
The nesting of a value is what is left of it when the leaves are forgotten; a leaf is
found again by its path, the places that lead to it from the outside in.

An operation place by place descends into two values at once.  It has a result just if they
are nested alike and the operation on numbers succeeds for every two leaves with one path,
and then it changes nothing but the leaves.
-/

namespace MatrixScript

/-- What the arrays in a value look like from the outside in, without the leaves. -/
inductive Nesting where
  | leaf
  | array (parts : List Nesting)

namespace Value

mutual

/-- The nesting of a value. -/
def nesting : Value → Nesting
  | .array items => .array (nestings items)
  | _ => .leaf

/-- The nestings of the values of a list. -/
def nestings : List Value → List Nesting
  | [] => []
  | head :: tail => head.nesting :: nestings tail

end

/-- The part of a value at a path, if there is one. -/
def part? : Value → List Nat → Option Value
  | value, [] => some value
  | .array items, place :: path => items[place]?.bind fun item => item.part? path
  | _, _ :: _ => none

/-- The leaf of a value at a path: a part that is no array. -/
def leaf? (value : Value) (path : List Nat) : Option Value :=
  (value.part? path).filter fun part => !part.isArray

variable {op : Arith} {value left right result : Value} {lefts rights results : List Value}

theorem nesting_eq_leaf_iff : value.nesting = .leaf ↔ value.isArray = false := by
  cases value with
  | array items => simp [nesting, isArray]
  | _ => simp [nesting, isArray]

theorem nesting_cons_eq_iff :
    (Value.array (left :: lefts)).nesting = (Value.array (right :: rights)).nesting ↔
      left.nesting = right.nesting ∧
        (Value.array lefts).nesting = (Value.array rights).nesting := by
  simp only [nesting, nestings, Nesting.array.injEq, List.cons.injEq]

theorem length_eq_of_nesting_eq
    (alike : (Value.array lefts).nesting = (Value.array rights).nesting) :
    lefts.length = rights.length := by
  induction lefts generalizing rights with
  | nil =>
      cases rights with
      | nil => rfl
      | cons right rights => simp [nesting, nestings] at alike
  | cons left lefts ih =>
      cases rights with
      | nil => simp [nesting, nestings] at alike
      | cons right rights =>
          rw [List.length_cons, List.length_cons, ih (nesting_cons_eq_iff.mp alike).2]

/-- A leaf has no leaves but itself. -/
theorem leaf?_leaf (leaf : value.isArray = false) {path : List Nat} {found : Value} :
    value.leaf? path = some found ↔ path = [] ∧ value = found := by
  cases path with
  | nil => simp [leaf?, part?, Option.filter, leaf]
  | cons place path =>
      cases value with
      | array items => cases leaf
      | _ => simp [leaf?, part?]

theorem leaf?_empty (path : List Nat) : (Value.array []).leaf? path = none := by
  cases path with
  | nil => rfl
  | cons place path => rfl

theorem leaf?_head (path : List Nat) :
    (Value.array (left :: lefts)).leaf? (0 :: path) = left.leaf? path :=
  rfl

theorem leaf?_tail (left : Value) (place : Nat) (path : List Nat) :
    (Value.array (left :: lefts)).leaf? ((place + 1) :: path) =
      (Value.array lefts).leaf? (place :: path) :=
  rfl

/-! ## The result of an operation -/

/-- The result of an operation at all leaves of two values that are nested alike. -/
structure Leafwise (op : Arith) (left right result : Value) : Prop where
  alike : left.nesting = right.nesting
  kept : result.nesting = left.nesting
  leaves : ∀ path first second, left.leaf? path = some first → right.leaf? path = some second →
    ∃ leaf, scalar op first second = .ok leaf ∧ result.leaf? path = some leaf

/-- An operation on numbers gives no array, whatever it is applied to. -/
theorem scalar_leaf (computed : scalar op left right = .ok result) : result.isArray = false := by
  have gives : Gives IsNumber (scalar op left right) := by
    unfold scalar
    split
    · exact intArith_yields (fun _ => trivial) _ _
    · split
      · exact floatArith_yields (fun _ => trivial) _ _
      · trivial
  exact (gives_iff.mp gives result computed).not_isArray

theorem elementwise_leaf (leaf : left.isArray = false) :
    elementwise op left right =
      if right.isArray then mismatch left right else scalar op left right := by
  cases left with
  | array items => cases leaf
  | _ => simp only [elementwise]

namespace Leafwise

theorem of_scalar (leftLeaf : left.isArray = false) (rightLeaf : right.isArray = false)
    (computed : scalar op left right = .ok result) : Leafwise op left right result := by
  have resultLeaf := scalar_leaf computed
  refine ⟨?_, ?_, ?_⟩
  · rw [nesting_eq_leaf_iff.mpr leftLeaf, nesting_eq_leaf_iff.mpr rightLeaf]
  · rw [nesting_eq_leaf_iff.mpr resultLeaf, nesting_eq_leaf_iff.mpr leftLeaf]
  · intro path first second firstAt secondAt
    rcases (leaf?_leaf leftLeaf).mp firstAt with ⟨rfl, rfl⟩
    rcases (leaf?_leaf rightLeaf).mp secondAt with ⟨_, rfl⟩
    exact ⟨result, computed, (leaf?_leaf resultLeaf).mpr ⟨rfl, rfl⟩⟩

theorem nil : Leafwise op (.array []) (.array []) (.array []) := by
  refine ⟨rfl, rfl, ?_⟩
  intro path first second firstAt
  rw [leaf?_empty] at firstAt
  cases firstAt

theorem cons (head : Leafwise op left right result)
    (tail : Leafwise op (.array lefts) (.array rights) (.array results)) :
    Leafwise op (.array (left :: lefts)) (.array (right :: rights))
      (.array (result :: results)) := by
  refine ⟨?_, ?_, ?_⟩
  · exact nesting_cons_eq_iff.mpr ⟨head.alike, tail.alike⟩
  · exact nesting_cons_eq_iff.mpr ⟨head.kept, tail.kept⟩
  -- A path into an array leads to its first member, or one place less far into the others.
  · intro path first second firstAt secondAt
    rcases path with _ | ⟨_ | place, path⟩
    · cases firstAt
    · rw [leaf?_head] at firstAt secondAt ⊢
      exact head.leaves path first second firstAt secondAt
    · rw [leaf?_tail] at firstAt secondAt ⊢
      exact tail.leaves (place :: path) first second firstAt secondAt

end Leafwise

mutual

/-- An operation place by place has no result but the one at all leaves. -/
theorem elementwise_leafwise (left : Value) {right result : Value}
    (computed : elementwise op left right = .ok result) : Leafwise op left right result := by
  cases left with
  | array lefts =>
      cases right with
      | array rights =>
          rw [elementwise] at computed
          by_cases same : lefts.length = rights.length
          · rw [if_pos same] at computed
            rcases exists_of_bind computed with ⟨results, combined, computed⟩
            cases computed
            exact elementwiseAll_leafwise lefts same combined
          · rw [if_neg same] at computed
            cases computed
      | _ => cases computed
  | _ =>
      rw [elementwise_leaf rfl] at computed
      cases isArray : right.isArray with
      | true => simp [isArray, mismatch] at computed
      | false =>
          rw [isArray, if_neg (by rintro ⟨⟩)] at computed
          exact .of_scalar rfl isArray computed

theorem elementwiseAll_leafwise (lefts : List Value) {rights results : List Value}
    (same : lefts.length = rights.length)
    (computed : elementwiseAll op lefts rights = .ok results) :
    Leafwise op (.array lefts) (.array rights) (.array results) := by
  cases lefts with
  | nil =>
      cases List.eq_nil_of_length_eq_zero same.symm
      cases computed
      exact .nil
  | cons left lefts =>
      cases rights with
      | nil => cases same
      | cons right rights =>
          rw [elementwiseAll] at computed
          rcases exists_of_bind computed with ⟨first, head, computed⟩
          rcases exists_of_bind computed with ⟨rest, tail, computed⟩
          cases computed
          exact .cons (elementwise_leafwise left head)
            (elementwiseAll_leafwise lefts (Nat.succ.inj same) tail)

end

/-! ## When there is a result -/

/-- Two values are nested alike, and an operation succeeds at all their leaves. -/
structure Combinable (op : Arith) (left right : Value) : Prop where
  alike : left.nesting = right.nesting
  leaves : ∀ path first second, left.leaf? path = some first → right.leaf? path = some second →
    ∃ leaf, scalar op first second = .ok leaf

namespace Combinable

theorem head (combinable : Combinable op (.array (left :: lefts)) (.array (right :: rights))) :
    Combinable op left right :=
  ⟨(nesting_cons_eq_iff.mp combinable.alike).1, fun path => combinable.leaves (0 :: path)⟩

theorem tail (combinable : Combinable op (.array (left :: lefts)) (.array (right :: rights))) :
    Combinable op (.array lefts) (.array rights) := by
  refine ⟨(nesting_cons_eq_iff.mp combinable.alike).2, ?_⟩
  intro path first second firstAt secondAt
  cases path with
  | nil => cases firstAt
  | cons place path =>
      rw [← leaf?_tail left] at firstAt
      rw [← leaf?_tail right] at secondAt
      exact combinable.leaves _ first second firstAt secondAt

end Combinable

theorem Leafwise.combinable (leafwise : Leafwise op left right result) :
    Combinable op left right := by
  refine ⟨leafwise.alike, ?_⟩
  intro path first second firstAt secondAt
  rcases leafwise.leaves path first second firstAt secondAt with ⟨leaf, computed, _⟩
  exact ⟨leaf, computed⟩

mutual

theorem exists_elementwise (left : Value) {right : Value} (combinable : Combinable op left right) :
    ∃ result, elementwise op left right = .ok result := by
  cases left with
  | array lefts =>
      cases right with
      | array rights =>
          rcases exists_elementwiseAll lefts combinable with ⟨results, computed⟩
          refine ⟨.array results, ?_⟩
          have same := length_eq_of_nesting_eq combinable.alike
          rw [elementwise, if_pos same, computed, ok_bind]
      | _ => cases nesting_eq_leaf_iff.mp combinable.alike
  | _ =>
      have rightLeaf : right.isArray = false := nesting_eq_leaf_iff.mp combinable.alike.symm
      rw [elementwise_leaf rfl, rightLeaf, if_neg (by rintro ⟨⟩)]
      exact combinable.leaves [] _ right ((leaf?_leaf rfl).mpr ⟨rfl, rfl⟩)
        ((leaf?_leaf rightLeaf).mpr ⟨rfl, rfl⟩)

theorem exists_elementwiseAll (lefts : List Value) {rights : List Value}
    (combinable : Combinable op (.array lefts) (.array rights)) :
    ∃ results, elementwiseAll op lefts rights = .ok results := by
  cases lefts with
  | nil => exact ⟨[], rfl⟩
  | cons left lefts =>
      cases rights with
      | nil => cases length_eq_of_nesting_eq combinable.alike
      | cons right rights =>
          rcases exists_elementwise left combinable.head with ⟨first, head⟩
          rcases exists_elementwiseAll lefts combinable.tail with ⟨rest, tail⟩
          refine ⟨first :: rest, ?_⟩
          rw [elementwiseAll, head, ok_bind, tail, ok_bind]

end

theorem elementwise_ok_iff :
    (∃ result, elementwise op left right = .ok result) ↔ Combinable op left right := by
  constructor
  · rintro ⟨result, computed⟩
    exact (elementwise_leafwise left computed).combinable
  · exact exists_elementwise left

/-- The dotted operators, and sums and differences of two arrays, work place by place. -/
theorem binary_byPlace {op : BinaryOp} (byPlace : op.dotted = true ∨
      (op.arith = .add ∨ op.arith = .sub) ∧ left.isArray = true ∧ right.isArray = true) :
    binary op left right = elementwise op.arith left right := by
  rcases byPlace with dotted | ⟨additive, leftArray, rightArray⟩
  · rw [binary, if_pos dotted]
  · cases left with
    | array lefts =>
        cases right with
        | array rights => exact binary_places (.inr additive)
        | _ => cases rightArray
    | _ => cases leftArray

/--
What works place by place works at the leaves.  There is a result just if the two values are
nested alike and the operation on numbers succeeds at every two leaves with one path.  The
result is nested as they are, and each of its leaves is the outcome for the leaves
with its path.
-/
theorem places_are_leaves (op : BinaryOp) (left right : Value)
    (byPlace : op.dotted = true ∨
      (op.arith = .add ∨ op.arith = .sub) ∧ left.isArray = true ∧ right.isArray = true) :
    ((∃ result, binary op left right = .ok result) ↔
      left.nesting = right.nesting ∧
        ∀ path first second, left.leaf? path = some first → right.leaf? path = some second →
          ∃ leaf, scalar op.arith first second = .ok leaf) ∧
    ∀ result, binary op left right = .ok result →
      result.nesting = left.nesting ∧
        ∀ path first second, left.leaf? path = some first → right.leaf? path = some second →
          ∃ leaf, scalar op.arith first second = .ok leaf ∧ result.leaf? path = some leaf := by
  rw [binary_byPlace byPlace, elementwise_ok_iff]
  refine ⟨?_, ?_⟩
  · constructor
    · intro combinable
      exact ⟨combinable.alike, combinable.leaves⟩
    · rintro ⟨alike, leaves⟩
      exact ⟨alike, leaves⟩
  · intro result computed
    have leafwise := elementwise_leafwise left computed
    exact ⟨leafwise.kept, leafwise.leaves⟩

/-- `[1, [2, []]] + [3, [4, []]]`, and the same with a text for the number 4. -/
theorem places_are_leaves_deep :
    ((Value.array [.int 1, .array [.int 2, .array []]]).isArray = true ∧
      (Value.array [.int 3, .array [.int 4, .array []]]).isArray = true) ∧
    (∃ result, binary (.plain .add) (.array [.int 1, .array [.int 2, .array []]])
        (.array [.int 3, .array [.int 4, .array []]]) = .ok result ∧
      result.nesting = .array [.leaf, .array [.leaf, .array []]] ∧
      result.leaf? [1, 0] = some (.int 6)) ∧
    ¬ ∃ result, binary (.plain .add) (.array [.int 1, .array [.int 2, .array []]])
        (.array [.int 3, .array [.string "4", .array []]]) = .ok result := by
  have numbers := places_are_leaves (.plain .add) (.array [.int 1, .array [.int 2, .array []]])
    (.array [.int 3, .array [.int 4, .array []]]) (.inr ⟨.inl rfl, rfl, rfl⟩)
  have mixed := places_are_leaves (.plain .add) (.array [.int 1, .array [.int 2, .array []]])
    (.array [.int 3, .array [.string "4", .array []]]) (.inr ⟨.inl rfl, rfl, rfl⟩)
  refine ⟨⟨rfl, rfl⟩, ?_, ?_⟩
  · refine ⟨.array [.int (1 + 3), .array [.int (2 + 4), .array []]], rfl, ?_⟩
    rcases numbers.2 _ rfl with ⟨kept, leaves⟩
    rcases leaves [1, 0] _ _ rfl rfl with ⟨leaf, computed, found⟩
    cases computed
    exact ⟨kept, found⟩
  · intro succeeds
    rcases (mixed.1.mp succeeds).2 [1, 0] _ _ rfl rfl with ⟨leaf, impossible⟩
    cases impossible

end Value

end MatrixScript

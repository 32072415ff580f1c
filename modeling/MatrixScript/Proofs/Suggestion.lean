import Mathlib.Data.List.Nodup
import MatrixScript.Expr.Typing
import MatrixScript.Proofs.Bindings
import MatrixScript.Proofs.EditDistance
import MatrixScript.Proofs.Text.ByteOrder

/-!
# Suggestions

A name that is not in scope may be a misspelling.  The search for what was meant goes
through the visible names once and keeps the first of those that are nearest so far.

The visible names come in an order of their own: a name that is declared further in
comes before one that is declared further out, and names of one scope are in the order
of their bytes.  So the first of the nearest names is the one declared furthest in, and
among those the one with the smallest bytes.
-/

namespace MatrixScript

/-! ## The nearest candidate -/

section Candidates

variable {name candidate found : String} {threshold : Nat} {candidates done : List String}
  {best : Option (String × Nat)}

/-- One round of the search. -/
def nearer (name : String) (threshold : Nat) (best : Option (String × Nat)) (candidate : String) :
    Option (String × Nat) :=
  if editDistance name candidate ≤ threshold &&
      best.all fun found => editDistance name candidate < found.2 then
    some (candidate, editDistance name candidate)
  else best

theorem nearestName?_eq_foldl :
    nearestName? name candidates threshold =
      (candidates.foldl (nearer name threshold) none).map Prod.fst := rfl

/-- The first of the candidates at the least distance, which is within a threshold. -/
def FirstNearest (name : String) (threshold : Nat) (candidates : List String) (found : String) :
    Prop :=
  ∃ before after, candidates = before ++ found :: after ∧ editDistance name found ≤ threshold ∧
    (∀ other ∈ before, editDistance name found < editDistance name other) ∧
    ∀ other ∈ after, editDistance name found ≤ editDistance name other

/-- What the search knows when it has seen some of the candidates. -/
def Searched (name : String) (threshold : Nat) (done : List String) :
    Option (String × Nat) → Prop
  | none => ∀ other ∈ done, threshold < editDistance name other
  | some (found, distance) =>
      distance = editDistance name found ∧ FirstNearest name threshold done found

namespace FirstNearest

theorem within (nearest : FirstNearest name threshold candidates found) :
    editDistance name found ≤ threshold := by
  rcases nearest with ⟨_, _, _, within, _⟩
  exact within

theorem mem (nearest : FirstNearest name threshold candidates found) : found ∈ candidates := by
  rcases nearest with ⟨before, after, rfl, _⟩
  simp

theorem le (nearest : FirstNearest name threshold candidates found) {other : String}
    (member : other ∈ candidates) : editDistance name found ≤ editDistance name other := by
  rcases nearest with ⟨before, after, rfl, _, sooner, later⟩
  rw [List.mem_append, List.mem_cons] at member
  rcases member with inBefore | rfl | inAfter
  · exact Nat.le_of_lt (sooner other inBefore)
  · exact Nat.le_refl _
  · exact later other inAfter

/-- No other candidate is the first of the nearest. -/
theorem unique {other : String} (nearest : FirstNearest name threshold candidates found)
    (too : FirstNearest name threshold candidates other) : found = other := by
  have foundLe := nearest.le too.mem
  have otherLe := too.le nearest.mem
  rcases nearest with ⟨before, after, split, _, sooner, _⟩
  rcases too with ⟨before', after', split', _, sooner', _⟩
  rw [split] at split'
  rcases List.append_eq_append_iff.mp split' with ⟨between, rfl, rest⟩ | ⟨between, rfl, rest⟩
  -- One stands before the other, and is strictly nearer, unless they stand in one place.
  · cases between with
    | nil => exact (List.cons.inj rest).1
    | cons head tail =>
        have strict := sooner' found (by simp [(List.cons.inj rest).1])
        omega
  · cases between with
    | nil => exact (List.cons.inj rest).1.symm
    | cons head tail =>
        have strict := sooner other (by simp [(List.cons.inj rest).1])
        omega

/-- A further candidate that is not nearer changes nothing. -/
theorem extend (nearest : FirstNearest name threshold done found)
    (notNearer : editDistance name found ≤ editDistance name candidate) :
    FirstNearest name threshold (done ++ [candidate]) found := by
  rcases nearest with ⟨before, after, rfl, within, sooner, later⟩
  refine ⟨before, after ++ [candidate], by simp, within, sooner, ?_⟩
  intro other member
  rcases List.mem_append.mp member with old | new
  · exact later other old
  · cases List.mem_singleton.mp new
    exact notNearer

/-- A further candidate that is nearer than all before is the nearest. -/
theorem last (within : editDistance name candidate ≤ threshold)
    (strict : ∀ other ∈ done, editDistance name candidate < editDistance name other) :
    FirstNearest name threshold (done ++ [candidate]) candidate :=
  ⟨done, [], rfl, within, strict, by simp⟩

end FirstNearest

/-- One round keeps what the search knows. -/
theorem Searched.nearer (searched : Searched name threshold done best) (candidate : String) :
    Searched name threshold (done ++ [candidate]) (nearer name threshold best candidate) := by
  rw [MatrixScript.nearer]
  by_cases within : editDistance name candidate ≤ threshold
  · cases best with
    | none =>
        rw [if_pos (by simp [within])]
        refine ⟨rfl, .last within ?_⟩
        intro other member
        exact Nat.lt_of_le_of_lt within (searched other member)
    | some best =>
        rcases best with ⟨found, distance⟩
        rcases searched with ⟨rfl, nearest⟩
        by_cases closer : editDistance name candidate < editDistance name found
        · rw [if_pos (by simp [within, closer])]
          refine ⟨rfl, .last within ?_⟩
          intro other member
          exact Nat.lt_of_lt_of_le closer (nearest.le member)
        · rw [if_neg (by simp [closer])]
          exact ⟨rfl, nearest.extend (Nat.le_of_not_lt closer)⟩
  · rw [if_neg (by simp [within])]
    have beyond := Nat.lt_of_not_le within
    cases best with
    | none =>
        intro other member
        rcases List.mem_append.mp member with old | new
        · exact searched other old
        · cases List.mem_singleton.mp new
          exact beyond
    | some best =>
        rcases best with ⟨found, distance⟩
        rcases searched with ⟨rfl, nearest⟩
        refine ⟨rfl, nearest.extend ?_⟩
        exact Nat.le_of_lt (Nat.lt_of_le_of_lt nearest.within beyond)

theorem Searched.foldl (searched : Searched name threshold done best) (candidates : List String) :
    Searched name threshold (done ++ candidates)
      (candidates.foldl (MatrixScript.nearer name threshold) best) := by
  induction candidates generalizing done best with
  | nil => rwa [List.append_nil]
  | cons candidate candidates ih =>
      rw [List.append_cons]
      exact ih (searched.nearer candidate)

theorem searched_all (name : String) (threshold : Nat) (candidates : List String) :
    Searched name threshold candidates (candidates.foldl (nearer name threshold) none) := by
  have start : Searched name threshold [] none := by simp [Searched]
  exact start.foldl candidates

theorem nearestName?_eq_none_iff :
    nearestName? name candidates threshold = none ↔
      ∀ other ∈ candidates, threshold < editDistance name other := by
  have searched := searched_all name threshold candidates
  rw [nearestName?_eq_foldl, Option.map_eq_none_iff]
  cases outcome : candidates.foldl (nearer name threshold) none with
  | none =>
      rw [outcome] at searched
      exact iff_of_true rfl searched
  | some best =>
      rw [outcome] at searched
      refine iff_of_false (by simp) fun beyond => ?_
      exact Nat.not_lt.mpr searched.2.within (beyond _ searched.2.mem)

theorem nearestName?_eq_some_iff :
    nearestName? name candidates threshold = some found ↔
      FirstNearest name threshold candidates found := by
  have searched := searched_all name threshold candidates
  rw [nearestName?_eq_foldl, Option.map_eq_some_iff]
  constructor
  · rintro ⟨best, outcome, rfl⟩
    rw [outcome] at searched
    exact searched.2
  · intro nearest
    cases outcome : candidates.foldl (nearer name threshold) none with
    | none =>
        rw [outcome] at searched
        exact absurd (searched found nearest.mem) (Nat.not_lt.mpr nearest.within)
    | some best =>
        rw [outcome] at searched
        exact ⟨best, rfl, searched.2.unique nearest⟩

end Candidates

/-! ## The order of visible names -/

namespace ScopeChain

/-- The number of scopes inside the innermost one that declares a name. -/
def level (scopes : List Scope) (name : String) : Nat :=
  scopes.findIdx fun scope => scope.contains name

/-- The first name is declared further in, or in the same scope and with smaller bytes. -/
def Precedes (scopes : List Scope) (first second : String) : Prop :=
  level scopes first < level scopes second ∨
    level scopes first = level scopes second ∧ Text.bytes first < Text.bytes second

theorem contains_iff (scope : Scope) (name : String) :
    scope.contains name = true ↔ name ∈ scope.names :=
  (Bindings.mem_names_iff scope name).symm

theorem level_of_mem {scope : Scope} {name : String} (here : name ∈ scope.names)
    (scopes : List Scope) : level (scope :: scopes) name = 0 := by
  rw [level, List.findIdx_cons, (contains_iff scope name).mpr here, cond_true]

theorem level_of_not_mem {scope : Scope} {name : String} (elsewhere : name ∉ scope.names)
    (scopes : List Scope) : level (scope :: scopes) name = level scopes name + 1 := by
  have missing : scope.contains name = false := by
    rw [Bool.eq_false_iff]
    exact fun here => elsewhere ((contains_iff scope name).mp here)
  rw [level, List.findIdx_cons, missing, cond_false]
  rfl

theorem not_mem_of_outer {scope : Scope} {names : List String} {name : String}
    (outer : name ∈ names.filter fun name => !scope.names.contains name) : name ∉ scope.names := by
  simpa using (List.mem_filter.mp outer).2

theorem Precedes.ne {scopes : List Scope} {first second : String}
    (precedes : Precedes scopes first second) : first ≠ second := by
  rintro rfl
  rcases precedes with further | ⟨_, smaller⟩
  · exact Nat.lt_irrefl _ further
  · exact List.lt_irrefl _ smaller

theorem mem_namesOf_iff (scopes : List Scope) (name : String) :
    name ∈ namesOf scopes ↔ (Bindings.find? scopes name).isSome := by
  induction scopes with
  | nil => simp [namesOf, Bindings.find?]
  | cons scope scopes ih =>
      rw [namesOf, List.mem_append, List.mem_filter, ih, Bindings.mem_names_iff,
        Bindings.find?_cons]
      by_cases here : (scope.get? name).isSome
      · simp [here]
      · have elsewhere : name ∉ scope.names := by
          rwa [Bindings.mem_names_iff]
        simp [here, elsewhere]

/-- Names are visible in the order of their scopes, and in a scope in the order of their bytes. -/
theorem namesOf_pairwise (scopes : List Scope) : (namesOf scopes).Pairwise (Precedes scopes) := by
  induction scopes with
  | nil => exact .nil
  | cons scope scopes ih =>
      rw [namesOf, List.pairwise_append]
      refine ⟨?_, ?_, ?_⟩
      · have ordered : scope.names.Pairwise (· < ·) := List.pairwise_map.mpr scope.ordered
        refine ordered.imp_of_mem fun firstHere secondHere less => .inr ⟨?_, ?_⟩
        · rw [level_of_mem firstHere, level_of_mem secondHere]
        · exact (Text.lt_iff_bytes_lt _ _).mp less
      · refine (ih.filter _).imp_of_mem fun firstMember secondMember precedes => ?_
        rw [Precedes, level_of_not_mem (not_mem_of_outer firstMember),
          level_of_not_mem (not_mem_of_outer secondMember), Nat.add_lt_add_iff_right,
          Nat.add_right_cancel_iff]
        exact precedes
      · intro first firstHere second secondMember
        rw [Precedes, level_of_mem firstHere, level_of_not_mem (not_mem_of_outer secondMember)]
        exact .inl (Nat.succ_pos _)

theorem mem_visibleNames_iff (chain : ScopeChain) (name : String) :
    name ∈ chain.visibleNames ↔ (chain.get? name).isSome :=
  mem_namesOf_iff chain.scopes name

/-- Every name that has a meaning is listed once, and no other name is. -/
theorem count_visibleNames (chain : ScopeChain) (name : String) :
    chain.visibleNames.count name = if (chain.get? name).isSome then 1 else 0 := by
  have distinct : chain.visibleNames.Nodup :=
    (namesOf_pairwise chain.scopes).imp fun precedes => precedes.ne
  split
  · rename_i known
    exact List.count_eq_one_of_mem distinct ((chain.mem_visibleNames_iff name).mpr known)
  · rename_i unknown
    exact List.count_eq_zero.mpr fun member => unknown ((chain.mem_visibleNames_iff name).mp member)

end ScopeChain

/-! ## Hints -/

/-- The visible name to suggest: the nearest, then the one furthest in, then by its bytes. -/
structure ScopeChain.Suggests (chain : ScopeChain) (name found : String) : Prop where
  visible : found ∈ chain.visibleNames
  near : editDistance name found ≤ 2
  best : ∀ other ∈ chain.visibleNames, other ≠ found →
    editDistance name found < editDistance name other ∨
      editDistance name found = editDistance name other ∧ Precedes chain.scopes found other

theorem ScopeChain.suggests_of_firstNearest {chain : ScopeChain} {name found : String}
    (nearest : FirstNearest name 2 chain.visibleNames found) : chain.Suggests name found := by
  refine ⟨nearest.mem, nearest.within, ?_⟩
  intro other member different
  rcases Nat.lt_or_eq_of_le (nearest.le member) with less | same
  · exact .inl less
  · refine .inr ⟨same, ?_⟩
    rcases nearest with ⟨before, after, split, _, sooner, _⟩
    have ordered : chain.visibleNames.Pairwise (Precedes chain.scopes) :=
      namesOf_pairwise chain.scopes
    rw [split] at ordered member
    rw [List.mem_append, List.mem_cons] at member
    rcases member with inBefore | rfl | inAfter
    · exact absurd (sooner other inBefore) (Nat.not_lt.mpr (Nat.le_of_eq same.symm))
    · exact absurd rfl different
    · exact (List.pairwise_cons.mp (List.pairwise_append.mp ordered).2.1).1 other inAfter

theorem suggestion?_eq_none_iff {name : String} {candidates : List String} :
    suggestion? name candidates = none ↔
      ∀ other ∈ candidates, 2 < editDistance name other := by
  rw [suggestion?, Option.map_eq_none_iff, nearestName?_eq_none_iff]

/-- A hint has the first of the nearest names in it. -/
theorem suggestion?_eq_some_iff {name hint : String} {candidates : List String} :
    suggestion? name candidates = some hint ↔
      ∃ found, FirstNearest name 2 candidates found ∧ s!"did you mean `{found}`?" = hint := by
  simp only [suggestion?, Option.map_eq_some_iff, nearestName?_eq_some_iff]

/--
An unknown name is reported once, with the best visible name for a hint, or without a hint
if no visible name is near.  Every name that has a meaning is visible once.  The search
itself finds the first of the nearest candidates, whatever the candidates and the threshold.
-/
theorem Expr.unknown_suggests_nearest (chain : ScopeChain) (name : String) (span : Span) :
    (chain.get? name = none →
      ∃ hint,
        Expr.checkVariable chain name span =
          ⟨Descriptor.undefined.named name, [⟨.undefinedVariable name, span, hint⟩]⟩ ∧
        (hint = none ↔ ∀ other ∈ chain.visibleNames, 2 < editDistance name other) ∧
        ∀ text, hint = some text →
          ∃ found, chain.Suggests name found ∧ text = s!"did you mean `{found}`?") ∧
    (∀ other, chain.visibleNames.count other = if (chain.get? other).isSome then 1 else 0) ∧
    ∀ (candidates : List String) (threshold : Nat),
      (nearestName? name candidates threshold = none ↔
        ∀ other ∈ candidates, threshold < editDistance name other) ∧
      ∀ found, nearestName? name candidates threshold = some found ↔
        ∃ before after, candidates = before ++ found :: after ∧
          editDistance name found ≤ threshold ∧
          (∀ other ∈ before, editDistance name found < editDistance name other) ∧
          ∀ other ∈ after, editDistance name found ≤ editDistance name other := by
  refine ⟨?_, chain.count_visibleNames, ?_⟩
  · intro unknown
    refine ⟨suggestion? name chain.visibleNames, ?_, suggestion?_eq_none_iff, ?_⟩
    · rw [Expr.checkVariable, unknown]
    · intro text hinted
      rcases suggestion?_eq_some_iff.mp hinted with ⟨found, nearest, rfl⟩
      exact ⟨found, ScopeChain.suggests_of_firstNearest nearest, rfl⟩
  · intro candidates threshold
    exact ⟨nearestName?_eq_none_iff, fun found => nearestName?_eq_some_iff⟩

/-- Three scopes that declare near names, two of them more than once. -/
def ScopeChain.crowded : ScopeChain :=
  let number := Descriptor.scalar .int
  let outer := (ScopeChain.root.put "cab" number).put "can" number
  let middle := (outer.enter.put "cab" number).put "cat" number
  ((middle.enter.put "cat" number).put "car" number).put "caption" number

/-- Of four names at distance one, two are furthest in, and one of those has smaller bytes. -/
theorem Expr.unknown_suggests_crowded :
    ScopeChain.crowded.get? "cap" = none ∧
      Expr.checkVariable .crowded "cap" ⟨0, 3, 1⟩ =
        ⟨Descriptor.undefined.named "cap",
          [⟨.undefinedVariable "cap", ⟨0, 3, 1⟩, some "did you mean `car`?"⟩]⟩ ∧
      ∃ found, ScopeChain.crowded.Suggests "cap" found ∧
        "did you mean `car`?" = s!"did you mean `{found}`?" := by
  have unknown : ScopeChain.crowded.get? "cap" = none := by rfl
  have computed : suggestion? "cap" ScopeChain.crowded.visibleNames =
      some "did you mean `car`?" := by decide +kernel
  rcases (unknown_suggests_nearest .crowded "cap" ⟨0, 3, 1⟩).1 unknown with
    ⟨hint, checked, _, suggested⟩
  have hinted : suggestion? "cap" ScopeChain.crowded.visibleNames = hint := by
    rw [Expr.checkVariable, unknown] at checked
    exact congrArg Diagnostic.hint? (List.cons.inj (congrArg Checked.diagnostics checked)).1
  rw [← hinted, computed] at checked suggested
  exact ⟨unknown, checked, suggested _ rfl⟩

end MatrixScript

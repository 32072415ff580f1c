import MatrixScript.Checker
import MatrixScript.Proofs.Expr.Addresses
import MatrixScript.Proofs.Expr.Complaints

/-!
# Complaints do not follow from one another

The check of an expression without array literals complains about a node only if it has
nothing to complain about inside it.  So it complains at places of which none is inside
another, and the expression is undefined just if there is a complaint.

The places of the complaints are those whose spans the diagnostics have, whatever spans the
expression has: `Expr.Traced`.  A step of a check either passes over what is undefined or has
nothing to complain about below it; then it has a result, or complains once
(`Checked.Settles`).
-/

namespace MatrixScript

/-! ## One complaint or a result -/

/-- The check has a defined result, or complains once about the span. -/
def Checked.Settles (span : Span) (checked : Checked Descriptor) : Prop :=
  (checked.result.isUndefined = false ∧ checked.diagnostics = []) ∨
    (checked.result.isUndefined = true ∧
      ∃ diagnostic, checked.diagnostics = [diagnostic] ∧ diagnostic.span = span)

namespace Checked

variable {span : Span}

theorem bind_eq {α β : Type} (first : Checked α) (next : α → Checked β) :
    (first >>= next) =
      ⟨(next first.result).result, first.diagnostics ++ (next first.result).diagnostics⟩ := rfl

theorem refuse_settles (complaint : Complaint) (span : Span) :
    (refuse complaint span).Settles span :=
  .inr ⟨rfl, _, rfl, rfl⟩

theorem pure_settles {descriptor : Descriptor} (proper : descriptor.ty ≠ .undefined) :
    (pure descriptor : Checked Descriptor).Settles span :=
  .inl ⟨beq_eq_false_iff_ne.mpr proper, rfl⟩

theorem Settles.defined {checked : Checked Descriptor} (settles : checked.Settles span)
    (silent : checked.diagnostics = []) : checked.result.isUndefined = false := by
  rcases settles with ⟨defined, _⟩ | ⟨_, diagnostic, one, _⟩
  · exact defined
  · rw [silent] at one
    cases one

theorem Settles.after {α : Type} {first : Checked α} {next : α → Checked Descriptor}
    (silent : first.diagnostics = []) (settles : (next first.result).Settles span) :
    (first >>= next).Settles span := by
  unfold Settles
  rw [diagnostics_bind, silent]
  exact settles

end Checked

namespace Signature

theorem binary_proper {op : BinaryOp} {left right ty : Ty}
    (accepted : binary op left right = some ty) : ty ≠ .undefined := by
  rintro rfl
  cases Rule.of_binary accepted with
  | places aggregate => cases aggregate
  | arrayByNumber scales aggregate => cases aggregate
  | numberByArray aggregate => cases aggregate

end Signature

namespace Expr

open Checked

variable {chain : ScopeChain} {span : Span}

theorem checkBinary_settles {op : BinaryOp} {left right : Descriptor}
    (leftDefined : left.isUndefined = false) (rightDefined : right.isUndefined = false) :
    (checkBinary span op left right).Settles span := by
  rw [checkBinary, leftDefined, rightDefined, if_neg (by decide)]
  split
  · exact refuse_settles _ span
  · rename_i ty accepted
    split
    · exact refuse_settles _ span
    · exact pure_settles (Signature.binary_proper accepted)

theorem checkComparison_settles {op : Comparison} {left right : Descriptor}
    (leftDefined : left.isUndefined = false) (rightDefined : right.isUndefined = false) :
    (checkComparison span op left right).Settles span := by
  rw [checkComparison, leftDefined, rightDefined, if_neg (by decide)]
  split
  · exact refuse_settles _ span
  · rename_i ty accepted
    refine pure_settles ?_
    rw [(Signature.comparison_eq_some accepted).1]
    rintro ⟨⟩

theorem checkUnary_settles {op : UnaryOp} {operand : Descriptor}
    (defined : operand.isUndefined = false) : (checkUnary span op operand).Settles span := by
  rw [checkUnary, defined, if_neg (by decide)]
  split
  · exact refuse_settles _ span
  · rename_i ty accepted
    have proper : ty ≠ .undefined := by
      rintro rfl
      rcases Signature.unary_eq_some accepted with ⟨_, numeric, same⟩ | ⟨_, _, impossible⟩
      · rw [same] at numeric
        cases numeric
      · cases impossible
    cases op with
    | negate => exact pure_settles proper
    | transpose => exact pure_settles proper

theorem checkConstructor_settles (builtin : Builtin) (arguments : List Expr) :
    (checkConstructor span builtin arguments).Settles span := by
  unfold checkConstructor
  split
  · exact pure_settles (by rintro ⟨⟩)
  · exact pure_settles (by rintro ⟨⟩)
  · exact refuse_settles _ span

theorem checkVariable_settles (defined : chain.Defined) (name : String) :
    (checkVariable chain name span).Settles span := by
  unfold checkVariable
  split
  · rename_i descriptor found
    exact .inl ⟨defined name descriptor found, rfl⟩
  · exact .inr ⟨rfl, _, rfl, rfl⟩

/-- Among defined names, an accepted expression is defined. -/
theorem check_defined (chainDefined : chain.Defined) (expr : Expr)
    (accepted : expr.Accepted chain) : (expr.check chain).result.isUndefined = false := by
  induction expr with
  | int span value => rfl
  | float span value => rfl
  | string span value => rfl
  | var span name => exact (checkVariable_settles chainDefined name).defined accepted
  | vector span elements ih => rfl
  | matrix span rows ih =>
      rw [Accepted, check, diagnostics_bind, List.append_eq_nil_iff] at accepted
      rcases checkRows_clean accepted.2 with ⟨width, _, _, result⟩
      rw [check, result_bind, result]
      rfl
  | reference span name coordinates ih =>
      rcases reference_clean chainDefined ih accepted with ⟨container, _, _, _, _, result⟩
      rw [result, selected]
      split <;> rfl
  | call span builtin arguments ih =>
      rcases call_clean ih accepted with ⟨_, constructorClean, result⟩
      rw [result]
      exact (checkConstructor_settles builtin arguments).defined constructorClean
  | binary span left op right leftIH rightIH =>
      simp only [Accepted, check, diagnostics_bind, List.append_eq_nil_iff] at accepted
      exact (checkBinary_settles (leftIH accepted.1) (rightIH accepted.2.1)).defined accepted.2.2
  | compare span left op right leftIH rightIH =>
      simp only [Accepted, check, diagnostics_bind, List.append_eq_nil_iff] at accepted
      exact (checkComparison_settles (leftIH accepted.1) (rightIH accepted.2.1)).defined
        accepted.2.2
  | unary span op operand ih =>
      simp only [Accepted, check, diagnostics_bind, List.append_eq_nil_iff] at accepted
      exact (checkUnary_settles (ih accepted.1)).defined accepted.2

/-! ## The places of the complaints -/

/--
A check of an expression complains at the given places, once at each, whatever spans the
expression has.  No place is inside another, and there is none just if the check succeeds.
-/
structure Traced {α : Type} (run : Expr → Checked α) (sound : α → Prop) (expr : Expr)
    (sites : List Address) : Prop where
  apart : sites.Pairwise Address.Apart
  sound_iff : sound (run expr).result ↔ sites = []
  raised : ∀ other : Expr, other.Alike expr →
    List.Forall₂ (Node.expr other).RaisedAt sites (run other).diagnostics
  few : sites.length ≤ expr.leaves

/-- The same of a check of several expressions. -/
structure TracedAll {α : Type} (run : List Expr → Checked α) (sound : α → Prop)
    (exprs : List Expr) (branches : List Branch) : Prop where
  apart : branches.Pairwise Branch.Apart
  sound_iff : sound (run exprs).result ↔ branches = []
  raised : ∀ others : List Expr, AllAlike others exprs →
    List.Forall₂ (Branch.Raised (others.map .expr)) branches (run others).diagnostics
  few : branches.length ≤ leavesOfAll exprs

/-- The check of the expression itself complains at the given places. -/
abbrev ComplainsAt (chain : ScopeChain) (expr : Expr) (sites : List Address) : Prop :=
  Traced (check chain) (fun descriptor => descriptor.isUndefined = false) expr sites

variable {expr : Expr}

/-- An expression with nothing to complain about inside it. -/
theorem complainsAt_of_settles
    (settles : ∀ other : Expr, other.Alike expr → (other.check chain).Settles other.span) :
    ∃ sites, expr.ComplainsAt chain sites := by
  rcases settles expr rfl with ⟨defined, silent⟩ | ⟨undefined, _⟩
  · refine ⟨[], .nil, iff_of_true defined rfl, ?_, Nat.zero_le _⟩
    intro other alike
    rcases settles other alike with ⟨_, otherSilent⟩ | ⟨otherUndefined, _⟩
    · rw [otherSilent]
      exact .nil
    · rw [alike.check_result, defined] at otherUndefined
      cases otherUndefined
  · refine ⟨[[]], List.pairwise_singleton _ _, ?_, ?_, expr.leaves_pos⟩
    · rw [undefined]
      exact iff_of_false (by decide) (by decide)
    · intro other alike
      rcases settles other alike with ⟨otherDefined, _⟩ | ⟨_, diagnostic, one, same⟩
      · rw [alike.check_result, undefined] at otherDefined
        cases otherDefined
      · rw [one]
        exact .cons ⟨.expr other, rfl, same⟩ .nil

/-- An expression that is passed over because of complaints inside it. -/
theorem complainsAt_of_branches (branches : List Branch) (found : branches ≠ [])
    (apart : branches.Pairwise Branch.Apart) (few : branches.length ≤ expr.leaves)
    (undefined : (expr.check chain).result.isUndefined = true)
    (raised : ∀ other : Expr, other.Alike expr →
      List.Forall₂ (Branch.Raised (Node.expr other).children) branches
        (other.check chain).diagnostics) :
    expr.ComplainsAt chain (branches.map Branch.address) := by
  constructor
  case apart => exact List.pairwise_map.mpr (apart.imp Branch.address_apart)
  case sound_iff =>
    rw [undefined, List.map_eq_nil_iff]
    exact iff_of_false (by decide) found
  case raised =>
    intro other alike
    refine List.forall₂_map_left_iff.mpr ((raised other alike).imp ?_)
    intro branch diagnostic raised
    exact Branch.raisedAt_address raised
  case few =>
    rw [List.length_map]
    exact few

/-! ## Operators -/

section Operands

variable {left right operand : Expr} {leftSites rightSites sites : List Address}

/-- An expression with two operands that passes over it if one of them is undefined. -/
theorem operands_complainAt (combine : Span → Descriptor → Descriptor → Checked Descriptor)
    (passes : ∀ span first second, (first.isUndefined || second.isUndefined) = true →
      combine span first second = pure .undefined)
    (settles : ∀ span first second, first.isUndefined = false → second.isUndefined = false →
      (combine span first second).Settles span)
    (leaves : expr.leaves = left.leaves + right.leaves)
    (form : ∀ other : Expr, other.Alike expr → ∃ first second : Expr,
      first.Alike left ∧ second.Alike right ∧
      (Node.expr other).children = [.expr first, .expr second] ∧
      other.check chain = (first.check chain >>= fun one =>
        second.check chain >>= fun two => combine other.span one two))
    (leftTraced : left.ComplainsAt chain leftSites)
    (rightTraced : right.ComplainsAt chain rightSites) :
    ∃ sites, expr.ComplainsAt chain sites := by
  by_cases none : leftSites = [] ∧ rightSites = []
  · rcases none with ⟨rfl, rfl⟩
    refine complainsAt_of_settles fun other alike => ?_
    rcases form other alike with ⟨first, second, leftAlike, rightAlike, _, checked⟩
    rw [checked]
    refine .after (List.forall₂_nil_left_iff.mp (leftTraced.raised first leftAlike)) ?_
    refine .after (List.forall₂_nil_left_iff.mp (rightTraced.raised second rightAlike)) ?_
    rw [leftAlike.check_result, rightAlike.check_result]
    exact settles _ _ _ (leftTraced.sound_iff.mpr rfl) (rightTraced.sound_iff.mpr rfl)
  · have undefined : ((left.check chain).result.isUndefined ||
        (right.check chain).result.isUndefined) = true := by
      by_contra bothDefined
      rw [Bool.or_eq_true, not_or, Bool.not_eq_true, Bool.not_eq_true] at bothDefined
      exact none ⟨leftTraced.sound_iff.mp bothDefined.1, rightTraced.sound_iff.mp bothDefined.2⟩
    have passed (other first second : Expr) (leftAlike : first.Alike left)
        (rightAlike : second.Alike right) :
        combine other.span (first.check chain).result (second.check chain).result =
          pure .undefined := by
      rw [leftAlike.check_result, rightAlike.check_result]
      exact passes _ _ _ undefined
    refine ⟨_, complainsAt_of_branches
      (Branch.joined leftSites (Branch.joined rightSites [])) ?_ ?_ ?_ ?_ ?_⟩
    · simpa [Branch.joined_eq_nil_iff] using none
    · exact Branch.joined_apart leftTraced.apart (Branch.joined_apart rightTraced.apart .nil)
    · rw [Branch.length_joined, Branch.length_joined, leaves]
      exact Nat.add_le_add leftTraced.few rightTraced.few
    · rcases form expr rfl with ⟨first, second, leftAlike, rightAlike, _, checked⟩
      rw [checked, result_bind, result_bind, passed expr first second leftAlike rightAlike]
      rfl
    · intro other alike
      rcases form other alike with ⟨first, second, leftAlike, rightAlike, children, checked⟩
      rw [checked, children, diagnostics_bind, diagnostics_bind,
        passed other first second leftAlike rightAlike]
      exact Branch.joined_raised (leftTraced.raised first leftAlike)
        (Branch.joined_raised (rightTraced.raised second rightAlike) .nil)

theorem unary_complainsAt {op : UnaryOp} (traced : operand.ComplainsAt chain sites) :
    ∃ sites, (Expr.unary span op operand).ComplainsAt chain sites := by
  by_cases none : sites = []
  · subst none
    refine complainsAt_of_settles fun other alike => ?_
    rcases alike.of_unary with ⟨place, inner, rfl, same⟩
    refine .after (List.forall₂_nil_left_iff.mp (traced.raised inner same)) ?_
    refine checkUnary_settles ?_
    rw [same.check_result]
    exact traced.sound_iff.mpr rfl
  · have undefined : (operand.check chain).result.isUndefined = true := by
      rw [← Bool.not_eq_false]
      exact fun defined => none (traced.sound_iff.mp defined)
    refine ⟨_, complainsAt_of_branches (Branch.joined sites []) ?_ ?_ ?_ ?_ ?_⟩
    · simpa [Branch.joined_eq_nil_iff] using none
    · exact Branch.joined_apart traced.apart .nil
    · rw [Branch.length_joined]
      exact traced.few
    · rw [check, result_bind, checkUnary, if_pos undefined]
      exact undefined
    · intro other alike
      rcases alike.of_unary with ⟨place, inner, rfl, same⟩
      have innerUndefined : (inner.check chain).result.isUndefined = true := by
        rw [same.check_result]
        exact undefined
      rw [check, diagnostics_bind, checkUnary, if_pos innerUndefined]
      exact Branch.joined_raised (traced.raised inner same) .nil

end Operands

/-! ## Coordinates and sizes -/

/-- Check an expression that has to be an integer; yields whether it is one. -/
def demandInt (chain : ScopeChain) (complaint : Ty → Complaint) (expr : Expr) : Checked Bool := do
  let descriptor ← expr.check chain
  if descriptor.isUndefined then pure false
  else if descriptor.ty = .int then pure true
  else do
    complain (complaint descriptor.ty) expr.span
    pure false

section Demands

variable {complaint : Ty → Complaint} {sites : List Address} {branches : List Branch}
  {head : Expr} {tail : List Expr}

theorem demandInt_of_undefined (undefined : (expr.check chain).result.isUndefined = true) :
    demandInt chain complaint expr = ⟨false, (expr.check chain).diagnostics⟩ := by
  rw [demandInt, bind_eq, if_pos undefined, diagnostics_pure, List.append_nil]
  rfl

theorem demandInt_of_int (isInt : (expr.check chain).result.ty = .int) :
    demandInt chain complaint expr = ⟨true, (expr.check chain).diagnostics⟩ := by
  have defined : ¬ (expr.check chain).result.isUndefined = true := by
    rw [Descriptor.isUndefined, isInt]
    decide
  rw [demandInt, bind_eq, if_neg defined, if_pos isInt, diagnostics_pure, List.append_nil]
  rfl

theorem demandInt_of_other (defined : (expr.check chain).result.isUndefined = false)
    (notInt : (expr.check chain).result.ty ≠ .int) :
    demandInt chain complaint expr =
      ⟨false, (expr.check chain).diagnostics ++
        [⟨complaint (expr.check chain).result.ty, expr.span, none⟩]⟩ := by
  rw [demandInt, bind_eq, defined, if_neg Bool.false_ne_true, if_neg notInt]
  rfl

/-- The expression is defined and an integer just if the demand is met. -/
theorem demandInt_result :
    (demandInt chain complaint expr).result = true ↔ (expr.check chain).result.ty = .int := by
  constructor
  · intro met
    by_contra notInt
    cases undefined : (expr.check chain).result.isUndefined with
    | true =>
        rw [demandInt_of_undefined undefined] at met
        cases met
    | false =>
        rw [demandInt_of_other undefined notInt] at met
        cases met
  · intro isInt
    rw [demandInt_of_int isInt]

theorem Alike.demandInt_result_eq {other : Expr} (alike : other.Alike expr) :
    (demandInt chain complaint other).result = (demandInt chain complaint expr).result := by
  rw [Bool.eq_iff_iff, demandInt_result, demandInt_result, alike.check_result]

/-- A demand that is not met is a complaint about the expression, if it has none inside it. -/
theorem demandInt_traced (traced : expr.ComplainsAt chain sites) :
    ∃ sites, Traced (demandInt chain complaint) (· = true) expr sites := by
  cases undefined : (expr.check chain).result.isUndefined with
  | true =>
      refine ⟨sites, traced.apart, ?_, ?_, traced.few⟩
      · rw [← traced.sound_iff, undefined, demandInt_of_undefined undefined]
        exact iff_of_false Bool.false_ne_true (by decide)
      · intro other alike
        rw [demandInt_of_undefined (alike.check_result ▸ undefined)]
        exact traced.raised other alike
  | false =>
      cases traced.sound_iff.mp undefined
      have silent (other : Expr) (alike : other.Alike expr) :
          (other.check chain).diagnostics = [] :=
        List.forall₂_nil_left_iff.mp (traced.raised other alike)
      by_cases isInt : (expr.check chain).result.ty = .int
      · refine ⟨[], .nil, ?_, ?_, Nat.zero_le _⟩
        · exact iff_of_true (demandInt_result.mpr isInt) rfl
        · intro other alike
          rw [demandInt_of_int (alike.check_result ▸ isInt), silent other alike]
          exact .nil
      · refine ⟨[[]], List.pairwise_singleton _ _, ?_, ?_, expr.leaves_pos⟩
        · exact iff_of_false (fun met => isInt (demandInt_result.mp met)) (by decide)
        · intro other alike
          have otherDefined : (other.check chain).result.isUndefined = false :=
            alike.check_result ▸ undefined
          rw [demandInt_of_other otherDefined (alike.check_result ▸ isInt), silent other alike]
          exact .cons ⟨.expr other, rfl, rfl⟩ .nil

theorem checkCoordinates_cons :
    checkCoordinates chain (head :: tail) =
      ⟨(demandInt chain .coordinateType head).result && (checkCoordinates chain tail).result,
        (demandInt chain .coordinateType head).diagnostics ++
          (checkCoordinates chain tail).diagnostics⟩ := by
  rw [checkCoordinates, demandInt]
  simp only [bind_eq]
  split
  · simp
  · split
    · simp
    · simp [complain]

theorem checkSizes_cons :
    checkSizes chain (head :: tail) = (demandInt chain .sizeType head >>= fun met =>
      if met then checkSizes chain tail else pure false) := by
  rw [checkSizes, demandInt]
  simp only [bind_eq]
  split
  · simp
  · split
    · simp
    · simp [complain]

theorem nil_traced {α : Type} {run : List Expr → Checked α} {sound : α → Prop}
    (succeeds : sound (run []).result) (silent : (run []).diagnostics = []) :
    TracedAll run sound [] [] := by
  refine ⟨.nil, iff_of_true succeeds rfl, ?_, Nat.le_refl 0⟩
  intro others alike
  rw [alike.of_nil, silent]
  exact .nil

theorem checkCoordinates_traced {coordinates : List Expr}
    (each : ∀ coordinate ∈ coordinates, ∃ sites, coordinate.ComplainsAt chain sites) :
    ∃ branches, TracedAll (checkCoordinates chain) (· = true) coordinates branches := by
  induction coordinates with
  | nil => exact ⟨[], nil_traced rfl rfl⟩
  | cons head tail ih =>
      rw [List.forall_mem_cons] at each
      rcases each.1 with ⟨_, complains⟩
      rcases demandInt_traced complains with ⟨sites, headTraced⟩
      rcases ih each.2 with ⟨branches, tailTraced⟩
      refine ⟨Branch.joined sites branches, ?_, ?_, ?_, ?_⟩
      · exact Branch.joined_apart headTraced.apart tailTraced.apart
      · rw [checkCoordinates_cons, Bool.and_eq_true, headTraced.sound_iff,
          tailTraced.sound_iff, Branch.joined_eq_nil_iff]
      · intro others alike
        rcases alike.of_cons with ⟨first, rest, rfl, headAlike, tailAlike⟩
        rw [checkCoordinates_cons]
        exact Branch.joined_raised (headTraced.raised first headAlike)
          (tailTraced.raised rest tailAlike)
      · rw [Branch.length_joined]
        exact Nat.add_le_add headTraced.few tailTraced.few

/-- Sizes are demanded up to the first that is no integer. -/
theorem checkSizes_traced {arguments : List Expr}
    (each : ∀ argument ∈ arguments, ∃ sites, argument.ComplainsAt chain sites) :
    ∃ branches, TracedAll (checkSizes chain) (· = true) arguments branches := by
  induction arguments with
  | nil => exact ⟨[], nil_traced rfl rfl⟩
  | cons head tail ih =>
      rw [List.forall_mem_cons] at each
      rcases each.1 with ⟨_, complains⟩
      rcases demandInt_traced complains with ⟨sites, headTraced⟩
      cases met : (demandInt chain .sizeType head).result with
      | true =>
          rcases ih each.2 with ⟨branches, tailTraced⟩
          cases headTraced.sound_iff.mp met
          refine ⟨Branch.joined [] branches, ?_, ?_, ?_, ?_⟩
          · exact Branch.joined_apart .nil tailTraced.apart
          · rw [checkSizes_cons, result_bind, if_pos met, tailTraced.sound_iff,
              Branch.joined_eq_nil_iff]
            exact (and_iff_right rfl).symm
          · intro others alike
            rcases alike.of_cons with ⟨first, rest, rfl, headAlike, tailAlike⟩
            rw [checkSizes_cons, diagnostics_bind, headAlike.demandInt_result_eq, if_pos met]
            exact Branch.joined_raised (headTraced.raised first headAlike)
              (tailTraced.raised rest tailAlike)
          · rw [Branch.length_joined]
            exact Nat.add_le_add headTraced.few tailTraced.few
      | false =>
          have unmet : ¬ (demandInt chain .sizeType head).result = true := by
            rw [met]
            exact Bool.false_ne_true
          refine ⟨Branch.joined sites [], ?_, ?_, ?_, ?_⟩
          · exact Branch.joined_apart headTraced.apart .nil
          · rw [checkSizes_cons, result_bind, if_neg unmet, Branch.joined_eq_nil_iff,
              ← headTraced.sound_iff]
            exact iff_of_false (by decide) fun both => unmet both.1
          · intro others alike
            rcases alike.of_cons with ⟨first, rest, rfl, headAlike, tailAlike⟩
            rw [checkSizes_cons, diagnostics_bind, headAlike.demandInt_result_eq, if_neg unmet]
            exact Branch.joined_raised (headTraced.raised first headAlike) .nil
          · rw [Branch.length_joined]
            exact Nat.add_le_add headTraced.few (Nat.zero_le _)

theorem outOfBounds_eq_append (size : Dim) (shape : Shape) :
    outOfBounds (head :: tail) (size :: shape) =
      (head.literal?.filter size.excludes).toList.map
          (fun index => ⟨.outOfBounds index size, head.span, none⟩) ++
        outOfBounds tail shape := by
  cases head with
  | int place index =>
      simp only [outOfBounds, literal?]
      split
      · rename_i outside
        simp [Option.filter, outside, span]
      · rename_i inside
        simp [Option.filter, inside]
  | _ => rfl

theorem outOfBounds_raised (coordinates : List Expr) (shape : Shape) :
    ∃ branches : List Branch, branches.Pairwise Branch.Apart ∧
      branches.length ≤ leavesOfAll coordinates ∧
      ∀ others : List Expr, AllAlike others coordinates →
        List.Forall₂ (Branch.Raised (others.map .expr)) branches (outOfBounds others shape) := by
  induction coordinates generalizing shape with
  | nil =>
      refine ⟨[], .nil, Nat.zero_le _, ?_⟩
      intro others alike
      rw [alike.of_nil]
      cases shape <;> exact .nil
  | cons head tail ih =>
      cases shape with
      | nil =>
          refine ⟨[], .nil, Nat.zero_le _, ?_⟩
          intro others alike
          rcases alike.of_cons with ⟨first, rest, rfl, _, _⟩
          cases first <;> exact .nil
      | cons size shape =>
          rcases ih shape with ⟨branches, apart, few, raised⟩
          cases excluded : head.literal?.filter size.excludes with
          | none =>
              refine ⟨Branch.joined [] branches, Branch.joined_apart .nil apart, ?_, ?_⟩
              · rw [Branch.length_joined]
                exact Nat.add_le_add (Nat.zero_le _) few
              · intro others alike
                rcases alike.of_cons with ⟨first, rest, rfl, headAlike, tailAlike⟩
                rw [outOfBounds_eq_append, headAlike.literal?_eq, excluded]
                exact Branch.joined_raised .nil (raised rest tailAlike)
          | some index =>
              refine ⟨Branch.joined [[]] branches, ?_, ?_, ?_⟩
              · exact Branch.joined_apart (List.pairwise_singleton _ _) apart
              · rw [Branch.length_joined]
                exact Nat.add_le_add head.leaves_pos few
              · intro others alike
                rcases alike.of_cons with ⟨first, rest, rfl, headAlike, tailAlike⟩
                rw [outOfBounds_eq_append, headAlike.literal?_eq, excluded]
                exact Branch.joined_raised (.cons ⟨.expr first, rfl, rfl⟩ .nil)
                  (raised rest tailAlike)

theorem checkSelection_eq (shape : Shape) (coordinates : List Expr) :
    (checkSelection shape coordinates).diagnostics = outOfBounds coordinates shape ∧
      ((checkSelection shape coordinates).result.isUndefined = false ↔
        outOfBounds coordinates shape = []) := by
  unfold checkSelection
  split
  · rename_i inside
    refine ⟨inside.symm, iff_of_true ?_ inside⟩
    rw [result_pure, selected]
    split <;> rfl
  · rename_i outside
    exact ⟨rfl, iff_of_false Bool.false_ne_true.symm outside⟩

theorem checkSelection_traced (shape : Shape) (coordinates : List Expr) :
    ∃ branches, TracedAll (checkSelection shape)
      (fun descriptor => descriptor.isUndefined = false) coordinates branches := by
  rcases outOfBounds_raised coordinates shape with ⟨branches, apart, few, raised⟩
  refine ⟨branches, apart, ?_, ?_, few⟩
  · rw [(checkSelection_eq shape coordinates).2]
    have lengths := (raised coordinates rfl).length_eq
    rw [← List.length_eq_zero_iff, ← List.length_eq_zero_iff, lengths]
  · intro others alike
    rw [(checkSelection_eq shape others).1]
    exact raised others alike

end Demands

/-! ## References and calls -/

theorem AllAlike.checkCoordinates_result {first second : List Expr}
    (alike : AllAlike first second) :
    (checkCoordinates chain first).result = (checkCoordinates chain second).result := by
  have bareResult (exprs : List Expr) : (checkCoordinates chain exprs).result =
      (checkCoordinates chain (bareAll exprs)).result := by
    rw [checkCoordinates_bare fun expr _ => expr.check_bare]
    rfl
  rw [bareResult first, bareResult second, alike]

theorem AllAlike.checkSizes_result {first second : List Expr}
    (alike : AllAlike first second) :
    (checkSizes chain first).result = (checkSizes chain second).result := by
  have bareResult (exprs : List Expr) : (checkSizes chain exprs).result =
      (checkSizes chain (bareAll exprs)).result := by
    rw [checkSizes_bare fun expr _ => expr.check_bare]
    rfl
  rw [bareResult first, bareResult second, alike]

theorem call_complainsAt {builtin : Builtin} {arguments : List Expr}
    (each : ∀ argument ∈ arguments, ∃ sites, argument.ComplainsAt chain sites) :
    ∃ sites, (Expr.call span builtin arguments).ComplainsAt chain sites := by
  rcases checkSizes_traced each with ⟨branches, traced⟩
  by_cases none : branches = []
  · subst none
    refine complainsAt_of_settles fun other alike => ?_
    rcases alike.of_call with ⟨place, sizes, rfl, same⟩
    refine .after (List.forall₂_nil_left_iff.mp (traced.raised sizes same)) ?_
    rw [if_pos (same.checkSizes_result.trans (traced.sound_iff.mpr rfl))]
    exact checkConstructor_settles builtin sizes
  · have unmet (sizes : List Expr) (same : AllAlike sizes arguments) :
        ¬ (checkSizes chain sizes).result = true := by
      rw [same.checkSizes_result]
      exact fun met => none (traced.sound_iff.mp met)
    refine ⟨_, complainsAt_of_branches branches none traced.apart ?_ ?_ ?_⟩
    · exact Nat.le_trans traced.few (Nat.le_max_right _ _)
    · rw [check, result_bind, if_neg (unmet arguments rfl)]
      rfl
    · intro other alike
      rcases alike.of_call with ⟨place, sizes, rfl, same⟩
      rw [check, diagnostics_bind, if_neg (unmet sizes same), diagnostics_pure, List.append_nil]
      exact traced.raised sizes same

/-- Check the coordinates of a reference into an array of a given shape. -/
def checkPlaces (chain : ScopeChain) (shape : Shape) (coordinates : List Expr) :
    Checked Descriptor := do
  let sound ← checkCoordinates chain coordinates
  if sound then checkSelection shape coordinates else pure .undefined

/-- Coordinates are compared with their dimensions only if all of them are integers. -/
theorem checkPlaces_traced (shape : Shape) {coordinates : List Expr}
    (each : ∀ coordinate ∈ coordinates, ∃ sites, coordinate.ComplainsAt chain sites) :
    ∃ branches, TracedAll (checkPlaces chain shape)
      (fun descriptor => descriptor.isUndefined = false) coordinates branches := by
  rcases checkCoordinates_traced each with ⟨demanded, demands⟩
  rcases checkSelection_traced shape coordinates with ⟨selected, selects⟩
  by_cases none : demanded = []
  · subst none
    have sound (places : List Expr) (same : AllAlike places coordinates) :
        (checkCoordinates chain places).result = true :=
      same.checkCoordinates_result.trans (demands.sound_iff.mpr rfl)
    refine ⟨selected, selects.apart, ?_, ?_, selects.few⟩
    · rw [checkPlaces, result_bind, if_pos (sound coordinates rfl)]
      exact selects.sound_iff
    · intro places same
      rw [checkPlaces, diagnostics_bind, if_pos (sound places same),
        List.forall₂_nil_left_iff.mp (demands.raised places same)]
      exact selects.raised places same
  · have unsound (places : List Expr) (same : AllAlike places coordinates) :
        ¬ (checkCoordinates chain places).result = true := by
      rw [same.checkCoordinates_result]
      exact fun sound => none (demands.sound_iff.mp sound)
    refine ⟨demanded, demands.apart, ?_, ?_, demands.few⟩
    · rw [checkPlaces, result_bind, if_neg (unsound coordinates rfl)]
      exact iff_of_false Bool.false_ne_true.symm none
    · intro places same
      rw [checkPlaces, diagnostics_bind, if_neg (unsound places same), diagnostics_pure,
        List.append_nil]
      exact demands.raised places same

theorem reference_of_found {name : String} {container : Descriptor}
    (found : chain.get? name = some container) (defined : container.isUndefined = false)
    (place word : Span) (coordinates : List Expr) :
    (Expr.reference place ⟨name, word⟩ coordinates).check chain =
      if container.shape.length < coordinates.length then refuse .tooManyCoordinates place
      else checkPlaces chain container.shape coordinates := by
  rw [check, checkVariable, found, bind_eq, result_pure, diagnostics_pure, defined]
  rfl

/-- A reference to a name that is not visible is a complaint about the name. -/
theorem reference_complainsAt_name {name : Located String} {coordinates : List Expr}
    (missing : chain.get? name.item = none) :
    ∃ sites, (Expr.reference span name coordinates).ComplainsAt chain sites := by
  have checked (place other : Span) (places : List Expr) :
      (Expr.reference place ⟨name.item, other⟩ places).check chain =
        ⟨.undefined, [⟨.undefinedVariable name.item, other,
          suggestion? name.item chain.visibleNames⟩]⟩ := by
    rw [check, checkVariable, missing]
    rfl
  refine ⟨_, complainsAt_of_branches [⟨0, []⟩] (by rintro ⟨⟩) (List.pairwise_singleton _ _)
    (leaves_pos _) ?_ ?_⟩
  · rw [checked]
    rfl
  · intro other alike
    rcases alike.of_reference with ⟨place, word, places, rfl, _⟩
    rw [checked]
    exact .cons ⟨.name ⟨name.item, word⟩, rfl, .name ⟨name.item, word⟩, rfl, rfl⟩ .nil

theorem reference_complainsAt {name : Located String} {coordinates : List Expr}
    (defined : ∀ name descriptor, chain.get? name = some descriptor →
      descriptor.isUndefined = false)
    (each : ∀ coordinate ∈ coordinates, ∃ sites, coordinate.ComplainsAt chain sites) :
    ∃ sites, (Expr.reference span name coordinates).ComplainsAt chain sites := by
  cases found : chain.get? name.item with
  | none => exact reference_complainsAt_name found
  | some container =>
      have checked := reference_of_found found (defined _ _ found)
      by_cases many : container.shape.length < coordinates.length
      · refine complainsAt_of_settles fun other alike => ?_
        rcases alike.of_reference with ⟨place, word, places, rfl, same⟩
        rw [checked, if_pos (same.length_eq ▸ many)]
        exact refuse_settles _ place
      · have few (places : List Expr) (same : AllAlike places coordinates) :
            ¬ container.shape.length < places.length := same.length_eq ▸ many
        rcases checkPlaces_traced container.shape each with ⟨branches, traced⟩
        by_cases none : branches = []
        · subst none
          have accepted : ((Expr.reference span name coordinates).check chain).result.isUndefined =
              false := by
            rw [checked, if_neg (few coordinates rfl)]
            exact traced.sound_iff.mpr rfl
          refine complainsAt_of_settles fun other alike => .inl ⟨?_, ?_⟩
          · rw [alike.check_result]
            exact accepted
          · rcases alike.of_reference with ⟨place, word, places, rfl, same⟩
            rw [checked, if_neg (few places same)]
            exact List.forall₂_nil_left_iff.mp (traced.raised places same)
        · refine ⟨_, complainsAt_of_branches (branches.map Branch.next) ?_
            (Branch.next_apart traced.apart) ?_ ?_ ?_⟩
          · simpa using none
          · rw [List.length_map]
            exact Nat.le_trans traced.few (Nat.le_max_right _ _)
          · rw [checked, if_neg (few coordinates rfl), ← Bool.not_eq_false]
            exact fun sound => none (traced.sound_iff.mp sound)
          · intro other alike
            rcases alike.of_reference with ⟨place, word, places, rfl, same⟩
            rw [checked, if_neg (few places same)]
            exact Branch.next_raised (traced.raised places same)

/-- The expression is a vector or a matrix that is written out. -/
def isArrayLiteral : Expr → Bool
  | .vector _ _ | .matrix _ _ => true
  | _ => false

/-- A literal of a single value is never complained about. -/
theorem complainsAt_of_silent (silent : (expr.check chain).diagnostics = [])
    (defined : (expr.check chain).result.isUndefined = false) : expr.ComplainsAt chain [] := by
  refine ⟨.nil, iff_of_true defined rfl, ?_, Nat.zero_le _⟩
  intro other alike
  have same : (other.check chain).bare.diagnostics = (expr.check chain).bare.diagnostics := by
    rw [alike.check_bare_eq]
  simp only [Checked.bare, silent, List.map_nil, List.map_eq_nil_iff] at same
  rw [same]
  exact .nil

/-- Where nothing visible is undefined, the complaints about an expression are independent. -/
theorem exists_complainsAt
    (defined : ∀ name descriptor, chain.get? name = some descriptor →
      descriptor.isUndefined = false)
    (expr : Expr) (plain : ∀ node ∈ expr.nodes, node.isArrayLiteral = false) :
    ∃ sites, expr.ComplainsAt chain sites := by
  induction expr with
  | int => exact ⟨[], complainsAt_of_silent rfl rfl⟩
  | float => exact ⟨[], complainsAt_of_silent rfl rfl⟩
  | string => exact ⟨[], complainsAt_of_silent rfl rfl⟩
  | var span name =>
      refine complainsAt_of_settles fun other alike => ?_
      rcases alike.of_var with ⟨place, rfl⟩
      exact checkVariable_settles defined name
  | vector => cases plain _ (self_mem_nodes _)
  | matrix => cases plain _ (self_mem_nodes _)
  | reference span name coordinates each =>
      refine reference_complainsAt defined fun coordinate member => ?_
      refine each coordinate member fun node inside => plain node ?_
      exact List.mem_cons_of_mem _ (nodes_subset_nodesOfAll member inside)
  | call span builtin arguments each =>
      refine call_complainsAt fun argument member => ?_
      refine each argument member fun node inside => plain node ?_
      exact List.mem_cons_of_mem _ (nodes_subset_nodesOfAll member inside)
  | binary span left op right leftIH rightIH =>
      rcases leftIH fun node inside => plain node (by simp [nodes, inside]) with
        ⟨leftSites, leftTraced⟩
      rcases rightIH fun node inside => plain node (by simp [nodes, inside]) with
        ⟨rightSites, rightTraced⟩
      refine operands_complainAt (fun span => checkBinary span op)
        (fun span first second undefined => if_pos undefined)
        (fun span first second => checkBinary_settles) rfl ?_ leftTraced rightTraced
      intro other alike
      rcases alike.of_binary with ⟨place, first, second, rfl, leftAlike, rightAlike⟩
      exact ⟨first, second, leftAlike, rightAlike, rfl, rfl⟩
  | compare span left op right leftIH rightIH =>
      rcases leftIH fun node inside => plain node (by simp [nodes, inside]) with
        ⟨leftSites, leftTraced⟩
      rcases rightIH fun node inside => plain node (by simp [nodes, inside]) with
        ⟨rightSites, rightTraced⟩
      refine operands_complainAt (fun span => checkComparison span op)
        (fun span first second undefined => if_pos undefined)
        (fun span first second => checkComparison_settles) rfl ?_ leftTraced rightTraced
      intro other alike
      rcases alike.of_compare with ⟨place, first, second, rfl, leftAlike, rightAlike⟩
      exact ⟨first, second, leftAlike, rightAlike, rfl, rfl⟩
  | unary span op operand ih =>
      rcases ih fun node inside => plain node (by simp [nodes, inside]) with ⟨sites, traced⟩
      exact unary_complainsAt traced

end Expr

namespace Checker

/--
What is found about an expression without array literals, if no visible name is undefined.
The expression is undefined just if a diagnostic is added.  The diagnostics belong to places
none of which is inside another: in every expression that differs only in its spans, the
spans of these places are those of its diagnostics.  So there are no more of them than leaves.
-/
theorem complaints_independent (checker : Checker) (expr : Expr)
    (defined : ∀ name descriptor, checker.lookup? name = some descriptor →
      descriptor.isUndefined = false)
    (plain : ∀ node ∈ expr.nodes, node.isArrayLiteral = false) :
    ∃ (added : List Diagnostic) (sites : List Address),
      (checker.checkExpr expr).2.diagnostics = checker.diagnostics ++ added ∧
      ((checker.checkExpr expr).1.isUndefined = true ↔ added ≠ []) ∧
      sites.Pairwise Address.Apart ∧
      List.Forall₂ (Node.expr expr).RaisedAt sites added ∧
      (∀ other : Expr, other.Alike expr → ∃ others : List Diagnostic,
        (checker.checkExpr other).2.diagnostics = checker.diagnostics ++ others ∧
          List.Forall₂ (Node.expr other).RaisedAt sites others) ∧
      added.length ≤ expr.leaves := by
  rcases Expr.exists_complainsAt defined expr plain with ⟨sites, traced⟩
  have raised := traced.raised expr rfl
  refine ⟨(expr.check checker.chain).diagnostics, sites, rfl, ?_, traced.apart, raised, ?_, ?_⟩
  · show (expr.check checker.chain).result.isUndefined = true ↔ _
    rw [← Bool.not_eq_false, not_iff_not, traced.sound_iff, ← List.length_eq_zero_iff,
      ← List.length_eq_zero_iff, raised.length_eq]
  · intro other alike
    exact ⟨(other.check checker.chain).diagnostics, rfl, traced.raised other alike⟩
  · rw [← raised.length_eq]
    exact traced.few

/-- The expression `m[q, "a"] + (1 - "b") * zeros(1.5)`. -/
def fourFaults : Expr :=
  .binary default
    (.reference default ⟨"m", default⟩ [.var default "q", .string default "a"]) (.plain .add)
    (.binary default (.binary default (.int default 1) (.plain .sub) (.string default "b"))
      (.plain .mul) (.call default .zeros [.float default 1.5]))

/-- Each of four faults is complained about once, and none of the operations around them. -/
theorem complaints_independent_fourFaults :
    let checker : Checker := ⟨ScopeChain.root.put "m" (.matrix (.known 2) (.known 2)), 0, []⟩
    ∃ (added : List Diagnostic) (sites : List Address),
      (checker.checkExpr fourFaults).2.diagnostics = added ∧ added.length = 4 ∧
      (checker.checkExpr fourFaults).1.isUndefined = true ∧
      sites.Pairwise Address.Apart ∧
      List.Forall₂ (Node.expr fourFaults).RaisedAt sites added ∧
      added.length ≤ fourFaults.leaves := by
  intro checker
  have defined : ∀ name descriptor, checker.lookup? name = some descriptor →
      descriptor.isUndefined = false := by
    intro name descriptor found
    rw [lookup?, ScopeChain.get?_put] at found
    split at found
    · cases found
      rfl
    · cases found
  have plain : ∀ node ∈ fourFaults.nodes, node.isArrayLiteral = false := by decide +kernel
  have four : (checker.checkExpr fourFaults).2.diagnostics.length = 4 := by decide +kernel
  rcases complaints_independent checker fourFaults defined plain with
    ⟨added, sites, same, undefined_iff, apart, raised, _, few⟩
  rw [same] at four
  refine ⟨added, sites, same, four, undefined_iff.mpr ?_, apart, raised, few⟩
  rintro rfl
  cases four

end Checker

end MatrixScript

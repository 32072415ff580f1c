import MatrixScript.Proofs.Expr.Independence
import MatrixScript.Proofs.Stmt.Checking
import MatrixScript.Proofs.Stmt.Execution
import MatrixScript.Proofs.Stmt.Layout

/-!
# Compound assignments spelled out

A compound assignment is short for a plain one, whose value is the operation on the target
and the old value.  The two are checked by different rules, and executed in different
orders: the compound assignment reads its target after its value, the plain one before.

Among defined names both are accepted or none is, and if they are, they leave the checker
in the same state.  If the target is a reference or a variable of the top frame, both leave
the same memory, or both fail and leave the machine as it was.  The faults may be different.
-/

namespace MatrixScript

/-- Two computations with the same results end with one result, or both with a fault. -/
theorem both_of_toOption_eq {α : Type} {first second : Except Fault α}
    (same : first.toOption = second.toOption) :
    (∃ result, first = .ok result ∧ second = .ok result) ∨
      ∃ fault other, first = .error fault ∧ second = .error other := by
  cases first with
  | ok result =>
      cases second with
      | ok other =>
          cases same
          exact .inl ⟨result, rfl, rfl⟩
      | error fault => cases same
  | error fault =>
      cases second with
      | ok result => cases same
      | error other => exact .inr ⟨fault, other, rfl, rfl⟩

theorem Checked.bind_of_silent {α β : Type} {first : Checked α} {next : α → Checked β}
    (silent : first.diagnostics = []) : (first >>= next) = next first.result := by
  rw [bind_eq, silent, List.nil_append]

namespace Stmt

open Checked

/-- The plain assignment that a compound assignment is short for. -/
def expansion (span : Span) (target : Expr) (arith : Arith) (value : Expr) : Stmt :=
  .assign span target .plain (.binary default target (.plain arith) value)

variable {span place : Span} {target value : Expr} {arith : Arith}

/-! ## Checking -/

section Checking

variable {chain : ScopeChain}

/-- The operands of an accepted operation are accepted, and their types and shapes fit. -/
theorem binary_clean (chainDefined : chain.Defined)
    (accepted : (Expr.binary place target (.plain arith) value).Accepted chain) :
    target.Accepted chain ∧ value.Accepted chain ∧
      ∃ ty shape, Signature.binary (.plain arith) (target.check chain).result.ty
          (value.check chain).result.ty = some ty ∧
        Signature.shape? (.plain arith) (target.check chain).result
          (value.check chain).result = some shape ∧
        ((Expr.binary place target (.plain arith) value).check chain).result = .of ty shape := by
  simp only [Expr.Accepted, Expr.check, diagnostics_bind, result_bind, List.append_eq_nil_iff]
    at accepted ⊢
  rcases accepted with ⟨targetClean, valueClean, combinedClean⟩
  refine ⟨targetClean, valueClean, ?_⟩
  rw [Expr.checkBinary, Expr.check_defined chainDefined target targetClean,
    Expr.check_defined chainDefined value valueClean, if_neg (by decide)] at combinedClean ⊢
  split at combinedClean
  · cases combinedClean
  · rename_i ty combined
    split at combinedClean
    · cases combinedClean
    · rename_i shape shaped
      exact ⟨ty, shape, combined, shaped, rfl⟩

theorem checkCompound_of_accepted (chainDefined : chain.Defined)
    (accepted : (Expr.binary place target (.plain arith) value).Accepted chain) :
    checkCompound chain span target arith value =
      checkStore chain span target (target.check chain).result
        ((Expr.binary place target (.plain arith) value).check chain).result := by
  rcases binary_clean chainDefined accepted with
    ⟨targetClean, valueClean, ty, shape, combined, shaped, result⟩
  rw [checkCompound, bind_of_silent targetClean, bind_of_silent valueClean,
    Expr.check_defined chainDefined target targetClean,
    Expr.check_defined chainDefined value valueClean, if_neg (by decide), result]
  simp only [combined, shaped]

theorem checkPlain_of_accepted (chainDefined : chain.Defined)
    (accepted : (Expr.binary place target (.plain arith) value).Accepted chain) :
    checkPlain chain span target (.binary place target (.plain arith) value) =
      checkStore chain span target (target.check chain).result
        ((Expr.binary place target (.plain arith) value).check chain).result := by
  have targetClean := (binary_clean chainDefined accepted).1
  have oldDefined := Expr.check_defined chainDefined target targetClean
  have newDefined := Expr.check_defined chainDefined _ accepted
  cases target with
  | reference targetSpan name coordinates =>
      rw [checkPlain, bind_of_silent targetClean, bind_of_silent accepted, oldDefined, newDefined,
        if_neg (by decide)]
      rfl
  | _ => exact bind_of_silent accepted

theorem accepted_of_checkPlain (clean : (checkPlain chain span target value).diagnostics = []) :
    value.Accepted chain := by
  unfold checkPlain at clean
  split at clean
  · exact (List.append_eq_nil_iff.mp clean).1
  · simp only [diagnostics_bind, List.append_eq_nil_iff] at clean
    exact clean.2.1
  · exact (List.append_eq_nil_iff.mp clean).1

theorem accepted_of_checkCompound (chainDefined : chain.Defined)
    (clean : (checkCompound chain span target arith value).diagnostics = []) :
    (Expr.binary place target (.plain arith) value).Accepted chain := by
  simp only [checkCompound, diagnostics_bind, List.append_eq_nil_iff] at clean
  rcases clean with ⟨targetClean, valueClean, storeClean⟩
  have oldDefined := Expr.check_defined chainDefined target targetClean
  have newDefined := Expr.check_defined chainDefined value valueClean
  rw [Expr.Accepted, Expr.check, bind_of_silent targetClean, bind_of_silent valueClean,
    Expr.checkBinary, oldDefined, newDefined, if_neg (by decide)]
  rw [oldDefined, newDefined, if_neg (by decide)] at storeClean
  cases combined : Signature.binary (.plain arith) (target.check chain).result.ty
      (value.check chain).result.ty with
  | none =>
      rw [combined] at storeClean
      cases storeClean
  | some ty =>
      rw [combined] at storeClean
      cases shaped : Signature.shape? (.plain arith) (target.check chain).result
          (value.check chain).result with
      | none =>
          dsimp only at storeClean
          rw [shaped] at storeClean
          cases storeClean
      | some shape => exact diagnostics_pure _

/-- A compound assignment and its expansion are checked alike, or both refused. -/
theorem check_expansion (span : Span) (target : Expr) (arith : Arith) (value : Expr)
    {checker : Checker} (chainDefined : checker.chain.Defined) :
    (Stmt.assign span target (.compound arith) value).check checker =
        (expansion span target arith value).check checker ∨
      ((Stmt.assign span target (.compound arith) value).check checker).diagnostics ≠
          checker.diagnostics ∧
        ((expansion span target arith value).check checker).diagnostics ≠
          checker.diagnostics := by
  rw [expansion, check, check, checkAssign, checkAssign]
  by_cases accepted : (Expr.binary default target (.plain arith) value).Accepted checker.chain
  · left
    rw [checkCompound_of_accepted chainDefined accepted,
      checkPlain_of_accepted chainDefined accepted]
  · right
    constructor
    · intro silent
      exact accepted (accepted_of_checkCompound chainDefined (List.append_right_eq_self.mp silent))
    · intro silent
      exact accepted (accepted_of_checkPlain (List.append_right_eq_self.mp silent))

end Checking

section Layout

variable {first second : Stmt} {checker : Checker}

theorem check_bare_eq (same : first.bare = second.bare) :
    (first.check checker).bare = (second.check checker).bare := by
  rw [← check_bare first checker, ← check_bare second checker, same]

/-- The check of a statement adds a diagnostic or none, whatever spans the statement has. -/
theorem check_silent_iff (same : first.bare = second.bare) :
    (first.check checker).diagnostics = checker.diagnostics ↔
      (second.check checker).diagnostics = checker.diagnostics := by
  have alike : (first.check checker).bare = (second.check checker).bare := check_bare_eq same
  have asMany := congrArg (fun after : Checker => after.diagnostics.length) alike
  simp only [Checker.bare, List.length_map] at asMany
  -- A check only appends, so that the number of diagnostics tells whether it did.
  have silent_iff (statement : Stmt) :
      (statement.check checker).diagnostics = checker.diagnostics ↔
        (statement.check checker).diagnostics.length = checker.diagnostics.length := by
    constructor
    · intro silent
      rw [silent]
    · intro noMore
      exact ((statement.check_extends checker).diagnostics.eq_of_length noMore.symm).symm
  rw [silent_iff, silent_iff, asMany]

theorem check_eq_of_silent (same : first.bare = second.bare)
    (silent : (first.check checker).diagnostics = checker.diagnostics) :
    first.check checker = second.check checker := by
  have alike : (first.check checker).bare = (second.check checker).bare := check_bare_eq same
  have silentToo := (check_silent_iff same).mp silent
  cases firstAfter : first.check checker
  cases secondAfter : second.check checker
  rw [firstAfter] at alike silent
  rw [secondAfter] at alike silentToo
  cases silent
  cases silentToo
  cases alike
  rfl

end Layout

/-! ## Execution -/

section Execution

variable {memory : Memory}

/-- A variable of the top frame and a slot are declared where they are overwritten. -/
theorem insert_eq_set {found : Place}
    (inTop : ∀ targetSpan name, target = .var targetSpan name → name ∈ memory.top.names)
    (located : target.place memory = .ok found) (new : Value) :
    memory.insert found new = memory.set found new := by
  cases target with
  | var targetSpan name =>
      cases located
      rw [Memory.set, Memory.store, Memory.update_eq_bind (inTop targetSpan name rfl)]
      rfl
  | reference targetSpan name coordinates =>
      rcases Expr.place_of_reference located with ⟨places, _, rfl⟩
      rfl
  | _ => cases located

theorem assigned_plain_eq {found : Place} (located : target.place memory = .ok found) :
    assigned memory target .plain value = (value.eval memory >>= memory.insert found) := by
  rw [assigned_eq_insert, located, ok_bind]

/-- A compound assignment and its expansion store the same, or none of them stores. -/
theorem assigned_compound_eq
    (inTop : ∀ targetSpan name, target = .var targetSpan name → name ∈ memory.top.names) :
    (assigned memory target (.compound arith) value).toOption =
      (assigned memory target .plain (.binary place target (.plain arith) value)).toOption := by
  cases located : target.place memory with
  | error fault =>
      rw [assigned_eq_set, assigned_eq_insert, located]
      rfl
  | ok found =>
      rw [assigned_plain_eq located, assigned_eq_set, located, ok_bind, Expr.eval,
        Expr.eval_of_place located]
      cases value.eval memory with
      -- If the target cannot be read either, each form stops at a fault of its own.
      | error fault => cases memory.get found <;> rfl
      | ok new =>
          cases memory.get found with
          | error fault => rfl
          | ok old =>
              simp only [ok_bind]
              cases Value.binary (.plain arith) old new with
              | error fault => rfl
              | ok combined => rw [ok_bind, ok_bind, insert_eq_set inTop located]

/-- An assignment does the same with other spans, but for the line of its fault. -/
theorem exec_of_bare_eq {statement : Stmt} {op : AssignOp}
    (same : statement.bare = (Stmt.assign span target op value).bare) (allowance : Nat)
    (machine : Machine) :
    statement.exec allowance machine =
      (Stmt.assign statement.span target op value).exec allowance machine := by
  cases statement with
  | assign otherSpan otherTarget otherOp otherValue =>
      rw [bare, bare, assign.injEq] at same
      rcases same with ⟨_, sameTarget, rfl, sameValue⟩
      rw [exec_eq, exec_eq, unwrapped, unwrapped, ← assigned_bare _ otherTarget, sameTarget,
        sameValue, assigned_bare]
      rfl
  | branch otherSpan condition thenBranch elseBranch => cases elseBranch <;> cases same
  | _ => cases same

end Execution

/--
A compound assignment and its expansion, with whatever spans, are both accepted or both
refused where no name is undefined.  They leave the same memory or both fail, unless the
target is a variable that the top frame does not have.
-/
theorem compound_assignment_expands {expanded : Stmt}
    (same : expanded.bare = (expansion span target arith value).bare) :
    (∀ checker : Checker,
      (∀ name descriptor, checker.lookup? name = some descriptor →
        descriptor.isUndefined = false) →
      (((Stmt.assign span target (.compound arith) value).check checker).diagnostics =
          checker.diagnostics ↔ (expanded.check checker).diagnostics = checker.diagnostics) ∧
      ((expanded.check checker).diagnostics = checker.diagnostics →
        (Stmt.assign span target (.compound arith) value).check checker =
          expanded.check checker)) ∧
    ∀ (allowance : Nat) (machine : Machine),
      (∀ targetSpan name, target = .var targetSpan name → name ∈ machine.memory.top.names) →
      (∃ after,
        (Stmt.assign span target (.compound arith) value).exec allowance machine =
            some (.done .normal ⟨after, machine.transcript⟩) ∧
          expanded.exec allowance machine =
            some (.done .normal ⟨after, machine.transcript⟩)) ∨
      ∃ fault other,
        (Stmt.assign span target (.compound arith) value).exec allowance machine =
            some (.failed fault span.line machine) ∧
          expanded.exec allowance machine =
            some (.failed other expanded.span.line machine) := by
  constructor
  · intro checker chainDefined
    rw [← check_silent_iff same.symm]
    rcases check_expansion span target arith value chainDefined with
      alike | ⟨refused, refusedToo⟩
    · rw [alike]
      exact ⟨Iff.rfl, fun silent => check_eq_of_silent same.symm silent⟩
    · exact ⟨iff_of_false refused refusedToo, fun silent => absurd silent refusedToo⟩
  · intro allowance machine inTop
    have stored : (assigned machine.memory target (.compound arith) value).toOption =
        (assigned machine.memory target .plain
          (.binary default target (.plain arith) value)).toOption := assigned_compound_eq inTop
    rw [exec_of_bare_eq same, exec_eq, exec_eq, unwrapped, unwrapped]
    rcases both_of_toOption_eq stored with
      ⟨after, compound, plain⟩ | ⟨fault, other, compound, plain⟩
    · left
      refine ⟨after, ?_⟩
      simp only [compound, plain, and_self]
    · right
      refine ⟨fault, other, ?_⟩
      simp only [compound, plain, and_self]

namespace Sample

/-- The slot `v[i]`, on a given line. -/
def slot (line : Nat) : Expr :=
  .reference ⟨0, 4, line⟩ ⟨"v", ⟨0, 1, line⟩⟩ [.var ⟨2, 3, line⟩ "i"]

/-- The statement `v[i] *= v[0];`. -/
def scaled : Stmt :=
  .assign ⟨0, 12, 1⟩ (slot 1) (.compound .mul) (.reference default ⟨"v", default⟩ [.int default 0])

/-- The statement `v[i] = v[i] * v[0];`, on the next line. -/
def scaledInFull : Stmt :=
  .assign ⟨13, 32, 2⟩ (slot 2) .plain
    (.binary ⟨20, 31, 2⟩ (slot 2) (.plain .mul)
      (.reference ⟨27, 31, 2⟩ ⟨"v", ⟨27, 28, 2⟩⟩ [.int ⟨29, 30, 2⟩ 0]))

/-- A vector of three elements and an index. -/
def indexing : Checker :=
  ⟨(ScopeChain.root.put "v" (.vector (.known 3))).put "i" (.scalar .int), 0, []⟩

/-- The same at run time, with the index in range. -/
def indexed : Machine :=
  ⟨(Memory.root.bind "v" (.array [.int 3, .int 5, .int 7])).bind "i" (.int 2), .empty⟩

end Sample

theorem compound_assignment_expands_slot :
    (∀ name descriptor, Sample.indexing.lookup? name = some descriptor →
      descriptor.isUndefined = false) ∧
    Sample.scaled.check Sample.indexing = Sample.scaledInFull.check Sample.indexing ∧
    ∃ after,
      Sample.scaled.exec 1 Sample.indexed = some (.done .normal ⟨after, .empty⟩) ∧
        Sample.scaledInFull.exec 1 Sample.indexed = some (.done .normal ⟨after, .empty⟩) := by
  have rootFormed : ScopeChain.root.Formed fun _ => True := by
    intro name descriptor impossible
    cases impossible
  have formed : ScopeChain.Formed (fun _ => True) Sample.indexing.chain :=
    (rootFormed.put "v" (.vector "" trivial)).put "i" (.int "")
  have same : Sample.scaledInFull.bare = (expansion ⟨0, 12, 1⟩ (Sample.slot 1) .mul
    (.reference default ⟨"v", default⟩ [.int default 0])).bare := rfl
  rcases compound_assignment_expands same with ⟨checked, executed⟩
  refine ⟨formed.defined, (checked Sample.indexing formed.defined).2 rfl, ?_⟩
  rcases executed 1 Sample.indexed (by rintro _ _ ⟨⟩) with done | ⟨fault, other, failed, _⟩
  · exact done
  · cases failed

end Stmt

end MatrixScript

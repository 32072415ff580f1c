import MatrixScript.Signature

/-!
# The rules behind the signatures

The signature of an operator is computed from the types of its operands.  Here the
same is said by rules, one for each thing an operator can do: with numbers, with
texts, with two arrays place by place, with two arrays as a product, and with an
array and a number.  An accepted operation is an instance of a rule.
-/

namespace MatrixScript

theorem Ty.isNumeric_iff {ty : Ty} : ty.isNumeric = true ↔ ty = .int ∨ ty = .float := by
  cases ty <;> simp [isNumeric]

theorem Ty.isAggregate_iff {ty : Ty} :
    ty.isAggregate = true ↔ ty = .vector ∨ ty = .matrix := by
  cases ty <;> simp [isAggregate]

namespace Signature

/-- The ways in which an operator accepts two types and yields a third. -/
inductive Rule : BinaryOp → Ty → Ty → Ty → Prop where
  | integers {arith : Arith} (whole : arith ≠ .div) :
      Rule (.plain arith) .int .int .int
  | numbers {arith : Arith} {left right : Ty} (leftNumeric : left.isNumeric = true)
      (rightNumeric : right.isNumeric = true) :
      Rule (.plain arith) left right .float
  | texts : Rule (.plain .add) .string .string .string
  | places {op : BinaryOp} {array : Ty} (aggregate : array.isAggregate = true)
      (byPlace : op.dotted = true ∨ op.arith = .add ∨ op.arith = .sub) :
      Rule op array array array
  | vectors : Rule (.plain .mul) .vector .vector .float
  | matrices : Rule (.plain .mul) .matrix .matrix .matrix
  | arrayByNumber {arith : Arith} {array number : Ty} (scales : arith = .mul ∨ arith = .div)
      (aggregate : array.isAggregate = true) (numeric : number.isNumeric = true) :
      Rule (.plain arith) array number array
  | numberByArray {array number : Ty} (aggregate : array.isAggregate = true)
      (numeric : number.isNumeric = true) :
      Rule (.plain .mul) number array array

variable {left right result : Ty}

theorem numeric_eq_some (accepted : numeric left right = some result) :
    (left = .int ∧ right = .int ∧ result = .int) ∨
      (left.isNumeric = true ∧ right.isNumeric = true ∧ result = .float) := by
  unfold numeric at accepted
  split at accepted <;> simp_all [Ty.isNumeric]

theorem aggregates_eq_some (accepted : aggregates left right = some result) :
    left = result ∧ right = result ∧ result.isAggregate = true := by
  unfold aggregates at accepted
  split at accepted <;> simp at accepted <;> subst accepted <;> exact ⟨rfl, rfl, rfl⟩

theorem scaled_eq_some {array number : Ty} (accepted : scaled array number = some result) :
    array = result ∧ array.isAggregate = true ∧ number.isNumeric = true := by
  unfold scaled at accepted
  split at accepted
  · rename_i both
    cases accepted
    exact ⟨rfl, by simpa using both⟩
  · cases accepted

theorem numbersOnly_eq_some {kind : Ty}
    (accepted : numbersOnly kind left right = some result) :
    left.isNumeric = true ∧ right.isNumeric = true ∧ result = kind := by
  unfold numbersOnly at accepted
  split at accepted
  · rename_i both
    cases accepted
    rcases Bool.and_eq_true_iff.mp both with ⟨leftNumeric, rightNumeric⟩
    exact ⟨leftNumeric, rightNumeric, rfl⟩
  · cases accepted

theorem Rule.of_numeric {arith : Arith} (whole : arith ≠ .div)
    (accepted : numeric left right = some result) :
    Rule (.plain arith) left right result := by
  rcases numeric_eq_some accepted with ⟨rfl, rfl, rfl⟩ | ⟨leftNumeric, rightNumeric, rfl⟩
  · exact .integers whole
  · exact .numbers leftNumeric rightNumeric

theorem Rule.of_aggregates {op : BinaryOp}
    (byPlace : op.dotted = true ∨ op.arith = .add ∨ op.arith = .sub)
    (accepted : aggregates left right = some result) : Rule op left right result := by
  rcases aggregates_eq_some accepted with ⟨rfl, rfl, aggregate⟩
  exact .places aggregate byPlace

theorem Rule.of_sum (accepted : sum left right = some result) :
    Rule (.plain .add) left right result := by
  unfold sum at accepted
  split at accepted
  · rename_i strings
    rcases strings with ⟨rfl, rfl⟩
    cases accepted
    exact .texts
  · rcases Option.or_eq_some_iff.mp (by simpa using accepted) with numbers | ⟨_, arrays⟩
    · exact of_numeric (by decide) numbers
    · exact of_aggregates (.inr (.inl rfl)) arrays

theorem Rule.of_difference (accepted : difference left right = some result) :
    Rule (.plain .sub) left right result := by
  unfold difference at accepted
  rcases Option.or_eq_some_iff.mp (by simpa using accepted) with numbers | ⟨_, arrays⟩
  · exact of_numeric (by decide) numbers
  · exact of_aggregates (.inr (.inr rfl)) arrays

theorem Rule.of_product (accepted : product left right = some result) :
    Rule (.plain .mul) left right result := by
  unfold product at accepted
  split at accepted
  · rename_i pair
    rcases pair with ⟨rfl, rfl⟩
    cases accepted
    exact .vectors
  · rename_i notVectors
    simp only [Option.orElse_eq_orElse, Option.orElse_eq_or, Option.or_eq_some_iff] at accepted
    rcases accepted with numbers | ⟨_, arrays | ⟨_, scaledLeft | ⟨_, scaledRight⟩⟩⟩
    · exact of_numeric (by decide) numbers
    · rcases aggregates_eq_some arrays with ⟨rfl, rfl, aggregate⟩
      rcases Ty.isAggregate_iff.mp aggregate with rfl | rfl
      · exact absurd ⟨rfl, rfl⟩ notVectors
      · exact .matrices
    · rcases scaled_eq_some scaledLeft with ⟨rfl, aggregate, numeric⟩
      exact .arrayByNumber (.inl rfl) aggregate numeric
    · rcases scaled_eq_some scaledRight with ⟨rfl, aggregate, numeric⟩
      exact .numberByArray aggregate numeric

theorem Rule.of_quotient (accepted : quotient left right = some result) :
    Rule (.plain .div) left right result := by
  unfold quotient at accepted
  rcases Option.or_eq_some_iff.mp (by simpa using accepted) with numbers | ⟨_, scaledLeft⟩
  · rcases numbersOnly_eq_some numbers with ⟨leftNumeric, rightNumeric, rfl⟩
    exact .numbers leftNumeric rightNumeric
  · rcases scaled_eq_some scaledLeft with ⟨rfl, aggregate, numeric⟩
    exact .arrayByNumber (.inr rfl) aggregate numeric

/-- Every accepted operation follows a rule. -/
theorem Rule.of_binary {op : BinaryOp} (accepted : binary op left right = some result) :
    Rule op left right result := by
  rcases op with ⟨dotted, arith⟩
  cases dotted with
  | true => exact of_aggregates (.inl rfl) (by simpa [binary] using accepted)
  | false =>
      cases arith with
      | add => exact of_sum accepted
      | sub => exact of_difference accepted
      | mul => exact of_product accepted
      | div => exact of_quotient accepted

/-- A comparison is of two texts or of two numbers, and yields an integer. -/
theorem comparison_eq_some (accepted : comparison left right = some result) :
    result = .int ∧ ((left = .string ∧ right = .string) ∨
      (left.isNumeric = true ∧ right.isNumeric = true)) := by
  unfold comparison at accepted
  split at accepted
  · rename_i strings
    cases accepted
    exact ⟨rfl, .inl strings⟩
  · rcases numbersOnly_eq_some accepted with ⟨leftNumeric, rightNumeric, rfl⟩
    exact ⟨rfl, .inr ⟨leftNumeric, rightNumeric⟩⟩

/-- A minus sign applies to a number and a quote to a matrix; both keep the type. -/
theorem unary_eq_some {op : UnaryOp} {operand : Ty}
    (accepted : unary op operand = some result) :
    (op = .negate ∧ operand.isNumeric = true ∧ operand = result) ∨
      (op = .transpose ∧ operand = .matrix ∧ result = .matrix) := by
  unfold unary at accepted
  split at accepted <;> simp_all [Ty.isNumeric]

end Signature

end MatrixScript

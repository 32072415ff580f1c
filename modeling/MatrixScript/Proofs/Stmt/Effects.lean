import MatrixScript.Proofs.Slots
import MatrixScript.Proofs.Stmt.Checking
import MatrixScript.Proofs.Stmt.Coordinates
import MatrixScript.Proofs.Stmt.Execution

/-!
# What an accepted assignment does

An assignment that was accepted and that is executed without fault does one of three
things to the scopes and to memory.  A plain assignment declares its variable in the top
scope and in the top frame.  A compound assignment to a variable puts the result
into the top scope, and into the frame that owns the variable.  An assignment to a slot
leaves the scopes alone and changes the array in the frame that owns it.

`Stmt.Effect` says this once.  What assignments keep is proved from it by cases.
-/

namespace MatrixScript.Stmt

/-- The value that an assignment stores, with the descriptor that the checker found for it. -/
inductive Computed (chain : ScopeChain) (memory : Memory) (target value : Expr) :
    AssignOp → Descriptor → Value → Prop where
  | plain {new : Value} (newIs : value.eval memory = .ok new) :
      Computed chain memory target value .plain (value.check chain).result new
  | compound {arith : Arith} {stored : Descriptor} {old operand new : Value}
      (combination : Signature.Combination (.plain arith) (target.check chain).result
        (value.check chain).result stored)
      (oldIs : target.eval memory = .ok old) (operandIs : value.eval memory = .ok operand)
      (newIs : Value.binary (.plain arith) old operand = .ok new) :
      Computed chain memory target value (.compound arith) stored new

/-- What happens to the scopes and to memory. -/
inductive Effect (chain : ScopeChain) (memory : Memory) (value : Expr) :
    Expr → AssignOp → ScopeChain → Memory → Prop where
  | declare {span : Span} {name : String} {stored : Descriptor} {new : Value}
      (computed : Computed chain memory (.var span name) value .plain stored new) :
      Effect chain memory value (.var span name) .plain
        (chain.put name (stored.named name)) (memory.bind name new)
  | combine {span : Span} {name : String} {arith : Arith} {stored : Descriptor} {new : Value}
      (known : (Expr.var span name).Accepted chain)
      (computed : Computed chain memory (.var span name) value (.compound arith) stored new) :
      Effect chain memory value (.var span name) (.compound arith)
        (chain.put name (stored.named name)) (memory.update name new)
  | store {span : Span} {name : Located String} {coordinates : List Expr} {op : AssignOp}
      {container stored : Descriptor} {array new changed : Value} {places : List Int64}
      (slot : (Expr.reference span name coordinates).Accepted chain)
      (computed : Computed chain memory (.reference span name coordinates) value op stored new)
      (visible : chain.get? name.item = some container)
      (proper : container.Formed fun _ => True)
      (aggregate : container.ty.isAggregate = true) (notAll : places ≠ [])
      (few : places.length ≤ container.shape.length)
      (selected : ((Expr.reference span name coordinates).check chain).result =
        Expr.selected container.shape places.length)
      (takes : SlotTakes (Expr.selected container.shape places.length) stored)
      (held : memory.lookup? name.item = some array)
      (oldIs : (Expr.reference span name coordinates).eval memory = array.read places)
      (wrote : array.write new places = .ok changed) :
      Effect chain memory value (.reference span name coordinates) op chain
        (memory.update name.item changed)

variable {chain : ScopeChain} {memory after : Memory} {span : Span} {target value : Expr}
  {op : AssignOp}

/-- What is stored is computed first; where it goes depends on the operator. -/
theorem computed_of_assigned {stored : Descriptor} (stores : Stored chain target value op stored)
    (done : assigned memory target op value = .ok after) :
    ∃ place new, target.place memory = .ok place ∧
      Computed chain memory target value op stored new ∧
      (if op = .plain then memory.insert place new else memory.set place new) = .ok after := by
  cases stores with
  | plain =>
      rcases assigned_plain done with ⟨place, new, located, newIs, inserted⟩
      exact ⟨place, new, located, .plain newIs, inserted⟩
  | compound combination =>
      rcases assigned_compound done with
        ⟨place, operand, old, new, located, operandIs, read, newIs, overwritten⟩
      rw [← Expr.eval_of_place located] at read
      exact ⟨place, new, located, .compound combination read operandIs newIs, overwritten⟩

/-- An accepted assignment that is done has one of the effects. -/
theorem effect_of_assigned (chainProper : chain.Formed fun _ => True)
    (indexed : (Stmt.assign span target op value).Indexed)
    (clean : (checkAssign chain span target op value).diagnostics = [])
    (done : assigned memory target op value = .ok after) :
    value.Accepted chain ∧ Effect chain memory value target op
      (checkAssign chain span target op value).result after := by
  rcases checkAssign_clean chainProper clean with ⟨accepted, assignment⟩
  refine ⟨accepted, ?_⟩
  generalize (checkAssign chain span target op value).result = afterChain at assignment ⊢
  cases assignment with
  | declare proper =>
      rcases computed_of_assigned .plain done with ⟨place, new, located, computed, inserted⟩
      cases located
      cases inserted
      exact .declare computed
  | combine known stores proper =>
      rcases computed_of_assigned stores done with ⟨place, new, located, computed, overwritten⟩
      cases located
      cases overwritten
      exact .combine known computed
  | @store targetSpan name coordinates _ stored slot stores takes =>
      rcases computed_of_assigned stores done with ⟨place, new, located, computed, stored⟩
      rcases Expr.place_of_reference located with ⟨places, evaluated, rfl⟩
      have written : (memory.writeSlot name.item places new).outcome = .ok after := by
        split at stored
        · exact stored
        · exact stored
      rcases Expr.reference_places chainProper slot indexed.coordinates evaluated with
        ⟨container, visible, proper, aggregate, notAll, few, selected⟩
      rcases Memory.writeSlot_of_ne_nil notAll written with ⟨array, changed, held, wrote, rfl⟩
      have oldIs : (Expr.reference targetSpan name coordinates).eval memory =
          array.read places := by
        rw [Expr.eval, evaluated, ok_bind, Memory.get, Place.name, held]
      rw [selected] at takes
      exact .store slot computed visible proper aggregate notAll few selected takes held oldIs
        wrote

end MatrixScript.Stmt

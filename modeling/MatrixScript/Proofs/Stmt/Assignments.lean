import MatrixScript.Stmt.Execution
import MatrixScript.Proofs.Memory

/-!
# Assignments

An assignment finds its place and its value first, and then writes in place.  It can fail
on the way to the write or in the write, and leaves the memory as it was in either case;
this is `Stmt.assignTo_atomic`.  So `Stmt.assigned`, the memory after an assignment that did
not fail, says all about it.
-/

namespace MatrixScript

theorem Expr.place_of_reference {memory : Memory} {span : Span} {name : Located String}
    {coordinates : List Expr} {place : Place}
    (located : (Expr.reference span name coordinates).place memory = .ok place) :
    ∃ places, Expr.evalInts memory coordinates = .ok places ∧ place = .slot name.item places := by
  rw [Expr.place] at located
  rcases exists_of_bind located with ⟨places, evaluated, located⟩
  cases located
  exact ⟨places, evaluated, rfl⟩

/-- The value at the place of a target is what the target evaluates to. -/
theorem Expr.eval_of_place {memory : Memory} {target : Expr} {place : Place}
    (located : target.place memory = .ok place) : target.eval memory = memory.get place := by
  cases target with
  | var span name =>
      cases located
      rfl
  | reference span name coordinates =>
      rcases Expr.place_of_reference located with ⟨places, evaluated, rfl⟩
      rw [Expr.eval, evaluated, ok_bind]
  | _ => cases located

namespace Stmt

/-- The memory after an assignment. -/
def assigned (memory : Memory) (target : Expr) (op : AssignOp) (value : Expr) :
    Except Fault Memory :=
  (assignTo memory target op value).outcome

variable {memory after : Memory} {target value : Expr}

theorem record_atomic (memory : Memory) (op : AssignOp) (place : Place) (value : Value) :
    (record memory op place value).Atomic memory := by
  unfold record
  split
  · exact memory.declare_atomic _ value
  · exact memory.store_atomic place value

/-- An assignment that fails leaves the memory as it was. -/
theorem assignTo_atomic (memory : Memory) (target : Expr) (op : AssignOp) (value : Expr) :
    (assignTo memory target op value).Atomic memory := by
  unfold assignTo
  split
  · intro fault failed
    rfl
  · exact record_atomic memory op _ _

theorem assigned_eq_insert (memory : Memory) (target value : Expr) :
    assigned memory target .plain value =
      (target.place memory >>= fun place => value.eval memory >>= memory.insert place) := by
  rw [assigned, assignTo, entry]
  cases target.place memory with
  | error fault => rfl
  | ok place =>
      cases value.eval memory with
      | error fault => rfl
      | ok new => cases place <;> rfl

theorem assigned_eq_set (memory : Memory) (target value : Expr) (arith : Arith) :
    assigned memory target (.compound arith) value =
      (target.place memory >>= fun place => value.eval memory >>= fun new =>
        memory.get place >>= fun old => Value.binary (.plain arith) old new >>=
          memory.set place) := by
  rw [assigned, assignTo, entry]
  cases target.place memory with
  | error fault => rfl
  | ok place =>
      cases value.eval memory with
      | error fault => rfl
      | ok new =>
          simp only [ok_bind]
          cases memory.get place with
          | error fault => rfl
          | ok old =>
              simp only [ok_bind]
              cases Value.binary (.plain arith) old new <;> rfl

/-- A plain assignment declares its target, or writes a slot where its array lives. -/
theorem assigned_plain (done : assigned memory target .plain value = .ok after) :
    ∃ place new, target.place memory = .ok place ∧ value.eval memory = .ok new ∧
      memory.insert place new = .ok after := by
  rw [assigned_eq_insert] at done
  rcases exists_of_bind done with ⟨place, located, done⟩
  rcases exists_of_bind done with ⟨new, evaluated, inserted⟩
  exact ⟨place, new, located, evaluated, inserted⟩

/-- A plain assignment to a variable binds it in the top frame. -/
theorem assigned_var {span : Span} {name : String}
    (done : assigned memory (.var span name) .plain value = .ok after) :
    ∃ new, value.eval memory = .ok new ∧ after = memory.bind name new := by
  rcases assigned_plain done with ⟨place, new, located, evaluated, inserted⟩
  cases located
  cases inserted
  exact ⟨new, evaluated, rfl⟩

/-- A compound assignment overwrites its target with the combined value. -/
theorem assigned_compound {arith : Arith}
    (done : assigned memory target (.compound arith) value = .ok after) :
    ∃ place new old combined, target.place memory = .ok place ∧ value.eval memory = .ok new ∧
      memory.get place = .ok old ∧ Value.binary (.plain arith) old new = .ok combined ∧
      memory.set place combined = .ok after := by
  rw [assigned_eq_set] at done
  rcases exists_of_bind done with ⟨place, located, done⟩
  rcases exists_of_bind done with ⟨new, evaluated, done⟩
  rcases exists_of_bind done with ⟨old, read, done⟩
  rcases exists_of_bind done with ⟨result, combined, done⟩
  exact ⟨place, new, old, result, located, evaluated, read, combined, done⟩

theorem assigned_grows {op : AssignOp} (done : assigned memory target op value = .ok after) :
    memory.Grows after := by
  cases op with
  | plain =>
      rcases assigned_plain done with ⟨place, new, _, _, inserted⟩
      exact Memory.insert_grows inserted
  | compound arith =>
      rcases assigned_compound done with ⟨place, _, _, combined, _, _, _, _, overwritten⟩
      exact Memory.set_grows overwritten

end Stmt

end MatrixScript

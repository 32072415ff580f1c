import MatrixScript.Proofs.Expr.Soundness
import MatrixScript.Proofs.Stmt.Checking

/-!
# Scopes and frames side by side

While a program is checked there is a stack of scopes, and while it runs there is a stack
of frames.  Both are as high, but they are not written alike.  A plain assignment goes to
the top of both; a compound assignment goes to the top scope, and to the frame that owns
the variable.

So a scope may have a name that the frame of its level has not.  `Mirrors` asks of such
a name that it repeats the type it has further out, and of every value that it is of the
type that its own level gives it.  Then a name has a value just if it is in scope, and
the value is of the type that the scopes give it.
-/

namespace MatrixScript

open Bindings (find?)

/-- Level by level, a frame holds what its scope says, and a scope says the rest of others. -/
inductive Mirrors : List Scope → List Frame → Prop where
  | nil : Mirrors [] []
  | cons {scope : Scope} {scopes : List Scope} {frame : Frame} {frames : List Frame}
      (bound : ∀ name value, frame.get? name = some value →
        ∃ descriptor, scope.get? name = some descriptor ∧ value.HasKind descriptor.ty)
      (repeated : ∀ name descriptor, scope.get? name = some descriptor →
        frame.get? name = none →
        ∃ outer, find? scopes name = some outer ∧ outer.ty = descriptor.ty)
      (rest : Mirrors scopes frames) : Mirrors (scope :: scopes) (frame :: frames)

namespace Mirrors

variable {scope : Scope} {scopes : List Scope} {frame : Frame} {frames : List Frame}
  {name : String} {descriptor : Descriptor} {value : Value}

/-! ## Look-up -/

/-- A name in scope has a value of its type. -/
theorem found (mirrors : Mirrors scopes frames) (visible : find? scopes name = some descriptor) :
    ∃ value, find? frames name = some value ∧ value.HasKind descriptor.ty := by
  induction mirrors generalizing descriptor with
  | nil => cases visible
  | @cons scope scopes frame frames bound repeated rest ih =>
      cases held : frame.get? name with
      | some value =>
          rcases bound name value held with ⟨here, declared, kind⟩
          rw [Bindings.find?_of_some declared] at visible
          cases visible
          exact ⟨value, Bindings.find?_of_some held frames, kind⟩
      | none =>
          rw [Bindings.find?_of_none held]
          cases declared : scope.get? name with
          | none =>
              rw [Bindings.find?_of_none declared] at visible
              exact ih visible
          | some here =>
              rw [Bindings.find?_of_some declared] at visible
              cases visible
              rcases repeated name descriptor declared held with ⟨outer, visibleOutside, same⟩
              rw [← same]
              exact ih visibleOutside

theorem hasKind (mirrors : Mirrors scopes frames) (visible : find? scopes name = some descriptor)
    (held : find? frames name = some value) : value.HasKind descriptor.ty := by
  rcases mirrors.found visible with ⟨found, heldToo, kind⟩
  rw [held] at heldToo
  cases heldToo
  exact kind

/-- What has a value is in scope. -/
theorem described (mirrors : Mirrors scopes frames) (held : find? frames name = some value) :
    ∃ descriptor, find? scopes name = some descriptor := by
  induction mirrors with
  | nil => cases held
  | @cons scope scopes frame frames bound repeated rest ih =>
      cases declared : scope.get? name with
      | some here => exact ⟨here, Bindings.find?_of_some declared scopes⟩
      | none =>
          rw [Bindings.find?_of_none declared]
          cases heldHere : frame.get? name with
          | none =>
              rw [Bindings.find?_of_none heldHere] at held
              exact ih held
          | some here =>
              rcases bound name here heldHere with ⟨_, impossible, _⟩
              rw [declared] at impossible
              cases impossible

/-- A name has a value just if it is in scope, and the value is of its type. -/
theorem related (mirrors : Mirrors scopes frames) (name : String) :
    Option.Rel (fun value descriptor => value.HasKind descriptor.ty)
      (find? frames name) (find? scopes name) := by
  cases visible : find? scopes name with
  | some descriptor =>
      rcases mirrors.found visible with ⟨value, held, kind⟩
      rw [held]
      exact .some kind
  | none =>
      cases held : find? frames name with
      | none => exact .none
      | some value =>
          rcases mirrors.described held with ⟨_, impossible⟩
          rw [visible] at impossible
          cases impossible

/-- The descriptors in scope fit the values, whatever the sizes. -/
theorem agrees {chain : ScopeChain} {memory : Memory}
    (mirrors : Mirrors chain.scopes memory.frames) (proper : chain.Formed fun _ => True) :
    Precision.loose.Agrees chain memory := by
  constructor
  · exact proper
  · intro name descriptor visible
    rcases mirrors.found visible with ⟨value, held, kind⟩
    exact ⟨value, held, (Precision.loose_fits_iff (proper name descriptor visible)).mpr kind⟩

/-! ## Writes -/

theorem enter (mirrors : Mirrors scopes frames) :
    Mirrors (.empty :: scopes) (.empty :: frames) := by
  apply cons ?_ ?_ mirrors
  · intro name value impossible
    cases impossible
  · intro name descriptor impossible
    cases impossible

theorem leave (mirrors : Mirrors (scope :: scopes) (frame :: frames)) : Mirrors scopes frames := by
  rcases mirrors with _ | ⟨_, _, rest⟩
  exact rest

/-- A declaration on both sides. -/
theorem declare (mirrors : Mirrors (scope :: scopes) (frame :: frames))
    (kind : value.HasKind descriptor.ty) :
    Mirrors (scope.insert name descriptor :: scopes) (frame.insert name value :: frames) := by
  rcases mirrors with _ | ⟨bound, repeated, rest⟩
  apply cons ?_ ?_ rest
  · intro other found held
    by_cases same : other = name
    · subst same
      rw [Bindings.get?_insert_self] at held ⊢
      cases held
      exact ⟨descriptor, rfl, kind⟩
    · rw [Bindings.get?_insert_of_ne same] at held ⊢
      exact bound other found held
  · intro other found declared free
    by_cases same : other = name
    · subst same
      rw [Bindings.get?_insert_self] at free
      cases free
    · rw [Bindings.get?_insert_of_ne same] at declared free
      exact repeated other found declared free

/-- A value of the type that a name has in scope goes to the frame that owns the name. -/
theorem replace {changed : List Frame} (mirrors : Mirrors scopes frames)
    (visible : find? scopes name = some descriptor) (kind : value.HasKind descriptor.ty)
    (replaced : Memory.replaceIn name value frames = some changed) : Mirrors scopes changed := by
  induction mirrors generalizing descriptor changed with
  | nil => cases replaced
  | @cons scope scopes frame frames bound repeated rest ih =>
      rw [Memory.replaceIn] at replaced
      split at replaced
      · rename_i owns
        cases replaced
        apply cons ?_ ?_ rest
        · intro other found held
          by_cases same : other = name
          · subst same
            rcases Option.isSome_iff_exists.mp owns with ⟨old, heldBefore⟩
            rcases bound other old heldBefore with ⟨here, declared, _⟩
            rw [Bindings.find?_of_some declared] at visible
            rw [Bindings.get?_insert_self] at held
            cases visible
            cases held
            exact ⟨descriptor, declared, kind⟩
          · rw [Bindings.get?_insert_of_ne same] at held
            exact bound other found held
        · intro other found declared free
          by_cases same : other = name
          · subst same
            rw [Bindings.get?_insert_self] at free
            cases free
          · rw [Bindings.get?_insert_of_ne same] at free
            exact repeated other found declared free
      · rename_i elsewhere
        rcases Option.map_eq_some_iff.mp replaced with ⟨changedRest, replacedRest, rfl⟩
        have free := (Bindings.not_contains_iff frame name).mp elsewhere
        apply cons bound repeated
        cases declared : scope.get? name with
        | none =>
            rw [Bindings.find?_of_none declared] at visible
            exact ih visible kind replacedRest
        | some here =>
            rw [Bindings.find?_of_some declared] at visible
            cases visible
            rcases repeated name descriptor declared free with ⟨outer, visibleOutside, same⟩
            rw [← same] at kind
            exact ih visibleOutside kind replacedRest

/-- What a name means outside, if the frame of the innermost level does not own it. -/
theorem outside (mirrors : Mirrors (scope :: scopes) (frame :: frames))
    (visible : find? (scope :: scopes) name = some descriptor) (free : frame.get? name = none) :
    ∃ outer, find? scopes name = some outer := by
  rcases mirrors with _ | ⟨bound, repeated, rest⟩
  cases declared : scope.get? name with
  | none =>
      rw [Bindings.find?_of_none declared] at visible
      exact ⟨descriptor, visible⟩
  | some here =>
      rcases repeated name here declared free with ⟨outer, visibleOutside, _⟩
      exact ⟨outer, visibleOutside⟩

/-- A record in the top scope and a write further out, of the type the name has there. -/
theorem combine {changed : List Frame} {outer : Descriptor}
    (mirrors : Mirrors (scope :: scopes) (frame :: frames)) (free : frame.get? name = none)
    (visible : find? scopes name = some outer) (same : outer.ty = descriptor.ty)
    (kind : value.HasKind descriptor.ty)
    (replaced : Memory.replaceIn name value frames = some changed) :
    Mirrors (scope.insert name descriptor :: scopes) (frame :: changed) := by
  rcases mirrors with _ | ⟨bound, repeated, rest⟩
  rw [← same] at kind
  apply cons ?_ ?_ (rest.replace visible kind replaced)
  · intro other found held
    have different : other ≠ name := by
      rintro rfl
      rw [free] at held
      cases held
    rw [Bindings.get?_insert_of_ne different]
    exact bound other found held
  · intro other found declared freeOther
    by_cases isName : other = name
    · subst isName
      rw [Bindings.get?_insert_self] at declared
      cases declared
      exact ⟨outer, visible, same⟩
    · rw [Bindings.get?_insert_of_ne isName] at declared
      exact repeated other found declared freeOther

end Mirrors

end MatrixScript

import MatrixScript.Fault

/-!
# Outcomes of computations

A computation on values ends with a result or with a fault.  `Yields` says of it
which results and which kinds of faults it can end with.  The kinds stay fixed
along a computation, so that its parts are put together by `Yields.bind`.

A change in place is atomic if it leaves what it found whenever it meets a fault.  The
outcome then says all about it.
-/

namespace MatrixScript

variable {α β : Type} {allowed : FaultKind → Prop} {good : α → Prop}

@[simp]
theorem ok_bind (result : α) (next : α → Except Fault β) :
    ((Except.ok result : Except Fault α) >>= next) = next result :=
  rfl

@[simp]
theorem error_bind (fault : Fault) (next : α → Except Fault β) :
    ((Except.error fault : Except Fault α) >>= next) = .error fault :=
  rfl

/-- If two computations in a row have a result, the first has one from which the second goes on. -/
theorem exists_of_bind {first : Except Fault α} {next : α → Except Fault β} {result : β}
    (computed : (first >>= next) = .ok result) :
    ∃ middle, first = .ok middle ∧ next middle = .ok result := by
  cases first with
  | ok middle => exact ⟨middle, rfl, computed⟩
  | error fault => cases computed

/-- A computation that only changes a result fails if there is no result to change. -/
theorem bind_ok_eq_error_iff {first : Except Fault α} {change : α → β} {fault : Fault} :
    (first >>= fun result => Except.ok (change result)) = .error fault ↔
      first = .error fault := by
  cases first <;> simp

theorem toOption_eq_some_iff {outcome : Except Fault α} {result : α} :
    outcome.toOption = some result ↔ outcome = .ok result := by
  cases outcome <;> simp [Except.toOption]

/-- The computation ends with a good result, or with a fault of an allowed kind. -/
def Yields (allowed : FaultKind → Prop) (good : α → Prop) : Except Fault α → Prop
  | .ok result => good result
  | .error fault => allowed fault.kind

namespace Yields

@[simp]
theorem ok_iff {result : α} : Yields allowed good (.ok result) ↔ good result :=
  Iff.rfl

theorem weaken {better : α → Prop} {outcome : Except Fault α}
    (yields : Yields allowed good outcome)
    (implies : ∀ result, good result → better result) :
    Yields allowed better outcome := by
  cases outcome with
  | ok result => exact implies result yields
  | error fault => exact yields

/-- What the second of two computations yields for every good result of the first. -/
theorem bind {best : β → Prop} {first : Except Fault α} {next : α → Except Fault β}
    (before : Yields allowed good first)
    (after : ∀ result, good result → Yields allowed best (next result)) :
    Yields allowed best (first >>= next) := by
  cases first with
  | ok result => exact after result before
  | error fault => exact before

/-- A computation that may not fail has a good result. -/
theorem exists_result {outcome : Except Fault α} (yields : Yields (fun _ => False) good outcome) :
    ∃ result, outcome = .ok result ∧ good result := by
  cases outcome with
  | ok result => exact ⟨result, rfl, yields⟩
  | error fault => exact yields.elim

/-- A computation on every member of a list yields as many results. -/
theorem mapM {better : β → Prop} {list : List α} {change : α → Except Fault β}
    (members : ∀ item ∈ list, Yields allowed better (change item)) :
    Yields allowed
      (fun results => (∀ result ∈ results, better result) ∧ results.length = list.length)
      (list.mapM change) := by
  induction list with
  | nil => exact ⟨by simp, rfl⟩
  | cons head tail ih =>
      rw [List.mapM_cons]
      refine bind (members head List.mem_cons_self) fun first firstGood => ?_
      refine bind (ih fun item member => members item (List.mem_cons_of_mem _ member)) ?_
      rintro rest ⟨restGood, restLength⟩
      refine ⟨?_, by simp [restLength]⟩
      intro result member
      rcases List.mem_cons.mp member with rfl | member
      · exact firstGood
      · exact restGood result member

end Yields

/-- If the computation ends with a result, it is a good one. -/
abbrev Gives (good : α → Prop) : Except Fault α → Prop :=
  Yields (fun _ => True) good

theorem gives_iff {outcome : Except Fault α} :
    Gives good outcome ↔ ∀ result, outcome = .ok result → good result := by
  cases outcome with
  | ok result => simp
  | error fault => simp [Yields]

theorem Yields.gives {outcome : Except Fault α} (yields : Yields allowed good outcome) :
    Gives good outcome := by
  cases outcome with
  | ok result => exact yields
  | error fault => trivial

/-- The computation has no result. -/
abbrev Fails : Except Fault α → Prop :=
  Gives fun _ => False

theorem fails_iff {outcome : Except Fault α} :
    Fails outcome ↔ ∃ fault, outcome = .error fault := by
  cases outcome with
  | ok result => simp
  | error fault => simp [Yields]

namespace Fails

variable {first : Except Fault α} {next : α → Except Fault β}

theorem bind (fails : Fails first) : Fails (first >>= next) :=
  Yields.bind fails fun _ impossible => impossible.elim

theorem bind_of_next (fails : ∀ result, Fails (next result)) : Fails (first >>= next) := by
  cases first with
  | ok result => exact fails result
  | error fault => trivial

end Fails

/-! ## Changes in place -/

namespace Change

variable {before : α} {change : Change α}

/-- If the change met a fault, it left what it found. -/
def Atomic (before : α) (change : Change α) : Prop :=
  ∀ fault, change.fault? = some fault → change.left = before

theorem Atomic.eq_of_outcome_error {fault : Fault} (atomic : change.Atomic before)
    (failed : change.outcome = .error fault) : change = ⟨some fault, before⟩ := by
  rcases change with ⟨_ | met, left⟩
  · cases failed
  · cases failed
    rw [show left = before from atomic fault rfl]

end Change

end MatrixScript

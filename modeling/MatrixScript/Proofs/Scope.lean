import MatrixScript.Scope
import MatrixScript.Proofs.Bindings

/-!
# Looking names up in scopes

What a name means after a declaration and in the empty chain.

`ScopeChain.Grows` is what a declaration does to the scopes: those outside stay as they
are, and the innermost one loses no name.
-/

namespace MatrixScript.ScopeChain

@[simp]
theorem get?_root (name : String) : root.get? name = none := rfl

theorem get?_eq (chain : ScopeChain) (name : String) :
    chain.get? name =
      (chain.inner.get? name).or (chain.outer.findSome? fun scope => scope.get? name) := by
  simp only [get?, scopes, List.findSome?_cons]
  cases chain.inner.get? name <;> rfl

/-- A declared name means what was declared, and the others mean what they did before. -/
theorem get?_put (chain : ScopeChain) (name other : String) (descriptor : Descriptor) :
    (chain.put name descriptor).get? other =
      if other = name then some descriptor else chain.get? other := by
  rw [get?_eq, get?_eq, put, Bindings.get?_insert]
  split <;> rfl

/-- The enclosing scopes are the same, and the innermost one has lost no name. -/
structure Grows (before after : ScopeChain) : Prop where
  inner : before.inner.names ⊆ after.inner.names
  outer : after.outer = before.outer

namespace Grows

theorem refl (chain : ScopeChain) : chain.Grows chain :=
  ⟨fun _ member => member, rfl⟩

theorem trans {first second third : ScopeChain} (start : first.Grows second)
    (rest : second.Grows third) : first.Grows third :=
  ⟨List.Subset.trans start.inner rest.inner, rest.outer.trans start.outer⟩

/-- What grew inside a new scope leaves the scopes around it as they were. -/
theorem leave {before after : ScopeChain} (grows : before.enter.Grows after) :
    after.leave = before := by
  rw [ScopeChain.leave, grows.outer]
  rfl

end Grows

theorem put_grows (chain : ScopeChain) (name : String) (descriptor : Descriptor) :
    chain.Grows (chain.put name descriptor) := by
  refine ⟨?_, rfl⟩
  intro other member
  exact (Bindings.mem_names_insert _ _ _ _).mpr (.inr member)

end MatrixScript.ScopeChain

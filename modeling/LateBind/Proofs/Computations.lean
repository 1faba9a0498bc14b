import LateBind.Machine.Run

/-! # Computations of the machine as functions

What the operations of a computation do to the state. These equations take a computation apart from
its front. -/

namespace LateBind

namespace Exec

variable {α β : Type} {s s' : MachineState} {x : Exec α}

theorem bind_ok {a : α} (h : x s = (.ok a, s')) (g : α → Exec β) : (x >>= g) s = g a s' := by
  simp only [bind, ExceptT.bind, ExceptT.mk, StateT.bind, h]
  rfl

theorem bind_error {e : Trap} (h : x s = (.error e, s')) (g : α → Exec β) :
    (x >>= g) s = (.error e, s') := by
  simp only [bind, ExceptT.bind, ExceptT.mk, StateT.bind, h]
  rfl

@[simp]
theorem bind_apply (x : Exec α) (g : α → Exec β) (s : MachineState) : (x >>= g) s =
    match x s with
    | (.ok a, s') => g a s'
    | (.error e, s') => (.error e, s') := by
  rcases h : x s with ⟨r, s'⟩
  cases r with
  | ok a => exact bind_ok h g
  | error e => exact bind_error h g

@[simp]
theorem pure_apply (a : α) (s : MachineState) : (pure a : Exec α) s = (.ok a, s) := rfl

@[simp]
theorem map_apply (g : α → β) (x : Exec α) (s : MachineState) : (g <$> x) s =
    match x s with
    | (.ok a, s') => (.ok (g a), s')
    | (.error e, s') => (.error e, s') := by
  rw [map_eq_pure_bind, bind_apply]
  rfl

@[simp]
theorem throw_apply (e : Trap) (s : MachineState) : (throw e : Exec α) s = (.error e, s) := rfl

@[simp]
theorem get_apply (s : MachineState) : (get : Exec MachineState) s = (.ok s, s) := rfl

@[simp]
theorem set_apply (s s' : MachineState) : (set s' : Exec PUnit) s = (.ok ⟨⟩, s') := rfl

@[simp]
theorem modify_apply (g : MachineState → MachineState) (s : MachineState) :
    (modify g : Exec PUnit) s = (.ok ⟨⟩, g s) := rfl

@[simp]
theorem attempt_apply (x : Exec α) (s : MachineState) : attempt x s = (.ok (x s).1, (x s).2) := rfl

@[simp]
theorem lift_ok (a : α) : lift (.ok a) = pure a := rfl

@[simp]
theorem alloc_apply (o : Object) (s : MachineState) :
    alloc o s = (.ok ⟨s.objects.size⟩, { s with objects := s.objects.push o }) := rfl

@[simp]
theorem str_apply (units : Units) (s : MachineState) :
    str units s =
      (.ok (.ref ⟨s.objects.size⟩), { s with objects := s.objects.push (.str units) }) := rfl

@[simp]
theorem setItem_apply (array : ObjRef) (position : Nat) (v : Value) (s : MachineState) :
    setItem array position v s =
      (.ok (), { s with objects := s.objects.modify array.index (·.setItem position v) }) := rfl

theorem object_apply {r : ObjRef} {o : Object} (h : s.objects[r.index]? = some o) :
    object r s = (.ok o, s) := by
  simp [object, h]

end Exec

namespace Step

variable {α β : Type} {f : Frame} {s : MachineState}

@[simp]
theorem bind_apply (x : Step α) (g : α → Step β) (f : Frame) (s : MachineState) :
    (x >>= g) f s =
      match x f s with
      | (.ok (a, f'), s') => g a f' s'
      | (.error e, s') => (.error e, s') := by
  change ((x f : Exec (α × Frame)) >>= fun p => g p.1 p.2) s = _
  rw [Exec.bind_apply]
  rcases x f s with ⟨r, s'⟩
  cases r <;> rfl

@[simp]
theorem pure_apply (a : α) (f : Frame) (s : MachineState) :
    (pure a : Step α) f s = (.ok (a, f), s) := rfl

@[simp]
theorem map_apply (g : α → β) (x : Step α) (f : Frame) (s : MachineState) : (g <$> x) f s =
    match x f s with
    | (.ok (a, f'), s') => (.ok (g a, f'), s')
    | (.error e, s') => (.error e, s') := by
  rw [map_eq_pure_bind, bind_apply]
  rfl

@[simp]
theorem get_apply (f : Frame) (s : MachineState) : (get : Step Frame) f s = (.ok (f, f), s) := rfl

@[simp]
theorem set_apply (f f' : Frame) (s : MachineState) :
    (set f' : Step PUnit) f s = (.ok (⟨⟩, f'), s) := rfl

@[simp]
theorem lift_apply (x : Exec α) (f : Frame) (s : MachineState) :
    (liftM x : Step α) f s =
      match x s with
      | (.ok a, s') => (.ok (a, f), s')
      | (.error e, s') => (.error e, s') := by
  change ((x : Exec α) >>= fun a => pure (a, f)) s = _
  rw [Exec.bind_apply]
  rcases x s with ⟨r, s'⟩
  cases r <;> rfl

@[simp]
theorem push_apply (v : Value) (f : Frame) (s : MachineState) :
    push v f s = (.ok ((), { f with stack := v :: f.stack }), s) := rfl

@[simp]
theorem pop_apply (name : String) (returnType : TypeRef) (body : Body) (args locals : List Value)
    (v : Value) (stack : List Value) (pc : Nat) (s : MachineState) :
    pop ⟨name, returnType, body, args, locals, v :: stack, pc⟩ s =
      (.ok (v, ⟨name, returnType, body, args, locals, stack, pc⟩), s) := rfl

@[simp]
theorem expect_some (expected : Expectation) (found : Value) (a : α) :
    expect expected found (some a) = pure a := rfl

end Step

end LateBind

import LateBind.Proofs.Agreement

/-! # Instructions side by side

An instruction stays in its body. Unless it works on a static field or calls other code, all it does
outside the frame is to make and change objects and to pin, which machines do alike. -/

namespace LateBind

open Exec

variable {α β : Type} {X : MachineError → Prop} {R : MachineState → MachineState → Prop}

namespace Step

/-- From one frame and related states the steps come to the same, unless a fault is excused, and the
frame stays in its body. -/
def Agree (X : MachineError → Prop) (R : MachineState → MachineState → Prop) (x x' : Step α) : Prop :=
  ∀ f s s', R s s' →
    (Excused X (x f s) ∨ (x' f s').1 = (x f s).1 ∧ R (x f s).2 (x' f s').2) ∧
      ∀ a f', (x f s).1 = .ok (a, f') → f'.body = f.body

/-! ## Sequences -/

theorem agree_of_eq {x : Step α} {r : Frame → Except Trap (α × Frame)}
    (eq : ∀ f s, x f s = (r f, s)) (body : ∀ f a f', r f = .ok (a, f') → f'.body = f.body) :
    Agree X R x x := by
  intro f s s' h
  rw [eq, eq]
  exact ⟨.inr ⟨rfl, h⟩, body f⟩

theorem agree_pure (a : α) : Agree X R (pure a : Step α) (pure a) :=
  agree_of_eq (fun _ _ => rfl) fun f a f' eq => by
    cases eq
    rfl

theorem Agree.bind {x x' : Step α} {g g' : α → Step β} (hx : Agree X R x x')
    (hg : ∀ a, Agree X R (g a) (g' a)) : Agree X R (x >>= g) (x' >>= g') := by
  intro f s s' h
  obtain ⟨after, body⟩ := hx f s s' h
  rw [bind_apply, bind_apply]
  rcases run : x f s with ⟨r, s₁⟩
  rcases run' : x' f s' with ⟨r', s₁'⟩
  simp only [run, run'] at after body
  cases r with
  | ok result =>
    obtain ⟨a, f₁⟩ := result
    obtain ⟨same, related⟩ := after.resolve_left not_excused_ok
    subst same
    obtain ⟨after', body'⟩ := hg a f₁ s₁ s₁' related
    exact ⟨after', fun b f₂ eq => (body' b f₂ eq).trans (body a f₁ rfl)⟩
  | error e =>
    refine ⟨?_, fun b f₂ eq => nomatch eq⟩
    rcases after with excused | ⟨same, related⟩
    · exact .inl excused.error
    · subst same
      exact .inr ⟨rfl, related⟩

theorem agree_lift {x x' : Exec α} (hx : Exec.Agree X R x x') :
    Agree X R (liftM x : Step α) (liftM x') := by
  intro f s s' h
  have after := hx s s' h
  rw [lift_apply, lift_apply]
  rcases run : x s with ⟨r, s₁⟩
  rcases run' : x' s' with ⟨r', s₁'⟩
  simp only [run, run'] at after
  cases r with
  | ok a =>
    obtain ⟨same, related⟩ := after.resolve_left not_excused_ok
    subst same
    refine ⟨.inr ⟨rfl, related⟩, fun b f₂ eq => ?_⟩
    cases eq
    rfl
  | error e =>
    refine ⟨?_, fun b f₂ eq => nomatch eq⟩
    rcases after with excused | ⟨same, related⟩
    · exact .inl excused.error
    · subst same
      exact .inr ⟨rfl, related⟩

/-! ## The frame -/

theorem agree_get : Agree X R (get : Step Frame) get :=
  agree_of_eq (fun _ _ => rfl) fun f a f' eq => by
    cases eq
    rfl

theorem agree_push (v : Value) : Agree X R (push v) (push v) :=
  agree_of_eq (fun _ _ => rfl) fun f a f' eq => by
    cases eq
    rfl

theorem agree_pop : Agree X R pop pop := by
  intro f s s' h
  obtain ⟨name, returnType, body, args, locals, stack, pc⟩ := f
  cases stack with
  | nil => exact ⟨.inr ⟨rfl, h⟩, fun a f' eq => nomatch eq⟩
  | cons v stack =>
    refine ⟨.inr ⟨rfl, h⟩, fun a f' eq => ?_⟩
    cases eq
    rfl

theorem agree_popArgs (count : Nat) : Agree X R (popArgs count) (popArgs count) := by
  intro f s s' h
  by_cases short : f.stack.length < count
  · have stops (s : MachineState) :
        popArgs count f s = (.error (.fatal (.stackUnderflow f.name f.pc)), s) := by
      simp only [popArgs, bind_apply, get_apply, short, if_true]
      rfl
    rw [stops, stops]
    exact ⟨.inr ⟨rfl, h⟩, fun a f' eq => nomatch eq⟩
  · have pops (s : MachineState) : popArgs count f s =
        (.ok ((f.stack.take count).reverse, { f with stack := f.stack.drop count }), s) := by
      simp only [popArgs, bind_apply, get_apply, short, if_false]
      rfl
    rw [pops, pops]
    refine ⟨.inr ⟨rfl, h⟩, fun a f' eq => ?_⟩
    cases eq
    rfl

theorem agree_mismatch (expected : Expectation) (found : Value) :
    Agree X R (mismatch expected found : Step α) (mismatch expected found) :=
  agree_get.bind fun _ => agree_lift (agree_fatal _)

theorem agree_expect (expected : Expectation) (found : Value) (a : Option α) :
    Agree X R (expect expected found a) (expect expected found a) := by
  cases a with
  | some a => exact agree_pure a
  | none => exact agree_mismatch _ _

theorem agree_popInt32 : Agree X R popInt32 popInt32 := agree_pop.bind fun _ => agree_expect _ _ _

theorem agree_pushResult (v : Option Value) : Agree X R (pushResult v) (pushResult v) := by
  cases v with
  | some v => exact agree_push v
  | none => exact agree_pure _

/-! ## Operands -/

section Stable

variable {m m' : Machine} (alike : m.Alike X m') (stable : Stable R)

include alike stable

theorem agree_toNativeInt (v : Value) : Agree X R (toNativeInt m v) (toNativeInt m' v) := by
  unfold toNativeInt
  split
  · exact agree_pure _
  · exact agree_lift (Machine.agree_pinAddress alike stable _)
  · exact agree_lift (Machine.agree_pinString alike stable _)
  · exact agree_expect _ _ _

omit alike stable in
theorem agree_popElement {look : Value → Int32 → Exec α}
    (hl : ∀ v n, Exec.Agree X R (look v n) (look v n)) :
    Agree X R (popElement look) (popElement look) :=
  agree_popInt32.bind fun _ => agree_pop.bind fun _ => agree_lift (hl _ _)

omit alike in
theorem agree_storeElement {convert : Value → Step Value}
    (hc : ∀ v, Agree X R (convert v) (convert v)) :
    Agree X R (storeElement convert) (storeElement convert) :=
  agree_pop.bind fun _ => agree_popInt32.bind fun _ => agree_pop.bind fun _ => (hc _).bind fun _ =>
    (agree_lift (agree_slot stable _ _)).bind fun _ => agree_lift (agree_setItem stable _ _ _)

theorem agree_newArray (element : TypeRef) (count : Int32) :
    Exec.Agree X R (newArray m element count) (newArray m' element count) := by
  unfold newArray
  rw [alike.values.defaultValue]
  split
  · exact agree_raise stable _ _
  · exact (agree_alloc stable _).bind fun _ => Exec.agree_pure _

omit alike in
theorem agree_cast (t : TypeRef) (v : Value) : Exec.Agree X R (cast t v) (cast t v) := by
  unfold cast
  dsimp only
  split
  · refine (agree_object stable _).bind fun o => ?_
    split
    · split
      · exact (agree_raise stable _ _).bind fun _ => Exec.agree_pure _
      · exact Exec.agree_pure _
    · exact Exec.agree_pure _
  · exact Exec.agree_pure _

end Stable

end Step

/-! ## Instructions -/

/-- The instruction neither works on a static field nor calls other code. -/
@[reducible, simp]
def Instr.isLocal : Instr → Bool
  | ldsfld _ | stsfld _ | call _ | calli _ => false
  | _ => true

namespace Step

variable {m m' : Machine} (alike : m.Alike X m') (stable : Stable R)

include alike stable

theorem agree_perform (callees callees' : Callees) {i : Instr} (isLocal : i.isLocal) :
    Agree X R (perform m callees i) (perform m' callees' i) := by
  cases i with
  | ldarg index =>
    refine agree_get.bind fun f => ?_
    split
    · exact agree_push _
    · exact agree_lift (agree_unsupported _)
  | ldloc index =>
    refine agree_get.bind fun f => ?_
    split
    · exact agree_push _
    · exact agree_lift (agree_unsupported _)
  | stloc index =>
    refine agree_pop.bind fun v => ?_
    intro f s s' h
    simp only [bind_apply, get_apply]
    split
    · refine ⟨.inr ⟨rfl, h⟩, fun a f' eq => ?_⟩
      cases eq
      rfl
    · exact agree_lift (agree_unsupported _) f s s' h
  | ldcI4 v => exact agree_push _
  | ldcI8 v => exact agree_push _
  | ldnull => exact agree_push _
  | ldstr text => exact (agree_lift (agree_str stable _)).bind fun _ => agree_push _
  | ldsfld field => cases isLocal
  | stsfld field => cases isLocal
  | dup => exact agree_pop.bind fun _ => (agree_push _).bind fun _ => agree_push _
  | pop => exact agree_pop.bind fun _ => agree_pure _
  | add =>
    exact agree_pop.bind fun _ => agree_pop.bind fun _ => (agree_expect _ _ _).bind fun _ =>
      agree_push _
  | sub =>
    exact agree_pop.bind fun _ => agree_pop.bind fun _ => (agree_expect _ _ _).bind fun _ =>
      agree_push _
  | cgtUn =>
    refine agree_pop.bind fun right => agree_pop.bind fun left => ?_
    split
    · exact agree_push _
    · exact agree_mismatch _ _
  | convI =>
    exact agree_pop.bind fun _ => (agree_toNativeInt alike stable _).bind fun _ => agree_push _
  | convU => exact agree_pop.bind fun _ => (agree_expect _ _ _).bind fun _ => agree_push _
  | convI4 => exact agree_pop.bind fun _ => (agree_expect _ _ _).bind fun _ => agree_push _
  | convU1 => exact agree_pop.bind fun _ => (agree_expect _ _ _).bind fun _ => agree_push _
  | call method => cases isLocal
  | calli site => cases isLocal
  | newobj ctor =>
    exact (agree_popArgs _).bind fun _ =>
      (agree_lift (Machine.agree_construct stable _ _)).bind fun _ => agree_push _
  | newarr element =>
    exact agree_popInt32.bind fun _ => (agree_lift (agree_newArray alike stable _ _)).bind fun _ =>
      agree_push _
  | ldlen =>
    exact agree_pop.bind fun _ => (agree_lift (agree_arrayItems stable _)).bind fun _ =>
      agree_push _
  | ldelemI => exact (agree_popElement (agree_item stable)).bind fun _ => agree_push _
  | ldelemRef => exact (agree_popElement (agree_item stable)).bind fun _ => agree_push _
  | stelemI =>
    exact agree_storeElement stable fun _ => (agree_expect _ _ _).bind fun _ => agree_pure _
  | stelemI1 =>
    exact agree_storeElement stable fun _ => (agree_expect _ _ _).bind fun _ => agree_pure _
  | ldelema element => exact (agree_popElement (agree_slot stable)).bind fun _ => agree_push _
  | ldtoken t => exact (agree_lift (agree_alloc stable _)).bind fun _ => agree_push _
  | castclass t =>
    exact agree_pop.bind fun _ => (agree_lift (agree_cast stable _ _)).bind fun _ => agree_push _
  | _ => exact agree_pure _

omit alike stable in
theorem agree_jump (l : Label) : Agree X R (jump l) (jump l) := by
  refine Agree.bind (agree_get.bind fun f => ?_) fun _ => agree_pure _
  split
  · exact agree_pure _
  · exact agree_lift (agree_fatal _)

theorem agree_instr (callees callees' : Callees) {i : Instr} (isLocal : i.isLocal) :
    Agree X R (instr m callees i) (instr m' callees' i) := by
  have performs (i : Instr) (isLocal : i.isLocal) :
      Agree X R (do perform m callees i; return .next : Step Flow)
        (do perform m' callees' i; return .next) :=
    (agree_perform alike stable callees callees' isLocal).bind fun _ => agree_pure _
  cases i with
  | br l => exact agree_jump l
  | brtrue l =>
    refine agree_pop.bind fun v => ?_
    split
    · exact agree_jump l
    · exact agree_pure _
  | brfalse l =>
    refine agree_pop.bind fun v => ?_
    split
    · exact agree_pure _
    · exact agree_jump l
  | blt l =>
    refine agree_pop.bind fun right => agree_pop.bind fun left =>
      (agree_expect _ _ _).bind fun less => ?_
    split
    · exact agree_jump l
    · exact agree_pure _
  | switch labels =>
    refine agree_popInt32.bind fun index => ?_
    split
    · exact agree_jump _
    · exact agree_pure _
  | leave l =>
    refine Agree.bind (agree_get.bind fun f => ?_) fun _ => agree_pure _
    split
    · exact agree_pure _
    · exact agree_lift (agree_fatal _)
  | endfinally => exact agree_pure _
  | throw =>
    refine agree_pop.bind fun v => ?_
    split
    · exact agree_lift (agree_throw _)
    · exact agree_lift (agree_nullReference stable)
  | ret =>
    refine agree_get.bind fun f => ?_
    split
    · exact agree_pure _
    · exact agree_pop.bind fun _ => agree_pure _
  | ldsfld field => cases isLocal
  | stsfld field => cases isLocal
  | call method => cases isLocal
  | calli site => cases isLocal
  | _ => exact performs _ rfl

end Step

end LateBind

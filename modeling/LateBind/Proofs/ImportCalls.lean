import LateBind.Proofs.Execution
import LateBind.Proofs.NativeCalls
import LateBind.Proofs.NativeWorld
import LateBind.Proofs.Statics

/-! # Calls of imports

How a call of an import ends when its symbol is found, nothing is pinned and the function returns.
What it leaves behind is one native call, and a request for each library that the function opens. -/

namespace LateBind

open Machine

/-! ## What is left behind -/

/-- Objects and pins are as they were, and native code was called and libraries were asked for as
listed; memory is free to change. -/
structure MachineState.Advance (s : MachineState) (calls : List UInt64) (loads : List LoadRequest)
    (s' : MachineState) : Prop where
  objects : ∀ (i : Nat) (o : Object), s.objects[i]? = some o → s'.objects[i]? = some o
  pins : s'.pins = s.pins
  calls : s'.native.calls = s.native.calls ++ calls
  loads : s'.native.loads = s.native.loads ++ loads

namespace MachineState.Advance

variable {s s' s'' : MachineState} {calls calls' : List UInt64} {loads loads' : List LoadRequest}

theorem refl (s : MachineState) : s.Advance [] [] s := ⟨fun _ _ => id, rfl, by simp, by simp⟩

theorem trans (first : s.Advance calls loads s') (second : s'.Advance calls' loads' s'') :
    s.Advance (calls ++ calls') (loads ++ loads') s'' where
  objects i o found := second.objects i o (first.objects i o found)
  pins := second.pins.trans first.pins
  calls := by rw [second.calls, first.calls, List.append_assoc]
  loads := by rw [second.loads, first.loads, List.append_assoc]

theorem push (s : MachineState) (o : Object) :
    s.Advance [] [] { s with objects := s.objects.push o } where
  objects i o' found := by
    have inside : i < s.objects.size := (Array.getElem?_eq_some_iff.mp found).1
    rw [Array.getElem?_push_lt inside, ← found, Array.getElem?_eq_getElem inside]
  pins := rfl
  calls := by simp
  loads := by simp

theorem setStatic (s : MachineState) (f : FieldRef) (w : UInt64) :
    s.Advance [] [] (s.setStatic f w) :=
  ⟨fun _ _ => id, rfl, by simp [MachineState.setStatic], by simp [MachineState.setStatic]⟩

end MachineState.Advance

/-- No static field has changed either. -/
structure MachineState.Steady (s : MachineState) (calls : List UInt64) (loads : List LoadRequest)
    (s' : MachineState) : Prop extends s.Advance calls loads s' where
  statics : s'.statics = s.statics

namespace MachineState.Steady

variable {s s' s'' : MachineState} {calls calls' : List UInt64} {loads loads' : List LoadRequest}

theorem refl (s : MachineState) : s.Steady [] [] s := ⟨.refl s, rfl⟩

theorem trans (first : s.Steady calls loads s') (second : s'.Steady calls' loads' s'') :
    s.Steady (calls ++ calls') (loads ++ loads') s'' :=
  ⟨first.toAdvance.trans second.toAdvance, second.statics.trans first.statics⟩

theorem push (s : MachineState) (o : Object) :
    s.Steady [] [] { s with objects := s.objects.push o } := ⟨.push s o, rfl⟩

theorem memory (s : MachineState) (heap : Heap) :
    s.Steady [] [] { s with native := { s.native with heap } } :=
  ⟨⟨fun _ _ => id, rfl, by simp, by simp⟩, rfl⟩

end MachineState.Steady

namespace Machine

variable {m : Machine} {callee : OwnedMethod} {info : Import} {args : List Value}
  {handle address block : UInt64} {f : NativeFunction} {passed : List (NativeValue × Option UInt64)}
  {s s₁ s₂ s₃ : MachineState} {p : NativeState} {v : NativeValue} {result : Option Value}

/-! ## The call -/

/-- What the arguments are for native code, and the blocks that were made for them. -/
def passArguments (m : Machine) (charSet : CharSet) (method : MethodDef) (args : List Value) :
    Exec (List (NativeValue × Option UInt64)) :=
  (method.paramTypes.zip args).mapM fun (t, v) => m.passArgument charSet t v

theorem resolveImport_apply {symbol : String}
    (finds : m.world.Finds info.library symbol handle address f) (s : MachineState) :
    m.resolveImport info symbol s = (.ok address, s) := by
  simp [resolveImport, finds.handle?, finds.symbol_eq, finds.address_ne_zero]

/-- Without pins a native call is the call of the function alone. -/
theorem callPinned_apply (call : NativeCall) (address : UInt64) (args : List NativeValue)
    (unpinned : s.pins = []) : m.callPinned call address args s =
      (.ok (call address args s.native).1, { s with native := (call address args s.native).2 }) := by
  have refreshed : m.refreshPins s = (.ok (), s) := by
    simp [refreshPins, unpinned]
  have called : Exec.native (call address args) s = (.ok (call address args s.native).1,
      { s with native := (call address args s.native).2 }) := rfl
  have taken (p : NativeState) : m.takeBackPins { s with native := p } =
      (.ok (), { s with native := p }) := by
    simp [takeBackPins, unpinned]
  simp [callPinned, refreshed, called, taken]

theorem invoke_apply (found : m.world.function? address = some f) (n : Nat)
    (args : List NativeValue) (p : NativeState) :
    m.world.invoke (n + 1) address args p =
      f.body ⟨m.world.catalog, fun callee args => m.world.invoke n callee args⟩ args
        { p with calls := p.calls ++ [address] } := by
  simp [World.invoke, found]

/-- The arguments are passed, the function returns, and the copies of strings are freed. -/
theorem Ends.ofImport (isImport : callee.method.importInfo = some info)
    (finds : m.world.Finds info.library (info.entryPoint.getD callee.method.name) handle address f)
    (passes : m.passArguments info.charSet callee.method args s = (.ok passed, s₁))
    (unpinned : s₁.pins = [])
    (runs : ∀ call, f.body ⟨m.world.catalog, call⟩ (passed.map Prod.fst)
      { s₁.native with calls := s₁.native.calls ++ [address] } = (.ok v, p))
    (frees : (passed.filterMap Prod.snd).forM Exec.free { s₁ with native := p } = (.ok (), s₂))
    (freeable : ∃ s', (passed.filterMap Prod.snd).forM Exec.free s₁ = (.ok (), s'))
    (takes : m.takeResult info.charSet callee.method.returnType v s₂ = (.ok result, s₃)) :
    m.Ends callee args s (.ok result) s₃ := by
  have called (n : Nat) : m.callImport (m.world.invoke n) callee.method info args s =
      (do
        let outcome ← m.callPinned (m.world.invoke n) address (passed.map Prod.fst)
        (passed.filterMap Prod.snd).forM Exec.free
        m.takeResult info.charSet callee.method.returnType (← settle outcome) :
          Exec (Option Value)) s₁ := by
    unfold callImport
    rw [Exec.bind_ok (resolveImport_apply finds s)]
    exact Exec.bind_ok passes _
  refine ⟨2, fun n hn => ?_, fun n hn => ?_⟩
  · obtain ⟨n, rfl⟩ : ∃ n', n = n' + 1 + 1 := ⟨n - 2, by omega⟩
    rw [invoke, isImport]
    simp only
    rw [called, Exec.bind_ok (callPinned_apply _ _ _ unpinned),
      invoke_apply finds.function?, runs, Exec.bind_ok frees]
    exact takes
  · obtain rfl | rfl : n = 0 ∨ n = 1 := by omega
    · rfl
    · obtain ⟨s', freed⟩ := freeable
      rw [invoke, isImport]
      simp only
      rw [called, Exec.bind_ok (callPinned_apply _ _ _ unpinned)]
      have outOfFuel : m.world.invoke 0 address (passed.map Prod.fst) s₁.native =
          (.error .outOfFuel, s₁.native) := rfl
      rw [outOfFuel, Exec.bind_ok freed]
      rfl

/-! ## Imports with one text -/

theorem free_latest {bytes : Bytes} (latest : s.native.heap.Latest address bytes) :
    ∃ heap, Exec.free address s = (.ok (), { s with native := { s.native with heap } }) := by
  obtain ⟨heap, freed⟩ := latest.free
  exact ⟨heap, by simp [Exec.free, freed, Exec.setHeap]⟩

/-- The state with a block for the copy of a string. -/
def copied (s : MachineState) (bytes : Bytes) : MachineState :=
  { s with native := { s.native with heap := (s.native.heap.allocBytes bytes .temp).2 } }

theorem passArgument_string {r : ObjRef} {units : Units} (charSet : CharSet)
    (text : s.objects[r.index]? = some (.str units)) :
    m.passArgument charSet .string (.ref r) s =
      (.ok (.ptr s.native.heap.nextAddress, some s.native.heap.nextAddress),
        copied s (encodeString charSet units)) := by
  have units : Exec.stringUnits (.ref r) s = (.ok units, s) := by
    simp [Exec.stringUnits, Exec.view, Exec.object_apply text]
  simp [passArgument, TypeRef.string, units, Exec.allocBytes, Exec.setHeap, copied]
  rfl

/-- An import that is given the copy of one text, which the function reads. -/
theorem Ends.ofTextImport {bytes : Bytes} {loads : List LoadRequest}
    (isImport : callee.method.importInfo = some info)
    (finds : m.world.Finds info.library (info.entryPoint.getD callee.method.name) handle address f)
    (unpinned : s.pins = [])
    (passes : m.passArguments info.charSet callee.method args s = (.ok passed, copied s bytes))
    (block : passed.filterMap Prod.snd = [s.native.heap.nextAddress])
    (runs : ∀ call p, p.heap.Latest s.native.heap.nextAddress bytes →
      f.body ⟨m.world.catalog, call⟩ (passed.map Prod.fst) p =
        (.ok v, { p with loads := p.loads ++ loads }))
    (takes : ∀ s, m.takeResult info.charSet callee.method.returnType v s = (.ok result, s)) :
    ∃ s', m.Ends callee args s (.ok result) s' ∧ s.Steady [address] loads s' := by
  have latest : (copied s bytes).native.heap.Latest s.native.heap.nextAddress bytes :=
    Heap.latest_allocBytes _ _ _
  let after : NativeState :=
    { (copied s bytes).native with
      calls := s.native.calls ++ [address]
      loads := s.native.loads ++ loads }
  let called : MachineState := { copied s bytes with native := after }
  obtain ⟨heap, freed⟩ : ∃ heap, Exec.free s.native.heap.nextAddress called =
      (.ok (), { called with native := { after with heap } }) := free_latest latest
  obtain ⟨heap', freed'⟩ := free_latest latest
  have freesBlock {s₁ s₂ : MachineState}
      (freed : Exec.free s.native.heap.nextAddress s₁ = (.ok (), s₂)) :
      (passed.filterMap Prod.snd).forM Exec.free s₁ = (.ok (), s₂) := by
    rw [block]
    exact Exec.bind_ok freed _
  exact ⟨_, Ends.ofImport isImport finds passes unpinned (fun call => runs call _ latest)
    (freesBlock freed) ⟨_, freesBlock freed'⟩ (takes _),
    ⟨⟨fun _ _ => id, rfl, rfl, rfl⟩, rfl⟩⟩

/-- An import that no text is copied for. -/
theorem Ends.ofScalarImport
    (isImport : callee.method.importInfo = some info)
    (finds : m.world.Finds info.library (info.entryPoint.getD callee.method.name) handle address f)
    (unpinned : s.pins = [])
    (passes : m.passArguments info.charSet callee.method args s = (.ok passed, s))
    (block : passed.filterMap Prod.snd = [])
    (runs : ∀ call, f.body ⟨m.world.catalog, call⟩ (passed.map Prod.fst)
      { s.native with calls := s.native.calls ++ [address] } = (.ok v, p))
    (takes : ∀ s, m.takeResult info.charSet callee.method.returnType v s = (.ok result, s)) :
    m.Ends callee args s (.ok result) { s with native := p } := by
  refine Ends.ofImport isImport finds passes unpinned runs ?_ ⟨s, ?_⟩ (takes _)
  · rw [block]
    rfl
  · rw [block]
    rfl

end Machine

end LateBind

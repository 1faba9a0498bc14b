import LateBind.Proofs.Execution

/-! # Computations side by side

Two machines that differ little do the same. A relation between their states is kept by whatever looks
only at objects, pins and memory, in which related states do not differ. A machine beside itself is
the case of a property that computations leave alone. -/

namespace LateBind

variable {α β : Type} {X : MachineError → Prop} {R : MachineState → MachineState → Prop}

/-! ## Faults -/

/-- A computation ended with one of some faults. -/
def Excused (X : MachineError → Prop) (r : Except Trap α × MachineState) : Prop :=
  ∃ e, X e ∧ r.1 = .error (.fatal e)

/-- The fault of a run whose fuel was used up. -/
def Starvation : MachineError → Prop := (· = .outOfFuel)

theorem not_excused_ok {a : α} {s : MachineState} :
    ¬Excused X ((.ok a, s) : Except Trap α × MachineState) := fun ⟨_, _, eq⟩ => nomatch eq

theorem Excused.error {e : Trap} {s s' : MachineState}
    (h : Excused X ((.error e, s) : Except Trap α × MachineState)) :
    Excused X ((.error e, s') : Except Trap β × MachineState) := by
  obtain ⟨fault, excused, eq⟩ := h
  cases eq
  exact ⟨fault, excused, rfl⟩

theorem Excused.bind {x : Exec α} {s : MachineState} (h : Excused X (x s)) (f : α → Exec β) :
    Excused X ((x >>= f) s) := by
  rcases run : x s with ⟨r, s'⟩
  rw [run] at h
  obtain ⟨fault, excused, eq⟩ := h
  cases eq
  exact ⟨fault, excused, by rw [Exec.bind_error run]⟩

/-- The second result is the first, unless that is an excused fault. -/
def Refined (X : MachineError → Prop) (x x' : Except MachineError α) : Prop :=
  (∃ e, X e ∧ x = .error e) ∨ x' = x

namespace Refined

variable {x x' : Except MachineError α}

theorem refl (x : Except MachineError α) : Refined X x x := .inr rfl

theorem bind {g g' : α → Except MachineError β} (hx : Refined X x x')
    (hg : ∀ a, Refined X (g a) (g' a)) : Refined X (x >>= g) (x' >>= g') := by
  rcases hx with ⟨e, excused, rfl⟩ | rfl
  · exact .inl ⟨e, excused, rfl⟩
  · cases x' with
    | ok a => exact hg a
    | error e => exact .inr rfl

theorem map (hx : Refined X x x') (g : α → β) : Refined X (x.map g) (x'.map g) := by
  rcases hx with ⟨e, excused, rfl⟩ | rfl
  · exact .inl ⟨e, excused, rfl⟩
  · exact .refl _

theorem mapM {g g' : α → Except MachineError β} (hg : ∀ a, Refined X (g a) (g' a)) (l : List α) :
    Refined X (l.mapM g) (l.mapM g') := by
  induction l with
  | nil => exact .refl _
  | cons a l ih =>
    rw [List.mapM_cons, List.mapM_cons]
    exact (hg a).bind fun _ => ih.bind fun _ => .refl _

end Refined

/-! ## Modules and machines -/

/-- Values are the same in both modules and lie in memory alike. -/
structure Module.Agrees (X : MachineError → Prop) (m m' : Module) : Prop where
  defaultValue (t : TypeRef) : m'.defaultValue t = m.defaultValue t
  size (t : TypeRef) : Refined X (m.size t) (m'.size t)
  encode (t : TypeRef) (v : Value) : Refined X (m.encode t v) (m'.encode t v)
  decode (t : TypeRef) (bytes : Bytes) : Refined X (m.decode t bytes) (m'.decode t bytes)
  toNative (t : TypeRef) (v : Value) : Refined X (m.toNative t v) (m'.toNative t v)
  ofNative (t : TypeRef) (v : NativeValue) : Refined X (m.ofNative t v) (m'.ofNative t v)

theorem Module.Agrees.refl (m : Module) : m.Agrees X m :=
  ⟨fun _ => rfl, fun _ => .refl _, fun _ _ => .refl _, fun _ _ => .refl _, fun _ _ => .refl _,
    fun _ _ => .refl _⟩

/-- Values agree, and the system's loader answers alike. -/
structure Machine.Alike (X : MachineError → Prop) (m m' : Machine) : Prop where
  values : m.module.Agrees X m'.module
  catalog : m'.world.catalog = m.world.catalog

theorem Machine.Alike.refl (m : Machine) : m.Alike X m := ⟨.refl _, rfl⟩

/-- The state with other native memory. -/
@[reducible]
def MachineState.withHeap (s : MachineState) (heap : Heap) : MachineState :=
  { s with native := { s.native with heap } }

namespace Exec

/-- From related states the computations come to the same result and to related states, also when
they stop. Nothing is said when the first ends with an excused fault. -/
def Agree (X : MachineError → Prop) (R : MachineState → MachineState → Prop) (x x' : Exec α) : Prop :=
  ∀ s s', R s s' → Excused X (x s) ∨ (x' s').1 = (x s).1 ∧ R (x s).2 (x' s').2

/-- Related states differ in nothing but static fields, and the relation does not look at what objects
and memory hold, nor at pins. -/
structure Stable (R : MachineState → MachineState → Prop) : Prop where
  statics {s s' : MachineState} : R s s' → ∃ statics, s' = { s with statics }
  objects {s s' : MachineState} (objects : Array Object) :
    R s s' → R { s with objects } { s' with objects }
  write {s s' : MachineState} {address : UInt64} {bytes : Bytes} {heap : Heap} :
    s.native.heap.write? address bytes = some heap → R s s' → R (s.withHeap heap) (s'.withHeap heap)
  pin {s s' : MachineState} (bytes : Bytes) (source : PinSource) : R s s' →
    R { s.withHeap (s.native.heap.allocBytes bytes .pinned).2 with
        pins := s.pins ++ [⟨s.native.heap.nextAddress, source⟩] }
      { s'.withHeap (s.native.heap.allocBytes bytes .pinned).2 with
        pins := s.pins ++ [⟨s.native.heap.nextAddress, source⟩] }

/-- Related states differ in nothing but static fields, and the relation allows that managed code makes
and frees blocks. -/
structure Lenient (R : MachineState → MachineState → Prop) : Prop where
  statics {s s' : MachineState} : R s s' → ∃ statics, s' = { s with statics }
  zeros {s s' : MachineState} (size : Nat) : R s s' →
    R (s.withHeap (s.native.heap.alloc size .hglobal).2)
      (s'.withHeap (s.native.heap.alloc size .hglobal).2)
  bytes {s s' : MachineState} (bytes : Bytes) : R s s' →
    R (s.withHeap (s.native.heap.allocBytes bytes .hglobal).2)
      (s'.withHeap (s.native.heap.allocBytes bytes .hglobal).2)
  free {s s' : MachineState} {address : UInt64} {heap : Heap} :
    s.native.heap.free address = .ok heap → R s s' → R (s.withHeap heap) (s'.withHeap heap)

/-! ## Sequences -/

theorem agree_pure (a : α) : Agree X R (pure a : Exec α) (pure a) := fun _ _ h => .inr ⟨rfl, h⟩

theorem agree_throw (e : Trap) : Agree X R (throw e : Exec α) (throw e) :=
  fun _ _ h => .inr ⟨rfl, h⟩

theorem Agree.bind {x x' : Exec α} {g g' : α → Exec β} (hx : Agree X R x x')
    (hg : ∀ a, Agree X R (g a) (g' a)) : Agree X R (x >>= g) (x' >>= g') := by
  intro s s' h
  rcases hx s s' h with excused | ⟨same, after⟩
  · exact .inl (excused.bind g)
  · rw [bind_apply, bind_apply]
    rcases run : x s with ⟨r, s₁⟩
    rcases run' : x' s' with ⟨r', s₁'⟩
    simp only [run, run'] at same after
    subst same
    cases r' with
    | ok a => exact hg a _ _ after
    | error e => exact .inr ⟨rfl, after⟩

theorem agree_mapM {g g' : α → Exec β} {l : List α} (hg : ∀ a, Agree X R (g a) (g' a)) :
    Agree X R (l.mapM g) (l.mapM g') := by
  induction l with
  | nil => exact agree_pure _
  | cons a l ih =>
    rw [List.mapM_cons, List.mapM_cons]
    exact (hg a).bind fun _ => ih.bind fun _ => agree_pure _

theorem agree_forM {g g' : α → Exec PUnit} {l : List α} (hg : ∀ a, Agree X R (g a) (g' a)) :
    Agree X R (l.forM g) (l.forM g') := by
  induction l with
  | nil => exact agree_pure _
  | cons a l ih => exact (hg a).bind fun _ => ih

theorem agree_fatal (e : MachineError) : Agree X R (fatal e : Exec α) (fatal e) := agree_throw _

theorem agree_unsupported (gap : Gap) : Agree X R (unsupported gap : Exec α) (unsupported gap) :=
  agree_throw _

theorem agree_lift {x x' : Except MachineError α} (refined : Refined X x x') :
    Agree X R (lift x) (lift x') := by
  rcases refined with ⟨e, excused, rfl⟩ | rfl
  · exact fun _ _ _ => .inl ⟨e, excused, rfl⟩
  · cases x' with
    | ok a => exact agree_pure a
    | error e => exact agree_fatal e

/-! ## Objects and memory -/

section Stable

variable (stable : Stable R)

include stable

theorem agree_alloc (o : Object) : Agree X R (alloc o) (alloc o) := by
  intro s s' h
  obtain ⟨statics, rfl⟩ := stable.statics h
  exact .inr ⟨rfl, stable.objects _ h⟩

/-- A computation that looks at the state, but not at its static fields. -/
theorem agree_get {g g' : MachineState → Exec α} (hg : ∀ s, Agree X R (g s) (g' s))
    (blind : ∀ (s : MachineState) statics, g' { s with statics } = g' s) :
    Agree X R (get >>= g) (get >>= g') := by
  intro s s' h
  obtain ⟨statics, rfl⟩ := stable.statics h
  have agree := hg s s _ h
  rw [← blind s statics] at agree
  exact agree

theorem agree_str (units : Units) : Agree X R (str units) (str units) :=
  (agree_alloc stable _).bind fun _ => agree_pure _

theorem agree_raise (className message : String) :
    Agree X R (raise className message : Exec α) (raise className message) :=
  (agree_alloc stable _).bind fun _ => agree_throw _

theorem agree_nullReference : Agree X R (nullReference : Exec α) nullReference :=
  agree_raise stable _ _

theorem agree_indexOutOfRange : Agree X R (indexOutOfRange : Exec α) indexOutOfRange :=
  agree_raise stable _ _

theorem agree_object (r : ObjRef) : Agree X R (object r) (object r) := by
  refine agree_get stable (fun s => ?_) fun _ _ => rfl
  split
  · exact agree_pure _
  · exact agree_unsupported _

theorem agree_setObject (r : ObjRef) (o : Object) : Agree X R (setObject r o) (setObject r o) := by
  intro s s' h
  obtain ⟨statics, rfl⟩ := stable.statics h
  exact .inr ⟨rfl, stable.objects _ h⟩

theorem agree_setItem (array : ObjRef) (position : Nat) (v : Value) :
    Agree X R (setItem array position v) (setItem array position v) := by
  intro s s' h
  obtain ⟨statics, rfl⟩ := stable.statics h
  exact .inr ⟨rfl, stable.objects _ h⟩

theorem agree_view (select : Object → Option α) (gap : String → Gap) (v : Value) :
    Agree X R (view select gap v) (view select gap v) := by
  unfold view
  split
  · refine (agree_object stable _).bind fun o => ?_
    split
    · exact agree_pure _
    · exact agree_unsupported _
  · exact agree_nullReference stable
  · exact agree_unsupported _

theorem agree_stringUnits (v : Value) : Agree X R (stringUnits v) (stringUnits v) :=
  agree_view stable _ _ v

theorem agree_arrayItems (v : Value) : Agree X R (arrayItems v) (arrayItems v) :=
  agree_view stable _ _ v

theorem agree_position (items : Array Value) (index : Int32) :
    Agree X R (position items index) (position items index) := by
  unfold position
  split
  · exact agree_pure _
  · exact agree_indexOutOfRange stable

theorem agree_item (array : Value) (index : Int32) :
    Agree X R (item array index) (item array index) := by
  refine (agree_arrayItems stable array).bind fun items => ?_
  split
  · exact agree_pure _
  · exact agree_indexOutOfRange stable

theorem agree_slot (array : Value) (index : Int32) :
    Agree X R (slot array index) (slot array index) := by
  refine (agree_arrayItems stable array).bind fun items => ?_
  refine (agree_position stable items index).bind fun place => ?_
  split
  · exact agree_pure _
  · exact agree_nullReference stable

theorem agree_access (address : UInt64) (result : Heap → Option α) :
    Agree X R (access address result) (access address result) := by
  refine agree_get stable (fun s => ?_) fun _ _ => rfl
  split
  · exact agree_pure _
  · exact agree_fatal _

theorem agree_write (address : UInt64) (bytes : Bytes) :
    Agree X R (do setHeap (← access address (·.write? address bytes)))
      (do setHeap (← access address (·.write? address bytes))) := by
  intro s s' h
  obtain ⟨statics, rfl⟩ := stable.statics h
  cases written : s.native.heap.write? address bytes with
  | none =>
    have stops (statics : List StaticCell) :
        access address (·.write? address bytes) { s with statics } =
          (.error (.fatal (.invalidAddress address)), { s with statics }) := by
      simp [access, written, fatal]
    rw [bind_error (stops statics), bind_error (stops s.statics)]
    exact .inr ⟨rfl, h⟩
  | some heap =>
    have found (statics : List StaticCell) :
        access address (·.write? address bytes) { s with statics } =
          (.ok heap, { s with statics }) := by
      simp [access, written]
    rw [bind_ok (found statics), bind_ok (found s.statics)]
    exact .inr ⟨rfl, stable.write written h⟩

end Stable

section Lenient

variable (lenient : Lenient R)

include lenient

theorem agree_allocZeros (size : Nat) :
    Agree X R (allocZeros size .hglobal) (allocZeros size .hglobal) := by
  intro s s' h
  obtain ⟨statics, rfl⟩ := lenient.statics h
  exact .inr ⟨rfl, lenient.zeros size h⟩

theorem agree_allocBytes (bytes : Bytes) :
    Agree X R (allocBytes bytes .hglobal) (allocBytes bytes .hglobal) := by
  intro s s' h
  obtain ⟨statics, rfl⟩ := lenient.statics h
  exact .inr ⟨rfl, lenient.bytes bytes h⟩

theorem agree_free (address : UInt64) : Agree X R (free address) (free address) := by
  intro s s' h
  obtain ⟨statics, rfl⟩ := lenient.statics h
  cases freed : s.native.heap.free address with
  | ok heap =>
    have frees (statics : List StaticCell) : free address { s with statics } =
        (.ok (), ({ s with statics } : MachineState).withHeap heap) := by
      simp [free, freed, setHeap]
    rw [frees statics, frees s.statics]
    exact .inr ⟨rfl, lenient.free freed h⟩
  | error fault =>
    have stays : ∃ e, ∀ statics : List StaticCell, free address { s with statics } =
        (.error (.fatal e), { s with statics }) := by
      cases fault with
      | freedBefore => exact ⟨.doubleFree address, fun _ => by simp [free, freed, fatal]⟩
      | noBlock => exact ⟨.invalidFree address, fun _ => by simp [free, freed, fatal]⟩
    obtain ⟨e, stays⟩ := stays
    rw [stays statics, stays s.statics]
    exact .inr ⟨rfl, h⟩

end Lenient

end Exec

open Exec

namespace Machine

variable {m m' : Machine} (alike : m.Alike X m') (stable : Stable R)

include alike stable

/-! ## Pins -/

theorem agree_pinnedBytes (source : PinSource) :
    Agree X R (m.pinnedBytes source) (m'.pinnedBytes source) := by
  unfold pinnedBytes
  split
  · refine (agree_object stable _).bind fun o => ?_
    split
    · exact (agree_lift (.mapM (alike.values.encode _) _)).bind fun _ => agree_pure _
    · exact agree_unsupported _
  · refine (agree_object stable _).bind fun o => ?_
    split
    · exact agree_lift (alike.values.encode _ _)
    · exact agree_unsupported _
  · refine (agree_object stable _).bind fun o => ?_
    split
    · exact agree_pure _
    · exact agree_unsupported _

theorem agree_pin (source : PinSource) : Agree X R (m.pin source) (m'.pin source) := by
  refine agree_get stable (fun s => ?_) fun _ _ => rfl
  split
  · exact agree_pure _
  · refine (agree_pinnedBytes alike stable source).bind fun bytes => ?_
    intro s s' h
    obtain ⟨statics, rfl⟩ := stable.statics h
    exact .inr ⟨rfl, stable.pin bytes source h⟩

theorem agree_pinAddress (target : Address) :
    Agree X R (m.pinAddress target) (m'.pinAddress target) := by
  cases target <;> exact agree_pin alike stable _

theorem agree_pinString (r : ObjRef) : Agree X R (m.pinString r) (m'.pinString r) := by
  refine (agree_object stable r).bind fun o => ?_
  split
  · exact agree_pin alike stable _
  · exact agree_unsupported _

theorem agree_refreshPins : Agree X R m.refreshPins m'.refreshPins := by
  refine agree_get stable (fun s => agree_forM fun p => ?_) fun _ _ => rfl
  exact (agree_pinnedBytes alike stable _).bind fun _ => agree_write stable _ _

theorem agree_takeBack (p : Pin) : Agree X R (m.takeBack p) (m'.takeBack p) := by
  unfold takeBack
  split
  · refine (agree_object stable _).bind fun o => ?_
    split
    · exact (agree_lift (alike.values.size _)).bind fun _ => (agree_access stable _ _).bind fun _ =>
        (agree_lift (.mapM (alike.values.decode _) _)).bind fun _ => agree_setObject stable _ _
    · exact agree_pure _
  · refine (agree_object stable _).bind fun o => ?_
    split
    · exact (agree_lift (alike.values.size _)).bind fun _ => (agree_access stable _ _).bind fun _ =>
        (agree_lift (alike.values.decode _ _)).bind fun _ => agree_setObject stable _ _
    · exact agree_pure _
  · exact agree_pure _

theorem agree_takeBackPins : Agree X R m.takeBackPins m'.takeBackPins :=
  agree_get stable (fun _ => agree_forM (agree_takeBack alike stable)) fun _ _ => rfl

omit alike in
theorem agree_releasePins (lenient : Lenient R)
    (unpin : ∀ s s', R s s' → R { s with pins := [] } { s' with pins := [] }) :
    Agree X R releasePins releasePins := by
  refine agree_get stable (fun s => ?_) fun _ _ => rfl
  exact Agree.bind (fun s s' h => .inr ⟨rfl, unpin s s' h⟩) fun _ =>
    agree_forM fun _ => agree_free lenient _

/-! ## Native calls -/

omit alike in
theorem agree_settle (outcome : Except NativeFault NativeValue) :
    Agree X R (settle outcome) (settle outcome) := by
  unfold settle
  split
  · exact agree_pure _
  · exact agree_raise stable _ _
  · exact agree_fatal _
  · exact agree_fatal _
  · exact agree_fatal _

theorem agree_passArgument
    (temp : ∀ {s s' : MachineState} (bytes : Bytes), R s s' →
      R (s.withHeap (s.native.heap.allocBytes bytes .temp).2)
        (s'.withHeap (s.native.heap.allocBytes bytes .temp).2))
    (charSet : CharSet) (t : TypeRef) (v : Value) :
    Agree X R (m.passArgument charSet t v) (m'.passArgument charSet t v) := by
  unfold passArgument
  split
  · exact agree_pure _
  · refine (agree_stringUnits stable _).bind fun units => Agree.bind ?_ fun _ => agree_pure _
    intro s s' h
    obtain ⟨statics, rfl⟩ := stable.statics h
    exact .inr ⟨rfl, temp (encodeString charSet units) h⟩
  · exact agree_pure _
  · exact (agree_lift (alike.values.toNative _ _)).bind fun _ => agree_pure _

omit alike in
theorem agree_readString (charSet : CharSet) (v : NativeValue) :
    Agree X R (readString charSet v) (readString charSet v) := by
  unfold readString
  split
  · exact agree_pure _
  · exact agree_pure _
  · split
    · exact (agree_access stable _ _).bind fun _ => agree_str stable _
    all_goals exact (agree_access stable _ _).bind fun _ => agree_str stable _

theorem agree_takeResult (charSet : CharSet) (t : TypeRef) (v : NativeValue) :
    Agree X R (m.takeResult charSet t v) (m'.takeResult charSet t v) := by
  unfold takeResult
  split
  · exact agree_pure _
  · exact (agree_readString stable _ _).bind fun _ => agree_pure _
  · exact agree_lift (alike.values.ofNative _ _)

theorem agree_resolveImport (info : Import) (symbol : String) :
    Agree X R (m.resolveImport info symbol) (m'.resolveImport info symbol) := by
  unfold resolveImport
  rw [alike.catalog]
  split
  · exact agree_raise stable _ _
  · dsimp only
    split
    · exact agree_raise stable _ _
    · exact agree_pure _

/-- A native call around which pins are brought up to date and taken back. -/
theorem agree_callPinned {call call' : NativeCall} {address : UInt64} {args : List NativeValue}
    (native : Agree X R (Exec.native (call address args)) (Exec.native (call' address args))) :
    Agree X R (m.callPinned call address args) (m'.callPinned call' address args) :=
  (agree_refreshPins alike stable).bind fun _ => native.bind fun _ =>
    (agree_takeBackPins alike stable).bind fun _ => agree_pure _

theorem agree_callIndirect {call call' : NativeCall}
    (native : ∀ address args,
      Agree X R (Exec.native (call address args)) (Exec.native (call' address args)))
    (address : UInt64) (site : CallSite) (args : List Value) :
    Agree X R (m.callIndirect call address site args) (m'.callIndirect call' address site args) :=
  (agree_lift (.mapM (fun (slot : TypeRef × Value) => alike.values.toNative slot.1 slot.2) _)).bind fun _ =>
    (agree_callPinned alike stable (native _ _)).bind fun _ =>
    (agree_settle stable _).bind fun _ => agree_lift (alike.values.ofNative _ _)

theorem agree_callImport (lenient : Lenient R)
    (temp : ∀ {s s' : MachineState} (bytes : Bytes), R s s' →
      R (s.withHeap (s.native.heap.allocBytes bytes .temp).2)
        (s'.withHeap (s.native.heap.allocBytes bytes .temp).2))
    {call call' : NativeCall}
    (native : ∀ address args,
      Agree X R (Exec.native (call address args)) (Exec.native (call' address args)))
    (method : MethodDef) (info : Import) (args : List Value) :
    Agree X R (m.callImport call method info args) (m'.callImport call' method info args) :=
  (agree_resolveImport alike stable _ _).bind fun _ =>
    (agree_mapM fun _ => agree_passArgument alike stable temp _ _ _).bind fun _ =>
    (agree_callPinned alike stable (native _ _)).bind fun _ =>
    (agree_forM fun _ => agree_free lenient _).bind fun _ =>
    (agree_settle stable _).bind fun _ => agree_takeResult alike stable _ _ _

end Machine

/-! ## The framework's library -/

namespace RuntimeMember

variable (stable : Stable R)

theorem agree_pointer (v : Value) : Agree X R (pointer v) (pointer v) := by
  unfold pointer
  split
  · exact agree_pure _
  · exact agree_unsupported _

include stable

theorem agree_argumentNull (parameter : String) :
    Agree X R (argumentNull parameter : Exec α) (argumentNull parameter) :=
  agree_raise stable _ _

theorem agree_unitsOrNone (v : Value) : Agree X R (unitsOrNone v) (unitsOrNone v) := by
  unfold unitsOrNone
  split
  · exact agree_pure _
  · exact agree_stringUnits stable _

theorem agree_copyString (lenient : Lenient R) (encode : Units → Bytes) (v : Value) :
    Agree X R (copyString encode v) (copyString encode v) := by
  unfold copyString
  split
  · exact agree_pure _
  · exact (agree_stringUnits stable _).bind fun _ =>
      (agree_allocBytes lenient _).bind fun _ => agree_pure _

theorem agree_readString (read : Heap → UInt64 → Option Units) (v : Value) :
    Agree X R (readString read v) (readString read v) := by
  refine (agree_pointer v).bind fun address => ?_
  split
  · exact agree_pure _
  · exact (agree_access stable _ _).bind fun _ => agree_str stable _

theorem agree_delegateTarget (v : Value) : Agree X R (delegateTarget v) (delegateTarget v) := by
  unfold delegateTarget
  split
  · refine agree_get stable (fun s => ?_) fun _ _ => rfl
    split
    · exact agree_pure _
    · exact agree_argumentNull stable _
  · exact agree_argumentNull stable _

theorem agree_typeOf (v : Value) : Agree X R (typeOf v) (typeOf v) := by
  unfold typeOf
  split
  · refine (agree_object stable _).bind fun o => ?_
    split
    · exact agree_pure _
    · exact agree_unsupported _
  · exact agree_argumentNull stable _

/-- Members of the framework's library make objects, and make and free blocks of memory. -/
theorem agree_call (lenient : Lenient R) (platform : Platform) (member : RuntimeMember)
    (args : List Value) : Agree X R (member.call platform args) (member.call platform args) := by
  cases member with
  | allocHGlobal => exact (agree_allocZeros lenient _).bind fun _ => agree_pure _
  | freeHGlobal =>
    refine (agree_pointer _).bind fun address => ?_
    dsimp only
    split
    · exact (agree_free lenient _).bind fun _ => agree_pure _
    · exact agree_pure _
  | ptrToStringAnsi => exact (agree_readString stable _ _).bind fun _ => agree_pure _
  | ptrToStringUni => exact (agree_readString stable _ _).bind fun _ => agree_pure _
  | stringToHGlobalAnsi =>
    exact (agree_copyString stable lenient _ _).bind fun _ => agree_pure _
  | stringToHGlobalUni =>
    exact (agree_copyString stable lenient _ _).bind fun _ => agree_pure _
  | functionPointerForDelegate =>
    exact (agree_delegateTarget stable _).bind fun _ => agree_pure _
  | delegateForFunctionPointer =>
    exact (agree_pointer _).bind fun _ => (agree_typeOf stable _).bind fun _ =>
      (agree_alloc stable _).bind fun _ => agree_pure _
  | stringEquals =>
    dsimp only [call]
    split
    · exact agree_pure _
    · exact agree_pure _
    · exact agree_pure _
    · exact (agree_stringUnits stable _).bind fun _ => (agree_stringUnits stable _).bind fun _ =>
        agree_pure _
  | stringConcat =>
    exact (agree_unitsOrNone stable _).bind fun _ => (agree_unitsOrNone stable _).bind fun _ =>
      (agree_str stable _).bind fun _ => agree_pure _
  | stringLength => exact (agree_stringUnits stable _).bind fun _ => agree_pure _
  | stringChars =>
    refine (agree_stringUnits stable _).bind fun units => ?_
    dsimp only
    split
    · exact agree_pure _
    · exact agree_indexOutOfRange stable
  | newLine => exact (agree_str stable _).bind fun _ => agree_pure _
  | offsetToStringData => exact agree_pure _
  | typeFromHandle => exact agree_pure _

end RuntimeMember

theorem Machine.agree_construct (stable : Stable R) (ctor : MethodRef) (args : List Value) :
    Agree X R (construct ctor args) (construct ctor args) := by
  unfold construct
  split
  · exact (RuntimeMember.agree_unitsOrNone stable _).bind fun _ =>
      (agree_alloc stable _).bind fun _ => agree_pure _
  · exact agree_fatal _

end LateBind

import LateBind.Proofs.ArgumentCode
import LateBind.Proofs.AwaitedCalls
import LateBind.Proofs.References

/-! # The code for results

Behind the native call a stub turns the native result into a managed one. A text is read from native
memory, which stops the program where there is none. -/

namespace LateBind

/-! ## Native results -/

/-- Which values a native type has. -/
theorem Module.kind_of_ofNative {m : Module} {t : TypeRef} {n : NativeValue} {v : Option Value}
    (taken : m.ofNative t n = .ok v) : v.isSome = !t.isVoid ∧
      (t = .intPtr → ∃ p, v = some (.ptr p)) ∧ (t = .i32 ∨ t = .u8 → ∃ k, v = some (.i32 k)) := by
  cases void : t.isVoid with
  | true =>
    rw [ofNative, if_pos void] at taken
    cases taken
    refine ⟨rfl, ?_, ?_⟩
    · rintro rfl
      cases void
    · rintro (rfl | rfl) <;> cases void
  | false =>
    refine ⟨?_, ?_, ?_⟩
    · rw [ofNative, if_neg (by simp [void])] at taken
      generalize m.represent t = t' at taken
      cases v with
      | some v => rfl
      | none =>
        exfalso
        cases t' with
        | primitive p => cases p <;> cases n <;> cases taken
        | pointer target => cases n <;> cases taken
        | named name =>
          cases n with
          | struct bytes =>
            obtain ⟨v, -, same⟩ := map_eq_ok taken
            cases same
          | _ => cases taken
        | array element rank => cases taken
        | byRef target => cases taken
    · rintro rfl
      cases n <;> cases taken
      all_goals exact ⟨_, rfl⟩
    · rintro (rfl | rfl)
      · cases n <;> cases taken
        exact ⟨_, rfl⟩
      · cases n <;> cases taken
        exact ⟨_, rfl⟩

/-- What the caller gets for a native result. -/
def Machine.unmarshal (m : Machine) (slot : ReturnSlot) : Option Value → Exec (Option Value)
  | none => return none
  | some v =>
    match slot.plan with
    | .boolean _ => return some (.ofBool v.isTrue)
    | .ansiString => RuntimeMember.ptrToStringAnsi.call m.world.catalog.platform [v]
    | .unicodeString => RuntimeMember.ptrToStringUni.call m.world.catalog.platform [v]
    | .delegate => do
      if v.isTrue then
        let type ← Exec.alloc (.type slot.type)
        RuntimeMember.delegateForFunctionPointer.call m.world.catalog.platform [v, .ref type]
      else return some .null
    | .direct | .byRef | .blittableArray | .stringArray _ => return some v

/-! ## Computations that only add objects -/

/-- Objects were added, and nothing else has changed. -/
def MachineState.Adds (s s' : MachineState) : Prop :=
  ∃ more : Array Object, s' = { s with objects := s.objects ++ more }

namespace MachineState.Adds

variable {s s' s'' : MachineState}

theorem refl (s : MachineState) : s.Adds s := ⟨#[], by simp⟩

theorem trans (first : s.Adds s') (second : s'.Adds s'') : s.Adds s'' := by
  obtain ⟨more, rfl⟩ := first
  obtain ⟨more', rfl⟩ := second
  exact ⟨more ++ more', by simp⟩

theorem withObject (s : MachineState) (o : Object) : s.Adds (s.withObject o) :=
  ⟨#[o], by simp [MachineState.withObject]⟩

theorem object {i : Nat} {o : Object} (adds : s.Adds s') (found : s.objects[i]? = some o) :
    s'.objects[i]? = some o := by
  obtain ⟨more, rfl⟩ := adds
  have inside := (Array.getElem?_eq_some_iff.mp found).1
  exact (Array.getElem?_append_left inside).trans found

end MachineState.Adds

namespace Exec

variable {α β : Type}

/-- A computation that succeeds does so step by step. -/
theorem exists_of_bind_ok {x : Exec α} {g : α → Exec β} {s s' : MachineState} {b : β}
    (h : (x >>= g) s = (.ok b, s')) : ∃ a s₁, x s = (.ok a, s₁) ∧ g a s₁ = (.ok b, s') := by
  rcases first : x s with ⟨r, s₁⟩
  cases r with
  | error e =>
    rw [bind_error first] at h
    cases h
  | ok a =>
    rw [bind_ok first] at h
    exact ⟨a, s₁, rfl, h⟩

/-- The computation adds objects at most, and throws no exception. -/
def Adds (x : Exec α) : Prop :=
  ∀ s, s.Adds (x s).2 ∧ ∀ t, (x s).1 = .error t → ∃ e, t = .fatal e

theorem adds_pure (a : α) : Adds (pure a : Exec α) := fun s => ⟨.refl s, nofun⟩

theorem adds_fatal (e : MachineError) : Adds (fatal e : Exec α) :=
  fun s => ⟨.refl s, fun _ same => ⟨e, (Except.error.inj same).symm⟩⟩

theorem Adds.bind {x : Exec α} {f : α → Exec β} (hx : Adds x) (hf : ∀ a, Adds (f a)) :
    Adds (x >>= f) := by
  intro s
  obtain ⟨adds, stops⟩ := hx s
  rcases ran : x s with ⟨r, s'⟩
  rw [ran] at adds stops
  cases r with
  | error t =>
    rw [bind_error ran]
    exact ⟨adds, fun _ same => stops _ (congrArg Except.error (Except.error.inj same))⟩
  | ok a =>
    rw [bind_ok ran]
    exact ⟨adds.trans (hf a s').1, (hf a s').2⟩

theorem adds_alloc (o : Object) : Adds (alloc o) := fun s => ⟨.withObject s o, nofun⟩

theorem adds_str (units : Units) : Adds (str units) := (adds_alloc _).bind fun _ => adds_pure _

theorem adds_access {address : UInt64} {look : Heap → Option α} : Adds (access address look) := by
  intro s
  cases found : look s.native.heap with
  | some a =>
    have there : access address look s = (.ok a, s) := by simp [access, found]
    rw [there]
    refine ⟨.refl s, fun t stopped => ?_⟩
    cases stopped
  | none =>
    have gone : access address look s = (fatal (.invalidAddress address) : Exec α) s := by
      simp [access, found]
    rw [gone]
    exact adds_fatal _ s

end Exec

namespace RuntimeMember

open Exec

theorem adds_pointer (v : Value) : Adds (pointer v) := by
  unfold pointer
  split
  · exact adds_pure _
  · exact adds_fatal _

theorem adds_readString (read : Heap → UInt64 → Option Units) (v : Value) :
    Adds (readString read v) := by
  refine (adds_pointer v).bind fun address => ?_
  split
  · exact adds_pure _
  · exact adds_access.bind fun units => adds_str units

/-- The members that read a text add it, or stop the program. -/
theorem adds_of_reads {member : RuntimeMember}
    (reads : member = .ptrToStringAnsi ∨ member = .ptrToStringUni) (platform : Platform)
    (args : List Value) : Adds (member.call platform args) := by
  rcases reads with rfl | rfl
  all_goals exact (adds_readString _ _).bind fun _ => adds_pure _

/-- The members that read a text give a value when they succeed. -/
theorem isSome_of_call {member : RuntimeMember}
    (reads : member = .ptrToStringAnsi ∨ member = .ptrToStringUni) {platform : Platform}
    {args : List Value} {s s' : MachineState} {v : Option Value}
    (calls : member.call platform args s = (.ok v, s')) : ∃ w, v = some w := by
  rcases reads with rfl | rfl
  all_goals
    obtain ⟨w, s₁, -, same⟩ := exists_of_bind_ok calls
    cases same
    exact ⟨w, rfl⟩

theorem delegateForFunctionPointer_apply {platform : Platform} {s : MachineState} {r : ObjRef}
    {t : TypeRef} {p : UInt64} (type : s.objects[r.index]? = some (.type t)) :
    delegateForFunctionPointer.call platform [.ptr p, .ref r] s =
      (.ok (some (.ref ⟨s.objects.size⟩)), s.withObject (.delegate t p)) := by
  simp [call, pointer, typeOf, Value.toPointer?, object_apply type, MachineState.withObject]

/-- A delegate is made of its type. -/
theorem makeDelegate_apply (platform : Platform) (t : TypeRef) (p : UInt64) (s : MachineState) :
    (do
        let type ← alloc (.type t)
        delegateForFunctionPointer.call platform [.ptr p, .ref type] : Exec (Option Value)) s =
      (.ok (some (.ref ⟨(s.withObject (.type t)).objects.size⟩)),
        (s.withObject (.type t)).withObject (.delegate t p)) := by
  have type : (s.withObject (.type t)).objects[s.objects.size]? = some (.type t) :=
    MachineState.object_withObject_new s _
  have made : delegateForFunctionPointer.call platform [.ptr p, .ref ⟨s.objects.size⟩]
      (s.withObject (.type t)) = (.ok _, _) := delegateForFunctionPointer_apply type
  exact made

end RuntimeMember

/-- What becomes of a native result that is a value of its type is made of new objects, unless it
stops the program. -/
theorem Machine.adds_unmarshal (m : Machine) {slot : ReturnSlot} {n : NativeValue} {v : Option Value}
    (taken : m.module.ofNative slot.nativeType n = .ok v) : Exec.Adds (m.unmarshal slot v) := by
  cases v with
  | none => exact Exec.adds_pure _
  | some v =>
    unfold unmarshal
    cases plan : slot.plan with
    | ansiString => exact RuntimeMember.adds_of_reads (.inl rfl) _ _
    | unicodeString => exact RuntimeMember.adds_of_reads (.inr rfl) _ _
    | delegate =>
      obtain ⟨p, same⟩ := (Module.kind_of_ofNative taken).2.1 (by rw [ReturnSlot.nativeType, plan]; rfl)
      cases same
      dsimp only
      split
      · intro s
        rw [RuntimeMember.makeDelegate_apply]
        refine ⟨(MachineState.Adds.withObject s _).trans (.withObject _ _), fun t stopped => ?_⟩
        cases stopped
      · exact Exec.adds_pure _
    | _ => exact Exec.adds_pure _

/-- There is a managed result where there is a native one. -/
theorem Machine.isSome_of_unmarshal {m : Machine} {slot : ReturnSlot} {v w : Option Value}
    {s s' : MachineState} (reads : m.unmarshal slot v s = (.ok w, s')) : w.isSome = v.isSome := by
  cases v with
  | none =>
    cases reads
    rfl
  | some v =>
    unfold unmarshal at reads
    cases plan : slot.plan with
    | ansiString =>
      rw [plan] at reads
      obtain ⟨w, rfl⟩ := RuntimeMember.isSome_of_call (.inl rfl) reads
      rfl
    | unicodeString =>
      rw [plan] at reads
      obtain ⟨w, rfl⟩ := RuntimeMember.isSome_of_call (.inr rfl) reads
      rfl
    | delegate =>
      rw [plan] at reads
      dsimp only at reads
      split at reads
      · obtain ⟨type, s₁, -, reads⟩ := Exec.exists_of_bind_ok reads
        obtain ⟨target, s₂, -, reads⟩ := Exec.exists_of_bind_ok reads
        obtain ⟨t, s₃, -, reads⟩ := Exec.exists_of_bind_ok reads
        obtain ⟨made, s₄, -, same⟩ := Exec.exists_of_bind_ok reads
        cases same
        rfl
      · cases reads
        rfl
    | _ =>
      rw [plan] at reads
      cases reads
      rfl

/-! ## Turning one into the other -/

/-- Code turns what is on the stack into something else, or stops the program. -/
inductive Machine.Turns (m : Machine) (f : Frame) (pc pc' : Nat) (v : Option Value) (locals : List Value)
    (s : MachineState) : Except Trap (Option Value) → MachineState → Prop
  | leads {w : Option Value} {s' : MachineState}
      (leads : m.Leads (f.at pc locals (Leads.pushed v [])) s (f.at pc' locals (Leads.pushed w [])) s') :
      Turns m f pc pc' v locals s (.ok w) s'
  | stops {e : MachineError} {s' : MachineState}
      (finishes : m.Finishes (f.at pc locals (Leads.pushed v [])) s (.error (.fatal e)) s') :
      Turns m f pc pc' v locals s (.error (.fatal e)) s'

namespace StubBody

open Machine Emitter

variable {m : Machine} {f : Frame} {s : MachineState} {e e' : Emitter} {locals : List Value}
  {slot : ReturnSlot} {helper : TypeName} {flags : Int32}

section Result

variable (within : e'.Within f.body) (he : e.At 1) (isVoid : slot.type.isVoid = false)
  (emits : emitResult slot e = ((), e'))

include within he isVoid emits

theorem emitResult_turns_boolean {width : BoolWidth} (plan : slot.plan = .boolean width) (n : Int32) :
    m.Leads (f.at e.position locals [.i32 n]) s
      (f.at e'.position locals [.ofBool (Value.i32 n).isTrue]) s := by
  obtain ⟨k, -, eq⟩ := emitResult_boolean (h := 0) he (by decide) isVoid plan
  obtain rfl := emitted_unique emits eq
  have truth : decide (0 < n.toUInt32.toUInt64) = (Value.i32 n).isTrue :=
    decide_eq_decide.mpr (Int32.zero_lt_word_iff n)
  rw [position_grow, ← truth]
  exact (Leads.ldcI4 (within.instr (p := 0) rfl)).trans
    (Leads.cgtUn (within.instr (p := 1) rfl) rfl rfl)

theorem emitResult_turns_delegate (h' : m.HasHelper helper flags) (hl : e.labels.size + 2 < 2 ^ 32)
    (plan : slot.plan = .delegate) (p : UInt64) :
    m.Turns f e.position e'.position (some (.ptr p)) locals s
      (m.unmarshal slot (some (.ptr p)) s).1 (m.unmarshal slot (some (.ptr p)) s).2 := by
  obtain ⟨k, -, eq⟩ := emitResult_delegate (h := 0) he (by decide) hl isVoid plan
  obtain rfl := emitted_unique emits eq
  have code (q : Nat) {i : Instr} (found : ([.dup, .brtrue (e.label 0), .pop, .ldnull,
      .br (e.label 1), .ldtoken slot.type, .call Framework.typeFromHandle,
      .call Framework.delegateForFunctionPointer, .castclass slot.type] : List Instr)[q]? = some i) :
      f.body.instrs[e.position + q]? = some i := within.instr found
  have present : f.body.target? (e.label 0) = some (e.position + 5) := within.label rfl (by omega)
  have after : f.body.target? (e.label 1) = some (e.position + 9) := within.label rfl (by omega)
  rw [position_grow]
  simp only [unmarshal, plan]
  by_cases zero : p = 0
  · subst zero
    exact .leads <| ((((Leads.dup (code 0 rfl)).trans (Leads.brtrue_next (code 1 rfl) rfl)).trans
      (Leads.pop (code 2 rfl))).trans (Leads.ldnull (code 3 rfl))).trans
        (Leads.br (code 4 rfl) after)
  · have isTrue : (Value.ptr p).isTrue = true := by simpa [Value.isTrue] using zero
    let typed : MachineState := s.withObject (.type slot.type)
    let made : MachineState := typed.withObject (.delegate slot.type p)
    have type : typed.objects[s.objects.size]? = some (.type slot.type) :=
      MachineState.object_withObject_new s _
    have token : m.Leads (f.at (e.position + 5) locals [.ptr p]) s
        (f.at (e.position + 6) locals [.ref ⟨s.objects.size⟩, .ptr p]) typed :=
      Leads.step (code 5 rfl) fun _ => rfl
    have handle : RuntimeMember.typeFromHandle.call m.world.catalog.platform
        [.ref ⟨s.objects.size⟩] typed = (.ok (some (.ref ⟨s.objects.size⟩)), typed) := rfl
    have creates : RuntimeMember.delegateForFunctionPointer.call m.world.catalog.platform
        [.ptr p, .ref ⟨s.objects.size⟩] typed =
          (.ok (some (.ref ⟨typed.objects.size⟩)), made) :=
      RuntimeMember.delegateForFunctionPointer_apply type
    have delegate : made.objects[typed.objects.size]? = some (.delegate slot.type p) :=
      MachineState.object_withObject_new typed _
    have cast : m.Leads (f.at (e.position + 8) locals [.ref ⟨typed.objects.size⟩]) made
        (f.at (e.position + 9) locals [.ref ⟨typed.objects.size⟩]) made :=
      Leads.step (code 8 rfl) fun _ => by
        have found : Exec.object ⟨typed.objects.size⟩ made = (.ok _, made) :=
          Exec.object_apply delegate
        simp [Step.instr, Step.perform, Step.cast, found]
    rw [if_pos isTrue, RuntimeMember.makeDelegate_apply]
    have brings : m.Leads (f.at (e.position + 6) locals [.ref ⟨s.objects.size⟩, .ptr p]) typed
        (f.at (e.position + 8) locals [.ref ⟨typed.objects.size⟩]) made :=
      (Leads.callRuntime [.ref ⟨s.objects.size⟩] (code 6 rfl) rfl
        (h'.missing .typeFromHandle) rfl handle).trans
        (Leads.callRuntime [.ptr p, .ref ⟨s.objects.size⟩] (code 7 rfl) rfl
          (h'.missing .delegateForFunctionPointer) rfl creates)
    exact .leads <| (((Leads.dup (code 0 rfl)).trans (Leads.brtrue (code 1 rfl) present isTrue)).trans
      token).trans (brings.trans cast)

/-- The result is a text, which a member of the framework's library reads. -/
theorem emitResult_turns_text (h' : m.HasHelper helper flags) {v : Value}
    (plan : slot.plan = .ansiString ∨ slot.plan = .unicodeString) :
    m.Turns f e.position e'.position (some v) locals s (m.unmarshal slot (some v) s).1
      (m.unmarshal slot (some v) s).2 := by
  obtain ⟨member, reads, reading, k, eq⟩ : ∃ member : RuntimeMember,
      (member = .ptrToStringAnsi ∨ member = .ptrToStringUni) ∧
      m.unmarshal slot (some v) = member.call m.world.catalog.platform [v] ∧
      ∃ k, emitResult slot e = ((), e.grow [.call member.ref] [] [] 1 k true) := by
    rcases plan with plan | plan
    · obtain ⟨k, -, eq⟩ := emitResult_ansiString (h := 0) he (by decide) isVoid plan
      exact ⟨.ptrToStringAnsi, .inl rfl, by simp only [unmarshal, plan], k, eq⟩
    · obtain ⟨k, -, eq⟩ := emitResult_unicodeString (h := 0) he (by decide) isVoid plan
      exact ⟨.ptrToStringUni, .inr rfl, by simp only [unmarshal, plan], k, eq⟩
  obtain rfl := emitted_unique emits eq
  have one : member.ref.params.length + (if member.ref.hasThis then 1 else 0) = [v].length := by
    rcases reads with rfl | rfl <;> rfl
  have stops := (RuntimeMember.adds_of_reads reads m.world.catalog.platform [v] s).2
  rw [position_grow, reading]
  rcases calls : member.call m.world.catalog.platform [v] s with ⟨r, s'⟩
  rw [calls] at stops
  cases r with
  | ok w =>
    obtain ⟨w, rfl⟩ := RuntimeMember.isSome_of_call reads calls
    exact .leads <| Leads.callRuntime [v] (within.instr (p := 0) rfl) one (h'.missing member)
      (RuntimeMember.ofRef?_ref member) calls
  | error t =>
    obtain ⟨e, rfl⟩ := stops t rfl
    exact .stops <| Finishes.callRuntime [v] (within.instr (p := 0) rfl) one (h'.missing member)
      (RuntimeMember.ofRef?_ref member) calls

end Result

/-- The native result on the stack is turned into the managed one. -/
theorem emitResult_turns (h' : m.HasHelper helper flags) (he : e.Rests (resultHeight slot.type))
    (hl : e.labels.size + 2 < 2 ^ 32) (emits : emitResult slot e = ((), e'))
    (within : e'.Within f.body) (void : slot.type.isVoid → slot.plan = .direct) {v : Option Value}
    {n : NativeValue} (taken : m.module.ofNative slot.nativeType n = .ok v) (locals : List Value)
    (s : MachineState) : m.Turns f e.position e'.position v locals s (m.unmarshal slot v s).1
      (m.unmarshal slot v s).2 := by
  obtain ⟨isSome, isPtr, isInt⟩ := Module.kind_of_ofNative taken
  cases isVoid : slot.type.isVoid with
  | true =>
    simp only [emitResult, isVoid, if_true, Emit.pure_apply] at emits
    cases emits
    have native : slot.nativeType = slot.type := by
      rw [ReturnSlot.nativeType, void isVoid]
      rfl
    rw [native, isVoid] at isSome
    obtain rfl : v = none := by simpa using isSome
    exact .leads (.refl m _ s)
  | false =>
    have one : resultHeight slot.type = 1 := by simp [resultHeight, isVoid]
    rw [one] at he
    have some' : v.isSome = true := by
      rw [isSome, ReturnSlot.nativeType, isVoid_nativeType isVoid]
      rfl
    obtain ⟨v, rfl⟩ := Option.isSome_iff_exists.mp some'
    have stay (none : emitResult slot e = ((), e)) (kept : m.unmarshal slot (some v) = pure (some v)) :
        m.Turns f e.position e'.position (some v) locals s (m.unmarshal slot (some v) s).1
          (m.unmarshal slot (some v) s).2 := by
      cases emits.symm.trans none
      rw [kept]
      exact .leads (.refl m _ s)
    cases plan : slot.plan with
    | direct => exact stay (by simp [emitResult, isVoid, plan]) (by simp [unmarshal, plan])
    | byRef => exact stay (by simp [emitResult, isVoid, plan]) (by simp [unmarshal, plan])
    | blittableArray => exact stay (by simp [emitResult, isVoid, plan]) (by simp [unmarshal, plan])
    | stringArray encoding =>
      exact stay (by simp [emitResult, isVoid, plan]) (by simp [unmarshal, plan])
    | boolean width =>
      have number : slot.nativeType = .i32 ∨ slot.nativeType = .u8 := by
        rw [ReturnSlot.nativeType, plan]
        cases width
        · exact .inl rfl
        · exact .inr rfl
      obtain ⟨n, same⟩ := isInt number
      cases same
      simp only [unmarshal, plan]
      exact .leads (emitResult_turns_boolean within he.toAt isVoid emits plan n)
    | ansiString => exact emitResult_turns_text within he.toAt isVoid emits h' (.inl plan)
    | unicodeString => exact emitResult_turns_text within he.toAt isVoid emits h' (.inr plan)
    | delegate =>
      obtain ⟨p, same⟩ := isPtr (by rw [ReturnSlot.nativeType, plan]; rfl)
      cases same
      exact emitResult_turns_delegate within he.toAt isVoid emits h' hl plan p

end StubBody

end LateBind

import LateBind.Proofs.Execution

/-! # Single instructions

Where each instruction leads, with what it needs of its frame. -/

namespace LateBind.Machine.Leads

variable {m : Machine} {f : Frame} {s s' : MachineState} {pc place : Nat}
  {locals stack : List Value} {v w u : Value} {l : Label}

attribute [local simp] Step.instr Step.perform

/-! ## The frame -/

theorem instr_ldarg {index : UInt16} (arg : f.args[index.toNat]? = some v) (callees : Callees) :
    Step.instr m callees (.ldarg index) (f.at pc locals stack) s =
      (.ok (.next, f.at pc locals (v :: stack)), s) := by
  simp [arg]

theorem ldarg {index : UInt16} (code : f.body.instrs[pc]? = some (.ldarg index))
    (arg : f.args[index.toNat]? = some v) :
    m.Leads (f.at pc locals stack) s (f.at (pc + 1) locals (v :: stack)) s :=
  step code (instr_ldarg arg)

theorem ldloc {index : UInt16} (code : f.body.instrs[pc]? = some (.ldloc index))
    (value : locals[index.toNat]? = some v) :
    m.Leads (f.at pc locals stack) s (f.at (pc + 1) locals (v :: stack)) s :=
  step code fun _ => by simp [value]

theorem stloc {index : UInt16} (code : f.body.instrs[pc]? = some (.stloc index))
    (inside : index.toNat < locals.length) :
    m.Leads (f.at pc locals (v :: stack)) s
      (f.at (pc + 1) (locals.set index.toNat v) stack) s :=
  step code fun _ => by simp [inside]

theorem dup (code : f.body.instrs[pc]? = some .dup) :
    m.Leads (f.at pc locals (v :: stack)) s (f.at (pc + 1) locals (v :: v :: stack)) s :=
  step code fun _ => by simp

theorem pop (code : f.body.instrs[pc]? = some .pop) :
    m.Leads (f.at pc locals (v :: stack)) s (f.at (pc + 1) locals stack) s :=
  step code fun _ => rfl

/-! ## Constants -/

theorem ldcI4 {c : Int32} (code : f.body.instrs[pc]? = some (.ldcI4 c)) :
    m.Leads (f.at pc locals stack) s (f.at (pc + 1) locals (.i32 c :: stack)) s :=
  step code fun _ => by simp

theorem ldnull (code : f.body.instrs[pc]? = some .ldnull) :
    m.Leads (f.at pc locals stack) s (f.at (pc + 1) locals (.null :: stack)) s :=
  step code fun _ => by simp

theorem instr_ldstr (text : String) (callees : Callees) :
    Step.instr m callees (.ldstr text) (f.at pc locals stack) s =
      (.ok (.next, f.at pc locals (.ref ⟨s.objects.size⟩ :: stack)),
        { s with objects := s.objects.push (.str (Units.ofString text)) }) := by
  simp

theorem ldstr {text : String} (code : f.body.instrs[pc]? = some (.ldstr text)) :
    m.Leads (f.at pc locals stack) s
      (f.at (pc + 1) locals (.ref ⟨s.objects.size⟩ :: stack))
      { s with objects := s.objects.push (.str (Units.ofString text)) } :=
  step code (instr_ldstr text)

/-! ## Static fields -/

theorem ldsfld {field : FieldRef} (code : f.body.instrs[pc]? = some (.ldsfld field))
    (loads : m.loadStatic field s = (.ok v, s)) :
    m.Leads (f.at pc locals stack) s (f.at (pc + 1) locals (v :: stack)) s :=
  step code fun _ => by simp [loads]

theorem instr_stsfld {field : FieldRef} (stores : m.storeStatic field v s = (.ok (), s'))
    (callees : Callees) : Step.instr m callees (.stsfld field) (f.at pc locals (v :: stack)) s =
      (.ok (.next, f.at pc locals stack), s') := by
  simp [stores]

theorem stsfld {field : FieldRef} (code : f.body.instrs[pc]? = some (.stsfld field))
    (stores : m.storeStatic field v s = (.ok (), s')) :
    m.Leads (f.at pc locals (v :: stack)) s (f.at (pc + 1) locals stack) s' :=
  step code (instr_stsfld stores)

/-! ## Numbers -/

theorem add (code : f.body.instrs[pc]? = some .add) (sum : v.add w = some u) :
    m.Leads (f.at pc locals (w :: v :: stack)) s (f.at (pc + 1) locals (u :: stack)) s :=
  step code fun _ => by simp [sum]

theorem sub (code : f.body.instrs[pc]? = some .sub) (difference : v.sub w = some u) :
    m.Leads (f.at pc locals (w :: v :: stack)) s (f.at (pc + 1) locals (u :: stack)) s :=
  step code fun _ => by simp [difference]

theorem cgtUn {a b : UInt64} (code : f.body.instrs[pc]? = some .cgtUn)
    (left : v.toUnsigned? = some a) (right : w.toUnsigned? = some b) :
    m.Leads (f.at pc locals (w :: v :: stack)) s
      (f.at (pc + 1) locals (.ofBool (b < a) :: stack)) s :=
  step code fun _ => by simp [left, right]

theorem convI_null (code : f.body.instrs[pc]? = some .convI) :
    m.Leads (f.at pc locals (.null :: stack)) s (f.at (pc + 1) locals (.ptr 0 :: stack)) s :=
  step code fun _ => by simp [Step.toNativeInt]

theorem convI_i32 {n : Int32} (code : f.body.instrs[pc]? = some .convI) :
    m.Leads (f.at pc locals (.i32 n :: stack)) s
      (f.at (pc + 1) locals (.ptr n.toInt64.toUInt64 :: stack)) s :=
  step code fun _ => by simp [Step.toNativeInt, Value.toPointer?]

theorem convI_address {target : Address} {p : UInt64} (code : f.body.instrs[pc]? = some .convI)
    (pins : m.pinAddress target s = (.ok p, s')) :
    m.Leads (f.at pc locals (.address target :: stack)) s
      (f.at (pc + 1) locals (.ptr p :: stack)) s' :=
  step code fun _ => by simp [Step.toNativeInt, pins]

theorem convI_string {r : ObjRef} {p : UInt64} (code : f.body.instrs[pc]? = some .convI)
    (pins : m.pinString r s = (.ok p, s')) :
    m.Leads (f.at pc locals (.ref r :: stack)) s (f.at (pc + 1) locals (.ptr p :: stack)) s' :=
  step code fun _ => by simp [Step.toNativeInt, pins]

theorem convU {n : UInt64} (code : f.body.instrs[pc]? = some .convU) (word : v.toWord? = some n) :
    m.Leads (f.at pc locals (v :: stack)) s (f.at (pc + 1) locals (.ptr n :: stack)) s :=
  step code fun _ => by simp [word]

theorem convI4 {n : UInt64} (code : f.body.instrs[pc]? = some .convI4) (word : v.toWord? = some n) :
    m.Leads (f.at pc locals (v :: stack)) s
      (f.at (pc + 1) locals (.i32 n.toUInt32.toInt32 :: stack)) s :=
  step code fun _ => by simp [word]

theorem convU1 {n : UInt64} (code : f.body.instrs[pc]? = some .convU1) (word : v.toWord? = some n) :
    m.Leads (f.at pc locals (v :: stack)) s
      (f.at (pc + 1) locals (.i32 (n &&& 0xFF).toUInt32.toInt32 :: stack)) s :=
  step code fun _ => by simp [word]

/-! ## Branches -/

theorem br (code : f.body.instrs[pc]? = some (.br l)) (target : f.body.target? l = some place) :
    m.Leads (f.at pc locals stack) s (f.at place locals stack) s :=
  jump code fun _ => by simp [Step.jump, Step.target, target]

theorem brtrue (code : f.body.instrs[pc]? = some (.brtrue l))
    (target : f.body.target? l = some place) (isTrue : v.isTrue = true) :
    m.Leads (f.at pc locals (v :: stack)) s (f.at place locals stack) s :=
  jump code fun _ => by simp [isTrue, Step.jump, Step.target, target]

theorem brtrue_next (code : f.body.instrs[pc]? = some (.brtrue l)) (isFalse : v.isTrue = false) :
    m.Leads (f.at pc locals (v :: stack)) s (f.at (pc + 1) locals stack) s :=
  step code fun _ => by simp [isFalse]

theorem brfalse (code : f.body.instrs[pc]? = some (.brfalse l))
    (target : f.body.target? l = some place) (isFalse : v.isTrue = false) :
    m.Leads (f.at pc locals (v :: stack)) s (f.at place locals stack) s :=
  jump code fun _ => by simp [isFalse, Step.jump, Step.target, target]

theorem brfalse_next (code : f.body.instrs[pc]? = some (.brfalse l)) (isTrue : v.isTrue = true) :
    m.Leads (f.at pc locals (v :: stack)) s (f.at (pc + 1) locals stack) s :=
  step code fun _ => by simp [isTrue]

theorem blt (code : f.body.instrs[pc]? = some (.blt l)) (target : f.body.target? l = some place)
    (less : v.less? w = some true) :
    m.Leads (f.at pc locals (w :: v :: stack)) s (f.at place locals stack) s :=
  jump code fun _ => by simp [less, Step.jump, Step.target, target]

theorem blt_next (code : f.body.instrs[pc]? = some (.blt l)) (less : v.less? w = some false) :
    m.Leads (f.at pc locals (w :: v :: stack)) s (f.at (pc + 1) locals stack) s :=
  step code fun _ => by simp [less]

theorem switch {n : Int32} {ls : List Label} (code : f.body.instrs[pc]? = some (.switch ls))
    (low : ¬n < 0) (chosen : ls[n.toNatClampNeg]? = some l)
    (target : f.body.target? l = some place) :
    m.Leads (f.at pc locals (.i32 n :: stack)) s (f.at place locals stack) s :=
  jump code fun _ => by
    simp [Step.popInt32, Value.toInt32?, low, chosen, Step.jump, Step.target, target]

/-! ## Arrays -/

theorem newarr {element : TypeRef} {n : Int32} (code : f.body.instrs[pc]? = some (.newarr element))
    (low : ¬n < 0) :
    m.Leads (f.at pc locals (.i32 n :: stack)) s
      (f.at (pc + 1) locals (.ref ⟨s.objects.size⟩ :: stack))
      { s with
        objects := s.objects.push
          (.array element (Array.replicate n.toInt.toNat (m.module.defaultValue element))) } :=
  step code fun _ => by
    simp [Step.popInt32, Value.toInt32?, Step.newArray, low]

theorem ldlen {items : Array Value} (code : f.body.instrs[pc]? = some .ldlen)
    (isArray : Exec.arrayItems v s = (.ok items, s)) :
    m.Leads (f.at pc locals (v :: stack)) s
      (f.at (pc + 1) locals (.ptr (UInt64.ofNat items.size) :: stack)) s :=
  step code fun _ => by simp [isArray]

theorem ldelemI {n : Int32} (code : f.body.instrs[pc]? = some .ldelemI)
    (item : Exec.item w n s = (.ok v, s)) :
    m.Leads (f.at pc locals (.i32 n :: w :: stack)) s (f.at (pc + 1) locals (v :: stack)) s :=
  step code fun _ => by
    simp [Step.popElement, Step.popInt32, Value.toInt32?, item]

theorem ldelemRef {n : Int32} (code : f.body.instrs[pc]? = some .ldelemRef)
    (item : Exec.item w n s = (.ok v, s)) :
    m.Leads (f.at pc locals (.i32 n :: w :: stack)) s (f.at (pc + 1) locals (v :: stack)) s :=
  step code fun _ => by
    simp [Step.popElement, Step.popInt32, Value.toInt32?, item]

theorem ldelema {element : TypeRef} {n : Int32} {r : ObjRef} {position : Nat}
    (code : f.body.instrs[pc]? = some (.ldelema element))
    (slot : Exec.slot w n s = (.ok (r, position), s)) :
    m.Leads (f.at pc locals (.i32 n :: w :: stack)) s
      (f.at (pc + 1) locals (.address (.element r position) :: stack)) s :=
  step code fun _ => by
    simp [Step.popElement, Step.popInt32, Value.toInt32?, slot]

theorem stelemI {n : Int32} {r : ObjRef} {position : Nat} {p : UInt64}
    (code : f.body.instrs[pc]? = some .stelemI) (pointer : v.toPointer? = some p)
    (slot : Exec.slot w n s = (.ok (r, position), s)) :
    m.Leads (f.at pc locals (v :: .i32 n :: w :: stack)) s (f.at (pc + 1) locals stack)
      { s with objects := s.objects.modify r.index (·.setItem position (.ptr p)) } :=
  step code fun _ => by
    simp [Step.storeElement, Step.popInt32, Value.toInt32?, pointer, slot]

theorem stelemI1 {n c : Int32} {r : ObjRef} {position : Nat}
    (code : f.body.instrs[pc]? = some .stelemI1)
    (slot : Exec.slot w n s = (.ok (r, position), s)) :
    m.Leads (f.at pc locals (.i32 c :: .i32 n :: w :: stack)) s (f.at (pc + 1) locals stack)
      { s with objects := s.objects.modify r.index (·.setItem position (.i32 (c &&& 0xFF))) } :=
  step code fun _ => by
    simp [Step.storeElement, Step.popInt32, Value.toInt32?, slot]

/-! ## Calls -/

/-- The arguments of a call are on the stack, the last one on top. -/
theorem popArgs_apply (f : Frame) (pc : Nat) (locals stack args : List Value) (s : MachineState) :
    Step.popArgs args.length (f.at pc locals (args.reverse ++ stack)) s =
      (.ok (args, f.at pc locals stack), s) := by
  have enough : ¬args.length + stack.length < args.length := by omega
  have taken : (args.reverse ++ stack).take args.length = args.reverse := by
    rw [List.take_left' List.length_reverse]
  have dropped : (args.reverse ++ stack).drop args.length = stack := by
    rw [List.drop_left' List.length_reverse]
  simp [Step.popArgs, enough, taken, dropped]

/-- What a call leaves on the stack. -/
def pushed (v : Option Value) (stack : List Value) : List Value := v.toList ++ stack

theorem pushResult_apply (v : Option Value) (f : Frame) (pc : Nat) (locals stack : List Value)
    (s : MachineState) : Step.pushResult v (f.at pc locals stack) s =
      (.ok ((), f.at pc locals (pushed v stack)), s) := by
  cases v <;> rfl

/-- A call of a method of the module comes to what the method comes to. -/
theorem instr_call (args : List Value) {method : MethodRef} {callee : OwnedMethod}
    (static : method.hasThis = false) (count : method.params.length = args.length)
    (resolves : m.module.resolveMethod? method.owner method.name method.params = some callee)
    (n : Nat) :
    Step.instr m (m.callees n) (.call method) (f.at pc locals (args.reverse ++ stack)) s =
      match m.invoke n callee args s with
      | (.ok v, s') => (.ok (.next, f.at pc locals (pushed v stack)), s')
      | (.error e, s') => (.error e, s') := by
  simp only [Step.instr, Step.perform, static, count, Bool.false_eq_true, if_false, Nat.add_zero,
    Step.bind_apply, popArgs_apply, Step.callMethod, resolves, callees, Step.lift_apply]
  rcases m.invoke n callee args s with ⟨r, s'⟩
  cases r with
  | error e => rfl
  | ok v => simp only [pushResult_apply, Step.pure_apply]

theorem callIn {enough : Nat} (args : List Value) {method : MethodRef} {callee : OwnedMethod}
    {v : Option Value}
    (code : f.body.instrs[pc]? = some (.call method)) (static : method.hasThis = false)
    (count : method.params.length = args.length)
    (resolves : m.module.resolveMethod? method.owner method.name method.params = some callee)
    (ends : m.EndsIn enough callee args s (.ok v) s') :
    m.LeadsIn 1 enough (f.at pc locals (args.reverse ++ stack)) s
      (f.at (pc + 1) locals (pushed v stack)) s' := by
  refine LeadsIn.callStep code ends (fun n invoked => ?_) fun n starved => ?_
  · rw [instr_call args static count resolves, invoked]
  · rw [instr_call args static count resolves]
    rcases ran : m.invoke n callee args s with ⟨r, s'⟩
    rw [ran] at starved
    cases starved
    rfl

/-- A call of a method of the module. -/
theorem call (args : List Value) {method : MethodRef} {callee : OwnedMethod} {v : Option Value}
    (code : f.body.instrs[pc]? = some (.call method)) (static : method.hasThis = false)
    (count : method.params.length = args.length)
    (resolves : m.module.resolveMethod? method.owner method.name method.params = some callee)
    (ends : m.Ends callee args s (.ok v) s') :
    m.Leads (f.at pc locals (args.reverse ++ stack)) s (f.at (pc + 1) locals (pushed v stack)) s' := by
  obtain ⟨enough, ends⟩ := ends
  exact ⟨1, enough, callIn args code static count resolves ends⟩

/-- A call of a member of the framework's library. -/
theorem instr_callRuntime (args : List Value) {method : MethodRef} {member : RuntimeMember}
    {v : Option Value}
    (count : method.params.length + (if method.hasThis then 1 else 0) = args.length)
    (missing : m.module.resolveMethod? method.owner method.name method.params = none)
    (known : RuntimeMember.ofRef? method = some member)
    (calls : member.call m.world.catalog.platform args s = (.ok v, s')) (callees : Callees) :
    Step.instr m callees (.call method) (f.at pc locals (args.reverse ++ stack)) s =
      (.ok (.next, f.at pc locals (pushed v stack)), s') := by
  simp only [Step.instr, Step.perform, count, Step.bind_apply, popArgs_apply, Step.callMethod,
    missing, known, Step.lift_apply, calls, pushResult_apply, Step.pure_apply]

theorem callRuntime (args : List Value) {method : MethodRef} {member : RuntimeMember}
    {v : Option Value} (code : f.body.instrs[pc]? = some (.call method))
    (count : method.params.length + (if method.hasThis then 1 else 0) = args.length)
    (missing : m.module.resolveMethod? method.owner method.name method.params = none)
    (known : RuntimeMember.ofRef? method = some member)
    (calls : member.call m.world.catalog.platform args s = (.ok v, s')) :
    m.Leads (f.at pc locals (args.reverse ++ stack)) s
      (f.at (pc + 1) locals (pushed v stack)) s' :=
  step code (instr_callRuntime args count missing known calls)

/-- An exception is made from its message. -/
theorem newException {v : Value} {units : Units}
    (code : f.body.instrs[pc]? = some (.newobj Framework.exceptionCtor))
    (text : RuntimeMember.unitsOrNone v s = (.ok units, s)) :
    m.Leads (f.at pc locals (v :: stack)) s (f.at (pc + 1) locals (.ref ⟨s.objects.size⟩ :: stack))
      { s with objects := s.objects.push (.exception "System.Exception" units.toText) } :=
  step code fun _ => by
    have popped := popArgs_apply f pc locals stack [v] s
    have constructed : Machine.construct Framework.exceptionCtor [v] s =
        (.ok (.ref ⟨s.objects.size⟩),
          { s with objects := s.objects.push (.exception "System.Exception" units.toText) }) := by
      have isException : Framework.exceptionCtor.name = ".ctor" ∧
          Framework.exceptionCtor.owner.display = Framework.exception.display := ⟨rfl, rfl⟩
      have name : Framework.exception.display = "System.Exception" := by decide
      rw [construct, if_pos isException]
      simp [text, name]
    simp only [List.length_singleton, List.reverse_singleton, List.singleton_append] at popped
    simp [Framework.exceptionCtor, MethodRef.constructor, popped]
    simp [Framework.exceptionCtor, MethodRef.constructor] at constructed
    simp [constructed]

end LateBind.Machine.Leads

import LateBind.Proofs.Exits
import LateBind.Proofs.ImportCalls

/-! # Members of the framework's library

What the members that loading needs do when their arguments are what they should be, and the
exceptions that generated code throws. -/

namespace LateBind.RuntimeMember

variable {platform : Platform} {s : MachineState} {r r' : ObjRef} {units units' : Units}

theorem stringUnits_ref (text : s.objects[r.index]? = some (.str units)) :
    Exec.stringUnits (.ref r) s = (.ok units, s) := by
  simp [Exec.stringUnits, Exec.view, Exec.object_apply text]

theorem newLine_apply (platform : Platform) (s : MachineState) : newLine.call platform [] s =
    (.ok (some (.ref ⟨s.objects.size⟩)),
      { s with objects := s.objects.push (.str (Units.ofString platform.newline)) }) := by
  simp [call]

theorem stringEquals_apply (left : s.objects[r.index]? = some (.str units))
    (right : s.objects[r'.index]? = some (.str units')) :
    stringEquals.call platform [.ref r, .ref r'] s =
      (.ok (some (.ofBool (units == units'))), s) := by
  simp [call, stringUnits_ref left, stringUnits_ref right]

theorem stringConcat_apply (left : s.objects[r.index]? = some (.str units))
    (right : s.objects[r'.index]? = some (.str units')) :
    stringConcat.call platform [.ref r, .ref r'] s =
      (.ok (some (.ref ⟨s.objects.size⟩)),
        { s with objects := s.objects.push (.str (units ++ units')) }) := by
  simp [call, unitsOrNone, stringUnits_ref left, stringUnits_ref right]

theorem allocHGlobal_apply (n : Int32) : allocHGlobal.call platform [.i32 n] s =
    (.ok (some (.ptr s.native.heap.nextAddress)),
      { s with
        native := { s.native with heap := (s.native.heap.alloc n.toInt.toNat .hglobal).2 } }) := by
  simp [call, Value.toInt32?, Exec.allocZeros, Exec.setHeap]
  rfl

theorem ptrToStringAnsi_apply {a : UInt64} {bytes : Bytes} (nonzero : a ≠ 0)
    (reads : s.native.heap.readByteString? a = some bytes) :
    ptrToStringAnsi.call platform [.ptr a] s =
      (.ok (some (.ref ⟨s.objects.size⟩)),
        { s with objects := s.objects.push (.str (Latin1.units bytes)) }) := by
  simp [call, readString, pointer, Value.toPointer?, nonzero, Exec.access, reads]

theorem ptrToStringAnsi_zero : ptrToStringAnsi.call platform [.ptr 0] s = (.ok (some .null), s) := by
  simp [call, readString, pointer, Value.toPointer?]

theorem freeHGlobal_apply {a : UInt64} {bytes : Bytes} (latest : s.native.heap.Latest a bytes) :
    ∃ heap, freeHGlobal.call platform [.ptr a] s =
      (.ok none, { s with native := { s.native with heap } }) := by
  by_cases zero : a = 0
  · exact ⟨s.native.heap, by simp [call, pointer, Value.toPointer?, zero]⟩
  · obtain ⟨heap, freed⟩ := Machine.free_latest latest
    exact ⟨heap, by simp [call, pointer, Value.toPointer?, zero, freed]⟩

end LateBind.RuntimeMember

namespace LateBind.Machine.Throws

variable {m : Machine} {f : Frame} {s : MachineState} {pc : Nat} {locals stack : List Value}
  {message : String}

/-- An exception is made from a text on the stack and thrown. -/
theorem exception {r : ObjRef} (text : s.objects[r.index]? = some (.str (Units.ofString message)))
    (make : f.body.instrs[pc]? = some (.newobj Framework.exceptionCtor))
    (throw : f.body.instrs[pc + 1]? = some .throw) (outside : f.body.regionsAround (pc + 1) = []) :
    ∃ r' s', m.Throws (f.at pc locals (.ref r :: stack)) s r' s' ∧
      s'.objects[r'.index]? = some (.exception "System.Exception" message) ∧
      s.Steady [] [] s' := by
  have units : RuntimeMember.unitsOrNone (.ref r) s = (.ok (Units.ofString message), s) :=
    RuntimeMember.stringUnits_ref text
  have makes : m.Leads (f.at pc locals (.ref r :: stack)) s _ _ := Leads.newException make units
  rw [Units.toText_ofString] at makes
  exact ⟨_, _, makes.throws (Throws.throw throw outside), Array.getElem?_push_size, .push _ _⟩

/-- An exception with a fixed message. -/
theorem fixed (load : f.body.instrs[pc]? = some (.ldstr message))
    (make : f.body.instrs[pc + 1]? = some (.newobj Framework.exceptionCtor))
    (throw : f.body.instrs[pc + 2]? = some .throw) (outside : f.body.regionsAround (pc + 2) = []) :
    ∃ r s', m.Throws (f.at pc locals stack) s r s' ∧
      s'.objects[r.index]? = some (.exception "System.Exception" message) ∧ s.Steady [] [] s' := by
  let loaded : MachineState := { s with objects := s.objects.push (.str (Units.ofString message)) }
  have text : loaded.objects[s.objects.size]? = some (.str (Units.ofString message)) :=
    Array.getElem?_push_size
  obtain ⟨r, s', throws, thrown, steady⟩ : ∃ r s',
      m.Throws (f.at (pc + 1) locals (.ref ⟨s.objects.size⟩ :: stack)) loaded r s' ∧ _ ∧ _ :=
    exception text make throw outside
  exact ⟨r, s', (Leads.ldstr load).throws throws, thrown, (MachineState.Steady.push s _).trans steady⟩

/-- An exception whose message ends in an argument. -/
theorem about {index : UInt16} {r : ObjRef} {subject : String}
    (arg : f.args[index.toNat]? = some (.ref r))
    (text : s.objects[r.index]? = some (.str (Units.ofString subject)))
    (missing : m.module.resolveMethod? Framework.stringConcat.owner Framework.stringConcat.name
      Framework.stringConcat.params = none)
    (load : f.body.instrs[pc]? = some (.ldstr message))
    (loadArg : f.body.instrs[pc + 1]? = some (.ldarg index))
    (concat : f.body.instrs[pc + 2]? = some (.call Framework.stringConcat))
    (make : f.body.instrs[pc + 3]? = some (.newobj Framework.exceptionCtor))
    (throw : f.body.instrs[pc + 4]? = some .throw) (outside : f.body.regionsAround (pc + 4) = []) :
    ∃ r s', m.Throws (f.at pc locals stack) s r s' ∧
      s'.objects[r.index]? = some (.exception "System.Exception" (message ++ subject)) ∧
      s.Steady [] [] s' := by
  let loaded : MachineState := { s with objects := s.objects.push (.str (Units.ofString message)) }
  have left : loaded.objects[s.objects.size]? = some (.str (Units.ofString message)) :=
    Array.getElem?_push_size
  have right := (MachineState.Steady.push s (.str (Units.ofString message))).objects _ _ text
  let joined : MachineState :=
    { loaded with
      objects := loaded.objects.push (.str (Units.ofString message ++ Units.ofString subject)) }
  have whole : joined.objects[loaded.objects.size]? =
      some (.str (Units.ofString (message ++ subject))) := by
    have append : Units.ofString (message ++ subject) =
        Units.ofString message ++ Units.ofString subject := by
      simp [Units.ofString]
    rw [append]
    exact Array.getElem?_push_size
  obtain ⟨r', s', throws, thrown, steady⟩ : ∃ r s',
      m.Throws (f.at (pc + 3) locals (.ref ⟨loaded.objects.size⟩ :: stack)) joined r s' ∧ _ ∧ _ :=
    exception whole make throw outside
  have leads : m.Leads (f.at pc locals stack) s
      (f.at (pc + 3) locals (.ref ⟨loaded.objects.size⟩ :: stack)) joined :=
    (Leads.ldstr load).trans ((Leads.ldarg loadArg arg).trans
      (Leads.callRuntime [.ref ⟨s.objects.size⟩, .ref r] concat rfl missing rfl
        (RuntimeMember.stringConcat_apply left right)))
  exact ⟨r', s', leads.throws throws, thrown,
    (MachineState.Steady.push s _).trans ((MachineState.Steady.push loaded _).trans steady)⟩

end LateBind.Machine.Throws

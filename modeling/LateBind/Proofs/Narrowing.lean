import LateBind.Proofs.Loops

/-! # Strings as byte arrays

The helper type narrows a string in a loop. It ends for every string that a byte array has room
for, with the low byte of each unit and a zero behind them. -/

namespace LateBind

open Machine

/-- An array of bytes. -/
def Object.ofBytes (bytes : Bytes) : Object :=
  .array .u8 (bytes.map fun b => Value.i32 (Int32.ofNat b.toNat)).toArray

theorem Object.setItem_ofBytes (front rest : Bytes) (old new : UInt8) :
    (Object.ofBytes (front ++ old :: rest)).setItem front.length (.i32 (Int32.ofNat new.toNat)) =
      .ofBytes (front ++ new :: rest) := by
  simp [ofBytes, setItem, List.set_append_right]

@[simp]
theorem Latin1.length_lowBytes (units : Units) : (lowBytes units).length = units.length := by
  simp [lowBytes]

/-! ## Units of a string -/

namespace RuntimeMember

variable {platform : Platform} {s : MachineState} {r : ObjRef} {units : Units}

theorem stringLength_apply (text : s.objects[r.index]? = some (.str units)) :
    stringLength.call platform [.ref r] s = (.ok (some (.ofPosition units.length)), s) := by
  simp [call, stringUnits_ref text, Value.ofPosition]

theorem stringChars_apply (text : s.objects[r.index]? = some (.str units)) {i : Nat} {unit : UInt16}
    (at_ : units[i]? = some unit) (small : i < 2 ^ 31) :
    stringChars.call platform [.ref r, .ofPosition i] s =
      (.ok (some (.i32 (Int32.ofNat unit.toNat))), s) := by
  have low := Value.not_ofPosition_neg small
  simp [call, stringUnits_ref text, Value.ofPosition, Value.toInt32?, low,
    Value.toInt_ofPosition small, at_]

end RuntimeMember

/-- What `conv.u1` and `stelem.i1` leave of a unit. -/
theorem narrow_unit (u : UInt16) :
    (((Int32.ofNat u.toNat).toUInt32.toUInt64 &&& 0xFF).toUInt32.toInt32 &&& 0xFF) =
      Int32.ofNat u.toUInt8.toNat := by
  have mask : (Int32.toUInt32 255).toNat = 2 ^ 8 - 1 := rfl
  have low : u.toNat &&& 255 = u.toNat % 256 := Nat.and_two_pow_sub_one_eq_mod u.toNat 8
  have word : (((Int32.ofNat u.toNat).toUInt32.toUInt64 &&& 0xFF).toUInt32.toInt32 &&&
      0xFF).toUInt32 = (Int32.ofNat u.toUInt8.toNat).toUInt32 := by
    refine UInt32.toNat_inj.mp ?_
    simp only [Int32.toUInt32_and, UInt32.toUInt32_toInt32, UInt32.toNat_and, mask,
      Nat.and_two_pow_sub_one_eq_mod, Int32.toUInt32_ofNat', UInt64.toNat_toUInt32,
      UInt64.toNat_and]
    simp
    omega
  rw [← Int32.toInt32_toUInt32 (_ &&& _), word, Int32.toInt32_toUInt32]

/-! ## The loop -/

namespace Helper

variable {m : Machine} {helper : TypeName} {flags : Int32} {s : MachineState} {r : ObjRef}
  {units : Units}

def ansiBytesDef : MethodDef :=
  .withBody .assembly "StringToAnsiByteArray" [("s", .string)] (.vector .u8) ansiBytesBody

/-- The frame that narrows a string. -/
def narrowFrame (m : Machine) (helper : TypeName) (v : Value) : Frame :=
  .start m.module ⟨helper, ansiBytesDef⟩ ansiBytesBody [v]

/-- The bytes of a string whose last units are not narrowed yet. -/
def narrowing (done rest : Units) : Object :=
  .ofBytes (Latin1.lowBytes done ++ List.replicate (rest.length + 1) 0)

/-- The locals while a string is narrowed: its length, the bytes and a position. -/
def narrowLocals (units : Units) (bytes : ObjRef) (i : Nat) : List Value :=
  [.ofPosition units.length, .ref bytes, .ofPosition i]

section Loop

variable (h : m.HasHelper helper flags) (text : s.objects[r.index]? = some (.str units))
  (short : units.length < 2 ^ 31 - 1)

include h text short

/-- One unit is narrowed, and the position moves on. -/
theorem narrow_one {done rest : Units} {unit : UInt16} (whole : units = done ++ unit :: rest) :
    m.Leads
      ((narrowFrame m helper (.ref r)).at 15 (narrowLocals units ⟨s.objects.size⟩ done.length) [])
      (s.withObject (narrowing done (unit :: rest)))
      ((narrowFrame m helper (.ref r)).at 26
        (narrowLocals units ⟨s.objects.size⟩ (done.length + 1)) [])
      (s.withObject (narrowing (done ++ [unit]) rest)) := by
  let f : Frame := narrowFrame m helper (.ref r)
  let locals := narrowLocals units ⟨s.objects.size⟩ done.length
  let before : MachineState := s.withObject (narrowing done (unit :: rest))
  have inside : done.length < units.length := by simp [whole]
  have chars : RuntimeMember.stringChars.call m.world.catalog.platform
      [.ref r, .ofPosition done.length] before =
        (.ok (some (.i32 (Int32.ofNat unit.toNat))), before) :=
    RuntimeMember.stringChars_apply (MachineState.object_withObject text _) (by simp [whole])
      (by omega)
  have place : Exec.slot (.ref ⟨s.objects.size⟩) (Int32.ofNat done.length) before =
      (.ok (⟨s.objects.size⟩, done.length), before) :=
    Exec.slot_apply (MachineState.object_withObject_new s _) (by simp) (by omega)
  have stored : { before with
      objects := before.objects.modify s.objects.size (·.setItem done.length
        (.i32 (((Int32.ofNat unit.toNat).toUInt32.toUInt64 &&& 0xFF).toUInt32.toInt32 &&& 0xFF))) } =
      s.withObject (narrowing (done ++ [unit]) rest) := by
    have narrowed := Object.setItem_ofBytes (Latin1.lowBytes done)
      (List.replicate (rest.length + 1) 0) 0 unit.toUInt8
    rw [Latin1.length_lowBytes] at narrowed
    simp only [before, MachineState.withObject, Array.modify_push_size, narrow_unit, narrowing]
    rw [List.length_cons, List.replicate_succ, narrowed, Latin1.lowBytes, Latin1.lowBytes,
      List.map_append, List.append_assoc]
    rfl
  have loads : m.Leads (f.at 15 locals []) before
      (f.at 19 locals [.ofPosition done.length, .ref r, .ofPosition done.length,
        .ref ⟨s.objects.size⟩]) before :=
    (((Leads.ldloc rfl rfl).trans (Leads.ldloc rfl rfl)).trans (Leads.ldarg rfl rfl)).trans
      (Leads.ldloc rfl rfl)
  have narrows : m.Leads (f.at 19 locals [.ofPosition done.length, .ref r, .ofPosition done.length,
      .ref ⟨s.objects.size⟩]) before (f.at 22 locals []) _ :=
    ((Leads.callRuntime [.ref r, .ofPosition done.length] rfl rfl (h.missing .stringChars) rfl
      chars).trans (Leads.convU1 rfl rfl)).trans (Leads.stelemI1 rfl place)
  rw [stored] at narrows
  have moves (s' : MachineState) : m.Leads (f.at 22 locals []) s'
      (f.at 26 (locals.set (2 : UInt16).toNat (.ofPosition (done.length + 1))) []) s' :=
    Leads.increment rfl rfl rfl rfl rfl
  exact (loads.trans narrows).trans (moves _)

/-- The units that are left are narrowed. -/
theorem narrow_rest {done rest : Units} (whole : units = done ++ rest) :
    m.Leads
      ((narrowFrame m helper (.ref r)).at 26 (narrowLocals units ⟨s.objects.size⟩ done.length) [])
      (s.withObject (narrowing done rest))
      ((narrowFrame m helper (.ref r)).at 29
        (narrowLocals units ⟨s.objects.size⟩ units.length) [])
      (s.withObject (narrowing units [])) := by
  let f : Frame := narrowFrame m helper (.ref r)
  have loads (i : Nat) (s' : MachineState) : m.Leads
      (f.at 26 (narrowLocals units ⟨s.objects.size⟩ i) []) s'
      (f.at 28 (narrowLocals units ⟨s.objects.size⟩ i)
        [.ofPosition units.length, .ofPosition i]) s' :=
    (Leads.ldloc rfl rfl).trans (Leads.ldloc rfl rfl)
  have less (i : Nat) (le : i ≤ units.length) :
      (Value.ofPosition i).less? (.ofPosition units.length) = some (decide (i < units.length)) :=
    Value.less?_ofPosition (by omega) (by omega)
  induction rest generalizing done with
  | nil =>
    rw [List.append_nil] at whole
    subst whole
    refine (loads _ _).trans (Leads.blt_next rfl ?_)
    rw [less _ (Nat.le_refl _), decide_eq_false (Nat.lt_irrefl _)]
  | cons unit rest ih =>
    have inside : done.length < units.length := by simp [whole]
    have compared := less done.length inside.le
    rw [decide_eq_true inside] at compared
    have next := @ih (done ++ [unit]) (by simp [whole])
    rw [List.length_append, List.length_singleton] at next
    exact (((loads _ _).trans (Leads.blt rfl rfl compared)).trans
      (narrow_one h text short whole)).trans next

/-- Every string that a byte array has room for is narrowed. -/
theorem ansiBytes_ends : m.Ends ⟨helper, ansiBytesDef⟩ [.ref r] s
    (.ok (some (.ref ⟨s.objects.size⟩)))
    (s.withObject (.ofBytes (Latin1.lowBytes units ++ [0]))) := by
  let f : Frame := narrowFrame m helper (.ref r)
  let bytes : ObjRef := ⟨s.objects.size⟩
  let n : Value := .ofPosition units.length
  have length : RuntimeMember.stringLength.call m.world.catalog.platform [.ref r] s =
      (.ok (some n), s) := RuntimeMember.stringLength_apply text
  have room : units.length + 1 < 2 ^ 31 := by omega
  have zeros : Object.array .u8 (Array.replicate (Int32.ofNat (units.length + 1)).toInt.toNat
      (m.module.defaultValue .u8)) = narrowing [] units := by
    have zero : m.module.defaultValue .u8 = .i32 0 := rfl
    rw [Value.toInt_ofPosition room, zero, Int.toNat_natCast]
    simp [narrowing, Object.ofBytes, Latin1.lowBytes]
  have asks : m.Leads f s (f.at 6 [.i32 0, .null, .i32 0] [n]) s :=
    (((Leads.ldarg (f := f) rfl rfl).trans (Leads.brtrue rfl rfl rfl)).trans
      (Leads.ldarg rfl rfl)).trans
      (Leads.callRuntime [.ref r] rfl rfl (h.missing .stringLength) rfl length)
  have counted : m.Leads (f.at 6 [.i32 0, .null, .i32 0] [n]) s
      (f.at 7 ([.i32 0, .null, .i32 0].set (0 : UInt16).toNat n) []) s :=
    Leads.stloc rfl (Nat.succ_pos 2)
  have adds : m.Leads (f.at 6 [.i32 0, .null, .i32 0] [n]) s
      (f.at 10 [n, .null, .i32 0] [.ofPosition (units.length + 1)]) s :=
    ((counted.trans (Leads.ldloc rfl rfl)).trans (Leads.ldcI4 rfl)).trans
      (Leads.add rfl (Value.add_one _))
  have made : m.Leads (f.at 10 [n, .null, .i32 0] [.ofPosition (units.length + 1)]) s
      (f.at 11 [n, .null, .i32 0] [.ref bytes]) _ :=
    Leads.newarr rfl (Value.not_ofPosition_neg room)
  rw [zeros] at made
  have kept (s' : MachineState) : m.Leads (f.at 11 [n, .null, .i32 0] [.ref bytes]) s'
      (f.at 12 ([n, .null, .i32 0].set (1 : UInt16).toNat (.ref bytes)) []) s' :=
    Leads.stloc rfl (by simp)
  have zeroed (s' : MachineState) : m.Leads (f.at 13 [n, .ref bytes, .i32 0] [.i32 0]) s'
      (f.at 14 ([n, .ref bytes, .i32 0].set (2 : UInt16).toNat (.i32 0)) []) s' :=
    Leads.stloc rfl (by simp)
  have starts : m.Leads (f.at 11 [n, .null, .i32 0] [.ref bytes])
      (s.withObject (narrowing [] units)) (f.at 26 (narrowLocals units bytes 0) [])
      (s.withObject (narrowing [] units)) :=
    (((kept _).trans (Leads.ldcI4 rfl)).trans (zeroed _)).trans (Leads.br rfl rfl)
  have loop := @narrow_rest _ _ _ _ _ _ h text short [] units rfl
  have place : Exec.slot (.ref bytes) (Int32.ofNat units.length) (s.withObject (narrowing units [])) =
      (.ok (bytes, units.length), s.withObject (narrowing units [])) :=
    Exec.slot_apply (MachineState.object_withObject_new s _) (by simp) (by omega)
  have ended : { s.withObject (narrowing units []) with
      objects := (s.withObject (narrowing units [])).objects.modify s.objects.size
        (·.setItem units.length (.i32 (0 &&& 0xFF))) } =
      s.withObject (.ofBytes (Latin1.lowBytes units ++ [0])) := by
    have zero := Object.setItem_ofBytes (Latin1.lowBytes units) [] 0 0
    rw [Latin1.length_lowBytes] at zero
    simp only [MachineState.withObject, Array.modify_push_size]
    exact congrArg (fun o => { s with objects := s.objects.push o }) zero
  have stores : m.Leads (f.at 29 (narrowLocals units bytes units.length) [])
      (s.withObject (narrowing units [])) (f.at 33 (narrowLocals units bytes units.length) []) _ :=
    (((Leads.ldloc rfl rfl).trans (Leads.ldloc rfl rfl)).trans (Leads.ldcI4 rfl)).trans
      (Leads.stelemI1 rfl place)
  rw [ended] at stores
  have ends : m.Leads (f.at 29 (narrowLocals units bytes units.length) [])
      (s.withObject (narrowing units []))
      (f.at 34 (narrowLocals units bytes units.length) [.ref bytes])
      (s.withObject (.ofBytes (Latin1.lowBytes units ++ [0]))) :=
    stores.trans (Leads.ldloc rfl rfl)
  exact Ends.returns rfl rfl rfl ((((asks.trans adds).trans made).trans starts).trans
    (loop.trans ends)) rfl

end Loop

/-- Null stays null. -/
theorem ansiBytes_ends_null (s : MachineState) :
    m.Ends ⟨helper, ansiBytesDef⟩ [.null] s (.ok (some .null)) s := by
  let f : Frame := narrowFrame m helper .null
  have leads : m.Leads f s (f.at 3 f.locals [.null]) s :=
    ((Leads.ldarg (f := f) rfl rfl).trans (Leads.brtrue_next (f := f) rfl rfl)).trans
      (Leads.ldnull (f := f) rfl)
  exact Ends.returns rfl rfl rfl leads rfl

end Helper

end LateBind

import LateBind.Proofs.Detection

/-! # Loops over arrays

Generated loops count with a local of four bytes. A position below 2³¹ is compared, moved on and
looked up as the number that it is. -/

namespace LateBind

open Machine

/-! ## Objects -/

/-- The state with one more object. -/
def MachineState.withObject (s : MachineState) (o : Object) : MachineState :=
  { s with objects := s.objects.push o }

namespace MachineState

variable {s : MachineState} {i : Nat} {o o' : Object}

/-- An object stays where it is when another one is made. -/
theorem object_withObject (found : s.objects[i]? = some o) (o' : Object) :
    (s.withObject o').objects[i]? = some o := by
  have inside : i < s.objects.size := (Array.getElem?_eq_some_iff.mp found).1
  rw [withObject, Array.getElem?_push_lt inside, ← found, Array.getElem?_eq_getElem inside]

theorem object_withObject_new (s : MachineState) (o : Object) :
    (s.withObject o).objects[s.objects.size]? = some o :=
  Array.getElem?_push_size

end MachineState

theorem Array.modify_push_size {α : Type} (items : Array α) (a : α) (g : α → α) :
    (items.push a).modify items.size g = items.push (g a) := by
  ext i h h'
  · simp
  · simp only [Array.getElem_modify, Array.getElem_push]
    grind

/-! ## Positions -/

namespace Value

/-- A position as a value. -/
def ofPosition (i : Nat) : Value := .i32 (Int32.ofNat i)

theorem add_one (i : Nat) : (ofPosition i).add (.i32 1) = some (ofPosition (i + 1)) :=
  congrArg (fun n => some (Value.i32 n)) (Int32.ofNat_add i 1).symm

variable {i n : Nat}

theorem toInt_ofPosition (small : i < 2 ^ 31) : (Int32.ofNat i).toInt = i :=
  Int32.toInt_ofNat_of_lt (by simpa using small)

theorem not_ofPosition_neg (small : i < 2 ^ 31) : ¬Int32.ofNat i < 0 := by
  rw [Int32.lt_iff_toInt_lt, toInt_ofPosition small, Int32.toInt_zero]
  omega

theorem less?_ofPosition (small : i < 2 ^ 31) (small' : n < 2 ^ 31) :
    (ofPosition i).less? (ofPosition n) = some (decide (i < n)) := by
  simp only [ofPosition, less?, Int32.lt_iff_toInt_lt, toInt_ofPosition small,
    toInt_ofPosition small', Int.ofNat_lt]

/-- A length, as an array tells it, once it is cut to four bytes. -/
theorem toInt32_ofSize (n : Nat) :
    Value.i32 (UInt64.ofNat n).toUInt32.toInt32 = ofPosition n := by
  have word : (UInt64.ofNat n).toUInt32 = (Int32.ofNat n).toUInt32 := by
    rw [Int32.toUInt32_ofNat', UInt64.toUInt32_ofNat']
  rw [word, Int32.toInt32_toUInt32, ofPosition]

end Value

namespace Exec

variable {s : MachineState} {r : ObjRef} {element : TypeRef} {items : Array Value} {i : Nat}

theorem arrayItems_apply (isArray : s.objects[r.index]? = some (.array element items)) :
    arrayItems (.ref r) s = (.ok items, s) := by
  simp [arrayItems, view, object_apply isArray]

theorem slot_apply (isArray : s.objects[r.index]? = some (.array element items))
    (inside : i < items.size) (small : i < 2 ^ 31) :
    slot (.ref r) (Int32.ofNat i) s = (.ok (r, i), s) := by
  have low : 0 ≤ Int32.ofNat i := by
    rw [Int32.le_iff_toInt_le, Value.toInt_ofPosition small, Int32.toInt_zero]
    omega
  simp [slot, arrayItems_apply isArray, position, low, Value.toInt_ofPosition small, inside]

theorem item_apply {v : Value} (isArray : s.objects[r.index]? = some (.array element items))
    (at_ : items[i]? = some v) (small : i < 2 ^ 31) :
    item (.ref r) (Int32.ofNat i) s = (.ok v, s) := by
  have low := Value.not_ofPosition_neg small
  simp [item, arrayItems_apply isArray, low, Value.toInt_ofPosition small, at_]

end Exec

/-! ## Code -/

namespace Machine.Leads

variable {m : Machine} {f : Frame} {s : MachineState} {pc i : Nat} {locals stack : List Value}

/-- The code that starts a loop over an array that is there. -/
theorem loopStart {place : Nat} {r : ObjRef} {index argument : UInt16} {l l' : Label}
    (load : f.body.instrs[pc]? = some (.ldarg argument))
    (test : f.body.instrs[pc + 1]? = some (.brfalse l))
    (zero : f.body.instrs[pc + 2]? = some (.ldcI4 0))
    (store : f.body.instrs[pc + 3]? = some (.stloc index))
    (go : f.body.instrs[pc + 4]? = some (.br l')) (target : f.body.target? l' = some place)
    (array : f.args[argument.toNat]? = some (.ref r)) (inside : index.toNat < locals.length) :
    m.Leads (f.at pc locals stack) s
      (f.at place (locals.set index.toNat (.ofPosition 0)) stack) s :=
  ((((Leads.ldarg load array).trans (Leads.brfalse_next test rfl)).trans (Leads.ldcI4 zero)).trans
    (Leads.stloc store inside)).trans (Leads.br go target)

/-- The code that moves a position on. -/
theorem increment {index : UInt16} (load : f.body.instrs[pc]? = some (.ldloc index))
    (one : f.body.instrs[pc + 1]? = some (.ldcI4 1)) (sum : f.body.instrs[pc + 2]? = some .add)
    (store : f.body.instrs[pc + 3]? = some (.stloc index))
    (position : locals[index.toNat]? = some (.ofPosition i)) :
    m.Leads (f.at pc locals stack) s
      (f.at (pc + 4) (locals.set index.toNat (.ofPosition (i + 1))) stack) s := by
  have inside : index.toNat < locals.length := (List.getElem?_eq_some_iff.mp position).1
  exact (((Leads.ldloc load position).trans (Leads.ldcI4 one)).trans
    (Leads.add sum (Value.add_one i))).trans (Leads.stloc store inside)

/-- The code that asks for the length of an array. -/
theorem length {v : Value} {items : Array Value} (len : f.body.instrs[pc]? = some .ldlen)
    (cut : f.body.instrs[pc + 1]? = some .convI4) (isArray : Exec.arrayItems v s = (.ok items, s)) :
    m.Leads (f.at pc locals (v :: stack)) s
      (f.at (pc + 2) locals (.ofPosition items.size :: stack)) s := by
  rw [← Value.toInt32_ofSize]
  exact (Leads.ldlen len isArray).trans (Leads.convI4 cut rfl)

/-- The code that goes to the loop body while a position lies in an array. -/
theorem boundCheck {place : Nat} {index argument : UInt16} {l : Label} {v : Value}
    {items : Array Value} (load : f.body.instrs[pc]? = some (.ldloc index))
    (loadArray : f.body.instrs[pc + 1]? = some (.ldarg argument))
    (length : f.body.instrs[pc + 2]? = some .ldlen) (cut : f.body.instrs[pc + 3]? = some .convI4)
    (branch : f.body.instrs[pc + 4]? = some (.blt l)) (target : f.body.target? l = some place)
    (position : locals[index.toNat]? = some (.ofPosition i)) (array : f.args[argument.toNat]? = some v)
    (isArray : Exec.arrayItems v s = (.ok items, s)) (inside : i ≤ items.size)
    (short : items.size < 2 ^ 31) :
    m.Leads (f.at pc locals stack) s
      (f.at (if i < items.size then place else pc + 5) locals stack) s := by
  have less : (Value.ofPosition i).less? (.ofPosition items.size) = some (decide (i < items.size)) :=
    Value.less?_ofPosition (by omega) short
  have asks : m.Leads (f.at pc locals stack) s
      (f.at (pc + 4) locals (.ofPosition items.size :: .ofPosition i :: stack)) s :=
    ((Leads.ldloc load position).trans (Leads.ldarg loadArray array)).trans
      (Leads.length length cut isArray)
  by_cases more : i < items.size
  · rw [if_pos more]
    exact asks.trans (Leads.blt branch target (less.trans (congrArg some (decide_eq_true more))))
  · rw [if_neg more]
    exact asks.trans (Leads.blt_next branch (less.trans (congrArg some (decide_eq_false more))))

end Machine.Leads

end LateBind

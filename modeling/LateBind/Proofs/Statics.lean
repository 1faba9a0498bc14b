import LateBind.Proofs.Computations
import Mathlib.Algebra.Group.Nat.Defs

/-! # Static fields

A static field that the machine has can be read and written, and writing it changes no other. -/

namespace LateBind

/-! ## Words -/

theorem Bytes.toNat_take_ofWord {width : Nat} (small : width ≤ 8) (w : UInt64) :
    Bytes.toNat ((Bytes.ofWord w).take width) = w.toNat % 2 ^ (8 * width) := by
  have low (width more n : Nat) :
      (Bytes.ofNat (width + more) n).take width = Bytes.ofNat width n := by
    induction width generalizing n with
    | zero => simp [Bytes.ofNat]
    | succ width ih => rw [Nat.add_right_comm, Bytes.ofNat, Bytes.ofNat, List.take_succ_cons, ih]
  have split := low width (8 - width) w.toNat
  rw [Nat.add_sub_cancel' small] at split
  rw [Bytes.ofWord, split, Bytes.toNat_ofNat, Nat.shiftLeft_eq, Nat.one_mul]

theorem Bytes.toWord_ofWord (w : UInt64) : (Bytes.ofWord w).toWord = w := by
  rw [Bytes.toWord, Bytes.toNat_take_ofWord (Nat.le_refl 8), Nat.mod_eq_of_lt w.toNat_lt,
    UInt64.ofNat_toNat]

namespace MachineState

variable {s : MachineState} {f g : FieldRef} {w w' : UInt64}

/-- The machine has the field, with the given word in it. -/
def Holds (s : MachineState) (f : FieldRef) (w : UInt64) : Prop :=
  ∃ c, Machine.cell? s f.owner f.name = some c ∧ c.type = f.type ∧ c.word = w

/-- The state with another word in a static field. -/
def setStatic (s : MachineState) (f : FieldRef) (w : UInt64) : MachineState :=
  { s with
    statics := s.statics.map fun c =>
      if c.owner = f.owner ∧ c.name = f.name then { c with word := w } else c }

theorem cell?_setStatic (s : MachineState) (f : FieldRef) (w : UInt64) (owner : TypeName)
    (name : String) : Machine.cell? (s.setStatic f w) owner name =
      (Machine.cell? s owner name).map fun c =>
        if c.owner = f.owner ∧ c.name = f.name then { c with word := w } else c := by
  unfold Machine.cell? setStatic
  rw [List.find?_map]
  congr 2
  funext c
  rw [Function.comp_apply]
  split <;> rfl

theorem cell?_setStatic_of_ne {owner : TypeName} {name : String}
    (other : owner ≠ f.owner ∨ name ≠ f.name) :
    Machine.cell? (s.setStatic f w) owner name = Machine.cell? s owner name := by
  rw [cell?_setStatic]
  cases found : Machine.cell? s owner name with
  | none => rfl
  | some c =>
    have key := List.find?_some found
    simp only [Bool.and_eq_true, beq_iff_eq] at key
    have differ : ¬(c.owner = f.owner ∧ c.name = f.name) := by
      rw [key.1, key.2]
      exact fun same => other.elim (· same.1) (· same.2)
    rw [Option.map_some, if_neg differ]

theorem Holds.setStatic (holds : s.Holds f w) (w' : UInt64) : (s.setStatic f w').Holds f w' := by
  obtain ⟨c, found, type, -⟩ := holds
  have key := List.find?_some found
  simp only [Bool.and_eq_true, beq_iff_eq] at key
  exact ⟨{ c with word := w' }, by rw [cell?_setStatic, found, Option.map_some, if_pos key], type,
    rfl⟩

/-- Fields lie apart from each other. -/
theorem holds_setStatic_iff (other : g.owner ≠ f.owner ∨ g.name ≠ f.name) (w' : UInt64) :
    (s.setStatic f w').Holds g w ↔ s.Holds g w := by
  rw [Holds, Holds, cell?_setStatic_of_ne other]

theorem Holds.setStatic_of_ne (holds : s.Holds g w)
    (other : g.owner ≠ f.owner ∨ g.name ≠ f.name) (w' : UInt64) : (s.setStatic f w').Holds g w :=
  (holds_setStatic_iff other w').mpr holds

theorem Holds.unique (holds : s.Holds f w) (holds' : s.Holds f w') : w = w' := by
  obtain ⟨c, found, -, rfl⟩ := holds
  obtain ⟨c', found', -, rfl⟩ := holds'
  rw [found] at found'
  cases found'
  rfl

theorem Holds.of_statics {s' : MachineState} (same : s'.statics = s.statics)
    (holds : s.Holds f w) : s'.Holds f w := by
  obtain ⟨c, found, type, word⟩ := holds
  exact ⟨c, by rw [Machine.cell?, same]; exact found, type, word⟩

end MachineState

namespace Machine

variable {m : Machine} {s : MachineState} {f : FieldRef} {w : UInt64}

/-! ## Reading and writing -/

theorem loadStatic_cell {v : Value} {c : StaticCell} (found : cell? s f.owner f.name = some c)
    (decodes : m.module.decode c.type (Bytes.ofWord c.word) = .ok v) :
    m.loadStatic f s = (.ok v, s) := by
  simp [loadStatic, found, loadCell, decodes]

theorem loadStatic_apply {v : Value} (holds : s.Holds f w)
    (decodes : m.module.decode f.type (Bytes.ofWord w) = .ok v) :
    m.loadStatic f s = (.ok v, s) := by
  obtain ⟨c, found, type, rfl⟩ := holds
  exact loadStatic_cell found (by rw [type]; exact decodes)

theorem storeStatic_cell {v : Value} {bytes : Bytes} {c : StaticCell}
    (found : cell? s f.owner f.name = some c) (encodes : m.module.encode c.type v = .ok bytes) :
    m.storeStatic f v s = (.ok (), s.setStatic f bytes.toWord) := by
  have key := List.find?_some found
  simp only [Bool.and_eq_true, beq_iff_eq] at key
  simp [storeStatic, found, encodes, MachineState.setStatic, key]

theorem storeStatic_apply {v : Value} {bytes : Bytes} (holds : s.Holds f w)
    (encodes : m.module.encode f.type v = .ok bytes) :
    m.storeStatic f v s = (.ok (), s.setStatic f bytes.toWord) := by
  obtain ⟨c, found, type, -⟩ := holds
  exact storeStatic_cell found (by rw [type]; exact encodes)

theorem loadStatic_cases (m : Machine) (f : FieldRef) (s : MachineState) :
    (∃ e, m.loadStatic f s = (.error (.fatal e), s)) ∨
      ∃ c v, cell? s f.owner f.name = some c ∧
        m.module.decode c.type (Bytes.ofWord c.word) = .ok v ∧ m.loadStatic f s = (.ok v, s) := by
  cases found : cell? s f.owner f.name with
  | none => exact .inl ⟨.missingField f.display, by simp [loadStatic, found, Exec.fatal]⟩
  | some c =>
    cases loads : m.module.decode c.type (Bytes.ofWord c.word) with
    | error e => exact .inl ⟨e, by simp [loadStatic, found, loadCell, loads, Exec.lift, Exec.fatal]⟩
    | ok v => exact .inr ⟨c, v, rfl, loads, loadStatic_cell found loads⟩

theorem storeStatic_cases (m : Machine) (f : FieldRef) (v : Value) (s : MachineState) :
    (∃ e, m.storeStatic f v s = (.error (.fatal e), s)) ∨
      ∃ c bytes, cell? s f.owner f.name = some c ∧ m.module.encode c.type v = .ok bytes ∧
        m.storeStatic f v s = (.ok (), s.setStatic f bytes.toWord) := by
  cases found : cell? s f.owner f.name with
  | none => exact .inl ⟨.missingField f.display, by simp [storeStatic, found, Exec.fatal]⟩
  | some c =>
    cases stores : m.module.encode c.type v with
    | error e => exact .inl ⟨e, by simp [storeStatic, found, stores, Exec.lift, Exec.fatal]⟩
    | ok bytes => exact .inr ⟨c, bytes, rfl, stores, storeStatic_cell found stores⟩

theorem loadStatic_intPtr (holds : s.Holds f w) (type : f.type = .intPtr) :
    m.loadStatic f s = (.ok (.ptr w), s) := by
  refine loadStatic_apply holds ?_
  have value : m.module.decode .intPtr (Bytes.ofWord w) =
      .ok (.ptr (UInt64.ofNat (Bytes.toNat ((Bytes.ofWord w).take 8)))) := rfl
  rw [type, value]
  exact congrArg (Except.ok ∘ Value.ptr) (Bytes.toWord_ofWord w)

theorem storeStatic_intPtr (holds : s.Holds f w) (type : f.type = .intPtr) (p : UInt64) :
    m.storeStatic f (.ptr p) s = (.ok (), s.setStatic f p) := by
  have bytes : m.module.encode f.type (.ptr p) = .ok (Bytes.ofWord p) := by rw [type]; rfl
  rw [storeStatic_apply holds bytes, Bytes.toWord_ofWord]

/-- A boolean is its low byte. -/
theorem loadStatic_boolean (holds : s.Holds f w) (type : f.type = .boolean) :
    m.loadStatic f s = (.ok (.i32 (Int32.ofNat (w.toNat % 2 ^ 8))), s) := by
  refine loadStatic_apply holds ?_
  have value : m.module.decode .boolean (Bytes.ofWord w) =
      .ok (.i32 (Int32.ofNat (Bytes.toNat ((Bytes.ofWord w).take 1)))) := rfl
  rw [type, value, Bytes.toNat_take_ofWord (by decide)]

theorem loadStatic_i32 (holds : s.Holds f w) (type : f.type = .i32) :
    m.loadStatic f s = (.ok (.i32 (Int32.ofNat (w.toNat % 2 ^ 32))), s) := by
  refine loadStatic_apply holds ?_
  have value : m.module.decode .i32 (Bytes.ofWord w) =
      .ok (.i32 (Int32.ofNat (Bytes.toNat ((Bytes.ofWord w).take 4)))) := rfl
  rw [type, value, Bytes.toNat_take_ofWord (by decide)]

/-! ## Which fields there are -/

/-- The cells of a type's scalar static fields. -/
def typeCells (m : Module) (t : TypeDef) : List StaticCell :=
  (t.fields.filter fun f => f.isStatic && isScalar m f.type).map fun f => ⟨t.name, f.name, f.type, 0⟩

/-- The cells of the scalar static fields, before one takes the place of another. -/
def declaredCells (m : Module) : List StaticCell := m.types.flatMap (typeCells m)

theorem mem_typeCells {m : Module} {t : TypeDef} {c : StaticCell} : c ∈ typeCells m t ↔
    ∃ f ∈ t.fields, f.isStatic ∧ isScalar m f.type ∧ c = ⟨t.name, f.name, f.type, 0⟩ := by
  simp only [typeCells, List.mem_map, List.mem_filter, Bool.and_eq_true, and_assoc,
    @eq_comm _ c]

theorem staticCells_eq (m : Module) : staticCells m = (declaredCells m).foldl addCell [] := by
  rw [staticCells, declaredCells, List.foldl_flatMap]
  congr 1
  funext cells t
  rw [typeCells, List.foldl_map]

theorem find?_addCell (cells : List StaticCell) (a : StaticCell) (owner : TypeName) (name : String) :
    (addCell cells a).find? (fun c => c.owner == owner && c.name == name) =
      if a.owner == owner && a.name == name then some a
      else cells.find? fun c => c.owner == owner && c.name == name := by
  rw [addCell, List.find?_append]
  cases key : a.owner == owner && a.name == name with
  | true =>
    simp only [Bool.and_eq_true, beq_iff_eq] at key
    have gone : (cells.filter fun c => c.owner != a.owner || c.name != a.name).find?
        (fun c => c.owner == owner && c.name == name) = none := by
      refine List.find?_eq_none.mpr fun c hc same => ?_
      have other := (List.mem_filter.mp hc).2
      simp only [Bool.and_eq_true, beq_iff_eq] at same
      simp [key.1, key.2, same.1, same.2] at other
    rw [gone, Option.none_or, List.find?_cons_of_pos (by simp [key])]
    rfl
  | false =>
    have kept : (cells.filter fun c => c.owner != a.owner || c.name != a.name).find?
        (fun c => c.owner == owner && c.name == name) =
          cells.find? fun c => c.owner == owner && c.name == name := by
      rw [List.find?_filter]
      congr 1
      funext c
      rw [Bool.eq_iff_iff, decide_eq_true_iff]
      refine ⟨And.right, fun same => ⟨?_, same⟩⟩
      simp only [Bool.and_eq_true, beq_iff_eq] at same
      simp only [Bool.and_eq_false_iff, beq_eq_false_iff_ne] at key
      rw [same.1, same.2, Bool.or_eq_true, bne_iff_ne, bne_iff_ne]
      exact key.imp Ne.symm Ne.symm
    rw [kept, List.find?_cons_of_neg (by simp [key])]
    exact Option.or_none

/-- The last cell of a name that is added is there. -/
theorem find?_foldl_addCell (adds cells : List StaticCell) (owner : TypeName) (name : String) :
    (adds.foldl addCell cells).find? (fun c => c.owner == owner && c.name == name) =
      (adds.filter fun c => c.owner == owner && c.name == name).getLast?.or
        (cells.find? fun c => c.owner == owner && c.name == name) := by
  induction adds generalizing cells with
  | nil => rfl
  | cons a adds ih =>
    rw [List.foldl_cons, ih, find?_addCell, List.filter_cons]
    split
    · rw [List.getLast?_cons]
      cases (adds.filter fun c => c.owner == owner && c.name == name).getLast? <;> rfl
    · rfl

theorem cell?_of_staticCells {m : Module} {s : MachineState} (loaded : s.statics = staticCells m)
    (owner : TypeName) (name : String) : cell? s owner name =
      ((declaredCells m).filter fun c => c.owner == owner && c.name == name).getLast? := by
  rw [cell?, loaded, staticCells_eq, find?_foldl_addCell]
  exact Option.or_none

/-- A scalar static field that is alone with its name is there after loading, and zero. -/
theorem holds_staticCells {m : Module} {t : TypeDef} {d : FieldDef} (ht : t ∈ m.types)
    (hd : d ∈ t.fields) (isStatic : d.isStatic) (scalar : isScalar m d.type)
    (only : ∀ t' ∈ m.types, t'.name = t.name → ∀ d' ∈ t'.fields, d'.name = d.name →
      d'.type = d.type)
    {s : MachineState} (loaded : s.statics = staticCells m) :
    s.Holds ⟨t.name, d.name, d.type⟩ 0 := by
  have added : (⟨t.name, d.name, d.type, 0⟩ : StaticCell) ∈
      (declaredCells m).filter fun c => c.owner == t.name && c.name == d.name :=
    List.mem_filter.mpr ⟨List.mem_flatMap.mpr
      ⟨t, ht, mem_typeCells.mpr ⟨d, hd, isStatic, scalar, rfl⟩⟩, by simp⟩
  obtain ⟨c, last⟩ := Option.isSome_iff_exists.mp
    (List.getLast?_isSome.mpr (List.ne_nil_of_mem added))
  obtain ⟨hc, key⟩ := List.mem_filter.mp (List.mem_of_getLast? last)
  obtain ⟨t', ht', hc⟩ := List.mem_flatMap.mp hc
  obtain ⟨d', hd', -, -, rfl⟩ := mem_typeCells.mp hc
  simp only [Bool.and_eq_true, beq_iff_eq] at key
  refine ⟨_, (cell?_of_staticCells loaded t.name d.name).trans last, ?_, rfl⟩
  exact only t' ht' key.1 d' hd' key.2

end Machine

end LateBind

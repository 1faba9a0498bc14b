import LateBind.Proofs.Agreement
import LateBind.Proofs.HeapCopies
import LateBind.Proofs.Loops

/-! # Arrays of strings

The helper type copies the strings of an array to native memory in one loop, and frees the copies
in another one. Whatever the first has copied, the second frees, once. -/

namespace LateBind

open Machine

/-- A string as native code takes it, with its terminator. -/
def StringEncoding.bytes : StringEncoding → Units → Bytes
  | .ansi, units => Latin1.encode units.toText ++ [0]
  | .unicode, units => Bytes.ofUnits units ++ [0, 0]

/-- The copies of strings; null is not copied. -/
def StringEncoding.copies (encoding : StringEncoding) (texts : List (Option Units)) :
    List (Option Bytes) :=
  texts.map (Option.map encoding.bytes)

@[simp]
theorem StringEncoding.length_copies (encoding : StringEncoding) (texts : List (Option Units)) :
    (encoding.copies texts).length = texts.length :=
  List.length_map _

theorem StringEncoding.take_copies_succ (encoding : StringEncoding) {texts : List (Option Units)}
    {k : Nat} (hk : k < texts.length) : (encoding.copies texts).take (k + 1) =
      (encoding.copies texts).take k ++ [texts[k].map encoding.bytes] := by
  rw [List.take_succ_eq_append_getElem (by simpa using hk)]
  simp [copies]

/-! ## Tables of addresses -/

/-- The first of the places that are left is taken. -/
theorem List.set_append_replicate {α : Type} {front : List α} {k n : Nat} {a z : α}
    (count : front.length = k) (more : k < n) :
    (front ++ List.replicate (n - k) z).set k a = front ++ [a] ++ List.replicate (n - (k + 1)) z := by
  obtain ⟨rest, rfl⟩ : ∃ rest, n = k + 1 + rest := ⟨n - (k + 1), by omega⟩
  rw [Nat.add_sub_cancel_left, Nat.add_assoc, Nat.add_sub_cancel_left, Nat.add_comm 1 rest,
    List.replicate_succ, List.set_append_right _ _ (by omega), count, Nat.sub_self,
    List.set_cons_zero, List.append_assoc, List.singleton_append]

/-- An array of addresses. -/
def Object.ofAddresses (addresses : List UInt64) : Object :=
  .array .intPtr (addresses.map Value.ptr).toArray

theorem Object.setItem_ofAddresses (addresses : List UInt64) (i : Nat) (a : UInt64) :
    (ofAddresses addresses).setItem i (.ptr a) = ofAddresses (addresses.set i a) := by
  simp [ofAddresses, setItem, List.map_set]

/-- An array of strings is no table. -/
theorem Object.strings_ne (items : Array Value) (addresses : List UInt64) :
    array .string items ≠ ofAddresses addresses := by
  intro same
  cases (Object.array.inj same).1

/-- The state with other addresses in a table and other native memory. -/
def MachineState.withTable (s : MachineState) (table : ObjRef) (addresses : List UInt64)
    (heap : Heap) : MachineState :=
  { s.withHeap heap with
    objects := s.objects.setIfInBounds table.index (.ofAddresses addresses) }

/-- The state with copies of bytes, and with their addresses at the start of a table. -/
def MachineState.withCopies (s : MachineState) (table : ObjRef) (size : Nat)
    (copies : List (Option Bytes)) : MachineState :=
  let copied := s.native.heap.copyAll copies
  s.withTable table (copied.1 ++ List.replicate (size - copies.length) 0) copied.2

/-- A value that is a string of the given units, or null. -/
def MachineState.HasText (s : MachineState) (v : Value) : Option Units → Prop
  | none => v = .null
  | some units => ∃ r, v = .ref r ∧ s.objects[r.index]? = some (.str units)

namespace MachineState

variable {s : MachineState} {table : ObjRef} {addresses old : List UInt64} {heap : Heap}

/-- A table is left as it is. -/
theorem withTable_same (isTable : s.objects[table.index]? = some (.ofAddresses addresses)) :
    s.withTable table addresses heap = s.withHeap heap := by
  obtain ⟨inside, eq⟩ := Array.getElem?_eq_some_iff.mp isTable
  have same : s.objects.setIfInBounds table.index (.ofAddresses addresses) = s.objects := by
    rw [← eq, Array.setIfInBounds, dif_pos inside, Array.set_getElem_self]
  simp only [withTable, same]

theorem withTable_withTable (addresses' : List UInt64) (heap' : Heap) :
    (s.withTable table addresses heap).withTable table addresses' heap' =
      s.withTable table addresses' heap' := by
  simp [withTable]

theorem table_withTable (isTable : s.objects[table.index]? = some (.ofAddresses old)) :
    (s.withTable table addresses heap).objects[table.index]? = some (.ofAddresses addresses) := by
  have inside := (Array.getElem?_eq_some_iff.mp isTable).1
  simp [withTable, inside]

/-- Other objects are what they were. -/
theorem object_withTable {r : ObjRef} {o : Object}
    (isTable : s.objects[table.index]? = some (.ofAddresses old)) (found : s.objects[r.index]? = some o)
    (other : o ≠ .ofAddresses old) : (s.withTable table addresses heap).objects[r.index]? = some o := by
  have apart : table.index ≠ r.index := by
    intro same
    rw [← same, isTable] at found
    exact other (Option.some.inj found).symm
  rw [withTable, Array.getElem?_setIfInBounds_ne apart, found]

theorem HasText.withTable {v : Value} {text : Option Units} (has : s.HasText v text)
    (isTable : s.objects[table.index]? = some (.ofAddresses old)) :
    (s.withTable table addresses heap).HasText v text := by
  cases text with
  | none => exact has
  | some units =>
    obtain ⟨r, eq, found⟩ := has
    exact ⟨r, eq, object_withTable isTable found (by simp [Object.ofAddresses])⟩

/-- One address is stored. -/
theorem modify_withTable (i : Nat) (a : UInt64) :
    { s.withTable table addresses heap with
      objects := (s.withTable table addresses heap).objects.modify table.index
        (·.setItem i (.ptr a)) } = s.withTable table (addresses.set i a) heap := by
  have stored : (s.objects.setIfInBounds table.index (.ofAddresses addresses)).modify table.index
      (·.setItem i (.ptr a)) =
        s.objects.setIfInBounds table.index (.ofAddresses (addresses.set i a)) := by
    rw [← Object.setItem_ofAddresses]
    ext j h h'
    · simp
    · simp only [Array.getElem_modify]
      grind
  simp only [withTable, stored]

end MachineState

/-! ## Members of the framework's library -/

namespace RuntimeMember

variable {platform : Platform} {s : MachineState}

/-- The member that copies a string to native memory. -/
def copier : StringEncoding → RuntimeMember
  | .ansi => stringToHGlobalAnsi
  | .unicode => stringToHGlobalUni

theorem ref_copier (encoding : StringEncoding) : (copier encoding).ref = Helper.copyOf encoding := by
  cases encoding <;> rfl

theorem ofRef?_copyOf (encoding : StringEncoding) :
    ofRef? (Helper.copyOf encoding) = some (copier encoding) := by
  cases encoding <;> rfl

theorem copier_apply (encoding : StringEncoding) {v : Value} {text : Option Units}
    (has : s.HasText v text) :
    (copier encoding).call platform [v] s =
      (.ok (some (.ptr (s.native.heap.copy (text.map encoding.bytes)).1)),
        s.withHeap (s.native.heap.copy (text.map encoding.bytes)).2) := by
  cases text with
  | none =>
    cases has
    cases encoding <;> rfl
  | some units =>
    obtain ⟨r, rfl, found⟩ := has
    cases encoding <;>
      simp [copier, call, copyString, stringUnits_ref found, Exec.allocBytes, Exec.setHeap,
        Heap.copy, StringEncoding.bytes]

theorem freeHGlobal_ok {a : UInt64} {heap : Heap} (nonzero : a ≠ 0)
    (frees : s.native.heap.free a = .ok heap) :
    freeHGlobal.call platform [.ptr a] s = (.ok none, s.withHeap heap) := by
  simp [call, pointer, Value.toPointer?, nonzero, Exec.free, frees, Exec.setHeap]

theorem freeHGlobal_freedBefore {a : UInt64} (nonzero : a ≠ 0)
    (fails : s.native.heap.free a = .error .freedBefore) :
    freeHGlobal.call platform [.ptr a] s = (.error (.fatal (.doubleFree a)), s) := by
  simp [call, pointer, Value.toPointer?, nonzero, Exec.free, fails, Exec.fatal]

theorem freeHGlobal_noBlock {a : UInt64} (nonzero : a ≠ 0)
    (fails : s.native.heap.free a = .error .noBlock) :
    freeHGlobal.call platform [.ptr a] s = (.error (.fatal (.invalidFree a)), s) := by
  simp [call, pointer, Value.toPointer?, nonzero, Exec.free, fails, Exec.fatal]

end RuntimeMember

namespace Helper

variable {m : Machine} {helper : TypeName} {flags : Int32} {s : MachineState}
  {strings table : ObjRef}

/-! ## The loop that copies -/

def fillDef (encoding : StringEncoding) : MethodDef :=
  .withBody .assembly (fillName encoding)
    [("strings", .vector .string), ("addrs", .vector .intPtr)] .void
    (fillAddressesBody (copyOf encoding))

/-- The frame that copies the strings of an array. -/
def fillFrame (m : Machine) (helper : TypeName) (encoding : StringEncoding)
    (strings table : ObjRef) : Frame :=
  .start m.module ⟨helper, fillDef encoding⟩ (fillAddressesBody (copyOf encoding))
    [.ref strings, .ref table]

/-- An array that is null has nothing to copy. -/
theorem fill_ends_null (encoding : StringEncoding) (v : Value) (s : MachineState) :
    m.Ends ⟨helper, fillDef encoding⟩ [.null, v] s (.ok none) s := by
  let f : Frame := .start m.module ⟨helper, fillDef encoding⟩ (fillAddressesBody (copyOf encoding))
    [.null, v]
  have leaves : m.Leads f s (f.at 21 f.locals []) s :=
    (Leads.ldarg (f := f) rfl rfl).trans (Leads.brfalse (f := f) rfl rfl rfl)
  exact Ends.done rfl rfl rfl leaves rfl

section Fill

variable {encoding : StringEncoding} {items : Array Value} {old : List UInt64}
  (isArray : s.objects[strings.index]? = some (.array .string items))
  (isTable : s.objects[table.index]? = some (.ofAddresses old))

include isArray isTable

/-- The loop goes on while the position lies in the array. -/
theorem fill_check {i : Nat} (inside : i ≤ items.size) (short : items.size < 2 ^ 31)
    (addresses : List UInt64) (heap : Heap) :
    m.Leads ((fillFrame m helper encoding strings table).at 16 [.ofPosition i] [])
      (s.withTable table addresses heap)
      ((fillFrame m helper encoding strings table).at (if i < items.size then 5 else 21)
        [.ofPosition i] []) (s.withTable table addresses heap) := by
  have array : (s.withTable table addresses heap).objects[strings.index]? =
      some (.array .string items) :=
    MachineState.object_withTable isTable isArray (Object.strings_ne _ _)
  exact Leads.boundCheck rfl rfl rfl rfl rfl rfl rfl rfl (Exec.arrayItems_apply array) inside short

variable (h : m.HasHelper helper flags)

include h

/-- One string is copied, and the position moves on. -/
theorem fill_one {i : Nat} {v : Value} {text : Option Units} {addresses : List UInt64} {heap : Heap}
    (item : items[i]? = some v) (has : s.HasText v text) (inside : i < addresses.length)
    (small : i < 2 ^ 31) :
    m.Leads ((fillFrame m helper encoding strings table).at 5 [.ofPosition i] [])
      (s.withTable table addresses heap)
      ((fillFrame m helper encoding strings table).at 16 [.ofPosition (i + 1)] [])
      (s.withTable table (addresses.set i (heap.copy (text.map encoding.bytes)).1)
        (heap.copy (text.map encoding.bytes)).2) := by
  let f : Frame := fillFrame m helper encoding strings table
  let before : MachineState := s.withTable table addresses heap
  let copied := heap.copy (text.map encoding.bytes)
  have array : before.objects[strings.index]? = some (.array .string items) :=
    MachineState.object_withTable isTable isArray (Object.strings_ne _ _)
  have loads : m.Leads (f.at 5 [.ofPosition i] []) before
      (f.at 10 [.ofPosition i] [v, .ofPosition i, .ref table]) before :=
    ((((Leads.ldarg rfl rfl).trans (Leads.ldloc rfl rfl)).trans (Leads.ldarg rfl rfl)).trans
      (Leads.ldloc rfl rfl)).trans (Leads.ldelemRef rfl (Exec.item_apply array item small))
  have missing := h.missing (.copier encoding)
  rw [RuntimeMember.ref_copier] at missing
  have copies : m.Leads (f.at 10 [.ofPosition i] [v, .ofPosition i, .ref table]) before
      (f.at 11 [.ofPosition i] [.ptr copied.1, .ofPosition i, .ref table])
      (s.withTable table addresses copied.2) :=
    Leads.callRuntime [v] rfl (by cases encoding <;> rfl) missing
      (RuntimeMember.ofRef?_copyOf encoding)
      (RuntimeMember.copier_apply encoding (has.withTable isTable))
  have place : Exec.slot (.ref table) (Int32.ofNat i) (s.withTable table addresses copied.2) =
      (.ok (table, i), s.withTable table addresses copied.2) :=
    Exec.slot_apply (MachineState.table_withTable isTable) (by simpa using inside) small
  have stores : m.Leads (f.at 11 [.ofPosition i] [.ptr copied.1, .ofPosition i, .ref table])
      (s.withTable table addresses copied.2) (f.at 12 [.ofPosition i] []) _ :=
    Leads.stelemI rfl rfl place
  rw [MachineState.modify_withTable] at stores
  have moves (s' : MachineState) : m.Leads (f.at 12 [.ofPosition i] []) s'
      (f.at 16 ([Value.ofPosition i].set (0 : UInt16).toNat (.ofPosition (i + 1))) []) s' :=
    Leads.increment rfl rfl rfl rfl rfl
  exact ((loads.trans copies).trans stores).trans (moves _)

variable {texts : List (Option Units)} (has : List.Forall₂ s.HasText items.toList texts)
  (fresh : old = List.replicate texts.length 0) (short : texts.length < 2 ^ 31)

include has fresh short

variable (encoding)

/-- The strings before a position are copied, and the table is zero from there on. -/
theorem fill_to {k : Nat} (hk : k ≤ texts.length) :
    m.Leads (fillFrame m helper encoding strings table) s
      ((fillFrame m helper encoding strings table).at 16 [.ofPosition k] [])
      (s.withCopies table texts.length ((encoding.copies texts).take k)) := by
  let f : Frame := fillFrame m helper encoding strings table
  induction k with
  | zero =>
    have starts : m.Leads f s (f.at 16 ([Value.i32 0].set (0 : UInt16).toNat (.ofPosition 0)) []) s :=
      Leads.loopStart (f := f) rfl rfl rfl rfl rfl rfl rfl Nat.one_pos
    have same : s.withTable table (List.replicate texts.length 0) s.native.heap = s :=
      MachineState.withTable_same (fresh ▸ isTable)
    simpa [MachineState.withCopies, Heap.copyAll, same] using starts
  | succ k ih =>
    have leads := ih (by omega)
    let front : List (Option Bytes) := (encoding.copies texts).take k
    have some : front.length = k := by
      rw [List.length_take, encoding.length_copies]
      omega
    have count : (s.native.heap.copyAll front).1.length = k := by rw [Heap.length_copyAll, some]
    have size : items.size = texts.length := has.length_eq
    have inItems : k < items.size := by omega
    have text : s.HasText items[k] texts[k] := has.get inItems hk
    have goesOn := leads.trans (fill_check isArray isTable inItems.le (by omega) _ _)
    rw [if_pos inItems] at goesOn
    have copies : m.Leads (f.at 5 [.ofPosition k] []) (s.withCopies table texts.length front)
        (f.at 16 [.ofPosition (k + 1)] []) _ :=
      fill_one isArray isTable h (Array.getElem?_eq_getElem inItems) text (by simp [some]; omega)
        (by omega)
    rw [some, List.set_append_replicate count (by omega)] at copies
    rw [encoding.take_copies_succ hk, MachineState.withCopies, Heap.copyAll_concat,
      List.length_append, List.length_singleton, some]
    exact goesOn.trans copies

/-- All strings are copied. -/
theorem fill_ends : m.Ends ⟨helper, fillDef encoding⟩ [.ref strings, .ref table] s (.ok none)
    (s.withCopies table texts.length (encoding.copies texts)) := by
  have size : items.size = texts.length := has.length_eq
  have leads := fill_to encoding isArray isTable h has fresh short (Nat.le_refl texts.length)
  rw [List.take_of_length_le (by simp)] at leads
  have leaves := leads.trans (fill_check isArray isTable size.ge (by omega) _ _)
  rw [if_neg (by omega)] at leaves
  exact Ends.done rfl rfl rfl leaves rfl

end Fill

/-! ## The loop that frees -/

def freeDef : MethodDef :=
  .withBody .assembly "StringArrayMarshallingEpilog" [("addrs", .vector .intPtr)] .void
    freeAddressesBody

/-- The frame that frees the copies in a table. -/
def freeFrame (m : Machine) (helper : TypeName) (v : Value) : Frame :=
  .start m.module ⟨helper, freeDef⟩ freeAddressesBody [v]

/-- Null is left alone. -/
theorem free_ends_null (s : MachineState) :
    m.Ends ⟨helper, freeDef⟩ [.null] s (.ok none) s := by
  let f : Frame := freeFrame m helper .null
  have leaves : m.Leads f s (f.at 27 f.locals []) s :=
    (Leads.ldarg (f := f) rfl rfl).trans (Leads.brfalse (f := f) rfl rfl rfl)
  exact Ends.done rfl rfl rfl leaves rfl

section Free

variable {old : List UInt64} (isTable : s.objects[table.index]? = some (.ofAddresses old))

include isTable

/-- The loop goes on while the position lies in the table. -/
theorem free_check (helper : TypeName) (addresses : List UInt64) {i : Nat} (inside : i ≤ addresses.length)
    (short : addresses.length < 2 ^ 31) (heap : Heap) :
    m.Leads ((freeFrame m helper (.ref table)).at 22 [.ofPosition i] [])
      (s.withTable table addresses heap)
      ((freeFrame m helper (.ref table)).at (if i < addresses.length then 5 else 27)
        [.ofPosition i] []) (s.withTable table addresses heap) := by
  have size : (addresses.map Value.ptr).toArray.size = addresses.length := by simp
  rw [← size] at inside short ⊢
  exact Leads.boundCheck rfl rfl rfl rfl rfl rfl rfl rfl
    (Exec.arrayItems_apply (MachineState.table_withTable isTable)) inside short

/-- A copy is looked at. -/
theorem free_looks {i pc : Nat} {a : UInt64} {addresses : List UInt64} {heap : Heap}
    (entry : addresses[i]? = some a) (small : i < 2 ^ 31)
    (array : freeAddressesBody.instrs[pc]? = some (.ldarg 0))
    (index : freeAddressesBody.instrs[pc + 1]? = some (.ldloc 0))
    (load : freeAddressesBody.instrs[pc + 2]? = some .ldelemI) :
    m.Leads ((freeFrame m helper (.ref table)).at pc [.ofPosition i] [])
      (s.withTable table addresses heap)
      ((freeFrame m helper (.ref table)).at (pc + 3) [.ofPosition i] [.ptr a])
      (s.withTable table addresses heap) := by
  let f : Frame := freeFrame m helper (.ref table)
  have item : Exec.item (.ref table) (Int32.ofNat i) (s.withTable table addresses heap) =
      (.ok (.ptr a), s.withTable table addresses heap) :=
    Exec.item_apply (MachineState.table_withTable isTable) (by simp [entry]) small
  exact ((Leads.ldarg (f := f) array rfl).trans (Leads.ldloc index rfl)).trans
    (Leads.ldelemI load item)

/-- Where there is a copy, the loop comes to free it. -/
theorem free_finds {i : Nat} {a : UInt64} {addresses : List UInt64} {heap : Heap}
    (entry : addresses[i]? = some a) (small : i < 2 ^ 31) (nonzero : a ≠ 0) :
    m.Leads ((freeFrame m helper (.ref table)).at 5 [.ofPosition i] [])
      (s.withTable table addresses heap)
      ((freeFrame m helper (.ref table)).at 12 [.ofPosition i] [.ptr a])
      (s.withTable table addresses heap) := by
  have isTrue : (Value.ptr a).isTrue = true := by simp [Value.isTrue, nonzero]
  exact ((free_looks isTable entry small rfl rfl rfl).trans (Leads.brfalse_next rfl isTrue)).trans
    (free_looks isTable entry small rfl rfl rfl)

variable (h : m.HasHelper helper flags)

include h

/-- A copy is freed and its address becomes zero; where there is none, nothing is done. -/
theorem free_one {i : Nat} {a : UInt64} {addresses : List UInt64} {heap heap' : Heap}
    (entry : addresses[i]? = some a) (small : i < 2 ^ 31)
    (frees : (if a = 0 then .ok heap else heap.free a) = .ok heap') :
    m.Leads ((freeFrame m helper (.ref table)).at 5 [.ofPosition i] [])
      (s.withTable table addresses heap)
      ((freeFrame m helper (.ref table)).at 22 [.ofPosition (i + 1)] [])
      (s.withTable table (addresses.set i 0) heap') := by
  let f : Frame := freeFrame m helper (.ref table)
  obtain ⟨inside, eq⟩ := List.getElem?_eq_some_iff.mp entry
  have moves (s' : MachineState) : m.Leads (f.at 18 [.ofPosition i] []) s'
      (f.at 22 ([Value.ofPosition i].set (0 : UInt16).toNat (.ofPosition (i + 1))) []) s' :=
    Leads.increment rfl rfl rfl rfl rfl
  by_cases zero : a = 0
  · have same : addresses.set i 0 = addresses := by rw [← zero, ← eq, List.set_getElem_self]
    rw [if_pos zero] at frees
    cases frees
    rw [same]
    subst zero
    exact ((free_looks isTable entry small rfl rfl rfl).trans (Leads.brfalse rfl rfl rfl)).trans
      (moves _)
  · rw [if_neg zero] at frees
    have frees : m.Leads (f.at 12 [.ofPosition i] [.ptr a]) (s.withTable table addresses heap)
        (f.at 13 [.ofPosition i] []) (s.withTable table addresses heap') :=
      Leads.callRuntime [.ptr a] rfl rfl (h.missing .freeHGlobal) rfl
        (RuntimeMember.freeHGlobal_ok zero frees)
    have place : Exec.slot (.ref table) (Int32.ofNat i) (s.withTable table addresses heap') =
        (.ok (table, i), s.withTable table addresses heap') :=
      Exec.slot_apply (MachineState.table_withTable isTable) (by simpa using inside) small
    have clears : m.Leads (f.at 13 [.ofPosition i] []) (s.withTable table addresses heap')
        (f.at 18 [.ofPosition i] []) _ :=
      ((((Leads.ldarg rfl rfl).trans (Leads.ldloc rfl rfl)).trans (Leads.ldcI4 rfl)).trans
        (Leads.convI_i32 rfl)).trans (Leads.stelemI rfl rfl place)
    rw [MachineState.modify_withTable] at clears
    exact (((free_finds isTable entry small zero).trans frees).trans clears).trans (moves _)

/-- A block that cannot be freed stops the program. -/
theorem free_fails {i : Nat} {a : UInt64} {addresses : List UInt64} {heap : Heap} {e : MachineError}
    (entry : addresses[i]? = some a) (small : i < 2 ^ 31) (nonzero : a ≠ 0)
    (fails : RuntimeMember.freeHGlobal.call m.world.catalog.platform [.ptr a]
      (s.withTable table addresses heap) = (.error (.fatal e), s.withTable table addresses heap)) :
    m.Finishes ((freeFrame m helper (.ref table)).at 5 [.ofPosition i] [])
      (s.withTable table addresses heap) (.error (.fatal e)) (s.withTable table addresses heap) :=
  (free_finds isTable entry small nonzero).finishes <|
    Finishes.callRuntime [.ptr a] rfl rfl (h.missing .freeHGlobal) rfl fails

/-- The copies from a position on are freed, as far as that goes. -/
theorem free_from (front rest : List UInt64) (heap : Heap) (short : front.length + rest.length < 2 ^ 31) :
    m.Finishes ((freeFrame m helper (.ref table)).at 22 [.ofPosition front.length] [])
      (s.withTable table (front ++ rest) heap) (orFault (heap.clear rest).2.2 (.ok none))
      (s.withTable table (front ++ (heap.clear rest).1) (heap.clear rest).2.1) := by
  let f : Frame := freeFrame m helper (.ref table)
  induction rest generalizing front heap with
  | nil =>
    have leaves := free_check (m := m) isTable helper (front ++ []) (i := front.length)
      (by simp) (by simpa using short) heap
    rw [if_neg (by simp)] at leaves
    exact leaves.finishes (Finishes.ret (v := none) (f := f) rfl rfl)
  | cons a rest ih =>
    rw [List.length_cons] at short
    have size : (front ++ a :: rest).length = front.length + rest.length + 1 := by simp; omega
    have entry : (front ++ a :: rest)[front.length]? = some a := by simp
    have set : (front ++ a :: rest).set front.length 0 = front ++ [0] ++ rest := by simp
    have goesOn := free_check (m := m) isTable helper (front ++ a :: rest) (i := front.length)
      (by omega) (by omega) heap
    rw [if_pos (by omega)] at goesOn
    refine goesOn.finishes ?_
    rw [Heap.clear]
    cases frees : if a = 0 then Except.ok heap else heap.free a with
    | ok heap' =>
      have one := free_one isTable h entry (by omega) frees
      rw [set] at one
      have others := ih (front ++ [0]) heap' (by simp; omega)
      rw [List.length_append, List.length_singleton, List.append_assoc _ _ (Prod.fst _)] at others
      exact one.finishes others
    | error fault =>
      have nonzero : a ≠ 0 := by
        rintro rfl
        cases frees
      rw [if_neg nonzero] at frees
      cases fault with
      | freedBefore =>
        exact free_fails isTable h entry (by omega) nonzero
          (RuntimeMember.freeHGlobal_freedBefore nonzero frees)
      | noBlock =>
        exact free_fails isTable h entry (by omega) nonzero
          (RuntimeMember.freeHGlobal_noBlock nonzero frees)

/-- The copies in a table are freed, as far as that goes. -/
theorem free_clears (short : old.length < 2 ^ 31) :
    m.Ends ⟨helper, freeDef⟩ [.ref table] s (orFault (s.native.heap.clear old).2.2 (.ok none))
      (s.withTable table (s.native.heap.clear old).1 (s.native.heap.clear old).2.1) := by
  let f : Frame := freeFrame m helper (.ref table)
  have same : s.withTable table old s.native.heap = s := MachineState.withTable_same isTable
  have starts : m.Leads f s (f.at 22 ([Value.i32 0].set (0 : UInt16).toNat (.ofPosition 0)) []) s :=
    Leads.loopStart (f := f) rfl rfl rfl rfl rfl rfl rfl Nat.one_pos
  have all := free_from isTable h [] old s.native.heap (by simpa using short)
  rw [List.nil_append, same] at all
  exact Ends.ofFinishes rfl rfl (starts.finishes all)

/-- All copies are freed. -/
theorem free_ends (short : old.length < 2 ^ 31) (distinct : (old.filter (· ≠ 0)).Nodup)
    (managed : ∀ a ∈ old, a ≠ 0 → s.native.heap.Manages a) :
    m.Ends ⟨helper, freeDef⟩ [.ref table] s (.ok none)
      (s.withTable table (List.replicate old.length 0)
        (s.native.heap.without (old.filter (· ≠ 0)))) := by
  have ends := free_clears isTable h short
  rwa [Heap.clear_managed distinct managed] at ends

end Free

end Helper

end LateBind

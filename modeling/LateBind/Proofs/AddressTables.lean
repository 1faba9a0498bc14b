import LateBind.Proofs.Memory
import LateBind.Proofs.StringArrays

/-! # Several tables

The strings of several arrays are copied one array after the other, each to a table of its own. What
was copied first stays where it is while the others are copied. -/

namespace LateBind

/-! ## Copies in memory -/

namespace Heap

variable {h : Heap} {start : UInt64} {bytes : Bytes} {c : Option Bytes} {copies : List (Option Bytes)}

/-- What was copied is at an address; what was not has none. -/
def HoldsCopy (h : Heap) : Option Bytes → UInt64 → Prop
  | none, a => a = 0
  | some bytes, a => h.Stores a bytes

theorem next_le_copy (h : Heap) (c : Option Bytes) : h.next ≤ (h.copy c).2.next := by
  cases c with
  | none => exact Nat.le_refl _
  | some bytes => exact Nat.le_trans (Nat.le_add_right _ _) (h.next_lt_add _).le

theorem next_le_copyAll (h : Heap) (copies : List (Option Bytes)) :
    h.next ≤ (h.copyAll copies).2.next := by
  induction copies generalizing h with
  | nil => exact Nat.le_refl _
  | cons c rest ih => exact Nat.le_trans (h.next_le_copy c) (ih (h.copy c).2)

theorem next_lt_of_copy {bytes : Bytes} (fits : (h.copy (some bytes)).2.next ≤ 2 ^ 64) :
    h.next < 2 ^ 64 :=
  Nat.lt_of_lt_of_le (Nat.lt_of_le_of_lt (Nat.le_add_right _ _) (h.next_lt_add _)) fits

theorem Stores.copy (stores : h.Stores start bytes) (fits : (h.copy c).2.next ≤ 2 ^ 64) :
    (h.copy c).2.Stores start bytes := by
  cases c with
  | none => exact stores
  | some data => exact stores.add (next_lt_of_copy fits) rfl

theorem Stores.copyAll (stores : h.Stores start bytes) (fits : (h.copyAll copies).2.next ≤ 2 ^ 64) :
    (h.copyAll copies).2.Stores start bytes := by
  induction copies generalizing h with
  | nil => exact stores
  | cons c rest ih =>
    exact ih (stores.copy (Nat.le_trans (next_le_copyAll _ rest) fits)) fits

theorem holdsCopy_copy (fits : (h.copy c).2.next ≤ 2 ^ 64) :
    (h.copy c).2.HoldsCopy c (h.copy c).1 := by
  cases c with
  | none => rfl
  | some bytes =>
    have stores : (h.copy (some bytes)).2.Stores h.nextAddress _ :=
      stores_add (next_lt_of_copy fits) rfl
    rwa [Block.bytes_ofBytes] at stores

theorem HoldsCopy.mono {h' : Heap} {a : UInt64} (holds : h.HoldsCopy c a)
    (kept : ∀ start bytes, h.Stores start bytes → h'.Stores start bytes) : h'.HoldsCopy c a := by
  cases c with
  | none => exact holds
  | some bytes => exact kept a bytes holds

/-- All copies are there in the end. -/
theorem holdsCopy_copyAll (fits : (h.copyAll copies).2.next ≤ 2 ^ 64) :
    List.Forall₂ (h.copyAll copies).2.HoldsCopy copies (h.copyAll copies).1 := by
  induction copies generalizing h with
  | nil => exact .nil
  | cons c rest ih =>
    have first := holdsCopy_copy (Nat.le_trans (next_le_copyAll (h.copy c).2 rest) fits)
    exact .cons (first.mono fun _ _ stores => stores.copyAll fits) (ih fits)

end Heap

/-! ## Tables -/

/-- An array of strings and the texts in it; null has none. -/
inductive MachineState.HasTexts (s : MachineState) : Value → List (Option Units) → Prop
  | null : s.HasTexts .null []
  | array {r : ObjRef} {items : Array Value} {texts : List (Option Units)}
      (isArray : s.objects[r.index]? = some (.array .string items))
      (has : List.Forall₂ s.HasText items.toList texts) : s.HasTexts (.ref r) texts

namespace MachineState

variable {s s' : MachineState} {v : Value} {texts : List (Option Units)}

theorem HasText.mono {text : Option Units} (has : s.HasText v text)
    (kept : ∀ (i : Nat) (units : Units), s.objects[i]? = some (.str units) →
      s'.objects[i]? = some (.str units)) : s'.HasText v text := by
  cases text with
  | none => exact has
  | some units =>
    obtain ⟨r, rfl, found⟩ := has
    exact ⟨r, rfl, kept _ _ found⟩

/-- Texts stay where they are as long as their objects do. -/
theorem HasTexts.mono (has : s.HasTexts v texts)
    (kept : ∀ (i : Nat) (o : Object), s.objects[i]? = some o → (∀ as, o ≠ .ofAddresses as) →
      s'.objects[i]? = some o) : s'.HasTexts v texts := by
  cases has with
  | null => exact .null
  | array isArray has =>
    refine .array (kept _ _ isArray (Object.strings_ne _)) (has.imp fun v text has => ?_)
    exact has.mono fun i units found => kept i _ found fun as same => by cases same

end MachineState

/-- A table for the copies of strings. -/
structure AddressTable where
  ref : ObjRef
  encoding : StringEncoding
  texts : List (Option Units)

namespace AddressTable

def copies (t : AddressTable) : List (Option Bytes) := t.encoding.copies t.texts

@[simp]
theorem length_copies (t : AddressTable) : t.copies.length = t.texts.length :=
  t.encoding.length_copies t.texts

/-- The addresses in a table are those of the copies. -/
structure Filled (t : AddressTable) (s : MachineState) (addresses : List UInt64) : Prop where
  isTable : s.objects[t.ref.index]? = some (.ofAddresses addresses)
  length : addresses.length = t.texts.length
  holds : s.native.heap.next ≤ 2 ^ 64 →
    List.Forall₂ s.native.heap.HoldsCopy t.copies addresses

end AddressTable

namespace MachineState

variable {s : MachineState} {t : AddressTable} {ts : List AddressTable}

/-- The state with the strings of one table copied. -/
def fill (s : MachineState) (t : AddressTable) : MachineState :=
  s.withCopies t.ref t.texts.length t.copies

/-- The state with the strings of all tables copied. -/
def fillAll (s : MachineState) (ts : List AddressTable) : MachineState := ts.foldl fill s

theorem fill_eq (s : MachineState) (t : AddressTable) : s.fill t =
    s.withTable t.ref (s.native.heap.copyAll t.copies).1 (s.native.heap.copyAll t.copies).2 := by
  have all : t.texts.length - t.copies.length = 0 := by simp
  simp only [fill, withCopies, all, List.replicate_zero, List.append_nil]

theorem heap_fill (s : MachineState) (t : AddressTable) :
    (s.fill t).native.heap = (s.native.heap.copyAll t.copies).2 := by
  rw [fill_eq]
  rfl

/-- Only tables and memory change. -/
theorem fillAll_eq (s : MachineState) (ts : List AddressTable) : s.fillAll ts =
    { s with
      native := { s.native with heap := (s.native.heap.copyAll (ts.flatMap AddressTable.copies)).2 }
      objects := (s.fillAll ts).objects } := by
  induction ts generalizing s with
  | nil => rfl
  | cons t ts ih =>
    have rest := ih (s.fill t)
    rw [heap_fill] at rest
    rw [List.flatMap_cons, Heap.copyAll_append]
    exact rest

theorem heap_fillAll (s : MachineState) (ts : List AddressTable) : (s.fillAll ts).native.heap =
    (s.native.heap.copyAll (ts.flatMap AddressTable.copies)).2 := by
  rw [fillAll_eq]

theorem object_fill {i : Nat} (other : t.ref.index ≠ i) :
    (s.fill t).objects[i]? = s.objects[i]? := by
  rw [fill_eq, withTable]
  exact Array.getElem?_setIfInBounds_ne other

theorem object_fillAll {i : Nat} (others : ∀ t ∈ ts, t.ref.index ≠ i) :
    (s.fillAll ts).objects[i]? = s.objects[i]? := by
  induction ts generalizing s with
  | nil => rfl
  | cons t ts ih =>
    obtain ⟨other, others⟩ := List.forall_mem_cons.mp others
    exact (ih others).trans (object_fill other)

theorem filled_fill {old : List UInt64}
    (isTable : s.objects[t.ref.index]? = some (.ofAddresses old)) :
    t.Filled (s.fill t) (s.native.heap.copyAll t.copies).1 := by
  rw [fill_eq]
  exact ⟨table_withTable isTable, by simp, Heap.holdsCopy_copyAll⟩

/-- Every table is filled, and what is in them is all that was copied. -/
theorem filled_fillAll (distinct : (ts.map fun t => t.ref.index).Nodup)
    (tables : ∀ t ∈ ts, ∃ old, s.objects[t.ref.index]? = some (.ofAddresses old)) :
    ∃ addresses, List.Forall₂ (fun t as => t.Filled (s.fillAll ts) as) ts addresses ∧
      addresses.flatten = (s.native.heap.copyAll (ts.flatMap AddressTable.copies)).1 := by
  induction ts generalizing s with
  | nil => exact ⟨[], .nil, rfl⟩
  | cons t ts ih =>
    obtain ⟨new, distinct⟩ := List.nodup_cons.mp distinct
    obtain ⟨⟨old, isTable⟩, tables⟩ := List.forall_mem_cons.mp tables
    have apart : ∀ t' ∈ ts, t'.ref.index ≠ t.ref.index := fun t' mem same =>
      new (List.mem_map.mpr ⟨t', mem, same⟩)
    obtain ⟨addresses, filled, all⟩ := ih (s := s.fill t) distinct fun t' mem => by
      rw [object_fill (apart t' mem).symm]
      exact tables t' mem
    have first := filled_fill isTable
    refine ⟨_ :: addresses, .cons ⟨?_, first.length, fun fits => ?_⟩ filled, ?_⟩
    · exact (object_fillAll apart).trans first.isTable
    · change ((s.fill t).fillAll ts).native.heap.next ≤ _ at fits
      change List.Forall₂ ((s.fill t).fillAll ts).native.heap.HoldsCopy _ _
      rw [heap_fillAll] at fits ⊢
      refine (first.holds (Nat.le_trans (Heap.next_le_copyAll _ _) fits)).imp fun c a holds => ?_
      exact holds.mono fun _ _ stores => stores.copyAll fits
    · rw [List.flatten_cons, all, heap_fill, List.flatMap_cons, Heap.copyAll_append]

end MachineState

end LateBind

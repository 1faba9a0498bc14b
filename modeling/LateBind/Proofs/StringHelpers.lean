import LateBind.Proofs.AnsiText
import LateBind.Proofs.StringArrays
import LateBind.Proofs.Widening

/-! # Strings in a bound module

The helper type of a module that was bound late has the methods that convert strings. One narrows a
string to bytes; two copy the strings of an array, each in its encoding, and one gives the copies
back. -/

namespace LateBind

open Machine

/-- Late binding leaves the helper type in the module. -/
theorem Module.hasHelper_of_bindLate {original : Module} {c : Config} {id : Uuid} {out : LateBound}
    (bindsLate : original.bindLate c id = .ok out)
    (eligible : original.eligibleStubs c.exclusions ≠ [])
    (framework : ∀ member : RuntimeMember, ∀ t ∈ out.module.types, t.name ≠ member.ref.owner)
    (w : World) : Machine.HasHelper ⟨out.module, w⟩ c.helperType c.loadFlags := by
  rcases bindLate_cases bindsLate with
    ⟨-, table, -⟩ | ⟨found, planned, bodies, helper, binds, -, eq⟩
  · obtain ⟨⟨l, info⟩, mem⟩ := List.exists_mem_of_ne_nil _ eligible
    obtain ⟨s, hs, -⟩ := exists_mem_stubs table mem
    cases hs
  · have widens := binds.widens id
    rw [← eq] at widens
    obtain ⟨types, widened, last⟩ := widens.types
    refine Helper.hasHelper_of_last last (fun t' ht' => ?_) framework
    obtain ⟨t, ht, h⟩ := List.exists_left_of_forall₂ widened ht'
    rw [h.name_eq]
    exact widens.other t ht

/-! ## Narrowing -/

/-- What an array holds that a string was narrowed to. -/
structure Units.NarrowedTo (units : Units) (items : Array Value) : Prop where
  size : items.size = units.length + 1
  low : ∀ (i : Nat) (unit : UInt16), units[i]? = some unit →
    items[i]? = some (.i32 (Int32.ofNat (unit.toNat % 256)))
  terminated : items[units.length]? = some (.i32 0)

theorem Units.narrowedTo_lowBytes (units : Units) : ∃ items,
    Object.ofBytes (Latin1.lowBytes units ++ [0]) = .array .u8 items ∧ units.NarrowedTo items := by
  refine ⟨_, rfl, by simp, fun i unit at_ => ?_, by simp [Latin1.lowBytes]⟩
  obtain ⟨inside, rfl⟩ := List.getElem?_eq_some_iff.mp at_
  simp [Latin1.lowBytes, List.getElem?_append_left, inside]

/-- In a module that was bound late, a string becomes a new array of the low bytes of its units with
a zero behind them, and null stays null. -/
theorem Module.narrows_of_bindLate {original : Module} {c : Config} {id : Uuid} {out : LateBound}
    (bindsLate : original.bindLate c id = .ok out)
    (eligible : original.eligibleStubs c.exclusions ≠ [])
    (framework : ∀ member : RuntimeMember, ∀ t ∈ out.module.types, t.name ≠ member.ref.owner)
    (w : World) : ∃ callee,
      out.module.resolveMethod? c.helperType (Helper.ansiBytes c.helperType).name
        (Helper.ansiBytes c.helperType).params = some callee ∧
      (∀ s, Machine.Ends ⟨out.module, w⟩ callee [.null] s (.ok (some .null)) s) ∧
      ∀ (s : MachineState) (r : ObjRef) (units : Units),
        s.objects[r.index]? = some (.str units) → units.length < 2 ^ 31 - 1 →
          ∃ items, units.NarrowedTo items ∧
            Machine.Ends ⟨out.module, w⟩ callee [.ref r] s
              (.ok (some (.ref ⟨s.objects.size⟩))) (s.withObject (.array .u8 items)) := by
  have h := hasHelper_of_bindLate bindsLate eligible framework w
  have member : Helper.ansiBytesDef ∈ Helper.methods c.helperType c.loadFlags :=
    List.mem_of_getElem? (i := 23) rfl
  refine ⟨_, h.resolves member, Helper.ansiBytes_ends_null, fun s r units text short => ?_⟩
  obtain ⟨items, bytes, narrowed⟩ := units.narrowedTo_lowBytes
  exact ⟨items, narrowed, bytes ▸ Helper.ansiBytes_ends h text short⟩

/-- The low byte of a heart is a small letter. -/
theorem Module.narrows_heart : ∃ out callee items,
    twins.bindLate Config.default Uuid.zero = .ok out ∧ Units.NarrowedTo [0x2665] items ∧
      items[0]? = some (.i32 0x65) ∧
      Machine.Ends ⟨out.module, .empty .linux⟩ callee [.ref ⟨0⟩] (.saying "♥")
        (.ok (some (.ref ⟨1⟩))) ((MachineState.saying "♥").withObject (.array .u8 items)) := by
  obtain ⟨out, ok, framework⟩ := exists_bound_twins
  obtain ⟨callee, -, -, narrows⟩ :=
    narrows_of_bindLate ok eligibleStubs_twins framework (.empty .linux)
  obtain ⟨items, narrowed, ends⟩ := narrows (.saying "♥") ⟨0⟩ [0x2665] rfl (by decide)
  exact ⟨out, callee, items, ok, narrowed, narrowed.low 0 0x2665 rfl, ends⟩

/-! ## Arrays of strings -/

/-- What giving copies back leaves of a heap that has them: the live blocks are those of before, and
each copy was freed once. -/
structure Heap.GivenBack (before : Heap) (addresses : List UInt64) (after : Heap) : Prop where
  blocks : after.blocks = before.blocks
  freed : after.freed = (addresses.filter (· ≠ 0)).reverse ++ before.freed
  hglobalFrees : after.hglobalFrees = before.hglobalFrees + (addresses.filter (· ≠ 0)).length

theorem Heap.HasCopies.givenBack {before after : Heap} {copies : List (Option Bytes)}
    {addresses : List UInt64} (has : before.HasCopies copies addresses after) :
    before.GivenBack addresses (after.without (addresses.filter (· ≠ 0))) :=
  ⟨has.blocks_without, congrArg (_ ++ ·) has.freed, congrArg (· + _) has.hglobalFrees⟩

/-- From a state the table is cleared and what was copied is given back; when the table is clear
there is nothing to do. -/
structure Machine.Frees (m : Machine) (callee : OwnedMethod) (table : ObjRef) (s : MachineState)
    (addresses : List UInt64) (filled : MachineState) (heap : Heap) : Prop where
  ends : m.Ends callee [.ref table] filled (.ok none) (s.withHeap heap)
  again : m.Ends callee [.ref table] (s.withHeap heap) (.ok none) (s.withHeap heap)
  givenBack : s.native.heap.GivenBack addresses heap

/-- Copies of the first strings are given back, also when the others were not copied. -/
theorem Helper.frees_copies {m : Machine} {helper : TypeName} {flags : Int32} {s : MachineState}
    {table : ObjRef} {copies : List (Option Bytes)} {addresses : List UInt64} {heap : Heap} {n : Nat}
    (h : m.HasHelper helper flags)
    (fresh : s.objects[table.index]? = some (.ofAddresses (List.replicate n 0)))
    (short : n < 2 ^ 31) (has : s.native.heap.HasCopies copies addresses heap)
    (few : addresses.length ≤ n) :
    ∃ heap', m.Frees ⟨helper, freeDef⟩ table s addresses
      (s.withTable table (addresses ++ List.replicate (n - addresses.length) 0) heap) heap' := by
  let table' : List UInt64 := addresses ++ List.replicate (n - addresses.length) 0
  let heap' : Heap := heap.without (addresses.filter (· ≠ 0))
  have size : table'.length = n := by
    rw [List.length_append, List.length_replicate]
    omega
  have live : table'.filter (· ≠ 0) = addresses.filter (· ≠ 0) := by simp [table']
  have managed : ∀ a ∈ table', a ≠ 0 → heap.Manages a := by
    intro a ha nonzero
    rcases List.mem_append.mp ha with ha | ha
    · exact has.exists_blockAt? a ha nonzero
    · exact absurd (List.eq_of_mem_replicate ha) nonzero
  have ends := free_ends (s := s.withTable table table' heap) (MachineState.table_withTable fresh) h
    (by omega) (live ▸ has.distinct) managed
  rw [size, live, MachineState.withTable_withTable, MachineState.withTable_same fresh] at ends
  have again : m.Ends ⟨helper, freeDef⟩ [.ref table] (s.withHeap heap') (.ok none) _ :=
    free_ends fresh h (by simpa using short) (by simp) fun a ha nonzero =>
      absurd (List.eq_of_mem_replicate ha) nonzero
  have none : (List.replicate n (0 : UInt64)).filter (· ≠ 0) = [] := by simp
  rw [List.length_replicate, none, Heap.without_nil,
    MachineState.withTable_same (s := s.withHeap heap') fresh] at again
  exact ⟨heap', ends, again, has.givenBack⟩

/-- One method copies the strings of an array to native memory and stores their addresses in a
table. Another one gives the copies back from there, and as well from any place that copying comes
by on the way. -/
structure Machine.CopiesAndFrees (m : Machine) (fill free : OwnedMethod) (encoding : StringEncoding)
    (strings table : ObjRef) (texts : List (Option Units)) (s : MachineState) : Prop where
  wholly : ∃ addresses heap heap', s.native.heap.HasCopies (encoding.copies texts) addresses heap ∧
    m.Ends fill [.ref strings, .ref table] s (.ok none) (s.withTable table addresses heap) ∧
    m.Frees free table s addresses (s.withTable table addresses heap) heap'
  partly : ∀ k ≤ texts.length, ∃ body f addresses heap heap', fill.method.body = some body ∧
    f.locals = [.ofPosition k] ∧
    s.native.heap.HasCopies ((encoding.copies texts).take k) addresses heap ∧
    m.Leads (.start m.module fill body [.ref strings, .ref table]) s f
      (s.withTable table (addresses ++ List.replicate (texts.length - k) 0) heap) ∧
    m.Frees free table s addresses
      (s.withTable table (addresses ++ List.replicate (texts.length - k) 0) heap) heap'

/-- A method frees the copies whose addresses are in a table, in their order, and clears the table,
whatever else has become of memory. Null has no copies. -/
structure Machine.Empties (m : Machine) (free : OwnedMethod) : Prop where
  table : ∀ (s : MachineState) (table : ObjRef) (addresses : List UInt64),
    s.objects[table.index]? = some (.ofAddresses addresses) → addresses.length < 2 ^ 31 →
    (addresses.filter (· ≠ 0)).Nodup → (∀ a ∈ addresses, a ≠ 0 → s.native.heap.Manages a) →
      m.Ends free [.ref table] s (.ok none)
        (s.withTable table (List.replicate addresses.length 0)
          (s.native.heap.without (addresses.filter (· ≠ 0))))
  null : ∀ s, m.Ends free [.null] s (.ok none) s

theorem Helper.empties {m : Machine} {helper : TypeName} {flags : Int32}
    (h : m.HasHelper helper flags) : m.Empties ⟨helper, freeDef⟩ where
  table _ _ _ isTable short distinct managed := free_ends isTable h short distinct managed
  null := free_ends_null

theorem Helper.copiesAndFrees {m : Machine} {helper : TypeName} {flags : Int32} {s : MachineState}
    {strings table : ObjRef} {encoding : StringEncoding} {items : Array Value}
    {texts : List (Option Units)} (h : m.HasHelper helper flags)
    (isArray : s.objects[strings.index]? = some (.array .string items))
    (has : List.Forall₂ s.HasText items.toList texts) (short : texts.length < 2 ^ 31)
    (fresh : s.objects[table.index]? = some (.ofAddresses (List.replicate texts.length 0)))
    (rises : s.native.heap.Rises)
    (room : s.native.heap.next + Heap.spaceFor (encoding.copies texts) ≤ 2 ^ 64) :
    m.CopiesAndFrees ⟨helper, fillDef encoding⟩ ⟨helper, freeDef⟩ encoding strings table texts s where
  wholly := by
    have fills := fill_ends encoding isArray fresh h has rfl short
    have copies := (Heap.hasCopies_copyAll rises room).1
    obtain ⟨heap', frees⟩ := frees_copies h fresh short copies (by simp)
    have all : texts.length - (encoding.copies texts).length = 0 := by simp
    rw [Heap.length_copyAll, all, List.replicate_zero, List.append_nil] at frees
    simp only [MachineState.withCopies, all, List.replicate_zero, List.append_nil] at fills
    exact ⟨_, _, heap', copies, fills, frees⟩
  partly k hk := by
    have leads := fill_to encoding isArray fresh h has rfl short hk
    rw [← List.take_append_drop k (encoding.copies texts), Heap.spaceFor_append] at room
    have fits : s.native.heap.next + Heap.spaceFor ((encoding.copies texts).take k) ≤ 2 ^ 64 := by omega
    have copies := (Heap.hasCopies_copyAll rises fits).1
    have count : ((encoding.copies texts).take k).length = k := by
      simp
      omega
    obtain ⟨heap', frees⟩ := frees_copies h fresh short copies (by simp)
    rw [Heap.length_copyAll, count] at frees
    simp only [MachineState.withCopies, count] at leads
    exact ⟨_, _, _, _, heap', rfl, rfl, copies, leads, frees⟩

/-- In a module that was bound late, the strings of an array are copied one after the other, each to
a new block of its own, and the copies made so far are given back, none of them twice. -/
theorem Module.stringArrays_of_bindLate {original : Module} {c : Config} {id : Uuid} {out : LateBound}
    (bindsLate : original.bindLate c id = .ok out)
    (eligible : original.eligibleStubs c.exclusions ≠ [])
    (framework : ∀ member : RuntimeMember, ∀ t ∈ out.module.types, t.name ≠ member.ref.owner)
    (w : World) (encoding : StringEncoding) {s : MachineState} {strings table : ObjRef}
    {items : Array Value} {texts : List (Option Units)}
    (isArray : s.objects[strings.index]? = some (.array .string items))
    (has : List.Forall₂ s.HasText items.toList texts) (short : texts.length < 2 ^ 31)
    (fresh : s.objects[table.index]? = some (.ofAddresses (List.replicate texts.length 0)))
    {calls : List Heap.Call} (within : Heap.empty.Addressable calls)
    (memory : (Heap.empty.run calls).2 = s.native.heap)
    (room : s.native.heap.next + Heap.spaceFor (encoding.copies texts) ≤ 2 ^ 64) :
    ∃ fill free,
      out.module.resolveMethod? c.helperType (Helper.fillAddresses c.helperType encoding).name
        (Helper.fillAddresses c.helperType encoding).params = some fill ∧
      out.module.resolveMethod? c.helperType (Helper.freeAddresses c.helperType).name
        (Helper.freeAddresses c.helperType).params = some free ∧
      Machine.CopiesAndFrees ⟨out.module, w⟩ fill free encoding strings table texts s ∧
      Machine.Empties ⟨out.module, w⟩ free := by
  have h := hasHelper_of_bindLate bindsLate eligible framework w
  have fills : Helper.fillDef encoding ∈ Helper.methods c.helperType c.loadFlags := by
    cases encoding with
    | ansi => exact List.mem_of_getElem? (i := 24) rfl
    | unicode => exact List.mem_of_getElem? (i := 25) rfl
  have frees : Helper.freeDef ∈ Helper.methods c.helperType c.loadFlags :=
    List.mem_of_getElem? (i := 26) rfl
  exact ⟨_, _, h.resolves fills, h.resolves frees,
    Helper.copiesAndFrees h isArray has short fresh (memory ▸ Heap.rises_run within) room,
    Helper.empties h⟩

/-- A session with one string in an array, null beside it, and a table for two addresses. -/
def MachineState.listing (text : String) : MachineState :=
  { MachineState.saying text with
    objects := #[.str (Units.ofString text), .array .string #[.ref ⟨0⟩, .null],
      .ofAddresses [0, 0]] }

theorem Module.stringArrays_cafe : ∃ out fill free,
    twins.bindLate Config.default Uuid.zero = .ok out ∧
      Machine.CopiesAndFrees ⟨out.module, .empty .linux⟩ fill free .unicode ⟨1⟩ ⟨2⟩
        [some (Units.ofString "café"), none] (.listing "café") := by
  obtain ⟨out, ok, framework⟩ := exists_bound_twins
  let s : MachineState := .listing "café"
  have isArray : s.objects[(⟨1⟩ : ObjRef).index]? = some (.array .string #[.ref ⟨0⟩, .null]) := rfl
  have has : List.Forall₂ s.HasText [.ref ⟨0⟩, .null] [some (Units.ofString "café"), none] :=
    .cons ⟨⟨0⟩, rfl, rfl⟩ (.cons rfl .nil)
  have fresh : s.objects[(⟨2⟩ : ObjRef).index]? = some (.ofAddresses (List.replicate 2 0)) := rfl
  have within : Heap.empty.Addressable [] := trivial
  obtain ⟨fill, free, -, -, copies, -⟩ := stringArrays_of_bindLate ok eligibleStubs_twins framework
    (.empty .linux) .unicode isArray has (by decide) fresh within rfl (by decide)
  exact ⟨out, fill, free, ok, copies⟩

end LateBind

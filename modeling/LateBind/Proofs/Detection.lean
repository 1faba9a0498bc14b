import LateBind.Proofs.Exits
import LateBind.Proofs.HelperType
import LateBind.Proofs.RuntimeCalls

/-! # Which system it is

The helper type asks the system for its name, and finds the number of the name in its table of
systems. -/

namespace LateBind

/-! ## The helper type of a machine -/

/-- The module has the helper type, and no type of its own stands for one of the framework. -/
structure Machine.HasHelper (m : Machine) (helper : TypeName) (flags : Int32) : Prop where
  own : m.module.ownType? helper =
    some ((Helper.emptyDef helper).extend [] (Helper.methods helper flags))
  framework : ∀ member : RuntimeMember, m.module.ownType? member.ref.owner = none

/-- No two methods of the helper type have one name. -/
theorem Helper.find?_methods {helper : TypeName} {flags : Int32} {method : MethodDef}
    (hm : method ∈ methods helper flags) {p : MethodDef → Bool} (own : p method)
    (only : ∀ other, p other → other.name = method.name) :
    (methods helper flags).find? p = some method := by
  have distinct : ((methods helper flags).map MethodDef.name).Nodup := by
    rw [methods_names]
    simp
  obtain ⟨i, hi, rfl⟩ := List.getElem_of_mem hm
  refine List.find?_eq_some_iff_getElem.mpr ⟨own, i, hi, rfl, fun j hj => ?_⟩
  have names := List.pairwise_iff_getElem.mp distinct j i (by simp; omega) (by simpa using hi) hj
  simp only [List.getElem_map] at names
  simpa using fun same => names (only _ same)

namespace Machine.HasHelper

variable {m : Machine} {helper : TypeName} {flags : Int32}

/-- A member of the helper type is found by its reference. -/
theorem resolves (h : m.HasHelper helper flags) {method : MethodDef}
    (hm : method ∈ Helper.methods helper flags) :
    m.module.resolveMethod? helper method.name method.paramTypes = some ⟨helper, method⟩ := by
  have found := Helper.find?_methods hm
    (p := fun other => other.name == method.name && other.paramTypes == method.paramTypes)
    (by simp) fun other same => by simp only [Bool.and_eq_true, beq_iff_eq] at same; exact same.1
  rw [Module.resolveMethod?, h.own]
  exact congrArg (Option.bind · fun method => some (⟨helper, method⟩ : OwnedMethod)) found

/-- A member of the helper type is found by its name alone. -/
theorem firstMethod? (h : m.HasHelper helper flags) {method : MethodDef}
    (hm : method ∈ Helper.methods helper flags) :
    m.module.firstMethod? helper method.name = some ⟨helper, method⟩ := by
  have found := Helper.find?_methods hm (p := fun other => other.name == method.name) (by simp)
    fun other same => by simpa using same
  rw [Module.firstMethod?, h.own]
  exact congrArg (Option.bind · fun method => some (⟨helper, method⟩ : OwnedMethod)) found

/-- A member of the framework is not one of the module. -/
theorem missing (h : m.HasHelper helper flags) (member : RuntimeMember) :
    m.module.resolveMethod? member.ref.owner member.ref.name member.ref.params = none := by
  rw [Module.resolveMethod?, h.framework]
  rfl

end Machine.HasHelper

namespace World

/-- The symbol of a library is at an address, where a function has the given body. -/
structure Exports (w : World) (library symbol : String) (body : NativeBody) (address : UInt64) :
    Prop where
  present : w.catalog.address? library symbol = some address
  finds : ∃ handle f, w.Finds library symbol handle address f ∧ f.body = body

theorem Provides.exports {w : World} {library symbol : String} {body : NativeBody}
    (provides : w.Provides library symbol body) (h : w.Consistent) (small : w.Small) :
    ∃ address, w.Exports library symbol body address := by
  obtain ⟨f, hf, present, isBody⟩ := provides
  obtain ⟨handle, f', finds⟩ := h.finds small present
  have found := finds.function?
  rw [h.function?_address small hf] at found
  cases found
  exact ⟨f.address, present, handle, f, finds, isBody⟩

end World

open Machine

namespace Helper

variable {m : Machine} {helper : TypeName} {flags : Int32} {s : MachineState} {address : UInt64}

/-! ## The name of the system -/

/-- The part of the name that the system's record has room for. -/
def reportedName (p : Platform) : Bytes := (Latin1.encode p.systemName).take p.unameSize

theorem zero_notMem_reportedName {p : Platform} (free : '\x00' ∉ p.systemName.toList) :
    0 ∉ reportedName p := by
  intro mem
  obtain ⟨c, hc, byte⟩ := List.mem_map.mp (List.mem_of_mem_take mem)
  have zero : c.toNat = 0 := by
    rw [Latin1.byteOfChar] at byte
    split at byte
    · next small =>
      have number := congrArg UInt8.toNat byte
      rw [UInt8.toNat_ofNat', Nat.mod_eq_of_lt (by omega)] at number
      exact number
    · exact absurd byte (by decide)
  rw [← Char.ofNat_toNat c, zero] at hc
  exact free hc

theorem unameSize_le (p : Platform) : p.unameSize ≤ 1280 := by
  unfold Platform.unameSize
  split <;> omega

variable {n : Nat}

/-- What the system writes into a buffer reads as its name. -/
theorem readByteString?_record {p : Platform} (free : '\x00' ∉ p.systemName.toList) {heap : Heap}
    {a : UInt64} (room : 1280 < n)
    (latest : heap.Latest a (SystemFunction.record p ++ (List.replicate n 0).drop p.unameSize)) :
    heap.readByteString? a = some (reportedName p) := by
  have size := unameSize_le p
  have short : (reportedName p).length ≤ p.unameSize := List.length_take_le _ _
  have zeros : SystemFunction.record p ++ (List.replicate n 0).drop p.unameSize =
      reportedName p ++ 0 :: List.replicate (n - 1 - (reportedName p).length) 0 := by
    rw [SystemFunction.record, List.drop_replicate, List.append_assoc, ← List.replicate_add,
      ← List.replicate_succ]
    change reportedName p ++ List.replicate (p.unameSize - (reportedName p).length + _) 0 = _
    exact congrArg (fun n => reportedName p ++ List.replicate n 0) (by omega)
  rw [zeros] at latest
  exact latest.readByteString? (zero_notMem_reportedName free)

theorem uname_ends (unpinned : s.pins = []) {a : UInt64} (room : 1280 < n)
    (latest : s.native.heap.Latest a (List.replicate n 0))
    (exports : m.world.Exports "libc" "uname" SystemFunction.uname address) :
    ∃ s', m.Ends ⟨helper, unameImport⟩ [.ptr a] s (.ok (some (.i32 0))) s' ∧
      s.Steady [address] [] s' ∧ s'.native.heap.Latest a
        (SystemFunction.record m.world.catalog.platform ++
          (List.replicate n 0).drop m.world.catalog.platform.unameSize) := by
  obtain ⟨handle, g, finds, body⟩ := exports.finds
  let called : NativeState := { s.native with calls := s.native.calls ++ [address] }
  have fits : m.world.catalog.platform.unameSize ≤ (List.replicate n (0 : UInt8)).length := by
    have := unameSize_le m.world.catalog.platform
    rw [List.length_replicate]
    omega
  obtain ⟨heap, after, writes⟩ := SystemFunction.uname_apply (p := called) latest fits
  have passes : m.passArguments .ansi unameImport [.ptr a] s = (.ok [(.ptr a, none)], s) := rfl
  have takes (s : MachineState) : m.takeResult .ansi .i32 (.i32 0) s =
      (.ok (some (.i32 0)), s) := rfl
  refine ⟨{ s with native := { called with heap } },
    Ends.ofScalarImport rfl finds unpinned passes rfl (fun call => ?_) takes,
    ⟨⟨fun _ _ => id, rfl, rfl, by simp [called]⟩, rfl⟩, after⟩
  rw [body]
  exact writes ⟨m.world.catalog, call⟩ rfl

def systemNameDef (helper : TypeName) : MethodDef :=
  .withBody .assembly "GetSystemName" [] .string (systemNameBody helper)

/-- A value that is a text; it may be null as well. -/
def IsText (s : MachineState) (units : Units) (v : Value) : Prop :=
  v = .null ∨ ∃ r, v = .ref r ∧ s.objects[r.index]? = some (.str units)

/-- The name is read from a buffer, which is then freed. The result is null only when the buffer
lies at zero. -/
theorem systemName_ends (h : m.HasHelper helper flags)
    (free : '\x00' ∉ m.world.catalog.platform.systemName.toList) (unpinned : s.pins = [])
    (exports : m.world.Exports "libc" "uname" SystemFunction.uname address) :
    ∃ v s', m.Ends ⟨helper, systemNameDef helper⟩ [] s (.ok (some v)) s' ∧
      s.Steady [address] [] s' ∧
      IsText s' (Latin1.units (reportedName m.world.catalog.platform)) v ∧
      (v = .null → s.native.heap.nextAddress = 0) := by
  let f : Frame := .start m.module ⟨helper, systemNameDef helper⟩ (systemNameBody helper) []
  let a := s.native.heap.nextAddress
  let size := unameBufferSize.toInt.toNat
  let s₁ : MachineState :=
    { s with
      native := { s.native with heap := (s.native.heap.alloc size .hglobal).2 } }
  have alloc : m.Leads (f.at 0 [.ptr 0, .null] []) s (f.at 3 [.ptr a, .null] []) s₁ := by
    refine (Leads.ldcI4 rfl).trans ?_
    refine (Leads.callRuntime [.i32 unameBufferSize] rfl rfl (h.missing .allocHGlobal) rfl
      (RuntimeMember.allocHGlobal_apply _)).trans ?_
    exact (Leads.stloc rfl (by simp)).trans (.refl _ _ _)
  obtain ⟨s₂, asked, steady, latest⟩ : ∃ s₂,
      m.Ends ⟨helper, unameImport⟩ [.ptr a] s₁ (.ok (some (.i32 0))) s₂ ∧ _ ∧ _ :=
    uname_ends (s := s₁) unpinned (by decide : 1280 < size) (Heap.latest_alloc _ _ _) exports
  have member : unameImport ∈ methods helper flags := List.mem_of_getElem? (i := 12) rfl
  have ask : m.Leads (f.at 3 [.ptr a, .null] []) s₁ (f.at 9 [.ptr a, .null] []) s₂ := by
    refine (Leads.ldloc rfl rfl).trans ?_
    refine (Leads.call [.ptr a] rfl rfl rfl (h.resolves member) asked).trans ?_
    exact Leads.brfalse rfl rfl rfl
  obtain ⟨v, s₃, reads, quiet, memory, text, null⟩ : ∃ v s₃,
      RuntimeMember.ptrToStringAnsi.call m.world.catalog.platform [.ptr a] s₂ =
        (.ok (some v), s₃) ∧ s₂.Steady [] [] s₃ ∧ s₃.native = s₂.native ∧
      IsText s₃ (Latin1.units (reportedName m.world.catalog.platform)) v ∧ (v = .null → a = 0) := by
    by_cases zero : a = 0
    · exact ⟨.null, s₂, by rw [zero]; exact RuntimeMember.ptrToStringAnsi_zero, .refl _, rfl,
        .inl rfl, fun _ => zero⟩
    · exact ⟨_, _, RuntimeMember.ptrToStringAnsi_apply zero
        (readByteString?_record free (by decide : 1280 < size) latest), .push _ _, rfl,
        .inr ⟨_, rfl, Array.getElem?_push_size⟩, fun null => nomatch null⟩
  rw [← memory] at latest
  obtain ⟨heap, frees⟩ := RuntimeMember.freeHGlobal_apply latest
  have read : m.Leads (f.at 9 [.ptr a, .null] []) s₂ (f.at 12 [.ptr a, v] []) s₃ := by
    refine (Leads.ldloc rfl rfl).trans ?_
    refine (Leads.callRuntime [.ptr a] rfl rfl (h.missing .ptrToStringAnsi) rfl reads).trans ?_
    exact (Leads.stloc rfl (by simp)).trans (.refl _ _ _)
  have handler : m.Leads (f.at 13 [.ptr a, v] []) s₃ (f.at 15 [.ptr a, v] [])
      { s₃ with native := { s₃.native with heap } } := by
    refine (Leads.ldloc rfl rfl).trans ?_
    exact (Leads.callRuntime [.ptr a] rfl rfl (h.missing .freeHGlobal) rfl frees).trans (.refl _ _ _)
  have done : m.Leads (f.at 12 [.ptr a, v] []) s₃ (f.at 17 [.ptr a, v] [v])
      { s₃ with native := { s₃.native with heap } } :=
    (Leads.leave rfl rfl rfl handler rfl).trans (Leads.ldloc rfl rfl)
  refine ⟨v, _, Ends.ofBody rfl rfl (alloc.trans (ask.trans (read.trans done))) rfl fun _ => rfl,
    ?_, text, null⟩
  exact (MachineState.Steady.memory s _).trans (steady.trans (quiet.trans (.memory s₃ heap)))

/-! ## The number of the system -/

def unixFlavorDef (helper : TypeName) : MethodDef :=
  .withBody .assembly "GetUnixFlavor" [] .i32 (unixFlavorBody helper)

/-- The helper type knows its platform's family, and which Unix it is if the number is not zero.
Nothing is pinned. -/
structure Ready (m : Machine) (helper : TypeName) (number : Nat) (s : MachineState) : Prop where
  pins : s.pins = []
  isUnix : s.Holds (isUnixField helper)
    (if m.world.catalog.platform.family = .unix then 1 else 0)
  unixFlavor : s.Holds (unixFlavorField helper) (UInt64.ofNat number)

theorem Ready.steady {number : Nat} {s' : MachineState} {calls : List UInt64}
    {loads : List LoadRequest} (ready : Ready m helper number s) (steady : s.Steady calls loads s') :
    Ready m helper number s' :=
  ⟨steady.pins.trans ready.pins, ready.isUnix.of_statics steady.statics,
    ready.unixFlavor.of_statics steady.statics⟩

section Matching

variable {j : Nat} {name : String} {flavor : UnixFlavor}

/-- Where the code compares with the name at a place of the table. -/
def matchStart (j : Nat) : Nat := 6 + 6 * j

/-- The code that compares with the name at a place of the table. -/
structure MatchCode (body : Body) (j : Nat) (name : String) : Prop where
  load : body.instrs[matchStart j]? = some (.ldloc 0)
  text : body.instrs[matchStart j + 1]? = some (.ldstr name)
  compare : body.instrs[matchStart j + 2]? = some (.call Framework.stringEquals)
  skip : body.instrs[matchStart j + 3]? = some (.brfalse ⟨UInt32.ofNat (2 + j)⟩)
  number : body.instrs[matchStart j + 4]? = some (.ldcI4 (Int32.ofNat (j + 1)))
  store : body.instrs[matchStart j + 5]? = some (.br ⟨1⟩)
  target : body.target? ⟨UInt32.ofNat (2 + j)⟩ = some (matchStart (j + 1))

theorem matchCode (helper : TypeName) (entry : systems[j]? = some (name, flavor)) :
    MatchCode (unixFlavorBody helper) j name := by
  match j, entry with
  | 0, rfl => exact ⟨rfl, rfl, rfl, rfl, rfl, rfl, rfl⟩
  | 1, rfl => exact ⟨rfl, rfl, rfl, rfl, rfl, rfl, rfl⟩
  | 2, rfl => exact ⟨rfl, rfl, rfl, rfl, rfl, rfl, rfl⟩
  | 3, rfl => exact ⟨rfl, rfl, rfl, rfl, rfl, rfl, rfl⟩

theorem IsText.steady {units : Units} {v : Value} {s' : MachineState} {calls : List UInt64}
    {loads : List LoadRequest} (text : IsText s units v) (steady : s.Steady calls loads s') :
    IsText s' units v := by
  rcases text with null | ⟨r, eq, found⟩
  · exact .inl null
  · exact .inr ⟨r, eq, steady.objects _ _ found⟩

variable {f : Frame} {units : Units} {v : Value}

/-- One comparison; null is no name. -/
theorem compares (h : m.HasHelper helper flags) (code : MatchCode f.body j name)
    (text : IsText s units v) : ∃ s', s.Steady [] [] s' ∧
      m.Leads (f.at (matchStart j) [v] []) s (f.at (matchStart j + 3) [v]
        [.ofBool (v ≠ .null && units == Units.ofString name)]) s' := by
  let s' : MachineState := { s with objects := s.objects.push (.str (Units.ofString name)) }
  refine ⟨s', .push _ _, ?_⟩
  have equals : RuntimeMember.stringEquals.call m.world.catalog.platform
      [v, .ref ⟨s.objects.size⟩] s' =
        (.ok (some (.ofBool (v ≠ .null && units == Units.ofString name))), s') := by
    rcases text.steady (.push s (.str (Units.ofString name))) with rfl | ⟨r, rfl, found⟩
    · rfl
    · have pushed : s'.objects[s.objects.size]? = some (.str (Units.ofString name)) :=
        Array.getElem?_push_size
      rw [decide_eq_true (by simp : Value.ref r ≠ .null), Bool.true_and]
      exact RuntimeMember.stringEquals_apply found pushed
  refine (Leads.ldloc code.load rfl).trans ((Leads.ldstr code.text).trans ?_)
  exact Leads.callRuntime [v, .ref ⟨s.objects.size⟩] code.compare rfl (h.missing .stringEquals) rfl
    equals

/-- A name that does not match is passed over. -/
theorem passesOver (h : m.HasHelper helper flags) (code : MatchCode f.body j name)
    (text : IsText s units v) (differs : units ≠ Units.ofString name) :
    ∃ s', s.Steady [] [] s' ∧
      m.Leads (f.at (matchStart j) [v] []) s (f.at (matchStart (j + 1)) [v] []) s' := by
  obtain ⟨s', steady, leads⟩ := compares h code text
  rw [beq_eq_false_iff_ne.mpr differs, Bool.and_false] at leads
  exact ⟨s', steady, leads.trans (Leads.brfalse code.skip code.target rfl)⟩

/-- The number of a name that matches goes on the stack. -/
theorem finds (h : m.HasHelper helper flags) (code : MatchCode f.body j name)
    (text : IsText s (Units.ofString name) v) (notNull : v ≠ .null) {place : Nat}
    (store : f.body.target? ⟨1⟩ = some place) :
    ∃ s', s.Steady [] [] s' ∧
      m.Leads (f.at (matchStart j) [v] []) s
        (f.at place [v] [.i32 (Int32.ofNat (j + 1))]) s' := by
  obtain ⟨s', steady, leads⟩ := compares h code text
  rw [decide_eq_true notNull, beq_self_eq_true] at leads
  refine ⟨s', steady, leads.trans ((Leads.brfalse_next code.skip rfl).trans ?_)⟩
  exact (Leads.ldcI4 code.number).trans (Leads.br code.store store)

/-- Names that do not match are passed over one after the other. -/
theorem passesOverAll (h : m.HasHelper helper flags) (text : IsText s units v)
    (code : ∀ i < j, ∃ name, MatchCode f.body i name ∧ units ≠ Units.ofString name) :
    ∃ s', s.Steady [] [] s' ∧
      m.Leads (f.at (matchStart 0) [v] []) s (f.at (matchStart j) [v] []) s' := by
  induction j with
  | zero => exact ⟨s, .refl s, .refl _ _ _⟩
  | succ j ih =>
    obtain ⟨s₁, steady₁, leads₁⟩ := ih fun i hi => code i (by omega)
    obtain ⟨name, here, differs⟩ := code j (by omega)
    obtain ⟨s₂, steady₂, leads₂⟩ := passesOver h here (text.steady steady₁) differs
    exact ⟨s₂, steady₁.trans steady₂, leads₁.trans leads₂⟩

end Matching

/-! ## Known and unknown systems -/

/-- A name without a question mark is told apart from all others, although a system may have a name
that is cut off or that has characters of more than a byte. -/
theorem units_reportedName_eq_iff {p : Platform} {name : String} (plain : Latin1.Plain name)
    (mark : '?' ∉ name.toList) (short : name.toList.length < p.unameSize) :
    Latin1.units (reportedName p) = Units.ofString name ↔ p.systemName = name := by
  rw [plain.ofString_eq]
  constructor
  · intro same
    have bytes : reportedName p = Latin1.encode name := Latin1.units_injective same
    have length := congrArg List.length bytes
    rw [reportedName, List.length_take, Latin1.encode, Latin1.encode, List.length_map,
      List.length_map] at length
    rw [reportedName, Latin1.encode, List.take_of_length_le (by rw [List.length_map]; omega),
      Latin1.encode] at bytes
    refine String.toList_inj.mp (List.ext_getElem (by omega) fun i hi hi' => ?_)
    have mem : name.toList[i] ∈ name.toList := List.getElem_mem hi'
    refine Latin1.byteOfChar_injective (plain _ mem).2 (fun eq => mark (eq ▸ mem)) ?_
    simpa [hi, hi'] using congrArg (·[i]?) bytes
  · rintro rfl
    rw [reportedName, List.take_of_length_le]
    rw [Latin1.encode, List.length_map]
    omega

/-- The names of the table are of this kind. -/
theorem units_reportedName_system {p : Platform} {entry : String × UnixFlavor}
    (mem : entry ∈ systems) :
    Latin1.units (reportedName p) = Units.ofString entry.1 ↔ p.systemName = entry.1 := by
  have names : ∀ entry ∈ systems, Latin1.Plain entry.1 ∧ '?' ∉ entry.1.toList ∧
      entry.1.toList.length < 390 := by decide
  obtain ⟨plain, mark, short⟩ := names entry mem
  refine units_reportedName_eq_iff plain mark ?_
  unfold Platform.unameSize
  split <;> omega

/-- The number as the code has it. -/
theorem Ready.loadFlavor {number : Nat} (ready : Ready m helper number s) (small : number < 2 ^ 32) :
    m.loadStatic (unixFlavorField helper) s = (.ok (.i32 (Int32.ofNat number)), s) := by
  rw [loadStatic_i32 ready.unixFlavor rfl, UInt64.toNat_ofNat', Nat.mod_eq_of_lt (a := number)
    (by omega), Nat.mod_eq_of_lt small]

theorem Ready.storeFlavor {number place : Nat} {entry : String × UnixFlavor}
    (ready : Ready m helper number s) (known : systems[place]? = some entry) :
    m.storeStatic (unixFlavorField helper) (.i32 (Int32.ofNat (place + 1))) s =
        (.ok (), s.setStatic (unixFlavorField helper) (UInt64.ofNat (place + 1))) ∧
      Ready m helper (place + 1)
        (s.setStatic (unixFlavorField helper) (UInt64.ofNat (place + 1))) := by
  have encodes : ∃ bytes, m.module.encode .i32 (.i32 (Int32.ofNat (place + 1))) = .ok bytes ∧
      bytes.toWord = UInt64.ofNat (place + 1) := by
    match place, known with
    | 0, _ => exact ⟨_, rfl, rfl⟩
    | 1, _ => exact ⟨_, rfl, rfl⟩
    | 2, _ => exact ⟨_, rfl, rfl⟩
    | 3, _ => exact ⟨_, rfl, rfl⟩
  obtain ⟨bytes, encodes, word⟩ := encodes
  refine ⟨by rw [storeStatic_apply ready.unixFlavor encodes, word], ready.pins, ?_,
    ready.unixFlavor.setStatic _⟩
  exact ready.isUnix.setStatic_of_ne (.inr (by simp [isUnixField, unixFlavorField])) _

/-- A number that is known is not looked for again. -/
theorem unixFlavor_remembers {place : Nat} {entry : String × UnixFlavor}
    (known : systems[place]? = some entry) (ready : Ready m helper (place + 1) s) :
    m.Ends ⟨helper, unixFlavorDef helper⟩ [] s (.ok (some (.i32 (Int32.ofNat (place + 1))))) s := by
  let f : Frame := .start m.module ⟨helper, unixFlavorDef helper⟩ (unixFlavorBody helper) []
  have small : place < 4 := (List.getElem?_eq_some_iff.mp known).1
  have nonzero : (Value.i32 (Int32.ofNat (place + 1))).isTrue = true := by
    match place, small with
    | 0, _ => rfl
    | 1, _ => rfl
    | 2, _ => rfl
    | 3, _ => rfl
  have leads : m.Leads (f.at 0 [.null] []) s
      (f.at 35 [.null] [.i32 (Int32.ofNat (place + 1))]) s :=
    (Leads.ldsfld rfl (ready.loadFlavor (by omega))).trans
      ((Leads.dup rfl).trans (Leads.brtrue rfl rfl nonzero))
  exact Ends.ofBody rfl rfl leads rfl fun _ => rfl

section First

variable (h : m.HasHelper helper flags)
  (free : '\x00' ∉ m.world.catalog.platform.systemName.toList)
  (exports : m.world.Exports "libc" "uname" SystemFunction.uname address)
  (ready : Ready m helper 0 s)

include h free exports ready

/-- While the number is zero the system is asked for its name. -/
theorem unixFlavor_asks : ∃ v s', s.Steady [address] [] s' ∧
    IsText s' (Latin1.units (reportedName m.world.catalog.platform)) v ∧
    (v = .null → s.native.heap.nextAddress = 0) ∧
    ∀ f : Frame, f.body = unixFlavorBody helper →
      m.Leads (f.at 0 [.null] []) s (f.at (matchStart 0) [v] []) s' := by
  obtain ⟨v, s', ends, steady, text, null⟩ := systemName_ends h free ready.pins exports
  refine ⟨v, s', steady, text, null, fun f body => ?_⟩
  have member : systemNameDef helper ∈ methods helper flags := List.mem_of_getElem? (i := 13) rfl
  refine (Leads.ldsfld (by rw [body]; rfl) (ready.loadFlavor (by decide))).trans ?_
  refine (Leads.dup (by rw [body]; rfl)).trans ?_
  refine (Leads.brtrue_next (l := ⟨0⟩) (by rw [body]; rfl) rfl).trans ?_
  refine (Leads.pop (by rw [body]; rfl)).trans ?_
  refine (Leads.call [] (by rw [body]; rfl) rfl rfl (h.resolves member) ends).trans ?_
  exact (Leads.stloc (by rw [body]; rfl) (by simp)).trans (.refl _ _ _)

/-- The number of a system of the table is found and remembered. -/
theorem unixFlavor_detects {place : Nat} {flavor : UnixFlavor}
    (known : systems[place]? = some (m.world.catalog.platform.systemName, flavor))
    (memory : s.native.heap.nextAddress ≠ 0) :
    ∃ s', m.Ends ⟨helper, unixFlavorDef helper⟩ [] s
        (.ok (some (.i32 (Int32.ofNat (place + 1))))) s' ∧
      s.Advance [address] [] s' ∧ Ready m helper (place + 1) s' := by
  let f : Frame := .start m.module ⟨helper, unixFlavorDef helper⟩ (unixFlavorBody helper) []
  obtain ⟨v, s₁, steady₁, text, null, asks⟩ := unixFlavor_asks h free exports ready
  have mem := List.mem_of_getElem? known
  have same := (units_reportedName_system (p := m.world.catalog.platform) mem).mpr rfl
  have earlier : ∀ i < place, ∃ name, MatchCode f.body i name ∧
      Latin1.units (reportedName m.world.catalog.platform) ≠ Units.ofString name := by
    intro i hi
    have inside := (List.getElem?_eq_some_iff.mp known).1
    have entry : systems[i]? = some systems[i] := List.getElem?_eq_getElem (by omega)
    refine ⟨systems[i].1, matchCode helper entry, fun equal => ?_⟩
    have distinct : (systems.map Prod.fst).Nodup := by decide
    have eq := (units_reportedName_system (List.getElem_mem _)).mp equal
    refine absurd ?_ (List.pairwise_iff_getElem.mp distinct i place (by simpa using by omega)
      (by simpa using inside) hi)
    simp [← eq, (List.getElem?_eq_some_iff.mp known).2]
  obtain ⟨s₂, steady₂, passes⟩ := passesOverAll h text earlier
  have text₂ := text.steady steady₂
  rw [same] at text₂
  obtain ⟨s₃, steady₃, finds⟩ := finds h (matchCode helper known) text₂
    (fun isNull => memory (null isNull)) (f := f) rfl
  have steady := steady₁.trans (steady₂.trans steady₃)
  obtain ⟨stores, after⟩ := (ready.steady steady).storeFlavor known
  have leads := (asks f rfl).trans (passes.trans (finds.trans
    ((Leads.dup rfl).trans (Leads.stsfld rfl stores))))
  refine ⟨_, Ends.ofBody rfl rfl leads rfl fun _ => rfl, ?_, after⟩
  exact steady.toAdvance.trans (.setStatic s₃ _ _)

/-- A system that the table does not have is not supported. -/
theorem unixFlavor_fails
    (unknown : m.world.catalog.platform.systemName ∉ systems.map Prod.fst) :
    ∃ r s', m.Ends ⟨helper, unixFlavorDef helper⟩ [] s (.error (.exception r)) s' ∧
      s'.objects[r.index]? = some (.exception "System.Exception" platformNotSupported) ∧
      s.Steady [address] [] s' := by
  let f : Frame := .start m.module ⟨helper, unixFlavorDef helper⟩ (unixFlavorBody helper) []
  obtain ⟨v, s₁, steady₁, text, -, asks⟩ := unixFlavor_asks h free exports ready
  have none : ∀ i < systems.length, ∃ name, MatchCode f.body i name ∧
      Latin1.units (reportedName m.world.catalog.platform) ≠ Units.ofString name := by
    intro i hi
    have entry : systems[i]? = some systems[i] := List.getElem?_eq_getElem hi
    refine ⟨systems[i].1, matchCode helper entry, fun equal => ?_⟩
    have eq := (units_reportedName_system (List.getElem_mem _)).mp equal
    exact unknown (List.mem_map.mpr ⟨_, List.getElem_mem _, eq.symm⟩)
  obtain ⟨s₂, steady₂, passes⟩ := passesOverAll h text none
  obtain ⟨r, s₃, throws, thrown, steady₃⟩ :
      ∃ r s₃, m.Throws (f.at (matchStart 4) [v] []) s₂ r s₃ ∧ _ ∧ _ := Throws.fixed rfl rfl rfl rfl
  exact ⟨r, s₃, Ends.ofThrows rfl rfl ((asks f rfl).throws (passes.throws throws)), thrown,
    steady₁.trans (steady₂.trans steady₃)⟩

end First

end Helper

end LateBind

import LateBind.Proofs.LoaderCalls
import Mathlib.Data.List.TakeWhile

/-! # Sequences of loader calls

On every platform, any sequence of calls of the methods that load, resolve and let go gets the
answers of the system's loader, each after one call of it. The system is asked which Unix it is
before the first answer only; a Unix that is not known is asked again each time. -/

namespace LateBind

open Machine

/-! ## The name of the helper type -/

theorem TypeName.parse_display {t : TypeName} (dotless : '.' ∉ t.name.toList) :
    parse t.display = t := by
  have undotted : ∀ c ∈ t.name.toList.reverse, decide (c ≠ '.') = true := by
    intro c hc
    rw [List.mem_reverse] at hc
    exact decide_eq_true fun same => dotless (same ▸ hc)
  unfold display
  split
  · next empty =>
    have none : t.name.toList.reverse.dropWhile (fun c => c ≠ '.') = [] :=
      List.dropWhile_eq_nil_iff.mpr undotted
    simp only [parse, none]
    rw [← String.isEmpty_iff.mp empty]
  · have chars : (t.space ++ "." ++ t.name).toList.reverse =
        t.name.toList.reverse ++ '.' :: t.space.toList.reverse := by
      simp [String.toList_append]
    have before : (t.space ++ "." ++ t.name).toList.reverse.dropWhile (fun c => c ≠ '.') =
        '.' :: t.space.toList.reverse := by
      rw [chars, List.dropWhile_append_of_pos undotted]
      rfl
    have after : (t.space ++ "." ++ t.name).toList.reverse.takeWhile (fun c => c ≠ '.') =
        t.name.toList.reverse := by
      rw [chars, List.takeWhile_append_of_pos undotted]
      simp
    simp only [parse, before, after, List.reverse_reverse, String.ofList_toList]

open Helper

/-- What an answer is to the outside. -/
def outcome : Except String Value → Except MachineError (Option Value)
  | .ok v => .ok (some v)
  | .error message => .error (.unhandled "System.Exception" message)

section Outside

variable {m : Machine} {helper : TypeName} {flags : Int32} {s : MachineState} {number : Nat}

/-- A call from outside gets the answer; there are no pins to free. -/
theorem Helper.Serves.call {method : MethodDef} {args : List Value} {answer : Except String Value}
    {calls : List UInt64} {loads : List LoadRequest}
    (served : Serves m helper method args s answer calls loads number) :
    ∃ enough s', (∀ fuel, enough ≤ fuel →
        m.call fuel ⟨helper, method⟩ args s = (outcome answer, s')) ∧
      s.Advance calls loads s' ∧ Ready m helper number s' := by
  obtain ⟨result, s', ⟨enough, go, -⟩, answers, advance, ready⟩ := served
  have freed : releasePins s' = (.ok (), s') := by
    obtain ⟨native, statics, objects, pins⟩ := s'
    obtain rfl : pins = [] := ready.pins
    rfl
  refine ⟨enough, s', fun fuel ample => ?_, advance, ready⟩
  rw [Machine.call, go fuel ample]
  simp only [freed]
  rcases result with (r | e) | v <;> rcases answer with message | w
  case ok.ok =>
    obtain rfl : v = some w := answers
    rfl
  case error.exception.error =>
    have found : s'.objects[r.index]? = some (.exception "System.Exception" message) := answers
    simp [outcome, unhandled, found]
  all_goals exact answers.elim

theorem LoaderCall.method_mem (call : LoaderCall) (helper : TypeName) (flags : Int32) :
    call.method helper flags ∈ methods helper flags ∧
      (call.method helper flags).name = call.methodName := by
  cases call with
  | load name => exact ⟨List.mem_of_getElem? (i := 20) rfl, rfl⟩
  | resolve handle symbol => exact ⟨List.mem_of_getElem? (i := 22) rfl, rfl⟩
  | release handle => exact ⟨List.mem_of_getElem? (i := 21) rfl, rfl⟩

theorem LoaderCall.perform_eq (h : m.HasHelper helper flags) (dotless : '.' ∉ helper.name.toList)
    (call : LoaderCall) (fuel : Nat) (s : MachineState) : call.perform m fuel helper s =
      m.call fuel ⟨helper, call.method helper flags⟩ (call.args ⟨s.objects.size⟩)
        (call.prepare s) := by
  obtain ⟨mem, name⟩ := call.method_mem helper flags
  have found := h.firstMethod? mem
  rw [name] at found
  rw [perform, callByName, TypeName.parse_display dotless, found]

end Outside

/-! ## Sequences -/

/-- A call of the loader, and whether a session begins with it. -/
structure SessionCall where
  begins : Bool
  call : LoaderCall

namespace SessionCall

def enter (c : SessionCall) (s : MachineState) : MachineState :=
  if c.begins then s.newSession else s

theorem ready_enter {m : Machine} {helper : TypeName} {number : Nat} {s : MachineState}
    (c : SessionCall) (ready : Ready m helper number s) : Ready m helper number (c.enter s) := by
  unfold enter
  split
  · exact ⟨rfl, ready.isUnix.of_statics rfl, ready.unixFlavor.of_statics rfl⟩
  · exact ready

theorem native_enter (c : SessionCall) (s : MachineState) : (c.enter s).native = s.native := by
  unfold enter
  split <;> rfl

end SessionCall

section Sequences

variable {m : Machine} {helper : TypeName} {flags : Int32} {s : MachineState} {number : Nat}
  {kind : LoaderKind} (loader : m.HasLoader kind) (h : m.HasHelper helper flags)
  (dotless : '.' ∉ helper.name.toList)
  (handles : ∀ name handle, m.world.catalog.handle? name = some handle → handle ≠ 0)

include loader h dotless handles

/-- One call gets its answer, and then the helper type knows the system if it can. -/
theorem Machine.HasLoader.performs (c : SessionCall) (plain : c.call.Plain)
    (ready : Ready m helper number s)
    (stage : number = kind.number ∨ number = 0 ∧ s.native.heap.nextAddress ≠ 0) :
    ∃ enough addresses s', (∀ fuel, enough ≤ fuel → c.call.perform m fuel helper (c.enter s) =
        (outcome (kind.answer m.world.catalog c.call), s')) ∧
      m.world.At (kind.functions number c.call) addresses ∧
      s'.native.calls = s.native.calls ++ addresses ∧
      s'.native.loads = s.native.loads ++ kind.requests flags c.call ∧
      Ready m helper kind.number s' := by
  have native := c.native_enter s
  obtain ⟨addresses, at_, served⟩ := loader.serves handles h (c.ready_enter ready) c.call plain
    (native ▸ stage)
  obtain ⟨enough, s', go, advance, ready'⟩ := served.call
  have prepared := (c.call.steady_prepare (c.enter s)).toAdvance.trans advance
  rw [List.nil_append, List.nil_append] at prepared
  refine ⟨enough, addresses, s', fun fuel ample => ?_, at_, ?_, ?_, ready'⟩
  · rw [c.call.perform_eq h dotless]
    exact go fuel ample
  · rw [prepared.calls, native]
  · rw [prepared.loads, native]

end Sequences

/-! ## Bound modules -/

theorem World.handle_ne_zero_of_build {p : Platform} {declared : List LibraryDecl}
    (small : (World.build p declared).Small) (name : String) (handle : UInt64)
    (found : (World.build p declared).catalog.handle? name = some handle) : handle ≠ 0 := by
  obtain ⟨l, known, rfl⟩ := Option.map_eq_some_iff.mp found
  exact (consistent_build p declared).handle_ne_zero small (List.mem_of_find?_eq_some known)

theorem Module.eligibleStubs_twins : twins.eligibleStubs Config.default.exclusions ≠ [] := by
  intro none
  have some : (twins.eligibleStubs Config.default.exclusions).isEmpty = false := by decide +kernel
  rw [none] at some
  cases some

/-- A module without code mentions no type. -/
theorem Module.spares_of_bodiless {m : Module}
    (bodiless : ∀ t ∈ m.types, ∀ method ∈ t.methods, method.body = none) (name : TypeName) :
    m.Spares name := by
  intro t ht method hm body isBody
  rw [bodiless t ht method hm] at isBody
  cases isBody

theorem Module.spares_twins : twins.Spares Config.default.helperType :=
  spares_of_bodiless (by decide) _

/-- A module without type initialisers of its own loads. -/
theorem Module.exists_load_twins {w : World} (lines : EndsLines w.catalog.platform) :
    ∃ out fuel s, twins.bindLate Config.default Uuid.zero = .ok out ∧
      (∀ member : RuntimeMember, ∀ t ∈ out.module.types, t.name ≠ member.ref.owner) ∧
      Machine.load ⟨out.module, w⟩ fuel = .ok s ∧ s.native = .start := by
  obtain ⟨out, ok⟩ := bindLate_twins
  have outline : ((twins.bindLate Config.default Uuid.zero).map fun out =>
      (out.module.types.map TypeDef.name, (initialisers out.module).length)).toOption =
        some ([⟨"A", "T"⟩, ⟨"A", "T"⟩, ⟨"", "PInvokeHelpers"⟩], 1) := by
    decide +kernel
  rw [ok] at outline
  obtain ⟨names, inits⟩ := Prod.mk.inj (Option.some.inj outline)
  have framework : ∀ member : RuntimeMember, ∀ t ∈ out.module.types,
      t.name ≠ member.ref.owner := by
    intro member t ht same
    have mem := List.mem_map_of_mem (f := TypeDef.name) ht
    rw [names, same] at mem
    cases member <;> exact absurd mem (by decide)
  let m : Machine := ⟨out.module, w⟩
  obtain ⟨types, bound⟩ : ∃ types, IsBound m types _ Config.default.loadFlags :=
    isBound_of_bindLate ok eligibleStubs_twins spares_twins framework rfl
  obtain ⟨before, eq, -⟩ := bound.initialisers_eq
  have alone : before = [] := by
    rw [eq, List.length_append] at inits
    exact List.length_eq_zero_iff.mp (by simpa using inits)
  rw [alone, List.nil_append] at eq
  obtain ⟨s, loaded, fresh, -⟩ := bound.load_isOk lines eq
  exact ⟨out, 7, s, ok, framework, loaded, fresh⟩

end LateBind

import LateBind.Proofs.LoaderSequences
import LateBind.Proofs.References

/-! # Filling the cells of a stub

The initializer of a stub loads the library unless that has been done, and then keeps the address of
the symbol. When the library or the symbol is missing it throws, and what it has got so far stays. -/

namespace LateBind

open Machine Exec

/-! ## Static fields of other types -/

/-- All static fields but those of one type have the words that they had. -/
def MachineState.SameBeside (helper : TypeName) (s s' : MachineState) : Prop :=
  ∀ owner name, owner ≠ helper → cell? s' owner name = cell? s owner name

namespace MachineState.SameBeside

variable {helper : TypeName} {s s' s'' : MachineState} {f : FieldRef} {w : UInt64}

theorem of_statics (same : s'.statics = s.statics) : s.SameBeside helper s' := by
  intro owner name _
  rw [cell?, cell?, same]

theorem symm (same : s.SameBeside helper s') : s'.SameBeside helper s :=
  fun owner name other => (same owner name other).symm

theorem trans (first : s.SameBeside helper s') (second : s'.SameBeside helper s'') :
    s.SameBeside helper s'' :=
  fun owner name other => (second owner name other).trans (first owner name other)

theorem holds_iff (same : s.SameBeside helper s') (other : f.owner ≠ helper) :
    s'.Holds f w ↔ s.Holds f w := by
  rw [Holds, Holds, same f.owner f.name other]

theorem setStatic (same : s.SameBeside helper s') (f : FieldRef) (w : UInt64) :
    (s.setStatic f w).SameBeside helper (s'.setStatic f w) := by
  intro owner name other
  rw [cell?_setStatic, cell?_setStatic, same owner name other]

theorem setStatic_own (own : f.owner = helper) (w : UInt64) :
    s.SameBeside helper (s.setStatic f w) := by
  intro owner name other
  exact cell?_setStatic_of_ne (.inl (own ▸ other))

/-- A word is written over itself. -/
theorem setStatic_same (holds : s.Holds f w) : s.SameBeside helper (s.setStatic f w) := by
  intro owner name _
  by_cases at_ : owner = f.owner ∧ name = f.name
  · obtain ⟨rfl, rfl⟩ := at_
    obtain ⟨c, found, -, rfl⟩ := holds
    rw [cell?_setStatic, found, Option.map_some]
    split <;> rfl
  · exact cell?_setStatic_of_ne (by simpa only [not_and_or] using at_)

end MachineState.SameBeside

namespace Helper

variable {m : Machine} {helper : TypeName} {flags : Int32} {s s₀ : MachineState}

theorem blind_sameBeside : Blind (s₀.SameBeside helper) := fun _ _ same _ h =>
  h.trans (.of_statics same)

/-- The code of the helper type writes only to its own fields. -/
theorem confines_sameBeside (h : m.HasHelper helper flags) :
    m.Confines m Starvation (Beside (s₀.SameBeside helper))
      (fun body _ => ∀ i ∈ body.instrs, Mentions helper flags i)
      (fun callee => ∃ method ∈ methods helper flags, callee = ⟨helper, method⟩) where
  alike := .refl m
  stable := blind_sameBeside.stable
  next inside _ := inside
  jump inside _ _ _ := inside
  handler inside _ := inside
  load _ _ := (keeps_loadStatic _).agree
  store inside code := by
    obtain ⟨field, -, rfl⟩ := inside _ (List.mem_of_getElem? code)
    exact fun v => (keeps_storeStatic
      (fun _ w same => same.trans (.setStatic_own (f := field.ref helper) rfl w)) v).agree
  indirect _ _ _ _ _ := Keeps.agree fun _ same => .inr (same.trans (.of_statics rfl))
  call inside code resolves := by
    refine ⟨resolves, ?_⟩
    obtain ⟨method, hm, rfl⟩ | ⟨member, rfl⟩ := inside _ (List.mem_of_getElem? code)
    · exact ⟨method, hm, Option.some.inj (resolves.symm.trans (h.resolves hm))⟩
    · cases (h.missing member).symm.trans resolves
  missing _ _ none := .inl none
  member _ _ _ _ _ := RuntimeMember.agree_call blind_sameBeside.stable blind_sameBeside.lenient _ _ _
  known := by
    rintro callee ⟨method, hm, rfl⟩
    cases isImport : method.importInfo with
    | none => exact .inr ⟨rfl, only_methods helper flags method hm⟩
    | some info =>
      exact .inl fun n args => (keeps_invoke_import_of_blind blind_sameBeside
        (fun _ _ _ _ same => .inr (same.trans (.of_statics rfl))) isImport n args).agree

/-- A method of the helper type that serves leaves the fields of other types alone. -/
theorem Serves.exists_sameBeside (h : m.HasHelper helper flags) {method : MethodDef}
    (hm : method ∈ methods helper flags) {args : List Value} {answer : Except String Value}
    {calls : List UInt64} {loads : List LoadRequest} {number : Nat}
    (served : Serves m helper method args s answer calls loads number) :
    ∃ result s', m.Ends ⟨helper, method⟩ args s result s' ∧ Answers s' result answer ∧
      s.Advance calls loads s' ∧ Ready m helper number s' ∧ s.SameBeside helper s' := by
  obtain ⟨result, s', ends, answers, advance, ready⟩ := served
  refine ⟨result, s', ends, answers, advance, ready, ?_⟩
  obtain ⟨enough, go, -⟩ := ends
  have keeps : Keeps Starvation (s.SameBeside helper) (m.invoke enough ⟨helper, method⟩ args) :=
    ((confines_sameBeside h).agree_invoke ⟨method, hm, rfl⟩ enough args).keeps
  have kept := keeps s (.of_statics rfl)
  rw [go enough (Nat.le_refl _)] at kept
  refine kept.resolve_left ?_
  rintro ⟨e, -, rfl⟩
  cases answer <;> exact answers

end Helper

theorem Helper.Ready.setStatic {m : Machine} {helper : TypeName} {number : Nat} {s : MachineState}
    (ready : Ready m helper number s) {f : FieldRef} (other : f.owner ≠ helper) (w : UInt64) :
    Ready m helper number (s.setStatic f w) where
  pins := ready.pins
  isUnix := ready.isUnix.setStatic_of_ne (.inl other.symm) w
  unixFlavor := ready.unixFlavor.setStatic_of_ne (.inl other.symm) w

/-! ## The initializer -/

open Helper

/-- An exception with a message was thrown. -/
def MachineState.Threw (s : MachineState) (r : Except Trap (Option Value)) (message : String) : Prop :=
  ∃ object, r = .error (.exception object) ∧
    s.objects[object.index]? = some (.exception "System.Exception" message)

theorem Helper.Answers.threw {s : MachineState} {r : Except Trap (Option Value)} {message : String}
    (answers : Answers s r (.error message)) : s.Threw r message := by
  cases r with
  | ok v => exact answers.elim
  | error t =>
    cases t with
    | exception object => exact ⟨object, rfl, answers⟩
    | fatal e => exact answers.elim

theorem Helper.Answers.eq_ok {s : MachineState} {r : Except Trap (Option Value)} {v : Value}
    (answers : Answers s r (.ok v)) : r = .ok (some v) := by
  cases r with
  | ok v' => exact congrArg Except.ok answers
  | error t => cases t <;> exact answers.elim

/-- What loads the library of a stub and finds its symbol is what was made for that. -/
structure Machine.LoadsStub (m : Machine) (c : Config) (owner : TypeName) (st : StubScaffold) :
    Prop where
  hasHelper : m.HasHelper c.helperType c.loadFlags
  fits : st.Fits owner
  library : st.library.Fits c owner
  other : owner ≠ c.helperType
  apart : st.cell.name ≠ st.library.cell.name
  loader : ∃ method, st.library.loaderDef c.helperType = .ok method ∧
    m.module.resolveMethod? st.library.loader.owner st.library.loader.name st.library.loader.params =
      some ⟨owner, method⟩
  initializer : ∃ method, st.initializerDef c.helperType = .ok method ∧
    m.module.resolveMethod? st.initializer.owner st.initializer.name st.initializer.params =
      some ⟨owner, method⟩

/-- How the loader of a library ends. -/
inductive Machine.LibraryLoaded (m : Machine) (helper : TypeName) (l : LibraryScaffold)
    (s : MachineState) : Except Trap (Option Value) → MachineState → Prop
  | missing {r : Except Trap (Option Value)} {s' : MachineState}
      (none : m.world.catalog.handle? l.loadName = none)
      (threw : s'.Threw r (loadFailed ++ l.loadName)) (same : s.SameBeside helper s') :
      LibraryLoaded m helper l s r s'
  | found {handle : UInt64} {s' : MachineState}
      (found : m.world.catalog.handle? l.loadName = some handle)
      (same : (s.setStatic l.cell handle).SameBeside helper s') :
      LibraryLoaded m helper l s (.ok none) s'

/-- How the initializer of a stub ends. -/
inductive Machine.Initialized (m : Machine) (helper : TypeName) (st : StubScaffold)
    (s : MachineState) : Except Trap (Option Value) → MachineState → Prop
  | noLibrary {r : Except Trap (Option Value)} {s' : MachineState}
      (none : m.world.catalog.handle? st.library.loadName = none)
      (threw : s'.Threw r (loadFailed ++ st.library.loadName)) (same : s.SameBeside helper s') :
      Initialized m helper st s r s'
  | noSymbol {handle : UInt64} {r : Except Trap (Option Value)} {s' : MachineState}
      (found : m.world.catalog.handle? st.library.loadName = some handle)
      (none : m.world.catalog.symbol handle st.stub.symbol = 0)
      (threw : s'.Threw r (resolveFailed ++ st.stub.symbol))
      (same : (s.setStatic st.library.cell handle).SameBeside helper s') :
      Initialized m helper st s r s'
  | done {handle address : UInt64} {s' : MachineState}
      (found : m.world.catalog.handle? st.library.loadName = some handle)
      (symbol : m.world.catalog.symbol handle st.stub.symbol = address) (some : address ≠ 0)
      (same : ((s.setStatic st.library.cell handle).setStatic st.cell address).SameBeside helper s') :
      Initialized m helper st s (.ok none) s'

/-- The calls of the system's loader for a stub whose library has been loaded or not. -/
def StubScaffold.loaderCalls (st : StubScaffold) (c : Catalog) (loaded : Bool) : List LoaderCall :=
  (if loaded then [] else [.load st.library.loadName]) ++
    ((c.handle? st.library.loadName).map fun handle => .resolve handle st.stub.symbol).toList

section Loading

variable {m : Machine} {c : Config} {owner : TypeName} {st : StubScaffold} {kind : LoaderKind}
  {number : Nat} {s : MachineState} {w : UInt64}
  (stub : m.LoadsStub c owner st) (loader : m.HasLoader kind) (supported : kind ≠ .unsupported)
  (handles : ∀ name handle, m.world.catalog.handle? name = some handle → handle ≠ 0)
  (ready : Ready m c.helperType number s)
  (stage : number = kind.number ∨ number = 0 ∧ s.native.heap.nextAddress ≠ 0)
  (cell : s.Holds st.library.cell w)

theorem LoaderKind.answer_of_supported {kind : LoaderKind} (supported : kind ≠ .unsupported)
    (c : Catalog) (call : LoaderCall) : kind.answer c call = call.answer c := by
  cases kind with
  | unsupported => exact absurd rfl supported
  | _ => rfl

include stub loader supported handles ready stage

/-- A call of the helper type from the code for a stub. -/
theorem Machine.LoadsStub.serves (call : LoaderCall) (plain : call.Plain) :
    ∃ addresses result s', m.world.At (kind.functions number call) addresses ∧
      m.Ends ⟨c.helperType, call.method c.helperType c.loadFlags⟩ (call.args ⟨s.objects.size⟩)
        (call.prepare s) result s' ∧ Answers s' result (call.answer m.world.catalog) ∧
      s.Advance addresses (kind.requests c.loadFlags call) s' ∧ Ready m c.helperType kind.number s' ∧
      s.SameBeside c.helperType s' := by
  obtain ⟨addresses, at_, served⟩ := loader.serves handles stub.hasHelper ready call plain stage
  obtain ⟨result, s', ends, answers, advance, ready', same⟩ :=
    served.exists_sameBeside stub.hasHelper (call.method_mem c.helperType c.loadFlags).1
  have prepared := call.steady_prepare s
  rw [LoaderKind.answer_of_supported supported] at answers
  exact ⟨addresses, result, s', at_, ends, answers, prepared.toAdvance.trans advance, ready',
    MachineState.SameBeside.trans (.of_statics prepared.statics) same⟩

/-- The loader of a library keeps the handle, or throws. -/
theorem Machine.LoadsStub.loader_ends (plain : Latin1.Plain st.library.loadName)
    (cell : s.Holds st.library.cell w) : ∃ callee addresses r s',
      m.module.resolveMethod? st.library.loader.owner st.library.loader.name
        st.library.loader.params = some callee ∧ m.Ends callee [] s r s' ∧
      m.world.At (kind.functions number (.load st.library.loadName)) addresses ∧
      s.Advance addresses (kind.requests c.loadFlags (.load st.library.loadName)) s' ∧
      Ready m c.helperType kind.number s' ∧ m.LibraryLoaded c.helperType st.library s r s' := by
  obtain ⟨method, made, resolves⟩ := stub.loader
  obtain ⟨k, eq⟩ := st.library.loaderDef_eq c.helperType
  cases made.symm.trans eq
  let call : LoaderCall := .load st.library.loadName
  obtain ⟨addresses, result, s₁, at_, ends, answers, advance, ready₁, same⟩ :=
    stub.serves loader supported handles ready stage call plain
  have resolves' := stub.hasHelper.resolves (call.method_mem c.helperType c.loadFlags).1
  let code : List Instr :=
    [.ldstr st.library.loadName, .call (loadLibrary c.helperType), .stsfld st.library.cell, .ret]
  let body : Body := ⟨[], code, [], [], true, k⟩
  let f : Frame := .start m.module ⟨owner, .withBody .priv st.library.loader.name [] .void body⟩ body []
  have text : m.Leads f s (f.at 1 [] [.ref ⟨s.objects.size⟩]) (call.prepare s) :=
    Leads.ldstr (f := f) rfl
  cases found : m.world.catalog.handle? st.library.loadName with
  | none =>
    have missing : call.answer m.world.catalog = .error (loadFailed ++ st.library.loadName) := by
      simp only [call, LoaderCall.answer, found]
    rw [missing] at answers
    obtain ⟨object, rfl, thrown⟩ := answers.threw
    have throws : m.Throws (f.at 1 [] [.ref ⟨s.objects.size⟩]) (call.prepare s) object s₁ :=
      Throws.call [.ref ⟨s.objects.size⟩] (f := f) rfl rfl rfl rfl resolves' ends
    exact ⟨_, addresses, _, s₁, resolves, Ends.ofThrows rfl rfl (text.throws throws), at_, advance,
      ready₁, .missing found ⟨object, rfl, thrown⟩ same⟩
  | some handle =>
    have present : call.answer m.world.catalog = .ok (.ptr handle) := by
      simp only [call, LoaderCall.answer, found]
    rw [present] at answers
    obtain rfl := answers.eq_ok
    have outside : st.library.cell.owner ≠ c.helperType := by
      rw [stub.library.cell]
      exact stub.other
    have type : st.library.cell.type = .intPtr := by rw [stub.library.cell]
    have calls : m.Leads (f.at 1 [] [.ref ⟨s.objects.size⟩]) (call.prepare s)
        (f.at 2 [] [.ptr handle]) s₁ :=
      Leads.call [.ref ⟨s.objects.size⟩] (f := f) rfl rfl rfl resolves' ends
    have stores : m.Leads (f.at 2 [] [.ptr handle]) s₁ (f.at 3 [] [])
        (s₁.setStatic st.library.cell handle) :=
      Leads.stsfld (f := f) rfl
        (storeStatic_intPtr ((same.holds_iff outside).mpr cell) type handle)
    have all := (text.trans calls).trans stores
    refine ⟨_, addresses, _, _, resolves, Ends.done rfl rfl rfl all rfl, at_, ?_,
      ready₁.setStatic outside handle, .found found (same.setStatic _ handle)⟩
    simpa using advance.trans (.setStatic s₁ st.library.cell handle)

/-- The code of an initializer. -/
def StubScaffold.initializerCode (st : StubScaffold) (helper : TypeName) : List Instr :=
  [.ldsfld st.library.cell, .brtrue ⟨0⟩, .call st.library.loader, .ldsfld st.library.cell,
    .ldstr st.stub.symbol, .call (getProcAddress helper), .stsfld st.cell, .ret]

/-- With the library loaded, the address of the symbol is kept, or an exception is thrown. -/
theorem Machine.LoadsStub.finds_symbol (plain : Latin1.Plain st.stub.symbol) {f : Frame}
    (code : f.body.instrs = st.initializerCode c.helperType) (regions : f.body.regions = [])
    (cell : s.Holds st.library.cell w) (address : ∃ w, s.Holds st.cell w) :
    ∃ addresses s', m.world.At (kind.functions number (.resolve w st.stub.symbol)) addresses ∧
      s.Advance addresses (kind.requests c.loadFlags (.resolve w st.stub.symbol)) s' ∧
      Ready m c.helperType kind.number s' ∧
      if m.world.catalog.symbol w st.stub.symbol = 0 then
        s.SameBeside c.helperType s' ∧ ∃ object, m.Throws (f.at 3 [] []) s object s' ∧
          s'.objects[object.index]? =
            some (.exception "System.Exception" (resolveFailed ++ st.stub.symbol))
      else m.Leads (f.at 3 [] []) s (f.at 7 [] []) s' ∧
        (s.setStatic st.cell (m.world.catalog.symbol w st.stub.symbol)).SameBeside c.helperType s' := by
  let call : LoaderCall := .resolve w st.stub.symbol
  obtain ⟨addresses, result, s₁, at_, ends, answers, advance, ready₁, same⟩ :=
    stub.serves loader supported handles ready stage call plain
  have resolves := stub.hasHelper.resolves (call.method_mem c.helperType c.loadFlags).1
  have libraryType : st.library.cell.type = .intPtr := by rw [stub.library.cell]
  have at' (p : Nat) {i : Instr} (found : (st.initializerCode c.helperType)[p]? = some i) :
      f.body.instrs[p]? = some i := by rw [code, found]
  have text : m.Leads (f.at 3 [] []) s (f.at 5 [] [.ref ⟨s.objects.size⟩, .ptr w]) (call.prepare s) :=
    (Leads.ldsfld (at' 3 rfl) (loadStatic_intPtr cell libraryType)).trans (Leads.ldstr (at' 4 rfl))
  have args : [Value.ref ⟨s.objects.size⟩, .ptr w] = (call.args ⟨s.objects.size⟩).reverse ++ [] := rfl
  rw [args] at text
  by_cases none : m.world.catalog.symbol w st.stub.symbol = 0
  · have missing : call.answer m.world.catalog = .error (resolveFailed ++ st.stub.symbol) := by
      simp only [call, LoaderCall.answer, none, if_true]
    rw [missing] at answers
    obtain ⟨object, rfl, thrown⟩ := answers.threw
    refine ⟨addresses, s₁, at_, advance, ready₁, ?_⟩
    rw [if_pos none]
    have outside : f.body.regionsAround 5 = [] := by rw [Body.regionsAround, regions, List.filter_nil]
    exact ⟨same, object,
      text.throws (Throws.call _ (at' 5 rfl) outside rfl rfl resolves ends), thrown⟩
  · have present : call.answer m.world.catalog =
        .ok (.ptr (m.world.catalog.symbol w st.stub.symbol)) := by
      simp only [call, LoaderCall.answer, none, if_false]
    rw [present] at answers
    obtain rfl := answers.eq_ok
    have outside : st.cell.owner ≠ c.helperType := by
      rw [stub.fits.cell]
      exact stub.other
    have type : st.cell.type = .intPtr := by rw [stub.fits.cell]
    obtain ⟨old, address⟩ := address
    let found := m.world.catalog.symbol w st.stub.symbol
    refine ⟨addresses, s₁.setStatic st.cell found, at_, ?_, ready₁.setStatic outside found, ?_⟩
    · simpa using advance.trans (.setStatic s₁ st.cell found)
    rw [if_neg none]
    exact ⟨(text.trans (Leads.call _ (at' 5 rfl) rfl rfl resolves ends)).trans
      (Leads.stsfld (at' 6 rfl) (storeStatic_intPtr ((same.holds_iff outside).mpr address) type _)),
      same.setStatic _ _⟩

/-- The initializer of a stub asks for the library unless there is a handle, and for the symbol once
there is one. -/
theorem Machine.LoadsStub.initializer_ends (plain : Latin1.Plain st.library.loadName)
    (plainSymbol : Latin1.Plain st.stub.symbol) (cell : s.Holds st.library.cell w)
    (right : w ≠ 0 → m.world.catalog.handle? st.library.loadName = some w)
    (address : ∃ w, s.Holds st.cell w) : ∃ callee addresses r s',
      m.module.resolveMethod? st.initializer.owner st.initializer.name st.initializer.params =
        some callee ∧ m.Ends callee [] s r s' ∧
      m.world.At (kind.trace number (st.loaderCalls m.world.catalog (w ≠ 0))) addresses ∧
      s.Advance addresses ((st.loaderCalls m.world.catalog (w ≠ 0)).flatMap
        (kind.requests c.loadFlags)) s' ∧
      Ready m c.helperType kind.number s' ∧ m.Initialized c.helperType st s r s' := by
  obtain ⟨method, made, resolves⟩ := stub.initializer
  have loaderRef : st.library.loader = .static owner st.library.loader.name [] .void :=
    stub.library.loader
  obtain ⟨k, eq⟩ := StubScaffold.initializerDef_eq c.helperType loaderRef
  cases made.symm.trans eq
  let body : Body := ⟨[], st.initializerCode c.helperType, [3], [], true, k⟩
  let f : Frame := .start m.module ⟨owner, .withBody .priv st.initializer.name [] .void body⟩ body []
  have type : st.library.cell.type = .intPtr := by rw [stub.library.cell]
  have other : st.library.cell.owner ≠ c.helperType := by
    rw [stub.library.cell]
    exact stub.other
  have tests : m.Leads f s (f.at 1 [] [.ptr w]) s :=
    Leads.ldsfld (f := f) rfl (loadStatic_intPtr cell type)
  have behind {number₁ : Nat} {handle : UInt64} {s₁ : MachineState}
      (found : m.world.catalog.handle? st.library.loadName = some handle)
      (arrives : m.Leads f s (f.at 3 [] []) s₁) (ready₁ : Ready m c.helperType number₁ s₁)
      (stage₁ : number₁ = kind.number ∨ number₁ = 0 ∧ s₁.native.heap.nextAddress ≠ 0)
      (same : (s.setStatic st.library.cell handle).SameBeside c.helperType s₁) :
      ∃ addresses r s', m.Ends ⟨owner, .withBody .priv st.initializer.name [] .void body⟩ [] s r s' ∧
        m.world.At (kind.functions number₁ (.resolve handle st.stub.symbol)) addresses ∧
        s₁.Advance addresses (kind.requests c.loadFlags (.resolve handle st.stub.symbol)) s' ∧
        Ready m c.helperType kind.number s' ∧ m.Initialized c.helperType st s r s' := by
    have cell₁ : s₁.Holds st.library.cell handle :=
      (same.holds_iff other).mpr (cell.setStatic handle)
    have address₁ : ∃ w, s₁.Holds st.cell w := by
      obtain ⟨old, holds⟩ := address
      refine ⟨old, (same.holds_iff ?_).mpr (holds.setStatic_of_ne (.inr stub.apart) handle)⟩
      rw [stub.fits.cell]
      exact stub.other
    obtain ⟨addresses, s', at_, advance, ready', ends⟩ := stub.finds_symbol loader supported handles
      ready₁ stage₁ plainSymbol (f := f) rfl rfl cell₁ address₁
    split at ends
    case isTrue none =>
      obtain ⟨same', object, throws, thrown⟩ := ends
      exact ⟨addresses, _, s', Ends.ofThrows rfl rfl (arrives.throws throws), at_, advance, ready',
        .noSymbol found none ⟨object, rfl, thrown⟩ (same.trans same')⟩
    case isFalse some =>
      obtain ⟨leads, same'⟩ := ends
      exact ⟨addresses, _, s', Ends.done rfl rfl rfl (arrives.trans leads) rfl, at_, advance,
        ready', .done found rfl some ((same.setStatic st.cell _).trans same')⟩
  by_cases loaded : w ≠ 0
  · have isTrue : (Value.ptr w).isTrue = true := by simpa [Value.isTrue] using loaded
    have found := right loaded
    obtain ⟨addresses, r, s', ends, at_, advance, ready', initialized⟩ :=
      behind found (tests.trans (Leads.brtrue (f := f) rfl rfl isTrue)) ready stage
        (MachineState.SameBeside.setStatic_same cell).symm
    refine ⟨_, addresses, r, s', resolves, ends, ?_, ?_, ready', initialized⟩
    · simpa [StubScaffold.loaderCalls, loaded, found, LoaderKind.trace] using at_
    · simpa [StubScaffold.loaderCalls, loaded, found] using advance
  · obtain rfl : w = 0 := not_not.mp loaded
    obtain ⟨callee, addresses, r, s₁, resolves₁, ends₁, at₁, advance₁, ready₁, loads⟩ :=
      stub.loader_ends loader supported handles ready stage plain cell
    have arrives : m.Leads f s (f.at 2 [] []) s :=
      tests.trans (Leads.brtrue_next (f := f) rfl rfl)
    have static : st.library.loader.hasThis = false := by rw [loaderRef]; rfl
    have none : st.library.loader.params = [] := by rw [loaderRef]; rfl
    cases loads with
    | missing missing threw same =>
      obtain ⟨object, rfl, thrown⟩ := threw
      have throws : m.Throws (f.at 2 [] []) s object s₁ :=
        Throws.call [] (f := f) rfl rfl static (by rw [none]; rfl) resolves₁ ends₁
      refine ⟨_, addresses, _, s₁, resolves, Ends.ofThrows rfl rfl (arrives.throws throws), ?_, ?_,
        ready₁, .noLibrary missing ⟨object, rfl, thrown⟩ same⟩
      · simpa [StubScaffold.loaderCalls, missing, LoaderKind.trace] using at₁
      · simpa [StubScaffold.loaderCalls, missing] using advance₁
    | found found same =>
      have loads : m.Leads (f.at 2 [] []) s (f.at 3 [] []) s₁ :=
        Leads.call [] (f := f) rfl static (by rw [none]; rfl) resolves₁ ends₁
      obtain ⟨addresses', r, s', ends, at_, advance, ready', initialized⟩ :=
        behind found (arrives.trans loads) ready₁ (.inl rfl) same
      refine ⟨_, addresses ++ addresses', r, s', resolves, ends, ?_, ?_, ready', initialized⟩
      · have both : m.world.At _ (addresses ++ addresses') := List.rel_append at₁ at_
        simpa [StubScaffold.loaderCalls, found, LoaderKind.trace] using both
      · simpa [StubScaffold.loaderCalls, found] using advance₁.trans advance

end Loading

end LateBind

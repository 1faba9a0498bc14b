import LateBind.Proofs.BoundCalls

/-! # Histories of bound stubs

Stubs of a bound module are called one after the other. A cell is empty until what it is for has been
found, and then it stays; so an existing library is opened once for each type that names it. -/

namespace LateBind

open Machine Exec

/-- One item more satisfies the second of two tests. -/
theorem List.countP_lt_countP {α : Type} {p q : α → Bool} {l : List α} (le : ∀ a ∈ l, p a → q a)
    {a : α} (ha : a ∈ l) (old : p a = false) (new : q a) : l.countP p < l.countP q := by
  induction l with
  | nil => cases ha
  | cons b l ih =>
    obtain ⟨le₁, le⟩ := List.forall_mem_cons.mp le
    have rest : l.countP p ≤ l.countP q := List.countP_mono_left le
    rw [List.countP_cons, List.countP_cons]
    rcases List.mem_cons.mp ha with rfl | ha
    · simp only [old, new, if_true, Bool.false_eq_true, if_false]
      omega
    · have more := ih le ha
      cases first : p b with
      | false =>
        simp only [Bool.false_eq_true, if_false]
        omega
      | true =>
        simp only [le₁ first, if_true]
        omega

/-! ## What cells may hold -/

/-- There is an address in the cell. -/
def MachineState.isSet (s : MachineState) (f : FieldRef) : Bool :=
  (cell? s f.owner f.name).any (·.word != 0)

theorem MachineState.Holds.isSet {s : MachineState} {f : FieldRef} {w : UInt64} (holds : s.Holds f w) :
    s.isSet f = (w != 0) := by
  obtain ⟨c, found, -, rfl⟩ := holds
  rw [MachineState.isSet, found, Option.any_some]

namespace Machine

variable {m : Machine} {c : Config} {kind : LoaderKind} {types : List TypeScaffold}
  {s s' s'' s₁ : MachineState}

/-- The symbol of a stub is in its library, at an address. -/
def AddressOf (m : Machine) (st : StubScaffold) (address : UInt64) : Prop :=
  ∃ handle, m.world.catalog.handle? st.library.loadName = some handle ∧
    m.world.catalog.symbol handle st.stub.symbol = address

/-- What a stub is called for is not there, and a message says so. -/
inductive Missing (m : Machine) (st : StubScaffold) : String → Prop
  | library (none : m.world.catalog.handle? st.library.loadName = none) :
      Missing m st (Helper.loadFailed ++ st.library.loadName)
  | symbol {handle : UInt64} (found : m.world.catalog.handle? st.library.loadName = some handle)
      (none : m.world.catalog.symbol handle st.stub.symbol = 0) :
      Missing m st (Helper.resolveFailed ++ st.stub.symbol)

/-- A machine can run the planned stubs: their code is there, the system's loader too, and their
cells are apart from each other and from the fields of the helper type. -/
structure Hosts (m : Machine) (c : Config) (kind : LoaderKind) (types : List TypeScaffold) : Prop where
  loader : m.HasLoader kind
  supported : kind ≠ .unsupported
  handles : ∀ name handle, m.world.catalog.handle? name = some handle → handle ≠ 0
  stub : ∀ planned ∈ types, ∀ st ∈ planned.stubs, st.library ∈ planned.libraries ∧
    ∃ callee, m.module.ownedAt? st.stub.handle = some callee ∧ m.HasBound c planned.owner st callee
  plain : ∀ planned ∈ types, ∀ st ∈ planned.stubs,
    Latin1.Plain st.library.loadName ∧ Latin1.Plain st.stub.symbol
  others : ∀ planned ∈ types, (∀ l ∈ planned.libraries, l.cell.owner ≠ c.helperType) ∧
    ∀ st ∈ planned.stubs, st.cell.owner ≠ c.helperType
  libraries : ∀ planned ∈ types, ∀ planned' ∈ types, ∀ l ∈ planned.libraries,
    ∀ l' ∈ planned'.libraries, l ≠ l' → l.cell.Apart l'.cell
  stubs : ∀ planned ∈ types, ∀ planned' ∈ types, ∀ st ∈ planned.stubs, ∀ st' ∈ planned'.stubs,
    st ≠ st' → st.cell.Apart st'.cell
  apart : ∀ planned ∈ types, ∀ planned' ∈ types, ∀ st ∈ planned.stubs, ∀ l ∈ planned'.libraries,
    st.cell.Apart l.cell

/-- Every cell is empty, or it holds what it is for. -/
structure Linked (m : Machine) (types : List TypeScaffold) (s : MachineState) : Prop where
  library : ∀ planned ∈ types, ∀ l ∈ planned.libraries, ∃ w, s.Holds l.cell w ∧
    (w ≠ 0 → m.world.catalog.handle? l.loadName = some w)
  stub : ∀ planned ∈ types, ∀ st ∈ planned.stubs, ∃ w, s.Holds st.cell w ∧
    (w ≠ 0 → m.AddressOf st w)

/-- How many library cells for a name are set. -/
def opened (types : List TypeScaffold) (s : MachineState) (name : String) : Nat :=
  (types.flatMap TypeScaffold.libraries).countP fun l => l.loadName == name && s.isSet l.cell

/-- Cells that are set stay as they are. -/
structure Extends (types : List TypeScaffold) (s s' : MachineState) : Prop where
  library : ∀ planned ∈ types, ∀ l ∈ planned.libraries, ∀ w, w ≠ 0 → s.Holds l.cell w →
    s'.Holds l.cell w
  stub : ∀ planned ∈ types, ∀ st ∈ planned.stubs, ∀ w, w ≠ 0 → s.Holds st.cell w →
    s'.Holds st.cell w

/-- An existing library is asked for only when one of its cells is set. -/
structure Evolves (m : Machine) (types : List TypeScaffold) (s s' : MachineState) : Prop
    extends Extends types s s' where
  loads : ∃ requests, s'.native.loads = s.native.loads ++ requests ∧
    ∀ name handle, m.world.catalog.handle? name = some handle →
      requests.countP (·.name == name) + opened types s name ≤ opened types s' name

theorem Extends.trans (first : Extends types s s') (second : Extends types s' s'') :
    Extends types s s'' where
  library planned hp l hl w some holds :=
    second.library planned hp l hl w some (first.library planned hp l hl w some holds)
  stub planned hp st hs w some holds :=
    second.stub planned hp st hs w some (first.stub planned hp st hs w some holds)

theorem Evolves.refl (s : MachineState) : m.Evolves types s s where
  library _ _ _ _ _ _ holds := holds
  stub _ _ _ _ _ _ holds := holds
  loads := ⟨[], (List.append_nil _).symm, fun _ _ _ => by simp⟩

theorem Evolves.trans (first : m.Evolves types s s') (second : m.Evolves types s' s'') :
    m.Evolves types s s'' where
  toExtends := first.toExtends.trans second.toExtends
  loads := by
    obtain ⟨requests, eq, few⟩ := first.loads
    obtain ⟨requests', eq', few'⟩ := second.loads
    refine ⟨requests ++ requests', by rw [eq', eq, List.append_assoc], fun name handle found => ?_⟩
    have before := few name handle found
    have behind := few' name handle found
    rw [List.countP_append]
    omega

section Opened

variable (linked : m.Linked types s) (extends_ : Extends types s s')

include linked extends_

theorem Extends.isSet {l : LibraryScaffold} (hl : l ∈ types.flatMap TypeScaffold.libraries)
    (set : s.isSet l.cell) : s'.isSet l.cell := by
  obtain ⟨planned, hp, hl⟩ := List.mem_flatMap.mp hl
  obtain ⟨w, holds, -⟩ := linked.library planned hp l hl
  rw [holds.isSet] at set
  rwa [(extends_.library planned hp l hl w (by simpa using set) holds).isSet]

theorem Extends.opened_le (name : String) : opened types s name ≤ opened types s' name := by
  refine List.countP_mono_left fun l hl set => ?_
  rw [Bool.and_eq_true] at set ⊢
  exact ⟨set.1, extends_.isSet linked hl set.2⟩

/-- A library that was not open is. -/
theorem Extends.opened_lt {planned : TypeScaffold} (hp : planned ∈ types) {l : LibraryScaffold}
    (hl : l ∈ planned.libraries) (empty : s.Holds l.cell 0) {w : UInt64} (nonzero : w ≠ 0)
    (holds : s'.Holds l.cell w) : opened types s l.loadName < opened types s' l.loadName := by
  refine List.countP_lt_countP (fun l' hl' set => ?_) (List.mem_flatMap.mpr ⟨planned, hp, hl⟩) ?_ ?_
  · rw [Bool.and_eq_true] at set ⊢
    exact ⟨set.1, extends_.isSet linked hl' set.2⟩
  · rw [empty.isSet]
    simp
  · rw [holds.isSet]
    simpa using nonzero

end Opened

theorem Linked.of_statics (linked : m.Linked types s) (same : s'.statics = s.statics) :
    m.Linked types s' where
  library planned hp l hl := by
    obtain ⟨w, holds, right⟩ := linked.library planned hp l hl
    exact ⟨w, holds.of_statics same, right⟩
  stub planned hp st hs := by
    obtain ⟨w, holds, right⟩ := linked.stub planned hp st hs
    exact ⟨w, holds.of_statics same, right⟩

theorem Evolves.of_sameCells (same : s.SameCells m.world kind s') : m.Evolves types s s' where
  library _ _ _ _ _ _ holds := holds.of_statics same.statics
  stub _ _ _ _ _ _ holds := holds.of_statics same.statics
  loads := ⟨[], by rw [same.loads, List.append_nil], fun name _ _ => by
    simp [opened, MachineState.isSet, cell?, same.statics]⟩

/-! ## Cells that are written -/

section Written

variable (hosts : m.Hosts c kind types) (linked : m.Linked types s) {planned : TypeScaffold}
  (hp : planned ∈ types)

include hosts linked

theorem Hosts.of_sameBeside (same : s.SameBeside c.helperType s') :
    m.Linked types s' ∧ Extends types s s' := by
  have library {planned l} (hp : planned ∈ types) (hl : l ∈ planned.libraries) :=
    (hosts.others planned hp).1 l hl
  have stub {planned st} (hp : planned ∈ types) (hs : st ∈ planned.stubs) :=
    (hosts.others planned hp).2 st hs
  refine ⟨⟨fun planned hp l hl => ?_, fun planned hp st hs => ?_⟩,
    fun planned hp l hl w _ holds => (same.holds_iff (library hp hl)).mpr holds,
    fun planned hp st hs w _ holds => (same.holds_iff (stub hp hs)).mpr holds⟩
  · obtain ⟨w, holds, right⟩ := linked.library planned hp l hl
    exact ⟨w, (same.holds_iff (library hp hl)).mpr holds, right⟩
  · obtain ⟨w, holds, right⟩ := linked.stub planned hp st hs
    exact ⟨w, (same.holds_iff (stub hp hs)).mpr holds, right⟩

include hp

/-- The handle of a library is kept. -/
theorem Hosts.of_library {l : LibraryScaffold} (hl : l ∈ planned.libraries) {handle : UInt64}
    (found : m.world.catalog.handle? l.loadName = some handle) :
    m.Linked types (s.setStatic l.cell handle) ∧ Extends types s (s.setStatic l.cell handle) := by
  have beside {planned' l'} (hp' : planned' ∈ types) (hl' : l' ∈ planned'.libraries)
      (other : l' ≠ l) := hosts.libraries planned' hp' planned hp l' hl' l hl other
  refine ⟨⟨fun planned' hp' l' hl' => ?_, fun planned' hp' st hs => ?_⟩,
    fun planned' hp' l' hl' w nonzero holds => ?_, fun planned' hp' st hs w _ holds =>
      holds.setStatic_of_ne (hosts.apart planned' hp' planned hp st hs l hl) handle⟩
  · obtain ⟨w, holds, right⟩ := linked.library planned' hp' l' hl'
    by_cases same : l' = l
    · exact ⟨handle, same ▸ holds.setStatic handle, fun _ => same ▸ found⟩
    · exact ⟨w, holds.setStatic_of_ne (beside hp' hl' same) handle, right⟩
  · obtain ⟨w, holds, right⟩ := linked.stub planned' hp' st hs
    exact ⟨w, holds.setStatic_of_ne (hosts.apart planned' hp' planned hp st hs l hl) handle, right⟩
  · by_cases same : l' = l
    · obtain ⟨w', holds', right⟩ := linked.library planned' hp' l' hl'
      cases holds.unique holds'
      have eq : handle = w := Option.some.inj (found.symm.trans (same ▸ right nonzero))
      exact eq ▸ same ▸ holds.setStatic handle
    · exact holds.setStatic_of_ne (beside hp' hl' same) handle

/-- The address of a symbol is kept. -/
theorem Hosts.of_stub {st : StubScaffold} (hs : st ∈ planned.stubs) {address : UInt64}
    (right : m.AddressOf st address) :
    m.Linked types (s.setStatic st.cell address) ∧ Extends types s (s.setStatic st.cell address) := by
  have beside {planned' st'} (hp' : planned' ∈ types) (hs' : st' ∈ planned'.stubs)
      (other : st' ≠ st) := hosts.stubs planned' hp' planned hp st' hs' st hs other
  refine ⟨⟨fun planned' hp' l hl => ?_, fun planned' hp' st' hs' => ?_⟩,
    fun planned' hp' l hl w _ holds =>
      holds.setStatic_of_ne (hosts.apart planned hp planned' hp' st hs l hl).symm address,
    fun planned' hp' st' hs' w nonzero holds => ?_⟩
  · obtain ⟨w, holds, right⟩ := linked.library planned' hp' l hl
    exact ⟨w, holds.setStatic_of_ne (hosts.apart planned hp planned' hp' st hs l hl).symm address,
      right⟩
  · obtain ⟨w, holds, right'⟩ := linked.stub planned' hp' st' hs'
    by_cases same : st' = st
    · exact ⟨address, same ▸ holds.setStatic address, fun _ => same ▸ right⟩
    · exact ⟨w, holds.setStatic_of_ne (beside hp' hs' same) address, right'⟩
  · by_cases same : st' = st
    · subst same
      obtain ⟨w', holds', right'⟩ := linked.stub planned' hp' st' hs'
      cases holds.unique holds'
      obtain ⟨handle, found, rfl⟩ := right
      obtain ⟨handle', found', rfl⟩ := right' nonzero
      cases found.symm.trans found'
      exact holds.setStatic _
    · exact holds.setStatic_of_ne (beside hp' hs' same) address

end Written

/-! ## The start of a call -/

/-- How a call of a stub starts: the stub gets an address, or it throws at once, telling what is not
there. -/
inductive Begins (m : Machine) (st : StubScaffold) (callee : OwnedMethod) (args : List Value)
    (s s' : MachineState) : Prop
  | ready {address : UInt64} (right : m.AddressOf st address) (nonzero : address ≠ 0)
      (readies : m.Readies st s address s')
  | fails {message : String} {object : ObjRef} (missing : m.Missing st message)
      (empty : s.Holds st.cell 0)
      (ends : m.Ends callee args s (.error (.exception object)) s')
      (told : s'.objects[object.index]? = some (.exception "System.Exception" message))

theorem Missing.unique {st : StubScaffold} {message message' : String}
    (missing : m.Missing st message) (missing' : m.Missing st message') : message = message' := by
  cases missing with
  | library none =>
    cases missing' with
    | library => rfl
    | symbol found => cases none.symm.trans found
  | symbol found =>
    cases missing' with
    | library none => cases none.symm.trans found
    | symbol => rfl

theorem Missing.not_addressOf {st : StubScaffold} {message : String} (missing : m.Missing st message)
    {address : UInt64} (nonzero : address ≠ 0) : ¬m.AddressOf st address := by
  rintro ⟨handle, found, symbol⟩
  cases missing with
  | library none => cases none.symm.trans found
  | symbol found' none =>
    cases found.symm.trans found'
    exact nonzero (symbol.symm.trans none)

/-- The helper type knows the system; if not, no stub has been bound, and there is memory for
asking. -/
def Staged (m : Machine) (c : Config) (kind : LoaderKind) (types : List TypeScaffold)
    (s : MachineState) : Prop :=
  ∃ number, Helper.Ready m c.helperType number s ∧ (number = kind.number ∨ number = 0 ∧
    s.native.heap.nextAddress ≠ 0 ∧
      ∀ planned ∈ types, ∀ st ∈ planned.stubs, s.Holds st.cell 0)

/-- What holds between calls. -/
structure Stands (m : Machine) (c : Config) (kind : LoaderKind) (types : List TypeScaffold)
    (s : MachineState) : Prop where
  linked : m.Linked types s
  staged : m.Staged c kind types s

/-- The system is asked for the library at most. -/
theorem requests_loaderCalls (supported : kind ≠ .unsupported) (st : StubScaffold) (catalog : Catalog)
    (loaded : Bool) (flags : Int32) : ∃ flags', (st.loaderCalls catalog loaded).flatMap
      (kind.requests flags) = if loaded then [] else [⟨st.library.loadName, flags'⟩] := by
  have resolve : ((catalog.handle? st.library.loadName).map fun handle =>
      LoaderCall.resolve handle st.stub.symbol).toList.flatMap (kind.requests flags) = [] := by
    cases catalog.handle? st.library.loadName <;> cases kind <;>
      simp [LoaderKind.requests, LoaderCall.requests]
  rw [StubScaffold.loaderCalls, List.flatMap_append, resolve, List.append_nil]
  cases kind with
  | unsupported => exact absurd rfl supported
  | unix => exact ⟨flags, by cases loaded <;> rfl⟩
  | windows => exact ⟨0, by cases loaded <;> rfl⟩

theorem call_of_starved {callee : OwnedMethod} {args : List Value} {fuel : Nat}
    (starved : Starved (m.invoke fuel callee args s)) :
    (m.call fuel callee args s).1 = .error .outOfFuel := by
  rcases invoked : m.invoke fuel callee args s with ⟨r, s₁⟩
  rw [invoked] at starved
  cases starved
  rw [call, invoked]
  rfl

/-- A call that ended had fuel. -/
theorem not_starved_of_call {callee : OwnedMethod} {args : List Value} {fuel : Nat}
    {result : Except MachineError (Option Value)}
    (called : m.call fuel callee args s = (result, s')) (ended : result ≠ .error .outOfFuel) :
    ¬Starved (m.invoke fuel callee args s) :=
  fun starved => ended (by rw [← call_of_starved starved, called])

section Calls

variable (hosts : m.Hosts c kind types) (stands : m.Stands c kind types s) {planned : TypeScaffold}
  (hp : planned ∈ types) {st : StubScaffold} (hs : st ∈ planned.stubs) {callee : OwnedMethod}

include hosts hp hs

/-- The initializer sets the cells of the library and of the stub, or leaves them. -/
theorem Hosts.initialized (linked : m.Linked types s) {w : UInt64} (cell : s.Holds st.library.cell w)
    {r : Except Trap (Option Value)} (initialized : m.Initialized c.helperType st s r s')
    (loads : s'.native.loads = s.native.loads ++
      (st.loaderCalls m.world.catalog (w ≠ 0)).flatMap (kind.requests c.loadFlags)) :
    m.Linked types s' ∧ m.Evolves types s s' := by
  obtain ⟨hl, -⟩ := hosts.stub planned hp st hs
  -- unless the library is missing, its cell is set behind the initializer
  have cells : m.Linked types s' ∧ Extends types s s' ∧
      ∀ handle, m.world.catalog.handle? st.library.loadName = some handle →
        s'.Holds st.library.cell handle := by
    have other := (hosts.others planned hp).1 st.library hl
    cases initialized with
    | noLibrary none _ same =>
      obtain ⟨linked', extends_⟩ := hosts.of_sameBeside linked same
      exact ⟨linked', extends_, fun handle found => by cases none.symm.trans found⟩
    | noSymbol found _ _ same =>
      obtain ⟨linked₁, extends₁⟩ := hosts.of_library linked hp hl found
      obtain ⟨linked', extends_⟩ := hosts.of_sameBeside linked₁ same
      refine ⟨linked', extends₁.trans extends_, fun handle found' => ?_⟩
      cases found.symm.trans found'
      exact (same.holds_iff other).mpr (cell.setStatic _)
    | done found symbol _ same =>
      obtain ⟨linked₁, extends₁⟩ := hosts.of_library linked hp hl found
      obtain ⟨linked₂, extends₂⟩ := hosts.of_stub linked₁ hp hs ⟨_, found, symbol⟩
      obtain ⟨linked', extends_⟩ := hosts.of_sameBeside linked₂ same
      refine ⟨linked', (extends₁.trans extends₂).trans extends_, fun handle found' => ?_⟩
      cases found.symm.trans found'
      refine (same.holds_iff other).mpr ((cell.setStatic _).setStatic_of_ne ?_ _)
      exact (hosts.apart planned hp planned hp st hs st.library hl).symm
  obtain ⟨linked', extends_, set⟩ := cells
  refine ⟨linked', extends_, _, loads, fun name handle found => ?_⟩
  have le := extends_.opened_le linked name
  obtain ⟨flags, requests⟩ := requests_loaderCalls hosts.supported st m.world.catalog (w ≠ 0)
    c.loadFlags
  rw [requests]
  by_cases open_ : w = 0
  · subst open_
    by_cases same : st.library.loadName = name
    · subst same
      have lt := extends_.opened_lt linked hp hl cell (hosts.handles _ _ found) (set handle found)
      simp
      omega
    · simpa [same] using le
  · simpa [open_] using le

include stands

/-- A stub gets its address, or it tells what is not there; only the system's loader is asked for
that. -/
theorem Hosts.begins (at_ : m.module.ownedAt? st.stub.handle = some callee) (args : List Value) :
    ∃ s₁, m.Begins st callee args s s₁ ∧ m.Linked types s₁ ∧ m.Evolves types s s₁ ∧
      Helper.Ready m c.helperType kind.number s₁ ∧
      (∀ (i : Nat) (o : Object), s.objects[i]? = some o → s₁.objects[i]? = some o) ∧
      ∃ asks, s₁.native.calls = s.native.calls ++ asks ∧ ∀ a ∈ asks, m.world.Asks kind a := by
  have linked := stands.linked
  obtain ⟨number, ready, stage⟩ := stands.staged
  obtain ⟨w, holds, right⟩ := linked.stub planned hp st hs
  obtain ⟨hl, callee', at', bound⟩ := hosts.stub planned hp st hs
  obtain rfl : callee' = callee := Option.some.inj (at'.symm.trans at_)
  by_cases empty : w = 0
  · subst empty
    obtain ⟨handle, cell, known⟩ := linked.library planned hp st.library hl
    obtain ⟨plain, plainSymbol⟩ := hosts.plain planned hp st hs
    obtain ⟨initializer, asks, r, s₁, resolves, ends, traced, advance, ready₁, initialized⟩ :=
      bound.loads.initializer_ends hosts.loader hosts.supported hosts.handles ready
        (stage.imp_right fun asleep => ⟨asleep.1, asleep.2.1⟩) plain plainSymbol cell known ⟨0, holds⟩
    obtain ⟨linked₁, evolves⟩ := hosts.initialized hp hs linked cell initialized advance.loads
    refine ⟨s₁, ?_, linked₁, evolves, ready₁, advance.objects, asks, advance.calls, traced.asks⟩
    cases initialized with
    | noLibrary none threw =>
      obtain ⟨object, rfl, told⟩ := threw
      exact .fails (.library none) holds (bound.runs.fails holds resolves ends) told
    | noSymbol found none threw =>
      obtain ⟨object, rfl, told⟩ := threw
      exact .fails (.symbol found none) holds (bound.runs.fails holds resolves ends) told
    | done found symbol nonzero same =>
      refine .ready ⟨_, found, symbol⟩ nonzero (.loads holds resolves ends ?_)
      have apart := hosts.apart planned hp planned hp st hs st.library hl
      exact (same.holds_iff ((hosts.others planned hp).2 st hs)).mpr
        ((holds.setStatic_of_ne apart _).setStatic _)
  · refine ⟨s, .ready (right empty) empty (.bound holds empty), linked, .refl s, ?_, fun _ _ => id,
      [], (List.append_nil _).symm, List.forall_mem_nil _⟩
    obtain rfl | ⟨-, -, unbound⟩ := stage
    · exact ready
    · exact absurd (holds.unique (unbound planned hp st hs)) empty

/-- A stub whose library or symbol is missing tells so. -/
theorem Hosts.misses (at_ : m.module.ownedAt? st.stub.handle = some callee) {message : String}
    (missing : m.Missing st message) (args : List Value) : ∃ enough s',
      (∀ fuel, enough ≤ fuel → m.call fuel callee args s =
        (.error (.unhandled "System.Exception" message), s')) ∧
      ∀ fuel, fuel < enough → (m.call fuel callee args s).1 = .error .outOfFuel := by
  obtain ⟨s₁, begins, -, -, ready, -⟩ := hosts.begins stands hp hs at_ args
  cases begins with
  | ready right nonzero => exact absurd right (missing.not_addressOf nonzero)
  | fails missing' _ ends told =>
    cases missing.unique missing'
    obtain ⟨enough, go, starve⟩ := ends
    refine ⟨enough, s₁, fun fuel ample => ?_, fun fuel short => call_of_starved (starve fuel short)⟩
    simp only [call, go fuel ample, releasePins_of_nil ready.pins, unhandled, told]

/-- When a call of a stub has ended, another one can begin. -/
theorem Hosts.stands_call (at_ : m.module.ownedAt? st.stub.handle = some callee) {args : List Value}
    (takes : List.Forall₂ (ParamSlot.Takes m.module s) st.stub.params args) {fuel : Nat}
    {result : Except MachineError (Option Value)} (called : m.call fuel callee args s = (result, s'))
    (ended : result ≠ .error .outOfFuel) : m.Stands c kind types s' := by
  obtain ⟨s₁, begins, linked₁, -, ready, kept, -⟩ := hosts.begins stands hp hs at_ args
  have runs := not_starved_of_call called ended
  have returned : (releasePins (m.invoke fuel callee args s).2).2 = s' := by rw [← snd_call, called]
  have rests : s'.statics = s₁.statics → m.Stands c kind types s' := fun same =>
    ⟨linked₁.of_statics same, kind.number, ⟨returned ▸ pins_releasePins _, ready.isUnix.of_statics same,
      ready.unixFlavor.of_statics same⟩, .inl rfl⟩
  have released : (m.invoke fuel callee args s).2.SameCells m.world kind s' :=
    returned ▸ .releasePins _
  refine rests (released.statics.trans ?_)
  cases begins with
  | ready right nonzero readies =>
    obtain ⟨-, callee', at', bound⟩ := hosts.stub planned hp st hs
    obtain rfl : callee' = callee := Option.some.inj (at'.symm.trans at_)
    have takes₁ := takes.imp fun _ _ takes => takes.mono kept
    exact (bound.runs.statics readies takes₁ fuel).resolve_left runs
  | fails missing empty ends _ =>
    obtain ⟨enough, go, starve⟩ := ends
    rw [go fuel (Nat.not_lt.mp fun short => runs (starve fuel short))]

/-- What a call of a stub that ended has done: cells are right and those that were set are kept, and
the system's loader is not asked for a stub that has its address. -/
theorem Hosts.calls (at_ : m.module.ownedAt? st.stub.handle = some callee) {args : List Value}
    (quiet : ∀ address, m.AddressOf st address → m.world.Quiet kind address)
    (takes : List.Forall₂ (ParamSlot.Takes m.module s) st.stub.params args) {fuel : Nat}
    {result : Except MachineError (Option Value)} (called : m.call fuel callee args s = (result, s'))
    (ended : result ≠ .error .outOfFuel) :
    m.Stands c kind types s' ∧ m.Evolves types s s' ∧
      ∀ w, w ≠ 0 → s.Holds st.cell w → s.SameCells m.world kind s' := by
  refine ⟨hosts.stands_call stands hp hs at_ takes called ended, ?_⟩
  obtain ⟨s₁, begins, -, evolves, ready, kept, -⟩ := hosts.begins stands hp hs at_ args
  have runs := not_starved_of_call called ended
  cases begins with
  | @ready address right nonzero readies =>
    obtain ⟨-, callee', at', bound⟩ := hosts.stub planned hp st hs
    obtain rfl : callee' = callee := Option.some.inj (at'.symm.trans at_)
    have returned : (releasePins (m.invoke fuel callee' args s).2).2 = s' := by rw [← snd_call, called]
    have same : s₁.SameCells m.world kind s' := returned ▸ ((bound.runs.sameCells (quiet address right)
      readies (takes.imp fun _ _ takes => takes.mono kept) fuel).resolve_left runs).trans
        (.releasePins _)
    refine ⟨evolves.trans (.of_sameCells same), fun w nonzero holds => ?_⟩
    cases readies with
    | bound => exact same
    | loads empty => exact absurd (holds.unique empty) nonzero
  | fails missing empty ends _ =>
    obtain ⟨enough, go, starve⟩ := ends
    have invoked := go fuel (Nat.not_lt.mp fun short => runs (starve fuel short))
    have stays : s' = s₁ := by
      have returned : (releasePins (m.invoke fuel callee args s).2).2 = s' := by rw [← snd_call, called]
      rw [← returned, invoked, releasePins_of_nil ready.pins]
    subst stays
    exact ⟨evolves, fun w nonzero holds => absurd (holds.unique empty) nonzero⟩

end Calls

/-! ## Calls one after another -/

/-- A planned stub is called, with arguments that it takes, and the call ends. -/
structure CallsStub (m : Machine) (types : List TypeScaffold) (st : StubScaffold) (args : List Value)
    (s : MachineState) (result : Except MachineError (Option Value)) (s' : MachineState) : Prop where
  planned : st ∈ types.flatMap TypeScaffold.stubs
  takes : List.Forall₂ (ParamSlot.Takes m.module s) st.stub.params args
  called : ∃ callee fuel, m.module.ownedAt? st.stub.handle = some callee ∧
    m.call fuel callee args s = (result, s')
  ended : result ≠ .error .outOfFuel

/-- Planned stubs are called one after another, whatever comes of each call. Before each of them there
may be new objects, and a new session. -/
inductive CallsStubs (m : Machine) (types : List TypeScaffold) (s : MachineState) : MachineState → Prop
  | none : CallsStubs m types s s
  | call {s₁ s₂ : MachineState} {objects : Array Object} {st : StubScaffold} {args : List Value}
      {result : Except MachineError (Option Value)} (before : CallsStubs m types s s₁)
      (one : m.CallsStub types st args { s₁ with objects } result s₂) : CallsStubs m types s s₂

theorem CallsStubs.eq_of_nil (calls : m.CallsStubs [] s s') : s' = s := by
  cases calls with
  | none => rfl
  | call _ one => exact absurd one.planned List.not_mem_nil

theorem Stands.objects (stands : m.Stands c kind types s) (objects : Array Object) :
    m.Stands c kind types { s with objects } := by
  obtain ⟨linked, number, ready, stage⟩ := stands
  refine ⟨linked.of_statics rfl, number, ⟨ready.pins, ready.isUnix.of_statics rfl,
    ready.unixFlavor.of_statics rfl⟩, stage.imp_right fun asleep => ⟨asleep.1, asleep.2.1, ?_⟩⟩
  exact fun planned hp st hs => (asleep.2.2 planned hp st hs).of_statics rfl

/-- After any number of calls the next one can begin. -/
theorem Hosts.stands_callsStubs (hosts : m.Hosts c kind types) (stands : m.Stands c kind types s)
    (calls : m.CallsStubs types s s') : m.Stands c kind types s' := by
  induction calls with
  | none => exact stands
  | @call s₁ s₂ objects st args result _ one ih =>
    obtain ⟨planned, hp, hs⟩ := List.mem_flatMap.mp one.planned
    obtain ⟨callee, fuel, at_, called⟩ := one.called
    exact hosts.stands_call (ih.objects objects) hp hs at_ one.takes called one.ended

section Histories

variable (hosts : m.Hosts c kind types) (stands : m.Stands c kind types s)
  (quiet : ∀ st ∈ types.flatMap TypeScaffold.stubs, ∀ address, m.AddressOf st address →
    m.world.Quiet kind address)

include hosts stands quiet

theorem Hosts.callsStub {st : StubScaffold} {args : List Value}
    {result : Except MachineError (Option Value)} (one : m.CallsStub types st args s result s') :
    m.Stands c kind types s' ∧ m.Evolves types s s' ∧
      ∀ w, w ≠ 0 → s.Holds st.cell w → s.SameCells m.world kind s' := by
  obtain ⟨planned, hp, hs⟩ := List.mem_flatMap.mp one.planned
  obtain ⟨callee, fuel, at_, called⟩ := one.called
  exact hosts.calls stands hp hs at_ (quiet st one.planned) one.takes called one.ended

/-- What holds between calls holds after any number of them. -/
theorem Hosts.callsStubs (calls : m.CallsStubs types s s') :
    m.Stands c kind types s' ∧ m.Evolves types s s' := by
  induction calls with
  | none => exact ⟨stands, .refl s⟩
  | @call s₁ s₂ objects st args result _ one ih =>
    obtain ⟨stands₁, evolves⟩ := ih
    obtain ⟨stands₂, evolves₂, -⟩ := hosts.callsStub (stands₁.objects objects) quiet one
    have same : s₁.SameCells m.world kind { s₁ with objects } := .of_eq rfl rfl rfl
    exact ⟨stands₂, (evolves.trans (.of_sameCells same)).trans evolves₂⟩

end Histories

end Machine

end LateBind

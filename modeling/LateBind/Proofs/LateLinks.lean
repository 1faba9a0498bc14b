import LateBind.Proofs.StubHistories

/-! # Linking of stubs that were bound late

In a machine that was loaded without a call of a stub, the cells of libraries and stubs are empty until
they are needed, and then they hold what the system's loader answers. -/

namespace LateBind

open Machine Helper

/-- A machine on a platform with a loader runs a module that was bound late by a plan. -/
structure Deployed (original : Module) (c : Config) (p : Platform) (declared : List LibraryDecl)
    (types : List TypeScaffold) (m : Machine) : Prop where
  bindsLate : ∃ id out, original.bindLate c id = .ok out ∧ m.module = out.module
  plan : ∃ found, original.importTable c.exclusions = .ok found ∧
    original.planTypes c found = .ok types
  unique : (original.types.map TypeDef.name).Nodup
  spares : original.Spares c.helperType
  framework : ∀ member : RuntimeMember, ∀ t ∈ m.module.types, t.name ≠ member.ref.owner
  built : m.world = .build p declared
  known : p.IsUnixOrWindows
  supported : p.loaderKind ≠ .unsupported
  free : ∀ d ∈ declared, ∀ e ∈ d.exports, e ∉ p.exports
  small : m.world.Small
  plain : ∀ st ∈ types.flatMap TypeScaffold.stubs,
    Latin1.Plain st.library.loadName ∧ Latin1.Plain st.stub.symbol
  few : ∀ st ∈ types.flatMap TypeScaffold.stubs, st.stub.params.length < 30000

/-- The machine has been loaded, and there is memory left. For loading none of the stubs was called:
their cells and those of the libraries are empty. -/
structure Launched (original : Module) (c : Config) (p : Platform) (declared : List LibraryDecl)
    (types : List TypeScaffold) (m : Machine) (s : MachineState) : Prop
    extends Deployed original c p declared types m where
  loaded : ∃ fuel, m.load fuel = .ok s
  memory : s.native.heap.nextAddress ≠ 0
  libraries : ∀ l ∈ types.flatMap TypeScaffold.libraries, s.Holds l.cell 0
  stubs : ∀ st ∈ types.flatMap TypeScaffold.stubs, s.Holds st.cell 0

/-- A field that is alone with its name is there after loading, and zero. -/
theorem Module.holds_of_fieldsFor {m : Module} {f : FieldRef} {d : FieldDef}
    (only : m.fieldsFor f = [d]) (isStatic : d.isStatic) (type : d.type = f.type)
    (scalar : isScalar m d.type) {s : MachineState} (fresh : s.statics = staticCells m) :
    s.Holds f 0 := by
  have found {d' : FieldDef} : d' ∈ m.fieldsFor f ↔
      ∃ t ∈ m.types, t.name = f.owner ∧ d' ∈ t.fields ∧ d'.name = f.name := by
    simp only [fieldsFor, List.mem_flatMap, List.mem_filter, beq_iff_eq, and_assoc]
  obtain ⟨t, ht, owner, hd, name⟩ := found.mp (only ▸ List.mem_singleton_self d)
  have holds : s.Holds ⟨t.name, d.name, d.type⟩ 0 := by
    refine holds_staticCells ht hd isStatic scalar (fun t' ht' owner' d' hd' name' => ?_) fresh
    have mem := found.mpr ⟨t', ht', owner'.trans owner, hd', name'.trans name⟩
    rw [only] at mem
    rw [List.mem_singleton.mp mem]
  rwa [owner, name, type] at holds

namespace Deployed

variable {original : Module} {c : Config} {p : Platform} {declared : List LibraryDecl}
  {types : List TypeScaffold} {m : Machine} (deployed : Deployed original c p declared types m)

include deployed

/-- Unless nothing was planned, the module was bound by the plan. -/
theorem binds : types = [] ∨ (∃ before, IsBound m before c.helperType c.loadFlags) ∧
    ∃ id found bodies helper, original.Binds c found types bodies helper ∧
      m.module = original.boundLate c types bodies helper id := by
  obtain ⟨id, out, bindsLate, same⟩ := deployed.bindsLate
  obtain ⟨found, table, plan⟩ := deployed.plan
  rcases Module.bindLate_cases bindsLate with
    ⟨-, none, -⟩ | ⟨found', types', bodies, helper, binds, some, eq⟩
  · cases none.symm.trans table
    cases plan
    exact .inl rfl
  · cases table.symm.trans binds.table
    cases plan.symm.trans binds.plan
    have eligible : original.eligibleStubs c.exclusions ≠ [] := fun none =>
      some ((Module.eligibleStubs_eq_nil_iff table).mp none)
    exact .inr ⟨Module.isBound_of_bindLate bindsLate eligible deployed.spares
      (same ▸ deployed.framework) same, id, found, bodies, helper, binds, same.trans eq⟩

theorem lines : EndsLines m.world.catalog.platform := by
  rw [Machine.platform_of_build deployed.built]
  exact deployed.known.endsLines

/-- A module without type initialisers of its own is loaded, and no stub is called for that. -/
theorem exists_launched (some : types ≠ []) (alone : (initialisers m.module).length = 1) :
    ∃ s, m.load 7 = .ok s ∧ Launched original c p declared types m s ∧ s.native = .start := by
  obtain ⟨⟨before, bound⟩, id, found, bodies, helper, binds, eq⟩ := deployed.binds.resolve_left some
  obtain ⟨inits, split, -⟩ := bound.initialisers_eq
  have none : inits = [] := by
    rw [split, List.length_append] at alone
    exact List.length_eq_zero_iff.mp (by simpa using alone)
  rw [none, List.nil_append] at split
  obtain ⟨s, loaded, native, beside⟩ := bound.load_isOk deployed.lines split
  have zero {cell : FieldRef} (type : cell.type = .intPtr) (other : cell.owner ≠ c.helperType)
      (only : m.module.fieldsFor cell = [TypeScaffold.addressCell cell]) : s.Holds cell 0 := by
    have holds : (⟨.start, staticCells m.module, #[], []⟩ : MachineState).Holds cell 0 :=
      Module.holds_of_fieldsFor only rfl rfl (by rw [TypeScaffold.addressCell, type]; rfl) rfl
    obtain ⟨cell', found, rest⟩ := holds
    exact ⟨cell', (beside _ _ other).trans found, rest⟩
  refine ⟨s, loaded, ⟨deployed, ⟨7, loaded⟩, by rw [native]; decide, fun l mem => ?_,
    fun st mem => ?_⟩, native⟩
  · obtain ⟨planned, hp, hl⟩ := List.mem_flatMap.mp mem
    obtain ⟨t, imports, other, fits⟩ := binds.fits_of_mem hp
    have has := (binds.hasLibrary deployed.unique id hp hl).cell
    rw [← eq] at has
    have cell := (fits.library l hl).cell
    exact zero (by rw [cell]) (by rw [cell]; exact other) has
  · obtain ⟨planned, hp, hs⟩ := List.mem_flatMap.mp mem
    obtain ⟨t, imports, other, fits⟩ := binds.fits_of_mem hp
    have has := (binds.hasStub deployed.unique id hp hs).cell
    rw [← eq] at has
    have cell := (fits.stub st hs).1.cell
    exact zero (by rw [cell]) (by rw [cell]; exact other) has

end Deployed

namespace Launched

variable {original : Module} {c : Config} {p : Platform} {declared : List LibraryDecl}
  {types : List TypeScaffold} {m : Machine} {s s₁ s₂ : MachineState}
  (launched : Launched original c p declared types m s)

include launched

/-- The machine can run the planned stubs, and it stands where their calls can begin. -/
theorem hosts (some : types ≠ []) :
    m.Hosts c p.loaderKind types ∧ m.Stands c p.loaderKind types s := by
  obtain ⟨⟨before, bound⟩, id, found, bodies, helper, binds, eq⟩ := launched.binds.resolve_left some
  obtain ⟨fuel, loaded⟩ := launched.loaded
  have ready : Ready m c.helperType 0 s := bound.ready_of_load launched.lines loaded
  have mem {planned} (hp : planned ∈ types) {st} (hs : st ∈ planned.stubs) :
      st ∈ types.flatMap TypeScaffold.stubs := List.mem_flatMap.mpr ⟨planned, hp, hs⟩
  have memLibrary {planned} (hp : planned ∈ types) {l} (hl : l ∈ planned.libraries) :
      l ∈ types.flatMap TypeScaffold.libraries := List.mem_flatMap.mpr ⟨planned, hp, hl⟩
  have other {planned} (hp : planned ∈ types) : planned.owner ≠ c.helperType := by
    obtain ⟨t, imports, other, fits⟩ := binds.fits_of_mem hp
    rwa [fits.owner]
  refine ⟨?_, ⟨?_, ?_⟩, 0, ready, .inr ⟨rfl, launched.memory, fun planned hp st hs =>
    launched.stubs st (mem hp hs)⟩⟩
  case refine_1 =>
    exact {
      loader := Machine.hasLoader_of_build launched.built launched.free launched.small launched.known
      supported := launched.supported
      handles := by
        have small := launched.small
        rw [launched.built] at small ⊢
        exact World.handle_ne_zero_of_build small
      stub := fun planned hp st hs => by
        obtain ⟨t, imports, -, fits⟩ := binds.fits_of_mem hp
        exact ⟨(fits.stub st hs).2, binds.hasBound id launched.unique eq bound.hasHelper hp hs
          (launched.few st (mem hp hs))⟩
      plain := fun planned hp st hs => launched.plain st (mem hp hs)
      others := fun planned hp => ⟨fun l hl => binds.owner_libraryCell hp hl ▸ other hp,
        fun st hs => binds.owner_stubCell hp hs ▸ other hp⟩
      libraries := fun planned hp planned' hp' l hl l' hl' => binds.apart_libraries hp hp' hl hl'
      stubs := fun planned hp planned' hp' st hs st' hs' => binds.apart_stubs hp hp' hs hs'
      apart := fun planned hp planned' hp' st hs l hl => binds.apart_stub_library hp hp' hs hl }
  case refine_2 =>
    exact fun planned hp l hl =>
      ⟨0, launched.libraries l (memLibrary hp hl), fun nonzero => absurd rfl nonzero⟩
  case refine_3 =>
    exact fun planned hp st hs => ⟨0, launched.stubs st (mem hp hs), fun nonzero => absurd rfl nonzero⟩

/-- An existing library is open at most as often as there are types that name it. -/
theorem opened_le (name : String) : opened types s₁ name ≤
    ((original.eligibleStubs c.exclusions).map fun e =>
      (e.1.owner.name, e.2.library)).eraseDups.countP fun pair => c.loadName pair.2 == name := by
  rcases launched.binds with rfl | ⟨-, id, found, bodies, helper, binds, -⟩
  · exact Nat.zero_le _
  · rw [← binds.libraries_perm.countP_eq, List.countP_flatMap, opened, List.countP_flatMap]
    refine List.sum_le_sum fun planned hp => ?_
    rw [Function.comp_apply, Function.comp_apply, List.countP_map]
    refine List.countP_mono_left fun l hl set => ?_
    obtain ⟨t, imports, -, fits⟩ := binds.fits_of_mem hp
    rw [Function.comp_apply, ← (fits.library l hl).loadName]
    exact (Bool.and_eq_true _ _ ▸ set : _ ∧ _).1

/-- However stubs are called, and whatever comes of the calls: a cell is empty or holds what it is for,
and does not change once it is set; an existing library is asked for at most once for each type that
names it; a stub whose cell is set asks for nothing; and when the library or the symbol is missing, a
call tells so. The functions behind the stubs must not use the system's loader themselves. -/
theorem links (quiet : ∀ st ∈ types.flatMap TypeScaffold.stubs, ∀ address,
      m.AddressOf st address → m.world.Quiet p.loaderKind address)
    (calls : m.CallsStubs types s s₁) :
    m.Linked types s₁ ∧ (∀ s₂, m.CallsStubs types s₁ s₂ → Extends types s₁ s₂) ∧
      (∃ requests, s₁.native.loads = s.native.loads ++ requests ∧
        ∀ name handle, m.world.catalog.handle? name = some handle →
          requests.countP (·.name == name) ≤ ((original.eligibleStubs c.exclusions).map fun e =>
            (e.1.owner.name, e.2.library)).eraseDups.countP fun pair => c.loadName pair.2 == name) ∧
      ∀ st ∈ types.flatMap TypeScaffold.stubs, ∀ objects,
        (∀ args result s₂, m.CallsStub types st args { s₁ with objects } result s₂ →
          ∀ w, w ≠ 0 → s₁.Holds st.cell w → s₁.SameCells m.world p.loaderKind s₂) ∧
        ∀ message, m.Missing st message → ∃ callee, m.module.ownedAt? st.stub.handle = some callee ∧
          ∀ args, ∃ enough s₂, (∀ fuel, enough ≤ fuel → m.call fuel callee args { s₁ with objects } =
              (.error (.unhandled "System.Exception" message), s₂)) ∧
            ∀ fuel, fuel < enough →
              (m.call fuel callee args { s₁ with objects }).1 = .error .outOfFuel := by
  by_cases some : types = []
  · subst some
    obtain rfl : s₁ = s := calls.eq_of_nil
    have none {P : TypeScaffold → Prop} : ∀ planned ∈ [], P planned := List.forall_mem_nil P
    exact ⟨⟨none, none⟩, fun _ _ => ⟨none, none⟩, ⟨[], (List.append_nil _).symm, fun _ _ _ =>
      Nat.zero_le _⟩, List.forall_mem_nil _⟩
  · obtain ⟨hosts, stands⟩ := launched.hosts some
    obtain ⟨stands₁, evolves⟩ := hosts.callsStubs stands quiet calls
    refine ⟨stands₁.linked, fun s₂ more => (hosts.callsStubs stands₁ quiet more).2.toExtends, ?_,
      fun st mem objects => ⟨?_, ?_⟩⟩
    · obtain ⟨requests, eq, few⟩ := evolves.loads
      exact ⟨requests, eq, fun name handle found => (Nat.le_add_right _ _).trans
        ((few name handle found).trans (launched.opened_le name))⟩
    · intro args result s₂ one w nonzero holds
      have same := (hosts.callsStub (stands₁.objects objects) quiet one).2.2 w nonzero
        (holds.of_statics rfl)
      exact ⟨same.statics, same.loads, same.calls⟩
    · intro message missing
      obtain ⟨planned, hp, hs⟩ := List.mem_flatMap.mp mem
      obtain ⟨-, callee, at_, -⟩ := hosts.stub planned hp st hs
      exact ⟨callee, at_, hosts.misses (stands₁.objects objects) hp hs at_ missing⟩

end Launched

/-! ## Modules with one type -/

/-- A function on Linux that is none of four is not asked for by the helper type. -/
theorem World.not_asks_of_linux {w : World} {address : UInt64}
    (apart : ∀ f ∈ [("libc", "uname"), ("libdl", "dlopen"), ("libdl", "dlsym"), ("libdl", "dlclose")],
      w.catalog.address? f.1 f.2 ≠ some address) : ¬w.Asks Platform.linux.loaderKind address := by
  rintro ⟨number, call, f, mem, at_⟩
  refine apart f ?_ at_
  change f ∈ (if number = 0 then [("libc", "uname")] else []) ++ [("libdl", call.unixSymbol)] at mem
  rcases List.mem_append.mp mem with mem | mem
  · split at mem
    · rw [List.mem_singleton.mp mem]
      exact List.mem_cons_self
    · cases mem
  · rw [List.mem_singleton.mp mem]
    cases call <;> simp [LoaderCall.unixSymbol]

theorem exists_of_map_ok {α β ε : Type} {x : Except ε α} {f : α → β} {b : β}
    (mapped : x.map f = .ok b) : ∃ a, x = .ok a ∧ f a = b := by
  cases x with
  | error e => cases mapped
  | ok a => exact ⟨a, rfl, Except.ok.inj mapped⟩

/-- What a stub asks for, and how its parameters are passed. -/
def StubScaffold.outline (st : StubScaffold) : (String × String) × List (SlotPlan × TypeRef) :=
  ((st.library.loadName, st.stub.symbol), st.stub.params.map fun slot => (slot.plan, slot.type))

namespace Module

/-- A module with one type and without code is loaded on Linux. -/
theorem exists_launched_of_outline (original : Module) (declared : List LibraryDecl)
    (outlines : List ((String × String) × List (SlotPlan × TypeRef)))
    (shape : ((original.bindLate Config.default Uuid.zero).map fun out =>
      (out.module.types.map TypeDef.name, (initialisers out.module).length)) =
        .ok ([⟨"A", "T"⟩, ⟨"", "PInvokeHelpers"⟩], 1))
    (planned : ((original.importTable Config.default.exclusions >>=
      original.planTypes Config.default).map fun types =>
        (types.flatMap TypeScaffold.stubs).map StubScaffold.outline) = .ok outlines)
    (some : outlines ≠ [])
    (plain : ∀ outline ∈ outlines,
      (Latin1.Plain outline.1.1 ∧ Latin1.Plain outline.1.2) ∧ outline.2.length < 30000)
    (unique : (original.types.map TypeDef.name).Nodup)
    (bodiless : ∀ t ∈ original.types, ∀ method ∈ t.methods, method.body = none)
    (free : ∀ d ∈ declared, ∀ e ∈ d.exports, e ∉ Platform.linux.exports)
    (small : (World.build .linux declared).Small) :
    ∃ types out s, original.bindLate Config.default Uuid.zero = .ok out ∧
      Machine.load ⟨out.module, .build .linux declared⟩ 7 = .ok s ∧
      Launched original Config.default .linux declared types ⟨out.module, .build .linux declared⟩ s ∧
      s.native = .start ∧ (types.flatMap TypeScaffold.stubs).map StubScaffold.outline = outlines := by
  obtain ⟨out, ok, shape⟩ := exists_of_map_ok shape
  obtain ⟨names, alone⟩ := Prod.mk.inj shape
  obtain ⟨types, bound, stubs⟩ := exists_of_map_ok planned
  obtain ⟨found, table, plan⟩ := bind_eq_ok bound
  have each {st : StubScaffold} (mem : st ∈ types.flatMap TypeScaffold.stubs) :=
    plain st.outline (stubs ▸ List.mem_map_of_mem mem)
  have deployed : Deployed original Config.default .linux declared types
      ⟨out.module, .build .linux declared⟩ := {
    bindsLate := ⟨_, out, ok, rfl⟩
    plan := ⟨found, table, plan⟩
    unique
    spares := spares_of_bodiless bodiless _
    framework := by
      intro member t ht same
      have mem := List.mem_map_of_mem (f := TypeDef.name) ht
      rw [names, same] at mem
      cases member <;> exact absurd mem (by decide)
    built := rfl
    known := .unix (by decide)
    supported := fun same => by cases same
    free
    small
    plain := fun st mem => (each mem).1
    few := fun st mem => by
      have less := (each mem).2
      rwa [StubScaffold.outline, List.length_map] at less }
  have planned : types ≠ [] := by
    rintro rfl
    exact some stubs.symm
  obtain ⟨s, loaded, launched, native⟩ := deployed.exists_launched planned alone
  exact ⟨types, out, s, ok, loaded, launched, native, stubs⟩

/-- A library with one of the symbols that the module with overloads asks for. -/
def halfLibrary : List LibraryDecl := [⟨"m", [("Foo", fun _ _ => pure (.i32 0))]⟩]

/-- The module with overloads is loaded on Linux. -/
theorem exists_launched_overloads : ∃ types m s,
    Launched overloads Config.default .linux halfLibrary types m s ∧ s.native = .start ∧
      (types.flatMap TypeScaffold.stubs).map StubScaffold.outline = [(("m", "Foo"), [(.direct, .i32)]),
        (("m", "Foo"), [(.direct, .i64)]), (("m", "Foo_1"), [(.direct, .i32)])] := by
  obtain ⟨types, out, s, -, -, launched, native, stubs⟩ :=
    exists_launched_of_outline overloads halfLibrary [(("m", "Foo"), [(.direct, .i32)]),
      (("m", "Foo"), [(.direct, .i64)]), (("m", "Foo_1"), [(.direct, .i32)])] (by decide +kernel)
      (by decide +kernel) (List.cons_ne_nil _ _) (by decide) (by decide) (by decide) (by decide)
      ⟨by decide, by decide⟩
  exact ⟨types, _, s, launched, native, stubs⟩

/-- The functions of the half library are quiet. -/
theorem quiet_halfLibrary {name : String} {handle : UInt64}
    (found : (World.build .linux halfLibrary).catalog.handle? "m" = some handle)
    (known : name = "Foo" ∨ name = "Foo_1") :
    (World.build .linux halfLibrary).Quiet Platform.linux.loaderKind
      ((World.build .linux halfLibrary).catalog.symbol handle name) := by
  have isHandle : (World.build .linux halfLibrary).catalog.handle? "m" = some 4128 := by decide
  cases isHandle.symm.trans found
  have foo : (World.build .linux halfLibrary).catalog.symbol 4128 "Foo" = 0x7F0000000040 := by decide
  have missing : (World.build .linux halfLibrary).catalog.symbol 4128 "Foo_1" = 0 := by decide
  rcases known with rfl | rfl
  · rw [foo]
    refine World.quiet_of_body (World.not_asks_of_linux (by decide)) fun f at_ cx args p => ?_
    have function : (World.build .linux halfLibrary).function? 0x7F0000000040 =
        some ⟨"m", "Foo", 0x7F0000000040, fun _ _ => pure (.i32 0)⟩ := rfl
    cases function.symm.trans at_
    exact ⟨rfl, rfl⟩
  · rw [missing]
    refine World.quiet_of_body (World.not_asks_of_linux (by decide)) fun f at_ => ?_
    have none : (World.build .linux halfLibrary).function? 0 = none := rfl
    cases none.symm.trans at_

/-- A stub of the module with overloads whose symbol is missing: the call tells so, its library has
been opened once, and all cells are right. -/
theorem links_overloads : ∃ types m s st callee s₁ enough,
    Launched overloads Config.default .linux halfLibrary types m s ∧
      st ∈ types.flatMap TypeScaffold.stubs ∧ m.module.ownedAt? st.stub.handle = some callee ∧
      (∀ fuel, enough ≤ fuel → m.call fuel callee [.i32 1] s =
        (.error (.unhandled "System.Exception" "GetProcAddress failed for: Foo_1"), s₁)) ∧
      m.Linked types s₁ ∧ s₁.native.loads.countP (·.name == "m") ≤ 1 := by
  obtain ⟨types, m, s, launched, native, stubs⟩ := exists_launched_overloads
  have quiet : ∀ st ∈ types.flatMap TypeScaffold.stubs, ∀ address, m.AddressOf st address →
      m.world.Quiet Platform.linux.loaderKind address := by
    rintro st mem _ ⟨handle, found, rfl⟩
    rw [launched.built] at found ⊢
    have all : ∀ outline ∈ [(("m", "Foo"), [(SlotPlan.direct, TypeRef.i32)]),
        (("m", "Foo"), [(.direct, .i64)]), (("m", "Foo_1"), [(.direct, .i32)])],
        outline.1.1 = "m" ∧ (outline.1.2 = "Foo" ∨ outline.1.2 = "Foo_1") := by decide
    have outline := all st.outline (stubs ▸ List.mem_map_of_mem mem)
    rw [show st.library.loadName = "m" from outline.1] at found
    exact quiet_halfLibrary found outline.2
  obtain ⟨st, mem, outline⟩ : ∃ st ∈ types.flatMap TypeScaffold.stubs,
      st.outline = (("m", "Foo_1"), [(.direct, .i32)]) :=
    List.mem_map.mp (stubs ▸ by simp)
  obtain ⟨asks, slots⟩ := Prod.mk.inj outline
  obtain ⟨name, symbol⟩ := Prod.mk.inj asks
  have missing : m.Missing st "GetProcAddress failed for: Foo_1" := by
    have none : m.world.catalog.symbol 4128 st.stub.symbol = 0 := by
      rw [launched.built, symbol]
      decide
    have told : m.Missing st (Helper.resolveFailed ++ st.stub.symbol) :=
      .symbol (by rw [launched.built, name]; decide) none
    rwa [symbol] at told
  have takes : List.Forall₂ (ParamSlot.Takes m.module s) st.stub.params [.i32 1] := by
    obtain ⟨slot, params, kind⟩ := List.map_eq_singleton_iff.mp slots
    obtain ⟨plan, type⟩ := Prod.mk.inj kind
    have admits : slot.Admits m.module s (.i32 1) := by
      rw [ParamSlot.Admits, plan]
      exact ⟨.i32 1, by rw [type]; rfl⟩
    rw [params]
    exact .cons (.value admits) .nil
  obtain ⟨-, -, -, each⟩ := launched.links quiet .none
  obtain ⟨callee, at_, misses⟩ := (each st mem s.objects).2 _ missing
  obtain ⟨enough, s₁, go, -⟩ := misses [.i32 1]
  have called := go enough (Nat.le_refl _)
  have one : m.CallsStub types st [.i32 1] s _ s₁ :=
    ⟨mem, takes, ⟨callee, enough, at_, called⟩, by simp⟩
  obtain ⟨linked, -, ⟨requests, loads, few⟩, -⟩ := launched.links quiet (.call .none one)
  refine ⟨types, m, s, st, callee, s₁, enough, launched, mem, at_, go, linked, ?_⟩
  rw [loads, native]
  have pairs : (((overloads.eligibleStubs Config.default.exclusions).map fun e =>
      (e.1.owner.name, e.2.library)).eraseDups.countP fun pair =>
        Config.default.loadName pair.2 == "m") = 1 := by decide +kernel
  rw [← pairs]
  exact few "m" 4128 (by rw [launched.built]; decide)

end Module

end LateBind

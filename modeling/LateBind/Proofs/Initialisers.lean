import LateBind.Proofs.Widening

/-! # Type initialisers after late binding

The type that late binding adds initialises itself last. Type initialisers that call no import stub do
what they did before, and leave the same values in the static fields of the module. -/

namespace LateBind

open Machine Exec

/-! ## What runs when a module is loaded -/

/-- The method is a type initialiser, or such a method calls it. -/
inductive Module.Initialises (m : Module) : OwnedMethod → Prop
  | start {init : OwnedMethod} : init ∈ initialisers m → m.Initialises init
  | call {caller callee : OwnedMethod} {b : Body} {r : MethodRef} : m.Initialises caller →
      caller.method.body = some b → .call r ∈ b.instrs →
      m.resolveMethod? r.owner r.name r.params = some callee → m.Initialises callee

/-- The methods of the module that a method calls. -/
def Module.calledBy (m : Module) (caller : OwnedMethod) : List OwnedMethod :=
  (caller.method.body.toList.flatMap Body.instrs).filterMap fun i =>
    match i with
    | .call r => m.resolveMethod? r.owner r.name r.params
    | _ => none

/-- What runs at loading is in every list that has the type initialisers and what its methods call. -/
theorem Module.Initialises.mem {m : Module} {known : List OwnedMethod}
    (starts : ∀ init ∈ initialisers m, init ∈ known)
    (closed : ∀ caller ∈ known, ∀ callee ∈ m.calledBy caller, callee ∈ known)
    {callee : OwnedMethod} (h : m.Initialises callee) : callee ∈ known := by
  induction h with
  | start mem => exact starts _ mem
  | @call caller callee b r _ body mem resolves ih =>
    refine closed caller ih callee (List.mem_filterMap.mpr ⟨.call r, ?_, resolves⟩)
    rw [body]
    exact List.mem_flatMap.mpr ⟨b, by simp, mem⟩

/-- The second state has the same static fields under the names that the module declares, and the
fields of the helper type, which are zero. The first has none under other names, and none of the type. -/
structure Module.Carries (m : Module) (helper : TypeName) (s s' : MachineState) : Prop where
  statics : ∃ statics, s' = { s with statics }
  declared {owner : TypeName} {name : String} : m.Declares owner name →
    cell? s' owner name = cell? s owner name
  only {owner : TypeName} {name : String} {c : StaticCell} : cell? s owner name = some c →
    m.Declares owner name ∧ c.type ≠ .named helper
  knows : Helper.Knows helper 0 0 s'

namespace Module.Carries

variable {X : MachineError → Prop} {m m' : Module} {helper : TypeName} {s s' : MachineState}

/-- What is done to both states alike and leaves static fields alone does not matter. -/
theorem change (h : m.Carries helper s s') (g : MachineState → MachineState)
    (blind : ∀ s statics, g { s with statics } = { g s with statics }) :
    m.Carries helper (g s) (g s') := by
  have same (s : MachineState) : (g s).statics = s.statics := by
    have kept := congrArg MachineState.statics (blind s s.statics)
    exact kept
  have cells (s : MachineState) (owner : TypeName) (name : String) :
      cell? (g s) owner name = cell? s owner name := by
    rw [cell?, cell?, same]
  refine ⟨?_, fun declares => ?_, fun found => h.only (cells s _ _ ▸ found),
    h.knows.of_statics (same s')⟩
  · obtain ⟨statics, rfl⟩ := h.statics
    exact ⟨statics, blind s statics⟩
  · rw [cells, cells, h.declared declares]

theorem stable : Stable (m.Carries helper) where
  statics h := h.statics
  objects objects h := h.change (fun s => { s with objects }) fun _ _ => rfl
  write {_ _ _ _ heap} _ h := h.change (fun s => s.withHeap heap) fun _ _ => rfl
  pin {s _} bytes source h :=
    h.change (fun t => { t.withHeap (s.native.heap.allocBytes bytes .pinned).2 with
      pins := s.pins ++ [⟨s.native.heap.nextAddress, source⟩] }) fun _ _ => rfl

theorem lenient : Lenient (m.Carries helper) where
  statics h := h.statics
  zeros {s _} size h :=
    h.change (fun t => t.withHeap (s.native.heap.alloc size .hglobal).2) fun _ _ => rfl
  bytes {s _} bytes h :=
    h.change (fun t => t.withHeap (s.native.heap.allocBytes bytes .hglobal).2) fun _ _ => rfl
  free {_ _ _ heap} _ h := h.change (fun s => s.withHeap heap) fun _ _ => rfl

theorem agree_native {α : Type} (code : Native α) :
    Agree X (m.Carries helper) (Exec.native code) (Exec.native code) := by
  intro s s' h
  have after := h.change (fun t => { t with native := (code s.native).2 }) fun _ _ => rfl
  obtain ⟨statics, rfl⟩ := h.statics
  exact .inr ⟨rfl, after⟩

theorem agree_releasePins : Agree X (m.Carries helper) releasePins releasePins :=
  Machine.agree_releasePins stable lenient fun _ _ h =>
    h.change (fun s => { s with pins := [] }) fun _ _ => rfl

/-! ### Static fields -/

theorem setStatic (h : m.Carries helper s s') {f : FieldRef} (other : f.owner ≠ helper)
    (w : UInt64) : m.Carries helper (s.setStatic f w) (s'.setStatic f w) := by
  refine ⟨?_, fun declares => ?_, fun found => ?_, h.knows.setStatic other w⟩
  · obtain ⟨statics, rfl⟩ := h.statics
    exact ⟨_, rfl⟩
  · rw [MachineState.cell?_setStatic, MachineState.cell?_setStatic, h.declared declares]
  · rw [MachineState.cell?_setStatic, Option.map_eq_some_iff] at found
    obtain ⟨c, found, rfl⟩ := found
    refine ⟨(h.only found).1, ?_⟩
    split
    · exact (h.only found).2
    · exact (h.only found).2

variable (agrees : m.Agrees (fun _ => True) m') {w w' : World}

include agrees

theorem agree_loadStatic (f : FieldRef) : Agree (fun _ => True) (m.Carries helper)
    (loadStatic ⟨m, w⟩ f) (loadStatic ⟨m', w'⟩ f) := by
  intro s s' h
  obtain ⟨e, eq⟩ | ⟨c, v, found, decodes, eq⟩ := loadStatic_cases ⟨m, w⟩ f s
  · exact .inl ⟨e, trivial, by rw [eq]⟩
  · have found' := (h.declared (h.only found).1).trans found
    rcases agrees.decode c.type (Bytes.ofWord c.word) with ⟨e, -, fails⟩ | same
    · cases fails.symm.trans decodes
    · rw [eq, loadStatic_cell (m := ⟨m', w'⟩) found' (same.trans decodes)]
      exact .inr ⟨rfl, h⟩

theorem agree_storeStatic (other : ∀ t ∈ m.types, t.name ≠ helper) (f : FieldRef) (v : Value) :
    Agree (fun _ => True) (m.Carries helper) (storeStatic ⟨m, w⟩ f v) (storeStatic ⟨m', w'⟩ f v) := by
  intro s s' h
  obtain ⟨e, eq⟩ | ⟨c, bytes, found, encodes, eq⟩ := storeStatic_cases ⟨m, w⟩ f v s
  · exact .inl ⟨e, trivial, by rw [eq]⟩
  · have declares := (h.only found).1
    obtain ⟨t, ht, owner, -⟩ := declares
    rcases agrees.encode c.type v with ⟨e, -, fails⟩ | same
    · cases fails.symm.trans encodes
    · rw [eq, storeStatic_cell (m := ⟨m', w'⟩) ((h.declared (h.only found).1).trans found)
        (same.trans encodes)]
      exact .inr ⟨rfl, h.setStatic (owner ▸ other t ht) _⟩

end Module.Carries

/-! ## Loading -/

namespace Module.Widens

variable {x : Exclusions} {helper : TypeName} {flags : Int32} {m m' : Module}
  (widens : Widens x helper flags m m')

include widens

/-- Type initialisers that call no import stub do the same after late binding. -/
theorem confines (ignores : m.Ignores helper)
    (quiet : ∀ callee, m.Initialises callee → callee.method.isStub = false) (w : World) :
    Confines ⟨m, w⟩ ⟨m', w⟩ (fun _ => True) (m.Carries helper)
      (fun b _ => ∃ callee, m.Initialises callee ∧ callee.method.body = some b) m.Initialises where
  alike := ⟨(widens.oneMore ignores).agrees, rfl⟩
  stable := Carries.stable
  next inside _ := inside
  jump inside _ _ _ := inside
  handler inside _ := inside
  load _ _ := Carries.agree_loadStatic (widens.oneMore ignores).agrees _
  store _ _ v := Carries.agree_storeStatic (widens.oneMore ignores).agrees widens.other _ v
  indirect _ _ _ _ _ := Carries.agree_native _
  call inside code resolves := by
    obtain ⟨caller, initialises, body⟩ := inside
    have known := initialises.call body (List.mem_of_getElem? code) resolves
    exact ⟨widens.resolveMethod?_of_some resolves (quiet _ known), known⟩
  missing {b pc r} _ _ unresolved := by
    cases member : RuntimeMember.ofRef? r with
    | none => exact .inr ⟨rfl, trivial⟩
    | some member' => exact .inl (widens.resolveMethod?_member (by rw [member]; rfl) unresolved)
  member _ _ _ _ _ := RuntimeMember.agree_call Carries.stable Carries.lenient _ _ _
  known {callee} known := by
    have own := quiet callee known
    exact .inr ⟨by simpa [MethodDef.isStub] using own, fun b body => ⟨callee, known, body⟩⟩

/-- Before the first type initialiser. -/
theorem carries (distinct : (m.types.map TypeDef.name).Nodup) (ignores : m.Ignores helper) :
    m.Carries helper ⟨.start, staticCells m, #[], []⟩ ⟨.start, staticCells m', #[], []⟩ where
  statics := ⟨_, rfl⟩
  declared declares := by
    rw [cell?_of_staticCells rfl, cell?_of_staticCells rfl,
      widens.declaredCells_eq distinct ignores declares]
  only {owner name c} found := by
    rw [cell?_of_staticCells rfl] at found
    obtain ⟨hc, key⟩ := List.mem_filter.mp (List.mem_of_getLast? found)
    obtain ⟨t, ht, hc⟩ := List.mem_flatMap.mp hc
    obtain ⟨f, hf, -, -, rfl⟩ := mem_typeCells.mp hc
    simp only [Bool.and_eq_true, beq_iff_eq] at key
    exact ⟨⟨t, ht, key.1, f, hf, key.2⟩, (ignores t (List.mem_append_left _ ht)).2 f hf⟩
  knows := by
    obtain ⟨types, widened, eq⟩ := widens.types
    refine Helper.knows_nothing eq (fun t' ht' => ?_) rfl
    obtain ⟨t, ht, h⟩ := List.exists_left_of_forall₂ widened ht'
    rw [h.name_eq]
    exact widens.other t ht

end Module.Widens

/-- Late binding does not break type initialisers that call no import stub. With fuel for the
initialiser of the helper type, a module that loads is loaded after late binding too, after the same
native calls and with the same values in its static fields.

Initialisers that call a stub have no such guarantee: they run before the helper type knows the family
of its platform, and the libraries of their stubs are loaded as on Windows. -/
theorem Module.loads_of_bindLate {original : Module} {c : Config} {id : Uuid} {out : LateBound}
    {w : World} {fuel : Nat} {s : MachineState} (bindsLate : original.bindLate c id = .ok out)
    (distinct : (original.types.map TypeDef.name).Nodup) (ignores : original.Ignores c.helperType)
    (framework : ∀ member : RuntimeMember, member.ref.owner ≠ c.helperType ∧
      ∀ t ∈ original.types, t.name ≠ member.ref.owner)
    (lines : Helper.EndsLines w.catalog.platform)
    (quiet : ∀ callee, original.Initialises callee → callee.method.isStub = false)
    (named : ∀ stub ∈ original.eligibleStubs c.exclusions, stub.1.method.name ≠ ".cctor")
    (ample : 7 ≤ fuel) (loaded : Machine.load ⟨original, w⟩ fuel = .ok s) :
    ∃ s', Machine.load ⟨out.module, w⟩ fuel = .ok s' ∧ s'.native = s.native ∧
      ∀ t ∈ original.types, ∀ f ∈ t.fields,
        staticValue? ⟨out.module, w⟩ s' t.name f.name = staticValue? ⟨original, w⟩ s t.name f.name := by
  rcases bindLate_cases bindsLate with ⟨-, -, eq⟩ | ⟨found, planned, bodies, helper, binds, -, eq⟩
  · rw [eq]
    exact ⟨s, loaded, rfl, fun _ _ _ _ => rfl⟩
  · have widens := binds.widens id
    rw [← eq] at widens
    obtain ⟨s₁, ran, rfl⟩ := load_eq_ok_iff.mp loaded
    have confines := widens.confines ignores quiet w
    obtain ⟨s₁', ran', carries⟩ := initialise_agrees Carries.agree_releasePins
      (fun init mem => confines.agree_invoke (.start mem) fuel []) (widens.carries distinct ignores) ran
    obtain ⟨s₂, ⟨go, -⟩, -, others, unpinned, native⟩ :=
      Helper.staticConstructor_ends (widens.hasHelper framework) lines carries.knows
    have called := call_of_invoke (go fuel ample)
      (unpinned.trans (pins_of_initialise rfl ran'))
    refine ⟨s₂.newSession, load_eq_ok_iff.mpr ⟨s₂, ?_, rfl⟩, ?_, fun t ht f hf => ?_⟩
    · rw [widens.initialisers_eq named, initialise_append ran', initialise_cons_apply called]
      rfl
    · obtain ⟨statics, rfl⟩ := carries.statics
      exact native
    · have declares : original.Declares t.name f.name := ⟨t, ht, rfl, f, hf, rfl⟩
      refine widens.staticValue?_eq ignores ?_ fun c found => (carries.only found).2
      exact (others t.name f.name (binds.free t ht)).trans (carries.declared declares)

namespace Module

/-- A type whose initialiser asks a method of its own, and which declares a stub besides. -/
def answering : Module :=
  let code (instrs : List Instr) : Body := ⟨[], instrs, [], [], true, 1⟩
  let answer : MethodDef :=
    { MethodDef.static "Answer" .i32 with body := some (code [.ldcI4 42, .ret]) }
  let init : MethodDef :=
    { MethodDef.static ".cctor" .void with
      body := some (code [.call (.static (.parse "A.T") "Answer" [] .i32),
        .stsfld ⟨.parse "A.T", "answer", .i32⟩, .ret]) }
  (start "m" Uuid.zero).withType
    (((((TypeDef.ofKind "A.T" .classType).withStaticField "answer" .i32).withMethod init).withMethod
      answer).withMethod ((MethodDef.static "Ask" .i32).importing "m"))

theorem bindLate_answering : ∃ out, answering.bindLate Config.default Uuid.zero = .ok out := by
  have checked : (answering.importTable Config.default.exclusions).isOk = true := by decide +kernel
  cases table : answering.importTable Config.default.exclusions with
  | error e =>
    rw [table] at checked
    cases checked
  | ok found =>
    exact bindLate_of_free (by unfold FewParams; decide) Uuid.zero Config.fault?_default table
      (.inr (by decide))

theorem loads_of_bindLate_answering :
    let w := World.empty .linux
    ∃ out s, answering.bindLate Config.default Uuid.zero = .ok out ∧
      Machine.load ⟨out.module, w⟩ 7 = .ok s ∧
      staticValue? ⟨out.module, w⟩ s (.parse "A.T") "answer" = some (.i32 42) := by
  intro w
  have answers : (Machine.load ⟨answering, w⟩ 7).toOption.bind
      (fun s => staticValue? ⟨answering, w⟩ s (.parse "A.T") "answer") = some (.i32 42) := by
    decide +kernel
  obtain ⟨s, loaded, answer⟩ : ∃ s, Machine.load ⟨answering, w⟩ 7 = .ok s ∧
      staticValue? ⟨answering, w⟩ s (.parse "A.T") "answer" = some (.i32 42) := by
    cases loaded : Machine.load ⟨answering, w⟩ 7 with
    | error e =>
      rw [loaded] at answers
      cases answers
    | ok s =>
      rw [loaded] at answers
      exact ⟨s, rfl, answers⟩
  have quiet (callee : OwnedMethod) (h : answering.Initialises callee) :
      callee.method.isStub = false := by
    let known : List OwnedMethod :=
      (answering.methods.filter fun l => !l.method.isStub).map fun l => ⟨l.owner.name, l.method⟩
    have mem : callee ∈ known := h.mem (by decide) (by decide)
    obtain ⟨l, hl, rfl⟩ := List.mem_map.mp mem
    simpa using (List.mem_filter.mp hl).2
  obtain ⟨out, ok⟩ := bindLate_answering
  obtain ⟨s', loaded', -, same⟩ := loads_of_bindLate ok (by decide) (by unfold Ignores; decide)
    (fun member => ⟨by cases member <;> decide, by cases member <;> decide⟩)
    ⟨fun _ => rfl, fun _ => rfl⟩ quiet (by decide +kernel) (Nat.le_refl 7) loaded
  obtain ⟨t, ht, owner, f, hf, name⟩ : answering.Declares (.parse "A.T") "answer" := by
    unfold Declares
    decide
  have kept := same t ht f hf
  rw [owner, name] at kept
  exact ⟨out, s', ok, loaded', kept.trans answer⟩

end Module

end LateBind

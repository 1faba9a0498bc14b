import LateBind.Proofs.GeneratedCode

/-! # References of the bound module

Every member that generated code mentions is there once, with the type or the signature of the
mention. The new members of a type have names of their own, so that each stub reaches what was made
for it. -/

namespace LateBind

/-- Where no two items have one key, an item is the only one with its key. -/
theorem List.filter_beq_of_nodup_map {α κ : Type} [BEq κ] [LawfulBEq κ] {f : α → κ} {l : List α}
    (nodup : (l.map f).Nodup) {a : α} (ha : a ∈ l) : l.filter (f · == f a) = [a] := by
  induction l with
  | nil => cases ha
  | cons b l ih =>
    rw [List.map_cons, List.nodup_cons] at nodup
    rcases List.mem_cons.mp ha with rfl | ha
    · have others : l.filter (f · == f a) = [] := by
        refine List.filter_eq_nil_iff.mpr fun b hb same => nodup.1 ?_
        rw [← beq_iff_eq.mp same]
        exact List.mem_map_of_mem hb
      rw [List.filter_cons, if_pos (beq_self_eq_true _), others]
    · have other : ¬(f b == f a) = true := fun same => nodup.1 (by
        rw [beq_iff_eq.mp same]
        exact List.mem_map_of_mem ha)
      rw [List.filter_cons, if_neg other, ih nodup.2 ha]

/-- An item of the second list is the only one with its key when none of the first has that key. -/
theorem List.filter_beq_append {α κ : Type} [BEq κ] [LawfulBEq κ] {f : α → κ} {l l' : List α}
    (nodup : (l'.map f).Nodup) {a : α} (ha : a ∈ l') (free : f a ∉ l.map f) :
    (l ++ l').filter (f · == f a) = [a] := by
  have before : l.filter (f · == f a) = [] := by
    refine List.filter_eq_nil_iff.mpr fun b hb same => free ?_
    rw [← beq_iff_eq.mp same]
    exact List.mem_map_of_mem hb
  rw [List.filter_append, before, List.filter_beq_of_nodup_map nodup ha, List.nil_append]

/-- A function that items keep under a change keeps its values on the changed list. -/
theorem List.map_mapIdx_of_eq {α β : Type} {f : α → β} {g : Nat → α → α} {l : List α}
    (same : ∀ i a, f (g i a) = f a) : (l.mapIdx g).map f = l.map f := by
  apply List.ext_getElem?
  intro i
  rw [List.getElem?_map, List.getElem?_map, List.getElem?_mapIdx, Option.map_map]
  exact congrArg (Option.map · l[i]?) (funext (same i))

/-! ## Resolution -/

/-- How code mentions a field of a type. -/
def FieldDef.ref (owner : TypeName) (field : FieldDef) : FieldRef := ⟨owner, field.name, field.type⟩

/-- How code mentions a method of a type. -/
def MethodDef.ref (owner : TypeName) (method : MethodDef) : MethodRef :=
  ⟨owner, method.name, method.paramTypes, method.returnType, !method.isStatic⟩

/-- No two fields have one name, and no two methods have one signature. -/
def TypeDef.Distinct (t : TypeDef) : Prop :=
  (t.fields.map FieldDef.name).Nodup ∧
    (t.methods.map fun method => (method.name, method.paramTypes)).Nodup

theorem RuntimeMember.ofRef?_ref (member : RuntimeMember) : ofRef? member.ref = some member := by
  cases member <;> decide +kernel

namespace Module

variable {m : Module} {owners : List TypeName}

/-- The fields of own types that a reference can mean. -/
def fieldsFor (m : Module) (f : FieldRef) : List FieldDef :=
  (m.types.filter (·.name == f.owner)).flatMap fun t => t.fields.filter (·.name == f.name)

/-- The methods of own types that a reference can mean, by their names and parameters. -/
def methodsFor (m : Module) (r : MethodRef) : List MethodDef :=
  (m.types.filter (·.name == r.owner)).flatMap fun t =>
    t.methods.filter fun method => method.name == r.name && method.paramTypes == r.params

/-- What an instruction mentions is there: exactly one static field, of the type of the mention, or
exactly one method with the parameters and the result of the mention, in one of the given types; or
else a member that the machine supplies, of a type that is none of the module's own. -/
def Refers (m : Module) (owners : List TypeName) : Instr → Prop
  | .ldsfld f | .stsfld f =>
    f.owner ∈ owners ∧ ∃ field, m.fieldsFor f = [field] ∧ field.type = f.type ∧ field.isStatic
  | .call r =>
    if r.owner ∈ owners then
      ∃ method, m.methodsFor r = [method] ∧ method.returnType = r.returnType ∧
        method.isStatic = !r.hasThis
    else (∀ t ∈ m.types, t.name ≠ r.owner) ∧ ∃ member, RuntimeMember.ofRef? r = some member
  | .newobj r => r.name = ".ctor" ∧ r.owner.display = Framework.exception.display
  | _ => True

theorem refers_of_silent (i : Instr) (silent : i.owner? = none) : m.Refers owners i := by
  cases i with
  | ldsfld f => cases silent
  | stsfld f => cases silent
  | call r => cases silent
  | newobj r => cases silent
  | _ => trivial

theorem refers_ldsfld {owner : TypeName} (known : owner ∈ owners) {field : FieldDef}
    (static : field.isStatic) (only : m.fieldsFor (field.ref owner) = [field]) :
    m.Refers owners (.ldsfld (field.ref owner)) := ⟨known, field, only, rfl, static⟩

theorem refers_stsfld {owner : TypeName} (known : owner ∈ owners) {field : FieldDef}
    (static : field.isStatic) (only : m.fieldsFor (field.ref owner) = [field]) :
    m.Refers owners (.stsfld (field.ref owner)) := ⟨known, field, only, rfl, static⟩

theorem refers_call {owner : TypeName} (known : owner ∈ owners) {method : MethodDef}
    (only : m.methodsFor (method.ref owner) = [method]) :
    m.Refers owners (.call (method.ref owner)) := by
  rw [Refers, if_pos (show (method.ref owner).owner ∈ owners from known)]
  exact ⟨method, only, rfl, (Bool.not_not _).symm⟩

theorem refers_member {member : RuntimeMember} (other : member.ref.owner ∉ owners)
    (framework : ∀ t ∈ m.types, t.name ≠ member.ref.owner) :
    m.Refers owners (.call member.ref) := by
  rw [Refers, if_neg other]
  exact ⟨framework, member, member.ofRef?_ref⟩

section Unique

variable (unique : (m.types.map TypeDef.name).Nodup) {t : TypeDef} (ht : t ∈ m.types)

include unique ht

/-- A field is found when it is the only one of its name in its type. -/
theorem fieldsFor_ref {field : FieldDef} (alone : t.fields.filter (·.name == field.name) = [field]) :
    m.fieldsFor (field.ref t.name) = [field] := by
  have own := List.filter_beq_of_nodup_map unique ht
  rw [fieldsFor, FieldDef.ref, own, List.flatMap_singleton, alone]

/-- A method is found when it is the only one of its name in its type. -/
theorem methodsFor_ref {method : MethodDef}
    (alone : t.methods.filter (·.name == method.name) = [method]) :
    m.methodsFor (method.ref t.name) = [method] := by
  have own := List.filter_beq_of_nodup_map unique ht
  rw [methodsFor, MethodDef.ref, own, List.flatMap_singleton]
  simp only [Bool.and_comm (_ == method.name)]
  rw [← List.filter_filter, alone]
  simp

end Unique

end Module

/-! ## The helper type -/

namespace Helper

variable {helper : TypeName} {flags : Int32}

/-- What code of the helper type mentions: its own members, and those of the framework's library. -/
def Mentions (helper : TypeName) (flags : Int32) : Instr → Prop
  | .ldsfld f | .stsfld f => ∃ field ∈ fieldDefs, f = field.ref helper
  | .call r => (∃ method ∈ methods helper flags, r = method.ref helper) ∨
      ∃ member : RuntimeMember, r = member.ref
  | .newobj r => r = Framework.exceptionCtor
  | _ => True

theorem mentions_of_silent (i : Instr) (silent : i.owner? = none) : Mentions helper flags i := by
  cases i with
  | ldsfld f => cases silent
  | stsfld f => cases silent
  | call r => cases silent
  | newobj r => cases silent
  | _ => trivial

theorem mentions_member (member : RuntimeMember) : Mentions helper flags (.call member.ref) :=
  .inr ⟨member, rfl⟩

/-- A method of the helper type is called by its place there. -/
theorem mentions_own (i : Nat) {method : MethodDef} (at_ : (methods helper flags)[i]? = some method)
    {r : MethodRef} (same : r = method.ref helper) : Mentions helper flags (.call r) :=
  .inl ⟨method, List.mem_of_getElem? at_, same⟩

theorem only_withBody {visibility : Visibility} {name : String} {params : List (String × TypeRef)}
    {returnType : TypeRef} {body : Body} (loud : List Instr)
    (code : body.instrs.filter (fun i => i.owner?.isSome) = loud)
    (h : ∀ i ∈ loud, Mentions helper flags i) :
    (MethodDef.withBody visibility name params returnType body).Only (Mentions helper flags) := by
  rintro _ ⟨⟩
  exact Instr.forall_of_loud mentions_of_silent loud code h

theorem only_loaders (helper : TypeName) (flags : Int32) :
    ∀ method ∈ loaders helper flags, method.Only (Mentions helper flags) := by
  have isUnix : Mentions helper flags (.ldsfld (isUnixField helper)) := ⟨_, .head _, rfl⟩
  have throws : Mentions helper flags (.newobj Framework.exceptionCtor) := rfl
  simp only [loaders, List.forall_mem_cons]
  refine ⟨?systemName, ?unixFlavor, ?dlopen, ?dlclose, ?dlsym, ?isUnix, ?constructor, ?load, ?free,
    ?address, by simp⟩
  case systemName =>
    refine only_withBody [_, _, _, _] rfl ?_
    simp only [List.forall_mem_cons]
    exact ⟨mentions_member .allocHGlobal, mentions_own 12 rfl rfl, mentions_member .ptrToStringAnsi,
      mentions_member .freeHGlobal, by simp⟩
  case unixFlavor =>
    have equals : Mentions helper flags (.call Framework.stringEquals) :=
      mentions_member .stringEquals
    refine only_withBody [_, _, _, _, _, _, _, _] rfl ?_
    simp only [List.forall_mem_cons]
    exact ⟨⟨_, .tail _ (.head _), rfl⟩, mentions_own 13 rfl rfl, equals, equals, equals, equals,
      throws, ⟨_, .tail _ (.head _), rfl⟩, by simp⟩
  case dlopen =>
    refine only_withBody [_, _, _, _, _] rfl ?_
    simp only [List.forall_mem_cons]
    exact ⟨mentions_own 14 rfl rfl, throws, mentions_own 0 rfl rfl, mentions_own 3 rfl rfl,
      mentions_own 6 rfl rfl, by simp⟩
  case dlclose =>
    refine only_withBody [_, _, _, _, _] rfl ?_
    simp only [List.forall_mem_cons]
    exact ⟨mentions_own 14 rfl rfl, throws, mentions_own 1 rfl rfl, mentions_own 4 rfl rfl,
      mentions_own 7 rfl rfl, by simp⟩
  case dlsym =>
    refine only_withBody [_, _, _, _, _] rfl ?_
    simp only [List.forall_mem_cons]
    exact ⟨mentions_own 14 rfl rfl, throws, mentions_own 2 rfl rfl, mentions_own 5 rfl rfl,
      mentions_own 8 rfl rfl, by simp⟩
  case isUnix =>
    refine only_withBody [_, _] rfl ?_
    simp only [List.forall_mem_cons]
    exact ⟨mentions_member .newLine, mentions_member .stringEquals, by simp⟩
  case constructor =>
    refine fun body isBody => ?_
    cases isBody
    refine Instr.forall_of_loud mentions_of_silent [_, _] rfl ?_
    simp only [List.forall_mem_cons]
    exact ⟨mentions_own 18 rfl rfl, ⟨_, .head _, rfl⟩, by simp⟩
  case load =>
    refine only_withBody [_, _, _, _, _] rfl ?_
    simp only [List.forall_mem_cons]
    exact ⟨isUnix, mentions_own 15 rfl rfl, mentions_own 9 rfl rfl, mentions_member .stringConcat,
      throws, by simp⟩
  case free =>
    refine only_withBody [_, _, _] rfl ?_
    simp only [List.forall_mem_cons]
    exact ⟨isUnix, mentions_own 16 rfl rfl, mentions_own 10 rfl rfl, by simp⟩
  case address =>
    refine only_withBody [_, _, _, _, _] rfl ?_
    simp only [List.forall_mem_cons]
    exact ⟨isUnix, mentions_own 17 rfl rfl, mentions_own 11 rfl rfl, mentions_member .stringConcat,
      throws, by simp⟩

theorem only_converters (helper : TypeName) (flags : Int32) :
    ∀ method ∈ converters, method.Only (Mentions helper flags) := by
  simp only [converters, List.forall_mem_cons]
  refine ⟨?bytes, ?ansi, ?unicode, ?free, by simp⟩
  case bytes =>
    refine only_withBody [_, _] rfl ?_
    simp only [List.forall_mem_cons]
    exact ⟨mentions_member .stringLength, mentions_member .stringChars, by simp⟩
  case ansi =>
    exact only_withBody [_] rfl (List.forall_mem_singleton.mpr (mentions_member .stringToHGlobalAnsi))
  case unicode =>
    exact only_withBody [_] rfl (List.forall_mem_singleton.mpr (mentions_member .stringToHGlobalUni))
  case free =>
    exact only_withBody [_] rfl (List.forall_mem_singleton.mpr (mentions_member .freeHGlobal))

/-- Code of the helper type stays in the helper type, but for the framework's library. -/
theorem only_methods (helper : TypeName) (flags : Int32) :
    ∀ method ∈ methods helper flags, method.Only (Mentions helper flags) := by
  refine List.forall_mem_append.mpr ⟨List.forall_mem_append.mpr
    ⟨fun method hm body hb => ?_, only_loaders helper flags⟩, only_converters helper flags⟩
  have none : ∀ method ∈ importDefs, method.body = none := by decide
  rw [none method hm] at hb
  cases hb

theorem mentions_conversion {r : MethodRef} (converts : r ∈ conversions helper) :
    Mentions helper flags (.call r) := by
  simp only [conversions, List.mem_cons, List.not_mem_nil, or_false] at converts
  rcases converts with rfl | rfl | rfl | rfl
  · exact mentions_own 23 rfl rfl
  · exact mentions_own 24 rfl rfl
  · exact mentions_own 25 rfl rfl
  · exact mentions_own 26 rfl rfl

theorem names_nodup (helper : TypeName) (flags : Int32) :
    ((methods helper flags).map MethodDef.name).Nodup := by
  rw [methods_names helper flags]
  simp

theorem distinct_helper (helper : TypeName) (flags : Int32) :
    ((emptyDef helper).extend [] (methods helper flags)).Distinct := by
  have fields : ((emptyDef helper).extend [] (methods helper flags)).fields.map FieldDef.name =
      ["isUnix", "unixFlavor"] := rfl
  refine ⟨by rw [fields]; decide, .of_map Prod.fst ?_⟩
  rw [List.map_map]
  exact names_nodup helper flags

end Helper

/-! ## Members for stubs -/

namespace TypeScaffold

theorem ref_addressCell {owner : TypeName} {cell : FieldRef} (own : cell.owner = owner) :
    (addressCell cell).ref owner = cell := by
  rw [← own]
  rfl

end TypeScaffold

theorem LibraryScaffold.ref_loaderDef {c : Config} {helper owner : TypeName} {l : LibraryScaffold}
    (fits : l.Fits c owner) {method : MethodDef} (made : l.loaderDef helper = .ok method) :
    method.ref owner = l.loader := by
  obtain ⟨body, rfl⟩ := MethodDef.eq_of_generated made
  rw [fits.loader]
  rfl

namespace StubScaffold

variable {helper owner : TypeName} {s : StubScaffold} {method : MethodDef}

theorem ref_initializerDef (fits : s.Fits owner) (made : s.initializerDef helper = .ok method) :
    method.ref owner = s.initializer := by
  obtain ⟨body, rfl⟩ := MethodDef.eq_of_generated made
  rw [fits.initializer]
  rfl

theorem ref_thunkDef (fits : s.Fits owner) (made : s.thunkDef = .ok method) :
    method.ref owner = s.thunk := by
  obtain ⟨body, flags, rfl⟩ := eq_of_thunkDef made
  have params : s.callSite.params = s.stub.params.map ParamSlot.nativeType := by
    rw [fits.callSite]
    rfl
  rw [fits.thunk, params]
  simp [MethodDef.ref, MethodDef.withBody, MethodDef.paramTypes, MethodRef.static,
    Function.comp_def]

end StubScaffold

namespace Module

variable {m : Module} {owners : List TypeName} {owner helperName : TypeName} {l : LibraryScaffold}
  {s : StubScaffold}

/-- The members that are made for a library are there, and each is the only one of its name. -/
structure HasLibrary (m : Module) (helper : TypeName) (l : LibraryScaffold) : Prop where
  cell : m.fieldsFor l.cell = [TypeScaffold.addressCell l.cell]
  loader : ∃ method, l.loaderDef helper = .ok method ∧ m.methodsFor l.loader = [method]

/-- The members that are made for a stub are there, and each is the only one of its name. -/
structure HasStub (m : Module) (helper : TypeName) (s : StubScaffold) : Prop where
  cell : m.fieldsFor s.cell = [TypeScaffold.addressCell s.cell]
  initializer : ∃ method, s.initializerDef helper = .ok method ∧
    m.methodsFor s.initializer = [method]
  thunk : ∃ method, s.thunkDef = .ok method ∧ m.methodsFor s.thunk = [method]

theorem refers_cell {cell : FieldRef} (known : cell.owner ∈ owners)
    (only : m.fieldsFor cell = [TypeScaffold.addressCell cell]) :
    m.Refers owners (.ldsfld cell) ∧ m.Refers owners (.stsfld cell) :=
  ⟨⟨known, _, only, rfl, rfl⟩, ⟨known, _, only, rfl, rfl⟩⟩

theorem HasLibrary.refers_loader {c : Config} (has : m.HasLibrary helperName l)
    (fits : l.Fits c owner) (known : owner ∈ owners) : m.Refers owners (.call l.loader) := by
  obtain ⟨method, made, only⟩ := has.loader
  rw [← LibraryScaffold.ref_loaderDef fits made] at only ⊢
  exact refers_call known only

theorem HasStub.refers_initializer (has : m.HasStub helperName s) (fits : s.Fits owner)
    (known : owner ∈ owners) : m.Refers owners (.call s.initializer) := by
  obtain ⟨method, made, only⟩ := has.initializer
  rw [← StubScaffold.ref_initializerDef fits made] at only ⊢
  exact refers_call known only

theorem HasStub.refers_thunk (has : m.HasStub helperName s) (fits : s.Fits owner)
    (known : owner ∈ owners) : m.Refers owners (.call s.thunk) := by
  obtain ⟨method, made, only⟩ := has.thunk
  rw [← StubScaffold.ref_thunkDef fits made] at only ⊢
  exact refers_call known only

end Module

/-- A body mentions the members that are made for the stub, and of other types only conversions of
strings and members of the framework's library. -/
structure StubScaffold.Reaches (helper : TypeName) (s : StubScaffold) (body : Body) : Prop where
  cell : .ldsfld s.cell ∈ body.instrs
  initializer : .call s.initializer ∈ body.instrs
  thunk : .call s.thunk ∈ body.instrs
  only : ∀ i ∈ body.instrs, s.Uses helper i

theorem StubBody.reaches_of_compile {helper : TypeName} {s : StubScaffold} {body : Body}
    (made : compile helper s = .ok body) : s.Reaches helper body := by
  obtain ⟨cell, initializer, thunk, -⟩ := by
    simpa only [List.forall_mem_cons] using mem_of_compile made
  exact ⟨cell, initializer, thunk, uses_of_compile made⟩

/-! ## The bound module -/

namespace Module

open Helper (Mentions mentions_own mentions_conversion)

variable {m : Module} {c : Config} {found : ImportTable} {types : List TypeScaffold}
  {bodies : List (MethodHandle × Body)} {helper : TypeDef}

/-! ## Plans by type -/

section Plans

variable (binds : m.Binds c found types bodies helper)

include binds

/-- No two plans are for one type. -/
theorem Binds.owners : (types.map TypeScaffold.owner).Nodup := by
  obtain ⟨stubs, -, groups⟩ := importTable_spec binds.table
  rw [owners_of_plans binds.planned]
  exact groups.owners

/-- A type has one plan at most. -/
theorem Binds.plansAt_eq {planned : TypeScaffold} {i : Nat} (hp : planned ∈ m.plansAt types i) :
    m.plansAt types i = [planned] := by
  obtain ⟨mem, index⟩ := List.mem_filter.mp hp
  refine Eq.trans (List.filter_congr fun p _ => ?_)
    (List.filter_beq_of_nodup_map binds.owners mem)
  rw [Bool.eq_iff_iff, beq_iff_eq, beq_iff_eq]
  constructor
  · intro index'
    obtain ⟨t, own, name, -⟩ := typeIndex?_eq_some (beq_iff_eq.mp index)
    obtain ⟨t', own', name', -⟩ := typeIndex?_eq_some index'
    cases own.symm.trans own'
    rw [← name, ← name']
  · rintro same
    rw [same]
    exact beq_iff_eq.mp index

theorem Binds.exists_plansAt {planned : TypeScaffold} (hp : planned ∈ types) :
    ∃ i t, m.types[i]? = some t ∧ t.name = planned.owner ∧ planned ∈ m.plansAt types i := by
  obtain ⟨imports, -, plans⟩ := List.exists_left_of_forall₂ binds.planned hp
  have owner := plans.owner
  obtain ⟨t, own, fits, -, -⟩ := plans
  rw [ownType?_eq, ← owner, Option.bind_eq_some_iff] at own
  obtain ⟨i, index, at_⟩ := own
  exact ⟨i, t, at_, fits.owner.symm, List.mem_filter.mpr ⟨hp, beq_iff_eq.mpr index⟩⟩

theorem Binds.names_nodup {planned : TypeScaffold} (hp : planned ∈ types) :
    planned.names.Nodup := by
  obtain ⟨imports, -, t, -, -, nodup, -⟩ := List.exists_left_of_forall₂ binds.planned hp
  exact nodup

/-- All planned members have been generated. -/
theorem Binds.generated {planned : TypeScaffold} (hp : planned ∈ types) :
    (∀ l ∈ planned.libraries, ∃ loader, l.loaderDef c.helperType = .ok loader) ∧
      ∀ s ∈ planned.stubs, ∃ init thunk, s.initializerDef c.helperType = .ok init ∧
        s.thunkDef = .ok thunk := by
  obtain ⟨m₁, m₂, installed⟩ := TypeScaffold.exists_of_mem_foldlM binds.installed hp
  unfold installType at installed
  split at installed
  · cases installed
  · split at installed
    · cases installed
    · obtain ⟨t, added, -⟩ := bind_eq_ok installed
      exact TypeScaffold.generated_of_install added

end Plans

/-! ## Names of the bound module -/

theorem key_bound (bodies : List (MethodHandle × Body)) (method : MethodDef) (place : MethodHandle) :
    (method.bound place bodies).name = method.name ∧
      (method.bound place bodies).paramTypes = method.paramTypes := by
  by_cases replaced : ∃ b ∈ bodies, b.1 = place
  · obtain ⟨body, -, eq⟩ := MethodDef.bound_of_exists method replaced
    rw [eq]
    exact ⟨rfl, rfl⟩
  · rw [MethodDef.bound_of_forall_ne _ fun b hb same => replaced ⟨b, hb, same⟩]
    exact ⟨rfl, rfl⟩

theorem keys_bound (bodies : List (MethodHandle × Body)) (i : Nat) (methods : List MethodDef) :
    (methods.mapIdx fun j method => method.bound ⟨i, j⟩ bodies).map
        (fun method => (method.name, method.paramTypes)) =
      methods.map fun method => (method.name, method.paramTypes) := by
  refine List.map_mapIdx_of_eq fun j method => ?_
  obtain ⟨name, params⟩ := key_bound bodies method ⟨i, j⟩
  rw [name, params]

theorem Binds.names_boundLate (binds : m.Binds c found types bodies helper) (id : Uuid) :
    (m.boundLate c types bodies helper id).types.map TypeDef.name =
      m.types.map TypeDef.name ++ [c.helperType] := by
  rw [binds.boundLate_eq, List.map_append, List.map_singleton, binds.name_helper]
  exact congrArg (· ++ [c.helperType]) (List.map_mapIdx_of_eq fun _ _ => rfl)

/-- The types keep distinct members. -/
theorem Binds.distinct_boundType (binds : m.Binds c found types bodies helper) {i : Nat}
    {t : TypeDef} (own : m.types[i]? = some t) (distinct : t.Distinct) :
    (m.boundType c.helperType types bodies i t).Distinct := by
  obtain ⟨fields, methods⟩ := distinct
  cases plans : m.plansAt types i with
  | nil =>
    rw [TypeDef.Distinct, boundType, plans, List.map_append, List.map_append, keys_bound]
    simpa using ⟨fields, methods⟩
  | cons planned rest =>
    have hp : planned ∈ m.plansAt types i := by simp [plans]
    have nodup := binds.names_nodup (List.mem_filter.mp hp).1
    have free (name : String) (hname : name ∈ planned.names) :=
      (binds.names_of_plansAt own hp name hname).1
    rw [TypeDef.Distinct, boundType, binds.plansAt_eq hp, List.flatMap_singleton,
      List.flatMap_singleton, List.map_append, List.map_append, keys_bound]
    refine ⟨List.nodup_append.mpr ⟨fields, planned.names_fields.nodup nodup, ?_⟩,
      List.nodup_append.mpr ⟨methods, .of_map Prod.fst ?_, ?_⟩⟩
    · rintro name old _ new rfl
      exact free name (planned.names_fields.subset new) (List.mem_append_left _ old)
    · rw [List.map_map]
      exact (planned.names_methods c.helperType).nodup nodup
    · rintro key old _ new rfl
      obtain ⟨method, hm, rfl⟩ := List.mem_map.mp old
      obtain ⟨method', hm', same⟩ := List.mem_map.mp new
      have name : method'.name = method.name := congrArg Prod.fst same
      exact free method'.name (TypeScaffold.mem_names_of_method hm')
        (name ▸ List.mem_append_right _ (List.mem_map_of_mem hm))

/-! ## References of the bound module -/

/-- The types that generated code stands in. -/
def generatedOwners (c : Config) (types : List TypeScaffold) : List TypeName :=
  c.helperType :: types.map TypeScaffold.owner

theorem Binds.refers_framework (binds : m.Binds c found types bodies helper) (id : Uuid)
    (framework : ∀ member : RuntimeMember, member.ref.owner ≠ c.helperType ∧
      ∀ t ∈ m.types, t.name ≠ member.ref.owner) (member : RuntimeMember) :
    (m.boundLate c types bodies helper id).Refers (generatedOwners c types) (.call member.ref) := by
  obtain ⟨other, known⟩ := framework member
  refine refers_member (fun mem => ?_) fun t ht same => ?_
  · rcases List.mem_cons.mp mem with same | mem
    · exact other same
    · obtain ⟨planned, hp, same⟩ := List.mem_map.mp mem
      obtain ⟨i, t, own, name, -⟩ := binds.exists_plansAt hp
      exact known t (List.mem_of_getElem? own) (name.trans same)
  · have mem := List.mem_map_of_mem (f := TypeDef.name) ht
    rw [binds.names_boundLate, same] at mem
    rcases List.mem_append.mp mem with mem | mem
    · obtain ⟨t', ht', same'⟩ := List.mem_map.mp mem
      exact known t' ht' same'
    · exact other (List.mem_singleton.mp mem)

section References

variable (binds : m.Binds c found types bodies helper) (unique : (m.types.map TypeDef.name).Nodup)
  (id : Uuid)

include binds unique

theorem Binds.unique_boundLate :
    ((m.boundLate c types bodies helper id).types.map TypeDef.name).Nodup := by
  rw [binds.names_boundLate]
  refine List.nodup_append.mpr ⟨unique, by simp, ?_⟩
  rintro name old _ new rfl
  obtain ⟨t, ht, rfl⟩ := List.mem_map.mp old
  exact binds.free t ht (List.mem_singleton.mp new)

/-- A planned field is the only one that a mention of it can mean. -/
theorem Binds.fieldsFor_planned {planned : TypeScaffold} (hp : planned ∈ types) {field : FieldDef}
    (hf : field ∈ planned.fields) :
    (m.boundLate c types bodies helper id).fieldsFor (field.ref planned.owner) = [field] := by
  obtain ⟨i, t, own, name, at_⟩ := binds.exists_plansAt hp
  rw [← name]
  refine fieldsFor_ref (binds.unique_boundLate unique id) (List.mem_of_getElem? (binds.getElem?_boundLate id own)) ?_
  rw [boundType, binds.plansAt_eq at_, List.flatMap_singleton]
  refine List.filter_beq_append (planned.names_fields.nodup (binds.names_nodup hp)) hf fun old => ?_
  exact (binds.names_of_plansAt own at_ _ (TypeScaffold.mem_names_of_field hf)).1
    (List.mem_append_left _ old)

/-- A planned method is the only one that a mention of it can mean. -/
theorem Binds.methodsFor_planned {planned : TypeScaffold} (hp : planned ∈ types)
    {method : MethodDef} (hm : method ∈ planned.methods c.helperType) :
    (m.boundLate c types bodies helper id).methodsFor (method.ref planned.owner) = [method] := by
  obtain ⟨i, t, own, name, at_⟩ := binds.exists_plansAt hp
  rw [← name]
  refine methodsFor_ref (binds.unique_boundLate unique id) (List.mem_of_getElem? (binds.getElem?_boundLate id own)) ?_
  rw [boundType, binds.plansAt_eq at_, List.flatMap_singleton, List.flatMap_singleton]
  refine List.filter_beq_append ((planned.names_methods c.helperType).nodup (binds.names_nodup hp))
    hm fun old => ?_
  refine (binds.names_of_plansAt own at_ _ (TypeScaffold.mem_names_of_method hm)).1
    (List.mem_append_right _ ?_)
  have names := congrArg (List.map Prod.fst) (keys_bound bodies i t.methods)
  rw [List.map_map, List.map_map] at names
  exact names ▸ old

theorem Binds.hasLibrary {planned : TypeScaffold} (hp : planned ∈ types) {l : LibraryScaffold}
    (hl : l ∈ planned.libraries) :
    (m.boundLate c types bodies helper id).HasLibrary c.helperType l := by
  obtain ⟨t, imports, -, fits⟩ := binds.fits_of_mem hp
  have owner : l.cell.owner = planned.owner := by rw [(fits.library l hl).cell, fits.owner]
  refine ⟨?_, ?_⟩
  · have field : TypeScaffold.addressCell l.cell ∈ planned.fields :=
      List.mem_append_left _ (List.mem_flatMap.mpr ⟨l, hl, List.mem_singleton_self _⟩)
    have found := binds.fieldsFor_planned unique id hp field
    rwa [TypeScaffold.ref_addressCell owner] at found
  · obtain ⟨method, made⟩ := (binds.generated hp).1 l hl
    have mem : method ∈ planned.methods c.helperType := List.mem_append_left _
      (List.mem_flatMap.mpr ⟨l, hl, TypeScaffold.mem_libraryMethods.mpr made⟩)
    have found := binds.methodsFor_planned unique id hp mem
    rw [fits.owner, LibraryScaffold.ref_loaderDef (fits.library l hl) made] at found
    exact ⟨method, made, found⟩

theorem Binds.hasStub {planned : TypeScaffold} (hp : planned ∈ types) {s : StubScaffold}
    (hs : s ∈ planned.stubs) : (m.boundLate c types bodies helper id).HasStub c.helperType s := by
  obtain ⟨t, imports, -, fits⟩ := binds.fits_of_mem hp
  obtain ⟨fitsStub, -⟩ := fits.stub s hs
  have owner : s.cell.owner = planned.owner := by rw [fitsStub.cell, fits.owner]
  obtain ⟨init, thunk, made₁, made₂⟩ := (binds.generated hp).2 s hs
  have known {method : MethodDef} (mem : method ∈ TypeScaffold.stubMethods c.helperType s) :=
    binds.methodsFor_planned unique id hp
      (List.mem_append_right _ (List.mem_flatMap.mpr ⟨s, hs, mem⟩))
  refine ⟨?_, ⟨init, made₁, ?_⟩, thunk, made₂, ?_⟩
  · have field : TypeScaffold.addressCell s.cell ∈ planned.fields :=
      List.mem_append_right _ (List.mem_flatMap.mpr ⟨s, hs, List.mem_singleton_self _⟩)
    have found := binds.fieldsFor_planned unique id hp field
    rwa [TypeScaffold.ref_addressCell owner] at found
  · have found := known (TypeScaffold.mem_stubMethods.mpr (.inl made₁))
    rwa [fits.owner, StubScaffold.ref_initializerDef fitsStub made₁] at found
  · have found := known (TypeScaffold.mem_stubMethods.mpr (.inr made₂))
    rwa [fits.owner, StubScaffold.ref_thunkDef fitsStub made₂] at found

variable (framework : ∀ member : RuntimeMember, member.ref.owner ≠ c.helperType ∧
  ∀ t ∈ m.types, t.name ≠ member.ref.owner)

include framework

theorem Binds.refers_mentions {i : Instr} (mentions : Mentions c.helperType c.loadFlags i) :
    (m.boundLate c types bodies helper id).Refers (generatedOwners c types) i := by
  have last : (Helper.emptyDef c.helperType).extend [] (Helper.methods c.helperType c.loadFlags) ∈
      (m.boundLate c types bodies helper id).types := by
    cases binds.helper.symm.trans (Helper.typeDef_eq c.helperType c.loadFlags)
    rw [binds.boundLate_eq]
    exact List.mem_append_right _ (List.mem_singleton_self _)
  have unique' := binds.unique_boundLate unique id
  have known : c.helperType ∈ generatedOwners c types := List.mem_cons_self
  have field {field : FieldDef} (hf : field ∈ Helper.fieldDefs) :
      field.isStatic ∧ (m.boundLate c types bodies helper id).fieldsFor
        (field.ref c.helperType) = [field] := by
    have static : ∀ field ∈ Helper.fieldDefs, field.isStatic := by decide
    refine ⟨static field hf, fieldsFor_ref unique' last ?_⟩
    exact List.filter_beq_of_nodup_map (Helper.distinct_helper c.helperType c.loadFlags).1 hf
  cases i with
  | ldsfld f =>
    obtain ⟨fd, hf, rfl⟩ := mentions
    exact refers_ldsfld known (field hf).1 (field hf).2
  | stsfld f =>
    obtain ⟨fd, hf, rfl⟩ := mentions
    exact refers_stsfld known (field hf).1 (field hf).2
  | call r =>
    rcases mentions with ⟨method, hm, rfl⟩ | ⟨member, rfl⟩
    · refine refers_call known (methodsFor_ref unique' last ?_)
      refine List.filter_beq_of_nodup_map (f := MethodDef.name) ?_ hm
      exact Helper.names_nodup c.helperType c.loadFlags
    · exact binds.refers_framework id framework member
  | newobj r =>
    obtain rfl : r = Framework.exceptionCtor := mentions
    exact ⟨rfl, rfl⟩
  | _ => trivial

/-- The body of a stub mentions what is there. -/
theorem Binds.refers_uses {planned : TypeScaffold} (hp : planned ∈ types) {s : StubScaffold}
    (hs : s ∈ planned.stubs) {i : Instr} (uses : s.Uses c.helperType i) :
    (m.boundLate c types bodies helper id).Refers (generatedOwners c types) i := by
  obtain ⟨t, imports, -, fits⟩ := binds.fits_of_mem hp
  obtain ⟨fitsStub, -⟩ := fits.stub s hs
  have has := binds.hasStub unique id hp hs
  have known : t.name ∈ generatedOwners c types :=
    List.mem_cons_of_mem _ (fits.owner ▸ List.mem_map_of_mem hp)
  cases i with
  | ldsfld f =>
    obtain rfl : f = s.cell := uses
    exact (refers_cell (by rw [fitsStub.cell]; exact known) has.cell).1
  | stsfld f => exact uses.elim
  | newobj r => exact uses.elim
  | call r =>
    rcases uses with rfl | rfl | converts | ⟨member, rfl⟩
    · exact has.refers_initializer fitsStub known
    · exact has.refers_thunk fitsStub known
    · exact binds.refers_mentions unique id framework (mentions_conversion converts)
    · exact binds.refers_framework id framework member
  | _ => trivial

theorem Binds.refers_planned {planned : TypeScaffold} (hp : planned ∈ types) :
    ∀ method ∈ planned.methods c.helperType, method.Only
      ((m.boundLate c types bodies helper id).Refers (generatedOwners c types)) := by
  obtain ⟨t, imports, -, fits⟩ := binds.fits_of_mem hp
  have known : t.name ∈ generatedOwners c types :=
    List.mem_cons_of_mem _ (fits.owner ▸ List.mem_map_of_mem hp)
  have library {l : LibraryScaffold} (hl : l ∈ planned.libraries) :=
    refers_cell (by rw [(fits.library l hl).cell]; exact known) (binds.hasLibrary unique id hp hl).cell
  have own (place : Nat) {method : MethodDef}
      (at_ : (Helper.methods c.helperType c.loadFlags)[place]? = some method) {r : MethodRef}
      (same : r = method.ref c.helperType) :=
    binds.refers_mentions unique id framework (mentions_own place at_ same)
  intro method hm
  rcases List.mem_append.mp hm with hm | hm
  · obtain ⟨l, hl, hm⟩ := List.mem_flatMap.mp hm
    exact LibraryScaffold.only_loaderDef refers_of_silent (own 20 rfl rfl) (library hl).2
      (TypeScaffold.mem_libraryMethods.mp hm)
  · obtain ⟨s, hs, hm⟩ := List.mem_flatMap.mp hm
    obtain ⟨fitsStub, hl⟩ := fits.stub s hs
    have cell := refers_cell (by rw [fitsStub.cell]; exact known) (binds.hasStub unique id hp hs).cell
    rcases TypeScaffold.mem_stubMethods.mp hm with made | made
    · exact StubScaffold.only_initializerDef refers_of_silent (library hl).1
        ((binds.hasLibrary unique id hp hl).refers_loader (fits.library _ hl) known)
        (own 22 rfl rfl) cell.2 made
    · exact StubScaffold.only_thunkDef refers_of_silent made

/-- Every method of the bound module is one of the old ones at its place, or mentions what is
there. -/
theorem Binds.refers_boundLate {i j : Nat} {t : TypeDef} {method : MethodDef}
    (own : (m.boundLate c types bodies helper id).types[i]? = some t)
    (at_ : t.methods[j]? = some method) :
    (∃ old, m.types[i]? = some old ∧ old.methods[j]? = some method) ∨
      method.Only ((m.boundLate c types bodies helper id).Refers (generatedOwners c types)) := by
  rcases binds.method_cases id own at_ with
    kept | ⟨old, stub, body, own', at', hb, rfl⟩ | ⟨planned, hp, hm⟩ | rfl
  · exact .inl kept
  · obtain ⟨s, hs, -, compiled⟩ :=
      List.exists_left_of_forall₂ (compileStubs_spec binds.compiled) hb
    obtain ⟨planned, hp, hs⟩ := List.mem_flatMap.mp hs
    refine .inr fun body' same i hi => ?_
    cases same
    exact binds.refers_uses unique id framework hp hs (StubBody.uses_of_compile compiled i hi)
  · exact .inr (binds.refers_planned unique id framework hp method hm)
  · cases binds.helper.symm.trans (Helper.typeDef_eq c.helperType c.loadFlags)
    exact .inr fun body hb i hi => binds.refers_mentions unique id framework
      (Helper.only_methods c.helperType c.loadFlags method (List.mem_of_getElem? at_) body hb i hi)

end References

/-- In the place of an eligible stub stands a body that reaches what was made for the stub. -/
theorem Binds.reaches (binds : m.Binds c found types bodies helper) (id : Uuid) {l : LocatedMethod}
    {info : Import} (eligible : (l, info) ∈ m.eligibleStubs c.exclusions) :
    ∃ planned ∈ types, ∃ s ∈ planned.stubs, s.stub.Declares l info ∧ ∃ t method body,
      (m.boundLate c types bodies helper id).types[l.handle.typeIndex]? = some t ∧
        t.methods[l.handle.methodIndex]? = some method ∧ method.body = some body ∧
        s.Reaches c.helperType body := by
  obtain ⟨mem, -, isImport⟩ := mem_eligibleStubs.mp eligible
  obtain ⟨own, at_⟩ := mem_methods.mp mem
  obtain ⟨body, hb, eq⟩ := MethodDef.bound_of_exists l.method (binds.exists_mem eligible)
  obtain ⟨s, hs, l', info', compiled, place, eligible', declares⟩ := binds.stub_of_mem hb
  obtain ⟨planned, hp, hs⟩ := List.mem_flatMap.mp hs
  obtain rfl : l' = l := by
    obtain ⟨own', at'⟩ := mem_methods.mp (mem_eligibleStubs.mp eligible').1
    obtain ⟨handle, t, method⟩ := l
    obtain ⟨handle', t', method'⟩ := l'
    simp only at place own own' at_ at'
    subst place
    cases own.symm.trans own'
    cases at_.symm.trans at'
    rfl
  cases isImport.symm.trans (mem_eligibleStubs.mp eligible').2.2
  refine ⟨planned, hp, s, hs, declares, _, l'.method.bound l'.handle bodies, body,
    binds.getElem?_boundLate id own, ?_, by rw [eq]; rfl, StubBody.reaches_of_compile compiled⟩
  have known : l'.handle.methodIndex < l'.owner.methods.length :=
    (List.getElem?_eq_some_iff.mp at_).1
  rw [boundType, List.getElem?_append_left (by rwa [List.length_mapIdx]), List.getElem?_mapIdx, at_,
    Option.map_some]

/-- Every reference of generated code resolves. In a module whose types have names of their own, none
of them that of a type of the framework's library, late binding puts no instruction into a body that
mentions a member which is not there exactly once, with the type or the signature of the mention. The
names that a type gets are new to it and differ from each other, every stub reaches what was made for
it, and types with distinct members keep them distinct. -/
theorem references_of_bindLate {id : Uuid} {out : LateBound}
    (unique : (m.types.map TypeDef.name).Nodup)
    (framework : ∀ member : RuntimeMember, member.ref.owner ≠ c.helperType ∧
      ∀ t ∈ m.types, t.name ≠ member.ref.owner)
    (ok : m.bindLate c id = .ok out) :
    ∃ found types, m.importTable c.exclusions = .ok found ∧ m.planTypes c found = .ok types ∧
      (∀ (i j : Nat) (t : TypeDef) (method : MethodDef), out.module.types[i]? = some t →
        t.methods[j]? = some method → (∃ old, m.types[i]? = some old ∧ old.methods[j]? = some method) ∨
          method.Only (out.module.Refers (generatedOwners c types))) ∧
      (types.map TypeScaffold.owner).Nodup ∧
      (∀ planned ∈ types, planned.names.Nodup ∧
        (∀ t ∈ m.types, t.name = planned.owner → ∀ name ∈ planned.names, name ∉ t.memberNames) ∧
        (∀ l ∈ planned.libraries, out.module.HasLibrary c.helperType l) ∧
        ∀ s ∈ planned.stubs, s.library ∈ planned.libraries ∧
          out.module.HasStub c.helperType s) ∧
      (∀ l info, (l, info) ∈ m.eligibleStubs c.exclusions →
        ∃ planned ∈ types, ∃ s ∈ planned.stubs, s.stub.Declares l info ∧ ∃ t method body,
          out.module.types[l.handle.typeIndex]? = some t ∧
            t.methods[l.handle.methodIndex]? = some method ∧ method.body = some body ∧
            s.Reaches c.helperType body) ∧
      ∀ (i : Nat) t', out.module.types[i]? = some t' →
        (∀ t, m.types[i]? = some t → t.Distinct) → t'.Distinct := by
  rcases bindLate_cases ok with ⟨-, table, same⟩ | ⟨found, types, bodies, helper, binds, -, eq⟩
  · refine ⟨[], [], table, rfl, ?_, by simp, by simp, fun l info eligible => ?_, ?_⟩
    · rw [same]
      exact fun i j t method own at_ => .inl ⟨t, own, at_⟩
    · obtain ⟨s, hs, -⟩ := exists_mem_stubs table eligible
      cases hs
    · rw [same]
      exact fun i t' own distinct => distinct t' own
  · rw [eq]
    refine ⟨found, types, binds.table, binds.plan,
      fun i j t method => binds.refers_boundLate unique id framework, binds.owners,
      fun planned hp => ⟨binds.names_nodup hp, ?free, fun l => binds.hasLibrary unique id hp,
        fun s hs => ⟨?library, binds.hasStub unique id hp hs⟩⟩,
      fun l info => binds.reaches id, ?distinct⟩
    case free =>
      intro t ht name
      obtain ⟨i, t', own, name', at_⟩ := binds.exists_plansAt hp
      obtain rfl : t = t' :=
        List.inj_on_of_nodup_map unique ht (List.mem_of_getElem? own) (name.trans name'.symm)
      exact fun name hname => (binds.names_of_plansAt own at_ name hname).1
    case library =>
      obtain ⟨t, imports, -, fits⟩ := binds.fits_of_mem hp
      exact (fits.stub s hs).2
    case distinct =>
      intro i t' own distinct
      cases old : m.types[i]? with
      | some t =>
        cases own.symm.trans (binds.getElem?_boundLate id old)
        exact binds.distinct_boundType old (distinct t old)
      | none =>
        rw [binds.boundLate_eq, List.getElem?_append_right
          (by rwa [List.length_mapIdx, ← List.getElem?_eq_none_iff])] at own
        cases List.mem_singleton.mp (List.mem_of_getElem? own)
        cases binds.helper.symm.trans (Helper.typeDef_eq c.helperType c.loadFlags)
        exact Helper.distinct_helper c.helperType c.loadFlags

/-- Two stubs of one name, and a third whose name is what the second would be numbered as. -/
def overloads : Module :=
  let stub (name : String) (type : TypeRef) : MethodDef :=
    { (MethodDef.static name .void).importing "m" with params := [ParamDef.plain "a" type] }
  (start "overloads" Uuid.zero).withType ((((TypeDef.ofKind "A.T" .classType).withMethod
    (stub "Foo" .i32)).withMethod (stub "Foo" .i64)).withMethod (stub "Foo_1" .i32))

theorem bindLate_overloads : ∃ out, overloads.bindLate Config.default Uuid.zero = .ok out := by
  have few : overloads.FewParams := by
    unfold FewParams
    decide
  have checked : (overloads.importTable Config.default.exclusions).isOk = true := by decide +kernel
  cases table : overloads.importTable Config.default.exclusions with
  | error e =>
    rw [table] at checked
    cases checked
  | ok found =>
    exact bindLate_of_free few Uuid.zero Config.fault?_default table (.inr (by decide))

theorem references_of_bindLate_overloads :
    ∃ (out : LateBound) (types : List TypeScaffold), overloads.bindLate Config.default Uuid.zero = .ok out ∧
      types.map TypeScaffold.names =
        [["pl_m", "LoadLibrarym", "p_Foo", "init_Foo", "native_Foo", "p_Foo_1", "init_Foo_1",
          "native_Foo_1", "p_Foo_1_1", "init_Foo_1_1", "native_Foo_1_1"]] ∧
      (∀ planned ∈ types, ∀ s ∈ planned.stubs,
        out.module.HasStub Config.default.helperType s) ∧
      ∀ (i : Nat) t, out.module.types[i]? = some t → t.Distinct := by
  obtain ⟨out, ok⟩ := bindLate_overloads
  have framework : ∀ member : RuntimeMember, member.ref.owner ≠ Config.default.helperType ∧
      ∀ t ∈ overloads.types, t.name ≠ member.ref.owner := by
    intro member
    cases member <;> decide
  obtain ⟨found, types, table, plan, -, -, planned, -, distinct⟩ :=
    references_of_bindLate (by decide) framework ok
  have names : ((overloads.importTable Config.default.exclusions >>=
      overloads.planTypes Config.default).map fun types => types.map TypeScaffold.names) =
      .ok [["pl_m", "LoadLibrarym", "p_Foo", "init_Foo", "native_Foo", "p_Foo_1", "init_Foo_1",
        "native_Foo_1", "p_Foo_1_1", "init_Foo_1_1", "native_Foo_1_1"]] := by decide +kernel
  rw [table, ok_bind, plan] at names
  refine ⟨out, types, ok, Except.ok.inj names, fun p hp s hs => ((planned p hp).2.2.2 s hs).2,
    fun i t own => distinct i t own fun old own' => ?_⟩
  have before : ∀ t ∈ overloads.types, (t.fields.map FieldDef.name).Nodup ∧
      (t.methods.map fun method => (method.name, method.paramTypes)).Nodup := by decide
  exact before old (List.mem_of_getElem? own')

end Module

end LateBind

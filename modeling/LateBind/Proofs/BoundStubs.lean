import LateBind.Proofs.Reports
import LateBind.Proofs.StubLoading
import LateBind.Proofs.StubRuns

/-! # Stubs of the bound module

Late binding puts into the module what a call of a stub needs: the body of the stub, the thunk, the
initializer, and the loader of the library. No two cells are one static field. -/

namespace LateBind

open Machine

namespace Module

/-- The only method that a mention can mean is the one that it is resolved to. -/
theorem resolveMethod?_of_methodsFor {m : Module} (unique : (m.types.map TypeDef.name).Nodup)
    {r : MethodRef} {method : MethodDef} (only : m.methodsFor r = [method]) :
    m.resolveMethod? r.owner r.name r.params = some ⟨r.owner, method⟩ := by
  have mem : method ∈ m.methodsFor r := by rw [only]; exact List.mem_singleton_self _
  obtain ⟨t, ht, -⟩ := List.mem_flatMap.mp mem
  obtain ⟨ht, name⟩ := List.mem_filter.mp ht
  have owner : t.name = r.owner := by simpa using name
  have types := List.filter_beq_of_nodup_map unique ht
  rw [owner] at types
  have found : m.ownType? r.owner = some t := by
    rw [ownType?, ← List.head?_filter, types]
    rfl
  rw [methodsFor, types, List.flatMap_singleton] at only
  rw [resolveMethod?, found]
  simp only [Option.bind_eq_bind, Option.bind_some]
  rw [← List.head?_filter, only, owner]
  rfl

end Module

/-- The code for a stub is in the module, and the stub has its body. -/
structure Machine.HasBound (m : Machine) (c : Config) (owner : TypeName) (st : StubScaffold)
    (callee : OwnedMethod) : Prop where
  loads : m.LoadsStub c owner st
  runs : m.RunsStub c.helperType c.loadFlags st callee

/-! ## Cells -/

/-- The static fields have names of their own. -/
def FieldRef.Apart (f g : FieldRef) : Prop := f.owner ≠ g.owner ∨ f.name ≠ g.name

theorem FieldRef.Apart.symm {f g : FieldRef} (apart : f.Apart g) : g.Apart f :=
  apart.imp Ne.symm Ne.symm

/-- In lists that have no item twice together, each item tells its list. -/
theorem List.eq_of_mem_of_nodup_flatMap {α β : Type} {l : List α} {f : α → List β}
    (nodup : (l.flatMap f).Nodup) {a a' : α} (ha : a ∈ l) (ha' : a' ∈ l) {b : β} (hb : b ∈ f a)
    (hb' : b ∈ f a') : a = a' := by
  by_contra other
  have : Std.Symm (Function.onFun List.Disjoint f) := ⟨fun _ _ h => h.symm⟩
  exact (List.nodup_flatMap.mp nodup).2.forall ha ha' other hb hb'

/-- Items that are taken with more beside them stand in their order. -/
theorem List.map_filterMap_sublist {α β : Type} {f : α → Option β} {g : β → α}
    (back : ∀ a b, f a = some b → g b = a) (l : List α) : ((l.filterMap f).map g).Sublist l := by
  induction l with
  | nil => exact List.nil_sublist []
  | cons a l ih =>
    rw [List.filterMap_cons]
    split
    · exact ih.cons a
    · next b taken =>
      rw [List.map_cons, back a b taken]
      exact ih.cons_cons a

namespace TypeScaffold

variable {planned : TypeScaffold} (nodup : planned.names.Nodup)

include nodup

theorem libraries_eq_of_names {l l' : LibraryScaffold} (hl : l ∈ planned.libraries)
    (hl' : l' ∈ planned.libraries) (same : l.cell.name = l'.cell.name) : l = l' :=
  List.eq_of_mem_of_nodup_flatMap (List.nodup_append.mp nodup).1 hl hl'
    (List.mem_cons_self : l.cell.name ∈ l.names) (same ▸ List.mem_cons_self)

theorem stubs_eq_of_names {st st' : StubScaffold} (hs : st ∈ planned.stubs)
    (hs' : st' ∈ planned.stubs) (same : st.cell.name = st'.cell.name) : st = st' :=
  List.eq_of_mem_of_nodup_flatMap (List.nodup_append.mp nodup).2.1 hs hs'
    (List.mem_cons_self : st.cell.name ∈ st.names) (same ▸ List.mem_cons_self)

theorem cells_ne {l : LibraryScaffold} {st : StubScaffold} (hl : l ∈ planned.libraries)
    (hs : st ∈ planned.stubs) : st.cell.name ≠ l.cell.name := by
  have apart := (List.nodup_append.mp nodup).2.2
  exact fun same => apart _ (List.mem_flatMap.mpr ⟨l, hl, List.mem_cons_self⟩) _
    (List.mem_flatMap.mpr ⟨st, hs, List.mem_cons_self⟩) same.symm

end TypeScaffold

namespace Module

variable {original : Module} {c : Config} {found : ImportTable} {types : List TypeScaffold}
  {bodies : List (MethodHandle × Body)} {helper : TypeDef}
  (binds : original.Binds c found types bodies helper)

include binds

section Cells

variable {planned planned' : TypeScaffold} (hp : planned ∈ types) (hp' : planned' ∈ types)

include hp

theorem Binds.owner_libraryCell {l : LibraryScaffold} (hl : l ∈ planned.libraries) :
    l.cell.owner = planned.owner := by
  obtain ⟨t, imports, -, fits⟩ := binds.fits_of_mem hp
  rw [(fits.library l hl).cell, fits.owner]

theorem Binds.owner_stubCell {st : StubScaffold} (hs : st ∈ planned.stubs) :
    st.cell.owner = planned.owner := by
  obtain ⟨t, imports, -, fits⟩ := binds.fits_of_mem hp
  rw [(fits.stub st hs).1.cell, fits.owner]

include hp'

/-- The cells of two libraries are apart. -/
theorem Binds.apart_libraries {l l' : LibraryScaffold} (hl : l ∈ planned.libraries)
    (hl' : l' ∈ planned'.libraries) (other : l ≠ l') : l.cell.Apart l'.cell := by
  by_contra same
  simp only [FieldRef.Apart, not_or, not_not] at same
  rw [binds.owner_libraryCell hp hl, binds.owner_libraryCell hp' hl'] at same
  obtain rfl : planned = planned' := List.inj_on_of_nodup_map binds.owners hp hp' same.1
  exact other (TypeScaffold.libraries_eq_of_names (binds.names_nodup hp) hl hl' same.2)

/-- The cells of two stubs are apart. -/
theorem Binds.apart_stubs {st st' : StubScaffold} (hs : st ∈ planned.stubs)
    (hs' : st' ∈ planned'.stubs) (other : st ≠ st') : st.cell.Apart st'.cell := by
  by_contra same
  simp only [FieldRef.Apart, not_or, not_not] at same
  rw [binds.owner_stubCell hp hs, binds.owner_stubCell hp' hs'] at same
  obtain rfl : planned = planned' := List.inj_on_of_nodup_map binds.owners hp hp' same.1
  exact other (TypeScaffold.stubs_eq_of_names (binds.names_nodup hp) hs hs' same.2)

/-- The cell of a stub and that of a library are apart. -/
theorem Binds.apart_stub_library {st : StubScaffold} {l : LibraryScaffold} (hs : st ∈ planned.stubs)
    (hl : l ∈ planned'.libraries) : st.cell.Apart l.cell := by
  by_contra same
  simp only [FieldRef.Apart, not_or, not_not] at same
  rw [binds.owner_stubCell hp hs, binds.owner_libraryCell hp' hl] at same
  obtain rfl : planned = planned' := List.inj_on_of_nodup_map binds.owners hp hp' same.1
  exact TypeScaffold.cells_ne (binds.names_nodup hp) hl hs same.2

end Cells

/-! ## Code -/

section Code

variable (unique : (original.types.map TypeDef.name).Nodup) {id : Uuid} {m : Machine}
  (runs : m.module = original.boundLate c types bodies helper id) (hasHelper : m.HasHelper c.helperType c.loadFlags)
  {planned : TypeScaffold} (hp : planned ∈ types) {st : StubScaffold} (hs : st ∈ planned.stubs)

include unique runs hasHelper hp hs

theorem Binds.loadsStub : m.LoadsStub c planned.owner st := by
  obtain ⟨t, imports, other, fits⟩ := binds.fits_of_mem hp
  obtain ⟨fitsStub, known⟩ := fits.stub st hs
  have fitsLibrary := fits.library _ known
  have unique' := binds.unique_boundLate unique id
  obtain ⟨loader, loaderMade, onlyLoader⟩ := (binds.hasLibrary unique id hp known).loader
  obtain ⟨init, initMade, onlyInit⟩ := (binds.hasStub unique id hp hs).initializer
  have loaderOwner : st.library.loader.owner = planned.owner := by rw [fitsLibrary.loader, fits.owner]; rfl
  have initOwner : st.initializer.owner = planned.owner := by rw [fitsStub.initializer, fits.owner]; rfl
  refine ⟨hasHelper, fits.owner ▸ fitsStub, fits.owner ▸ fitsLibrary, fits.owner ▸ other,
    TypeScaffold.cells_ne (binds.names_nodup hp) known hs, ⟨loader, loaderMade, ?_⟩, init, initMade, ?_⟩
  · rw [runs, resolveMethod?_of_methodsFor unique' onlyLoader, loaderOwner]
  · rw [runs, resolveMethod?_of_methodsFor unique' onlyInit, initOwner]

theorem Binds.runsStub {callee : OwnedMethod} (few : st.stub.params.length < 30000)
    {body : Body} (compiled : StubBody.compile c.helperType st = .ok body)
    (hasBody : callee.method.body = some body) (notImport : callee.method.importInfo = none)
    (returns : callee.method.returnType = st.stub.returns.type) :
    m.RunsStub c.helperType c.loadFlags st callee := by
  obtain ⟨t, imports, -, fits⟩ := binds.fits_of_mem hp
  obtain ⟨fitsStub, -⟩ := fits.stub st hs
  have mem : st.stub ∈ found.stubs := by
    rw [← stubs_of_plans binds.planned]
    exact List.mem_map_of_mem (List.mem_flatMap.mpr ⟨planned, hp, hs⟩)
  obtain ⟨l, info, -, declares⟩ := declares_of_mem_stubs binds.table mem
  have owner : st.thunk.owner = t.name := by rw [fitsStub.thunk]; rfl
  obtain ⟨thunk, thunkMade, onlyThunk⟩ := (binds.hasStub unique id hp hs).thunk
  refine ⟨hasHelper, ⟨owner ▸ fitsStub, declares.void, few⟩, ⟨body, compiled, hasBody⟩, notImport,
    returns, thunk, thunkMade, ?_⟩
  rw [runs, resolveMethod?_of_methodsFor (binds.unique_boundLate unique id) onlyThunk]

end Code

end Module

/-! ## Places -/

/-- The method at a place, with the name of its type. -/
def Module.ownedAt? (m : Module) (place : MethodHandle) : Option OwnedMethod :=
  m.types[place.typeIndex]?.bind fun t => t.methods[place.methodIndex]?.map (⟨t.name, ·⟩)

namespace Module

/-- No two methods have one place. -/
theorem places_nodup (m : Module) : (m.methods.map LocatedMethod.handle).Nodup := by
  have numbers {α : Type} (l : List α) : (l.zipIdx.map Prod.snd).Nodup := by
    rw [List.zipIdx_map_snd]
    exact List.nodup_range'
  rw [methods, List.map_flatMap]
  refine List.nodup_flatMap.mpr ⟨?_, ?_⟩
  · rintro ⟨t, i⟩ -
    have places : (t.methods.zipIdx.map fun x => MethodHandle.mk i x.2).Nodup := by
      have made := (numbers t.methods).map (f := MethodHandle.mk i)
        fun _ _ same => (MethodHandle.mk.inj same).2
      rwa [List.map_map] at made
    rwa [List.map_map]
  · refine (List.pairwise_map.mp (numbers m.types)).imp ?_
    rintro ⟨t, i⟩ ⟨t', i'⟩ other place here there
    simp only [List.map_map, List.mem_map, Function.comp_apply] at here there
    obtain ⟨_, -, rfl⟩ := here
    obtain ⟨_, -, same⟩ := there
    exact other (MethodHandle.mk.inj same).1.symm

end Module

section Places

variable {original : Module} {c : Config} {found : ImportTable} {types : List TypeScaffold}
  {bodies : List (MethodHandle × Body)} {helper : TypeDef}
  (binds : original.Binds c found types bodies helper)

include binds

/-- No two planned stubs are for one method. -/
theorem Module.Binds.places_nodup :
    ((types.flatMap TypeScaffold.stubs).map fun st => st.stub.handle).Nodup := by
  obtain ⟨stubs, declared, rfl⟩ := exists_declared_of_importTable binds.table
  have places : stubs.map Stub.handle =
      (original.eligibleStubs c.exclusions).map (·.1.handle) :=
    List.map_eq_of_forall₂ (List.forall₂_map_left_iff.mpr (declared.imp fun _ _ each => each.handle))
  have eligible : ((original.eligibleStubs c.exclusions).map Prod.fst).Sublist original.methods :=
    List.map_filterMap_sublist (fun l e found => by
      split at found
      · cases found
      · obtain ⟨info, -, rfl⟩ := Option.map_eq_some_iff.mp found
        rfl) _
  have planned := stubs_of_plans binds.planned
  rw [ImportTable.stubs_ofStubs] at planned
  have all : ((types.flatMap TypeScaffold.stubs).map fun st => st.stub.handle).Perm
      (stubs.map Stub.handle) := by
    rw [← Function.comp_def, ← List.map_map, planned]
    exact (groupedBy_perm Stub.owner stubs).map Stub.handle
  rw [all.nodup_iff, places, ← Function.comp_def, ← List.map_map]
  exact original.places_nodup.sublist (eligible.map LocatedMethod.handle)

variable (id : Uuid)

/-- A planned stub is for one of the eligible ones, which has got the body that was made for it. -/
theorem Module.Binds.exists_callee {planned : TypeScaffold} (hp : planned ∈ types) {st : StubScaffold}
    (hs : st ∈ planned.stubs) : ∃ l info body, (l, info) ∈ original.eligibleStubs c.exclusions ∧
      st.stub.Declares l info ∧ StubBody.compile c.helperType st = .ok body ∧
      (original.boundLate c types bodies helper id).ownedAt? st.stub.handle =
        some ⟨l.owner.name, l.method.implemented body⟩ := by
  have planned' : st ∈ types.flatMap TypeScaffold.stubs := List.mem_flatMap.mpr ⟨planned, hp, hs⟩
  obtain ⟨b, hb, place, compiled⟩ :=
    List.exists_right_of_forall₂ (compileStubs_spec binds.compiled) planned'
  have mem : st.stub ∈ found.stubs := by
    rw [← stubs_of_plans binds.planned]
    exact List.mem_map_of_mem planned'
  obtain ⟨l, info, eligible, declares⟩ := declares_of_mem_stubs binds.table mem
  obtain ⟨own, at_⟩ := mem_methods.mp (mem_eligibleStubs.mp eligible).1
  obtain ⟨body, hb', eq⟩ := MethodDef.bound_of_exists l.method (binds.exists_mem eligible)
  obtain ⟨st', hs', place', compiled'⟩ :=
    List.exists_left_of_forall₂ (compileStubs_spec binds.compiled) hb'
  obtain rfl : st = st' := List.inj_on_of_nodup_map binds.places_nodup planned' hs'
    (declares.handle.trans place')
  refine ⟨l, info, body, eligible, declares, compiled', ?_⟩
  have known : l.handle.methodIndex < l.owner.methods.length :=
    (List.getElem?_eq_some_iff.mp at_).1
  rw [ownedAt?, declares.handle, binds.getElem?_boundLate id own, Option.bind_some, boundType,
    List.getElem?_append_left (by rwa [List.length_mapIdx]), List.getElem?_mapIdx, at_,
    Option.map_some, Option.map_some, eq]

/-- Every planned stub is bound. -/
theorem Module.Binds.hasBound (unique : (original.types.map TypeDef.name).Nodup) {m : Machine}
    (runs : m.module = original.boundLate c types bodies helper id)
    (hasHelper : m.HasHelper c.helperType c.loadFlags) {planned : TypeScaffold} (hp : planned ∈ types)
    {st : StubScaffold} (hs : st ∈ planned.stubs) (few : st.stub.params.length < 30000) :
    ∃ callee, m.module.ownedAt? st.stub.handle = some callee ∧
      m.HasBound c planned.owner st callee := by
  obtain ⟨l, info, body, -, declares, compiled, placed⟩ := binds.exists_callee id hp hs
  rw [runs]
  exact ⟨_, placed, binds.loadsStub unique runs hasHelper hp hs,
    binds.runsStub unique runs hasHelper hp hs few compiled rfl rfl declares.returnType.symm⟩

end Places

end LateBind

import LateBind.Proofs.Naming

/-! # Planned members

Planning succeeds for every type whose stubs name libraries of that type. What it plans fits the
stubs, and its names are given out in a row, so that no two of them agree with each other or with
that of an old member. -/

namespace LateBind

open Naming

/-! ## Runs that can fail -/

namespace Naming

variable {α β : Type} {taken taken' : List String}

theorem run_lift_bind (x : Naming α) (f : α → ExceptT BindError Naming β) :
    ((x : ExceptT BindError Naming α) >>= f).run taken = (f (x taken).1).run (x taken).2 := rfl

theorem run_bind_of_ok {x : ExceptT BindError Naming α} {a : α} (hx : x.run taken = (.ok a, taken'))
    (f : α → ExceptT BindError Naming β) : (x >>= f).run taken = (f a).run taken' := by
  simp only [ExceptT.run, bind, ExceptT.bind, ExceptT.mk, StateT.bind] at hx ⊢
  rw [hx]
  rfl

end Naming

/-! ## Libraries -/

namespace LibraryScaffold

def names (l : LibraryScaffold) : List String := [l.cell.name, l.loader.name]

/-- What the names for a library are made of. -/
def bases (library : String) : List String :=
  ["pl_" ++ libraryFragment library, "LoadLibrary" ++ libraryFragment library]

/-- What is planned for a library of a type. -/
structure Fits (c : Config) (owner : TypeName) (l : LibraryScaffold) : Prop where
  loadName : l.loadName = c.loadName l.library
  cell : l.cell = ⟨owner, l.cell.name, .intPtr⟩
  loader : l.loader = .static owner l.loader.name [] .void
  generated : ∀ name ∈ l.names, Generated name

theorem plan_spec (c : Config) (owner : TypeName) (library : String) (taken : List String) :
    ∃ l taken', plan c owner library taken = (l, taken') ∧ l.library = library ∧ l.Fits c owner ∧
      GivesOut taken (bases library) l.names taken' :=
  have first := GivesOut.fresh ("pl_" ++ libraryFragment library) taken
  have second := GivesOut.fresh ("LoadLibrary" ++ libraryFragment library) _
  have generated := List.forall_mem_cons.mpr
    ⟨generated_fresh (by simp [stems] : "pl_" ∈ stems) (libraryFragment library) taken,
      List.forall_mem_singleton.mpr
        (generated_fresh (by simp [stems] : "LoadLibrary" ∈ stems) (libraryFragment library) _)⟩
  ⟨_, _, rfl, rfl, ⟨rfl, rfl, rfl, generated⟩, first.append second⟩

theorem mapM_plan_spec (c : Config) (owner : TypeName) (libraries : List String)
    (taken : List String) :
    ∃ ls taken', (libraries.mapM (plan c owner) : Naming _) taken = (ls, taken') ∧
      ls.map library = libraries ∧ (∀ l ∈ ls, l.Fits c owner) ∧
      GivesOut taken (libraries.flatMap bases) (ls.flatMap names) taken' := by
  induction libraries generalizing taken with
  | nil => exact ⟨[], taken, rfl, rfl, by simp, .nil⟩
  | cons library libraries ih =>
    obtain ⟨l, taken₁, eq₁, library₁, fits₁, gives₁⟩ := plan_spec c owner library taken
    obtain ⟨ls, taken₂, eq₂, libraries₂, fits₂, gives₂⟩ := ih taken₁
    refine ⟨l :: ls, taken₂, ?_, ?_, ?_, ?_⟩
    · rw [List.mapM_cons]
      simp only [bind, StateT.bind, eq₁, eq₂]
      rfl
    · rw [List.map_cons, library₁, libraries₂]
    · exact List.forall_mem_cons.mpr ⟨fits₁, fits₂⟩
    · exact gives₁.append gives₂

end LibraryScaffold

/-! ## Stubs -/

namespace StubScaffold

def names (s : StubScaffold) : List String := [s.cell.name, s.initializer.name, s.thunk.name]

/-- What the names for a stub are made of. -/
def bases (s : Stub) : List String := ["p_" ++ s.name, "init_" ++ s.name, "native_" ++ s.name]

/-- What is planned for a stub of a type. -/
structure Fits (owner : TypeName) (s : StubScaffold) : Prop where
  library : s.library.library = s.stub.library
  callSite : s.callSite = callSiteOf s.stub
  cell : s.cell = ⟨owner, s.cell.name, .intPtr⟩
  initializer : s.initializer = .static owner s.initializer.name [] .void
  thunk : s.thunk =
    .static owner s.thunk.name (s.callSite.params ++ [.intPtr]) s.callSite.returnType
  generated : ∀ name ∈ s.names, Generated name

theorem plan_spec (owner : TypeName) {l : LibraryScaffold} {s : Stub}
    (library : l.library = s.library) (taken : List String) :
    ∃ planned taken', plan owner l s taken = (planned, taken') ∧ planned.stub = s ∧
      planned.library = l ∧ planned.Fits owner ∧ GivesOut taken (bases s) planned.names taken' :=
  have first := GivesOut.fresh ("p_" ++ s.name) taken
  have second := GivesOut.fresh ("init_" ++ s.name) _
  have third := GivesOut.fresh ("native_" ++ s.name) _
  have generated := List.forall_mem_cons.mpr
    ⟨generated_fresh (by simp [stems] : "p_" ∈ stems) s.name taken,
      List.forall_mem_cons.mpr
        ⟨generated_fresh (by simp [stems] : "init_" ∈ stems) s.name _,
          List.forall_mem_singleton.mpr
            (generated_fresh (by simp [stems] : "native_" ∈ stems) s.name _)⟩⟩
  ⟨_, _, rfl, rfl, rfl, ⟨library, rfl, rfl, rfl, rfl, generated⟩,
    (first.append second).append third⟩

end StubScaffold

/-! ## Types -/

namespace TypeScaffold

theorem planStubs_spec (owner : TypeName) {libraries : List LibraryScaffold} {stubs : List Stub}
    (known : ∀ s ∈ stubs, s.library ∈ libraries.map LibraryScaffold.library)
    (taken : List String) :
    ∃ planned taken', (planStubs owner libraries stubs).run taken = (.ok planned, taken') ∧
      planned.map StubScaffold.stub = stubs ∧
      (∀ s ∈ planned, s.Fits owner ∧ s.library ∈ libraries) ∧
      GivesOut taken (stubs.flatMap StubScaffold.bases) (planned.flatMap StubScaffold.names)
        taken' := by
  induction stubs generalizing taken with
  | nil => exact ⟨[], taken, rfl, rfl, by simp, .nil⟩
  | cons s stubs ih =>
    obtain ⟨l, found⟩ : ∃ l, libraries.find? (·.library == s.library) = some l := by
      obtain ⟨l, hl, hname⟩ := List.mem_map.mp (known s (by simp))
      exact Option.isSome_iff_exists.mp
        (List.find?_isSome.mpr ⟨l, hl, by simpa using hname⟩)
    have library : l.library = s.library := by simpa using List.find?_some found
    obtain ⟨planned₁, taken₁, eq₁, stub₁, library₁, fits₁, gives₁⟩ :=
      StubScaffold.plan_spec owner library taken
    obtain ⟨planned₂, taken₂, eq₂, stubs₂, fits₂, gives₂⟩ :=
      ih (fun s hs => known s (List.mem_cons_of_mem _ hs)) taken₁
    refine ⟨planned₁ :: planned₂, taken₂, ?_, ?_, ?_, ?_⟩
    · rw [planStubs, found]
      simp only
      rw [run_lift_bind, eq₁, run_bind_of_ok eq₂]
      rfl
    · rw [List.map_cons, stub₁, stubs₂]
    · refine List.forall_mem_cons.mpr ⟨⟨fits₁, ?_⟩, fits₂⟩
      rw [library₁]
      exact List.mem_of_find?_eq_some found
    · exact gives₁.append gives₂

/-- What is planned for a type. -/
structure Fits (c : Config) (t : TypeDef) (imports : TypeImports) (planned : TypeScaffold) :
    Prop where
  owner : planned.owner = t.name
  libraries : planned.libraries.map LibraryScaffold.library = imports.libraries
  library : ∀ l ∈ planned.libraries, l.Fits c t.name
  stubs : planned.stubs.map StubScaffold.stub = imports.stubs
  stub : ∀ s ∈ planned.stubs, s.Fits t.name ∧ s.library ∈ planned.libraries

/-- The names of the new members, in the order in which they are given out. -/
def names (planned : TypeScaffold) : List String :=
  planned.libraries.flatMap LibraryScaffold.names ++ planned.stubs.flatMap StubScaffold.names

theorem Fits.generated {c : Config} {t : TypeDef} {imports : TypeImports} {planned : TypeScaffold}
    (fits : planned.Fits c t imports) : ∀ name ∈ planned.names, Generated name := by
  intro name hname
  rcases List.mem_append.mp hname with hname | hname
  · obtain ⟨l, hl, hname⟩ := List.mem_flatMap.mp hname
    exact (fits.library l hl).generated name hname
  · obtain ⟨s, hs, hname⟩ := List.mem_flatMap.mp hname
    exact (fits.stub s hs).1.generated name hname

/-- What the names of the new members are made of, in the same order. -/
def bases (imports : TypeImports) : List String :=
  imports.libraries.flatMap LibraryScaffold.bases ++ imports.stubs.flatMap StubScaffold.bases

theorem plan_givesOut (c : Config) (t : TypeDef) {imports : TypeImports}
    (known : ∀ s ∈ imports.stubs, s.library ∈ imports.libraries) :
    ∃ planned taken, plan c t imports = .ok planned ∧ planned.Fits c t imports ∧
      GivesOut t.memberNames (bases imports) planned.names taken := by
  obtain ⟨libraries, taken₁, eq₁, libraries₁, fits₁, gives₁⟩ :=
    LibraryScaffold.mapM_plan_spec c t.name imports.libraries t.memberNames
  obtain ⟨stubs, taken₂, eq₂, stubs₂, fits₂, gives₂⟩ :=
    planStubs_spec t.name (by rw [libraries₁]; exact known) taken₁
  refine ⟨⟨t.name, libraries, stubs⟩, taken₂, ?_, ⟨rfl, libraries₁, fits₁, stubs₂, fits₂⟩,
    gives₁.append gives₂⟩
  simp only [plan]
  rw [run_lift_bind, eq₁, run_bind_of_ok eq₂]
  rfl

theorem plan_spec (c : Config) (t : TypeDef) {imports : TypeImports}
    (known : ∀ s ∈ imports.stubs, s.library ∈ imports.libraries) :
    ∃ planned, plan c t imports = .ok planned ∧ planned.Fits c t imports ∧
      planned.names.Nodup ∧ ∀ name ∈ planned.names, name ∉ t.memberNames := by
  obtain ⟨planned, taken, ok, fits, gives⟩ := plan_givesOut c t known
  exact ⟨planned, ok, fits, gives.isFresh.nodup, gives.isFresh.free⟩

end TypeScaffold

end LateBind

import LateBind.Proofs.NativeWorld
import Mathlib.Algebra.GroupWithZero.Nat

/-! # Declared functions

A world answers for what was declared and for nothing else. Of a symbol that was declared several
times the last function counts, whether the library was declared in one piece or in many. -/

namespace LateBind

namespace LibraryDecl

/-- What is declared, in order: a library and a symbol, and the function. -/
def bodies (d : LibraryDecl) : List ((String × String) × NativeBody) :=
  d.functions.map fun (symbol, body) => ((d.name, symbol), body)

/-- The words that a declaration takes in memory: three for its name, three for the list of its
functions, and for each of these three for the symbol and two for the body. -/
def words (d : LibraryDecl) : Nat := 6 + 5 * d.functions.length

end LibraryDecl

/-- The function that was declared last for a symbol of a library. -/
def lastDeclared? (decls : List LibraryDecl) (library symbol : String) : Option NativeBody :=
  ((decls.flatMap LibraryDecl.bodies).reverse.find? (·.1 == (library, symbol))).map Prod.snd

/-- What a function was declared as. -/
def NativeFunction.declared (f : NativeFunction) : (String × String) × NativeBody :=
  ((f.library, f.symbol), f.body)

namespace World

variable {w : World} {bodies : List ((String × String) × NativeBody)}

/-! ## What is recorded -/

/-- The functions of a world are those that were declared, in order, and a symbol names the last of
its functions. -/
structure Records (w : World) (bodies : List ((String × String) × NativeBody)) : Prop where
  functions : w.functions.map NativeFunction.declared = bodies
  latest : ∀ library symbol, w.catalog.address? library symbol =
    (w.functions.reverse.find? fun f => f.declared.1 == (library, symbol)).map
      NativeFunction.address

theorem records_empty (p : Platform) : (empty p).Records [] := ⟨rfl, fun _ _ => rfl⟩

/-- A new library has no symbols. -/
theorem address?_addLibrary (w : World) (name library symbol : String) :
    (w.addLibrary name).catalog.address? library symbol = w.catalog.address? library symbol := by
  unfold World.addLibrary
  split
  · rfl
  · rw [Catalog.address?, Catalog.address?, Catalog.library?, Catalog.library?, List.find?_append]
    cases w.catalog.libraries.find? (·.name == library) with
    | some l => rfl
    | none =>
      rw [Option.none_or, Option.bind_none]
      by_cases same : name = library <;> simp [same]

theorem functions_addLibrary (w : World) (name : String) :
    (w.addLibrary name).functions = w.functions := by
  unfold World.addLibrary
  split <;> rfl

theorem Records.addLibrary (h : w.Records bodies) (name : String) :
    (w.addLibrary name).Records bodies := by
  refine ⟨?_, fun library symbol => ?_⟩
  · rw [functions_addLibrary]
    exact h.functions
  · rw [address?_addLibrary, functions_addLibrary]
    exact h.latest library symbol

/-- The new function is the last of its symbol. -/
theorem Records.addFunction (h : w.Records bodies) {library : String}
    (known : (w.catalog.library? library).isSome) (symbol : String) (body : NativeBody) :
    (w.addFunction library symbol body).Records (bodies ++ [((library, symbol), body)]) := by
  refine ⟨?_, fun library' symbol' => ?_⟩
  · rw [World.addFunction, List.map_append, h.functions]
    rfl
  · obtain ⟨l, found⟩ := Option.isSome_iff_exists.mp known
    rw [address?_addFunction, World.addFunction, List.reverse_append, List.reverse_singleton,
      List.singleton_append, List.find?_cons]
    by_cases same : library' = library ∧ symbol' = symbol
    · obtain ⟨rfl, rfl⟩ := same
      rw [if_pos ⟨rfl, rfl⟩, found]
      simp [NativeFunction.declared]
    · have other : ((library, symbol) == (library', symbol')) = false := by
        refine beq_eq_false_iff_ne.mpr fun eq => same ?_
        cases eq
        exact ⟨rfl, rfl⟩
      rw [if_neg same, h.latest]
      simp only [NativeFunction.declared, other]

theorem Records.addFunctions (h : w.Records bodies) {library : String}
    (known : (w.catalog.library? library).isSome) (functions : List (String × NativeBody)) :
    (functions.foldl (fun w (symbol, body) => w.addFunction library symbol body) w).Records
      (bodies ++ functions.map fun (symbol, body) => ((library, symbol), body)) := by
  induction functions generalizing w bodies with
  | nil => simpa using h
  | cons f functions ih =>
    have next := ih (h.addFunction known f.1 f.2) (by rw [library?_addFunction_isSome]; exact known)
    rwa [List.append_assoc] at next

theorem Records.declare (h : w.Records bodies) (d : LibraryDecl) :
    (w.declare d).Records (bodies ++ d.bodies) :=
  (h.addLibrary d.name).addFunctions (library?_addLibrary_self w d.name) d.functions

theorem Records.declareAll (h : w.Records bodies) (decls : List LibraryDecl) :
    (decls.foldl World.declare w).Records (bodies ++ decls.flatMap LibraryDecl.bodies) := by
  induction decls generalizing w bodies with
  | nil => simpa using h
  | cons d decls ih =>
    have next := ih (h.declare d)
    rwa [List.append_assoc] at next

theorem records_build (p : Platform) (declared : List LibraryDecl) :
    (build p declared).Records ((p.systemLibraries ++ declared).flatMap LibraryDecl.bodies) :=
  (records_empty p).declareAll _

/-- A symbol has an address when it was declared, and there is the function declared last. -/
theorem Records.lookup {decls : List LibraryDecl} (h : w.Records (decls.flatMap LibraryDecl.bodies))
    (library symbol : String) :
    (∃ f ∈ w.functions, w.catalog.address? library symbol = some f.address ∧
      lastDeclared? decls library symbol = some f.body) ∨
    w.catalog.address? library symbol = none ∧ lastDeclared? decls library symbol = none := by
  have last : lastDeclared? decls library symbol =
      (w.functions.reverse.find? fun f => f.declared.1 == (library, symbol)).map
        NativeFunction.body := by
    rw [lastDeclared?, ← h.functions, ← List.map_reverse, List.find?_map, Option.map_map]
    rfl
  rw [last, h.latest]
  cases found : w.functions.reverse.find? fun f => f.declared.1 == (library, symbol) with
  | none => exact .inr ⟨rfl, rfl⟩
  | some f => exact .inl ⟨f, List.mem_reverse.mp (List.mem_of_find?_eq_some found), rfl, rfl⟩

/-! ## Room -/

theorem length_libraries_declare (w : World) (d : LibraryDecl) :
    (w.declare d).catalog.libraries.length ≤ w.catalog.libraries.length + 1 := by
  have same (functions : List (String × NativeBody)) (w : World) :
      (functions.foldl (fun w (symbol, body) => w.addFunction d.name symbol body)
        w).catalog.libraries.length = w.catalog.libraries.length := by
    induction functions generalizing w with
    | nil => rfl
    | cons f functions ih => exact (ih _).trans (List.length_map _)
  rw [World.declare, same, World.addLibrary]
  split
  · exact Nat.le_succ _
  · simp

theorem length_libraries_declareAll (w : World) (decls : List LibraryDecl) :
    (decls.foldl World.declare w).catalog.libraries.length ≤
      w.catalog.libraries.length + decls.length := by
  induction decls generalizing w with
  | nil => simp
  | cons d decls ih =>
    have first := length_libraries_declare w d
    have rest := ih (w.declare d)
    rw [List.foldl_cons, List.length_cons]
    omega

theorem sum_words (decls : List LibraryDecl) : (decls.map LibraryDecl.words).sum =
    6 * decls.length + 5 * (decls.flatMap LibraryDecl.bodies).length := by
  induction decls with
  | nil => rfl
  | cons d decls ih =>
    simp only [List.map_cons, List.sum_cons, List.length_cons, List.flatMap_cons,
      List.length_append, ih, LibraryDecl.words, LibraryDecl.bodies, List.length_map]
    omega

theorem sum_words_systemLibraries (p : Platform) :
    (p.systemLibraries.map LibraryDecl.words).sum ≤ 32 := by
  unfold Platform.systemLibraries
  split
  · decide
  · dsimp only
    split
    · simp [LibraryDecl.words]
    · split <;> simp [LibraryDecl.words, Platform.dynamicLoader]

/-- Declarations that lie in an address space do not use up handles and addresses. -/
theorem small_build (p : Platform) {declared : List LibraryDecl}
    (fits : (declared.map LibraryDecl.words).sum < 2 ^ 61) : (build p declared).Small := by
  have system := sum_words_systemLibraries p
  have all := sum_words (p.systemLibraries ++ declared)
  rw [List.map_append, List.sum_append] at all
  have libraries : (build p declared).catalog.libraries.length ≤ _ :=
    length_libraries_declareAll (empty p) (p.systemLibraries ++ declared)
  have functions := congrArg List.length (records_build p declared).functions
  rw [List.length_map] at functions
  refine ⟨?_, by omega⟩
  have none : (empty p).catalog.libraries.length = 0 := rfl
  omega

/-! ## Answers -/

/-- The tables of a world agree with one another and with what was declared. -/
structure Tabulates (w : World) (decls : List LibraryDecl) : Prop where
  handles : (w.catalog.libraries.map Library.handle).Nodup
  handle_ne_zero : ∀ l ∈ w.catalog.libraries, l.handle ≠ 0
  addresses : (w.functions.map NativeFunction.address).Nodup
  address_ne_zero : ∀ f ∈ w.functions, f.address ≠ 0
  /-- What has a handle is opened by its name. -/
  opens : ∀ {name handle}, w.catalog.handle? name = some handle → w.catalog.isHandle handle ∧
    ∀ (call : UInt64 → List NativeValue → Native NativeValue) (flags : Int32) (p : NativeState),
      NativeContext.openLibrary ⟨w.catalog, call⟩ name flags p =
        (.ok handle, { p with loads := p.loads ++ [⟨name, flags⟩] })
  /-- A symbol is found alike by the name and by the handle of its library. -/
  finds : ∀ library symbol address, w.catalog.address? library symbol = some address ↔
    ∃ handle, w.catalog.handle? library = some handle ∧
      w.catalog.symbol handle symbol = address ∧ address ≠ 0
  /-- What was declared has an address, and nothing else has. -/
  declared : ∀ library symbol, (w.catalog.address? library symbol).isSome =
    (lastDeclared? decls library symbol).isSome
  /-- A call at the address runs the function that was declared last, once the call is counted for
  this symbol and for no other. -/
  calls : ∀ {library symbol address}, w.catalog.address? library symbol = some address →
    ∃ body, lastDeclared? decls library symbol = some body ∧ ∀ fuel args p, ∃ called : NativeState,
      w.invoke (fuel + 1) address args p = body ⟨w.catalog, w.invoke fuel⟩ args called ∧
      called = { p with calls := p.calls ++ [address] } ∧
      w.callCount called library symbol = w.callCount p library symbol + 1 ∧
      ∀ library' symbol', (library', symbol') ≠ (library, symbol) →
        w.callCount called library' symbol' = w.callCount p library' symbol'

/-- Numbers of one sequence differ. -/
theorem nodup_of_nth (first : UInt64) (low : first.toNat < 2 ^ 63) {numbers : List UInt64}
    (each : ∀ i n, numbers[i]? = some n → n = nth first i) (few : numbers.length < 2 ^ 59) :
    numbers.Nodup := by
  refine List.pairwise_iff_getElem.mpr fun i j hi hj less same => ?_
  rw [each i _ (List.getElem?_eq_getElem hi), each j _ (List.getElem?_eq_getElem hj)] at same
  have values := congrArg UInt64.toNat same
  rw [toNat_nth low (by omega), toNat_nth low (by omega)] at values
  omega

section Answers

variable (h : w.Consistent) (small : w.Small)

include h small

theorem Consistent.nodup_handles : (w.catalog.libraries.map Library.handle).Nodup := by
  refine nodup_of_nth firstHandle (by decide) (fun i n at_ => ?_)
    (by simpa using small.libraries)
  rw [List.getElem?_map, Option.map_eq_some_iff] at at_
  obtain ⟨l, found, rfl⟩ := at_
  exact h.handles i l found

theorem Consistent.nodup_addresses : (w.functions.map NativeFunction.address).Nodup := by
  refine nodup_of_nth firstAddress (by decide) (fun i n at_ => ?_)
    (by simpa using small.functions)
  rw [List.getElem?_map, Option.map_eq_some_iff] at at_
  obtain ⟨f, found, rfl⟩ := at_
  exact h.addresses i f found

/-- A symbol is found alike by the name and by the handle of its library. -/
theorem Consistent.address?_eq_some_iff {library symbol : String} {address : UInt64} :
    w.catalog.address? library symbol = some address ↔
      ∃ handle, w.catalog.handle? library = some handle ∧
        w.catalog.symbol handle symbol = address ∧ address ≠ 0 := by
  constructor
  · intro present
    obtain ⟨handle, f, finds⟩ := h.finds small present
    exact ⟨handle, finds.handle?, finds.symbol_eq, finds.address_ne_zero⟩
  · rintro ⟨handle, known, named, nonzero⟩
    obtain ⟨l, found, rfl⟩ := Option.map_eq_some_iff.mp known
    rw [Catalog.symbol, h.library_of_handle small (List.mem_of_find?_eq_some found),
      Option.bind_some] at named
    rw [Catalog.address?, found, Option.bind_some]
    cases entry : l.symbols.lookup symbol with
    | none =>
      rw [entry] at named
      exact absurd named.symm nonzero
    | some address' =>
      rw [entry] at named
      exact congrArg some named

/-- No two symbols have one address. -/
theorem Consistent.address?_inj {library symbol library' symbol' : String} {address : UInt64}
    (present : w.catalog.address? library symbol = some address)
    (present' : w.catalog.address? library' symbol' = some address) :
    (library', symbol') = (library, symbol) := by
  obtain ⟨_, f, finds⟩ := h.finds small present
  obtain ⟨_, f', finds'⟩ := h.finds small present'
  cases finds.function?.symm.trans finds'.function?
  rw [← finds.library_eq, ← finds.name_eq, ← finds'.library_eq, ← finds'.name_eq]

/-- A call is counted for the symbol that names the address. -/
theorem Consistent.callCount_called {library symbol : String} {address : UInt64}
    (present : w.catalog.address? library symbol = some address) (p : NativeState)
    (library' symbol' : String) :
    w.callCount { p with calls := p.calls ++ [address] } library' symbol' =
      w.callCount p library' symbol' + if (library', symbol') = (library, symbol) then 1 else 0 := by
  unfold callCount
  split
  · next address' present' =>
    by_cases same : (library', symbol') = (library, symbol)
    · cases same
      cases present.symm.trans present'
      simp
    · have other : address ≠ address' := fun eq =>
        same (h.address?_inj small present (eq ▸ present'))
      simp [same, other]
  · next absent =>
    rw [if_neg]
    intro same
    cases same
    cases present.symm.trans absent

end Answers

/-- The tables of a world that is built from declarations agree with them: when libraries are
declared again, when they are merged with those of the platform, and when symbols are declared
several times. -/
theorem tabulates_build (p : Platform) {declared : List LibraryDecl}
    (fits : (declared.map LibraryDecl.words).sum < 2 ^ 61) :
    (build p declared).Tabulates (p.systemLibraries ++ declared) := by
  have h := consistent_build p declared
  have small := small_build p fits
  have records := records_build p declared
  refine ⟨h.nodup_handles small, fun _ => h.handle_ne_zero small, h.nodup_addresses small,
    fun _ => h.address_ne_zero small, fun {name handle} known => ?opens,
    fun _ _ _ => h.address?_eq_some_iff small, fun library symbol => ?declared,
    fun {library symbol address} present => ?calls⟩
  case opens =>
    obtain ⟨l, found, isHandle⟩ := Option.map_eq_some_iff.mp known
    refine ⟨List.any_eq_true.mpr ⟨l, List.mem_of_find?_eq_some found, by simpa using isHandle⟩, ?_⟩
    intro call flags p
    have answer : (Catalog.handle? _ name).getD 0 = handle := congrArg (·.getD 0) known
    rw [← answer]
    rfl
  case declared =>
    rcases records.lookup library symbol with ⟨f, -, present, last⟩ | ⟨absent, last⟩
    · rw [present, last]
      rfl
    · rw [absent, last]
      rfl
  case calls =>
    rcases records.lookup library symbol with ⟨f, hf, known, last⟩ | ⟨absent, -⟩
    · cases present.symm.trans known
      refine ⟨f.body, last, fun fuel args p => ⟨_, ?_, rfl, ?_, fun library' symbol' other => ?_⟩⟩
      · rw [invoke, h.function?_address small hf]
        rfl
      · rw [h.callCount_called small known, if_pos rfl]
      · rw [h.callCount_called small known, if_neg other, Nat.add_zero]
    · cases present.symm.trans absent

/-- A library in two pieces with one symbol twice, and one that the platform has too. -/
def pieces : List LibraryDecl :=
  [⟨"m", [("Add", fun _ _ => return .i32 1)]⟩, ⟨"libc", [("puts", fun _ _ => return .void)]⟩,
    ⟨"m", [("Add", fun _ _ => return .i32 2)]⟩]

theorem tabulates_build_pieces :
    (build .linux pieces).Tabulates (Platform.linux.systemLibraries ++ pieces) ∧
      ∃ address, (build .linux pieces).catalog.address? "m" "Add" = some address ∧
        ∀ fuel p, ((build .linux pieces).invoke (fuel + 1) address [] p).1 = .ok (.i32 2) := by
  have tables : (build .linux pieces).Tabulates (Platform.linux.systemLibraries ++ pieces) :=
    tabulates_build .linux (by decide)
  have known : ((build .linux pieces).catalog.address? "m" "Add").isSome :=
    (tables.declared "m" "Add").trans rfl
  obtain ⟨address, present⟩ := Option.isSome_iff_exists.mp known
  obtain ⟨body, last, runs⟩ := tables.calls present
  cases last
  refine ⟨tables, address, present, fun fuel p => ?_⟩
  obtain ⟨called, run, -⟩ := runs fuel [] p
  rw [run]
  rfl

end World

end LateBind

import LateBind.Native.System
import Mathlib.Algebra.Group.Nat.Defs
import Mathlib.Data.List.Nodup

/-! # Worlds

In a world that is built from declarations every library has a handle of its own and every function
an address of its own, as long as these do not run out. The exports of the platform are there unless
they are declared again. -/

namespace LateBind

/-! ## Handles and addresses -/

namespace World

/-- Handles and addresses have not run out. -/
structure Small (w : World) : Prop where
  libraries : w.catalog.libraries.length < 2 ^ 59
  functions : w.functions.length < 2 ^ 59

theorem toNat_nth {first : UInt64} (low : first.toNat < 2 ^ 63) {n : Nat} (small : n < 2 ^ 59) :
    (nth first n).toNat = first.toNat + 16 * n := by
  rw [nth, UInt64.toNat_add, UInt64.toNat_ofNat', Nat.mod_eq_of_lt (a := n * 0x10) (by omega),
    Nat.mod_eq_of_lt (by omega)]
  omega

/-- What holds of every world that is built from declarations. -/
structure Consistent (w : World) : Prop where
  names : (w.catalog.libraries.map Library.name).Nodup
  handles : ∀ i l, w.catalog.libraries[i]? = some l → l.handle = nth firstHandle i
  addresses : ∀ i f, w.functions[i]? = some f → f.address = nth firstAddress i
  exports : ∀ l ∈ w.catalog.libraries, ∀ e ∈ l.symbols, ∃ f ∈ w.functions,
    f.address = e.2 ∧ f.library = l.name ∧ f.symbol = e.1

variable {w : World}

/-! ## Declarations -/

theorem consistent_empty (p : Platform) : (empty p).Consistent :=
  ⟨by simp [empty], by simp [empty], by simp [empty], by simp [empty]⟩

theorem Consistent.addLibrary (h : w.Consistent) (name : String) :
    (w.addLibrary name).Consistent := by
  unfold World.addLibrary
  split
  · exact h
  · next absent =>
    refine ⟨?_, ?_, h.addresses, ?_⟩
    · simp only [List.map_append, List.map_cons, List.map_nil]
      refine List.nodup_append.mpr ⟨h.names, by simp, ?_⟩
      intro known hk new hn same
      obtain ⟨l, hl, rfl⟩ := List.mem_map.mp hk
      rw [List.mem_singleton.mp hn] at same
      exact absent (List.find?_isSome.mpr ⟨l, hl, by simpa using same⟩)
    · intro i l hl
      rw [List.getElem?_append] at hl
      split at hl
      · exact h.handles i l hl
      · next high =>
        obtain ⟨place, rfl⟩ : i - w.catalog.libraries.length = 0 ∧ _ = l := by
          rw [List.getElem?_singleton] at hl
          split at hl
          · next place => exact ⟨place, Option.some.inj hl⟩
          · cases hl
        rw [show i = w.catalog.libraries.length by omega]
    · intro l hl e he
      rcases List.mem_append.mp hl with hl | hl
      · exact h.exports l hl e he
      · rw [List.mem_singleton.mp hl] at he
        cases he

theorem Consistent.addFunction (h : w.Consistent) (library symbol : String) (body : NativeBody) :
    (w.addFunction library symbol body).Consistent := by
  refine ⟨?_, ?_, ?_, ?_⟩
  · have names : (w.addFunction library symbol body).catalog.libraries.map Library.name =
        w.catalog.libraries.map Library.name := by
      simp only [World.addFunction, List.map_map]
      refine List.map_congr_left fun l _ => ?_
      simp only [Function.comp_apply]
      split <;> rfl
    rw [names]
    exact h.names
  · intro i l hl
    simp only [World.addFunction, List.getElem?_map, Option.map_eq_some_iff] at hl
    obtain ⟨before, hb, rfl⟩ := hl
    rw [← h.handles i before hb]
    split <;> rfl
  · intro i f hf
    simp only [World.addFunction] at hf
    rw [List.getElem?_append] at hf
    split at hf
    · exact h.addresses i f hf
    · obtain ⟨place, rfl⟩ : i - w.functions.length = 0 ∧ _ = f := by
        rw [List.getElem?_singleton] at hf
        split at hf
        · next place => exact ⟨place, Option.some.inj hf⟩
        · cases hf
      rw [show i = w.functions.length by omega]
  · intro l hl e he
    obtain ⟨before, hb, rfl⟩ := List.mem_map.mp hl
    have old (he : e ∈ before.symbols) : ∃ f ∈ (w.addFunction library symbol body).functions,
        f.address = e.2 ∧ f.library = before.name ∧ f.symbol = e.1 := by
      obtain ⟨f, hf, facts⟩ := h.exports before hb e he
      exact ⟨f, List.mem_append_left _ hf, facts⟩
    by_cases named : before.name = library
    · simp only [named, if_true] at he ⊢
      rcases List.mem_cons.mp he with rfl | he
      · exact ⟨_, List.mem_append_right _ (List.mem_singleton.mpr rfl), rfl, rfl, rfl⟩
      · simpa only [named] using old he
    · simp only [named, if_false] at he ⊢
      exact old he

theorem Consistent.addFunctions (h : w.Consistent) (library : String)
    (functions : List (String × NativeBody)) :
    (functions.foldl (fun w (symbol, body) => w.addFunction library symbol body) w).Consistent := by
  induction functions generalizing w with
  | nil => exact h
  | cons f functions ih => exact ih (h.addFunction library f.1 f.2)

theorem Consistent.declare (h : w.Consistent) (decl : LibraryDecl) : (w.declare decl).Consistent :=
  (h.addLibrary decl.name).addFunctions decl.name decl.functions

theorem Consistent.declareAll (h : w.Consistent) (decls : List LibraryDecl) :
    (decls.foldl World.declare w).Consistent := by
  induction decls generalizing w with
  | nil => exact h
  | cons decl decls ih => exact ih (h.declare decl)

theorem consistent_build (p : Platform) (declared : List LibraryDecl) :
    (build p declared).Consistent :=
  (consistent_empty p).declareAll _

theorem platform_declare (w : World) (decl : LibraryDecl) :
    (w.declare decl).catalog.platform = w.catalog.platform := by
  have functions (functions : List (String × NativeBody)) (w : World) :
      (functions.foldl (fun w (symbol, body) => w.addFunction decl.name symbol body)
        w).catalog.platform = w.catalog.platform := by
    induction functions generalizing w with
    | nil => rfl
    | cons f functions ih => exact ih _
  rw [World.declare, functions, World.addLibrary]
  split <;> rfl

theorem platform_build (p : Platform) (declared : List LibraryDecl) :
    (build p declared).catalog.platform = p := by
  have all (decls : List LibraryDecl) (w : World) :
      (decls.foldl World.declare w).catalog.platform = w.catalog.platform := by
    induction decls generalizing w with
    | nil => rfl
    | cons decl decls ih => rw [List.foldl_cons, ih, platform_declare]
  exact all _ _

/-! ## Lookup -/

theorem Consistent.library_of_handle (h : w.Consistent) (small : w.Small) {l : Library}
    (hl : l ∈ w.catalog.libraries) :
    w.catalog.libraries.find? (·.handle == l.handle) = some l := by
  obtain ⟨i, hi, rfl⟩ := List.getElem_of_mem hl
  refine List.find?_eq_some_iff_getElem.mpr ⟨by simp, i, hi, rfl, fun j hj => ?_⟩
  have handle₁ := h.handles i _ (List.getElem?_eq_getElem hi)
  have handle₂ := h.handles j _ (List.getElem?_eq_getElem (by omega))
  have := small.libraries
  simp only [handle₁, handle₂, Bool.not_eq_true', beq_eq_false_iff_ne, ne_eq]
  intro same
  have numbers := congrArg UInt64.toNat same
  rw [toNat_nth (by decide) (by omega), toNat_nth (by decide) (by omega)] at numbers
  omega

theorem Consistent.function?_address (h : w.Consistent) (small : w.Small) {f : NativeFunction}
    (hf : f ∈ w.functions) : w.function? f.address = some f := by
  obtain ⟨i, hi, rfl⟩ := List.getElem_of_mem hf
  refine List.find?_eq_some_iff_getElem.mpr ⟨by simp, i, hi, rfl, fun j hj => ?_⟩
  have address₁ := h.addresses i _ (List.getElem?_eq_getElem hi)
  have address₂ := h.addresses j _ (List.getElem?_eq_getElem (by omega))
  have := small.functions
  simp only [address₁, address₂, Bool.not_eq_true', beq_eq_false_iff_ne, ne_eq]
  intro same
  have numbers := congrArg UInt64.toNat same
  rw [toNat_nth (by decide) (by omega), toNat_nth (by decide) (by omega)] at numbers
  omega

theorem Consistent.handle_ne_zero (h : w.Consistent) (small : w.Small) {l : Library}
    (hl : l ∈ w.catalog.libraries) : l.handle ≠ 0 := by
  obtain ⟨i, hi, rfl⟩ := List.getElem_of_mem hl
  rw [h.handles i _ (List.getElem?_eq_getElem hi)]
  intro zero
  have := small.libraries
  have number := congrArg UInt64.toNat zero
  rw [toNat_nth (by decide) (by omega)] at number
  simp [firstHandle] at number

theorem Consistent.address_ne_zero (h : w.Consistent) (small : w.Small) {f : NativeFunction}
    (hf : f ∈ w.functions) : f.address ≠ 0 := by
  obtain ⟨i, hi, rfl⟩ := List.getElem_of_mem hf
  rw [h.addresses i _ (List.getElem?_eq_getElem hi)]
  intro zero
  have := small.functions
  have number := congrArg UInt64.toNat zero
  rw [toNat_nth (by decide) (by omega)] at number
  simp [firstAddress] at number

/-- What the loader finds for a symbol of a library. -/
structure Finds (w : World) (library symbol : String) (handle address : UInt64)
    (f : NativeFunction) : Prop where
  handle? : w.catalog.handle? library = some handle
  handle_ne_zero : handle ≠ 0
  symbol_eq : w.catalog.symbol handle symbol = address
  address_ne_zero : address ≠ 0
  function? : w.function? address = some f
  library_eq : f.library = library
  name_eq : f.symbol = symbol

/-- A symbol that is present is found by way of the handle of its library. -/
theorem Consistent.finds (h : w.Consistent) (small : w.Small) {library symbol : String}
    {address : UInt64} (present : w.catalog.address? library symbol = some address) :
    ∃ handle f, w.Finds library symbol handle address f := by
  obtain ⟨l, found, named⟩ := Option.bind_eq_some_iff.mp present
  have hl := List.mem_of_find?_eq_some found
  have name : l.name = library := by simpa using List.find?_some found
  have entry : (symbol, address) ∈ l.symbols := by
    obtain ⟨before, after, eq, -⟩ := List.lookup_eq_some_iff.mp named
    rw [eq]
    exact List.mem_append_right _ List.mem_cons_self
  obtain ⟨f, hf, at_, inLibrary, isSymbol⟩ := h.exports l hl (symbol, address) entry
  simp only at at_ isSymbol
  refine ⟨l.handle, f, ?_, h.handle_ne_zero small hl, ?_, ?_, ?_, inLibrary.trans name, isSymbol⟩
  · rw [Catalog.handle?, found]
    rfl
  · rw [Catalog.symbol, h.library_of_handle small hl, Option.bind_some, named]
    rfl
  · rw [← at_]
    exact h.address_ne_zero small hf
  · rw [← at_]
    exact h.function?_address small hf

/-- What the loader finds for a symbol is the function of that name. -/
theorem Consistent.exists_function (h : w.Consistent) (small : w.Small)
    {name symbol : String} {handle address : UInt64} (found : w.catalog.handle? name = some handle)
    (at_ : w.catalog.symbol handle symbol = address) (present : address ≠ 0) :
    ∃ f, w.function? address = some f ∧ f.library = name ∧ f.symbol = symbol := by
  obtain ⟨l, known, rfl⟩ := Option.map_eq_some_iff.mp found
  have looked : (l.symbols.lookup symbol).getD 0 = address := by
    rw [← at_, Catalog.symbol, h.library_of_handle small (List.mem_of_find?_eq_some known),
      Option.bind_some]
  cases named : l.symbols.lookup symbol with
  | none =>
    rw [named] at looked
    exact absurd looked.symm present
  | some a =>
    rw [named] at looked
    cases looked
    have exported : w.catalog.address? name symbol = some a := by
      rw [Catalog.address?, known]
      exact named
    obtain ⟨_, f, finds⟩ := h.finds small exported
    exact ⟨f, finds.function?, finds.library_eq, finds.name_eq⟩

/-! ## Exports of the platform -/

/-- A symbol of a library names a function with the given body. -/
def Provides (w : World) (library symbol : String) (body : NativeBody) : Prop :=
  ∃ f ∈ w.functions, w.catalog.address? library symbol = some f.address ∧ f.body = body

variable {library symbol : String} {body : NativeBody}

theorem library?_addLibrary_of_some {l : Library} (known : w.catalog.library? library = some l)
    (name : String) : (w.addLibrary name).catalog.library? library = some l := by
  unfold World.addLibrary
  split
  · exact known
  · exact List.find?_append.trans (by rw [Catalog.library?] at known; rw [known]; rfl)

theorem library?_addLibrary_self (w : World) (name : String) :
    ((w.addLibrary name).catalog.library? name).isSome := by
  unfold World.addLibrary
  split
  · next known => exact known
  · simp [Catalog.library?]

theorem Provides.addLibrary (h : w.Provides library symbol body) (name : String) :
    (w.addLibrary name).Provides library symbol body := by
  obtain ⟨f, hf, address, isBody⟩ := h
  refine ⟨f, ?_, ?_, isBody⟩
  · unfold World.addLibrary
    split
    · exact hf
    · exact hf
  · obtain ⟨l, found, named⟩ := Option.bind_eq_some_iff.mp address
    rw [Catalog.address?, library?_addLibrary_of_some found]
    exact named

theorem address?_addFunction (w : World) (library symbol library' symbol' : String)
    (body : NativeBody) :
    (w.addFunction library' symbol' body).catalog.address? library symbol =
      if library = library' ∧ symbol = symbol' then
        (w.catalog.library? library).map fun _ => nth firstAddress w.functions.length
      else w.catalog.address? library symbol := by
  let add (l : Library) : Library :=
    if l.name = library' then
      { l with symbols := (symbol', nth firstAddress w.functions.length) :: l.symbols } else l
  have name (l : Library) : (add l).name = l.name := by
    unfold add
    split <;> rfl
  have found : (w.addFunction library' symbol' body).catalog.library? library =
      (w.catalog.library? library).map add := by
    have same : (fun l : Library => l.name == library) ∘ add = (·.name == library) :=
      funext fun l => congrArg (· == library) (name l)
    exact List.find?_map.trans (by rw [same]; rfl)
  rw [Catalog.address?, found, Catalog.address?]
  cases known : w.catalog.library? library with
  | none => simp
  | some l =>
    have own : l.name = library := by simpa using List.find?_some known
    simp only [Option.map_some, Option.bind_some, add, own]
    by_cases same : library = library'
    · rw [if_pos same, List.lookup_cons]
      by_cases sameSymbol : symbol = symbol'
      · rw [if_pos ⟨same, sameSymbol⟩, beq_iff_eq.mpr sameSymbol]
      · rw [if_neg fun both => sameSymbol both.2, beq_eq_false_iff_ne.mpr sameSymbol]
    · rw [if_neg same, if_neg fun both => same both.1]

theorem Provides.addFunction (h : w.Provides library symbol body) {library' symbol' : String}
    (other : (library', symbol') ≠ (library, symbol)) (body' : NativeBody) :
    (w.addFunction library' symbol' body').Provides library symbol body := by
  obtain ⟨f, hf, address, isBody⟩ := h
  refine ⟨f, List.mem_append_left _ hf, ?_, isBody⟩
  rw [address?_addFunction, if_neg, address]
  rintro ⟨rfl, rfl⟩
  exact other rfl

theorem provides_addFunction (known : (w.catalog.library? library).isSome) (symbol : String)
    (body : NativeBody) : (w.addFunction library symbol body).Provides library symbol body := by
  obtain ⟨l, found⟩ := Option.isSome_iff_exists.mp known
  refine ⟨⟨library, symbol, nth firstAddress w.functions.length, body⟩,
    List.mem_append_right _ (List.mem_singleton.mpr rfl), ?_, rfl⟩
  rw [address?_addFunction, if_pos ⟨rfl, rfl⟩, found]
  rfl

theorem Provides.addFunctions (h : w.Provides library symbol body) {library' : String}
    {functions : List (String × NativeBody)}
    (other : ∀ f ∈ functions, (library', f.1) ≠ (library, symbol)) :
    (functions.foldl (fun w (symbol, body) => w.addFunction library' symbol body) w).Provides
      library symbol body := by
  induction functions generalizing w with
  | nil => exact h
  | cons f functions ih =>
    exact ih (h.addFunction (other f (by simp)) f.2) fun f hf =>
      other f (List.mem_cons_of_mem _ hf)

end World

namespace LibraryDecl

/-- The library and the symbol of each function. -/
def exports (d : LibraryDecl) : List (String × String) := d.functions.map fun f => (d.name, f.1)

end LibraryDecl

namespace Platform

/-- The library and the symbol of each function that a platform brings along. -/
def exports (p : Platform) : List (String × String) := p.systemLibraries.flatMap LibraryDecl.exports

end Platform

namespace World

variable {w : World} {library symbol : String} {body : NativeBody}

theorem Provides.declareAll (h : w.Provides library symbol body) {decls : List LibraryDecl}
    (other : ∀ d ∈ decls, (library, symbol) ∉ d.exports) :
    (decls.foldl World.declare w).Provides library symbol body := by
  induction decls generalizing w with
  | nil => exact h
  | cons d decls ih =>
    refine ih ?_ fun d hd => other d (List.mem_cons_of_mem _ hd)
    refine (h.addLibrary d.name).addFunctions fun f hf same => ?_
    exact other d (by simp) (List.mem_map.mpr ⟨f, hf, same⟩)

theorem library?_addFunction_isSome (w : World) (library library' symbol : String)
    (body : NativeBody) :
    ((w.addFunction library' symbol body).catalog.library? library).isSome =
      (w.catalog.library? library).isSome := by
  simp only [Catalog.library?, World.addFunction]
  rw [Bool.eq_iff_iff]
  simp only [List.find?_isSome, List.mem_map, beq_iff_eq]
  constructor
  · rintro ⟨_, ⟨l, hl, rfl⟩, name⟩
    refine ⟨l, hl, name.symm.trans ?_ |>.symm⟩
    split <;> rfl
  · rintro ⟨l, hl, name⟩
    refine ⟨_, ⟨l, hl, rfl⟩, Eq.trans ?_ name⟩
    split <;> rfl

/-- What a declaration declares last is provided. -/
theorem provides_declare (w : World) {d : LibraryDecl} (distinct : (d.functions.map Prod.fst).Nodup)
    {e : String × NativeBody} (he : e ∈ d.functions) : (w.declare d).Provides d.name e.1 e.2 := by
  obtain ⟨before, after, eq⟩ := List.append_of_mem he
  have known (functions : List (String × NativeBody)) (w : World)
      (known : (w.catalog.library? d.name).isSome) :
      ((functions.foldl (fun w (symbol, body) => w.addFunction d.name symbol body)
        w).catalog.library? d.name).isSome := by
    induction functions generalizing w with
    | nil => exact known
    | cons f functions ih => exact ih _ (by rw [library?_addFunction_isSome]; exact known)
  rw [World.declare, eq, List.foldl_append, List.foldl_cons]
  refine Provides.addFunctions (provides_addFunction
    (known before _ (library?_addLibrary_self w d.name)) e.1 e.2) ?_
  intro f hf same
  rw [eq, List.map_append, List.map_cons, List.nodup_append] at distinct
  refine (List.nodup_cons.mp distinct.2.1).1 ?_
  rw [← (Prod.mk.inj same).2]
  exact List.mem_map_of_mem hf

/-- An export of the platform is there in a world that does not declare it again. -/
theorem provides_build {p : Platform} {declared : List LibraryDecl} (distinct : p.exports.Nodup)
    (free : ∀ d ∈ declared, ∀ e ∈ d.exports, e ∉ p.exports) {d : LibraryDecl}
    (hd : d ∈ p.systemLibraries) {e : String × NativeBody} (he : e ∈ d.functions) :
    (build p declared).Provides d.name e.1 e.2 := by
  obtain ⟨before, after, eq⟩ := List.append_of_mem hd
  have own : (d.name, e.1) ∈ d.exports := List.mem_map.mpr ⟨e, he, rfl⟩
  rw [Platform.exports, eq, List.flatMap_append, List.flatMap_cons, List.nodup_append,
    List.nodup_append] at distinct
  obtain ⟨-, ⟨ofDecl, -, apart⟩, -⟩ := distinct
  have symbols : (d.functions.map Prod.fst).Nodup := by
    refine List.Nodup.of_map (fun symbol => (d.name, symbol)) ?_
    rw [List.map_map]
    exact ofDecl
  rw [build, eq, List.append_assoc, List.foldl_append, List.cons_append, List.foldl_cons]
  refine (provides_declare _ symbols he).declareAll fun d' hd' declares => ?_
  rcases List.mem_append.mp hd' with hd' | hd'
  · exact apart _ own _ (List.mem_flatMap.mpr ⟨d', hd', declares⟩) rfl
  · refine free d' hd' _ declares ?_
    exact List.mem_flatMap.mpr ⟨d, hd, own⟩

end World

end LateBind

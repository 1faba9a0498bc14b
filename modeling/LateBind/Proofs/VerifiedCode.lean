import LateBind.Proofs.GeneratedCode

/-! # Verified code of the bound module

Every body that late binding generates passes a verifier: those of the members that types get for
their stubs, those that stand in the places of stubs, and those of the helper type. -/

namespace LateBind

open StubBody (resultHeight)

namespace MethodDef

/-- A table of heights goes with the method's body, if there is one. -/
def Certified (method : MethodDef) : Prop :=
  ∀ body ∈ method.body, ∃ heights,
    body.Certified method.params.length (resultHeight method.returnType) heights

theorem certified_withBody {visibility : Visibility} {name : String}
    {params : List (String × TypeRef)} {returnType : TypeRef} {body : Body} (heights : List Nat)
    (certified : body.Certified params.length (resultHeight returnType) heights) :
    (withBody visibility name params returnType body).Certified := by
  rintro _ ⟨⟩
  refine ⟨heights, ?_⟩
  rw [withBody, List.length_map]
  exact certified

/-- A method is certified when its code is laid from the start to its end. -/
theorem certified_generated {visibility : Visibility} {name : String}
    {params : List (String × TypeRef)} {returnType : TypeRef} {code : Emit Unit} {e : Emitter}
    {labels : Nat} {method : MethodDef}
    (made : generated visibility name params returnType code = .ok method)
    (ends : code Emitter.empty = ((), e.push .ret))
    (lays : Emitter.empty.Lays params.length 0 (resultHeight returnType) labels e)
    (few : labels < 2 ^ 32) : method.Certified := by
  have low := StubBody.resultHeight_le returnType
  obtain ⟨body, heights, finished, certified, -⟩ := lays.certified (by omega) few
  have made' : generated visibility name params returnType code =
      .ok (withBody visibility name params returnType body) := by
    rw [generated, Emit.body, ends, finished]
  cases made.symm.trans made'
  exact certified_withBody heights certified

end MethodDef

/-! ## Members for stubs -/

theorem LibraryScaffold.certified_loaderDef {helper : TypeName} {l : LibraryScaffold}
    {method : MethodDef} (made : l.loaderDef helper = .ok method) : method.Certified := by
  obtain ⟨k, counts, emitted⟩ := l.emitLoader_eq helper
  have high := counts.height
  refine MethodDef.certified_generated made emitted
    (.of_fits [0, 1, 1] [] counts (Nat.zero_le _) (by simp) rfl ?_ .nil (by simp) (Nat.le_refl 0))
    (by decide)
  simp [Helper.loadLibrary, Helper.method, resultHeight]
  omega

/-- Loading all arguments raises the stack by one item after the other. -/
theorem Fits.ldargs {n : Nat} {bounds : Bounds} {level : Label → Nat → Prop}
    (few : n ≤ bounds.params) (low : n ≤ bounds.height) :
    Fits bounds level ((List.range n).map fun i => .ldarg (UInt16.ofNat i)) (List.range n)
      (some n) := by
  induction n with
  | zero => trivial
  | succ n ih =>
    rw [List.range_succ, List.map_append]
    refine (ih (by omega) (by omega)).append ⟨?_, trivial⟩ fun _ there => there
    simp
    omega

namespace StubScaffold

variable {helper owner : TypeName} {s : StubScaffold} {method : MethodDef}

theorem certified_initializerDef
    (loader : s.library.loader = .static owner s.library.loader.name [] .void)
    (made : s.initializerDef helper = .ok method) : method.Certified := by
  have pops : s.library.loader.pops = 0 := by rw [loader]; rfl
  have pushes : s.library.loader.pushes = 0 := by rw [loader]; rfl
  obtain ⟨k, counts, emitted⟩ := emitInitializer_eq helper loader
  have high := counts.height
  refine MethodDef.certified_generated made emitted
    (.of_fits [0, 1, 0, 0, 1, 2, 1] [0] counts (Nat.zero_le _) (by simp) rfl ?_ ?_ (by simp)
      (Nat.le_refl 1)) (by decide)
  · have level : Emitter.empty.Level [0] ⟨0⟩ 0 := ⟨0, rfl, rfl⟩
    simp [Helper.getProcAddress, Helper.method, pops, pushes, level, resultHeight]
    omega
  · simp [Emitter.empty, Emitter.position]

theorem emitThunk_lays (fits : s.Fits owner) (few : s.stub.params.length + 2 < 2 ^ 16) :
    ∃ e, s.emitThunk Emitter.empty = ((), e.push .ret) ∧
      Emitter.empty.Lays (s.stub.params.length + 1) 0 (resultHeight s.thunk.returnType) 0 e := by
  obtain ⟨k, counts, emitted⟩ := emitThunk_eq fits few
  have high := counts.height
  have low := StubBody.resultHeight_le s.thunk.returnType
  have pops := pops_callSite fits
  have pushes : (Instr.calli s.callSite).pushes = resultHeight s.thunk.returnType := by
    rw [fits.thunk]
    rfl
  rw [pushes] at emitted
  refine ⟨_, emitted, .of_fits
    (List.range (s.stub.params.length + 1) ++ [s.stub.params.length + 1]) [] counts (by omega)
    (by simp) (by simp [List.range_succ_eq_map]) ?_ .nil (by simp) (Nat.le_refl 0)⟩
  refine (Fits.ldargs (Nat.le_refl _) high).append ⟨?_, trivial⟩ fun _ there => there
  rw [Instr.passes_plain rfl, pops, pushes]
  exact ⟨Nat.le_refl _, high, by simp, by simp⟩

theorem certified_thunkDef (fits : s.Fits owner) (few : s.stub.params.length + 2 < 2 ^ 16)
    (made : s.thunkDef = .ok method) : method.Certified := by
  obtain ⟨e, emitted, lays⟩ := emitThunk_lays fits few
  obtain ⟨thunk, generated, rfl⟩ := map_eq_ok made
  have certified : thunk.Certified :=
    MethodDef.certified_generated generated emitted (by simpa using lays) (by decide)
  exact certified

end StubScaffold

/-! ## The helper type -/

namespace Helper

open MethodDef (certified_withBody)

variable (helper : TypeName)

theorem certified_loaders (flags : Int32) :
    ∀ method ∈ loaders helper flags, method.Certified := by
  simp only [loaders, List.forall_mem_cons]
  refine ⟨?systemName, ?unixFlavor, ?dlopen, ?dlclose, ?dlsym, ?isUnix, ?constructor, ?load, ?free,
    ?address, by simp⟩
  case systemName =>
    exact certified_withBody [0, 1, 1, 0, 1, 1, 0, 1, 0, 0, 1, 1, 0, 0, 1, 0, 0, 1]
      (of_decide_eq_true rfl)
  case unixFlavor =>
    exact certified_withBody [0, 1, 2, 1, 0, 1, 0, 1, 2, 1, 0, 1, 0, 1, 2, 1, 0, 1, 0, 1, 2, 1, 0, 1,
      0, 1, 2, 1, 0, 1, 0, 1, 1, 1, 2, 1] (of_decide_eq_true rfl)
  case dlopen =>
    exact certified_withBody [0, 1, 2, 1, 0, 1, 1, 0, 1, 2, 1, 0, 1, 2, 1, 0, 1, 2, 1]
      (of_decide_eq_true rfl)
  case dlclose =>
    exact certified_withBody [0, 1, 2, 1, 0, 1, 1, 0, 1, 1, 0, 1, 1, 0, 1, 1] (of_decide_eq_true rfl)
  case dlsym =>
    exact certified_withBody [0, 1, 2, 1, 0, 1, 1, 0, 1, 2, 1, 0, 1, 2, 1, 0, 1, 2, 1]
      (of_decide_eq_true rfl)
  case isUnix => exact certified_withBody [0, 1, 2, 1] (of_decide_eq_true rfl)
  case constructor =>
    have certified : (MethodDef.withBody .priv ".cctor" [] .void
        (staticConstructorBody helper)).Certified :=
      certified_withBody [0, 1, 0] (of_decide_eq_true rfl)
    exact certified
  case load =>
    exact certified_withBody [0, 1, 0, 1, 2, 1, 0, 0, 1, 1, 0, 1, 0, 1, 2, 1, 1, 0, 1]
      (of_decide_eq_true rfl)
  case free => exact certified_withBody [0, 1, 0, 1, 1, 0, 1, 1] (of_decide_eq_true rfl)
  case address =>
    exact certified_withBody [0, 1, 0, 1, 2, 1, 0, 0, 1, 2, 1, 0, 1, 0, 1, 2, 1, 1, 0, 1]
      (of_decide_eq_true rfl)

theorem certified_converters : ∀ method ∈ converters, method.Certified := by
  simp only [converters, List.forall_mem_cons]
  refine ⟨?bytes, ?ansi, ?unicode, ?free, by simp⟩
  case bytes =>
    exact certified_withBody [0, 1, 0, 1, 0, 1, 1, 0, 1, 2, 1, 1, 0, 1, 0, 0, 1, 2, 3, 4, 3, 3, 0, 1, 2,
      1, 0, 1, 2, 0, 1, 2, 3, 0, 1] (of_decide_eq_true rfl)
  case ansi =>
    exact certified_withBody [0, 1, 0, 1, 0, 0, 1, 2, 3, 4, 3, 3, 0, 1, 2, 1, 0, 1, 2, 2, 2, 0]
      (of_decide_eq_true rfl)
  case unicode =>
    exact certified_withBody [0, 1, 0, 1, 0, 0, 1, 2, 3, 4, 3, 3, 0, 1, 2, 1, 0, 1, 2, 2, 2, 0]
      (of_decide_eq_true rfl)
  case free =>
    exact certified_withBody [0, 1, 0, 1, 0, 0, 1, 2, 1, 0, 1, 2, 1, 0, 1, 2, 3, 3, 0, 1, 2, 1, 0, 1, 2,
      2, 2, 0] (of_decide_eq_true rfl)

theorem certified_methods (flags : Int32) : ∀ method ∈ methods helper flags, method.Certified := by
  refine List.forall_mem_append.mpr ⟨List.forall_mem_append.mpr
    ⟨fun method hm body hb => ?_, certified_loaders helper flags⟩, certified_converters⟩
  have none : ∀ method ∈ importDefs, method.body = none := by decide
  rw [none method hm] at hb
  cases hb

end Helper

/-! ## The bound module -/

namespace Module

variable {m : Module} {c : Config} {found : ImportTable} {types : List TypeScaffold}
  {bodies : List (MethodHandle × Body)} {helper : TypeDef}

theorem Binds.certified_implemented (binds : m.Binds c found types bodies helper) (few : m.FewParams)
    {i j : Nat} {t : TypeDef} {method : MethodDef} (own : m.types[i]? = some t)
    (at_ : t.methods[j]? = some method) {body : Body} (hb : (⟨i, j⟩, body) ∈ bodies) :
    (method.implemented body).Certified := by
  obtain ⟨s, hs, ⟨handle, t', method'⟩, info, compiled, place, eligible, declares⟩ :=
    binds.stub_of_mem hb
  obtain ⟨own', at'⟩ := mem_methods.mp (mem_eligibleStubs.mp eligible).1
  simp only at place own' at'
  rw [place] at own' at'
  rw [own] at own'
  cases own'
  rw [at_] at at'
  cases at'
  obtain ⟨owner, emittable⟩ := emittable_of_plans few binds.table binds.planned hs
  obtain ⟨body', heights, compiled', certified, -⟩ :=
    StubBody.compile_certified c.helperType emittable.countable
  cases compiled.symm.trans compiled'
  have count : s.stub.params.length = method.params.length := by
    rw [← declares.params, List.length_map]
  rintro _ ⟨⟩
  refine ⟨heights, ?_⟩
  rw [count, declares.returnType] at certified
  exact certified

theorem Binds.certified_methods (binds : m.Binds c found types bodies helper) (few : m.FewParams)
    {planned : TypeScaffold} (hp : planned ∈ types) :
    ∀ method ∈ planned.methods c.helperType, method.Certified := by
  obtain ⟨t, imports, -, fits⟩ := binds.fits_of_mem hp
  intro method hm
  rcases List.mem_append.mp hm with hm | hm
  · obtain ⟨l, hl, hm⟩ := List.mem_flatMap.mp hm
    exact LibraryScaffold.certified_loaderDef (TypeScaffold.mem_libraryMethods.mp hm)
  · obtain ⟨s, hs, hm⟩ := List.mem_flatMap.mp hm
    obtain ⟨fitsStub, library⟩ := fits.stub s hs
    obtain ⟨owner, emittable⟩ :=
      emittable_of_plans few binds.table binds.planned (List.mem_flatMap.mpr ⟨planned, hp, hs⟩)
    rcases TypeScaffold.mem_stubMethods.mp hm with made | made
    · exact StubScaffold.certified_initializerDef (fits.library _ library).loader made
    · exact StubScaffold.certified_thunkDef fitsStub emittable.countable.few made

/-- Every method of the bound module is one of the old ones at its place, or its body passes. -/
theorem Binds.certified_boundLate (binds : m.Binds c found types bodies helper) (few : m.FewParams)
    (id : Uuid) {i j : Nat} {t : TypeDef} {method : MethodDef}
    (own : (m.boundLate c types bodies helper id).types[i]? = some t)
    (at_ : t.methods[j]? = some method) :
    (∃ old, m.types[i]? = some old ∧ old.methods[j]? = some method) ∨ method.Certified := by
  rcases binds.method_cases id own at_ with
    kept | ⟨old, stub, body, own', at', hb, rfl⟩ | ⟨planned, hp, hm⟩ | rfl
  · exact .inl kept
  · exact .inr (binds.certified_implemented few own' at' hb)
  · exact .inr (binds.certified_methods few hp method hm)
  · cases binds.helper.symm.trans (Helper.typeDef_eq c.helperType c.loadFlags)
    exact .inr (Helper.certified_methods c.helperType c.loadFlags method (List.mem_of_getElem? at_))

/-- Every body that late binding generates is verifiable: a body of the new module stands at the place
of an old method that has it, or a verifier accepts it, with the parameters and the result that its
method declares. -/
theorem verified_of_bindLate {id : Uuid} {out : LateBound} (few : m.FewParams)
    (ok : m.bindLate c id = .ok out) {i j : Nat} {t : TypeDef} {method : MethodDef} {body : Body}
    (own : out.module.types[i]? = some t) (at_ : t.methods[j]? = some method)
    (hb : method.body = some body) :
    (∃ old, m.types[i]? = some old ∧ old.methods[j]? = some method) ∨
      body.Verified method.params.length (resultHeight method.returnType) := by
  rcases bindLate_cases ok with ⟨-, -, same⟩ | ⟨found, types, bodies, helper, binds, -, eq⟩
  · exact .inl ⟨t, by rw [← same]; exact own, at_⟩
  · rw [eq] at own
    refine (binds.certified_boundLate few id own at_).imp_right fun certified => ?_
    obtain ⟨heights, certified⟩ := certified body hb
    exact certified.verified

theorem verified_of_bindLate_twins : ∃ out t method body,
    twins.bindLate Config.default Uuid.zero = .ok out ∧ out.module.types[1]? = some t ∧
      t.methods[0]? = some method ∧ method.body = some body ∧ body.Verified 2 1 := by
  obtain ⟨out, ok⟩ := bindLate_twins
  have outline : ((twins.bindLate Config.default Uuid.zero).map fun out =>
      ((out.module.types[1]?.bind (·.methods[0]?)).map fun method =>
        (method.body.isSome, method.params.length, resultHeight method.returnType))) =
      .ok (some (true, 2, 1)) := by decide +kernel
  rw [ok] at outline
  obtain ⟨method, found, shape⟩ := Option.map_eq_some_iff.mp (Except.ok.inj outline)
  obtain ⟨t, own, at_⟩ := Option.bind_eq_some_iff.mp found
  simp only [Prod.mk.injEq] at shape
  obtain ⟨isSome, params, results⟩ := shape
  obtain ⟨body, hb⟩ := Option.isSome_iff_exists.mp isSome
  have bodiless : ∀ t ∈ twins.types, ∀ method ∈ t.methods, method.body = none := by decide
  refine ⟨out, t, method, body, ok, own, at_, hb, ?_⟩
  rcases verified_of_bindLate fewParams_twins ok own at_ hb with ⟨old, own', at'⟩ | verified
  · rw [bodiless old (List.mem_of_getElem? own') method (List.mem_of_getElem? at')] at hb
    cases hb
  · rwa [params, results] at verified

end Module

end LateBind

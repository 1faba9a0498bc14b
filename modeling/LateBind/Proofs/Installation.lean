import LateBind.Proofs.LaidCode
import LateBind.Proofs.Planning
import Mathlib.Data.List.Flatten

/-! # Installed members

Every planned member can be generated, and the members of a type can be added to it: its old members
stay in front, as they are. -/

namespace LateBind

/-! ## Steps that succeed -/

theorem ok_bind {α β ε : Type} (a : α) (f : α → Except ε β) : (Except.ok a >>= f) = f a := rfl

theorem bind_eq_ok {α β ε : Type} {x : Except ε α} {f : α → Except ε β} {b : β}
    (h : x >>= f = .ok b) : ∃ a, x = .ok a ∧ f a = .ok b := by
  cases x with
  | error e => cases h
  | ok a => exact ⟨a, rfl, h⟩

/-! ## Generated methods -/

/-- Code without regions has the body that it says. -/
theorem MethodDef.generated_eq {code : Emit Unit} {is : List Instr} {ms : List Mark}
    {vs : List Local} {h : Nat} {k : UInt16} {r : Bool} (visibility : Visibility) (name : String)
    (params : List (String × TypeRef)) (returnType : TypeRef)
    (emitted : code Emitter.empty = ((), Emitter.empty.grow is ms vs h k r))
    (placed : ∀ m ∈ ms, m.place.isSome) :
    ∃ k', generated visibility name params returnType code = .ok
      (withBody visibility name params returnType
        ⟨vs, is, ms.map (·.place.getD 0), [], true, k'⟩) := by
  have body : Emit.body code = .ok ⟨vs, is, ms.map (·.place.getD 0), [], true, max k 1⟩ := by
    rw [Emit.body, emitted, (Emitter.empty_complete.grow placed).finish_eq]
    simp only [Emitter.grow, Emitter.empty, Array.toList_append, List.nil_append, List.map_map]
    rfl
  refine ⟨max k 1, ?_⟩
  rw [generated, body]

theorem MethodDef.eq_of_generated {visibility : Visibility} {name : String}
    {params : List (String × TypeRef)} {returnType : TypeRef} {code : Emit Unit} {m : MethodDef}
    (h : generated visibility name params returnType code = .ok m) :
    ∃ body, m = withBody visibility name params returnType body := by
  unfold generated at h
  split at h
  · cases h
  · next body _ =>
    cases h
    exact ⟨body, rfl⟩

theorem Emitter.foldl_push_ldargs (e : Emitter) (is : List Instr) (h : Nat) (k : UInt16)
    (indices : List Nat) (hh : h + indices.length < 2 ^ 16) (low : h ≤ k.toNat) :
    ∃ k', k.toNat ≤ k'.toNat ∧ h + indices.length ≤ k'.toNat ∧
      k'.toNat ≤ max k.toNat (h + indices.length) ∧
      (indices.map fun i => Instr.ldarg (UInt16.ofNat i)).foldl Emitter.push
          (e.grow is [] [] h k true) =
        e.grow (is ++ indices.map fun i => .ldarg (UInt16.ofNat i)) [] [] (h + indices.length) k'
          true := by
  induction indices generalizing is h k with
  | nil => exact ⟨k, Nat.le_refl _, low, Nat.le_max_left _ _, by simp⟩
  | cons i indices ih =>
    rw [List.length_cons] at hh
    have next : h + 1 ≤ (max k (UInt16.ofNat (h + 1))).toNat := by
      rw [UInt16.toNat_max, UInt16.toNat_ofNat', Nat.mod_eq_of_lt (by omega)]
      exact Nat.le_max_right _ _
    obtain ⟨k', before, high, peak, eq⟩ := ih (is ++ [.ldarg (UInt16.ofNat i)]) (h + 1)
      (max k (UInt16.ofNat (h + 1))) (by omega) next
    rw [UInt16.toNat_max, UInt16.toNat_ofNat', Nat.mod_eq_of_lt (by omega)] at before peak
    rw [List.length_cons]
    refine ⟨k', by omega, by omega, by omega, ?_⟩
    rw [List.map_cons, List.foldl_cons, Emitter.push_grow rfl (by omega) (Nat.zero_le h),
      Nat.add_comm indices.length 1, ← Nat.add_assoc]
    rw [List.append_assoc, List.singleton_append] at eq
    exact eq

namespace LibraryScaffold

theorem emitLoader_eq (helper : TypeName) (l : LibraryScaffold) :
    ∃ k, Emitter.empty.Counts 1 k ∧ l.emitLoader helper Emitter.empty = ((), (Emitter.empty.grow
      [.ldstr l.loadName, .call (Helper.loadLibrary helper), .stsfld l.cell] [] [] 0 k true).push
        .ret) := by
  rw [← congrArg (l.emitLoader helper) (Emitter.At.eq_grow ⟨rfl, rfl⟩)]
  refine ⟨?k, ?counts, ?eq⟩
  case eq =>
    simp (disch := first | omega | (simp <;> omega) | fail)
      [emitLoader, Helper.loadLibrary, Helper.method]
    rfl
  case counts => constructor <;> simp only [UInt16.toNat_max, UInt16.reduceToNat] <;> omega

theorem loaderDef_eq (helper : TypeName) (l : LibraryScaffold) :
    ∃ k, l.loaderDef helper = .ok (MethodDef.withBody .priv l.loader.name [] .void
      ⟨[], [.ldstr l.loadName, .call (Helper.loadLibrary helper), .stsfld l.cell, .ret], [], [],
        true, k⟩) := by
  obtain ⟨k, -, emitted⟩ := l.emitLoader_eq helper
  rw [Emitter.push_ret_grow (by decide)] at emitted
  exact MethodDef.generated_eq _ _ _ _ emitted (by simp)

end LibraryScaffold

namespace StubScaffold

variable {owner : TypeName} {s : StubScaffold}

theorem emitInitializer_eq (helper : TypeName)
    (loader : s.library.loader = .static owner s.library.loader.name [] .void) :
    ∃ k, Emitter.empty.Counts 2 k ∧ s.emitInitializer helper Emitter.empty = ((), (Emitter.empty.grow
      [.ldsfld s.library.cell, .brtrue ⟨0⟩, .call s.library.loader, .ldsfld s.library.cell,
        .ldstr s.stub.symbol, .call (Helper.getProcAddress helper), .stsfld s.cell]
      [⟨some 3, some 0⟩] [] 0 k true).push .ret) := by
  have pops : s.library.loader.pops = 0 := by rw [loader]; rfl
  have pushes : s.library.loader.pushes = 0 := by rw [loader]; rfl
  have number : (⟨0⟩ : Label) = Emitter.empty.label 0 := rfl
  have small : Emitter.empty.labels.size + 0 < 2 ^ 32 := by decide
  rw [← congrArg (s.emitInitializer helper) (Emitter.At.eq_grow ⟨rfl, rfl⟩), number]
  refine ⟨?k, ?counts, ?eq⟩
  case eq =>
    simp (disch := first | omega | (simp [pops, small] <;> omega) | fail)
      [emitInitializer, Helper.getProcAddress, Helper.method, pops, pushes]
    rfl
  case counts => constructor <;> simp only [UInt16.toNat_max, UInt16.reduceToNat] <;> omega

theorem initializerDef_eq (helper : TypeName)
    (loader : s.library.loader = .static owner s.library.loader.name [] .void) :
    ∃ k, s.initializerDef helper = .ok (MethodDef.withBody .priv s.initializer.name [] .void
      ⟨[], [.ldsfld s.library.cell, .brtrue ⟨0⟩, .call s.library.loader, .ldsfld s.library.cell,
        .ldstr s.stub.symbol, .call (Helper.getProcAddress helper), .stsfld s.cell, .ret], [3], [],
        true, k⟩) := by
  obtain ⟨k, -, emitted⟩ := emitInitializer_eq helper loader
  rw [Emitter.push_ret_grow (by decide)] at emitted
  exact MethodDef.generated_eq _ _ _ _ emitted (by simp)

theorem pops_callSite (fits : s.Fits owner) :
    (Instr.calli s.callSite).pops = s.stub.params.length + 1 := by
  rw [fits.callSite]
  simp [callSiteOf, Stub.nativeParamTypes]

theorem emitThunk_eq (fits : s.Fits owner) (few : s.stub.params.length + 2 < 2 ^ 16) :
    ∃ k, Emitter.empty.Counts (s.stub.params.length + 1) k ∧ s.emitThunk Emitter.empty =
      ((), (Emitter.empty.grow
        (((List.range (s.stub.params.length + 1)).map fun i => .ldarg (UInt16.ofNat i)) ++
          [.calli s.callSite]) [] [] (Instr.calli s.callSite).pushes k true).push .ret) := by
  have count : s.thunk.params.length = s.stub.params.length + 1 := by
    rw [fits.thunk, fits.callSite]
    simp [MethodRef.static, callSiteOf, Stub.nativeParamTypes]
  have pops := pops_callSite fits
  obtain ⟨k, -, high, peak, loaded⟩ := Emitter.foldl_push_ldargs Emitter.empty [] 0 0
    (List.range (s.stub.params.length + 1)) (by rw [List.length_range]; omega) (Nat.zero_le _)
  rw [List.nil_append, List.length_range, Nat.zero_add] at loaded
  rw [List.length_range, Nat.zero_add] at high peak
  have start : Emitter.empty.grow [] [] [] 0 0 true = Emitter.empty :=
    Emitter.At.eq_grow ⟨rfl, rfl⟩
  have called (is : List Instr) :
      (Emitter.empty.grow is [] [] (s.stub.params.length + 1) k true).push (.calli s.callSite) =
        Emitter.empty.grow (is ++ [.calli s.callSite]) [] [] (Instr.calli s.callSite).pushes
          (max k (UInt16.ofNat (Instr.calli s.callSite).pushes)) true := by
    rw [Emitter.push_grow rfl (by omega) (Nat.le_of_eq pops), pops, Nat.sub_self, Nat.zero_add]
  refine ⟨max k (UInt16.ofNat (Instr.calli s.callSite).pushes), ⟨Nat.zero_le _, ?_, ?_⟩, ?_⟩
  · rw [UInt16.toNat_max]
    exact Nat.le_trans high (Nat.le_max_left _ _)
  · have low : (Instr.calli s.callSite).pushes ≤ 1 := by
      rw [Instr.pushes]
      split <;> decide
    have zero : (0 : UInt16).toNat = 0 := rfl
    rw [UInt16.toNat_max, UInt16.toNat_ofNat', Nat.mod_eq_of_lt (by omega)]
    omega
  · simp only [emitThunk, Emit.bind_apply, Emit.instrs_apply, count]
    rw [← start, loaded, List.foldl_cons, List.foldl_cons, List.foldl_nil, called, start]

theorem pushes_callSite_lt : (Instr.calli s.callSite).pushes < 2 ^ 16 := by
  rw [Instr.pushes]
  split <;> decide

theorem thunkDef_eq (fits : s.Fits owner) (few : s.stub.params.length + 2 < 2 ^ 16) :
    ∃ k, s.thunkDef = .ok { MethodDef.withBody .priv s.thunk.name
        (s.stub.params.map (fun p => (p.name, p.nativeType)) ++ [("fn", .intPtr)])
        s.thunk.returnType
        ⟨[], ((List.range (s.stub.params.length + 1)).map fun i => .ldarg (UInt16.ofNat i)) ++
          [.calli s.callSite, .ret], [], [], true, k⟩ with
      flags := { MethodFlags.none with hideBySig := true, aggressiveInlining := true } } := by
  obtain ⟨k, -, emitted⟩ := emitThunk_eq fits few
  rw [Emitter.push_ret_grow pushes_callSite_lt, List.append_assoc, List.singleton_append] at emitted
  obtain ⟨k', eq⟩ := MethodDef.generated_eq .priv s.thunk.name
    (s.stub.params.map (fun p => (p.name, p.nativeType)) ++ [("fn", .intPtr)]) s.thunk.returnType
    emitted (by simp)
  refine ⟨k', ?_⟩
  rw [thunkDef, eq]
  rfl

theorem eq_of_thunkDef {m : MethodDef} (h : s.thunkDef = .ok m) :
    ∃ body flags, m = { MethodDef.withBody .priv s.thunk.name
        (s.stub.params.map (fun p => (p.name, p.nativeType)) ++ [("fn", .intPtr)])
        s.thunk.returnType body with flags } := by
  unfold thunkDef at h
  simp only [Except.map] at h
  split at h
  · cases h
  · next made =>
    obtain ⟨body, rfl⟩ := MethodDef.eq_of_generated made
    cases h
    exact ⟨body, _, rfl⟩

end StubScaffold

/-! ## Adding members -/

namespace TypeDef

/-- A type with more members behind its own. -/
def extend (t : TypeDef) (fields : List FieldDef) (methods : List MethodDef) : TypeDef :=
  { t with fields := t.fields ++ fields, methods := t.methods ++ methods }

theorem extend_extend (t : TypeDef) (fields fields' : List FieldDef)
    (methods methods' : List MethodDef) :
    (t.extend fields methods).extend fields' methods' =
      t.extend (fields ++ fields') (methods ++ methods') := by
  simp [extend]

theorem extend_nil (t : TypeDef) : t.extend [] [] = t := by
  simp [extend]

theorem mem_memberNames_extend {t : TypeDef} {fields : List FieldDef} {methods : List MethodDef}
    {name : String} :
    name ∈ (t.extend fields methods).memberNames ↔
      name ∈ t.memberNames ∨ name ∈ fields.map FieldDef.name ∨
        name ∈ methods.map MethodDef.name := by
  simp only [extend, memberNames, List.map_append, List.mem_append]
  constructor
  · rintro ((h | h) | (h | h))
    · exact .inl (.inl h)
    · exact .inr (.inl h)
    · exact .inl (.inr h)
    · exact .inr (.inr h)
  · rintro ((h | h) | (h | h))
    · exact .inl (.inl h)
    · exact .inr (.inl h)
    · exact .inl (.inr h)
    · exact .inr (.inr h)

theorem addField_of_free {t : TypeDef} {field : FieldDef} (free : field.name ∉ t.memberNames) :
    t.addField field = .ok (t.extend [field] []) := by
  have none : t.field? field.name = none := by
    refine List.find?_eq_none.mpr fun f hf same => free ?_
    rw [← beq_iff_eq.mp same]
    exact List.mem_append_left _ (List.mem_map_of_mem hf)
  simp [addField, none, extend]

theorem addMethod_of_free {t : TypeDef} {method : MethodDef}
    (free : method.name ∉ t.memberNames) : t.addMethod method = .ok (t.extend [] [method]) := by
  have none : t.methods.any (·.sameSignature method) = false := by
    refine List.any_eq_false.mpr fun m hm same => free ?_
    have name : m.name = method.name := by
      simp only [MethodDef.sameSignature, Bool.and_eq_true, beq_iff_eq] at same
      exact same.1
    rw [← name]
    exact List.mem_append_right _ (List.mem_map_of_mem hm)
  simp [addMethod, none, extend]

theorem foldlM_addMethod (f : MemberError → BindError) {methods : List MethodDef} {t : TypeDef}
    (nodup : (methods.map MethodDef.name).Nodup)
    (free : ∀ name ∈ methods.map MethodDef.name, name ∉ t.memberNames) :
    methods.foldlM (fun t m => (t.addMethod m).mapError f) t = .ok (t.extend [] methods) := by
  induction methods generalizing t with
  | nil => rw [extend_nil]; rfl
  | cons m methods ih =>
    rw [List.map_cons, List.nodup_cons] at nodup
    have first : t.addMethod m = .ok (t.extend [] [m]) := addMethod_of_free (free _ (by simp))
    rw [List.foldlM_cons, first]
    refine (ih nodup.2 ?_).trans ?_
    · intro name hname
      rw [mem_memberNames_extend]
      rintro (h | h | h)
      · exact free name (List.mem_cons_of_mem _ hname) h
      · simp at h
      · rw [List.map_singleton, List.mem_singleton] at h
        exact nodup.1 (h ▸ hname)
    · rw [extend_extend]
      rfl

end TypeDef

namespace TypeScaffold

/-- The methods that a list of attempts has generated. -/
def generatedBy (attempts : List (Except BindError MethodDef)) : List MethodDef :=
  attempts.filterMap Except.toOption

theorem mem_generatedBy {attempts : List (Except BindError MethodDef)} {m : MethodDef} :
    m ∈ generatedBy attempts ↔ .ok m ∈ attempts := by
  simp only [generatedBy, List.mem_filterMap]
  constructor
  · rintro ⟨attempt, ha, ok⟩
    cases attempt with
    | error e => cases ok
    | ok m' =>
      cases ok
      exact ha
  · exact fun ha => ⟨_, ha, rfl⟩

theorem addField_eq (owner : TypeName) (what : String) {t : TypeDef} {field : FieldDef}
    (free : field.name ∉ t.memberNames) :
    addField owner what field t = .ok (t.extend [field] []) := by
  rw [addField, TypeDef.addField_of_free free]
  rfl

theorem addMethod_eq (owner : TypeName) (what : String) {t : TypeDef} {method : MethodDef}
    (free : method.name ∉ t.memberNames) :
    addMethod owner what method t = .ok (t.extend [] [method]) := by
  rw [addMethod, TypeDef.addMethod_of_free free]
  rfl

/-- The methods that are generated for a library. -/
def libraryMethods (helper : TypeName) (l : LibraryScaffold) : List MethodDef :=
  generatedBy [l.loaderDef helper]

/-- The methods that are generated for a stub. -/
def stubMethods (helper : TypeName) (s : StubScaffold) : List MethodDef :=
  generatedBy [s.initializerDef helper, s.thunkDef]

/-- The new fields. -/
def fields (planned : TypeScaffold) : List FieldDef :=
  planned.libraries.flatMap (fun l => [addressCell l.cell]) ++
    planned.stubs.flatMap fun s => [addressCell s.cell]

/-- The new methods. -/
def methods (helper : TypeName) (planned : TypeScaffold) : List MethodDef :=
  planned.libraries.flatMap (libraryMethods helper) ++ planned.stubs.flatMap (stubMethods helper)

theorem mem_libraryMethods {helper : TypeName} {l : LibraryScaffold} {m : MethodDef} :
    m ∈ libraryMethods helper l ↔ l.loaderDef helper = .ok m := by
  rw [libraryMethods, mem_generatedBy, List.mem_singleton, eq_comm]

theorem mem_stubMethods {helper : TypeName} {s : StubScaffold} {m : MethodDef} :
    m ∈ stubMethods helper s ↔ s.initializerDef helper = .ok m ∨ s.thunkDef = .ok m := by
  rw [stubMethods, mem_generatedBy, List.mem_cons, List.mem_singleton, eq_comm,
    @eq_comm _ _ s.thunkDef]

theorem installLibrary_eq (helper owner : TypeName) {t : TypeDef} {l : LibraryScaffold}
    (nodup : l.names.Nodup) (free : ∀ name ∈ l.names, name ∉ t.memberNames) :
    installLibrary helper owner t l =
      .ok (t.extend [addressCell l.cell] (libraryMethods helper l)) := by
  obtain ⟨k, eq⟩ := l.loaderDef_eq helper
  have differ : l.loader.name ≠ l.cell.name := by
    intro same
    simp [LibraryScaffold.names, same] at nodup
  have cell : (addressCell l.cell).name ∉ t.memberNames :=
    free _ (by simp [LibraryScaffold.names, addressCell])
  rw [installLibrary, addField_eq owner _ cell, eq, libraryMethods, eq]
  refine (addMethod_eq owner _ ?_).trans (by rw [TypeDef.extend_extend]; rfl)
  rw [TypeDef.mem_memberNames_extend]
  rintro (h | h | h)
  · exact free _ (by simp [LibraryScaffold.names, MethodDef.withBody]) h
  · exact differ (by simpa [MethodDef.withBody, addressCell] using h)
  · simp at h

theorem installStub_eq (helper owner : TypeName) {t : TypeDef} {s : StubScaffold}
    (fits : s.Fits owner)
    (loader : s.library.loader = .static owner s.library.loader.name [] .void)
    (few : s.stub.params.length < 30000) (nodup : s.names.Nodup)
    (free : ∀ name ∈ s.names, name ∉ t.memberNames) :
    installStub helper owner t s =
      .ok (t.extend [addressCell s.cell] (stubMethods helper s)) := by
  obtain ⟨init, eq₁, name₁⟩ : ∃ init, s.initializerDef helper = .ok init ∧
      init.name = s.initializer.name := by
    obtain ⟨k, eq⟩ := StubScaffold.initializerDef_eq helper loader
    exact ⟨_, eq, rfl⟩
  obtain ⟨thunk, eq₂, name₂⟩ : ∃ thunk, s.thunkDef = .ok thunk ∧ thunk.name = s.thunk.name := by
    obtain ⟨k, eq⟩ := StubScaffold.thunkDef_eq fits (by omega)
    exact ⟨_, eq, rfl⟩
  obtain ⟨⟨initCell, thunkCell⟩, thunkInit⟩ : (s.cell.name ≠ s.initializer.name ∧
      s.cell.name ≠ s.thunk.name) ∧ s.initializer.name ≠ s.thunk.name := by
    simpa [StubScaffold.names] using nodup
  have cell : (addressCell s.cell).name ∉ t.memberNames :=
    free _ (by simp [StubScaffold.names, addressCell])
  have initFree : init.name ∉ (t.extend [addressCell s.cell] []).memberNames := by
    rw [TypeDef.mem_memberNames_extend, name₁]
    rintro (h | h | h)
    · exact free _ (by simp [StubScaffold.names]) h
    · exact initCell (by simpa [addressCell, eq_comm] using h)
    · simp at h
  have thunkFree : thunk.name ∉ (t.extend [addressCell s.cell] [init]).memberNames := by
    rw [TypeDef.mem_memberNames_extend, name₂]
    rintro (h | h | h)
    · exact free _ (by simp [StubScaffold.names]) h
    · exact thunkCell (by simpa [addressCell, eq_comm] using h)
    · exact thunkInit (by simpa [name₁, eq_comm] using h)
  rw [installStub, addField_eq owner _ cell, eq₁, eq₂, stubMethods, eq₁, eq₂]
  refine Eq.trans (congrArg (· >>= addMethod owner "thunk" thunk) (addMethod_eq owner _ initFree)) ?_
  rw [TypeDef.extend_extend]
  refine (addMethod_eq owner _ thunkFree).trans ?_
  rw [TypeDef.extend_extend]
  rfl

/-- Additions one after the other, when no name is given out twice. -/
theorem foldlM_eq {α : Type} {install : TypeDef → α → Except BindError TypeDef}
    {names : α → List String} {fields : α → List FieldDef} {methods : α → List MethodDef}
    {l : List α} {t : TypeDef}
    (step : ∀ a ∈ l, ∀ t : TypeDef, (names a).Nodup → (∀ name ∈ names a, name ∉ t.memberNames) →
      install t a = .ok (t.extend (fields a) (methods a)))
    (named : ∀ a ∈ l, ∀ name, name ∈ (fields a).map FieldDef.name ∨
      name ∈ (methods a).map MethodDef.name → name ∈ names a)
    (nodup : (l.flatMap names).Nodup) (free : ∀ name ∈ l.flatMap names, name ∉ t.memberNames) :
    l.foldlM install t = .ok (t.extend (l.flatMap fields) (l.flatMap methods)) := by
  induction l generalizing t with
  | nil => rw [List.flatMap_nil, List.flatMap_nil, TypeDef.extend_nil]; rfl
  | cons a l ih =>
    rw [List.flatMap_cons, List.nodup_append] at nodup
    obtain ⟨nodup₁, nodup₂, apart⟩ := nodup
    have first := step a (by simp) t nodup₁ fun name h => free name (by
      rw [List.flatMap_cons]
      exact List.mem_append_left _ h)
    rw [List.foldlM_cons, first]
    refine (ih (fun b hb => step b (List.mem_cons_of_mem a hb))
      (fun b hb => named b (List.mem_cons_of_mem a hb)) nodup₂ ?_).trans ?_
    · intro name h
      rw [TypeDef.mem_memberNames_extend]
      rintro (h' | h')
      · exact free name (by rw [List.flatMap_cons]; exact List.mem_append_right _ h) h'
      · exact apart name (named a (by simp) name h') name h rfl
    · rw [TypeDef.extend_extend, List.flatMap_cons, List.flatMap_cons]

/-! ## What an addition has added -/

theorem extend_of_addField {owner : TypeName} {what : String} {field : FieldDef} {t t' : TypeDef}
    (h : addField owner what field t = .ok t') : t' = t.extend [field] [] := by
  unfold addField TypeDef.addField at h
  split at h
  · cases h
  · cases h
    simp [TypeDef.extend]

theorem extend_of_addMethod {owner : TypeName} {what : String} {method : MethodDef}
    {t t' : TypeDef} (h : addMethod owner what method t = .ok t') :
    t' = t.extend [] [method] := by
  unfold addMethod TypeDef.addMethod at h
  split at h
  · cases h
  · cases h
    simp [TypeDef.extend]

theorem extend_of_installLibrary {helper owner : TypeName} {t t' : TypeDef} {l : LibraryScaffold}
    (h : installLibrary helper owner t l = .ok t') :
    t' = t.extend [addressCell l.cell] (libraryMethods helper l) := by
  obtain ⟨t₁, field, h⟩ := bind_eq_ok h
  obtain ⟨loader, generated, h⟩ := bind_eq_ok h
  rw [extend_of_addMethod h, extend_of_addField field, TypeDef.extend_extend, libraryMethods,
    generated]
  rfl

theorem extend_of_installStub {helper owner : TypeName} {t t' : TypeDef} {s : StubScaffold}
    (h : installStub helper owner t s = .ok t') :
    t' = t.extend [addressCell s.cell] (stubMethods helper s) := by
  obtain ⟨t₁, field, h⟩ := bind_eq_ok h
  obtain ⟨init, generated₁, h⟩ := bind_eq_ok h
  obtain ⟨t₂, method, h⟩ := bind_eq_ok h
  obtain ⟨thunk, generated₂, h⟩ := bind_eq_ok h
  rw [extend_of_addMethod h, extend_of_addMethod method, extend_of_addField field,
    TypeDef.extend_extend, TypeDef.extend_extend, stubMethods, generated₁, generated₂]
  rfl

theorem extend_of_foldlM {α : Type} {install : TypeDef → α → Except BindError TypeDef}
    {fields : α → List FieldDef} {methods : α → List MethodDef} {l : List α} {t t' : TypeDef}
    (step : ∀ a t t', install t a = .ok t' → t' = t.extend (fields a) (methods a))
    (h : l.foldlM install t = .ok t') : t' = t.extend (l.flatMap fields) (l.flatMap methods) := by
  induction l generalizing t with
  | nil =>
    cases h
    rw [List.flatMap_nil, List.flatMap_nil, TypeDef.extend_nil]
  | cons a l ih =>
    rw [List.foldlM_cons] at h
    obtain ⟨t₁, first, h⟩ := bind_eq_ok h
    rw [ih h, step a t t₁ first, TypeDef.extend_extend, List.flatMap_cons, List.flatMap_cons]

/-- Whenever members could be added, they stand behind the old ones. -/
theorem extend_of_install {helper : TypeName} {planned : TypeScaffold} {t t' : TypeDef}
    (h : install helper planned t = .ok t') :
    t' = t.extend planned.fields (planned.methods helper) := by
  obtain ⟨t₁, libraries, h⟩ := bind_eq_ok h
  have first := extend_of_foldlM (fun l t _ => extend_of_installLibrary (t := t) (l := l)) libraries
  have second := extend_of_foldlM (fun s t _ => extend_of_installStub (t := t) (s := s)) h
  rw [second, first, TypeDef.extend_extend]
  rfl

/-- A fold that succeeds has gone through all its steps. -/
theorem exists_of_mem_foldlM {α β ε : Type} {f : β → α → Except ε β} {l : List α} {b b' : β}
    (h : l.foldlM f b = .ok b') {a : α} (ha : a ∈ l) : ∃ b₁ b₂, f b₁ a = .ok b₂ := by
  induction l generalizing b with
  | nil => cases ha
  | cons a' l ih =>
    rw [List.foldlM_cons] at h
    obtain ⟨b₁, first, h⟩ := bind_eq_ok h
    rcases List.mem_cons.mp ha with rfl | ha
    · exact ⟨b, b₁, first⟩
    · exact ih h ha

/-- Whenever members could be added, all of them could be generated. -/
theorem generated_of_install {helper : TypeName} {planned : TypeScaffold} {t t' : TypeDef}
    (h : install helper planned t = .ok t') :
    (∀ l ∈ planned.libraries, ∃ loader, l.loaderDef helper = .ok loader) ∧
      ∀ s ∈ planned.stubs, ∃ init thunk, s.initializerDef helper = .ok init ∧
        s.thunkDef = .ok thunk := by
  obtain ⟨t₁, libraries, stubs⟩ := bind_eq_ok h
  refine ⟨fun l hl => ?_, fun s hs => ?_⟩
  · obtain ⟨t₂, t₃, h⟩ := exists_of_mem_foldlM libraries hl
    obtain ⟨t₄, field, h⟩ := bind_eq_ok h
    obtain ⟨loader, generated, -⟩ := bind_eq_ok h
    exact ⟨loader, generated⟩
  · obtain ⟨t₂, t₃, h⟩ := exists_of_mem_foldlM stubs hs
    obtain ⟨t₄, field, h⟩ := bind_eq_ok h
    obtain ⟨init, generated₁, h⟩ := bind_eq_ok h
    obtain ⟨t₅, method, h⟩ := bind_eq_ok h
    obtain ⟨thunk, generated₂, -⟩ := bind_eq_ok h
    exact ⟨init, thunk, generated₁, generated₂⟩

theorem importInfo_of_mem_methods {helper : TypeName} {planned : TypeScaffold} {m : MethodDef}
    (h : m ∈ planned.methods helper) : m.importInfo = none := by
  rcases List.mem_append.mp h with h | h
  · obtain ⟨l, -, hm⟩ := List.mem_flatMap.mp h
    obtain ⟨body, rfl⟩ := MethodDef.eq_of_generated (mem_libraryMethods.mp hm)
    rfl
  · obtain ⟨s, -, hm⟩ := List.mem_flatMap.mp h
    rcases mem_stubMethods.mp hm with hm | hm
    · obtain ⟨body, rfl⟩ := MethodDef.eq_of_generated hm
      rfl
    · obtain ⟨body, flags, rfl⟩ := StubScaffold.eq_of_thunkDef hm
      rfl

/-! ## The names of new members -/

/-- What has been generated has the names that were asked for, or less of them. -/
theorem names_generatedBy {attempts : List (Except BindError MethodDef)} {names : List String}
    (named : List.Forall₂ (fun attempt name => ∀ m, attempt = .ok m → m.name = name)
      attempts names) : ((generatedBy attempts).map MethodDef.name).Sublist names := by
  induction named with
  | nil => exact List.Sublist.slnil
  | @cons attempt name attempts names first _ ih =>
    cases attempt with
    | error e => exact ih.cons name
    | ok m =>
      rw [← first m rfl]
      exact ih.cons_cons m.name

theorem names_field_library (l : LibraryScaffold) :
    ([addressCell l.cell].map FieldDef.name).Sublist l.names :=
  .cons_cons _ (List.nil_sublist _)

theorem names_libraryMethods (helper : TypeName) (l : LibraryScaffold) :
    ((libraryMethods helper l).map MethodDef.name).Sublist l.names := by
  refine .cons _ (names_generatedBy (.cons (fun m made => ?_) .nil))
  obtain ⟨body, rfl⟩ := MethodDef.eq_of_generated made
  rfl

theorem names_field_stub (s : StubScaffold) :
    ([addressCell s.cell].map FieldDef.name).Sublist s.names :=
  .cons_cons _ (List.nil_sublist _)

theorem names_stubMethods (helper : TypeName) (s : StubScaffold) :
    ((stubMethods helper s).map MethodDef.name).Sublist s.names := by
  refine .cons _ (names_generatedBy (.cons (fun m made => ?_) (.cons (fun m made => ?_) .nil)))
  · obtain ⟨body, rfl⟩ := MethodDef.eq_of_generated made
    rfl
  · obtain ⟨body, flags, rfl⟩ := StubScaffold.eq_of_thunkDef made
    rfl

theorem mem_names_of_library (helper : TypeName) {l : LibraryScaffold} {name : String}
    (h : name ∈ [addressCell l.cell].map FieldDef.name ∨
      name ∈ (libraryMethods helper l).map MethodDef.name) : name ∈ l.names :=
  h.elim (fun h => (names_field_library l).subset h) fun h => (names_libraryMethods helper l).subset h

theorem mem_names_of_stub (helper : TypeName) {s : StubScaffold} {name : String}
    (h : name ∈ [addressCell s.cell].map FieldDef.name ∨
      name ∈ (stubMethods helper s).map MethodDef.name) : name ∈ s.names :=
  h.elim (fun h => (names_field_stub s).subset h) fun h => (names_stubMethods helper s).subset h

/-- The new fields have names that were given out, each its own. -/
theorem names_fields (planned : TypeScaffold) :
    (planned.fields.map FieldDef.name).Sublist planned.names := by
  rw [fields, List.map_append, List.map_flatMap, List.map_flatMap]
  exact .append (List.Sublist.flatMap_right _ fun l _ => names_field_library l)
    (List.Sublist.flatMap_right _ fun s _ => names_field_stub s)

theorem names_methods (helper : TypeName) (planned : TypeScaffold) :
    ((planned.methods helper).map MethodDef.name).Sublist planned.names := by
  rw [methods, List.map_append, List.map_flatMap, List.map_flatMap]
  exact .append (List.Sublist.flatMap_right _ fun l _ => names_libraryMethods helper l)
    (List.Sublist.flatMap_right _ fun s _ => names_stubMethods helper s)

theorem mem_names_of_field {planned : TypeScaffold} {f : FieldDef} (h : f ∈ planned.fields) :
    f.name ∈ planned.names :=
  planned.names_fields.subset (List.mem_map_of_mem h)

theorem mem_names_of_method {helper : TypeName} {planned : TypeScaffold} {m : MethodDef}
    (h : m ∈ planned.methods helper) : m.name ∈ planned.names :=
  (planned.names_methods helper).subset (List.mem_map_of_mem h)

theorem isStatic_of_mem_fields {planned : TypeScaffold} {f : FieldDef} (h : f ∈ planned.fields) :
    f.isStatic := by
  rcases List.mem_append.mp h with h | h <;> obtain ⟨_, -, hf⟩ := List.mem_flatMap.mp h <;>
    rw [List.mem_singleton.mp hf] <;> rfl

/-! ## Additions that succeed -/

/-- The new members are added behind the old ones, in the order of the planned members. -/
theorem install_eq (helper : TypeName) {c : Config} {t : TypeDef} {imports : TypeImports}
    {planned : TypeScaffold} (fits : planned.Fits c t imports)
    (few : ∀ s ∈ planned.stubs, s.stub.params.length < 30000) (nodup : planned.names.Nodup)
    {t' : TypeDef} (free : ∀ name ∈ planned.names, name ∉ t'.memberNames) :
    install helper planned t' = .ok (t'.extend planned.fields (planned.methods helper)) := by
  obtain ⟨nodup₁, nodup₂, apart⟩ := List.nodup_append.mp nodup
  have first := foldlM_eq (fun l _ t' => installLibrary_eq helper t.name)
    (fun _ _ _ => mem_names_of_library helper) nodup₁ fun name h =>
      free name (List.mem_append_left _ h)
  have apart' : ∀ name ∈ planned.stubs.flatMap StubScaffold.names, name ∉ (t'.extend
      (planned.libraries.flatMap fun l => [addressCell l.cell])
      (planned.libraries.flatMap (libraryMethods helper))).memberNames := by
    intro name hname
    rw [TypeDef.mem_memberNames_extend]
    rintro (h | h)
    · exact free name (List.mem_append_right _ hname) h
    · refine apart name (List.mem_flatMap.mpr ?_) name hname rfl
      rcases h with h | h
      · obtain ⟨field, hfield, rfl⟩ := List.mem_map.mp h
        obtain ⟨l, hl, hfield⟩ := List.mem_flatMap.mp hfield
        exact ⟨l, hl, mem_names_of_library helper (.inl (List.mem_map_of_mem hfield))⟩
      · obtain ⟨m, hm, rfl⟩ := List.mem_map.mp h
        obtain ⟨l, hl, hm⟩ := List.mem_flatMap.mp hm
        exact ⟨l, hl, mem_names_of_library helper (.inr (List.mem_map_of_mem hm))⟩
  have second := foldlM_eq (fun s hs t' => installStub_eq helper t.name (fits.stub s hs).1
    (fits.library _ (fits.stub s hs).2).loader (few s hs)) (fun _ _ _ => mem_names_of_stub helper)
    nodup₂ apart'
  rw [install, fits.owner, first]
  refine second.trans ?_
  rw [TypeDef.extend_extend]
  rfl

end TypeScaffold

end LateBind

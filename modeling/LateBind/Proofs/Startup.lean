import LateBind.Proofs.GeneratedCode
import LateBind.Proofs.LoaderMethods
import LateBind.Proofs.Sessions

/-! # Loading a bound module

The helper type is the last of a bound module, so its type initialiser runs after all others. Until
then its two fields are zero, and nothing that other types can call changes that: while the flag of
the family is zero, libraries are loaded as on Windows, and the number of the system is not looked
for. After loading, the helper type knows the family of its platform. -/

namespace LateBind

open Machine Exec

namespace Helper

variable {m : Machine} {helper : TypeName} {flags : Int32} {types : List TypeDef}
  {s s' : MachineState}

def helperDef (helper : TypeName) (flags : Int32) : TypeDef :=
  (emptyDef helper).extend [] (methods helper flags)

/-- The words in the two fields of the helper type. -/
structure Knows (helper : TypeName) (isUnix flavor : UInt64) (s : MachineState) : Prop where
  isUnix : s.Holds (isUnixField helper) isUnix
  unixFlavor : s.Holds (unixFlavorField helper) flavor

section Knows

variable {isUnix flavor : UInt64}

theorem Knows.of_statics (knows : Knows helper isUnix flavor s) (same : s'.statics = s.statics) :
    Knows helper isUnix flavor s' :=
  ⟨knows.isUnix.of_statics same, knows.unixFlavor.of_statics same⟩

theorem blind_knows : Blind (Knows helper isUnix flavor) := fun _ _ same _ h => h.of_statics same

theorem keeps_native {α : Type} (code : Native α) :
    Keeps Starvation (Knows helper isUnix flavor) (Exec.native code) :=
  fun _ h => .inr (h.of_statics rfl)

theorem Knows.setStatic {f : FieldRef} (other : f.owner ≠ helper) (w : UInt64)
    (knows : Knows helper isUnix flavor s) : Knows helper isUnix flavor (s.setStatic f w) :=
  ⟨knows.isUnix.setStatic_of_ne (.inl other.symm) w,
    knows.unixFlavor.setStatic_of_ne (.inl other.symm) w⟩

end Knows

/-! ## Bound modules -/

/-- The helper type is the last of the module, and the code of the other types keeps to its
entries. No type stands for one of the framework. -/
structure IsBound (m : Machine) (types : List TypeDef) (helper : TypeName) (flags : Int32) :
    Prop where
  eq : m.module.types = types ++ [helperDef helper flags]
  other : ∀ t ∈ types, t.name ≠ helper
  only : ∀ t ∈ types, ∀ method ∈ t.methods, method.Only (Respects helper)
  framework : ∀ member : RuntimeMember, ∀ t ∈ m.module.types, t.name ≠ member.ref.owner

theorem hasHelper_of_last (eq : m.module.types = types ++ [helperDef helper flags])
    (other : ∀ t ∈ types, t.name ≠ helper)
    (framework : ∀ member : RuntimeMember, ∀ t ∈ m.module.types, t.name ≠ member.ref.owner) :
    m.HasHelper helper flags where
  own := by
    have before : types.find? (·.name == helper) = none :=
      List.find?_eq_none.mpr fun t ht => by simpa using other t ht
    rw [Module.ownType?, eq, List.find?_append, before, Option.none_or, List.find?_cons_of_pos]
    · rfl
    · exact beq_self_eq_true helper
  framework member :=
    List.find?_eq_none.mpr fun t ht => by simpa using framework member t ht

section Bound

variable (bound : IsBound m types helper flags)

include bound

theorem IsBound.hasHelper : m.HasHelper helper flags :=
  hasHelper_of_last bound.eq bound.other bound.framework

theorem IsBound.ref_ne (member : RuntimeMember) : member.ref.owner ≠ helper := by
  refine (bound.framework member (helperDef helper flags) ?_).symm
  rw [bound.eq]
  exact List.mem_append_right _ (List.mem_singleton.mpr rfl)

end Bound

/-! ## While the flag of the family is zero -/

/-- Code that calls nothing but the loader of Windows from the seventh instruction on. -/
structure WindowsCode (helper : TypeName) (body : Body) : Prop where
  regions : body.regions = []
  labels : ∀ place ∈ body.labels, 7 ≤ place
  instrs : ∀ i ∈ body.instrs.drop 7, i.isLocal ∨
    i ∈ [Instr.call (windowsLoadLibrary helper), .call (windowsGetProcAddress helper),
      .call Framework.stringConcat]

theorem windowsCode_loadLibrary (helper : TypeName) (flags : Int32) :
    WindowsCode helper (loadLibraryBody helper flags) :=
  ⟨rfl, by simp [loadLibraryBody], by simp [loadLibraryBody]⟩

theorem windowsCode_getProcAddress (helper : TypeName) :
    WindowsCode helper (getProcAddressBody helper) :=
  ⟨rfl, by simp [getProcAddressBody], by simp [getProcAddressBody]⟩

theorem WindowsCode.instr {body : Body} (windows : WindowsCode helper body) {pc : Nat} {i : Instr}
    (inside : 7 ≤ pc) (code : body.instrs[pc]? = some i) : i.isLocal ∨
      i ∈ [Instr.call (windowsLoadLibrary helper), .call (windowsGetProcAddress helper),
        .call Framework.stringConcat] := by
  refine windows.instrs i (List.mem_of_getElem? (i := pc - 7) ?_)
  rw [List.getElem?_drop, Nat.add_sub_cancel' inside]
  exact code

section Asleep

variable {isUnix flavor : UInt64} (h : m.HasHelper helper flags)

include h

theorem windows_confines : m.Confines m Starvation (Beside (Knows helper isUnix flavor))
    (fun body pc => WindowsCode helper body ∧ 7 ≤ pc) (fun callee => callee.method.importInfo.isSome)
    where
  alike := .refl m
  stable := blind_knows.stable
  next inside _ := ⟨inside.1, by omega⟩
  jump inside _ _ target := ⟨inside.1, inside.1.labels _ (List.mem_of_getElem? target)⟩
  handler {b pc r} inside mem := by
    rw [inside.1.regions] at mem
    cases mem
  load _ _ := (keeps_loadStatic _).agree
  store inside code := by simpa using inside.1.instr inside.2 code
  indirect _ _ _ _ _ := (keeps_native _).agree
  call {b pc r callee} inside code resolves := by
    have load : windowsOpenImport ∈ methods helper flags := List.mem_of_getElem? (i := 9) rfl
    have find : windowsSymbolImport ∈ methods helper flags := List.mem_of_getElem? (i := 11) rfl
    have calls := inside.1.instr inside.2 code
    simp only [Instr.isLocal, Bool.false_eq_true, false_or, List.mem_cons, Instr.call.injEq,
      List.not_mem_nil, or_false] at calls
    refine ⟨resolves, ?_⟩
    rcases calls with rfl | rfl | rfl
    · cases (h.resolves load).symm.trans resolves
      rfl
    · cases (h.resolves find).symm.trans resolves
      rfl
    · cases (h.missing .stringConcat).symm.trans resolves
  missing _ _ h := .inl h
  member _ _ _ _ _ := RuntimeMember.agree_call blind_knows.stable blind_knows.lenient _ _ _
  known {callee} known := by
    obtain ⟨info, isImport⟩ := Option.isSome_iff_exists.mp known
    exact .inl fun n args =>
      (keeps_invoke_import_of_blind blind_knows (fun _ _ _ => keeps_native _) isImport n args).agree

/-- A method that tests the flag first, and goes on as on Windows when it is zero. -/
theorem keeps_invoke_tested {method : MethodDef} {body : Body}
    (notImport : method.importInfo = none) (isBody : method.body = some body)
    (test : body.instrs[0]? = some (.ldsfld (isUnixField helper)))
    (branch : body.instrs[1]? = some (.brfalse ⟨0⟩)) (target : body.target? ⟨0⟩ = some 7)
    (windows : WindowsCode helper body) (n : Nat) (args : List Value) :
    Keeps Starvation (Knows helper 0 flavor) (m.invoke n ⟨helper, method⟩ args) := by
  let f : Frame := .start m.module ⟨helper, method⟩ body args
  have rest (n : Nat) : Keeps Starvation (Knows helper 0 flavor) (m.run n (f.at 7 f.locals [])) :=
    ((windows_confines h).agree_run (f := f.at 7 f.locals []) ⟨windows, Nat.le_refl 7⟩ n).keeps
  have whole (n : Nat) : Keeps Starvation (Knows helper 0 flavor) (m.run n f) := by
    intro s knows
    have flag : m.loadStatic (isUnixField helper) s = (.ok (.i32 0), s) :=
      loadStatic_boolean knows.isUnix rfl
    have leads : m.Leads (f.at 0 f.locals []) s (f.at 7 f.locals []) s :=
      (Leads.ldsfld test flag).trans (Leads.brfalse branch target rfl)
    exact leads.keeps_run rest knows n
  cases n with
  | zero => exact keeps_fatal _
  | succ n =>
    rw [invoke_body notImport isBody]
    exact (whole n).bind fun _ => keeps_exitValue _ _

theorem keeps_invoke_loadLibrary (n : Nat) (args : List Value) :
    Keeps Starvation (Knows helper 0 flavor) (m.invoke n ⟨helper, loadLibraryDef helper flags⟩ args) :=
  keeps_invoke_tested h rfl rfl rfl rfl rfl (windowsCode_loadLibrary helper flags) n args

theorem keeps_invoke_getProcAddress (n : Nat) (args : List Value) :
    Keeps Starvation (Knows helper 0 flavor) (m.invoke n ⟨helper, getProcAddressDef helper⟩ args) :=
  keeps_invoke_tested h rfl rfl rfl rfl rfl (windowsCode_getProcAddress helper) n args

end Asleep

section Bound

variable {flavor : UInt64} (bound : IsBound m types helper flags)

include bound

/-- The entries that only convert strings. -/
theorem IsBound.only_converters : ∀ method ∈ converters, method.Only (Respects helper) := by
  have calls (member : RuntimeMember) : Respects helper (.call member.ref) :=
    respects_call_of_ne (bound.ref_ne member)
  have copies (encoding : StringEncoding) : Respects helper (.call (copyOf encoding)) := by
    cases encoding with
    | ansi => exact calls .stringToHGlobalAnsi
    | unicode => exact calls .stringToHGlobalUni
  intro method hm body isBody
  simp only [converters, List.mem_cons, List.not_mem_nil, or_false] at hm
  rcases hm with rfl | rfl | rfl | rfl <;> cases isBody
  · exact respects_code [_, _] rfl
      (List.forall_mem_cons.mpr
        ⟨calls .stringLength, List.forall_mem_singleton.mpr (calls .stringChars)⟩)
  · exact respects_code [_] rfl (List.forall_mem_singleton.mpr (copies .ansi))
  · exact respects_code [_] rfl (List.forall_mem_singleton.mpr (copies .unicode))
  · exact respects_code [_] rfl (List.forall_mem_singleton.mpr (calls .freeHGlobal))

/-- What code outside the helper type can call. -/
def Reachable (helper : TypeName) (flags : Int32) (callee : OwnedMethod) : Prop :=
  callee.method.Only (Respects helper) ∨ callee = ⟨helper, loadLibraryDef helper flags⟩ ∨
    callee = ⟨helper, getProcAddressDef helper⟩

theorem IsBound.reachable_of_call {r : MethodRef} (respects : Respects helper (.call r))
    {callee : OwnedMethod}
    (resolves : m.module.resolveMethod? r.owner r.name r.params = some callee) :
    Reachable helper flags callee := by
  by_cases own : r.owner = helper
  · have member (i : Nat) {method : MethodDef} (at_ : (methods helper flags)[i]? = some method)
        (resolved : m.module.resolveMethod? helper method.name method.paramTypes = some callee) :
        callee = ⟨helper, method⟩ :=
      Option.some.inj (resolved.symm.trans (bound.hasHelper.resolves (List.mem_of_getElem? at_)))
    have converter (i : Nat) {method : MethodDef} (at_ : (methods helper flags)[i]? = some method)
        (converts : method ∈ converters)
        (resolved : m.module.resolveMethod? helper method.name method.paramTypes = some callee) :
        Reachable helper flags callee := by
      rw [member i at_ resolved]
      exact .inl (bound.only_converters method converts)
    have entry := respects own
    simp only [entries, List.mem_cons, List.not_mem_nil, or_false] at entry
    rcases entry with rfl | rfl | rfl | rfl | rfl | rfl
    · exact .inr (.inl (member 20 rfl resolves))
    · exact .inr (.inr (member 22 rfl resolves))
    · exact converter 23 rfl (List.mem_of_getElem? (i := 0) rfl) resolves
    · exact converter 24 rfl (List.mem_of_getElem? (i := 1) rfl) resolves
    · exact converter 25 rfl (List.mem_of_getElem? (i := 2) rfl) resolves
    · exact converter 26 rfl (List.mem_of_getElem? (i := 3) rfl) resolves
  · obtain ⟨t, method, found, isMethod, rfl⟩ := Module.resolveMethod?_eq_some_iff.mp resolves
    have name : t.name = r.owner := by simpa using List.find?_some found
    have ht := List.mem_of_find?_eq_some found
    rw [bound.eq] at ht
    rcases List.mem_append.mp ht with ht | ht
    · exact .inl (bound.only t ht method (List.mem_of_find?_eq_some isMethod))
    · rw [List.mem_singleton.mp ht] at name
      exact absurd name.symm own

theorem IsBound.confines : m.Confines m Starvation (Beside (Knows helper 0 flavor))
    (fun body _ => ∀ i ∈ body.instrs, Respects helper i) (Reachable helper flags) where
  alike := .refl m
  stable := blind_knows.stable
  next inside _ := inside
  jump inside _ _ _ := inside
  handler inside _ := inside
  load _ _ := (keeps_loadStatic _).agree
  store inside code v :=
    (keeps_storeStatic (fun _ => Knows.setStatic (inside _ (List.mem_of_getElem? code))) v).agree
  indirect _ _ _ _ _ := (keeps_native _).agree
  call inside code resolves :=
    ⟨resolves, bound.reachable_of_call (inside _ (List.mem_of_getElem? code)) resolves⟩
  missing _ _ h := .inl h
  member _ _ _ _ _ := RuntimeMember.agree_call blind_knows.stable blind_knows.lenient _ _ _
  known {callee} reachable := by
    rcases reachable with only | rfl | rfl
    · cases isImport : callee.method.importInfo with
      | none => exact .inr ⟨rfl, only⟩
      | some info =>
        exact .inl fun n args =>
          (keeps_invoke_import_of_blind blind_knows (fun _ _ _ => keeps_native _) isImport n
            args).agree
    · exact .inl fun n args => (keeps_invoke_loadLibrary bound.hasHelper n args).agree
    · exact .inl fun n args => (keeps_invoke_getProcAddress bound.hasHelper n args).agree

end Bound

/-! ## The flag of the family -/

def isUnixDef : MethodDef := .withBody .assembly "IsUnix" [] .boolean isUnixBody

def staticConstructorMethod (helper : TypeName) : MethodDef :=
  { MethodDef.withBody .priv ".cctor" [] .void (staticConstructorBody helper) with
    flags := { MethodFlags.none with hideBySig := true, specialName := true } }

/-- The platform ends lines as its family does. -/
def EndsLines (p : Platform) : Prop := p.newline = "\n" ↔ p.family = .unix

theorem isUnix_ends (h : m.HasHelper helper flags) (lines : EndsLines m.world.catalog.platform)
    (s : MachineState) :
    ∃ s', m.EndsIn 5 ⟨helper, isUnixDef⟩ [] s
        (.ok (some (.ofBool (m.world.catalog.platform.family = .unix)))) s' ∧
      s'.statics = s.statics ∧ s'.pins = s.pins ∧ s'.native = s.native := by
  let f : Frame := .start m.module ⟨helper, isUnixDef⟩ isUnixBody []
  let line := m.world.catalog.platform.newline
  let s₁ : MachineState := { s with objects := s.objects.push (.str (Units.ofString line)) }
  let s₂ : MachineState := { s₁ with objects := s₁.objects.push (.str (Units.ofString "\n")) }
  have family : line = "\n" ↔ m.world.catalog.platform.family = .unix := lines
  have same : (Units.ofString line == Units.ofString "\n") =
      decide (m.world.catalog.platform.family = .unix) := by
    rw [Bool.eq_iff_iff, beq_iff_eq, decide_eq_true_iff, ← family]
    refine ⟨fun equal => ?_, fun equal => congrArg Units.ofString equal⟩
    rw [← Units.toText_ofString line, equal, Units.toText_ofString]
  have left : s₂.objects[s.objects.size]? = some (.str (Units.ofString line)) :=
    (MachineState.Advance.push s₁ _).objects _ _ Array.getElem?_push_size
  have right : s₂.objects[s₁.objects.size]? = some (.str (Units.ofString "\n")) :=
    Array.getElem?_push_size
  have asks : m.LeadsIn 2 0 (f.at 0 [] []) s
      (f.at 2 [] [.ref ⟨s₁.objects.size⟩, .ref ⟨s.objects.size⟩]) s₂ :=
    (LeadsIn.step rfl (Leads.instr_callRuntime [] rfl (h.missing .newLine) rfl
      (RuntimeMember.newLine_apply _ s))).trans (LeadsIn.step rfl (Leads.instr_ldstr _))
  have compares : RuntimeMember.stringEquals.call m.world.catalog.platform
      [.ref ⟨s.objects.size⟩, .ref ⟨s₁.objects.size⟩] s₂ =
        (.ok (some (.ofBool (m.world.catalog.platform.family = .unix))), s₂) := by
    rw [← same]
    exact RuntimeMember.stringEquals_apply left right
  have leads := asks.trans (LeadsIn.step rfl (Leads.instr_callRuntime
    [.ref ⟨s.objects.size⟩, .ref ⟨s₁.objects.size⟩] rfl (h.missing .stringEquals) rfl compares))
  exact ⟨s₂, EndsIn.returns rfl rfl rfl leads rfl, rfl, rfl, rfl⟩

/-- The type initialiser of the helper type finds out the family. -/
theorem staticConstructor_ends (h : m.HasHelper helper flags)
    (lines : EndsLines m.world.catalog.platform) (knows : Knows helper 0 0 s) :
    ∃ s', m.EndsIn 7 ⟨helper, staticConstructorMethod helper⟩ [] s (.ok none) s' ∧
      Knows helper (if m.world.catalog.platform.family = .unix then 1 else 0) 0 s' ∧
      (∀ owner name, owner ≠ helper → cell? s' owner name = cell? s owner name) ∧
      s'.pins = s.pins ∧ s'.native = s.native := by
  let f : Frame := .start m.module ⟨helper, staticConstructorMethod helper⟩
    (staticConstructorBody helper) []
  let flag : UInt64 := if m.world.catalog.platform.family = .unix then 1 else 0
  obtain ⟨s₁, ends, statics, pins, native⟩ := isUnix_ends h lines s
  have member : isUnixDef ∈ methods helper flags := List.mem_of_getElem? (i := 18) rfl
  have knows₁ := knows.of_statics statics
  obtain ⟨bytes, encodes, word⟩ : ∃ bytes, m.module.encode .boolean
      (.ofBool (m.world.catalog.platform.family = .unix)) = .ok bytes ∧ bytes.toWord = flag := by
    by_cases unix : m.world.catalog.platform.family = .unix
    · rw [decide_eq_true unix, show flag = 1 from if_pos unix]
      exact ⟨_, rfl, rfl⟩
    · rw [decide_eq_false unix, show flag = 0 from if_neg unix]
      exact ⟨_, rfl, rfl⟩
  have stores := storeStatic_apply knows₁.isUnix encodes
  rw [word] at stores
  have leads : m.LeadsIn 2 4 (f.at 0 [] []) s (f.at 2 [] [])
      (s₁.setStatic (isUnixField helper) flag) :=
    (Leads.callIn [] rfl rfl rfl (h.resolves member) ends).trans
      (LeadsIn.step rfl (Leads.instr_stsfld stores))
  refine ⟨_, EndsIn.ofBody rfl rfl leads rfl fun _ => rfl, ⟨knows₁.isUnix.setStatic _, ?_⟩,
    fun owner name other => ?_, pins, native⟩
  · exact knows₁.unixFlavor.setStatic_of_ne (.inr (by simp [isUnixField, unixFlavorField])) _
  · rw [MachineState.cell?_setStatic_of_ne (.inl other)]
    exact congrArg (List.find? _) statics

end Helper

/-! ## Type initialisers -/

namespace Helper

variable {m : Machine} {helper : TypeName} {flags : Int32} {types : List TypeDef} {s : MachineState}

/-- Before its type initialiser runs, the helper type knows nothing. -/
theorem knows_nothing {m : Module} (eq : m.types = types ++ [helperDef helper flags])
    (other : ∀ t ∈ types, t.name ≠ helper) (fresh : s.statics = staticCells m) :
    Knows helper 0 0 s := by
  have mem : helperDef helper flags ∈ m.types := by
    rw [eq]
    exact List.mem_append_right _ (List.mem_singleton.mpr rfl)
  have only (d : FieldDef) (hd : d ∈ fieldDefs) : ∀ t ∈ m.types, t.name = helper →
      ∀ d' ∈ t.fields, d'.name = d.name → d'.type = d.type := by
    intro t ht name d' hd' same
    rw [eq] at ht
    rcases List.mem_append.mp ht with ht | ht
    · exact absurd name (other t ht)
    · rw [List.mem_singleton.mp ht] at hd'
      simp only [helperDef, TypeDef.extend, emptyDef, List.append_nil, fieldDefs, List.mem_cons,
        List.not_mem_nil, or_false] at hd hd'
      rcases hd with rfl | rfl <;> rcases hd' with rfl | rfl
      · rfl
      · simp at same
      · simp at same
      · rfl
  have isUnix : (⟨"isUnix", .boolean, true, true, .priv, none⟩ : FieldDef) ∈ fieldDefs := by
    simp [fieldDefs]
  have unixFlavor : (⟨"unixFlavor", .i32, true, false, .priv, none⟩ : FieldDef) ∈ fieldDefs := by
    simp [fieldDefs]
  exact ⟨holds_staticCells mem (List.mem_append_left _ isUnix) rfl rfl (only _ isUnix) fresh,
    holds_staticCells mem (List.mem_append_left _ unixFlavor) rfl rfl (only _ unixFlavor) fresh⟩

section Bound

variable (bound : IsBound m types helper flags)

include bound

/-- The type initialiser of the helper type is the last. -/
theorem IsBound.initialisers_eq : ∃ inits, initialisers m.module =
    inits ++ [⟨helper, staticConstructorMethod helper⟩] ∧
      ∀ init ∈ inits, init.method.Only (Respects helper) := by
  let init? (t : TypeDef) : Option OwnedMethod := do
    let method ← t.method? ".cctor"
    if method.body.isSome then some ⟨t.name, method⟩ else none
  have last : init? (helperDef helper flags) = some ⟨helper, staticConstructorMethod helper⟩ := rfl
  refine ⟨types.filterMap init?, ?_, fun init mem => ?_⟩
  · rw [initialisers, bound.eq, List.filterMap_append, List.filterMap_cons_some last]
    rfl
  · obtain ⟨t, ht, eq⟩ := List.mem_filterMap.mp mem
    obtain ⟨method, found, eq⟩ := Option.bind_eq_some_iff.mp eq
    split at eq
    · cases eq
      exact bound.only t ht method (List.mem_of_find?_eq_some found)
    · cases eq

/-- After loading, the helper type knows the family of its platform, and not yet the system. -/
theorem IsBound.ready_of_load (lines : EndsLines m.world.catalog.platform) {fuel : Nat}
    (loaded : m.load fuel = .ok s) : Ready m helper 0 s := by
  obtain ⟨inits, eq, only⟩ := bound.initialisers_eq
  obtain ⟨s₁, run, rfl⟩ := load_eq_ok_iff.mp loaded
  rw [eq] at run
  obtain ⟨v, s₀, knows, called⟩ := holds_before_last blind_knows
    (fun init mem => (bound.confines.agree_invoke (.inl (only init mem)) fuel []).keeps)
    (knows_nothing bound.eq bound.other rfl) run
  obtain ⟨s₂, ends, knows₂, -⟩ := staticConstructor_ends bound.hasHelper lines knows
  have ends : m.Ends _ _ _ _ _ := ⟨7, ends⟩
  have after := holds_of_call blind_knows called fun s₃ invoked => by
    rw [← (ends.eq_of_invoke invoked).2]
    exact knows₂
  exact ⟨rfl, after.isUnix.of_statics rfl, after.unixFlavor.of_statics rfl⟩

/-- Without other type initialisers loading succeeds. Native code is not called, and no field of another
type is written. -/
theorem IsBound.load_isOk (lines : EndsLines m.world.catalog.platform)
    (alone : initialisers m.module = [⟨helper, staticConstructorMethod helper⟩]) :
    ∃ s, m.load 7 = .ok s ∧ s.native = .start ∧ ∀ owner name, owner ≠ helper →
      cell? s owner name = cell? ⟨.start, staticCells m.module, #[], []⟩ owner name := by
  let fresh : MachineState := ⟨.start, staticCells m.module, #[], []⟩
  obtain ⟨s₁, ⟨go, -⟩, -, beside, unpinned, native⟩ := staticConstructor_ends bound.hasHelper lines
    (knows_nothing (s := fresh) bound.eq bound.other rfl)
  have called := call_of_invoke (go 7 (Nat.le_refl 7)) unpinned
  refine ⟨s₁.newSession, load_eq_ok_iff.mpr ⟨s₁, ?_, rfl⟩, native, beside⟩
  rw [alone]
  exact initialise_cons_apply called []

end Bound

end Helper

/-- Late binding gives a bound module. -/
theorem Module.isBound_of_bindLate {original : Module} {c : Config} {id : Uuid} {out : LateBound}
    (h : original.bindLate c id = .ok out)
    (eligible : original.eligibleStubs c.exclusions ≠ []) (spares : original.Spares c.helperType)
    (framework : ∀ member : RuntimeMember, ∀ t ∈ out.module.types, t.name ≠ member.ref.owner)
    {m : Machine} (runs : m.module = out.module) :
    ∃ types, Helper.IsBound m types c.helperType c.loadFlags := by
  rcases bindLate_cases h with ⟨-, table, -⟩ | ⟨found, planned, bodies, helper, binds, -, eq⟩
  · obtain ⟨⟨l, info⟩, mem⟩ := List.exists_mem_of_ne_nil _ eligible
    obtain ⟨s, hs, -⟩ := exists_mem_stubs table mem
    cases hs
  · have made := binds.helper.symm.trans (Helper.typeDef_eq c.helperType c.loadFlags)
    have types := congrArg Module.types (binds.boundLate_eq id)
    rw [← eq] at types
    have other : ∀ t ∈ original.types.mapIdx (original.boundType c.helperType planned bodies),
        t.name ≠ c.helperType := by
      intro t ht
      obtain ⟨i, hi, rfl⟩ := List.mem_mapIdx.mp ht
      exact binds.free original.types[i] (List.getElem_mem hi)
    have last : helper ∈ out.module.types := by
      rw [types]
      exact List.mem_append_right _ (List.mem_singleton.mpr rfl)
    have apart (member : RuntimeMember) : member.ref.owner ≠ c.helperType := by
      rw [← binds.name_helper]
      exact (framework member helper last).symm
    refine ⟨_, ⟨by rw [runs, types, Except.ok.inj made]; rfl, other, fun t ht => ?_,
      by rw [runs]; exact framework⟩⟩
    refine binds.only_boundLate id spares apart t ?_ (other t ht)
    rw [← eq, types]
    exact List.mem_append_left _ ht

end LateBind

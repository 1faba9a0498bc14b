import LateBind.Proofs.LoaderImports

/-! # The methods that load libraries

Each method of the helper type that loads, resolves or lets go ends with the answer of the system's
loader, after one call of it. On a Unix it finds out first which Unix it is, unless that is known. -/

namespace LateBind

open Machine

namespace Helper

variable {m : Machine} {helper : TypeName} {flags : Int32} {s s' s₁ s₂ : MachineState}

/-! ## Dispatch -/

def flavorLabel : UnixFlavor → Label
  | .linux => ⟨0⟩
  | .darwin => ⟨1⟩
  | .bsd => ⟨2⟩

section Dispatch

variable {place : Nat} {name : String} {flavor : UnixFlavor}
  (detects : m.Ends ⟨helper, unixFlavorDef helper⟩ [] s
    (.ok (some (.i32 (Int32.ofNat (place + 1))))) s₁)
  (entry : systems[place]? = some (name, flavor))
  (h : m.HasHelper helper flags)

include detects entry h

/-- The number chooses the code of the flavour. -/
theorem dispatches {f : Frame} {load : List Instr} {target : String → MethodRef} {p : Nat}
    (code : f.body.instrs = dispatchCode helper load target)
    (chosen : f.body.target? (flavorLabel flavor) = some p) :
    m.Leads (f.at 0 [] []) s (f.at p [] []) s₁ := by
  have member : unixFlavorDef helper ∈ methods helper flags := List.mem_of_getElem? (i := 14) rfl
  have difference : (Value.i32 (Int32.ofNat (place + 1))).sub (.i32 1) =
      some (.i32 (Int32.ofNat place)) := by
    match place, entry with
    | 0, _ => rfl
    | 1, _ => rfl
    | 2, _ => rfl
    | 3, _ => rfl
  have label : ¬Int32.ofNat place < 0 ∧
      ([⟨0⟩, ⟨1⟩, ⟨2⟩, ⟨2⟩] : List Label)[(Int32.ofNat place).toNatClampNeg]? =
        some (flavorLabel flavor) := by
    match place, entry with
    | 0, rfl => exact ⟨by decide, rfl⟩
    | 1, rfl => exact ⟨by decide, rfl⟩
    | 2, rfl => exact ⟨by decide, rfl⟩
    | 3, rfl => exact ⟨by decide, rfl⟩
  refine (Leads.call [] (by rw [code]; rfl) rfl rfl (h.resolves member) detects).trans ?_
  refine (Leads.ldcI4 (by rw [code]; rfl)).trans ?_
  refine (Leads.sub (by rw [code]; rfl) difference).trans ?_
  exact Leads.switch (by rw [code]; rfl) label.1 label.2 chosen

section Passing

variable {method imported : MethodDef} {target : String → MethodRef} {v w result : Value}
  (notImport : method.importInfo = none) (nonvoid : method.returnType.isVoid = false)
  (static : (target flavor.mark).hasThis = false)
  (resolves : m.module.resolveMethod? (target flavor.mark).owner (target flavor.mark).name
    (target flavor.mark).params = some ⟨helper, imported⟩)

include notImport nonvoid static resolves

/-- Two arguments go on to the import of the flavour, and its result comes back. -/
theorem dispatchBody_ends (isBody : method.body = some (dispatchBody helper target))
    (count : (target flavor.mark).params.length = 2)
    (ends : m.Ends ⟨helper, imported⟩ [v, w] s₁ (.ok (some result)) s₂) :
    m.Ends ⟨helper, method⟩ [v, w] s (.ok (some result)) s₂ := by
  let f : Frame := .start m.module ⟨helper, method⟩ (dispatchBody helper target) [v, w]
  have passes {pc : Nat} (first : f.body.instrs[pc]? = some (.ldarg 0))
      (second : f.body.instrs[pc + 1]? = some (.ldarg 1))
      (call : f.body.instrs[pc + 2]? = some (.call (target flavor.mark))) :
      m.Leads (f.at pc [] []) s₁ (f.at (pc + 3) [] [result]) s₂ :=
    (Leads.ldarg first rfl).trans ((Leads.ldarg second rfl).trans
      (Leads.call [v, w] call static count resolves ends))
  have enters {p : Nat} (chosen : f.body.target? (flavorLabel flavor) = some p) :=
    dispatches detects entry h rfl chosen
  cases flavor with
  | linux => exact Ends.returns notImport isBody nonvoid ((enters rfl).trans (passes rfl rfl rfl)) rfl
  | darwin => exact Ends.returns notImport isBody nonvoid ((enters rfl).trans (passes rfl rfl rfl)) rfl
  | bsd => exact Ends.returns notImport isBody nonvoid ((enters rfl).trans (passes rfl rfl rfl)) rfl

end Passing

/-- The handle goes on to the import of the flavour, and its status comes back. -/
theorem dlcloseBody_ends {method imported : MethodDef} {v result : Value}
    (notImport : method.importInfo = none) (nonvoid : method.returnType.isVoid = false)
    (isBody : method.body = some (dlcloseBody helper))
    (resolves : m.module.resolveMethod? helper (flavor.mark ++ "dlclose") [.intPtr] =
      some ⟨helper, imported⟩)
    (ends : m.Ends ⟨helper, imported⟩ [v] s₁ (.ok (some result)) s₂) :
    m.Ends ⟨helper, method⟩ [v] s (.ok (some result)) s₂ := by
  let f : Frame := .start m.module ⟨helper, method⟩ (dlcloseBody helper) [v]
  have passes {pc : Nat} (load : f.body.instrs[pc]? = some (.ldarg 0))
      (call : f.body.instrs[pc + 1]? = some (.call (dlclose helper flavor.mark))) :
      m.Leads (f.at pc [] []) s₁ (f.at (pc + 2) [] [result]) s₂ :=
    (Leads.ldarg load rfl).trans (Leads.call [v] call rfl rfl resolves ends)
  have enters {p : Nat} (chosen : f.body.target? (flavorLabel flavor) = some p) :=
    dispatches detects entry h rfl chosen
  cases flavor with
  | linux => exact Ends.returns notImport isBody nonvoid ((enters rfl).trans (passes rfl rfl)) rfl
  | darwin => exact Ends.returns notImport isBody nonvoid ((enters rfl).trans (passes rfl rfl)) rfl
  | bsd => exact Ends.returns notImport isBody nonvoid ((enters rfl).trans (passes rfl rfl)) rfl

end Dispatch

/-- Without a number for the system nothing is dispatched. -/
theorem dispatch_throws (h : m.HasHelper helper flags) {method : MethodDef} {body : Body}
    {load : List Instr} {target : String → MethodRef} {args : List Value} {r : ObjRef}
    (notImport : method.importInfo = none) (isBody : method.body = some body)
    (code : body.instrs = dispatchCode helper load target)
    (regions : body.regions = [])
    (fails : m.Ends ⟨helper, unixFlavorDef helper⟩ [] s (.error (.exception r)) s₁) :
    m.Ends ⟨helper, method⟩ args s (.error (.exception r)) s₁ := by
  let f : Frame := .start m.module ⟨helper, method⟩ body args
  have member : unixFlavorDef helper ∈ methods helper flags := List.mem_of_getElem? (i := 14) rfl
  have call : f.body.instrs[0]? = some (.call (unixFlavor helper)) := by
    change body.instrs[0]? = _
    rw [code]
    rfl
  have outside : f.body.regionsAround 0 = [] := by
    change body.regions.filter _ = []
    rw [regions]
    rfl
  have throws : m.Throws (f.at 0 f.locals []) s r s₁ :=
    Throws.call [] call outside rfl rfl (h.resolves member) fails
  exact Ends.ofThrows notImport isBody throws

/-! ## Checked results -/

/-- What comes back is the value, or an exception with the message. -/
def Answers (s : MachineState) : Except Trap (Option Value) → Except String Value → Prop
  | .ok v, .ok w => v = some w
  | .error (.exception r), .error message =>
    s.objects[r.index]? = some (.exception "System.Exception" message)
  | _, _ => False

/-- Zero stands for a failure. -/
def checked (p : UInt64) (message : String) : Except String Value :=
  if p = 0 then .error message else .ok (.ptr p)

/-- The code that looks at a result in the first local, and throws about an argument when it is
zero. -/
structure CheckCode (body : Body) (pc : Nat) (message : String) (index : UInt16) (okPc : Nat) :
    Prop where
  look : body.instrs[pc]? = some (.ldloc 0)
  branch : body.instrs[pc + 1]? = some (.brtrue ⟨2⟩)
  text : body.instrs[pc + 2]? = some (.ldstr message)
  subject : body.instrs[pc + 3]? = some (.ldarg index)
  concat : body.instrs[pc + 4]? = some (.call Framework.stringConcat)
  make : body.instrs[pc + 5]? = some (.newobj Framework.exceptionCtor)
  throw : body.instrs[pc + 6]? = some .throw
  regions : body.regions = []
  target : body.target? ⟨2⟩ = some okPc
  load : body.instrs[okPc]? = some (.ldloc 0)
  ret : body.instrs[okPc + 1]? = some .ret

theorem check_ends (h : m.HasHelper helper flags) {method : MethodDef} {body : Body}
    {args : List Value} {pc okPc : Nat} {message subject : String} {index : UInt16} {p : UInt64}
    {r : ObjRef} (code : CheckCode body pc message index okPc)
    (notImport : method.importInfo = none) (isBody : method.body = some body)
    (nonvoid : method.returnType.isVoid = false) (arg : args[index.toNat]? = some (.ref r))
    (text : s₁.objects[r.index]? = some (.str (Units.ofString subject)))
    (arrives : m.Leads (.start m.module ⟨helper, method⟩ body args) s
      ((Frame.start m.module ⟨helper, method⟩ body args).at pc [.ptr p] []) s₁) :
    ∃ result s', m.Ends ⟨helper, method⟩ args s result s' ∧
      Answers s' result (checked p (message ++ subject)) ∧ s₁.Steady [] [] s' := by
  let f : Frame := .start m.module ⟨helper, method⟩ body args
  have looks : m.Leads (f.at pc [.ptr p] []) s₁ (f.at (pc + 1) [.ptr p] [.ptr p]) s₁ :=
    Leads.ldloc code.look rfl
  by_cases zero : p = 0
  · have next : m.Leads (f.at (pc + 1) [.ptr p] [.ptr p]) s₁ (f.at (pc + 2) [.ptr p] []) s₁ :=
      Leads.brtrue_next code.branch (by simp [Value.isTrue, zero])
    have outside : f.body.regionsAround (pc + 6) = [] := by
      change body.regions.filter _ = []
      rw [code.regions]
      rfl
    obtain ⟨r', s', throws, thrown, steady⟩ :
        ∃ r' s', m.Throws (f.at (pc + 2) [.ptr p] []) s₁ r' s' ∧ _ ∧ _ :=
      Throws.about arg text (h.missing .stringConcat) code.text code.subject code.concat code.make
        code.throw outside
    refine ⟨_, s', Ends.ofThrows notImport isBody
      (arrives.throws (looks.throws (next.throws throws))), ?_, steady⟩
    rw [checked, if_pos zero]
    exact thrown
  · have jump : m.Leads (f.at (pc + 1) [.ptr p] [.ptr p]) s₁ (f.at okPc [.ptr p] []) s₁ :=
      Leads.brtrue code.branch code.target (by simp [Value.isTrue, zero])
    have load : m.Leads (f.at okPc [.ptr p] []) s₁ (f.at (okPc + 1) [.ptr p] [.ptr p]) s₁ :=
      Leads.ldloc code.load rfl
    refine ⟨_, s₁, Ends.returns notImport isBody nonvoid
      (arrives.trans (looks.trans (jump.trans load))) code.ret, ?_, .refl _⟩
    rw [checked, if_neg zero]
    rfl

theorem loadLibrary_check (helper : TypeName) (flags : Int32) :
    CheckCode (loadLibraryBody helper flags) 10 loadFailed 0 17 :=
  ⟨rfl, rfl, rfl, rfl, rfl, rfl, rfl, rfl, rfl, rfl, rfl⟩

theorem getProcAddress_check (helper : TypeName) :
    CheckCode (getProcAddressBody helper) 11 resolveFailed 1 18 :=
  ⟨rfl, rfl, rfl, rfl, rfl, rfl, rfl, rfl, rfl, rfl, rfl⟩

/-! ## The family of the system -/

theorem Ready.loadFamily {number : Nat} (ready : Ready m helper number s) :
    m.loadStatic (isUnixField helper) s =
      (.ok (.ofBool (m.world.catalog.platform.family = .unix)), s) := by
  refine (loadStatic_boolean ready.isUnix rfl).trans ?_
  cases m.world.catalog.platform.family <;> rfl

section Family

variable {number pc : Nat} {f : Frame} {l : Label} {locals : List Value}
  (ready : Ready m helper number s)
  (test : f.body.instrs[0]? = some (.ldsfld (isUnixField helper)))
  (branch : f.body.instrs[1]? = some (.brfalse l))

include ready test branch

theorem Ready.leads_of_unix (family : m.world.catalog.platform.family = .unix) :
    m.Leads (f.at 0 locals []) s (f.at 2 locals []) s := by
  refine (Leads.ldsfld test ready.loadFamily).trans (Leads.brfalse_next branch ?_)
  rw [family]
  rfl

theorem Ready.leads_of_windows (family : m.world.catalog.platform.family = .windows)
    (target : f.body.target? l = some pc) :
    m.Leads (f.at 0 locals []) s (f.at pc locals []) s := by
  refine (Leads.ldsfld test ready.loadFamily).trans (Leads.brfalse branch target ?_)
  rw [family]
  rfl

end Family

/-- A method ends with an answer, after calls of native code and requests for libraries. Then the
helper type has the given number for the system. -/
def Serves (m : Machine) (helper : TypeName) (method : MethodDef) (args : List Value)
    (s : MachineState) (answer : Except String Value) (calls : List UInt64)
    (loads : List LoadRequest) (number : Nat) : Prop :=
  ∃ result s', m.Ends ⟨helper, method⟩ args s result s' ∧ Answers s' result answer ∧
    s.Advance calls loads s' ∧ Ready m helper number s'

def dlopenDef (helper : TypeName) : MethodDef :=
  .withBody .assembly "dlopen" [("fileName", .string), ("flags", .i32)] .intPtr
    (dispatchBody helper (dlopen helper))

def dlcloseDef (helper : TypeName) : MethodDef :=
  .withBody .assembly "dlclose" [("handle", .intPtr)] .i32 (dlcloseBody helper)

def dlsymDef (helper : TypeName) : MethodDef :=
  .withBody .assembly "dlsym" [("handle", .intPtr), ("symbol", .string)] .intPtr
    (dispatchBody helper (dlsym helper))

def loadLibraryDef (helper : TypeName) (flags : Int32) : MethodDef :=
  .withBody .assembly "LoadLibrary" [("name", .string)] .intPtr (loadLibraryBody helper flags)

def freeLibraryDef (helper : TypeName) : MethodDef :=
  .withBody .assembly "FreeLibrary" [("handle", .intPtr)] .i32 (freeLibraryBody helper)

def getProcAddressDef (helper : TypeName) : MethodDef :=
  .withBody .assembly "GetProcAddress" [("handle", .intPtr), ("symbol", .string)] .intPtr
    (getProcAddressBody helper)

namespace Unix

/-- The addresses of the system's functions on a Unix. -/
structure Addresses where
  uname : UInt64
  dlopen : UInt64
  dlsym : UInt64
  dlclose : UInt64

/-- The platform is a Unix of the table, and the world has the functions of its loader. -/
structure Known (m : Machine) (place : Nat) (flavor : UnixFlavor) (at_ : Addresses) : Prop where
  family : m.world.catalog.platform.family = .unix
  system : systems[place]? = some (m.world.catalog.platform.systemName, flavor)
  uname : m.world.Exports "libc" "uname" SystemFunction.uname at_.uname
  dlopen : m.world.Exports flavor.library "dlopen" SystemFunction.dlopen at_.dlopen
  dlsym : m.world.Exports flavor.library "dlsym" SystemFunction.findSymbol at_.dlsym
  dlclose : m.world.Exports flavor.library "dlclose" SystemFunction.dlclose at_.dlclose

section Known

variable {place number : Nat} {flavor : UnixFlavor} {at_ : Addresses} {r : ObjRef} {text : String}
  (known : Known m place flavor at_) (h : m.HasHelper helper flags)

/-- The number is not looked for yet, or it is known. -/
def Stage (place number : Nat) (s : MachineState) : Prop :=
  number = 0 ∧ s.native.heap.nextAddress ≠ 0 ∨ number = place + 1

/-- The system is asked for its name only while the number is zero. -/
def asking (at_ : Addresses) (number : Nat) : List UInt64 := if number = 0 then [at_.uname] else []

variable (stage : Stage place number s) (ready : Ready m helper number s)

include known h stage ready

theorem Known.detects : ∃ s', m.Ends ⟨helper, unixFlavorDef helper⟩ [] s
      (.ok (some (.i32 (Int32.ofNat (place + 1))))) s' ∧
    s.Advance (asking at_ number) [] s' ∧ Ready m helper (place + 1) s' := by
  rcases stage with ⟨rfl, memory⟩ | rfl
  · have free : '\x00' ∉ m.world.catalog.platform.systemName.toList := by
      have names : ∀ entry ∈ systems, '\x00' ∉ entry.1.toList := by decide
      exact names _ (List.mem_of_getElem? known.system)
    exact unixFlavor_detects h free known.uname ready known.system memory
  · exact ⟨s, unixFlavor_remembers known.system ready, .refl s, ready⟩

theorem Known.opens (found : s.objects[r.index]? = some (.str (Units.ofString text)))
    (plain : Latin1.Plain text) (flags : Int32) :
    ∃ s', m.Ends ⟨helper, dlopenDef helper⟩ [.ref r, .i32 flags] s
        (.ok (some (.ptr ((m.world.catalog.handle? text).getD 0)))) s' ∧
      s.Advance (asking at_ number ++ [at_.dlopen]) [⟨text, flags⟩] s' ∧
      Ready m helper (place + 1) s' := by
  obtain ⟨s₁, detects, advance, ready₁⟩ := known.detects h stage ready
  obtain ⟨s₂, ends, steady⟩ : ∃ s₂, m.Ends ⟨helper, openImport flavor⟩ [.ref r, .i32 flags] s₁
      (.ok (some (.ptr ((m.world.catalog.handle? text).getD 0)))) s₂ ∧ _ :=
    open_ends ready₁.pins known.dlopen (advance.objects _ _ found) plain flags
  have resolves := h.resolves (mem_unixImports helper _ flavor).1
  exact ⟨s₂, dispatchBody_ends detects known.system h rfl rfl rfl resolves rfl rfl ends,
    advance.trans steady.toAdvance, ready₁.steady steady⟩

theorem Known.finds (found : s.objects[r.index]? = some (.str (Units.ofString text)))
    (plain : Latin1.Plain text) (handle : UInt64) :
    ∃ s', m.Ends ⟨helper, dlsymDef helper⟩ [.ptr handle, .ref r] s
        (.ok (some (.ptr (m.world.catalog.symbol handle text)))) s' ∧
      s.Advance (asking at_ number ++ [at_.dlsym]) [] s' ∧ Ready m helper (place + 1) s' := by
  obtain ⟨s₁, detects, advance, ready₁⟩ := known.detects h stage ready
  obtain ⟨s₂, ends, steady⟩ : ∃ s₂, m.Ends ⟨helper, symbolImport flavor⟩ [.ptr handle, .ref r] s₁
      (.ok (some (.ptr (m.world.catalog.symbol handle text)))) s₂ ∧ _ :=
    symbol_ends ready₁.pins known.dlsym (advance.objects _ _ found) plain handle
  have resolves := h.resolves (mem_unixImports helper _ flavor).2.2
  exact ⟨s₂, dispatchBody_ends detects known.system h rfl rfl rfl resolves rfl rfl ends,
    advance.trans steady.toAdvance, ready₁.steady steady⟩

theorem Known.closes (handle : UInt64) :
    ∃ s', m.Ends ⟨helper, dlcloseDef helper⟩ [.ptr handle] s
        (.ok (some (.i32 (if m.world.catalog.isHandle handle then 0 else -1)))) s' ∧
      s.Advance (asking at_ number ++ [at_.dlclose]) [] s' ∧ Ready m helper (place + 1) s' := by
  obtain ⟨s₁, detects, advance, ready₁⟩ := known.detects h stage ready
  obtain ⟨s₂, ends, steady⟩ : ∃ s₂, m.Ends ⟨helper, closeImport flavor⟩ [.ptr handle] s₁
      (.ok (some (.i32 (if m.world.catalog.isHandle handle then 0 else -1)))) s₂ ∧ _ :=
    close_ends ready₁.pins known.dlclose fun cx same p => by
      rw [← same]
      exact SystemFunction.dlclose_apply
  have resolves := h.resolves (mem_unixImports helper _ flavor).2.1
  exact ⟨s₂, dlcloseBody_ends detects known.system h rfl rfl rfl resolves ends,
    advance.trans steady.toAdvance, ready₁.steady steady⟩

/-! ### The three methods -/

theorem Known.loadLibrary (found : s.objects[r.index]? = some (.str (Units.ofString text)))
    (plain : Latin1.Plain text) :
    Serves m helper (loadLibraryDef helper flags) [.ref r] s
      (checked ((m.world.catalog.handle? text).getD 0) (loadFailed ++ text))
      (asking at_ number ++ [at_.dlopen]) [⟨text, flags⟩] (place + 1) := by
  let f : Frame := .start m.module ⟨helper, loadLibraryDef helper flags⟩
    (loadLibraryBody helper flags) [.ref r]
  obtain ⟨s₁, opens, advance, ready₁⟩ := known.opens h stage ready found plain flags
  have member : dlopenDef helper ∈ methods helper flags := List.mem_of_getElem? (i := 15) rfl
  have family : m.Leads (f.at 0 [.ptr 0] []) s (f.at 2 [.ptr 0] []) s :=
    ready.leads_of_unix rfl rfl known.family
  have loads : m.Leads (f.at 2 [.ptr 0] []) s
      (f.at 10 [.ptr ((m.world.catalog.handle? text).getD 0)] []) s₁ := by
    refine (Leads.ldarg rfl rfl).trans ((Leads.ldcI4 rfl).trans ?_)
    refine (Leads.call [.ref r, .i32 flags] rfl rfl rfl (h.resolves member) opens).trans ?_
    exact (Leads.stloc rfl (by simp)).trans (Leads.br (l := ⟨1⟩) rfl rfl)
  obtain ⟨result, s₂, ends, answers, steady⟩ := check_ends h (loadLibrary_check helper flags) rfl rfl
    rfl rfl (advance.objects _ _ found) (family.trans loads)
  exact ⟨result, s₂, ends, answers, by simpa using advance.trans steady.toAdvance,
    ready₁.steady steady⟩

theorem Known.getProcAddress (found : s.objects[r.index]? = some (.str (Units.ofString text)))
    (plain : Latin1.Plain text) (handle : UInt64) :
    Serves m helper (getProcAddressDef helper) [.ptr handle, .ref r] s
      (checked (m.world.catalog.symbol handle text) (resolveFailed ++ text))
      (asking at_ number ++ [at_.dlsym]) [] (place + 1) := by
  let f : Frame := .start m.module ⟨helper, getProcAddressDef helper⟩ (getProcAddressBody helper)
    [.ptr handle, .ref r]
  obtain ⟨s₁, finds, advance, ready₁⟩ := known.finds h stage ready found plain handle
  have member : dlsymDef helper ∈ methods helper flags := List.mem_of_getElem? (i := 17) rfl
  have family : m.Leads (f.at 0 [.ptr 0] []) s (f.at 2 [.ptr 0] []) s :=
    ready.leads_of_unix rfl rfl known.family
  have resolves : m.Leads (f.at 2 [.ptr 0] []) s
      (f.at 11 [.ptr (m.world.catalog.symbol handle text)] []) s₁ := by
    refine (Leads.ldarg rfl rfl).trans ((Leads.ldarg rfl rfl).trans ?_)
    refine (Leads.call [.ptr handle, .ref r] rfl rfl rfl (h.resolves member) finds).trans ?_
    exact (Leads.stloc rfl (by simp)).trans (Leads.br (l := ⟨1⟩) rfl rfl)
  obtain ⟨result, s₂, ends, answers, steady⟩ := check_ends h (getProcAddress_check helper) rfl rfl rfl
    rfl (advance.objects _ _ found) (family.trans resolves)
  exact ⟨result, s₂, ends, answers, by simpa using advance.trans steady.toAdvance,
    ready₁.steady steady⟩

theorem Known.freeLibrary (handle : UInt64) :
    Serves m helper (freeLibraryDef helper) [.ptr handle] s
      (.ok (.i32 (if m.world.catalog.isHandle handle then 0 else -1)))
      (asking at_ number ++ [at_.dlclose]) [] (place + 1) := by
  let f : Frame := .start m.module ⟨helper, freeLibraryDef helper⟩ (freeLibraryBody helper)
    [.ptr handle]
  obtain ⟨s₁, closes, advance, ready₁⟩ := known.closes h stage ready handle
  have member : dlcloseDef helper ∈ methods helper flags := List.mem_of_getElem? (i := 16) rfl
  have family : m.Leads (f.at 0 [] []) s (f.at 2 [] []) s :=
    ready.leads_of_unix rfl rfl known.family
  have frees : m.Leads (f.at 2 [] []) s
      (f.at 4 [] [.i32 (if m.world.catalog.isHandle handle then 0 else -1)]) s₁ :=
    (Leads.ldarg rfl rfl).trans
      (Leads.call [.ptr handle] rfl rfl rfl (h.resolves member) closes)
  exact ⟨_, s₁, Ends.returns rfl rfl rfl (family.trans frees) rfl, rfl, advance, ready₁⟩

end Known

/-! ### Systems that are not known -/

/-- The platform is a Unix that the table does not have. -/
structure Unknown (m : Machine) (address : UInt64) : Prop where
  family : m.world.catalog.platform.family = .unix
  free : '\x00' ∉ m.world.catalog.platform.systemName.toList
  system : m.world.catalog.platform.systemName ∉ systems.map Prod.fst
  uname : m.world.Exports "libc" "uname" SystemFunction.uname address

section Unknown

variable {address : UInt64} (unknown : Unknown m address) (h : m.HasHelper helper flags)
  (ready : Ready m helper 0 s)

include unknown h ready

/-- A method that calls a dispatching one throws what the search for the number throws. -/
theorem Unknown.serves {method dispatching : MethodDef} {body inner : Body} {pc : Nat}
    {load : List Instr} {target : String → MethodRef} {reference : MethodRef}
    {args : List Value} (passed : List Value) (notImport : method.importInfo = none)
    (isBody : method.body = some body) (regions : body.regions = [])
    (arrives : m.Leads (.start m.module ⟨helper, method⟩ body args) s
      ((Frame.start m.module ⟨helper, method⟩ body args).at pc
        (Frame.start m.module ⟨helper, method⟩ body args).locals (passed.reverse ++ [])) s)
    (call : body.instrs[pc]? = some (.call reference)) (static : reference.hasThis = false)
    (count : reference.params.length = passed.length)
    (resolves : m.module.resolveMethod? reference.owner reference.name reference.params =
      some ⟨helper, dispatching⟩)
    (notImport' : dispatching.importInfo = none) (isBody' : dispatching.body = some inner)
    (code : inner.instrs = dispatchCode helper load target) (regions' : inner.regions = []) :
    Serves m helper method args s (.error platformNotSupported) [address] [] 0 := by
  obtain ⟨r, s₁, fails, thrown, steady⟩ :=
    unixFlavor_fails h unknown.free unknown.uname ready unknown.system
  have dispatch : m.Ends ⟨helper, dispatching⟩ passed s (.error (.exception r)) s₁ :=
    dispatch_throws h notImport' isBody' code regions' fails
  let f : Frame := .start m.module ⟨helper, method⟩ body args
  have outside : f.body.regionsAround pc = [] := by
    change body.regions.filter _ = []
    rw [regions]
    rfl
  have throws : m.Throws (f.at pc f.locals (passed.reverse ++ [])) s r s₁ :=
    Throws.call passed call outside static count resolves dispatch
  exact ⟨_, s₁, Ends.ofThrows notImport isBody (arrives.throws throws), thrown, steady.toAdvance,
    ready.steady steady⟩

theorem Unknown.loadLibrary (v : Value) :
    Serves m helper (loadLibraryDef helper flags) [v] s (.error platformNotSupported) [address] []
      0 := by
  let f : Frame := .start m.module ⟨helper, loadLibraryDef helper flags⟩
    (loadLibraryBody helper flags) [v]
  have arrives : m.Leads (f.at 0 [.ptr 0] []) s (f.at 4 [.ptr 0] [.i32 flags, v]) s :=
    (ready.leads_of_unix rfl rfl unknown.family).trans ((Leads.ldarg rfl rfl).trans (Leads.ldcI4 rfl))
  have member : dlopenDef helper ∈ methods helper flags := List.mem_of_getElem? (i := 15) rfl
  exact unknown.serves h ready [v, .i32 flags] rfl rfl rfl arrives rfl rfl rfl (h.resolves member) rfl rfl rfl rfl

theorem Unknown.getProcAddress (v w : Value) :
    Serves m helper (getProcAddressDef helper) [v, w] s (.error platformNotSupported) [address] []
      0 := by
  let f : Frame := .start m.module ⟨helper, getProcAddressDef helper⟩ (getProcAddressBody helper)
    [v, w]
  have arrives : m.Leads (f.at 0 [.ptr 0] []) s (f.at 4 [.ptr 0] [w, v]) s :=
    (ready.leads_of_unix rfl rfl unknown.family).trans
      ((Leads.ldarg rfl rfl).trans (Leads.ldarg rfl rfl))
  have member : dlsymDef helper ∈ methods helper flags := List.mem_of_getElem? (i := 17) rfl
  exact unknown.serves h ready [v, w] rfl rfl rfl arrives rfl rfl rfl (h.resolves member) rfl rfl rfl
    rfl

theorem Unknown.freeLibrary (v : Value) :
    Serves m helper (freeLibraryDef helper) [v] s (.error platformNotSupported) [address] [] 0 := by
  let f : Frame := .start m.module ⟨helper, freeLibraryDef helper⟩ (freeLibraryBody helper) [v]
  have arrives : m.Leads (f.at 0 [] []) s (f.at 3 [] [v]) s :=
    (ready.leads_of_unix rfl rfl unknown.family).trans (Leads.ldarg rfl rfl)
  have member : dlcloseDef helper ∈ methods helper flags := List.mem_of_getElem? (i := 16) rfl
  exact unknown.serves h ready [v] rfl rfl rfl arrives rfl rfl rfl (h.resolves member) rfl rfl rfl rfl

end Unknown

end Unix

/-! ## On Windows -/

/-- The platform is Windows, and the world has the functions of its loader. -/
structure Windows (m : Machine) (loadLibrary getProcAddress freeLibrary : UInt64) : Prop where
  family : m.world.catalog.platform.family = .windows
  loadLibrary : m.world.Exports "kernel32" "LoadLibraryW" SystemFunction.loadLibraryW loadLibrary
  getProcAddress :
    m.world.Exports "kernel32" "GetProcAddress" SystemFunction.findSymbol getProcAddress
  freeLibrary : m.world.Exports "kernel32" "FreeLibrary" SystemFunction.freeLibrary freeLibrary

namespace Windows

variable {loadAddress symbolAddress freeAddress : UInt64} {number : Nat} {r : ObjRef}
  {text : String} (windows : Windows m loadAddress symbolAddress freeAddress)
  (h : m.HasHelper helper flags) (ready : Ready m helper number s)

include windows h ready

theorem serves_loadLibrary (found : s.objects[r.index]? = some (.str (Units.ofString text)))
    (plain : Latin1.Plain text) :
    Serves m helper (loadLibraryDef helper flags) [.ref r] s
      (checked ((m.world.catalog.handle? text).getD 0) (loadFailed ++ text)) [loadAddress]
      [⟨text, 0⟩] number := by
  let f : Frame := .start m.module ⟨helper, loadLibraryDef helper flags⟩
    (loadLibraryBody helper flags) [.ref r]
  obtain ⟨s₁, opens, steady₁⟩ : ∃ s₁, m.Ends ⟨helper, windowsOpenImport⟩ [.ref r] s
      (.ok (some (.ptr ((m.world.catalog.handle? text).getD 0)))) s₁ ∧ _ :=
    windowsOpen_ends ready.pins windows.loadLibrary found plain
  have member : windowsOpenImport ∈ methods helper flags := List.mem_of_getElem? (i := 9) rfl
  have loads : m.Leads (f.at 7 [.ptr 0] []) s
      (f.at 10 [.ptr ((m.world.catalog.handle? text).getD 0)] []) s₁ := by
    refine (Leads.ldarg rfl rfl).trans ?_
    refine (Leads.call [.ref r] rfl rfl rfl (h.resolves member) opens).trans ?_
    exact (Leads.stloc rfl (by simp)).trans (.refl _ _ _)
  have family : m.Leads (f.at 0 [.ptr 0] []) s (f.at 7 [.ptr 0] []) s :=
    ready.leads_of_windows rfl rfl windows.family rfl
  obtain ⟨result, s₂, ends, answers, steady₂⟩ := check_ends h (loadLibrary_check helper flags) rfl rfl
    rfl rfl (steady₁.objects _ _ found) (family.trans loads)
  have steady := steady₁.trans steady₂
  exact ⟨result, s₂, ends, answers, steady.toAdvance, ready.steady steady⟩

theorem serves_getProcAddress (found : s.objects[r.index]? = some (.str (Units.ofString text)))
    (plain : Latin1.Plain text) (handle : UInt64) :
    Serves m helper (getProcAddressDef helper) [.ptr handle, .ref r] s
      (checked (m.world.catalog.symbol handle text) (resolveFailed ++ text)) [symbolAddress] []
      number := by
  let f : Frame := .start m.module ⟨helper, getProcAddressDef helper⟩ (getProcAddressBody helper)
    [.ptr handle, .ref r]
  obtain ⟨s₁, finds, steady₁⟩ : ∃ s₁, m.Ends ⟨helper, windowsSymbolImport⟩ [.ptr handle, .ref r] s
      (.ok (some (.ptr (m.world.catalog.symbol handle text)))) s₁ ∧ _ :=
    symbol_ends ready.pins windows.getProcAddress found plain handle
  have member : windowsSymbolImport ∈ methods helper flags := List.mem_of_getElem? (i := 11) rfl
  have resolves : m.Leads (f.at 7 [.ptr 0] []) s
      (f.at 11 [.ptr (m.world.catalog.symbol handle text)] []) s₁ := by
    refine (Leads.ldarg rfl rfl).trans ((Leads.ldarg rfl rfl).trans ?_)
    refine (Leads.call [.ptr handle, .ref r] rfl rfl rfl (h.resolves member) finds).trans ?_
    exact (Leads.stloc rfl (by simp)).trans (.refl _ _ _)
  have family : m.Leads (f.at 0 [.ptr 0] []) s (f.at 7 [.ptr 0] []) s :=
    ready.leads_of_windows rfl rfl windows.family rfl
  obtain ⟨result, s₂, ends, answers, steady₂⟩ := check_ends h (getProcAddress_check helper) rfl rfl rfl
    rfl (steady₁.objects _ _ found) (family.trans resolves)
  have steady := steady₁.trans steady₂
  exact ⟨result, s₂, ends, answers, steady.toAdvance, ready.steady steady⟩

theorem serves_freeLibrary (handle : UInt64) :
    Serves m helper (freeLibraryDef helper) [.ptr handle] s
      (.ok (.ofBool (m.world.catalog.isHandle handle))) [freeAddress] [] number := by
  let f : Frame := .start m.module ⟨helper, freeLibraryDef helper⟩ (freeLibraryBody helper)
    [.ptr handle]
  obtain ⟨s₁, closes, steady⟩ : ∃ s₁, m.Ends ⟨helper, windowsCloseImport⟩ [.ptr handle] s
      (.ok (some (.ofBool (m.world.catalog.isHandle handle)))) s₁ ∧ _ :=
    close_ends ready.pins windows.freeLibrary fun cx same p => by
      rw [← same]
      exact SystemFunction.freeLibrary_apply
  have member : windowsCloseImport ∈ methods helper flags := List.mem_of_getElem? (i := 10) rfl
  have family : m.Leads (f.at 0 [] []) s (f.at 5 [] []) s :=
    ready.leads_of_windows rfl rfl windows.family rfl
  have frees : m.Leads (f.at 5 [] []) s
      (f.at 7 [] [.ofBool (m.world.catalog.isHandle handle)]) s₁ :=
    (Leads.ldarg rfl rfl).trans
      (Leads.call [.ptr handle] rfl rfl rfl (h.resolves member) closes)
  exact ⟨_, s₁, Ends.returns rfl rfl rfl (family.trans frees) rfl, rfl, steady.toAdvance,
    ready.steady steady⟩

end Windows

end Helper

end LateBind

import LateBind.Proofs.StubChecks

/-! # Which slots have a plan

A slot is planned by a cascade of tests, of which an early one may hide what a later one looks for.
What the cascade comes to is one rule for each plan; a slot that no rule allows is refused. -/

namespace LateBind

/-! ## The rules -/

/-- The annotation asks for a marshaler of its own. -/
def MarshalInfo.isCustom (info : MarshalInfo) : Bool :=
  info.native == .customMarshaler || info.customMarshaler.isSome

/-- How a string crosses: an annotation, which may be for one of three forms only, goes before the
string mode, and without an annotation every mode but one means ANSI. -/
inductive StringEncoding.Chosen : Option NativeType → CharSet → StringEncoding → Prop
  | lpStr (charSet : CharSet) : Chosen (some .lpStr) charSet .ansi
  | lptStr (charSet : CharSet) : Chosen (some .lptStr) charSet .ansi
  | lpwStr (charSet : CharSet) : Chosen (some .lpwStr) charSet .unicode
  | unicode : Chosen none .unicode .unicode
  | ansi : Chosen none .ansi .ansi
  | auto : Chosen none .auto .ansi
  | notSpecified : Chosen none .notSpecified .ansi

/-- The annotation asks for what a number is anyway. -/
inductive Primitive.Natural : Primitive → NativeType → Prop
  | i8 : Natural .i8 .i1
  | u8 : Natural .u8 .u1
  | i16 : Natural .i16 .i2
  | u16 : Natural .u16 .u2
  | i32 : Natural .i32 .i4
  | u32 : Natural .u32 .u4
  | i64 : Natural .i64 .i8
  | u64 : Natural .u64 .u8
  | f32 : Natural .f32 .r4
  | f64 : Natural .f64 .r8
  | intPtr : Natural .intPtr .sysInt
  | uintPtr : Natural .uintPtr .sysUInt

/-- The annotations that ask for a form of a string. -/
def NativeType.stringForms : List NativeType := [.lpStr, .lptStr, .lpwStr]

theorem StringEncoding.chosen_iff {asked : Option NativeType} {charSet : CharSet}
    {encoding : StringEncoding} : encoding.Chosen asked charSet ↔
      (∀ native ∈ asked, native ∈ NativeType.stringForms) ∧ encoding = .choose asked charSet := by
  constructor
  · intro chosen
    cases chosen <;> exact ⟨by simp [NativeType.stringForms], rfl⟩
  · rintro ⟨form, rfl⟩
    cases asked with
    | none => cases charSet <;> constructor
    | some native =>
      have mem : native ∈ [NativeType.lpStr, .lptStr, .lpwStr] := form native rfl
      simp only [List.mem_cons, List.not_mem_nil, or_false] at mem
      rcases mem with rfl | rfl | rfl <;> constructor

theorem Primitive.natural_iff {p : Primitive} {native : NativeType} :
    p.Natural native ↔ p.naturalNative? = some native := by
  constructor
  · intro natural
    cases natural <;> rfl
  · intro natural
    cases p <;> cases natural <;> constructor

theorem TypeDef.isValueType_iff {t : TypeDef} :
    t.isValueType = true ↔ t.kind = .structType ∨ ∃ underlying, t.kind = .enum underlying := by
  unfold isValueType
  cases t.kind <;> simp

namespace Module

section Rules

variable (m : Module)

/-- Values of the type look the same on both sides, and it is no array. -/
def FitsAlone (t : TypeRef) : Prop := m.Fits Primitive.isNumericOrPointer t ∧ t.array? = none

/-- The annotation asks for what values of the type are anyway. -/
def IsNatural (native : NativeType) : TypeRef → Prop
  | .primitive p => p.Natural native
  | .named name => native = .struct ∧ ∃ t, m.findType? name = some t ∧
      (t.kind = .structType ∨ ∃ underlying, t.kind = .enum underlying)
  | .pointer _ => native = .sysInt ∨ native = .sysUInt
  | .array _ _ | .byRef _ => False

def NamesDelegate (t : TypeRef) : Prop :=
  ∃ name d, t = .named name ∧ m.findType? name = some d ∧ d.kind = .delegate

/-- A parameter of the type, annotated like this, may cross in this way. -/
def Allows (charSet : CharSet) (t : TypeRef) (marshal : Option MarshalInfo) : SlotPlan → Prop
  | .byRef => ∃ target, t = .byRef target ∧ m.FitsAlone target ∧
      ∀ info ∈ marshal, m.IsNatural info.native target
  | .stringArray encoding => t = .vector .string ∧ (∀ info ∈ marshal, info.native = .lpArray) ∧
      encoding.Chosen (marshal.bind MarshalInfo.element) charSet
  | .blittableArray => ∃ element, t = .vector element ∧ m.FitsAlone element ∧
      ∀ info ∈ marshal, info.native = .lpArray ∧ ∀ e ∈ info.element, m.IsNatural e element
  | .boolean .int32 => t = .boolean ∧ ∀ info ∈ marshal, info.native ∈ [.bool, .i4, .u4]
  | .boolean .byte => t = .boolean ∧ ∃ info ∈ marshal, info.native ∈ [.i1, .u1]
  | .ansiString => t = .string ∧ StringEncoding.ansi.Chosen (marshal.map MarshalInfo.native) charSet
  | .unicodeString => t = .string ∧
      StringEncoding.unicode.Chosen (marshal.map MarshalInfo.native) charSet
  | .delegate => m.NamesDelegate t ∧ ∀ info ∈ marshal, info.native = .functionPtr
  | .direct => m.FitsAlone t ∧ ∀ info ∈ marshal, m.IsNatural info.native t

/-- A return value crosses like a parameter, but neither by reference nor as an array. No value
crosses as it is, and cannot be annotated. -/
def AllowsReturn (charSet : CharSet) (t : TypeRef) (marshal : Option MarshalInfo)
    (plan : SlotPlan) : Prop :=
  (t = .void ∧ plan = .direct ∧ marshal = none) ∨
    t ≠ .void ∧ (∀ target, t ≠ .byRef target) ∧ (∀ element rank, t ≠ .array element rank) ∧
      m.Allows charSet t marshal plan

end Rules

/-- The answer is the plan that the rules allow, or a refusal of the slot when they allow none. -/
structure Settles (cx : SlotContext) (t : TypeRef) (allows : SlotPlan → Prop)
    (answer : Except BindError SlotPlan) : Prop where
  plan : ∀ plan, answer = .ok plan ↔ allows plan
  refusal : (∀ plan, ¬allows plan) →
    ∃ fault, answer = .error (.unsupportedSignature cx.method t fault)

/-- Custom marshalers are refused whatever the rules allow. -/
structure SettlesSlot (cx : SlotContext) (t : TypeRef) (marshal : Option MarshalInfo)
    (allows : SlotPlan → Prop) (answer : Except BindError SlotPlan) : Prop where
  custom : (∃ info ∈ marshal, info.isCustom) →
    answer = .error (.unsupportedSignature cx.method t .customMarshaler)
  other : (∀ info ∈ marshal, info.isCustom = false) → Settles cx t allows answer

variable {m : Module} {memo : Memo} {cx : SlotContext} {charSet : CharSet} {t target element : TypeRef}
  {marshal : Option MarshalInfo} {plan : SlotPlan} {native : NativeType}

namespace Settles

variable {allows : SlotPlan → Prop}

theorem of_plan {p : SlotPlan} (only : ∀ plan, allows plan ↔ plan = p) :
    Settles cx t allows (.ok p) :=
  ⟨fun plan => by rw [only, Except.ok.injEq, eq_comm],
    fun none => absurd ((only p).mpr rfl) (none p)⟩

theorem of_fault (fault : SlotFault) (none : ∀ plan, ¬allows plan) :
    Settles cx t allows (.error (.unsupportedSignature cx.method t fault)) :=
  ⟨fun plan => iff_of_false nofun (none plan), fun _ => ⟨fault, rfl⟩⟩

theorem congr {allows' : SlotPlan → Prop} {answer : Except BindError SlotPlan}
    (settles : Settles cx t allows' answer) (same : ∀ plan, allows plan ↔ allows' plan) :
    Settles cx t allows answer :=
  ⟨fun plan => (settles.plan plan).trans (same plan).symm,
    fun none => settles.refusal fun plan allowed => none plan ((same plan).mpr allowed)⟩

end Settles

/-! ## The rules by type -/

theorem not_fitsAlone_primitive {p : Primitive} (other : p.isNumericOrPointer = false) :
    ¬m.FitsAlone (.primitive p) := fun fits => by
  have number : p.isNumericOrPointer := fits.1
  rw [other] at number
  cases number

theorem not_fitsAlone_array {rank : UInt32} : ¬m.FitsAlone (.array element rank) :=
  fun fits => nomatch fits.2

theorem allows_boolean_iff : m.Allows charSet .boolean marshal plan ↔
    (plan = .boolean .int32 ∧ ∀ info ∈ marshal, info.native ∈ [.bool, .i4, .u4]) ∨
      plan = .boolean .byte ∧ ∃ info ∈ marshal, info.native ∈ [.i1, .u1] := by
  have unfit : ¬m.FitsAlone (.primitive .boolean) := not_fitsAlone_primitive rfl
  cases plan with
  | boolean width => cases width <;> simp [Allows]
  | _ => simp [Allows, unfit, NamesDelegate, TypeRef.boolean, TypeRef.string, TypeRef.vector]

theorem allows_string_iff : m.Allows charSet .string marshal plan ↔
    plan = .ofString (.choose (marshal.map MarshalInfo.native) charSet) ∧
      ∀ info ∈ marshal, info.native ∈ NativeType.stringForms := by
  have unfit : ¬m.FitsAlone (.primitive .string) := not_fitsAlone_primitive rfl
  generalize encoding : StringEncoding.choose (marshal.map MarshalInfo.native) charSet = e
  cases plan with
  | boolean width => cases width <;> cases e <;>
      simp [Allows, SlotPlan.ofString, TypeRef.boolean, TypeRef.string]
  | _ =>
    cases e <;> simp [Allows, unfit, StringEncoding.chosen_iff, encoding, SlotPlan.ofString,
      NamesDelegate, TypeRef.string, TypeRef.vector]

theorem allows_delegate_iff (isDelegate : m.NamesDelegate t) : m.Allows charSet t marshal plan ↔
    plan = .delegate ∧ ∀ info ∈ marshal, info.native = .functionPtr := by
  obtain ⟨name, d, rfl, found, kind⟩ := isDelegate
  have unfit : ¬m.FitsAlone (.named name) := by
    rintro ⟨⟨d', found', fits⟩, -⟩
    rw [found] at found'
    cases found'
    simp [kind] at fits
  have isDelegate : m.NamesDelegate (.named name) := ⟨name, d, rfl, found, kind⟩
  cases plan with
  | boolean width => cases width <;> simp [Allows, TypeRef.boolean]
  | _ => simp [Allows, unfit, isDelegate, TypeRef.string, TypeRef.vector]

/-- Values without a rule of their own cross as they are, if at all. -/
theorem allows_direct_iff (notByRef : t.isByRef = false) (notArray : t.array? = none)
    (notBoolean : t ≠ .boolean) (notString : t ≠ .string) (notDelegate : ¬m.NamesDelegate t) :
    m.Allows charSet t marshal plan ↔
      plan = .direct ∧ m.FitsAlone t ∧ ∀ info ∈ marshal, m.IsNatural info.native t := by
  have notReference (target : TypeRef) : t ≠ .byRef target := by
    rintro rfl
    cases notByRef
  have notVector (element : TypeRef) : t ≠ .vector element := by
    rintro rfl
    cases notArray
  cases plan with
  | boolean width => cases width <;> simp [Allows, notBoolean]
  | _ => simp [Allows, notString, notDelegate, notReference, notVector]

theorem allows_byRef_iff : m.Allows charSet (.byRef target) marshal plan ↔
    plan = .byRef ∧ m.FitsAlone target ∧ ∀ info ∈ marshal, m.IsNatural info.native target := by
  have unfit : ¬m.FitsAlone (.byRef target) := fun fits => fits.1
  cases plan with
  | boolean width => cases width <;> simp [Allows, TypeRef.boolean]
  | _ => simp [Allows, unfit, NamesDelegate, TypeRef.string, TypeRef.vector]

theorem allows_strings_iff : m.Allows charSet (.vector .string) marshal plan ↔
    plan = .stringArray (.choose (marshal.bind MarshalInfo.element) charSet) ∧
      ∀ info ∈ marshal, info.native = .lpArray ∧ ∀ e ∈ info.element, e ∈ NativeType.stringForms := by
  have unfit : ¬m.FitsAlone (.primitive .string) := not_fitsAlone_primitive rfl
  cases plan with
  | boolean width => cases width <;> simp [Allows, TypeRef.boolean, TypeRef.vector]
  | stringArray encoding =>
    cases marshal with
    | none => simp [Allows, StringEncoding.chosen_iff]
    | some info => simp [Allows, StringEncoding.chosen_iff, and_comm, and_left_comm]
  | _ => simp [Allows, not_fitsAlone_array, unfit, NamesDelegate, TypeRef.string, TypeRef.vector]

theorem allows_vector_iff (notString : element ≠ .string) :
    m.Allows charSet (.vector element) marshal plan ↔
      plan = .blittableArray ∧ m.FitsAlone element ∧
        ∀ info ∈ marshal, info.native = .lpArray ∧ ∀ e ∈ info.element, m.IsNatural e element := by
  cases plan with
  | boolean width => cases width <;> simp [Allows, TypeRef.boolean, TypeRef.vector]
  | _ =>
    simp [Allows, not_fitsAlone_array, show element ≠ .primitive .string from notString,
      NamesDelegate, TypeRef.vector, TypeRef.string]

theorem not_allows_matrix {rank : UInt32} (matrix : rank ≠ 1) :
    ¬m.Allows charSet (.array element rank) marshal plan := by
  cases plan with
  | boolean width => cases width <;> simp [Allows, TypeRef.boolean]
  | _ =>
    simp [Allows, not_fitsAlone_array, matrix, NamesDelegate, TypeRef.vector, TypeRef.string]

theorem allowsReturn_void_iff :
    m.AllowsReturn charSet .void marshal plan ↔ plan = .direct ∧ marshal = none := by
  simp [AllowsReturn]

theorem not_allowsReturn_byRef : ¬m.AllowsReturn charSet (.byRef target) marshal plan := by
  simp [AllowsReturn, TypeRef.void]

theorem not_allowsReturn_array {rank : UInt32} :
    ¬m.AllowsReturn charSet (.array element rank) marshal plan := by
  simp [AllowsReturn, TypeRef.void]

theorem allowsReturn_iff (notVoid : t ≠ .void) (notByRef : ∀ target, t ≠ .byRef target)
    (notArray : ∀ element rank, t ≠ .array element rank) :
    m.AllowsReturn charSet t marshal plan ↔ m.Allows charSet t marshal plan := by
  simp [AllowsReturn, notVoid, notByRef, notArray]

/-! ## What the tests answer -/

/-- Every name that the type leads to has a definition. -/
def Resolves (m : Module) (t : TypeRef) : Prop :=
  ∀ name, m.Reaches t (.named name) → (m.findType? name).isSome

theorem resolves_primitive (p : Primitive) : m.Resolves (.primitive p) := by
  rintro name ⟨⟩

theorem Resolves.array {rank : UInt32} (resolves : m.Resolves element) :
    m.Resolves (.array element rank) := by
  rintro name (_ | ⟨_, rest⟩)
  exact resolves name rest

theorem Resolves.of_array {rank : UInt32} (resolves : m.Resolves (.array element rank)) :
    m.Resolves element := fun name reaches => resolves name (.element rank reaches)

theorem fits_iff_fitsAlone (notArray : t.array? = none) :
    m.Fits Primitive.isNumericOrPointer t ↔ m.FitsAlone t := (and_iff_left notArray).symm

theorem fits_vector_iff : m.Fits Primitive.isNumericOrPointer (.vector element) ↔
    m.FitsAlone element := by
  cases element with
  | array element rank => exact iff_of_false (fun fits => fits.2) not_fitsAlone_array
  | _ => exact (and_iff_right rfl).trans (and_iff_left rfl).symm

/-- The answer to a question is whether the type fits. -/
theorem exists_answer (queries : List TypeRef) (resolves : m.Resolves t) :
    ∃ fits memo, (m.isBlittable t).run (m.memoAfter queries) = (.ok fits, memo) ∧
      (fits = true ↔ m.Fits Primitive.isNumericOrPointer t) := by
  obtain ⟨knows, idle⟩ := m.memoAfter_knows queries
  have decides := (ask_decides knows idle t).1
  rw [run_isBlittable]
  cases answer : (m.ask (m.memoAfter queries) t).answer with
  | ok fits =>
    rw [answer] at decides
    exact ⟨fits, _, rfl, decides⟩
  | error e =>
    rw [answer] at decides
    obtain ⟨missing, -, unknown, reaches⟩ := decides
    have found := resolves missing reaches
    rw [unknown] at found
    cases found

/-- Whether a type fits is found out, and the inquiry goes on with the answer. -/
theorem settles_isBlittable_bind {slot : TypeRef} {allows : SlotPlan → Prop} (queries : List TypeRef)
    (resolves : m.Resolves t) (f : Bool → Inquiry SlotPlan)
    (goesOn : ∀ fits memo, (fits = true ↔ m.Fits Primitive.isNumericOrPointer t) →
      Settles cx slot allows ((f fits).run memo).1) :
    Settles cx slot allows ((m.isBlittable t >>= f).run (m.memoAfter queries)).1 := by
  obtain ⟨fits, memo, run, iff⟩ := exists_answer queries resolves
  rw [run_bind, run]
  exact goesOn fits memo iff

theorem isNaturalNative_eq (native : NativeType) (resolves : m.Resolves t) :
    ∃ natural, m.isNaturalNative native t = .ok natural ∧
      (natural = true ↔ m.IsNatural native t) := by
  cases t with
  | primitive p => exact ⟨_, rfl, beq_iff_eq.trans Primitive.natural_iff.symm⟩
  | pointer target => exact ⟨_, rfl, by simp [IsNatural]⟩
  | array element rank => exact ⟨false, rfl, iff_of_false nofun id⟩
  | byRef target => exact ⟨false, rfl, iff_of_false nofun id⟩
  | named name =>
    obtain ⟨d, found⟩ := Option.isSome_iff_exists.mp (resolves name (.refl _))
    by_cases isStruct : native = .struct
    · refine ⟨d.isValueType, ?_, ?_⟩
      · rw [isNaturalNative, if_pos isStruct, resolve, found]
        rfl
      · simp [IsNatural, isStruct, found, TypeDef.isValueType_iff]
    · exact ⟨false, if_neg isStruct, iff_of_false nofun fun natural => isStruct natural.1⟩

theorem isDelegate_eq (resolves : m.Resolves t) :
    ∃ answer, m.isDelegate t = .ok answer ∧ (answer = true ↔ m.NamesDelegate t) := by
  cases t with
  | named name =>
    obtain ⟨d, found⟩ := Option.isSome_iff_exists.mp (resolves name (.refl _))
    refine ⟨d.kind == .delegate, ?_, ?_⟩
    · rw [isDelegate, resolve, found]
      rfl
    · simp [NamesDelegate, found]
  | _ =>
    refine ⟨false, rfl, iff_of_false Bool.false_ne_true ?_⟩
    rintro ⟨_, _, same, _⟩
    cases same

/-- A slot is planned when its values fit and its annotation asks for nothing else. -/
theorem settles_natural {slot : TypeRef} {allows : SlotPlan → Prop} {p : SlotPlan}
    (queries : List TypeRef) (resolves : m.Resolves t) (fault : SlotFault)
    (only : ∀ plan, allows plan ↔ plan = p ∧ m.Fits Primitive.isNumericOrPointer t ∧
      ∀ info ∈ marshal, m.IsNatural info.native t) :
    Settles cx slot allows ((do
      if ← m.isBlittable t then
        m.checkNatural cx slot t (marshal.map MarshalInfo.native)
        return p
      else cx.reject slot fault : Inquiry SlotPlan).run (m.memoAfter queries)).1 := by
  refine settles_isBlittable_bind queries resolves _ fun fits memo fitting => ?_
  cases fits with
  | false =>
    refine .of_fault _ fun plan allowed => ?_
    exact absurd (fitting.mpr ((only plan).mp allowed).2.1) nofun
  | true =>
    have fitting := fitting.mp rfl
    cases marshal with
    | none => exact .of_plan fun plan => by simp [only, fitting]
    | some info =>
      obtain ⟨natural, answer, iff⟩ := isNaturalNative_eq info.native resolves
      simp only [if_true, Option.map_some, checkNatural, answer]
      cases natural with
      | true => exact .of_plan fun plan => by simp [only, fitting, iff.mp rfl]
      | false =>
        refine .of_fault _ fun plan allowed => ?_
        exact absurd (iff.mpr (((only plan).mp allowed).2.2 info rfl)) nofun

/-! ## Plans -/

theorem planValue_boolean_settles : Settles cx .boolean (m.Allows charSet .boolean marshal)
    ((m.planValue cx .boolean (marshal.map MarshalInfo.native)).run memo).1 := by
  unfold planValue
  rw [if_pos rfl]
  rcases marshal with _ | ⟨native, element, custom⟩
  · exact .of_plan fun plan => by simp [allows_boolean_iff]
  · cases native
    case bool | i4 | u4 | i1 | u1 => exact .of_plan fun plan => by simp [allows_boolean_iff]
    all_goals exact .of_fault _ fun plan => by simp [allows_boolean_iff]

theorem planValue_string_settles : Settles cx .string (m.Allows cx.charSet .string marshal)
    ((m.planValue cx .string (marshal.map MarshalInfo.native)).run memo).1 := by
  unfold planValue
  rw [if_neg (by decide), if_pos rfl]
  rcases marshal with _ | ⟨native, element, custom⟩
  · exact .of_plan fun plan => by simp [allows_string_iff]
  · cases native
    case lpStr | lptStr | lpwStr =>
      exact .of_plan fun plan => by simp [allows_string_iff, NativeType.stringForms]
    all_goals exact .of_fault _ fun plan => by simp [allows_string_iff, NativeType.stringForms]

theorem planValue_delegate_settles (isDelegate : m.NamesDelegate t) :
    Settles cx t (m.Allows charSet t marshal)
      ((m.planValue cx t (marshal.map MarshalInfo.native)).run memo).1 := by
  have only (plan : SlotPlan) : m.Allows charSet t marshal plan ↔ _ := allows_delegate_iff isDelegate
  obtain ⟨name, d, rfl, found, kind⟩ := isDelegate
  have answer : m.isDelegate (.named name) = .ok true := by
    rw [Module.isDelegate, resolve, found]
    exact congrArg Except.ok (beq_iff_eq.mpr kind)
  unfold planValue
  rw [if_neg (by rintro ⟨⟩), if_neg (by rintro ⟨⟩), if_neg (by rintro ⟨⟩), answer]
  rcases marshal with _ | ⟨native, element, custom⟩
  · exact .of_plan fun plan => by simp [only]
  · cases native
    case functionPtr => exact .of_plan fun plan => by simp [only]
    all_goals exact .of_fault _ fun plan => by simp [only]

theorem planValue_settles (queries : List TypeRef) (resolves : m.Resolves t)
    (notByRef : t.isByRef = false) (notArray : t.array? = none) :
    Settles cx t (m.Allows cx.charSet t marshal)
      ((m.planValue cx t (marshal.map MarshalInfo.native)).run (m.memoAfter queries)).1 := by
  by_cases isBoolean : t = .boolean
  · subst isBoolean
    exact planValue_boolean_settles
  by_cases isString : t = .string
  · subst isString
    exact planValue_string_settles
  by_cases isDelegate : m.NamesDelegate t
  · exact planValue_delegate_settles isDelegate
  have only (plan : SlotPlan) : m.Allows cx.charSet t marshal plan ↔ _ :=
    allows_direct_iff notByRef notArray isBoolean isString isDelegate
  unfold planValue
  rw [if_neg isBoolean, if_neg isString]
  split
  · next isChar =>
    subst isChar
    exact .of_fault _ fun plan allowed =>
      not_fitsAlone_primitive rfl ((only plan).mp allowed).2.1
  · obtain ⟨answer, eq, iff⟩ := isDelegate_eq resolves
    obtain rfl : answer = false := by simpa [isDelegate] using iff
    rw [eq]
    exact settles_natural queries resolves .noPlan fun plan => by
      rw [only, fits_iff_fitsAlone notArray]

theorem planByRef_settles (queries : List TypeRef) (resolves : m.Resolves target) :
    Settles cx (.byRef target) (m.Allows cx.charSet (.byRef target) marshal)
      ((m.planByRef cx target (marshal.map MarshalInfo.native)).run (m.memoAfter queries)).1 := by
  unfold planByRef
  simp only
  split
  · next isArray =>
    refine .of_fault _ fun plan allowed => ?_
    rw [(allows_byRef_iff.mp allowed).2.1.2] at isArray
    cases isArray
  · next notArray =>
    rw [Bool.not_eq_true, Option.isSome_eq_false_iff, Option.isNone_iff_eq_none] at notArray
    exact settles_natural queries resolves .byReferenceTarget fun plan => by
      rw [allows_byRef_iff, fits_iff_fitsAlone notArray]

theorem planStringArray_settles : Settles cx (.vector .string)
    (m.Allows cx.charSet (.vector .string) marshal)
    ((planStringArray cx (.vector .string) marshal).run memo).1 := by
  rcases marshal with _ | ⟨native, element, custom⟩
  · exact .of_plan fun plan => by simp [allows_strings_iff]
  · by_cases isArray : native = .lpArray
    · subst isArray
      rcases element with _ | element
      · exact .of_plan fun plan => by simp [allows_strings_iff]
      · cases element
        case lpStr | lptStr | lpwStr =>
          exact .of_plan fun plan => by simp [allows_strings_iff, NativeType.stringForms]
        all_goals exact .of_fault _ fun plan => by simp [allows_strings_iff, NativeType.stringForms]
    · unfold planStringArray
      simp only [if_neg isArray]
      exact .of_fault _ fun plan => by simp [allows_strings_iff, isArray]

theorem planArray_settles {rank : UInt32} (queries : List TypeRef)
    (resolves : m.Resolves (.array element rank)) :
    Settles cx (.array element rank) (m.Allows cx.charSet (.array element rank) marshal)
      ((m.planArray cx element rank marshal (marshal.map MarshalInfo.native)).run
        (m.memoAfter queries)).1 := by
  unfold planArray
  simp only
  split
  · next matrix => exact .of_fault _ fun plan => not_allows_matrix matrix
  next vector =>
  obtain rfl : rank = 1 := not_not.mp vector
  change Settles cx (.vector element) (m.Allows cx.charSet (.vector element) marshal) _
  split
  · next isString =>
    subst isString
    exact planStringArray_settles
  · next notString =>
    have only (plan : SlotPlan) : m.Allows cx.charSet (.vector element) marshal plan ↔ _ :=
      allows_vector_iff notString
    refine settles_isBlittable_bind queries resolves _ fun fits memo fitting => ?_
    rw [← TypeRef.vector, fits_vector_iff] at fitting
    cases fits with
    | false =>
      refine .of_fault _ fun plan allowed => ?_
      exact absurd (fitting.mpr ((only plan).mp allowed).2.1) Bool.false_ne_true
    | true =>
      have fitting := fitting.mp rfl
      rcases marshal with _ | ⟨native, annotation, custom⟩
      · exact .of_plan fun plan => by simp [only, fitting]
      by_cases isArray : native = .lpArray
      · subst isArray
        cases annotation with
        | none => exact .of_plan fun plan => by simp [only, fitting]
        | some e =>
          obtain ⟨natural, answer, iff⟩ := isNaturalNative_eq e resolves.of_array
          simp only [if_true, Option.map_some, Option.bind_some, answer]
          cases natural with
          | true => exact .of_plan fun plan => by simp [only, fitting, iff.mp rfl]
          | false =>
            refine .of_fault _ fun plan allowed => ?_
            have natural := (((only plan).mp allowed).2.2 _ rfl).2 e rfl
            exact absurd (iff.mpr natural) Bool.false_ne_true
      · have refused (plan : SlotPlan) : ¬m.Allows cx.charSet (.vector element)
            (some ⟨native, annotation, custom⟩) plan := by simp [only, isArray]
        have refuses (fits : Bool) : (decide (native ≠ .lpArray) || !fits) = true := by simp [isArray]
        cases annotation with
        | none =>
          simp only [if_true, Option.map_some, Option.bind_some]
          change Settles cx _ _ (ExceptT.run (if (decide (native ≠ .lpArray) || !true) = true then
            cx.reject (.vector element) (.unfit native) else return .blittableArray) memo).1
          rw [if_pos (refuses true)]
          exact .of_fault _ refused
        | some e =>
          obtain ⟨natural, answer, iff⟩ := isNaturalNative_eq e resolves.of_array
          simp only [if_true, Option.map_some, Option.bind_some, answer]
          change Settles cx _ _ (ExceptT.run (if (decide (native ≠ .lpArray) || !natural) = true then
            cx.reject (.vector element) (.unfit native) else return .blittableArray) memo).1
          rw [if_pos (refuses natural)]
          exact .of_fault _ refused

/-! ## Parameters and return values -/

/-- A custom marshaler is refused before anything else is looked at. -/
theorem settlesSlot_asked_bind {allows : SlotPlan → Prop} (f : Option NativeType → Inquiry SlotPlan)
    (goesOn : Settles cx t allows ((f (marshal.map MarshalInfo.native)).run memo).1) :
    SettlesSlot cx t marshal allows ((cx.asked t marshal >>= f).run memo).1 := by
  cases marshal with
  | none => exact ⟨fun ⟨_, mem, _⟩ => absurd mem nofun, fun _ => goesOn⟩
  | some info =>
    have custom_iff : (info.native = .customMarshaler ∨ info.customMarshaler.isSome) ↔
        info.isCustom := by simp [MarshalInfo.isCustom]
    simp only [SlotContext.asked, custom_iff]
    cases custom : info.isCustom with
    | true =>
      exact ⟨fun _ => rfl, fun other => absurd custom (by simp [other info rfl])⟩
    | false =>
      refine ⟨fun ⟨info', mem, isCustom⟩ => ?_, fun _ => goesOn⟩
      rw [← Option.some.inj mem, custom] at isCustom
      cases isCustom

theorem planParameter_settlesSlot (queries : List TypeRef) (param : ParamDef)
    (resolves : m.Resolves param.type.stripByRef) :
    SettlesSlot cx param.type param.marshal (m.Allows cx.charSet param.type param.marshal)
      ((m.planParameter cx param).run (m.memoAfter queries)).1 := by
  obtain ⟨name, t, marshal⟩ := param
  refine settlesSlot_asked_bind _ ?_
  cases t with
  | byRef target => exact planByRef_settles queries resolves
  | array element rank => exact planArray_settles queries resolves
  | primitive p => exact planValue_settles queries resolves rfl rfl
  | named name => exact planValue_settles queries resolves rfl rfl
  | pointer target => exact planValue_settles queries resolves rfl rfl

theorem planReturn_settlesSlot (queries : List TypeRef) (t : TypeRef) (marshal : Option MarshalInfo)
    (resolves : m.Resolves t) :
    SettlesSlot cx t marshal (m.AllowsReturn cx.charSet t marshal)
      ((m.planReturn cx t marshal).run (m.memoAfter queries)).1 := by
  refine settlesSlot_asked_bind _ ?_
  by_cases isVoid : t = .void
  · subst isVoid
    cases marshal with
    | none => exact .of_plan fun plan => by simp [allowsReturn_void_iff]
    | some info => exact .of_fault _ fun plan => by simp [allowsReturn_void_iff]
  rw [if_neg (show ¬t.isVoid = true from mt eq_of_beq isVoid)]
  cases t with
  | byRef target => exact .of_fault _ fun plan => not_allowsReturn_byRef
  | array element rank => exact .of_fault _ fun plan => not_allowsReturn_array
  | primitive | named | pointer =>
    exact (planValue_settles queries resolves rfl rfl).congr fun plan =>
      allowsReturn_iff isVoid (by simp) (by simp)

/-- Slots are planned by the rules. Where all names that a type leads to have definitions, and whatever
was asked about types before, the plan of a slot is the one that the rules allow; a slot for which they
allow none is refused, with the method and the type named, and so is every custom marshaler. -/
theorem plan_eq_ok_iff_allows (m : Module) (cx : SlotContext) (queries : List TypeRef) :
    (∀ param : ParamDef, m.Resolves param.type.stripByRef →
      SettlesSlot cx param.type param.marshal (m.Allows cx.charSet param.type param.marshal)
        ((m.planParameter cx param).run (m.memoAfter queries)).1) ∧
    ∀ (t : TypeRef) (marshal : Option MarshalInfo), m.Resolves t →
      SettlesSlot cx t marshal (m.AllowsReturn cx.charSet t marshal)
        ((m.planReturn cx t marshal).run (m.memoAfter queries)).1 :=
  ⟨planParameter_settlesSlot queries, planReturn_settlesSlot queries⟩

/-- The plan of an only parameter, after an inquiry that failed. -/
def ringPlan (charSet : CharSet) (t : TypeRef) (marshal : Option MarshalInfo) :
    Except BindError SlotPlan :=
  ((ring.planParameter ⟨"A.T::F", charSet⟩ ⟨"x", t, marshal⟩).run
    (ring.memoAfter [.named ⟨"", "Broken"⟩])).1

/-- By reference to a struct that holds itself, annotated as a struct, and refused as a number. Strings
cross as their annotations or else the string mode have it, also in arrays, and a truth value as a
byte. -/
theorem plan_eq_ok_iff_allows_ring :
    (ring.Resolves (.named ⟨"", "Node"⟩) ∧ ring.Resolves .string ∧ ring.Resolves (.vector .string) ∧
      ring.Resolves .boolean) ∧
    ringPlan .ansi (.byRef (.named ⟨"", "Node"⟩)) (some (.plain .struct)) = .ok .byRef ∧
    ringPlan .ansi .string (some (.plain .lpwStr)) = .ok .unicodeString ∧
    ringPlan .unicode .string (some (.plain .lptStr)) = .ok .ansiString ∧
    ringPlan .unicode .string none = .ok .unicodeString ∧
    ringPlan .auto .string none = .ok .ansiString ∧
    ringPlan .unicode (.vector .string) (some (.arrayOf .lptStr)) = .ok (.stringArray .ansi) ∧
    ringPlan .unicode (.vector .string) (some (.plain .lpArray)) = .ok (.stringArray .unicode) ∧
    ringPlan .ansi .boolean (some (.plain .u1)) = .ok (.boolean .byte) ∧
    ringPlan .ansi .string (some ⟨.lpStr, none, some "Marshaler"⟩) =
      .error (.unsupportedSignature "A.T::F" .string .customMarshaler) ∧
    ∃ fault, ((ring.planReturn ⟨"A.T::F", .ansi⟩ (.named ⟨"", "Node"⟩) (some (.plain .i4))).run
      (ring.memoAfter [])).1 =
        .error (.unsupportedSignature "A.T::F" (.named ⟨"", "Node"⟩) fault) := by
  have ofNode : ring.Resolves (.named ⟨"", "Node"⟩) := by
    intro name reaches
    have mem := reaches.mem_of_closed [.named ⟨"", "Node"⟩, .named ⟨"", "Link"⟩,
      .named ⟨"", "Mode"⟩, .f64] (by decide +kernel) List.mem_cons_self
    simp [TypeRef.f64] at mem
    rcases mem with rfl | rfl | rfl <;> cbv
  have ofString : ring.Resolves .string := resolves_primitive .string
  have node : ring.findType? ⟨"", "Node"⟩ = some (((TypeDef.ofKind "Node" .structType).withField
      "next" (.named ⟨"", "Link"⟩) none).withField "weight" .f64 none) := by cbv
  obtain ⟨fits, memo, run, iff⟩ := exists_answer [] ofNode
  have yes : (ring.isBlittable (.named ⟨"", "Node"⟩)).run [] =
      (.ok true, [(⟨"", "Node"⟩, .answered true)]) := by cbv
  cases yes.symm.trans run
  have slot (charSet : CharSet) (t : TypeRef) (marshal : Option MarshalInfo)
      (resolves : ring.Resolves t.stripByRef) :
      SettlesSlot ⟨"A.T::F", charSet⟩ t marshal (ring.Allows charSet t marshal)
        (ringPlan charSet t marshal) :=
    (plan_eq_ok_iff_allows ring ⟨"A.T::F", charSet⟩ [.named ⟨"", "Broken"⟩]).1 ⟨"x", t, marshal⟩
      resolves
  have asString (charSet : CharSet) (marshal : Option MarshalInfo)
      (plain : ∀ info ∈ marshal, info.isCustom = false) :=
    ((slot charSet .string marshal ofString).other plain).plan
  have asStrings (info : MarshalInfo) (plain : info.isCustom = false) :=
    ((slot .unicode (.vector .string) (some info) ofString.array).other
      fun _ mem => Option.some.inj mem ▸ plain).plan
  refine ⟨⟨ofNode, ofString, ofString.array, resolves_primitive .boolean⟩, ?_, ?_, ?_, ?_, ?_, ?_, ?_,
    ?_, ?_, ?_⟩
  · have settles := (slot .ansi (.byRef (.named ⟨"", "Node"⟩)) (some (.plain .struct)) ofNode).other
      (by simp [MarshalInfo.isCustom, MarshalInfo.plain])
    have natural : ring.IsNatural .struct (.named ⟨"", "Node"⟩) := ⟨rfl, _, node, .inl rfl⟩
    refine (settles.plan .byRef).mpr ⟨_, rfl, ⟨iff.mp rfl, rfl⟩, ?_⟩
    simpa [MarshalInfo.plain] using natural
  · exact (asString .ansi (some (.plain .lpwStr)) (by decide) _).mpr ⟨rfl, .lpwStr .ansi⟩
  · exact (asString .unicode (some (.plain .lptStr)) (by decide) _).mpr ⟨rfl, .lptStr .unicode⟩
  · exact (asString .unicode none (by simp) _).mpr ⟨rfl, .unicode⟩
  · exact (asString .auto none (by simp) _).mpr ⟨rfl, .auto⟩
  · exact (asStrings (.arrayOf .lptStr) rfl _).mpr
      ⟨rfl, by simp [MarshalInfo.arrayOf], .lptStr .unicode⟩
  · exact (asStrings (.plain .lpArray) rfl _).mpr ⟨rfl, by simp [MarshalInfo.plain], .unicode⟩
  · have settles := (slot .ansi .boolean (some (.plain .u1)) (resolves_primitive .boolean)).other
      (by simp [MarshalInfo.isCustom, MarshalInfo.plain])
    exact (settles.plan (.boolean .byte)).mpr ⟨rfl, _, rfl, by simp [MarshalInfo.plain]⟩
  · exact (slot .ansi .string _ ofString).custom ⟨_, rfl, rfl⟩
  · have settles := ((plan_eq_ok_iff_allows ring ⟨"A.T::F", .ansi⟩ []).2 (.named ⟨"", "Node"⟩)
      (some (.plain .i4)) ofNode).other (by simp [MarshalInfo.isCustom, MarshalInfo.plain])
    refine settles.refusal fun plan allowed => ?_
    have notDelegate : ¬ring.NamesDelegate (.named ⟨"", "Node"⟩) := by
      rintro ⟨_, d, same, found, isDelegate⟩
      cases same
      cases node.symm.trans found
      cases isDelegate
    have allowed := (allowsReturn_iff (by decide) (by simp) (by simp)).mp allowed
    have direct := (allows_direct_iff (t := .named ⟨"", "Node"⟩) rfl rfl (by decide) (by decide)
      notDelegate).mp allowed
    have natural : ring.IsNatural .i4 (.named ⟨"", "Node"⟩) := direct.2.2 _ rfl
    cases natural.1

end Module

end LateBind

import LateBind.Proofs.LaidCode
import LateBind.Proofs.Planning
import LateBind.StubBody

/-! # The code of stubs

What each part of a stub's body emits, and that no body can fail to be emitted. -/

namespace LateBind.StubBody

open Emitter

variable {e : Emitter} {h n : Nat} {t : TypeRef}

/-! ## Parts -/

theorem emitAddressArrayFor_stringArray (he : e.At 0) (hl : e.labels.size + 2 < 2 ^ 32)
    {s : ParamSlot} (array : s.plan.isStringArray) (index : Nat) :
    ∃ k, e.Counts 1 k ∧ emitAddressArrayFor s index e =
      (some (UInt16.ofNat e.locals.size), e.grow
        [.ldarg (UInt16.ofNat index), .brtrue (e.label 0), .ldcI4 0, .br (e.label 1),
          .ldarg (UInt16.ofNat index), .ldlen, .convI4, .newarr .intPtr,
          .stloc (UInt16.ofNat e.locals.size)]
        [⟨some (e.position + 4), some 0⟩, ⟨some (e.position + 7), some 1⟩]
        [⟨.vector .intPtr, false⟩] 0 k true) := by
  rw [← congrArg (emitAddressArrayFor s index) he.eq_grow]
  refine ⟨?k, ?counts, ?eq⟩
  case eq =>
    simp (disch := first | omega | (simp <;> omega) | fail)
      [emitAddressArrayFor, emitAddressArray, array]
    rfl
  case counts => constructor <;> simp only [UInt16.toNat_max, UInt16.reduceToNat] <;> omega

/-- Pins an array that is loaded by an instruction, and pushes the address of its first element. -/
def pinnedArrayCode (e : Emitter) (load : Instr) (element : TypeRef) (pin : UInt16) : List Instr :=
  [load, .brfalse (e.label 0), load, .ldlen, .convI4, .brfalse (e.label 0), load, .ldcI4 0,
    .ldelema element, .stloc pin, .ldloc pin, .convI, .br (e.label 1), .ldcI4 0, .convU]

theorem emitPinnedArray_eq (he : e.At h) (hh : h + 2 < 2 ^ 16) (hl : e.labels.size + 2 < 2 ^ 32)
    {load : Instr} (plain : load.isPlain) (pops : load.pops = 0) (pushes : load.pushes = 1)
    (element : TypeRef) :
    ∃ k, e.Counts (h + 2) k ∧ emitPinnedArray load element e =
      ((), e.grow (pinnedArrayCode e load element (UInt16.ofNat e.locals.size))
        [⟨some (e.position + 13), some h⟩, ⟨some (e.position + 15), some (h + 1)⟩]
        [⟨.byRef element, true⟩] (h + 1) k true) := by
  rw [← congrArg (emitPinnedArray load element) he.eq_grow]
  refine ⟨?k, ?counts, ?eq⟩
  case eq =>
    simp (disch := first | omega | (simp [*] <;> omega) | fail)
      [emitPinnedArray, emitNullPointer, pinnedArrayCode, pops, pushes]
    rfl
  case counts => constructor <;> simp [UInt16.toNat_max, UInt16.toNat_ofNat'] <;> omega

theorem emitPinnedArray_lays (he : e.Rests h) (hh : h + 2 < 2 ^ 16) (hl : e.labels.size + 2 < 2 ^ 32)
    (load : Instr) (plain : load.isPlain) (pops : load.pops = 0) (pushes : load.pushes = 1)
    (inRange : load.InRange n e.locals.size) (element : TypeRef) :
    ∃ e', emitPinnedArray load element e = ((), e') ∧ e.Lays n h (h + 1) 2 e' := by
  obtain ⟨k, counts, eq⟩ := emitPinnedArray_eq he.toAt hh hl plain pops pushes element
  have high := counts.height
  have inRange := inRange.mono (Nat.le_refl _) (Nat.le_add_right e.locals.size 1)
  refine ⟨_, eq, .of_fits [h, h + 1, h, h + 1, h + 1, h + 1, h, h + 1, h + 2, h + 1, h, h + 1, h + 1,
    h, h + 1] [h, h + 1] counts (by omega) (by simp) rfl ?fits (by simp) ?returns (by simp)⟩
  case fits =>
    simp (disch := first | assumption | rfl | simp | fail) [pinnedArrayCode, pops, pushes, inRange]
    omega
  case returns => simp [pinnedArrayCode, Instr.ret_ne_of_isPlain plain]

/-! ## Arguments -/

section Arguments

variable (he : e.At h) (hh : h + 2 < 2 ^ 16) (hl : e.labels.size + 2 < 2 ^ 32)
  (helper : TypeName) {s : ParamSlot} (index : UInt16) (addresses : Option UInt16)

include he hh

theorem emitArgument_direct (plan : s.plan = .direct) :
    ∃ k, e.Counts (h + 1) k ∧ emitArgument helper s index addresses e =
      ((), e.grow [.ldarg index] [] [] (h + 1) k true) := by
  rw [← congrArg (emitArgument helper s index addresses) he.eq_grow]
  refine ⟨?k, ?counts, ?eq⟩
  case eq =>
    simp (disch := first | omega | (simp <;> omega) | fail) [emitArgument, plan]
    rfl
  case counts => constructor <;> simp [UInt16.toNat_max, UInt16.toNat_ofNat'] <;> omega

theorem emitArgument_boolean {width : BoolWidth} (plan : s.plan = .boolean width) :
    ∃ k, e.Counts (h + 2) k ∧ emitArgument helper s index addresses e =
      ((), e.grow
        ([.ldarg index, .ldcI4 0, .cgtUn] ++ if width = .byte then [.convU1] else [])
        [] [] (h + 1) k true) := by
  rw [← congrArg (emitArgument helper s index addresses) he.eq_grow]
  cases width with
  | int32 =>
    refine ⟨?k, ?counts, ?eq⟩
    case eq =>
      simp (disch := first | omega | (simp <;> omega) | fail) [emitArgument, plan]
      rfl
    case counts => constructor <;> simp [UInt16.toNat_max, UInt16.toNat_ofNat'] <;> omega
  | byte =>
    refine ⟨?k', ?counts', ?eq'⟩
    case eq' =>
      simp (disch := first | omega | (simp <;> omega) | fail) [emitArgument, plan]
      rfl
    case counts' => constructor <;> simp [UInt16.toNat_max, UInt16.toNat_ofNat'] <;> omega

theorem emitArgument_byRef (plan : s.plan = .byRef) :
    ∃ k, e.Counts (h + 1) k ∧ emitArgument helper s index addresses e =
      ((), e.grow
        [.ldarg index, .stloc (UInt16.ofNat e.locals.size), .ldloc (UInt16.ofNat e.locals.size),
          .convI]
        [] [⟨s.type, true⟩] (h + 1) k true) := by
  rw [← congrArg (emitArgument helper s index addresses) he.eq_grow]
  refine ⟨?k, ?counts, ?eq⟩
  case eq =>
    simp (disch := first | omega | (simp <;> omega) | fail) [emitArgument, plan]
    rfl
  case counts => constructor <;> simp [UInt16.toNat_max, UInt16.toNat_ofNat'] <;> omega

include hl

theorem emitArgument_unicodeString (plan : s.plan = .unicodeString) :
    ∃ k, e.Counts (h + 2) k ∧ emitArgument helper s index addresses e =
      ((), e.grow
        [.ldarg index, .stloc (UInt16.ofNat e.locals.size), .ldloc (UInt16.ofNat e.locals.size),
          .convI, .dup, .brfalse (e.label 0), .call Framework.offsetToStringData, .add]
        [⟨some (e.position + 8), some (h + 1)⟩] [⟨.string, true⟩] (h + 1) k true) := by
  rw [← congrArg (emitArgument helper s index addresses) he.eq_grow]
  refine ⟨?k, ?counts, ?eq⟩
  case eq =>
    simp (disch := first | omega | (simp <;> omega) | fail)
      [emitArgument, plan, Framework.offsetToStringData]
    rfl
  case counts => constructor <;> simp [UInt16.toNat_max, UInt16.toNat_ofNat'] <;> omega

theorem emitArgument_delegate (plan : s.plan = .delegate) :
    ∃ k, e.Counts (h + 1) k ∧ emitArgument helper s index addresses e =
      ((), e.grow
        [.ldarg index, .brtrue (e.label 0), .ldcI4 0, .convU, .br (e.label 1), .ldarg index,
          .call Framework.functionPointerForDelegate]
        [⟨some (e.position + 5), some h⟩, ⟨some (e.position + 7), some (h + 1)⟩] [] (h + 1) k
        true) := by
  rw [← congrArg (emitArgument helper s index addresses) he.eq_grow]
  refine ⟨?k, ?counts, ?eq⟩
  case eq =>
    simp (disch := first | omega | (simp <;> omega) | fail)
      [emitArgument, emitNullPointer, plan, Framework.functionPointerForDelegate]
    rfl
  case counts => constructor <;> simp [UInt16.toNat_max, UInt16.toNat_ofNat'] <;> omega

end Arguments

/-- The bytes of a string are made before they are pinned. -/
theorem emitAnsiBytes_eq (he : e.At h) (hh : h + 2 < 2 ^ 16) (helper : TypeName) (index : UInt16) :
    ∃ k, e.Counts (h + 1) k ∧ Emit.instrs [.ldarg index, .call (Helper.ansiBytes helper),
        .stloc (UInt16.ofNat e.locals.size)] (e.newLocal (.vector .u8) false).2 =
      ((), e.grow [.ldarg index, .call (Helper.ansiBytes helper), .stloc (UInt16.ofNat e.locals.size)]
        [] [⟨.vector .u8, false⟩] h k true) := by
  rw [← congrArg (fun e => Emit.instrs _ (newLocal e (.vector .u8) false).2) he.eq_grow]
  refine ⟨?k, ?counts, ?eq⟩
  case eq =>
    simp (disch := first | omega | (simp <;> omega) | fail) [Helper.ansiBytes, Helper.method]
    rfl
  case counts => constructor <;> simp [UInt16.toNat_max, UInt16.toNat_ofNat'] <;> omega

theorem emitAnsiBytes_lays (he : e.Rests h) (hh : h + 2 < 2 ^ 16) (helper : TypeName) {index : UInt16}
    (inRange : index.toNat < n) :
    ∃ e', Emit.instrs [.ldarg index, .call (Helper.ansiBytes helper),
        .stloc (UInt16.ofNat e.locals.size)] (e.newLocal (.vector .u8) false).2 = ((), e') ∧
      e.Lays n h h 0 e' ∧ e'.locals.size = e.locals.size + 1 := by
  obtain ⟨k, counts, eq⟩ := emitAnsiBytes_eq he.toAt hh helper index
  have high := counts.height
  refine ⟨_, eq, .of_fits [h, h + 1, h + 1] [] counts (by omega) (by simp) rfl ?fits .nil (by simp)
    (by simp), size_locals_grow⟩
  simp [Helper.ansiBytes, Helper.method, inRange]
  omega

/-- Every argument becomes one item on the stack; the address array of a string array has been
made before. -/
theorem emitArgument_lays (he : e.Rests h) (hh : h + 2 < 2 ^ 16) (hl : e.labels.size + 2 < 2 ^ 32)
    (helper : TypeName) {s : ParamSlot} {index : UInt16} (inRange : index.toNat < n)
    {addresses : Option UInt16} (made : s.plan.isStringArray = addresses.isSome)
    (held : ∀ a ∈ addresses, a.toNat < e.locals.size) :
    ∃ e', emitArgument helper s index addresses e = ((), e') ∧ e.Lays n h (h + 1) 2 e' := by
  cases plan : s.plan with
  | direct =>
    obtain ⟨k, counts, eq⟩ := emitArgument_direct he.toAt hh helper index addresses plan
    have high := counts.height
    refine ⟨_, eq, .of_fits [h] [] counts (by omega) (by simp) rfl ?_ .nil (by simp) (by simp)⟩
    simp [inRange]
    omega
  | boolean width =>
    obtain ⟨k, counts, eq⟩ := emitArgument_boolean he.toAt hh helper index addresses plan
    have high := counts.height
    refine ⟨_, eq, .of_fits ([h, h + 1, h + 2] ++ if width = .byte then [h + 1] else []) [] counts
      (by omega) (by simp) rfl ?_ .nil ?_ (by simp)⟩
    · cases width <;> simp [inRange] <;> omega
    · cases width <;> simp
  | byRef =>
    obtain ⟨k, counts, eq⟩ := emitArgument_byRef he.toAt hh helper index addresses plan
    have high := counts.height
    refine ⟨_, eq, .of_fits [h, h + 1, h, h + 1] [] counts (by omega) (by simp) rfl ?_ .nil (by simp)
      (by simp)⟩
    simp [inRange]
    omega
  | unicodeString =>
    obtain ⟨k, counts, eq⟩ := emitArgument_unicodeString he.toAt hh hl helper index addresses plan
    have high := counts.height
    refine ⟨_, eq, .of_fits [h, h + 1, h, h + 1, h + 1, h + 2, h + 1, h + 2] [h + 1] counts (by omega)
      (by simp) rfl ?_ (by simp) (by simp) (by simp)⟩
    simp [inRange, Framework.offsetToStringData]
    omega
  | ansiString =>
    obtain ⟨e₁, eq₁, lays₁, size⟩ := emitAnsiBytes_lays he hh helper inRange
    have labels₁ := lays₁.labels_le
    have bytes : (UInt16.ofNat e.locals.size).toNat < e₁.locals.size := by
      rw [UInt16.toNat_ofNat', size]
      omega
    obtain ⟨e₂, eq₂, lays₂⟩ := emitPinnedArray_lays lays₁.rests hh (by omega)
      (.ldloc (UInt16.ofNat e.locals.size)) rfl rfl rfl bytes .u8
    refine ⟨e₂, ?_, (lays₁.trans lays₂).mono (by omega)⟩
    have number : (e.newLocal (.vector .u8) false).1 = UInt16.ofNat e.locals.size := rfl
    simp only [emitArgument, plan, Emit.bind_apply, Emit.declareLocal_apply, number, eq₁, eq₂]
  | blittableArray =>
    cases array : s.type.array? with
    | none =>
      simp only [emitArgument, plan, array]
      exact emitPinnedArray_lays he hh hl (.ldarg index) rfl rfl rfl inRange _
    | some elements =>
      simp only [emitArgument, plan, array]
      exact emitPinnedArray_lays he hh hl (.ldarg index) rfl rfl rfl inRange _
  | stringArray encoding =>
    cases addresses with
    | none => simp [plan, SlotPlan.isStringArray] at made
    | some a =>
      simp only [emitArgument, plan]
      exact emitPinnedArray_lays he hh hl (.ldloc a) rfl rfl rfl (held a rfl) .intPtr
  | delegate =>
    obtain ⟨k, counts, eq⟩ := emitArgument_delegate he.toAt hh hl helper index addresses plan
    have high := counts.height
    refine ⟨_, eq, .of_fits [h, h + 1, h, h + 1, h + 1, h, h + 1] [h, h + 1] counts (by omega) (by simp)
      rfl ?_ (by simp) (by simp) (by simp)⟩
    simp [inRange, Framework.functionPointerForDelegate]
    omega

/-! ## Results -/

/-- How many items a value of the type is on the stack. -/
def resultHeight (t : TypeRef) : Nat := if t.isVoid then 0 else 1

theorem emitResult_boolean (he : e.At (h + 1)) (hh : h + 2 < 2 ^ 16) {s : ReturnSlot}
    (nonvoid : s.type.isVoid = false) {width : BoolWidth} (plan : s.plan = .boolean width) :
    ∃ k, e.Counts (h + 2) k ∧ emitResult s e = ((), e.grow [.ldcI4 0, .cgtUn] [] [] (h + 1) k true) := by
  rw [← congrArg (emitResult s) he.eq_grow]
  refine ⟨?k, ?counts, ?eq⟩
  case eq =>
    simp (disch := first | omega | (simp <;> omega) | fail) [emitResult, plan, nonvoid]
    rfl
  case counts => constructor <;> simp [UInt16.toNat_max, UInt16.toNat_ofNat'] <;> omega

theorem emitResult_ansiString (he : e.At (h + 1)) (hh : h + 2 < 2 ^ 16) {s : ReturnSlot}
    (nonvoid : s.type.isVoid = false) (plan : s.plan = .ansiString) :
    ∃ k, e.Counts (h + 1) k ∧ emitResult s e =
      ((), e.grow [.call Framework.ptrToStringAnsi] [] [] (h + 1) k true) := by
  rw [← congrArg (emitResult s) he.eq_grow]
  refine ⟨?k, ?counts, ?eq⟩
  case eq =>
    simp (disch := first | omega | (simp <;> omega) | fail)
      [emitResult, plan, nonvoid, Framework.ptrToStringAnsi]
    rfl
  case counts => constructor <;> simp [UInt16.toNat_max, UInt16.toNat_ofNat'] <;> omega

theorem emitResult_unicodeString (he : e.At (h + 1)) (hh : h + 2 < 2 ^ 16) {s : ReturnSlot}
    (nonvoid : s.type.isVoid = false) (plan : s.plan = .unicodeString) :
    ∃ k, e.Counts (h + 1) k ∧ emitResult s e =
      ((), e.grow [.call Framework.ptrToStringUni] [] [] (h + 1) k true) := by
  rw [← congrArg (emitResult s) he.eq_grow]
  refine ⟨?k, ?counts, ?eq⟩
  case eq =>
    simp (disch := first | omega | (simp <;> omega) | fail)
      [emitResult, plan, nonvoid, Framework.ptrToStringUni]
    rfl
  case counts => constructor <;> simp [UInt16.toNat_max, UInt16.toNat_ofNat'] <;> omega

theorem emitResult_delegate (he : e.At (h + 1)) (hh : h + 2 < 2 ^ 16)
    (hl : e.labels.size + 2 < 2 ^ 32) {s : ReturnSlot} (nonvoid : s.type.isVoid = false)
    (plan : s.plan = .delegate) :
    ∃ k, e.Counts (h + 2) k ∧ emitResult s e =
      ((), e.grow
        [.dup, .brtrue (e.label 0), .pop, .ldnull, .br (e.label 1), .ldtoken s.type,
          .call Framework.typeFromHandle, .call Framework.delegateForFunctionPointer,
          .castclass s.type]
        [⟨some (e.position + 5), some (h + 1)⟩, ⟨some (e.position + 9), some (h + 1)⟩] [] (h + 1)
        k true) := by
  rw [← congrArg (emitResult s) he.eq_grow]
  refine ⟨?k, ?counts, ?eq⟩
  case eq =>
    simp (disch := first | omega | (simp <;> omega) | fail)
      [emitResult, plan, nonvoid, Framework.typeFromHandle, Framework.delegateForFunctionPointer]
    rfl
  case counts => constructor <;> simp [UInt16.toNat_max, UInt16.toNat_ofNat'] <;> omega

theorem emitResult_lays (he : e.Rests (h + resultHeight t)) (hh : h + 2 < 2 ^ 16)
    (hl : e.labels.size + 2 < 2 ^ 32) {s : ReturnSlot} (type : s.type = t) :
    ∃ e', emitResult s e = ((), e') ∧ e.Lays n (h + resultHeight t) (h + resultHeight t) 2 e' := by
  subst type
  have stay (plan : emitResult s e = ((), e)) : ∃ e', emitResult s e = ((), e') ∧
      e.Lays n (h + resultHeight s.type) (h + resultHeight s.type) 2 e' :=
    ⟨e, plan, (Lays.refl he).mono (by omega)⟩
  cases void : s.type.isVoid with
  | true => exact stay (by simp [emitResult, void])
  | false =>
    have one : resultHeight s.type = 1 := by simp [resultHeight, void]
    rw [one] at he stay ⊢
    cases plan : s.plan with
    | direct => exact stay (by simp [emitResult, void, plan])
    | byRef => exact stay (by simp [emitResult, void, plan])
    | blittableArray => exact stay (by simp [emitResult, void, plan])
    | stringArray encoding => exact stay (by simp [emitResult, void, plan])
    | boolean width =>
      obtain ⟨k, counts, eq⟩ := emitResult_boolean he.toAt hh void plan
      have high := counts.height
      refine ⟨_, eq, .of_fits [h + 1, h + 2] [] counts (by omega) (by simp) rfl ?_ .nil (by simp)
        (by simp)⟩
      simp
      omega
    | ansiString =>
      obtain ⟨k, counts, eq⟩ := emitResult_ansiString he.toAt hh void plan
      have high := counts.height
      refine ⟨_, eq, .of_fits [h + 1] [] counts (by omega) (by simp) rfl ?_ .nil (by simp) (by simp)⟩
      simp [Framework.ptrToStringAnsi]
      omega
    | unicodeString =>
      obtain ⟨k, counts, eq⟩ := emitResult_unicodeString he.toAt hh void plan
      have high := counts.height
      refine ⟨_, eq, .of_fits [h + 1] [] counts (by omega) (by simp) rfl ?_ .nil (by simp) (by simp)⟩
      simp [Framework.ptrToStringUni]
      omega
    | delegate =>
      obtain ⟨k, counts, eq⟩ := emitResult_delegate he.toAt hh hl void plan
      have high := counts.height
      refine ⟨_, eq, .of_fits [h + 1, h + 2, h + 1, h, h + 1, h + 1, h + 2, h + 2, h + 1]
        [h + 1, h + 1] counts (by omega) (by simp) rfl ?_ (by simp) (by simp) (by simp)⟩
      simp [Framework.typeFromHandle, Framework.delegateForFunctionPointer]
      omega

/-! ## Copies of strings -/

theorem emitCopies_stringArray (he : e.At h) (hh : h + 2 < 2 ^ 16) (helper : TypeName) {s : ParamSlot} (index : Nat)
    (a : UInt16) {encoding : StringEncoding} (plan : s.plan = .stringArray encoding) :
    ∃ k, e.Counts (h + 2) k ∧ emitCopies helper s index (some a) e =
      ((), e.grow
        [.ldarg (UInt16.ofNat index), .ldloc a, .call (Helper.fillAddresses helper encoding)] [] []
        h k true) := by
  rw [← congrArg (emitCopies helper s index (some a)) he.eq_grow]
  refine ⟨?k, ?counts, ?eq⟩
  case eq =>
    simp (disch := first | omega | (simp <;> omega) | fail)
      [emitCopies, plan, Helper.fillAddresses, Helper.method]
    rfl
  case counts => constructor <;> simp [UInt16.toNat_max, UInt16.toNat_ofNat'] <;> omega

theorem emitFrees_some (he : e.At h) (hh : h + 2 < 2 ^ 16) (helper : TypeName) (a : UInt16) :
    ∃ k, e.Counts (h + 1) k ∧ emitFrees helper (some a) e =
      ((), e.grow [.ldloc a, .call (Helper.freeAddresses helper)] [] [] h k true) := by
  rw [← congrArg (emitFrees helper (some a)) he.eq_grow]
  refine ⟨?k, ?counts, ?eq⟩
  case eq =>
    simp (disch := first | omega | (simp <;> omega) | fail)
      [emitFrees, Helper.freeAddresses, Helper.method]
    rfl
  case counts => constructor <;> simp [UInt16.toNat_max, UInt16.toNat_ofNat'] <;> omega

theorem emitCopies_lays (he : e.Rests h) (hh : h + 2 < 2 ^ 16) (helper : TypeName) (s : ParamSlot)
    {index : Nat} (inRange : index < n) {addresses : Option UInt16}
    (held : ∀ a ∈ addresses, a.toNat < e.locals.size) :
    ∃ e', emitCopies helper s index addresses e = ((), e') ∧ e.Lays n h h 0 e' := by
  have stay (none : emitCopies helper s index addresses e = ((), e)) :
      ∃ e', emitCopies helper s index addresses e = ((), e') ∧ e.Lays n h h 0 e' :=
    ⟨e, none, .refl he⟩
  cases plan : s.plan with
  | stringArray encoding =>
    cases addresses with
    | none => exact stay (by simp [emitCopies, plan])
    | some a =>
      obtain ⟨k, counts, eq⟩ := emitCopies_stringArray he.toAt hh helper index a plan
      have high := counts.height
      have there := held a rfl
      refine ⟨_, eq, .of_fits [h, h + 1, h + 2] [] counts (by omega) (by simp) rfl ?_ .nil (by simp)
        (by simp)⟩
      simp [Helper.fillAddresses, Helper.method, there]
      omega
  | _ => exact stay (by simp [emitCopies, plan])

theorem emitFrees_lays (he : e.Rests h) (hh : h + 2 < 2 ^ 16) (helper : TypeName)
    {addresses : Option UInt16} (held : ∀ a ∈ addresses, a.toNat < e.locals.size) :
    ∃ e', emitFrees helper addresses e = ((), e') ∧ e.Lays n h h 0 e' := by
  cases addresses with
  | none => exact ⟨e, rfl, .refl he⟩
  | some a =>
    obtain ⟨k, counts, eq⟩ := emitFrees_some he.toAt hh helper a
    have high := counts.height
    have there := held a rfl
    refine ⟨_, eq, .of_fits [h, h + 1] [] counts (by omega) (by simp) rfl ?_ .nil (by simp) (by simp)⟩
    simp [Helper.freeAddresses, Helper.method, there]
    omega

/-! ## Bodies -/

/-- Slots with the locals of their address arrays, which the string arrays have and no others. -/
def Made (slots : List (ParamSlot × Option UInt16)) : Prop :=
  ∀ slot ∈ slots, slot.1.plan.isStringArray = slot.2.isSome

/-- The locals of address arrays are there. -/
def Held (locals : Nat) (slots : List (ParamSlot × Option UInt16)) : Prop :=
  ∀ slot ∈ slots, ∀ a ∈ slot.2, a.toNat < locals

theorem Held.mono {slots : List (ParamSlot × Option UInt16)} {locals locals' : Nat}
    (held : Held locals slots) (le : locals ≤ locals') : Held locals' slots :=
  fun slot hslot a ha => Nat.lt_of_lt_of_le (held slot hslot a ha) le

theorem toNat_ofNat_lt {index : Nat} (inRange : index < n) : (UInt16.ofNat index).toNat < n := by
  rw [UInt16.toNat_ofNat']
  omega

theorem emitAddressArrayFor_lays (he : e.Rests 0) (hl : e.labels.size + 2 < 2 ^ 32) (s : ParamSlot)
    {index : Nat} (inRange : index < n) :
    ∃ addresses e', emitAddressArrayFor s index e = (addresses, e') ∧
      s.plan.isStringArray = addresses.isSome ∧ (∀ a ∈ addresses, a.toNat < e'.locals.size) ∧
      e.Lays n 0 0 2 e' := by
  cases array : s.plan.isStringArray with
  | false =>
    refine ⟨none, e, ?_, rfl, by simp, (Lays.refl he).mono (by omega)⟩
    simp [emitAddressArrayFor, array]
  | true =>
    obtain ⟨k, counts, eq⟩ := emitAddressArrayFor_stringArray he.toAt hl array index
    have high := counts.height
    have there := toNat_ofNat_lt inRange
    refine ⟨_, _, eq, rfl, ?held, .of_fits [0, 1, 0, 1, 0, 1, 1, 1, 1] [0, 1] counts (by omega)
      (by simp) rfl ?fits (by simp) (by simp) (by simp)⟩
    case held =>
      rintro a ⟨⟩
      rw [size_locals_grow]
      exact toNat_ofNat_lt (Nat.lt_succ_self _)
    case fits =>
      rw [UInt16.toNat_ofNat'] at there
      simp [there]
      omega

/-- The slots of parameters with the locals of their address arrays. -/
def emitSlots (params : List (ParamSlot × Nat)) : Emit (List (ParamSlot × Option UInt16)) :=
  params.mapM fun (slot, index) => do return (slot, ← emitAddressArrayFor slot index)

theorem emitSlots_lays (he : e.Rests 0) (params : List (ParamSlot × Nat))
    (inRange : ∀ param ∈ params, param.2 < n) (hl : e.labels.size + 2 * params.length + 2 < 2 ^ 32) :
    ∃ slots e', emitSlots params e = (slots, e') ∧ slots.map Prod.fst = params.map Prod.fst ∧
      Made slots ∧ Held e'.locals.size slots ∧ e.Lays n 0 0 (2 * params.length) e' := by
  induction params generalizing e with
  | nil => exact ⟨[], e, rfl, rfl, by simp [Made], by simp [Held], .refl he⟩
  | cons param params ih =>
    obtain ⟨s, index⟩ := param
    rw [List.length_cons, Nat.mul_succ] at hl
    obtain ⟨inRange₁, inRange₂⟩ := List.forall_mem_cons.mp inRange
    obtain ⟨addresses, e₁, eq₁, made₁, held₁, lays₁⟩ :=
      emitAddressArrayFor_lays he (by omega) s inRange₁
    have labels₁ := lays₁.labels_le
    obtain ⟨slots, e₂, eq₂, params₂, made₂, held₂, lays₂⟩ := ih lays₁.rests inRange₂ (by omega)
    refine ⟨(s, addresses) :: slots, e₂, ?_, ?_, ?_, ?_, ?_⟩
    · simp only [emitSlots, List.mapM_cons, Emit.bind_apply, Emit.pure_apply, eq₁] at eq₂ ⊢
      rw [eq₂]
    · simp [params₂]
    · exact List.forall_mem_cons.mpr ⟨made₁, made₂⟩
    · refine List.forall_mem_cons.mpr ⟨fun a ha => ?_, held₂⟩
      exact Nat.lt_of_lt_of_le (held₁ a ha) lays₂.locals_le
    · rw [List.length_cons, Nat.mul_succ, Nat.add_comm]
      exact lays₁.trans lays₂

theorem emitArguments_lays {i : Nat} (he : e.Rests h) (helper : TypeName)
    {slots : List (ParamSlot × Option UInt16)} (made : Made slots) (held : Held e.locals.size slots)
    (inRange : i + slots.length ≤ n) (hh : h + slots.length + 2 < 2 ^ 16)
    (hl : e.labels.size + 2 * slots.length + 2 < 2 ^ 32) :
    ∃ e', ((slots.zipIdx i).forM fun ((slot, addresses), index) =>
        emitArgument helper slot (UInt16.ofNat index) addresses) e = ((), e') ∧
      e.Lays n h (h + slots.length) (2 * slots.length) e' := by
  have step (x) (hx : x ∈ slots.zipIdx i) (e' : Emitter) (h : Nat)
      (more : e.locals.size ≤ e'.locals.size) (he : e'.Rests h) (hh : h + 2 < 2 ^ 16)
      (hl : e'.labels.size + 2 < 2 ^ 32) :
      ∃ e'', emitArgument helper x.1.1 (UInt16.ofNat x.2) x.1.2 e' = ((), e'') ∧
        e'.Lays n h (h + 1) 2 e'' := by
    have inside := Nat.lt_of_lt_of_le (List.mem_zipIdx hx).2.1 inRange
    have member := List.fst_mem_of_mem_zipIdx hx
    exact emitArgument_lays he hh hl helper (toNat_ofNat_lt inside) (made x.1 member)
      (held.mono more x.1 member)
  have lays := Emit.forM_lays 1 2 he (by simpa using hh) (by simpa using hl) step
  simpa using lays

theorem emitAllCopies_lays {i : Nat} (he : e.Rests h) (hh : h + 2 < 2 ^ 16) (helper : TypeName)
    {slots : List (ParamSlot × Option UInt16)} (held : Held e.locals.size slots)
    (inRange : i + slots.length ≤ n) (hl : e.labels.size + 2 < 2 ^ 32) :
    ∃ e', ((slots.zipIdx i).forM fun ((slot, addresses), index) =>
        emitCopies helper slot index addresses) e = ((), e') ∧ e.Lays n h h 0 e' := by
  have step (x) (hx : x ∈ slots.zipIdx i) (e' : Emitter) (h : Nat)
      (more : e.locals.size ≤ e'.locals.size) (he : e'.Rests h) (hh : h + 2 < 2 ^ 16)
      (_ : e'.labels.size + 2 < 2 ^ 32) :
      ∃ e'', emitCopies helper x.1.1 x.2 x.1.2 e' = ((), e'') ∧ e'.Lays n h (h + 0) 0 e'' := by
    have inside := Nat.lt_of_lt_of_le (List.mem_zipIdx hx).2.1 inRange
    exact emitCopies_lays he hh helper x.1.1 inside
      (held.mono more x.1 (List.fst_mem_of_mem_zipIdx hx))
  have lays := Emit.forM_lays 0 0 he (by omega) (by omega) step
  simpa using lays

theorem emitAllFrees_lays (he : e.Rests h) (hh : h + 2 < 2 ^ 16) (helper : TypeName)
    {slots : List (ParamSlot × Option UInt16)} (held : Held e.locals.size slots)
    (hl : e.labels.size + 2 < 2 ^ 32) :
    ∃ e', (slots.forM fun (_, addresses) => emitFrees helper addresses) e = ((), e') ∧
      e.Lays n h h 0 e' := by
  have step (slot) (hslot : slot ∈ slots) (e' : Emitter) (h : Nat)
      (more : e.locals.size ≤ e'.locals.size) (he : e'.Rests h) (hh : h + 2 < 2 ^ 16)
      (_ : e'.labels.size + 2 < 2 ^ 32) :
      ∃ e'', emitFrees helper slot.2 e' = ((), e'') ∧ e'.Lays n h (h + 0) 0 e'' :=
    emitFrees_lays he hh helper (held.mono more slot hslot)
  have lays := Emit.forM_lays 0 0 he (by omega) (by omega) step
  simpa using lays

theorem isVoid_nativeType (nonvoid : t.isVoid = false) (plan : SlotPlan) :
    (plan.nativeType t).isVoid = false := by
  cases plan with
  | direct => exact nonvoid
  | boolean width => cases width <;> rfl
  | _ => rfl

/-- The stubs whose code has heights that are words: what is planned fits, nothing is made of a result
that there is not, and there are not too many parameters to stand on the stack at once. -/
structure Countable (owner : TypeName) (s : StubScaffold) : Prop where
  fits : s.Fits owner
  void : s.stub.returns.type.isVoid → s.stub.returns.plan = .direct
  few : s.stub.params.length + 2 < 2 ^ 16

/-- The stubs whose bodies can be emitted: what is planned fits, nothing is made of a result that
there is not, and no counter of the emitter can overflow. -/
structure Emittable (owner : TypeName) (s : StubScaffold) : Prop where
  fits : s.Fits owner
  void : s.stub.returns.type.isVoid → s.stub.returns.plan = .direct
  few : s.stub.params.length < 30000

theorem Emittable.countable {owner : TypeName} {s : StubScaffold} (hs : Emittable owner s) :
    Countable owner s where
  fits := hs.fits
  void := hs.void
  few := by
    have few := hs.few
    omega

namespace Countable

variable {owner : TypeName} {s : StubScaffold}

theorem pops_thunk (hs : Countable owner s) : s.thunk.pops = s.stub.params.length + 1 := by
  rw [hs.fits.thunk, MethodRef.pops_static, hs.fits.callSite]
  simp [StubScaffold.callSiteOf, Stub.nativeParamTypes]

theorem pushes_thunk (hs : Countable owner s) :
    s.thunk.pushes = resultHeight s.stub.returns.type := by
  rw [hs.fits.thunk, MethodRef.pushes_static, hs.fits.callSite]
  simp only [StubScaffold.callSiteOf, ReturnSlot.nativeType, resultHeight]
  cases void : s.stub.returns.type.isVoid with
  | true => simp [hs.void void, SlotPlan.nativeType, void]
  | false => simp [isVoid_nativeType void]

end Countable

theorem resultHeight_le (t : TypeRef) : resultHeight t ≤ 1 := by
  unfold resultHeight
  split <;> decide

/-- The address and the arguments are on the stack, and the thunk takes them. -/
theorem emitThunkCall_eq {owner : TypeName} {s : StubScaffold} (hs : Countable owner s)
    (he : e.At s.stub.params.length) : ∃ k, e.Counts (s.stub.params.length + 1) k ∧
      Emit.instrs [.ldsfld s.cell, .call s.thunk] e = ((), e.grow [.ldsfld s.cell, .call s.thunk] [] []
        (resultHeight s.stub.returns.type) k true) := by
  have few := hs.few
  have pops := hs.pops_thunk
  have pushes := hs.pushes_thunk
  have low := resultHeight_le s.stub.returns.type
  rw [← congrArg (Emit.instrs [.ldsfld s.cell, .call s.thunk]) he.eq_grow]
  refine ⟨?k, ?counts, ?eq⟩
  case eq =>
    simp (disch := first | omega | (simp [*] <;> omega) | fail) [pops, pushes]
    rfl
  case counts => constructor <;> simp [UInt16.toNat_max, UInt16.toNat_ofNat'] <;> omega

theorem emitThunkCall_lays {owner : TypeName} {s : StubScaffold} (hs : Countable owner s)
    (he : e.Rests s.stub.params.length) :
    ∃ e', Emit.instrs [.ldsfld s.cell, .call s.thunk] e = ((), e') ∧
      e.Lays n s.stub.params.length (resultHeight s.stub.returns.type) 0 e' := by
  have pops := hs.pops_thunk
  have pushes := hs.pushes_thunk
  have low := resultHeight_le s.stub.returns.type
  obtain ⟨k, counts, eq⟩ := emitThunkCall_eq hs he.toAt
  have high := counts.height
  refine ⟨_, eq, .of_fits [s.stub.params.length, s.stub.params.length + 1] [] counts (by omega)
    (by simp) rfl ?_ .nil (by simp) (by simp)⟩
  simp [pops, pushes]
  omega

theorem emitCall_lays (he : e.Rests 0) (helper : TypeName) {owner : TypeName} {s : StubScaffold}
    (hs : Countable owner s) {slots : List (ParamSlot × Option UInt16)}
    (params : slots.map Prod.fst = s.stub.params) (made : Made slots)
    (held : Held e.locals.size slots) (hl : e.labels.size + 2 * slots.length + 4 < 2 ^ 32) :
    ∃ e', emitCall helper s slots e = ((), e') ∧
      e.Lays s.stub.params.length 0 (resultHeight s.stub.returns.type) (2 * slots.length + 2) e' := by
  have few := hs.few
  have count : slots.length = s.stub.params.length := by rw [← params, List.length_map]
  obtain ⟨e₁, eq₁, lays₁⟩ := emitArguments_lays (n := s.stub.params.length) (i := 0) he helper made
    held (by omega) (by omega) (by omega)
  have labels₁ := lays₁.labels_le
  rw [Nat.zero_add, count] at lays₁
  obtain ⟨e₂, eq₂, lays₂⟩ := emitThunkCall_lays (n := s.stub.params.length) hs lays₁.rests
  have labels₂ := lays₂.labels_le
  have rests₂ : e₂.Rests (0 + resultHeight s.stub.returns.type) := by
    rw [Nat.zero_add]
    exact lays₂.rests
  obtain ⟨e₃, eq₃, lays₃⟩ :=
    emitResult_lays (n := s.stub.params.length) rests₂ (by omega) (by omega) rfl
  rw [Nat.zero_add] at lays₃
  refine ⟨e₃, ?_, count ▸ (lays₁.trans lays₂).trans lays₃⟩
  simp only [emitCall, Emit.bind_apply, eq₁, eq₂, eq₃]

/-- Ends a try part and makes the finally part that frees the copies. -/
theorem emitFinally_lays (he : e.Rests 0) (helper : TypeName)
    {slots : List (ParamSlot × Option UInt16)} {labels : Nat} (hl : e.labels.size + labels + 4 < 2 ^ 32)
    {e₁ : Emitter} (held : Held e₁.locals.size slots)
    (lays : e.openTry.2.Lays n 0 0 labels e₁) :
    ∃ e', (do
        Emit.beginFinally
        slots.forM fun (_, addresses) => emitFrees helper addresses
        Emit.endTry : Emit Unit) e₁ = ((), e') ∧ e.Lays n 0 0 (labels + 1) e' ∧
      e₁.locals.size ≤ e'.locals.size := by
  obtain ⟨rests, size, locals⟩ := Lays.openFinally he.toAt (by omega) lays
  obtain ⟨e₂, eq₂, lays₂⟩ :=
    emitAllFrees_lays rests (by omega) helper (held.mono (Nat.le_of_eq locals.symm)) (by omega)
  obtain ⟨closed, same⟩ := Lays.protect he.toAt (by omega) lays lays₂
  refine ⟨e₂.closeTry, ?_, closed, by rw [same, ← locals]; exact lays₂.locals_le⟩
  simp only [Emit.bind_apply, Emit.beginFinally_apply, eq₂, Emit.endTry_apply]

theorem storeResult_eq (he : e.At 1) (hm : 1 ≤ e.maxDepth.toNat) (t : TypeRef) :
    ∃ k, e.Counts 1 k ∧ (e.newLocal t false).2.push (.stloc (UInt16.ofNat e.locals.size)) =
      e.grow [.stloc (UInt16.ofNat e.locals.size)] [] [⟨t, false⟩] 0 k true := by
  rw [← congrArg (fun e => (newLocal e t false).2.push _) he.eq_grow]
  refine ⟨?k, ?counts, ?eq⟩
  case eq =>
    simp (disch := first | omega | (simp <;> omega) | fail)
    rfl
  case counts => constructor <;> simp only [UInt16.toNat_max, UInt16.reduceToNat] <;> omega

/-- The result waits in a new local. -/
theorem storeResult_lays (he : e.Rests 1) (t : TypeRef) : ∃ e',
    (e.newLocal t false).2.push (.stloc (UInt16.ofNat e.locals.size)) = e' ∧ e.Lays n 1 0 0 e' ∧
      (UInt16.ofNat e.locals.size).toNat < e'.locals.size := by
  obtain ⟨k, counts, eq⟩ := storeResult_eq he.toAt he.low t
  have high := counts.height
  refine ⟨_, eq, .of_fits [1] [] counts (by omega) (by simp) rfl ?_ .nil (by simp) (by simp), ?_⟩
  · simp
    omega
  · rw [size_locals_grow]
    exact toNat_ofNat_lt (Nat.lt_succ_self _)

theorem loadResult_eq (he : e.At 0) (index : UInt16) :
    ∃ k, e.Counts 1 k ∧ e.push (.ldloc index) = e.grow [.ldloc index] [] [] 1 k true := by
  rw [← congrArg (push · (.ldloc index)) he.eq_grow]
  refine ⟨?k, ?counts, ?eq⟩
  case eq =>
    simp (disch := first | omega | (simp <;> omega) | fail)
    rfl
  case counts => constructor <;> simp only [UInt16.toNat_max, UInt16.reduceToNat] <;> omega

theorem loadResult_lays (he : e.Rests 0) {index : UInt16} (there : index.toNat < e.locals.size) :
    ∃ e', e.push (.ldloc index) = e' ∧ e.Lays n 0 1 0 e' := by
  obtain ⟨k, counts, eq⟩ := loadResult_eq he.toAt index
  refine ⟨_, eq, .of_fits [0] [] counts (by omega) (by simp) rfl ?_ .nil (by simp) (by simp)⟩
  simp [there]

theorem emitProtectedCall_lays (he : e.Rests 0) (helper : TypeName) {owner : TypeName}
    {s : StubScaffold} (hs : Countable owner s) {slots : List (ParamSlot × Option UInt16)}
    (params : slots.map Prod.fst = s.stub.params) (made : Made slots)
    (held : Held e.locals.size slots) (hl : e.labels.size + 2 * slots.length + 8 < 2 ^ 32) :
    ∃ e', emitProtectedCall helper s slots e = ((), e') ∧
      e.Lays s.stub.params.length 0 (resultHeight s.stub.returns.type) (2 * slots.length + 3) e' := by
  have count : slots.length = s.stub.params.length := by rw [← params, List.length_map]
  obtain ⟨opened, openedLabels, openedLocals⟩ := Lays.openTry he
  obtain ⟨e₁, eq₁, lays₁⟩ := emitAllCopies_lays (n := s.stub.params.length) (i := 0) opened (by omega)
    helper (held.mono (Nat.le_of_eq openedLocals.symm)) (by omega) (by omega)
  have labels₁ := lays₁.labels_le
  have held₁ := held.mono (openedLocals ▸ lays₁.locals_le)
  obtain ⟨e₂, eq₂, lays₂⟩ := emitCall_lays lays₁.rests helper hs params made held₁ (by omega)
  have held₂ := held₁.mono lays₂.locals_le
  cases void : s.stub.returns.type.isVoid with
  | true =>
    have zero : resultHeight s.stub.returns.type = 0 := by simp [resultHeight, void]
    rw [zero] at lays₂ ⊢
    obtain ⟨e₃, eq₃, lays₃, -⟩ := emitFinally_lays he helper (by omega) held₂ (lays₁.trans lays₂)
    refine ⟨e₃, ?_, lays₃.mono (by omega)⟩
    simp only [Emit.bind_apply] at eq₃
    simp only [emitProtectedCall, Emit.bind_apply, Emit.beginTry_apply, eq₁, eq₂, void, if_true,
      Emit.pure_apply, eq₃]
  | false =>
    have one : resultHeight s.stub.returns.type = 1 := by simp [resultHeight, void]
    rw [one] at lays₂ ⊢
    obtain ⟨e₃, eq₃, lays₃, kept⟩ := storeResult_lays (n := s.stub.params.length) lays₂.rests
      s.stub.returns.type
    obtain ⟨e₄, eq₄, lays₄, more⟩ := emitFinally_lays he helper (by omega)
      (held₂.mono lays₃.locals_le) ((lays₁.trans lays₂).trans lays₃)
    obtain ⟨e₅, eq₅, lays₅⟩ := loadResult_lays (n := s.stub.params.length) lays₄.rests
      (Nat.lt_of_lt_of_le kept more)
    refine ⟨e₅, ?_, (lays₄.trans lays₅).mono (by omega)⟩
    simp only [Emit.bind_apply] at eq₄
    simp only [emitProtectedCall, Emit.bind_apply, Emit.beginTry_apply, eq₁, eq₂, void,
      Bool.false_eq_true, if_false, Emit.map_apply, Emit.declareLocal_apply, Emit.instr_apply]
    have number : (e₂.newLocal s.stub.returns.type false).1 = UInt16.ofNat e₂.locals.size := rfl
    rw [number, eq₃, eq₄, eq₅]

/-- Fills the address cell when it is zero. -/
def emitReady (s : StubScaffold) : Emit Unit := do
  let ready ← Emit.defineLabel
  Emit.instrs [.ldsfld s.cell, .brtrue ready, .call s.initializer]
  Emit.markLabel ready

theorem emitReady_eq (he : e.At 0) (hl : e.labels.size + 1 < 2 ^ 32) {owner : TypeName}
    {s : StubScaffold} (fits : s.Fits owner) : ∃ k, e.Counts 1 k ∧ emitReady s e =
      ((), e.grow [.ldsfld s.cell, .brtrue (e.label 0), .call s.initializer]
        [⟨some (e.position + 3), some 0⟩] [] 0 k true) := by
  have pops : s.initializer.pops = 0 := by rw [fits.initializer]; rfl
  have pushes : s.initializer.pushes = 0 := by rw [fits.initializer]; rfl
  rw [← congrArg (emitReady s) he.eq_grow]
  refine ⟨?k, ?counts, ?eq⟩
  case eq =>
    simp (disch := first | omega | (simp [pops] <;> omega) | fail) [emitReady, pops, pushes]
    rfl
  case counts => constructor <;> simp only [UInt16.toNat_max, UInt16.reduceToNat] <;> omega

theorem emitReady_lays (he : e.Rests 0) (hl : e.labels.size + 1 < 2 ^ 32) {owner : TypeName}
    {s : StubScaffold} (fits : s.Fits owner) :
    ∃ e', emitReady s e = ((), e') ∧ e.Lays n 0 0 1 e' := by
  have pops : s.initializer.pops = 0 := by rw [fits.initializer]; rfl
  have pushes : s.initializer.pushes = 0 := by rw [fits.initializer]; rfl
  obtain ⟨k, counts, eq⟩ := emitReady_eq he.toAt hl fits
  have high := counts.height
  refine ⟨_, eq, .of_fits [0, 1, 0] [0] counts (by omega) (by simp) rfl ?_ (by simp) (by simp)
    (by simp)⟩
  simp [pops, pushes]
  omega

theorem emit_apply (helper : TypeName) (s : StubScaffold) {slots : List (ParamSlot × Option UInt16)}
    {e₁ : Emitter} (made : emitSlots s.stub.params.zipIdx (emitReady s e).2 = (slots, e₁)) :
    (emit helper s e).2 =
      ((if s.stub.hasStringArrays then emitProtectedCall helper s slots
        else emitCall helper s slots) e₁).2.push .ret := by
  have parts : emit helper s e =
      (do
        let slots ← emitSlots s.stub.params.zipIdx
        if s.stub.hasStringArrays then emitProtectedCall helper s slots
        else emitCall helper s slots
        Emit.instr .ret : Emit Unit) (emitReady s e).2 := rfl
  rw [parts]
  simp only [Emit.bind_apply, made]
  cases s.stub.hasStringArrays <;> rfl

theorem emit_lays (helper : TypeName) {owner : TypeName} {s : StubScaffold}
    (hs : Countable owner s) : ∃ e, (emit helper s Emitter.empty).2 = e.push .ret ∧
      Emitter.empty.Lays s.stub.params.length 0 (resultHeight s.stub.returns.type)
        (4 * s.stub.params.length + 4) e := by
  have few := hs.few
  obtain ⟨e₁, eq₁, lays₁⟩ :=
    emitReady_lays (n := s.stub.params.length) (e := Emitter.empty) rests_empty (by decide) hs.fits
  have labels₁ : e₁.labels.size ≤ 1 := by simpa [Emitter.empty] using lays₁.labels_le
  have count₁ : s.stub.params.zipIdx.length = s.stub.params.length := List.length_zipIdx
  have inRange (param) (hparam : param ∈ s.stub.params.zipIdx) :
      param.2 < s.stub.params.length := by
    have inside := (List.mem_zipIdx hparam).2.1
    rwa [Nat.zero_add] at inside
  obtain ⟨slots, e₂, eq₂, params, made, held, lays₂⟩ :=
    emitSlots_lays lays₁.rests s.stub.params.zipIdx inRange (by omega)
  have labels₂ := lays₂.labels_le
  have count : slots.length = s.stub.params.length := by
    rw [← count₁, ← List.length_map Prod.fst, params, List.length_map]
  rw [List.zipIdx_map_fst] at params
  obtain ⟨e₃, eq₃, lays₃⟩ : ∃ e₃,
      (if s.stub.hasStringArrays then emitProtectedCall helper s slots
        else emitCall helper s slots) e₂ = ((), e₃) ∧
        e₂.Lays s.stub.params.length 0 (resultHeight s.stub.returns.type) (2 * slots.length + 3)
          e₃ := by
    cases s.stub.hasStringArrays with
    | true => exact emitProtectedCall_lays lays₂.rests helper hs params made held (by omega)
    | false =>
      obtain ⟨e₃, eq₃, lays₃⟩ := emitCall_lays lays₂.rests helper hs params made held (by omega)
      exact ⟨e₃, eq₃, lays₃.mono (by omega)⟩
  refine ⟨e₃, ?_, ((lays₁.trans lays₂).trans lays₃).mono (by omega)⟩
  rw [emit_apply helper s (by rw [eq₁]; exact eq₂), eq₃]

/-- Every stub gets a body, and a table of heights that it passes with. The body needs no more room on
the stack than the table says. -/
theorem compile_certified (helper : TypeName) {owner : TypeName} {s : StubScaffold}
    (hs : Countable owner s) : ∃ body heights, compile helper s = .ok body ∧
      body.Certified s.stub.params.length (resultHeight s.stub.returns.type) heights ∧
      (1 :: heights).max? = some body.maxStack.toNat := by
  have few := hs.few
  have low := resultHeight_le s.stub.returns.type
  obtain ⟨e, eq, lays⟩ := emit_lays helper hs
  obtain ⟨body, heights, finished, certified⟩ := lays.certified (by omega) (by omega)
  refine ⟨body, heights, ?_, certified⟩
  rw [compile, Emit.body, eq, finished]
  rfl

/-- Every stub gets a body. -/
theorem compile_isOk (helper : TypeName) {owner : TypeName} {s : StubScaffold}
    (hs : Countable owner s) : ∃ body, compile helper s = .ok body := by
  obtain ⟨body, -, compiled, -, -⟩ := compile_certified helper hs
  exact ⟨body, compiled⟩

end LateBind.StubBody

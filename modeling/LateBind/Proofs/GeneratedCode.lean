import LateBind.Machine.RuntimeMember
import LateBind.Proofs.BoundModule

/-! # What generated code mentions

Of the helper type, the code that late binding puts into other types only calls the methods that load
libraries and those that convert strings. It never stores into a field of the helper type. -/

namespace LateBind

/-- The type whose member an instruction mentions. -/
def Instr.owner? : Instr → Option TypeName
  | ldsfld f | stsfld f => some f.owner
  | call r | newobj r => some r.owner
  | _ => none

/-- Only the instructions count that mention a member of any type. -/
theorem Instr.forall_of_loud {Q : Instr → Prop} (silent : ∀ i : Instr, i.owner? = none → Q i)
    {is : List Instr} (loud : List Instr) (code : is.filter (fun i => i.owner?.isSome) = loud)
    (h : ∀ i ∈ loud, Q i) : ∀ i ∈ is, Q i := by
  intro i hi
  cases mentions : i.owner? with
  | none => exact silent i mentions
  | some owner => exact h i (code ▸ List.mem_filter.mpr ⟨hi, by rw [mentions]; rfl⟩)

namespace Module

/-- No body of the module mentions a member of the type. -/
def Spares (m : Module) (name : TypeName) : Prop :=
  ∀ t ∈ m.types, ∀ method ∈ t.methods, ∀ body ∈ method.body, ∀ i ∈ body.instrs,
    i.owner? ≠ some name

end Module

namespace Helper

variable {helper : TypeName}

/-- The methods of the helper type that other types call. -/
def entries (helper : TypeName) : List MethodRef :=
  [loadLibrary helper, getProcAddress helper, ansiBytes helper, fillAddresses helper .ansi,
    fillAddresses helper .unicode, freeAddresses helper]

/-- The methods of the helper type that convert strings for stubs. -/
def conversions (helper : TypeName) : List MethodRef :=
  [ansiBytes helper, fillAddresses helper .ansi, fillAddresses helper .unicode,
    freeAddresses helper]

/-- The instruction may stand in code outside the helper type. -/
def Respects (helper : TypeName) : Instr → Prop
  | .stsfld f => f.owner ≠ helper
  | .call r => r.owner = helper → r ∈ entries helper
  | _ => True

theorem respects_of_silent {i : Instr} (silent : i.owner? = none) : Respects helper i := by
  cases i with
  | stsfld f => cases silent
  | call r => cases silent
  | _ => trivial

theorem Respects.of_owner {i : Instr} (other : i.owner? ≠ some helper) : Respects helper i := by
  cases i with
  | stsfld f => exact fun same => other (congrArg some same)
  | call r => exact fun same => absurd (congrArg some same) other
  | _ => trivial

theorem respects_code {is : List Instr} (loud : List Instr)
    (code : is.filter (fun i => i.owner?.isSome) = loud) (h : ∀ i ∈ loud, Respects helper i) :
    ∀ i ∈ is, Respects helper i :=
  Instr.forall_of_loud (fun _ => respects_of_silent) loud code h

theorem respects_call_of_ne {r : MethodRef} (other : r.owner ≠ helper) :
    Respects helper (.call r) := fun same => absurd same other

theorem respects_call_entry {r : MethodRef} (entry : r ∈ entries helper) :
    Respects helper (.call r) := fun _ => entry

theorem respects_loadLibrary : Respects helper (.call (loadLibrary helper)) :=
  respects_call_entry (by simp [entries])

theorem respects_getProcAddress : Respects helper (.call (getProcAddress helper)) :=
  respects_call_entry (by simp [entries])

end Helper

/-- Every instruction of the method's body satisfies the property. -/
def MethodDef.Only (Q : Instr → Prop) (method : MethodDef) : Prop :=
  ∀ body ∈ method.body, ∀ i ∈ body.instrs, Q i

/-! ## Emitted instructions -/

variable {α β : Type} {Q : Instr → Prop}

namespace Emitter

variable {e e' e'' : Emitter}

/-- The second state has more instructions behind those of the first, which all satisfy the
property. -/
def Adds (Q : Instr → Prop) (e e' : Emitter) : Prop :=
  ∃ is : List Instr, e'.instrs.toList = e.instrs.toList ++ is ∧ ∀ i ∈ is, Q i

theorem Adds.of_eq (same : e'.instrs = e.instrs) : e.Adds Q e' :=
  ⟨[], by rw [same, List.append_nil], by simp⟩

theorem Adds.trans (first : e.Adds Q e') (second : e'.Adds Q e'') : e.Adds Q e'' := by
  obtain ⟨is, eq, all⟩ := first
  obtain ⟨is', eq', all'⟩ := second
  exact ⟨is ++ is', by rw [eq', eq, List.append_assoc], List.forall_mem_append.mpr ⟨all, all'⟩⟩

theorem Adds.congr (adds : e.Adds Q e') (same : e''.instrs = e'.instrs) : e.Adds Q e'' :=
  adds.trans (.of_eq same)

theorem instrs_recordBranch (e : Emitter) (l : Label) : (e.recordBranch l).instrs = e.instrs := by
  unfold recordBranch
  split <;> rfl

theorem instrs_applyEffect (e : Emitter) (i : Instr) : (e.applyEffect i).instrs = e.instrs := by
  unfold applyEffect
  dsimp only
  split <;> rfl

theorem instrs_applyFlow (e : Emitter) (i : Instr) : (e.applyFlow i).instrs = e.instrs := by
  unfold applyFlow
  split <;> rfl

theorem instrs_push (e : Emitter) (i : Instr) : (e.push i).instrs = e.instrs.push i := by
  have records (ls : List Label) (e : Emitter) : (ls.foldl recordBranch e).instrs = e.instrs := by
    induction ls generalizing e with
    | nil => rfl
    | cons l ls ih => rw [List.foldl_cons, ih, instrs_recordBranch]
  unfold push
  dsimp only
  rw [instrs_applyFlow, records, instrs_applyEffect]

theorem instrs_placeLabel (e : Emitter) (l : Label) : (e.placeLabel l).instrs = e.instrs := by
  unfold placeLabel
  split
  · rfl
  · split
    · rfl
    · dsimp only
      split <;> rfl

theorem adds_push (e : Emitter) {i : Instr} (hi : Q i) : e.Adds Q (e.push i) :=
  ⟨[i], by rw [instrs_push, Array.toList_push], List.forall_mem_singleton.mpr hi⟩

theorem adds_openTry (e : Emitter) : e.Adds Q e.openTry.2 := by
  refine .of_eq ?_
  unfold openTry
  dsimp only
  split <;> rfl

theorem adds_openFinally (e : Emitter) (leave : ∀ l, Q (.leave l)) : e.Adds Q e.openFinally := by
  unfold openFinally
  split
  · exact .of_eq rfl
  · next region outer _ =>
    have closed : e.Adds Q (if e.reachable then e.push (.leave region.exit) else e) := by
      split
      · exact adds_push e (leave _)
      · exact .of_eq rfl
    dsimp only
    split <;> exact closed.congr rfl

theorem adds_closeTry (e : Emitter) (endfinally : Q .endfinally) : e.Adds Q e.closeTry := by
  unfold closeTry
  split
  · exact .of_eq rfl
  · next region outer _ =>
    dsimp only
    split
    · exact .of_eq rfl
    · refine Adds.congr ?_ (instrs_placeLabel _ _)
      split
      · exact (Adds.of_eq rfl).trans (adds_push { e with openRegions := outer } endfinally)
      · exact .of_eq rfl

end Emitter

theorem map_eq_ok {ε : Type} {x : Except ε α} {f : α → β} {b : β} (h : x.map f = .ok b) :
    ∃ a, x = .ok a ∧ f a = b := by
  cases x with
  | error e => cases h
  | ok a => exact ⟨a, rfl, Except.ok.inj h⟩

namespace Emit

/-- Every instruction that is emitted satisfies the property, and those before stay. -/
def Only (Q : Instr → Prop) (x : Emit α) : Prop := ∀ e : Emitter, e.Adds Q (x e).2

theorem only_pure (a : α) : Only Q (pure a) := fun _ => .of_eq rfl

theorem Only.bind {x : Emit α} {f : α → Emit β} (hx : Only Q x) (hf : ∀ a, Only Q (f a)) :
    Only Q (x >>= f) := fun e => (hx e).trans (hf _ _)

theorem Only.map {x : Emit α} (hx : Only Q x) (f : α → β) : Only Q (f <$> x) := hx

theorem only_forM {l : List α} {f : α → Emit PUnit} (hf : ∀ a, Only Q (f a)) :
    Only Q (l.forM f) := by
  induction l with
  | nil => exact only_pure _
  | cons a l ih => exact (hf a).bind fun _ => ih

theorem only_mapM {l : List α} {f : α → Emit β} (hf : ∀ a, Only Q (f a)) :
    Only Q (l.mapM f) := by
  induction l with
  | nil => exact only_pure _
  | cons a l ih =>
    rw [List.mapM_cons]
    exact (hf a).bind fun _ => ih.bind fun _ => only_pure _

theorem only_instr {i : Instr} (hi : Q i) : Only Q (instr i) := fun e => e.adds_push hi

theorem only_instrs {is : List Instr} (hi : ∀ i ∈ is, Q i) : Only Q (instrs is) := by
  intro e
  rw [instrs_apply]
  induction is generalizing e with
  | nil => exact .of_eq rfl
  | cons i is ih =>
    rw [List.forall_mem_cons] at hi
    exact (e.adds_push hi.1).trans (ih hi.2 _)

theorem only_defineLabel : Only Q defineLabel := fun _ => .of_eq rfl

theorem only_markLabel (l : Label) : Only Q (markLabel l) := by
  intro e
  rw [markLabel_apply]
  exact .of_eq (e.instrs_placeLabel l)

theorem only_declareLocal (t : TypeRef) : Only Q (declareLocal t) := fun _ => .of_eq rfl

theorem only_declarePinned (t : TypeRef) : Only Q (declarePinned t) := fun _ => .of_eq rfl

theorem only_beginTry : Only Q beginTry := fun e => e.adds_openTry

theorem only_beginFinally (leave : ∀ l, Q (.leave l)) : Only Q beginFinally :=
  fun e => e.adds_openFinally leave

theorem only_endTry (endfinally : Q .endfinally) : Only Q endTry := fun e => e.adds_closeTry endfinally

theorem instrs_of_body {x : Emit Unit} {body : Body} (made : Emit.body x = .ok body) :
    body.instrs = (x Emitter.empty).2.instrs.toList := by
  unfold Emit.body Emitter.finish at made
  split at made
  · cases made
  · obtain ⟨labels, -, rfl⟩ := map_eq_ok made
    rfl

theorem Only.body {x : Emit Unit} (hx : Only Q x) {body : Body} (made : Emit.body x = .ok body) :
    ∀ i ∈ body.instrs, Q i := by
  obtain ⟨is, eq, all⟩ := hx Emitter.empty
  have code : body.instrs = is := (instrs_of_body made).trans eq
  rw [code]
  exact all

/-- The instruction is among those emitted so far. -/
def Emits (i : Instr) (x : Emit α) : Prop := ∀ e : Emitter, i ∈ (x e).2.instrs.toList

theorem emits_instrs {is : List Instr} {i : Instr} (hi : i ∈ is) : Emits i (instrs is) := by
  intro e
  obtain ⟨before, after, rfl⟩ := List.append_of_mem hi
  have adds : Only (fun _ => True) (instrs after) := only_instrs fun _ _ => trivial
  obtain ⟨is, eq, -⟩ := adds ((before.foldl Emitter.push e).push i)
  rw [instrs_apply] at eq ⊢
  rw [List.foldl_append, List.foldl_cons, eq, Emitter.instrs_push]
  simp

theorem Emits.bind_only {i : Instr} {x : Emit α} {f : α → Emit β} (hx : Emits i x)
    (hf : ∀ a, Only Q (f a)) : Emits i (x >>= f) := by
  intro e
  obtain ⟨is, eq, -⟩ := hf (x e).1 (x e).2
  rw [bind_apply, eq]
  exact List.mem_append_left is (hx e)

theorem Emits.of_bind {i : Instr} {x : Emit α} {f : α → Emit β} (hf : ∀ a, Emits i (f a)) :
    Emits i (x >>= f) := fun _ => hf _ _

theorem Emits.body {i : Instr} {x : Emit Unit} (hx : Emits i x) {body : Body}
    (made : Emit.body x = .ok body) : i ∈ body.instrs := by
  rw [instrs_of_body made]
  exact hx Emitter.empty

end Emit

theorem MethodDef.only_generated {visibility : Visibility} {name : String}
    {params : List (String × TypeRef)} {returnType : TypeRef} {code : Emit Unit}
    {method : MethodDef} (only : Emit.Only Q code)
    (made : generated visibility name params returnType code = .ok method) :
    method.Only Q := by
  unfold generated at made
  cases emitted : Emit.body code with
  | error e =>
    rw [emitted] at made
    cases made
  | ok body =>
    rw [emitted] at made
    cases made
    intro body' same
    cases same
    exact only.body emitted

/-! ## Code for stubs -/

section Stubs

open Helper

variable {helper owner : TypeName} {s : StubScaffold}

theorem Emit.only_code (silent : ∀ i : Instr, i.owner? = none → Q i) {is : List Instr}
    (loud : List Instr) (code : is.filter (fun i => i.owner?.isSome) = loud)
    (h : ∀ i ∈ loud, Q i) : Emit.Only Q (Emit.instrs is) :=
  Emit.only_instrs (Instr.forall_of_loud silent loud code h)

/-- The members that the body of a stub mentions: the stub's own, the conversions of strings, and
members of the framework's library. -/
def StubScaffold.Uses (helper : TypeName) (s : StubScaffold) : Instr → Prop
  | .ldsfld f => f = s.cell
  | .stsfld _ | .newobj _ => False
  | .call r => r = s.initializer ∨ r = s.thunk ∨ r ∈ conversions helper ∨
      ∃ member : RuntimeMember, r = member.ref
  | _ => True

namespace StubBody

theorem uses_of_silent (i : Instr) (silent : i.owner? = none) : s.Uses helper i := by
  cases i with
  | ldsfld f => cases silent
  | stsfld f => cases silent
  | call r => cases silent
  | newobj r => cases silent
  | _ => trivial

theorem uses_member (member : RuntimeMember) : s.Uses helper (.call member.ref) :=
  .inr (.inr (.inr ⟨member, rfl⟩))

theorem uses_conversion {r : MethodRef} (mem : r ∈ conversions helper) : s.Uses helper (.call r) :=
  .inr (.inr (.inl mem))

theorem uses_code {is : List Instr} (loud : List Instr)
    (code : is.filter (fun i => i.owner?.isSome) = loud) (h : ∀ i ∈ loud, s.Uses helper i) :
    Emit.Only (s.Uses helper) (Emit.instrs is) :=
  Emit.only_code uses_of_silent loud code h

theorem uses_silent {is : List Instr} (code : is.filter (fun i => i.owner?.isSome) = []) :
    Emit.Only (s.Uses helper) (Emit.instrs is) :=
  uses_code [] code (by simp)

theorem uses_emitPinnedArray {load : Instr} (silent : load.owner? = none) (element : TypeRef) :
    Emit.Only (s.Uses helper) (emitPinnedArray load element) := by
  refine (Emit.only_declarePinned _).bind fun pin => Emit.only_defineLabel.bind fun empty =>
    Emit.only_defineLabel.bind fun done => ?_
  refine (uses_silent (by simp only [List.filter_cons, silent]; rfl)).bind fun _ =>
    (Emit.only_markLabel _).bind fun _ => ?_
  exact (uses_silent rfl).bind fun _ => Emit.only_markLabel _

theorem uses_emitAddressArrayFor (slot : ParamSlot) (index : Nat) :
    Emit.Only (s.Uses helper) (emitAddressArrayFor slot index) := by
  unfold emitAddressArrayFor
  split
  · refine (Emit.only_declareLocal _).bind fun addresses => Emit.Only.bind ?_ fun _ =>
      Emit.only_pure _
    refine Emit.only_defineLabel.bind fun present => Emit.only_defineLabel.bind fun sized => ?_
    refine (uses_silent rfl).bind fun _ =>
      (Emit.only_markLabel _).bind fun _ => ?_
    exact (uses_silent rfl).bind fun _ =>
      (Emit.only_markLabel _).bind fun _ => uses_silent rfl
  · exact Emit.only_pure _

theorem uses_emitCopies (slot : ParamSlot) (index : Nat) (addresses : Option UInt16) :
    Emit.Only (s.Uses helper) (emitCopies helper slot index addresses) := by
  have fills (encoding : StringEncoding) : s.Uses helper (.call (fillAddresses helper encoding)) :=
    uses_conversion (by cases encoding <;> simp [conversions])
  unfold emitCopies
  split
  · exact uses_code [_] rfl (List.forall_mem_singleton.mpr (fills _))
  · exact Emit.only_pure _

theorem uses_emitFrees (addresses : Option UInt16) :
    Emit.Only (s.Uses helper) (emitFrees helper addresses) := by
  have frees : s.Uses helper (.call (freeAddresses helper)) :=
    uses_conversion (by simp [conversions])
  unfold emitFrees
  split
  · exact uses_code [_] rfl (List.forall_mem_singleton.mpr frees)
  · exact Emit.only_pure _

theorem uses_emitArgument (slot : ParamSlot) (index : UInt16) (addresses : Option UInt16) :
    Emit.Only (s.Uses helper) (emitArgument helper slot index addresses) := by
  unfold emitArgument
  split
  · exact Emit.only_instr trivial
  · refine (uses_silent rfl).bind fun _ => ?_
    split
    · exact Emit.only_instr trivial
    · exact Emit.only_pure _
  · exact (Emit.only_declarePinned _).bind fun pin => uses_silent rfl
  · exact uses_emitPinnedArray rfl _
  · refine (Emit.only_declarePinned _).bind fun pin => Emit.only_defineLabel.bind fun null => ?_
    exact (uses_code [_] rfl
      (List.forall_mem_singleton.mpr (uses_member .offsetToStringData))).bind fun _ =>
        Emit.only_markLabel _
  · have bytes : s.Uses helper (.call (ansiBytes helper)) :=
      uses_conversion (by simp [conversions])
    refine (Emit.only_declareLocal _).bind fun array => ?_
    exact (uses_code [_] rfl (List.forall_mem_singleton.mpr bytes)).bind fun _ =>
      uses_emitPinnedArray rfl _
  · split
    · exact uses_emitPinnedArray rfl _
    · exact Emit.only_pure _
  · refine Emit.only_defineLabel.bind fun present => Emit.only_defineLabel.bind fun done => ?_
    refine (uses_silent rfl).bind fun _ => ?_
    refine (uses_silent rfl).bind fun _ => ?_
    refine (Emit.only_instr trivial).bind fun _ => (Emit.only_markLabel _).bind fun _ => ?_
    exact (uses_code [_] rfl
      (List.forall_mem_singleton.mpr (uses_member .functionPointerForDelegate))).bind fun _ =>
        Emit.only_markLabel _

theorem uses_emitResult (slot : ReturnSlot) : Emit.Only (s.Uses helper) (emitResult slot) := by
  unfold emitResult
  split
  · exact Emit.only_pure _
  · split
    · exact uses_silent rfl
    · exact Emit.only_instr (uses_member .ptrToStringAnsi)
    · exact Emit.only_instr (uses_member .ptrToStringUni)
    · refine Emit.only_defineLabel.bind fun present => Emit.only_defineLabel.bind fun done => ?_
      refine (uses_silent rfl).bind fun _ =>
        (Emit.only_markLabel _).bind fun _ => ?_
      exact (uses_code [_, _] rfl (List.forall_mem_cons.mpr ⟨uses_member .typeFromHandle,
        List.forall_mem_singleton.mpr (uses_member .delegateForFunctionPointer)⟩)).bind fun _ =>
          Emit.only_markLabel _
    all_goals exact Emit.only_pure _

theorem uses_emitCall (slots : List (ParamSlot × Option UInt16)) :
    Emit.Only (s.Uses helper) (emitCall helper s slots) := by
  refine (Emit.only_forM fun _ => uses_emitArgument _ _ _).bind fun _ => ?_
  exact (uses_code [.ldsfld s.cell, .call s.thunk] rfl (List.forall_mem_cons.mpr
    ⟨rfl, List.forall_mem_singleton.mpr (.inr (.inl rfl))⟩)).bind fun _ => uses_emitResult _

/-- What follows the protected call frees the copies of strings. -/
theorem emitProtectedCall_eq (helper : TypeName) (s : StubScaffold)
    (slots : List (ParamSlot × Option UInt16)) :
    ∃ rest : Emit Unit, Emit.Only (s.Uses helper) rest ∧
      emitProtectedCall helper s slots = (do
        let _ ← Emit.beginTry
        slots.zipIdx.forM fun ((slot, addresses), index) => emitCopies helper slot index addresses
        emitCall helper s slots
        rest) := by
  refine ⟨_, ?_, rfl⟩
  have frees : Emit.Only (s.Uses helper) (slots.forM fun slot => emitFrees helper slot.2) :=
    Emit.only_forM fun _ => uses_emitFrees _
  have closes {after : Emit Unit} (h : Emit.Only (s.Uses helper) after) :
      Emit.Only (s.Uses helper) (do
        Emit.beginFinally
        slots.forM fun slot => emitFrees helper slot.2
        Emit.endTry
        after) :=
    (Emit.only_beginFinally fun _ => trivial).bind fun _ => frees.bind fun _ =>
      (Emit.only_endTry trivial).bind fun _ => h
  split
  case' isTrue => refine (Emit.only_pure none).bind fun result => ?_
  case' isFalse => refine ((Emit.only_declareLocal _).map some).bind fun result => ?_
  all_goals
    cases result with
    | none => exact closes (Emit.only_pure _)
    | some result =>
      exact Emit.Only.bind (Emit.only_instr (i := .stloc result) trivial) fun _ =>
        closes (Emit.only_instr (i := .ldloc result) trivial)

theorem uses_emitProtectedCall (slots : List (ParamSlot × Option UInt16)) :
    Emit.Only (s.Uses helper) (emitProtectedCall helper s slots) := by
  obtain ⟨rest, only, eq⟩ := emitProtectedCall_eq helper s slots
  rw [eq]
  exact Emit.only_beginTry.bind fun _ => (Emit.only_forM fun _ => uses_emitCopies _ _ _).bind
    fun _ => (uses_emitCall slots).bind fun _ => only

theorem emits_thunk_emitCall (slots : List (ParamSlot × Option UInt16)) :
    Emit.Emits (.call s.thunk) (emitCall helper s slots) := by
  have result : Emit.Only (s.Uses helper) (emitResult s.stub.returns) := uses_emitResult _
  exact .of_bind fun _ => (Emit.emits_instrs (by simp)).bind_only fun _ => result

theorem emits_thunk_emitProtectedCall (slots : List (ParamSlot × Option UInt16)) :
    Emit.Emits (.call s.thunk) (emitProtectedCall helper s slots) := by
  obtain ⟨rest, only, eq⟩ := emitProtectedCall_eq helper s slots
  rw [eq]
  exact .of_bind fun _ => .of_bind fun _ => (emits_thunk_emitCall slots).bind_only fun _ => only

/-- The check of the cell comes first, the call of the thunk after it. -/
theorem emit_eq (helper : TypeName) (s : StubScaffold) :
    ∃ rest : Label → Emit Unit, (∀ ready, Emit.Only (s.Uses helper) (rest ready)) ∧
      (∀ ready, Emit.Emits (.call s.thunk) (rest ready)) ∧
      emit helper s = (do
        let ready ← Emit.defineLabel
        Emit.instrs [.ldsfld s.cell, .brtrue ready, .call s.initializer]
        rest ready) := by
  have ret : Emit.Only (s.Uses helper) (Emit.instr .ret) := Emit.only_instr trivial
  refine ⟨_, fun ready => ?only, fun ready => ?thunk, rfl⟩
  case only =>
    refine (Emit.only_markLabel _).bind fun _ => ?_
    refine (Emit.only_mapM fun _ => (uses_emitAddressArrayFor _ _).bind fun _ =>
      Emit.only_pure _).bind fun slots => ?_
    split
    · exact (uses_emitProtectedCall slots).bind fun _ => ret
    · exact (uses_emitCall slots).bind fun _ => ret
  case thunk =>
    refine .of_bind fun _ => .of_bind fun slots => ?_
    split
    · exact (emits_thunk_emitProtectedCall slots).bind_only fun _ => ret
    · exact (emits_thunk_emitCall slots).bind_only fun _ => ret

theorem body_of_compile {body : Body} (made : compile helper s = .ok body) :
    Emit.body (emit helper s) = .ok body := by
  unfold compile at made
  cases emitted : Emit.body (emit helper s) with
  | error e =>
    rw [emitted] at made
    cases made
  | ok body' =>
    rw [emitted] at made
    cases made
    rfl

/-- The body that replaces a stub mentions no members of other stubs. -/
theorem uses_of_compile {body : Body} (made : compile helper s = .ok body) :
    ∀ i ∈ body.instrs, s.Uses helper i := by
  obtain ⟨rest, only, -, eq⟩ := emit_eq helper s
  have whole : Emit.Only (s.Uses helper) (emit helper s) := by
    rw [eq]
    exact Emit.only_defineLabel.bind fun ready =>
      (uses_code [.ldsfld s.cell, .call s.initializer] rfl (List.forall_mem_cons.mpr
        ⟨rfl, List.forall_mem_singleton.mpr (.inl rfl)⟩)).bind fun _ => only ready
  exact whole.body (body_of_compile made)

/-- The body that replaces a stub mentions every member of that stub. -/
theorem mem_of_compile {body : Body} (made : compile helper s = .ok body) :
    ∀ i ∈ [Instr.ldsfld s.cell, .call s.initializer, .call s.thunk], i ∈ body.instrs := by
  obtain ⟨rest, only, thunk, eq⟩ := emit_eq helper s
  have emitted := body_of_compile made
  rw [eq] at emitted
  have check {i : Instr} {ready : Label → List Instr} (hi : ∀ l, i ∈ ready l) :
      Emit.Emits i (do
        let l ← Emit.defineLabel
        Emit.instrs (ready l)
        rest l) :=
    .of_bind fun l => (Emit.emits_instrs (hi l)).bind_only fun _ => only l
  simp only [List.forall_mem_cons]
  refine ⟨(check ?_).body emitted, (check ?_).body emitted, ?_, by simp⟩
  · simp
  · simp
  · exact Emit.Emits.body (.of_bind fun ready => .of_bind fun _ => thunk ready) emitted

end StubBody

theorem LibraryScaffold.only_loaderDef (silent : ∀ i : Instr, i.owner? = none → Q i)
    {l : LibraryScaffold} (load : Q (.call (loadLibrary helper))) (cell : Q (.stsfld l.cell))
    {method : MethodDef} (made : l.loaderDef helper = .ok method) : method.Only Q := by
  refine MethodDef.only_generated ?_ made
  exact Emit.only_code silent [_, _] rfl
    (List.forall_mem_cons.mpr ⟨load, List.forall_mem_singleton.mpr cell⟩)

namespace StubScaffold

variable {method : MethodDef}

theorem only_thunkDef (silent : ∀ i : Instr, i.owner? = none → Q i)
    (made : s.thunkDef = .ok method) : method.Only Q := by
  have only : Emit.Only Q s.emitThunk := by
    refine (Emit.only_instrs fun i hi => ?_).bind fun _ => Emit.only_code silent [] rfl (by simp)
    obtain ⟨index, -, rfl⟩ := List.mem_map.mp hi
    exact silent _ rfl
  obtain ⟨thunk, generated, rfl⟩ := map_eq_ok made
  have kept : thunk.Only Q := MethodDef.only_generated only generated
  exact kept

theorem only_initializerDef (silent : ∀ i : Instr, i.owner? = none → Q i)
    (handle : Q (.ldsfld s.library.cell)) (load : Q (.call s.library.loader))
    (find : Q (.call (getProcAddress helper))) (cell : Q (.stsfld s.cell))
    (made : s.initializerDef helper = .ok method) : method.Only Q := by
  refine MethodDef.only_generated (Emit.only_defineLabel.bind fun loaded => ?_) made
  refine (Emit.only_code silent [.ldsfld _, _] rfl ?_).bind fun _ =>
    (Emit.only_markLabel _).bind fun _ => Emit.only_code silent [.ldsfld _, _, _] rfl ?_
  · exact List.forall_mem_cons.mpr ⟨handle, List.forall_mem_singleton.mpr load⟩
  · exact List.forall_mem_cons.mpr
      ⟨handle, List.forall_mem_cons.mpr ⟨find, List.forall_mem_singleton.mpr cell⟩⟩

/-- Of the helper type, the body of a stub of another type only calls conversions. -/
theorem Uses.respects (other : owner ≠ helper)
    (framework : ∀ member : RuntimeMember, member.ref.owner ≠ helper) (fits : s.Fits owner)
    {i : Instr} (uses : s.Uses helper i) : Respects helper i := by
  cases i with
  | stsfld f => exact uses.elim
  | call r =>
    rcases uses with rfl | rfl | mem | ⟨member, rfl⟩
    · exact respects_call_of_ne (by rw [fits.initializer]; exact other)
    · exact respects_call_of_ne (by rw [fits.thunk]; exact other)
    · exact respects_call_entry (List.mem_cons_of_mem _ (List.mem_cons_of_mem _ mem))
    · exact respects_call_of_ne (framework member)
  | _ => trivial

end StubScaffold

end Stubs

/-! ## Code of the bound module -/

namespace Module

open Helper

variable {m : Module} {c : Config} {found : ImportTable} {types : List TypeScaffold}
  {bodies : List (MethodHandle × Body)} {helper : TypeDef}
  (binds : m.Binds c found types bodies helper)

include binds

/-- What is planned, is planned for another type than the helper type. -/
theorem Binds.fits_of_mem {planned : TypeScaffold} (hp : planned ∈ types) :
    ∃ t imports, t.name ≠ c.helperType ∧ planned.Fits c t imports := by
  obtain ⟨imports, -, t, own, fits, -, -⟩ := List.exists_left_of_forall₂ binds.planned hp
  exact ⟨t, imports, binds.free t (List.mem_of_find?_eq_some own), fits⟩

theorem Binds.only_methods {planned : TypeScaffold} (hp : planned ∈ types) :
    ∀ method ∈ planned.methods c.helperType, method.Only (Respects c.helperType) := by
  obtain ⟨t, imports, other, fits⟩ := binds.fits_of_mem hp
  intro method hm
  rcases List.mem_append.mp hm with hm | hm
  · obtain ⟨l, hl, hm⟩ := List.mem_flatMap.mp hm
    have cell : Respects c.helperType (.stsfld l.cell) := by
      rw [(fits.library l hl).cell]
      exact other
    exact LibraryScaffold.only_loaderDef (fun _ => respects_of_silent) respects_loadLibrary cell
      (TypeScaffold.mem_libraryMethods.mp hm)
  · obtain ⟨s, hs, hm⟩ := List.mem_flatMap.mp hm
    obtain ⟨fitsStub, library⟩ := fits.stub s hs
    rcases TypeScaffold.mem_stubMethods.mp hm with made | made
    · have loader : Respects c.helperType (.call s.library.loader) :=
        respects_call_of_ne (by rw [(fits.library _ library).loader]; exact other)
      have cell : Respects c.helperType (.stsfld s.cell) := by
        rw [fitsStub.cell]
        exact other
      exact StubScaffold.only_initializerDef (fun _ => respects_of_silent) trivial loader
        respects_getProcAddress cell made
    · exact StubScaffold.only_thunkDef (fun _ => respects_of_silent) made

/-- Outside the helper type no code of the bound module stores into a field of it, and of its methods
only the entries are called, when that holds of the module before. -/
theorem Binds.only_boundLate (id : Uuid) (spares : m.Spares c.helperType)
    (framework : ∀ member : RuntimeMember, member.ref.owner ≠ c.helperType) :
    ∀ t ∈ (m.boundLate c types bodies helper id).types, t.name ≠ c.helperType →
      ∀ method ∈ t.methods, method.Only (Respects c.helperType) := by
  intro t ht outside method hm
  obtain ⟨i, own⟩ := List.getElem?_of_mem ht
  obtain ⟨j, at_⟩ := List.getElem?_of_mem hm
  rcases binds.method_cases id own at_ with
    ⟨old, own', at'⟩ | ⟨old, stub, body, own', at', hb, rfl⟩ | ⟨planned, hp, hm⟩ | rfl
  · intro body hb instr hi
    exact Respects.of_owner
      (spares _ (List.mem_of_getElem? own') _ (List.mem_of_getElem? at') body hb instr hi)
  · obtain ⟨s, hs, -, compiled⟩ :=
      List.exists_left_of_forall₂ (compileStubs_spec binds.compiled) hb
    obtain ⟨planned, hp, hs⟩ := List.mem_flatMap.mp hs
    obtain ⟨t, imports, other, fits⟩ := binds.fits_of_mem hp
    intro body' same
    cases same
    exact fun i hi => (StubBody.uses_of_compile compiled i hi).respects other framework
      (fits.stub s hs).1
  · exact binds.only_methods hp method hm
  · exact absurd binds.name_helper outside

end Module

end LateBind

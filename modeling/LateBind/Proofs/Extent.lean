import LateBind.Proofs.GeneratedCode
import LateBind.Proofs.ModuleFormat

/-! # The extent of generated code

No place that a generated body names lies behind its code, and it mentions no types that are nested
deeper than those of the module, but for a few that the framework's library and the helper type bring
with them. -/

namespace LateBind

variable {α β : Type} {P : TypeRef → Prop}

/-! ## Emitted code -/

namespace Emitter

variable {e : Emitter}

/-- All types that have been mentioned satisfy the property, and no place that has been noted lies
behind the code. -/
structure Confined (P : TypeRef → Prop) (e : Emitter) : Prop where
  types : ∀ i ∈ e.instrs.toList, ∀ t ∈ i.typeRefs, P t
  locals : ∀ v ∈ e.locals.toList, P v.type
  labels : ∀ l ∈ e.labels.toList, ∀ p ∈ l.position, p ≤ e.position
  regions : ∀ r ∈ e.regions.toList, ∀ p ∈ r.positions, p ≤ e.position
  opened : ∀ r ∈ e.openRegions, r.tryStart ≤ e.position ∧ ∀ p ∈ r.finallyStart, p ≤ e.position

theorem confined_empty : empty.Confined P := by
  constructor <;> simp [empty]

/-- Heights, faults and whether control comes along do not matter. -/
theorem Confined.congr {e' : Emitter} (h : e.Confined P) (instrs : e'.instrs = e.instrs)
    (locals : e'.locals = e.locals) (labels : ∀ l ∈ e'.labels.toList, ∀ p ∈ l.position, p ≤ e.position)
    (regions : e'.regions = e.regions) (opened : e'.openRegions = e.openRegions) :
    e'.Confined P := by
  have place : e'.position = e.position := by rw [position, instrs, position]
  constructor
  · rw [instrs]
    exact h.types
  · rw [locals]
    exact h.locals
  · rw [place]
    exact labels
  · rw [regions, place]
    exact h.regions
  · rw [opened, place]
    exact h.opened

theorem Confined.fault (h : e.Confined P) (error : EmitError) : (e.fault error).Confined P :=
  h.congr rfl rfl h.labels rfl rfl

/-- A label may be put at a place in the code. -/
theorem Confined.setLabel (h : e.Confined P) {n : Nat} {state : LabelState}
    (inside : ∀ p ∈ state.position, p ≤ e.position) :
    Confined P { e with labels := e.labels.setIfInBounds n state } := by
  refine h.congr rfl rfl (fun l mem => ?_) rfl rfl
  rw [Array.toList_setIfInBounds] at mem
  rcases List.mem_or_eq_of_mem_set mem with mem | rfl
  · exact h.labels l mem
  · exact inside

theorem Confined.newLabel (h : e.Confined P) : e.newLabel.2.Confined P := by
  refine h.congr rfl rfl (fun l mem => ?_) rfl rfl
  rw [Emitter.newLabel, Array.toList_push] at mem
  rcases List.mem_append.mp mem with mem | mem
  · exact h.labels l mem
  · rw [List.mem_singleton.mp mem]
    intro p placed
    cases placed

theorem Confined.placeLabel (h : e.Confined P) (l : Label) : (e.placeLabel l).Confined P := by
  unfold Emitter.placeLabel
  split
  · exact h
  · split
    · exact h.fault _
    · next state _ _ =>
      have inside : ∀ p ∈ { state with position := some e.position }.position, p ≤ e.position := by
        rintro _ ⟨⟩
        exact Nat.le_refl _
      have placed := h.setLabel (n := l.id.toNat) inside
      dsimp only
      split
      · exact placed
      · exact placed.congr rfl rfl placed.labels rfl rfl

theorem Confined.newLocal (h : e.Confined P) {t : TypeRef} (ht : P t) (pinned : Bool) :
    (e.newLocal t pinned).2.Confined P := by
  refine ⟨h.types, fun v mem => ?_, h.labels, h.regions, h.opened⟩
  rw [Emitter.newLocal, Array.toList_push] at mem
  rcases List.mem_append.mp mem with mem | mem
  · exact h.locals v mem
  · rw [List.mem_singleton.mp mem]
    exact ht

theorem Confined.recordBranch (h : e.Confined P) (l : Label) : (e.recordBranch l).Confined P := by
  unfold Emitter.recordBranch
  split
  · next position found =>
    refine h.setLabel fun p mem => ?_
    exact h.labels _ (Array.mem_toList_iff.mpr (Array.mem_of_getElem? found)) p mem
  · exact h

theorem Confined.push (h : e.Confined P) {i : Instr} (types : ∀ t ∈ i.typeRefs, P t) :
    (e.push i).Confined P := by
  have applied : (e.applyEffect i).Confined P := by
    unfold Emitter.applyEffect
    dsimp only
    split
    · exact h.congr rfl rfl h.labels rfl rfl
    · exact h.congr rfl rfl h.labels rfl rfl
  have recorded : (i.targets.foldl Emitter.recordBranch (e.applyEffect i)).Confined P := by
    generalize e.applyEffect i = e' at applied
    induction i.targets generalizing e' with
    | nil => exact applied
    | cons l ls ih => exact ih _ (applied.recordBranch l)
  have flown :
      ((i.targets.foldl Emitter.recordBranch (e.applyEffect i)).applyFlow i).Confined P := by
    unfold Emitter.applyFlow
    split
    all_goals first | exact recorded | exact recorded.congr rfl rfl recorded.labels rfl rfl
  have behind {n : Nat} (inside : n ≤ ((i.targets.foldl Emitter.recordBranch
      (e.applyEffect i)).applyFlow i).position) : n ≤ (e.push i).position := by
    refine Nat.le_trans inside ?_
    simp [Emitter.push, position]
  constructor
  · intro j mem
    rw [Emitter.push, Array.toList_push] at mem
    rcases List.mem_append.mp mem with mem | mem
    · exact flown.types j mem
    · rw [List.mem_singleton.mp mem]
      exact types
  · exact flown.locals
  · exact fun l mem p placed => behind (flown.labels l mem p placed)
  · exact fun r mem p named => behind (flown.regions r mem p named)
  · exact fun r mem => ⟨behind (flown.opened r mem).1, fun p start =>
      behind ((flown.opened r mem).2 p start)⟩

theorem Confined.openTry (h : e.Confined P) : e.openTry.2.Confined P := by
  unfold Emitter.openTry
  dsimp only
  have checked : (if e.depth ≠ 0 then e.fault (.region (.tryWithItems e.depth)) else e).Confined P := by
    split
    · exact h.fault _
    · exact h
  generalize (if e.depth ≠ 0 then e.fault (.region (.tryWithItems e.depth)) else e) = e at checked
  have labelled := checked.newLabel
  refine ⟨labelled.types, labelled.locals, labelled.labels, labelled.regions, ?_⟩
  exact List.forall_mem_cons.mpr ⟨⟨Nat.le_refl _, nofun⟩, labelled.opened⟩

/-- An instruction that closes a part is only put in when control comes along. -/
theorem Confined.pushIf (h : e.Confined P) (c : Bool) {i : Instr} (types : ∀ t ∈ i.typeRefs, P t) :
    (if c then e.push i else e).Confined P ∧ e.position ≤ (if c then e.push i else e).position := by
  split
  · refine ⟨h.push types, ?_⟩
    rw [position, position, instrs_push, Array.size_push]
    exact Nat.le_succ _
  · exact ⟨h, Nat.le_refl _⟩

theorem Confined.openFinally (h : e.Confined P) : e.openFinally.Confined P := by
  unfold Emitter.openFinally
  split
  · exact h.fault _
  · next region outer opened =>
    have regions := h.opened
    rw [opened, List.forall_mem_cons] at regions
    obtain ⟨left, le⟩ := h.pushIf e.reachable (i := .leave region.exit) (by simp [Instr.typeRefs])
    generalize (if e.reachable then e.push (.leave region.exit) else e) = e' at left le
    dsimp only
    split
    · exact left.fault _
    · refine ⟨left.types, left.locals, left.labels, left.regions, ?_⟩
      refine List.forall_mem_cons.mpr ⟨⟨Nat.le_trans regions.1.1 le, fun p start => ?_⟩,
        fun r mem => ⟨Nat.le_trans (regions.2 r mem).1 le,
          fun p start => Nat.le_trans ((regions.2 r mem).2 p start) le⟩⟩
      cases start
      exact Nat.le_refl _

theorem Confined.closeTry (h : e.Confined P) : e.closeTry.Confined P := by
  unfold Emitter.closeTry
  split
  · exact h.fault _
  · next region outer opened =>
    have regions := h.opened
    rw [opened, List.forall_mem_cons] at regions
    have popped : { e with openRegions := outer }.Confined P :=
      ⟨h.types, h.locals, h.labels, h.regions, regions.2⟩
    dsimp only
    split
    · exact popped.fault _
    · next start started =>
      obtain ⟨ended, le⟩ := popped.pushIf e.reachable (i := .endfinally) (by simp [Instr.typeRefs])
      generalize (if e.reachable = true then
        { e with openRegions := outer }.push .endfinally else { e with openRegions := outer }) = e'
        at ended le ⊢
      have inside : region.tryStart ≤ e'.position ∧ start ≤ e'.position :=
        ⟨Nat.le_trans regions.1.1 le, Nat.le_trans (regions.1.2 start started) le⟩
      refine Confined.placeLabel ?_ _
      refine ⟨ended.types, ended.locals, ended.labels, fun r mem => ?_, ended.opened⟩
      rw [Array.toList_push] at mem
      rcases List.mem_append.mp mem with mem | mem
      · exact ended.regions r mem
      · rw [List.mem_singleton.mp mem]
        exact List.forall_mem_cons.mpr ⟨inside.1, List.forall_mem_cons.mpr ⟨inside.2,
          List.forall_mem_cons.mpr ⟨inside.2, List.forall_mem_singleton.mpr (Nat.le_refl _)⟩⟩⟩

end Emitter

/-- All types that the body mentions satisfy the property, and no place that it names lies behind its
code. -/
structure Body.Confined (P : TypeRef → Prop) (b : Body) : Prop where
  types : ∀ t ∈ b.typeRefs, P t
  places : ∀ p ∈ b.positions, p ≤ b.instrs.length

theorem Emitter.Confined.body {e : Emitter} (h : e.Confined P) {body : Body}
    (finished : e.finish = .ok body) : body.Confined P := by
  unfold Emitter.finish at finished
  split at finished
  · cases finished
  · obtain ⟨labels, resolved, rfl⟩ := map_eq_ok finished
    constructor
    · intro t mem
      rcases List.mem_append.mp mem with mem | mem
      · obtain ⟨v, known, rfl⟩ := List.mem_map.mp mem
        exact h.locals v known
      · obtain ⟨i, known, inside⟩ := List.mem_flatMap.mp mem
        exact h.types i known t inside
    · intro p mem
      rcases List.mem_append.mp mem with mem | mem
      · have placed := Emitter.resolveLabels_eq_ok_iff.mp resolved
        obtain ⟨l, known, at_⟩ := List.mem_map.mp (placed ▸ List.mem_map_of_mem mem)
        exact h.labels l known p at_
      · obtain ⟨r, known, inside⟩ := List.mem_flatMap.mp mem
        exact h.regions r known p inside

namespace Emit

/-- The computation mentions only types with the property, and places in the code. -/
def Confined (P : TypeRef → Prop) (x : Emit α) : Prop :=
  ∀ e : Emitter, e.Confined P → (x e).2.Confined P

theorem confined_pure (a : α) : Confined P (pure a) := fun _ h => h

theorem Confined.bind {x : Emit α} {f : α → Emit β} (hx : Confined P x)
    (hf : ∀ a, Confined P (f a)) : Confined P (x >>= f) := fun e h => hf _ _ (hx e h)

/-- What follows only sees results that the first computation has. -/
theorem Confined.bind_of {R : α → Prop} {x : Emit α} {f : α → Emit β} (hx : Confined P x)
    (result : ∀ e, R (x e).1) (hf : ∀ a, R a → Confined P (f a)) : Confined P (x >>= f) :=
  fun e h => hf _ (result e) _ (hx e h)

theorem Confined.map {x : Emit α} (hx : Confined P x) (f : α → β) : Confined P (f <$> x) := hx

theorem confined_forM {l : List α} {f : α → Emit PUnit} (hf : ∀ a ∈ l, Confined P (f a)) :
    Confined P (l.forM f) := by
  induction l with
  | nil => exact confined_pure _
  | cons a l ih =>
    rw [List.forall_mem_cons] at hf
    exact hf.1.bind fun _ => ih hf.2

theorem confined_mapM {l : List α} {f : α → Emit β} (hf : ∀ a, Confined P (f a)) :
    Confined P (l.mapM f) := by
  induction l with
  | nil => exact confined_pure _
  | cons a l ih =>
    rw [List.mapM_cons]
    exact (hf a).bind fun _ => ih.bind fun _ => confined_pure _

theorem confined_instr {i : Instr} (types : ∀ t ∈ i.typeRefs, P t) : Confined P (instr i) :=
  fun _ h => h.push types

/-- Only the instructions count that mention a type. -/
theorem confined_instrs {is : List Instr} (types : ∀ t ∈ is.flatMap Instr.typeRefs, P t) :
    Confined P (instrs is) := by
  intro e h
  rw [instrs_apply]
  induction is generalizing e with
  | nil => exact h
  | cons i is ih =>
    rw [List.flatMap_cons, List.forall_mem_append] at types
    exact ih types.2 _ (h.push types.1)

theorem confined_defineLabel : Confined P defineLabel := fun _ h => h.newLabel

theorem confined_markLabel (l : Label) : Confined P (markLabel l) := fun _ h => h.placeLabel l

theorem confined_declareLocal {t : TypeRef} (ht : P t) : Confined P (declareLocal t) :=
  fun _ h => h.newLocal ht false

theorem confined_declarePinned {t : TypeRef} (ht : P t) : Confined P (declarePinned t) :=
  fun _ h => h.newLocal ht true

theorem confined_beginTry : Confined P beginTry := fun _ h => h.openTry

theorem confined_beginFinally : Confined P beginFinally := fun _ h => h.openFinally

theorem confined_endTry : Confined P endTry := fun _ h => h.closeTry

theorem Confined.body {x : Emit Unit} (hx : Confined P x) {body : Body}
    (made : Emit.body x = .ok body) : body.Confined P :=
  (hx _ Emitter.confined_empty).body made

end Emit

theorem MethodDef.typeRefs_withBody {visibility : Visibility} {name : String}
    {params : List (String × TypeRef)} {returnType : TypeRef} {body : Body} :
    (withBody visibility name params returnType body).typeRefs =
      returnType :: params.map Prod.snd ++ body.typeRefs := by
  simp [typeRefs, withBody]

/-- All types that the method mentions satisfy the property, and no place that its body names lies
behind the code. -/
structure MethodDef.Confined (P : TypeRef → Prop) (method : MethodDef) : Prop where
  types : ∀ t ∈ method.typeRefs, P t
  places : ∀ body ∈ method.body, ∀ p ∈ body.positions, p ≤ body.instrs.length

theorem MethodDef.confined_withBody {visibility : Visibility} {name : String}
    {params : List (String × TypeRef)} {returnType : TypeRef} {body : Body}
    (returned : P returnType) (given : ∀ p ∈ params, P p.2) (inside : body.Confined P) :
    (withBody visibility name params returnType body).Confined P := by
  constructor
  · rw [typeRefs_withBody]
    refine List.forall_mem_append.mpr ⟨List.forall_mem_cons.mpr ⟨returned, ?_⟩, inside.types⟩
    exact List.forall_mem_map.mpr given
  · rintro _ ⟨⟩
    exact inside.places

theorem MethodDef.confined_generated {visibility : Visibility} {name : String}
    {params : List (String × TypeRef)} {returnType : TypeRef} {code : Emit Unit}
    {method : MethodDef} (returned : P returnType) (given : ∀ p ∈ params, P p.2)
    (emits : Emit.Confined P code)
    (made : generated visibility name params returnType code = .ok method) :
    method.Confined P := by
  unfold generated at made
  split at made
  · cases made
  · next body emitted =>
    cases made
    exact confined_withBody returned given (emits.body emitted)

/-! ## Code for stubs -/

variable {n : Nat} {helper owner : TypeName} {s : StubScaffold}

/-- The type is nested less deep than the bound. -/
def TypeRef.Below (n : Nat) (t : TypeRef) : Prop := t.depth < n

theorem TypeRef.below_all (ts : List TypeRef) (deep : 2 ≤ n) (flat : ∀ t ∈ ts, t.depth < 2) :
    ∀ t ∈ ts, t.Below n := fun t mem => Nat.lt_of_lt_of_le (flat t mem) deep

theorem Emit.confined_code {is : List Instr} (ts : List TypeRef)
    (code : is.flatMap Instr.typeRefs = ts) (h : ∀ t ∈ ts, P t) : Emit.Confined P (Emit.instrs is) :=
  Emit.confined_instrs (code ▸ h)

theorem Emit.confined_silent {is : List Instr} (code : is.flatMap Instr.typeRefs = []) :
    Emit.Confined P (Emit.instrs is) :=
  Emit.confined_code [] code (by simp)

namespace SlotPlan

/-- What stands for a type in native code is nested no deeper. -/
theorem below_nativeType (plan : SlotPlan) {t : TypeRef} (shallow : t.Below n) :
    (plan.nativeType t).Below n := by
  have flat (p : Primitive) : (TypeRef.primitive p).Below n := Nat.lt_of_le_of_lt (Nat.zero_le _) shallow
  cases plan with
  | direct => exact shallow
  | boolean width => cases width <;> exact flat _
  | _ => exact flat _

end SlotPlan

namespace StubBody

theorem confined_emitPinnedArray {load : Instr} (silent : load.typeRefs = [])
    {element : TypeRef} (shallow : (TypeRef.byRef element).Below n) :
    Emit.Confined (TypeRef.Below n) (emitPinnedArray load element) := by
  have inner : element.Below n := Nat.lt_of_succ_lt shallow
  refine (Emit.confined_declarePinned shallow).bind fun pin => Emit.confined_defineLabel.bind
    fun empty => Emit.confined_defineLabel.bind fun done => ?_
  refine (Emit.confined_code [element] ?_ (List.forall_mem_singleton.mpr inner)).bind fun _ => ?_
  · simp only [List.flatMap_cons, silent]
    rfl
  exact (Emit.confined_markLabel _).bind fun _ => (Emit.confined_silent rfl).bind fun _ =>
    Emit.confined_markLabel _

theorem confined_emitAddressArrayFor (deep : 2 ≤ n) (slot : ParamSlot) (index : Nat) :
    Emit.Confined (TypeRef.Below n) (emitAddressArrayFor slot index) := by
  have vector : (TypeRef.vector .intPtr).Below n := deep
  have address : TypeRef.intPtr.Below n := Nat.lt_of_succ_lt deep
  unfold emitAddressArrayFor
  split
  · refine (Emit.confined_declareLocal vector).bind fun addresses => Emit.Confined.bind ?_ fun _ =>
      Emit.confined_pure _
    refine Emit.confined_defineLabel.bind fun present => Emit.confined_defineLabel.bind fun sized => ?_
    refine (Emit.confined_silent rfl).bind fun _ => (Emit.confined_markLabel _).bind fun _ => ?_
    exact (Emit.confined_silent rfl).bind fun _ => (Emit.confined_markLabel _).bind fun _ =>
      Emit.confined_code [.intPtr] rfl (List.forall_mem_singleton.mpr address)
  · exact Emit.confined_pure _

theorem confined_emitCopies (deep : 2 ≤ n) (slot : ParamSlot) (index : Nat)
    (addresses : Option UInt16) :
    Emit.Confined (TypeRef.Below n) (emitCopies helper slot index addresses) := by
  unfold emitCopies
  split
  · exact Emit.confined_code [.void, .vector .string, .vector .intPtr] rfl
      (TypeRef.below_all _ deep (by decide))
  · exact Emit.confined_pure _

theorem confined_emitFrees (deep : 2 ≤ n) (addresses : Option UInt16) :
    Emit.Confined (TypeRef.Below n) (emitFrees helper addresses) := by
  unfold emitFrees
  split
  · exact Emit.confined_code [.void, .vector .intPtr] rfl (TypeRef.below_all _ deep (by decide))
  · exact Emit.confined_pure _

theorem confined_emitArgument (deep : 2 ≤ n) {slot : ParamSlot} (shallow : slot.type.Below n)
    (index : UInt16) (addresses : Option UInt16) :
    Emit.Confined (TypeRef.Below n) (emitArgument helper slot index addresses) := by
  unfold emitArgument
  split
  · exact Emit.confined_instr (by simp [Instr.typeRefs])
  · refine (Emit.confined_silent rfl).bind fun _ => ?_
    split
    · exact Emit.confined_instr (by simp [Instr.typeRefs])
    · exact Emit.confined_pure _
  · exact (Emit.confined_declarePinned shallow).bind fun pin => Emit.confined_silent rfl
  · refine confined_emitPinnedArray rfl ?_
    split
    · next element rank isArray =>
      -- A reference to an element is nested as deep as the array.
      cases shape : slot.type with
      | array element' rank' =>
        rw [shape] at isArray shallow
        cases isArray
        exact shallow
      | _ =>
        rw [shape] at isArray
        cases isArray
    · exact deep
  · have string : TypeRef.string.Below n := Nat.lt_of_succ_lt deep
    refine (Emit.confined_declarePinned string).bind fun pin => Emit.confined_defineLabel.bind
      fun null => ?_
    exact (Emit.confined_code [.i32] rfl (TypeRef.below_all _ deep (by decide))).bind fun _ =>
      Emit.confined_markLabel _
  · have bytes : (TypeRef.vector .u8).Below n := deep
    refine (Emit.confined_declareLocal bytes).bind fun array => ?_
    exact (Emit.confined_code [.vector .u8, .string] rfl
      (TypeRef.below_all _ deep (by decide))).bind fun _ => confined_emitPinnedArray rfl deep
  · split
    · exact confined_emitPinnedArray rfl deep
    · exact Emit.confined_pure _
  · refine Emit.confined_defineLabel.bind fun present => Emit.confined_defineLabel.bind fun done => ?_
    refine (Emit.confined_silent rfl).bind fun _ => (Emit.confined_silent rfl).bind fun _ => ?_
    refine (Emit.confined_instr (by simp [Instr.typeRefs])).bind fun _ =>
      (Emit.confined_markLabel _).bind fun _ => ?_
    exact (Emit.confined_code [.intPtr, .named Framework.delegate] rfl
      (TypeRef.below_all _ deep (by decide))).bind fun _ => Emit.confined_markLabel _

theorem confined_emitResult (deep : 2 ≤ n) {slot : ReturnSlot} (shallow : slot.type.Below n) :
    Emit.Confined (TypeRef.Below n) (emitResult slot) := by
  unfold emitResult
  split
  · exact Emit.confined_pure _
  · split
    · exact Emit.confined_silent rfl
    · exact Emit.confined_instr
        (TypeRef.below_all Framework.ptrToStringAnsi.typeRefs deep (by decide))
    · exact Emit.confined_instr
        (TypeRef.below_all Framework.ptrToStringUni.typeRefs deep (by decide))
    · refine Emit.confined_defineLabel.bind fun present => Emit.confined_defineLabel.bind
        fun done => ?_
      refine (Emit.confined_silent rfl).bind fun _ => (Emit.confined_markLabel _).bind fun _ => ?_
      refine (Emit.confined_code ([slot.type] ++ (Framework.typeFromHandle.typeRefs ++
        Framework.delegateForFunctionPointer.typeRefs) ++ [slot.type]) rfl ?_).bind fun _ =>
          Emit.confined_markLabel _
      exact List.forall_mem_append.mpr ⟨List.forall_mem_append.mpr
        ⟨List.forall_mem_singleton.mpr shallow, TypeRef.below_all _ deep (by decide)⟩,
          List.forall_mem_singleton.mpr shallow⟩
    all_goals exact Emit.confined_pure _

/-- The types that code for the stub mentions are nested less deep than the bound. -/
structure Shallow (n : Nat) (s : StubScaffold) : Prop where
  deep : 2 ≤ n
  params : ∀ p ∈ s.stub.params, p.type.Below n
  returns : s.stub.returns.type.Below n
  cell : s.cell.type.Below n
  initializer : ∀ t ∈ s.initializer.typeRefs, t.Below n
  thunk : ∀ t ∈ s.thunk.typeRefs, t.Below n
  callSite : ∀ t ∈ s.callSite.typeRefs, t.Below n

theorem Shallow.of_fits (deep : 2 ≤ n) (params : ∀ p ∈ s.stub.params, p.type.Below n)
    (returns : s.stub.returns.type.Below n) (fits : s.Fits owner) : Shallow n s := by
  have callSite : ∀ t ∈ s.callSite.typeRefs, t.Below n := by
    rw [fits.callSite]
    refine List.forall_mem_cons.mpr ⟨SlotPlan.below_nativeType _ returns, ?_⟩
    exact List.forall_mem_map.mpr fun p mem => SlotPlan.below_nativeType _ (params p mem)
  have flat (p : Primitive) : (TypeRef.primitive p).Below n := Nat.lt_of_succ_lt deep
  refine ⟨deep, params, returns, ?_, ?_, ?_, callSite⟩
  · rw [fits.cell]
    exact flat _
  · rw [fits.initializer]
    exact List.forall_mem_singleton.mpr (flat _)
  · rw [fits.thunk]
    rw [CallSite.typeRefs, List.forall_mem_cons] at callSite
    exact List.forall_mem_cons.mpr ⟨callSite.1,
      List.forall_mem_append.mpr ⟨callSite.2, List.forall_mem_singleton.mpr (flat _)⟩⟩

variable {slots : List (ParamSlot × Option UInt16)}

theorem confined_emitCall (shallow : Shallow n s) (own : ∀ slot ∈ slots, slot.1 ∈ s.stub.params) :
    Emit.Confined (TypeRef.Below n) (emitCall helper s slots) := by
  refine (Emit.confined_forM fun slot mem => ?_).bind fun _ => ?_
  · obtain ⟨⟨param, addresses⟩, index⟩ := slot
    have known := own _ (List.fst_mem_of_mem_zipIdx mem)
    exact confined_emitArgument shallow.deep (shallow.params _ known) _ _
  · refine (Emit.confined_code (s.cell.type :: s.thunk.typeRefs) ?_
      (List.forall_mem_cons.mpr ⟨shallow.cell, shallow.thunk⟩)).bind fun _ =>
        confined_emitResult shallow.deep shallow.returns
    simp [Instr.typeRefs]

theorem confined_emitProtectedCall (shallow : Shallow n s)
    (own : ∀ slot ∈ slots, slot.1 ∈ s.stub.params) :
    Emit.Confined (TypeRef.Below n) (emitProtectedCall helper s slots) := by
  have closes {after : Emit Unit} (h : Emit.Confined (TypeRef.Below n) after) :
      Emit.Confined (TypeRef.Below n) (do
        Emit.beginFinally
        slots.forM fun slot => emitFrees helper slot.2
        Emit.endTry
        after) :=
    Emit.confined_beginFinally.bind fun _ =>
      (Emit.confined_forM fun _ _ => confined_emitFrees shallow.deep _).bind fun _ =>
        Emit.confined_endTry.bind fun _ => h
  refine Emit.confined_beginTry.bind fun _ =>
    (Emit.confined_forM fun _ _ => confined_emitCopies shallow.deep _ _ _).bind fun _ =>
      (confined_emitCall shallow own).bind fun _ => ?_
  split
  case' isTrue => refine (Emit.confined_pure none).bind fun result => ?_
  case' isFalse =>
    refine ((Emit.confined_declareLocal shallow.returns).map some).bind fun result => ?_
  all_goals
    cases result with
    | none => exact closes (Emit.confined_pure _)
    | some result =>
      exact Emit.Confined.bind (Emit.confined_instr (i := .stloc result) (by simp [Instr.typeRefs]))
        fun _ => closes (Emit.confined_instr (i := .ldloc result) (by simp [Instr.typeRefs]))

/-- The slots that get address arrays are the parameters. -/
theorem fst_mem_of_mapM (params : List (ParamSlot × Nat)) (e : Emitter) :
    ∀ slot ∈ ((params.mapM fun (slot, index) => do
      return (slot, ← emitAddressArrayFor slot index) : Emit _) e).1, slot.1 ∈ params.map Prod.fst := by
  induction params generalizing e with
  | nil => exact fun slot mem => absurd mem List.not_mem_nil
  | cons param params ih =>
    rw [List.mapM_cons]
    refine List.forall_mem_cons.mpr ⟨List.mem_cons_self, fun slot mem => ?_⟩
    exact List.mem_cons_of_mem _ (ih _ slot mem)

theorem confined_emit (shallow : Shallow n s) :
    Emit.Confined (TypeRef.Below n) (emit helper s) := by
  have ret : Emit.Confined (TypeRef.Below n) (Emit.instr .ret) :=
    Emit.confined_instr (by simp [Instr.typeRefs])
  refine Emit.confined_defineLabel.bind fun ready => ?_
  refine (Emit.confined_code (s.cell.type :: s.initializer.typeRefs) (by simp [Instr.typeRefs])
    (List.forall_mem_cons.mpr ⟨shallow.cell, shallow.initializer⟩)).bind fun _ => ?_
  refine (Emit.confined_markLabel _).bind fun _ => ?_
  refine Emit.Confined.bind_of (R := fun slots => ∀ slot ∈ slots,
    slot.1 ∈ s.stub.params.zipIdx.map Prod.fst) ?_ (fst_mem_of_mapM _) fun slots own => ?_
  · exact Emit.confined_mapM fun _ => (confined_emitAddressArrayFor shallow.deep _ _).bind fun _ =>
      Emit.confined_pure _
  rw [List.zipIdx_map_fst] at own
  split
  · exact (confined_emitProtectedCall shallow own).bind fun _ => ret
  · exact (confined_emitCall shallow own).bind fun _ => ret

theorem confined_of_compile (shallow : Shallow n s) {body : Body}
    (made : compile helper s = .ok body) : body.Confined (TypeRef.Below n) :=
  (confined_emit shallow).body (body_of_compile made)

end StubBody

/-! ## Members for stubs -/

theorem LibraryScaffold.confined_loaderDef {l : LibraryScaffold} {c : Config} (deep : 2 ≤ n)
    (fits : l.Fits c owner) {method : MethodDef} (made : l.loaderDef helper = .ok method) :
    method.Confined (TypeRef.Below n) := by
  have flat (p : Primitive) : (TypeRef.primitive p).Below n := Nat.lt_of_succ_lt deep
  refine MethodDef.confined_generated (flat _) (by simp) ?_ made
  refine Emit.confined_code ([.intPtr, .string] ++ [l.cell.type]) rfl ?_
  rw [fits.cell]
  exact List.forall_mem_append.mpr ⟨TypeRef.below_all _ deep (by decide),
    List.forall_mem_singleton.mpr (flat _)⟩

namespace StubScaffold

variable {method : MethodDef}

theorem confined_initializerDef {c : Config} (shallow : StubBody.Shallow n s)
    (fits : s.library.Fits c owner) (made : s.initializerDef helper = .ok method) :
    method.Confined (TypeRef.Below n) := by
  have flat (p : Primitive) : (TypeRef.primitive p).Below n := Nat.lt_of_succ_lt shallow.deep
  have handle : s.library.cell.type.Below n := by
    rw [fits.cell]
    exact flat _
  have loader : ∀ t ∈ s.library.loader.typeRefs, t.Below n := by
    rw [fits.loader]
    exact List.forall_mem_singleton.mpr (flat _)
  refine MethodDef.confined_generated (flat _) (by simp) ?_ made
  refine Emit.confined_defineLabel.bind fun loaded => ?_
  refine (Emit.confined_code (s.library.cell.type :: s.library.loader.typeRefs)
    (by simp [Instr.typeRefs]) (List.forall_mem_cons.mpr ⟨handle, loader⟩)).bind fun _ =>
      (Emit.confined_markLabel _).bind fun _ => ?_
  refine Emit.confined_code (s.library.cell.type :: ([.intPtr, .intPtr, .string] ++ [s.cell.type]))
    rfl (List.forall_mem_cons.mpr ⟨handle, List.forall_mem_append.mpr ⟨?_, ?_⟩⟩)
  · exact TypeRef.below_all _ shallow.deep (by decide)
  · exact List.forall_mem_singleton.mpr shallow.cell

theorem confined_thunkDef (shallow : StubBody.Shallow n s) (made : s.thunkDef = .ok method) :
    method.Confined (TypeRef.Below n) := by
  have loads : Emit.Confined (TypeRef.Below n) s.emitThunk := by
    refine (Emit.confined_instrs ?_).bind fun _ =>
      Emit.confined_code (s.callSite.typeRefs) (by simp [Instr.typeRefs]) shallow.callSite
    simp [Instr.typeRefs]
  obtain ⟨thunk, generated, rfl⟩ := map_eq_ok made
  have returned : s.thunk.returnType.Below n := shallow.thunk _ List.mem_cons_self
  have given : ∀ p ∈ s.stub.params.map (fun p => (p.name, p.nativeType)) ++ [("fn", .intPtr)],
      p.2.Below n := by
    refine List.forall_mem_append.mpr ⟨List.forall_mem_map.mpr fun p mem => ?_, ?_⟩
    · exact SlotPlan.below_nativeType _ (shallow.params p mem)
    · exact List.forall_mem_singleton.mpr (Nat.lt_of_succ_lt shallow.deep)
  have confined := MethodDef.confined_generated returned given loads generated
  exact ⟨confined.types, confined.places⟩

end StubScaffold

/-! ## The helper type -/

theorem Helper.confined_methods (deep : 2 ≤ n) (helper : TypeName) (flags : Int32) :
    ∀ method ∈ methods helper flags, method.Confined (TypeRef.Below n) := by
  have types : (methods helper flags).all (fun method => method.typeRefs.all (·.depth < 2)) = true := by
    cbv
  have places : (methods helper flags).all (fun method => method.body.all fun body =>
      body.positions.all (· ≤ body.instrs.length)) = true := by
    cbv
  intro method mem
  refine ⟨fun t inside => ?_, fun body own p named => ?_⟩
  · have shallow := List.all_eq_true.mp (List.all_eq_true.mp types method mem) t inside
    exact Nat.lt_of_lt_of_le (of_decide_eq_true shallow) deep
  · have placed := List.all_eq_true.mp places method mem
    rw [Option.mem_def.mp own] at placed
    exact of_decide_eq_true (List.all_eq_true.mp placed p named)

/-! ## The bound module -/

namespace Module

variable {m : Module} {c : Config} {found : ImportTable} {types : List TypeScaffold}
  {bodies : List (MethodHandle × Body)} {helperDef : TypeDef}
  (binds : m.Binds c found types bodies helperDef) (deep : 2 ≤ n)
  (shallow : ∀ t ∈ m.typeRefs, t.Below n)

theorem mem_typeRefs_of_method {t : TypeDef} {method : MethodDef} (ht : t ∈ m.types)
    (hm : method ∈ t.methods) : ∀ u ∈ method.typeRefs, u ∈ m.typeRefs := fun _ hu =>
  List.mem_flatMap.mpr ⟨t, List.mem_append_left _ ht,
    List.mem_append_right _ (List.mem_flatMap.mpr ⟨method, hm, hu⟩)⟩

include binds deep shallow

/-- Code for a stub mentions no types that are nested deeper than those of the module. -/
theorem Binds.shallow_of_mem {s : StubScaffold} (hs : s ∈ types.flatMap TypeScaffold.stubs) :
    StubBody.Shallow n s := by
  have mem : s.stub ∈ found.stubs := by
    rw [← stubs_of_plans binds.planned]
    exact List.mem_map_of_mem hs
  obtain ⟨l, info, eligible, declares⟩ := declares_of_mem_stubs binds.table mem
  obtain ⟨own, at_⟩ := mem_methods.mp (mem_eligibleStubs.mp eligible).1
  have mentioned := mem_typeRefs_of_method (List.mem_of_getElem? own) (List.mem_of_getElem? at_)
  obtain ⟨planned, hp, hs⟩ := List.mem_flatMap.mp hs
  obtain ⟨t, imports, -, fits⟩ := binds.fits_of_mem hp
  refine .of_fits deep (fun p hp => shallow _ (mentioned _ ?_)) ?_ (fits.stub s hs).1
  · refine List.mem_append_left _ (List.mem_cons_of_mem _ ?_)
    rw [← declares.params, List.map_map]
    exact List.mem_map_of_mem hp
  · rw [declares.returnType]
    exact shallow _ (mentioned _ (List.mem_append_left _ List.mem_cons_self))

theorem Binds.confined_methods {planned : TypeScaffold} (hp : planned ∈ types) :
    ∀ method ∈ planned.methods c.helperType, method.Confined (TypeRef.Below n) := by
  obtain ⟨t, imports, -, fits⟩ := binds.fits_of_mem hp
  intro method hm
  rcases List.mem_append.mp hm with hm | hm
  · obtain ⟨l, hl, hm⟩ := List.mem_flatMap.mp hm
    exact LibraryScaffold.confined_loaderDef deep (fits.library l hl)
      (TypeScaffold.mem_libraryMethods.mp hm)
  · obtain ⟨s, hs, hm⟩ := List.mem_flatMap.mp hm
    obtain ⟨-, library⟩ := fits.stub s hs
    have shallow := binds.shallow_of_mem deep shallow (List.mem_flatMap.mpr ⟨planned, hp, hs⟩)
    rcases TypeScaffold.mem_stubMethods.mp hm with made | made
    · exact StubScaffold.confined_initializerDef shallow (fits.library _ library) made
    · exact StubScaffold.confined_thunkDef shallow made

/-- A method of the bound module stands at the place of an old one that is the same but for its import,
or it is one of the helper type or planned. In the first case it may have a new body. -/
theorem Binds.confined_boundLate (id : Uuid) {t : TypeDef} {method : MethodDef}
    (ht : t ∈ (m.boundLate c types bodies helperDef id).types) (hm : method ∈ t.methods) :
    (∃ old ∈ m.types, method ∈ old.methods) ∨ method.Confined (TypeRef.Below n) := by
  obtain ⟨i, own⟩ := List.mem_iff_getElem?.mp ht
  obtain ⟨j, at_⟩ := List.mem_iff_getElem?.mp hm
  rcases binds.method_cases id own at_ with
    ⟨old, own', at'⟩ | ⟨old, stub, body, own', at', hb, rfl⟩ | ⟨planned, hp, hm⟩ | rfl
  · exact .inl ⟨old, List.mem_of_getElem? own', List.mem_of_getElem? at'⟩
  · obtain ⟨s, hs, -, -, compiled, -⟩ := binds.stub_of_mem hb
    have confined := StubBody.confined_of_compile (binds.shallow_of_mem deep shallow hs) compiled
    have mentioned := mem_typeRefs_of_method (List.mem_of_getElem? own') (List.mem_of_getElem? at')
    refine .inr ⟨fun u hu => ?_, ?_⟩
    · rcases List.mem_append.mp hu with hu | hu
      · exact shallow u (mentioned u (List.mem_append_left _ hu))
      · exact confined.types u (by simpa [MethodDef.implemented] using hu)
    · rintro _ ⟨⟩
      exact confined.places
  · exact .inr (binds.confined_methods deep shallow hp method hm)
  · cases binds.helper.symm.trans (Helper.typeDef_eq c.helperType c.loadFlags)
    exact .inr (Helper.confined_methods deep _ _ method hm)

omit shallow in
theorem Binds.below_cell {planned : TypeScaffold} (hp : planned ∈ types) :
    ∀ f ∈ planned.fields, f.type.Below n := by
  have address : TypeRef.intPtr.Below n := Nat.lt_of_succ_lt deep
  obtain ⟨t, imports, -, fits⟩ := binds.fits_of_mem hp
  intro f hf
  rcases List.mem_append.mp hf with hf | hf
  · obtain ⟨l, hl, hf⟩ := List.mem_flatMap.mp hf
    rw [List.mem_singleton.mp hf, (fits.library l hl).cell]
    exact address
  · obtain ⟨s, hs, hf⟩ := List.mem_flatMap.mp hf
    rw [List.mem_singleton.mp hf, (fits.stub s hs).1.cell]
    exact address

/-- The types of the fields, and the base. -/
theorem Binds.below_outline (id : Uuid) {t : TypeDef}
    (ht : t ∈ (m.boundLate c types bodies helperDef id).types) :
    ∀ u ∈ t.base.toList ++ t.fields.map FieldDef.type, u.Below n := by
  rw [binds.boundLate_eq] at ht
  rcases List.mem_append.mp ht with ht | ht
  · obtain ⟨i, hi, rfl⟩ := List.mem_mapIdx.mp ht
    have old : ∀ u ∈ m.types[i].base.toList ++ m.types[i].fields.map FieldDef.type, u.Below n :=
      fun u hu => shallow u (List.mem_flatMap.mpr ⟨_, List.mem_append_left _ (List.getElem_mem hi),
        List.mem_append_left _ hu⟩)
    rw [boundType, List.map_append, ← List.append_assoc]
    refine List.forall_mem_append.mpr ⟨old, List.forall_mem_map.mpr fun f hf => ?_⟩
    obtain ⟨planned, hp, hf⟩ := List.mem_flatMap.mp hf
    exact binds.below_cell deep (List.mem_filter.mp hp).1 f hf
  · cases binds.helper.symm.trans (Helper.typeDef_eq c.helperType c.loadFlags)
    rw [List.mem_singleton.mp ht]
    exact TypeRef.below_all [.object, .boolean, .i32] deep (by decide)

/-- Late binding mentions no types that are nested deeper than those of the module. -/
theorem Binds.below_of_mem_typeRefs (id : Uuid) :
    ∀ u ∈ (m.boundLate c types bodies helperDef id).typeRefs, u.Below n := by
  intro u hu
  obtain ⟨t, ht, hu⟩ := List.mem_flatMap.mp hu
  rcases List.mem_append.mp ht with ht | ht
  · rcases List.mem_append.mp hu with hu | hu
    · exact binds.below_outline deep shallow id ht u hu
    · obtain ⟨method, hm, hu⟩ := List.mem_flatMap.mp hu
      rcases binds.confined_boundLate deep shallow id ht hm with ⟨old, ho, hm⟩ | confined
      · exact shallow u (mem_typeRefs_of_method ho hm u hu)
      · exact confined.types u hu
  · exact shallow u (List.mem_flatMap.mpr ⟨t, List.mem_append_right _ ht, hu⟩)

/-- A place that a body of the bound module names is one of the old module, or it does not lie behind
the body's code. -/
theorem Binds.place_cases (id : Uuid) :
    ∀ p ∈ (m.boundLate c types bodies helperDef id).positions, p ∈ m.positions ∨
      ∃ t ∈ (m.boundLate c types bodies helperDef id).types, ∃ method ∈ t.methods,
        ∃ body ∈ method.body, p ≤ body.instrs.length := by
  intro p named
  obtain ⟨t, ht, named⟩ := List.mem_flatMap.mp named
  rcases List.mem_append.mp ht with ht | ht
  · obtain ⟨method, hm, named⟩ := List.mem_flatMap.mp named
    rcases binds.confined_boundLate deep shallow id ht hm with ⟨old, ho, hm⟩ | confined
    · exact .inl (List.mem_flatMap.mpr ⟨old, List.mem_append_left _ ho,
        List.mem_flatMap.mpr ⟨method, hm, named⟩⟩)
    · obtain ⟨body, hb, named⟩ := List.mem_flatMap.mp named
      have own := Option.mem_toList.mp hb
      exact .inr ⟨t, ht, method, hm, body, own, confined.places body own p named⟩
  · exact .inl (List.mem_flatMap.mpr ⟨t, List.mem_append_right _ ht, named⟩)

end Module

end LateBind

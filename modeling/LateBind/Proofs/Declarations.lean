import LateBind.Proofs.GeneratedCode

/-! # Locals and regions of generated code

How many locals a generator declares at most, and that it needs no protected region unless it copies
arrays of strings. A stub has so few parameters that the numbers of its locals never run out. -/

namespace LateBind

namespace Emitter

/-- Nothing was declared and no region was closed. -/
structure Same (e e' : Emitter) : Prop where
  locals : e'.locals = e.locals
  regions : e'.regions = e.regions

theorem Same.trans {e e' e'' : Emitter} (first : e.Same e') (second : e'.Same e'') : e.Same e'' :=
  ⟨second.locals.trans first.locals, second.regions.trans first.regions⟩

theorem same_push (e : Emitter) (i : Instr) : e.Same (e.push i) := by
  have effect (e : Emitter) : e.Same (e.applyEffect i) := by
    unfold applyEffect
    dsimp only
    split <;> exact ⟨rfl, rfl⟩
  have records (ls : List Label) (e : Emitter) : e.Same (ls.foldl recordBranch e) := by
    induction ls generalizing e with
    | nil => exact ⟨rfl, rfl⟩
    | cons l ls ih =>
      refine Same.trans ?_ (ih _)
      unfold recordBranch
      split <;> exact ⟨rfl, rfl⟩
  have flow (e : Emitter) : e.Same (e.applyFlow i) := by
    unfold applyFlow
    split <;> exact ⟨rfl, rfl⟩
  have all := ((effect e).trans (records i.targets _)).trans (flow _)
  exact ⟨all.locals, all.regions⟩

theorem same_placeLabel (e : Emitter) (l : Label) : e.Same (e.placeLabel l) := by
  unfold placeLabel
  split
  · exact ⟨rfl, rfl⟩
  · split
    · exact ⟨rfl, rfl⟩
    · dsimp only
      split <;> exact ⟨rfl, rfl⟩

theorem same_openTry (e : Emitter) : e.Same e.openTry.2 := by
  unfold openTry
  dsimp only
  split <;> exact ⟨rfl, rfl⟩

theorem same_openFinally (e : Emitter) : e.Same e.openFinally := by
  unfold openFinally
  split
  · exact ⟨rfl, rfl⟩
  · have left (l : Label) : e.Same (if e.reachable then e.push (.leave l) else e) := by
      split
      · exact e.same_push _
      · exact ⟨rfl, rfl⟩
    dsimp only
    split
    all_goals exact ⟨(left _).locals, (left _).regions⟩

end Emitter

namespace Emit

variable {α β : Type} {j k : Nat}

/-- At most so many locals are declared, and no region is closed. -/
structure Declares (k : Nat) (x : Emit α) : Prop where
  locals : ∀ e : Emitter, (x e).2.locals.size ≤ e.locals.size + k
  regions : ∀ e : Emitter, (x e).2.regions = e.regions

theorem Declares.of_same {x : Emit α} (same : ∀ e : Emitter, e.Same (x e).2) : Declares k x where
  locals e := by
    rw [(same e).locals]
    exact Nat.le_add_right _ _
  regions e := (same e).regions

theorem declares_pure (a : α) : Declares k (pure a : Emit α) := .of_same fun _ => ⟨rfl, rfl⟩

theorem Declares.bind {x : Emit α} {f : α → Emit β} (hx : Declares j x)
    (hf : ∀ a, Declares k (f a)) : Declares (j + k) (x >>= f) where
  locals e := by
    have first := hx.locals e
    have rest := (hf (x e).1).locals (x e).2
    rw [bind_apply]
    omega
  regions e := ((hf (x e).1).regions (x e).2).trans (hx.regions e)

theorem Declares.mono {x : Emit α} (hx : Declares j x) (le : j ≤ k) : Declares k x :=
  ⟨fun e => Nat.le_trans (hx.locals e) (Nat.add_le_add_left le _), hx.regions⟩

/-- What declares nothing does not count. -/
theorem Declares.andThen {x : Emit α} {f : α → Emit β} (hx : Declares 0 x)
    (hf : ∀ a, Declares k (f a)) : Declares k (x >>= f) :=
  (hx.bind hf).mono (Nat.le_of_eq (Nat.zero_add k))

theorem declares_forM {l : List α} {f : α → Emit PUnit} (hf : ∀ a, Declares k (f a)) :
    Declares (k * l.length) (l.forM f) := by
  induction l with
  | nil => exact declares_pure _
  | cons a l ih =>
    rw [List.length_cons, Nat.mul_succ, Nat.add_comm]
    exact (hf a).bind fun _ => ih

theorem declares_instr (i : Instr) : Declares k (instr i) := .of_same fun e => e.same_push i

theorem same_instrs (is : List Instr) (e : Emitter) : e.Same (instrs is e).2 := by
  rw [instrs_apply]
  induction is generalizing e with
  | nil => exact ⟨rfl, rfl⟩
  | cons i is ih => exact (e.same_push i).trans (ih _)

theorem declares_instrs (is : List Instr) : Declares k (instrs is) := .of_same (same_instrs is)

theorem declares_defineLabel : Declares k defineLabel := .of_same fun _ => ⟨rfl, rfl⟩

theorem declares_markLabel (l : Label) : Declares k (markLabel l) :=
  .of_same fun e => e.same_placeLabel l

theorem declares_declareLocal (t : TypeRef) : Declares 1 (declareLocal t) :=
  ⟨fun e => by simp [Emitter.newLocal], fun _ => rfl⟩

theorem declares_declarePinned (t : TypeRef) : Declares 1 (declarePinned t) :=
  ⟨fun e => by simp [Emitter.newLocal], fun _ => rfl⟩

theorem regions_of_body {x : Emit Unit} {body : Body} (made : Emit.body x = .ok body) :
    body.regions = (x Emitter.empty).2.regions.toList := by
  unfold Emit.body Emitter.finish at made
  split at made
  · cases made
  · obtain ⟨labels, -, rfl⟩ := map_eq_ok made
    rfl

end Emit

namespace StubBody

open Emit (declares_pure declares_instr declares_instrs declares_defineLabel declares_markLabel
  declares_declareLocal declares_declarePinned)

theorem declares_emitPinnedArray (load : Instr) (element : TypeRef) :
    Emit.Declares 1 (emitPinnedArray load element) := by
  refine (declares_declarePinned _).bind (k := 0) fun pin => declares_defineLabel.andThen fun empty =>
    declares_defineLabel.andThen fun done => (declares_instrs _).andThen fun _ =>
      (declares_markLabel _).andThen fun _ => ?_
  exact (declares_instrs _).andThen fun _ => declares_markLabel _

/-- An argument needs two locals at most: for bytes and for a pin. -/
theorem declares_emitArgument (helper : TypeName) (slot : ParamSlot) (index : UInt16)
    (addresses : Option UInt16) : Emit.Declares 2 (emitArgument helper slot index addresses) := by
  unfold emitArgument
  split
  case h_1 => exact declares_instr _
  case h_2 =>
    refine (declares_instrs _).andThen fun _ => ?_
    split
    · exact declares_instr _
    · exact declares_pure _
  case h_3 => exact (declares_declarePinned _).bind (k := 1) fun pin => declares_instrs _
  case h_4 => exact (declares_emitPinnedArray _ _).mono (by decide)
  case h_5 =>
    exact (declares_declarePinned _).bind (k := 1) fun pin => declares_defineLabel.andThen fun null =>
      (declares_instrs _).andThen fun _ => declares_markLabel _
  case h_6 =>
    exact (declares_declareLocal _).bind (k := 1) fun array => (declares_instrs _).andThen fun _ =>
      declares_emitPinnedArray _ _
  case h_7 =>
    split
    · exact (declares_emitPinnedArray _ _).mono (by decide)
    · exact declares_pure _
  case h_8 =>
    refine declares_defineLabel.andThen fun present => declares_defineLabel.andThen fun done =>
      (declares_instrs _).andThen fun _ => (declares_instrs _).andThen fun _ => ?_
    exact (declares_instr _).andThen fun _ => (declares_markLabel _).andThen fun _ =>
      (declares_instrs _).andThen fun _ => declares_markLabel _

/-- How many locals an argument needs besides that of its table, if it has one. -/
def localsFor (addresses : Option UInt16) : Nat := if addresses.isSome then 1 else 2

theorem declares_emitArgument_made (helper : TypeName) {slot : ParamSlot} (index : UInt16)
    {addresses : Option UInt16} (made : slot.plan.isStringArray = addresses.isSome) :
    Emit.Declares (localsFor addresses) (emitArgument helper slot index addresses) := by
  cases addresses with
  | none => exact declares_emitArgument helper slot index none
  | some table =>
    cases plan : slot.plan with
    | stringArray encoding =>
      simp only [emitArgument, plan]
      exact declares_emitPinnedArray _ _
    | _ =>
      rw [plan] at made
      cases made

/-- How many locals all arguments need. -/
def allLocals (slots : List (ParamSlot × Option UInt16)) : Nat :=
  (slots.map fun slot => localsFor slot.2).sum

theorem declares_emitArguments (helper : TypeName) {slots : List (ParamSlot × Option UInt16)}
    (made : Made slots) (i : Nat) : Emit.Declares (allLocals slots)
      ((slots.zipIdx i).forM fun ((slot, addresses), index) =>
        emitArgument helper slot (UInt16.ofNat index) addresses) := by
  induction slots generalizing i with
  | nil => exact declares_pure _
  | cons slot slots ih =>
    obtain ⟨made₁, made⟩ := List.forall_mem_cons.mp made
    exact (declares_emitArgument_made helper (UInt16.ofNat i) made₁).bind fun _ => ih made (i + 1)

theorem declares_emitAddressArrayFor (slot : ParamSlot) (index : Nat) :
    Emit.Declares 1 (emitAddressArrayFor slot index) := by
  unfold emitAddressArrayFor
  split
  · refine (declares_declareLocal _).bind (k := 0) fun table => ?_
    refine Emit.Declares.andThen ?_ fun _ => declares_pure _
    exact declares_defineLabel.andThen fun present => declares_defineLabel.andThen fun sized =>
      (declares_instrs _).andThen fun _ => (declares_markLabel _).andThen fun _ =>
        (declares_instrs _).andThen fun _ => (declares_markLabel _).andThen fun _ => declares_instrs _
  · exact declares_pure _

theorem declares_emitSlots (params : List (ParamSlot × Nat)) :
    Emit.Declares params.length (emitSlots params) := by
  induction params with
  | nil => exact declares_pure _
  | cons param params ih =>
    have first : Emit.Declares 1 (do
        return (param.1, ← emitAddressArrayFor param.1 param.2) : Emit (ParamSlot × Option UInt16)) :=
      (declares_emitAddressArrayFor param.1 param.2).bind (k := 0) fun _ => declares_pure _
    rw [emitSlots, List.mapM_cons, List.length_cons, Nat.add_comm]
    exact first.bind fun slot => ih.bind (k := 0) fun slots => declares_pure _

/-- All arguments together need no more than two locals each, the tables among them. -/
theorem locals_emitSlots {params : List (ParamSlot × Nat)} {slots : List (ParamSlot × Option UInt16)}
    {e e' : Emitter} (emits : emitSlots params e = (slots, e')) :
    e'.locals.size + allLocals slots ≤ e.locals.size + 2 * params.length := by
  induction params generalizing e slots with
  | nil =>
    cases emits
    exact Nat.le_refl _
  | cons param params ih =>
    rcases first : emitAddressArrayFor param.1 param.2 e with ⟨addresses, e₁⟩
    rcases rest : emitSlots params e₁ with ⟨slots', e₂⟩
    have one : e₁.locals.size + localsFor addresses ≤ e.locals.size + 2 := by
      have kept := (declares_emitAddressArrayFor param.1 param.2).locals e
      rw [first] at kept
      cases array : param.1.plan.isStringArray with
      | false =>
        rw [emitAddressArrayFor, array] at first
        cases first
        exact Nat.le_refl _
      | true =>
        rw [emitAddressArrayFor, array] at first
        cases first
        exact Nat.add_le_add_right kept 1
    obtain ⟨rfl, rfl⟩ : slots = (param.1, addresses) :: slots' ∧ e' = e₂ := by
      have whole : emitSlots (param :: params) e = ((param.1, addresses) :: slots', e₂) := by
        simp only [emitSlots, List.mapM_cons, Emit.bind_apply, Emit.pure_apply, first] at rest ⊢
        rw [rest]
      exact Prod.mk.inj (emits.symm.trans whole)
    have more := ih rest
    simp only [allLocals, List.map_cons, List.sum_cons, List.length_cons] at more ⊢
    omega

theorem declares_emitCopies (helper : TypeName) (slot : ParamSlot) (index : Nat)
    (addresses : Option UInt16) : Emit.Declares 0 (emitCopies helper slot index addresses) := by
  unfold emitCopies
  split
  · exact declares_instrs _
  · exact declares_pure _

theorem declares_emitFrees (helper : TypeName) (addresses : Option UInt16) :
    Emit.Declares 0 (emitFrees helper addresses) := by
  cases addresses with
  | none => exact declares_pure _
  | some table => exact declares_instrs _

theorem declares_emitResult (slot : ReturnSlot) : Emit.Declares 0 (emitResult slot) := by
  unfold emitResult
  split
  case isTrue => exact declares_pure _
  case isFalse =>
    split
    case h_1 => exact declares_instrs _
    case h_2 | h_3 => exact declares_instr _
    case h_4 =>
      exact declares_defineLabel.andThen fun present => declares_defineLabel.andThen fun done =>
        (declares_instrs _).andThen fun _ => (declares_markLabel _).andThen fun _ =>
          (declares_instrs _).andThen fun _ => declares_markLabel _
    all_goals exact declares_pure _

theorem declares_emitCall (helper : TypeName) (s : StubScaffold)
    {slots : List (ParamSlot × Option UInt16)} (made : Made slots) :
    Emit.Declares (allLocals slots) (emitCall helper s slots) := by
  have code := (declares_instrs [.ldsfld s.cell, .call s.thunk]).andThen fun _ =>
    declares_emitResult s.stub.returns
  exact (declares_emitArguments helper made 0).bind (k := 0) fun _ => code

theorem declares_emitReady (s : StubScaffold) : Emit.Declares 0 (emitReady s) :=
  declares_defineLabel.andThen fun _ => (declares_instrs _).andThen fun _ => declares_markLabel _

end StubBody

end LateBind

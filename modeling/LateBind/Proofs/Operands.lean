import LateBind.Proofs.Declarations
import LateBind.Proofs.EmittedHeights
import LateBind.Proofs.VerifiedCode

/-! # Operands of generated code

Operands and the height of the stack are words of sixteen bits. The code of a stub loads each parameter
by its own number, and stores to each of its locals once, in the order of their numbers; both numbers
are counted without a bound and then cut to a word. Nothing is lost while there are words enough. -/

namespace LateBind

namespace Instr

/-- The parameter that the instruction loads. -/
def loaded? : Instr → Option UInt16
  | ldarg index => some index
  | _ => none

/-- The local that the instruction stores to. -/
def stored? : Instr → Option UInt16
  | stloc index => some index
  | _ => none

/-- The instruction names no parameter, and no local to store to. -/
def IsSilent (i : Instr) : Prop := i.loaded? = none ∧ i.stored? = none

end Instr

/-! ## Numbers -/

namespace Emitter

/-- The code that was added loads so many parameters and stores to the locals that it owes, and then to
each of so many new ones. -/
structure Numbers (owed : List UInt16) (loads : List Nat) (locals : Nat) (e e' : Emitter) : Prop where
  loads : e'.instrs.toList.filterMap Instr.loaded? =
    e.instrs.toList.filterMap Instr.loaded? ++ loads.map UInt16.ofNat
  stores : e'.instrs.toList.filterMap Instr.stored? = e.instrs.toList.filterMap Instr.stored? ++
    (owed ++ (List.range' e.locals.size locals).map UInt16.ofNat)
  locals : e'.locals.size = e.locals.size + locals

variable {owed : List UInt16} {loads loads' : List Nat} {locals locals' : Nat} {e e' e'' : Emitter}

theorem Numbers.trans (first : e.Numbers owed loads locals e')
    (second : e'.Numbers [] loads' locals' e'') :
    e.Numbers owed (loads ++ loads') (locals + locals') e'' where
  loads := by rw [second.loads, first.loads, List.map_append, List.append_assoc]
  stores := by
    rw [second.stores, first.stores, first.locals, List.nil_append, List.append_assoc,
      List.append_assoc, ← List.map_append, List.range'_append_1]
  locals := by rw [second.locals, first.locals, Nat.add_assoc]

end Emitter

namespace Emit

variable {α β : Type} {owed : List UInt16} {l r : List Nat} {n d : Nat}

/-- The computation adds code that loads so many parameters, and stores to the locals that it owes and
to those that it declares. -/
def Numbers (owed : List UInt16) (loads : List Nat) (locals : Nat) (x : Emit α) : Prop :=
  ∀ e : Emitter, e.Numbers owed loads locals (x e).2

/-- Nothing is loaded, stored or declared. -/
theorem numbers_of_silent {x : Emit α} (code : Only Instr.IsSilent x)
    (locals : ∀ e : Emitter, (x e).2.locals = e.locals) : Numbers [] [] 0 x := by
  intro e
  obtain ⟨is, eq, silent⟩ := code e
  have loads : is.filterMap Instr.loaded? = [] :=
    List.filterMap_eq_nil_iff.mpr fun i hi => (silent i hi).1
  have stores : is.filterMap Instr.stored? = [] :=
    List.filterMap_eq_nil_iff.mpr fun i hi => (silent i hi).2
  constructor
  · rw [eq, List.filterMap_append, loads]
    rfl
  · rw [eq, List.filterMap_append, stores]
    rfl
  · rw [locals]
    rfl

theorem numbers_pure (a : α) : Numbers [] [] 0 (pure a : Emit α) :=
  numbers_of_silent (only_pure a) fun _ => rfl

theorem Numbers.bind {x : Emit α} {f : α → Emit β} (hx : Numbers owed l n x)
    (hf : ∀ a, Numbers [] r d (f a)) : Numbers owed (l ++ r) (n + d) (x >>= f) :=
  fun e => (hx e).trans (hf _ _)

/-- What follows only sees results that the first computation has. -/
theorem Numbers.bind_of {R : α → Prop} {x : Emit α} {f : α → Emit β} (hx : Numbers owed l n x)
    (result : ∀ e, R (x e).1) (hf : ∀ a, R a → Numbers [] r d (f a)) :
    Numbers owed (l ++ r) (n + d) (x >>= f) :=
  fun e => (hx e).trans (hf _ (result e) _)

/-- Code that neither stores nor declares can come before the stores that are owed. -/
theorem Numbers.loadFirst {x : Emit α} {f : α → Emit β} (hx : Numbers [] l 0 x)
    (hf : ∀ a, Numbers owed r n (f a)) : Numbers owed (l ++ r) n (x >>= f) := by
  intro e
  have first := hx e
  have rest := hf (x e).1 (x e).2
  constructor
  · rw [bind_apply, rest.loads, first.loads, List.map_append, List.append_assoc]
  · rw [bind_apply, rest.stores, first.stores, first.locals]
    simp
  · rw [bind_apply, rest.locals, first.locals, Nat.add_zero]

/-- What is silent does not count. -/
theorem Numbers.andThen {x : Emit α} {f : α → Emit β} (hx : Numbers [] [] 0 x)
    (hf : ∀ a, Numbers owed l n (f a)) : Numbers owed l n (x >>= f) := hx.loadFirst hf

theorem Numbers.declareAfter {x : Emit α} {f : α → Emit β} (hx : Numbers owed l n x)
    (hf : ∀ a, Numbers [] [] d (f a)) : Numbers owed l (n + d) (x >>= f) := by
  have all := hx.bind hf
  rwa [List.append_nil] at all

theorem Numbers.before {x : Emit α} {f : α → Emit β} (hx : Numbers owed l n x)
    (hf : ∀ a, Numbers [] [] 0 (f a)) : Numbers owed l n (x >>= f) := hx.declareAfter hf

/-- A local that is declared is owed a store. -/
theorem numbers_newLocal (t : TypeRef) (pinned : Bool) {f : UInt16 → Emit β}
    (hf : ∀ index, Numbers [index] l n (f index)) :
    Numbers [] l (n + 1) ((fun e => e.newLocal t pinned : Emit UInt16) >>= f) := by
  intro e
  have rest := hf (e.newLocal t pinned).1 (e.newLocal t pinned).2
  have size : (e.newLocal t pinned).2.locals.size = e.locals.size + 1 := by simp [Emitter.newLocal]
  have instrs : (e.newLocal t pinned).2.instrs = e.instrs := rfl
  have number : (e.newLocal t pinned).1 = UInt16.ofNat e.locals.size := rfl
  rw [bind_apply]
  constructor
  · rw [rest.loads, instrs]
  · rw [rest.stores, instrs, size, number, List.nil_append, List.range'_succ]
    rfl
  · rw [rest.locals, size, Nat.add_assoc, Nat.add_comm 1]

theorem numbers_declareLocal (t : TypeRef) {f : UInt16 → Emit β}
    (hf : ∀ index, Numbers [index] l n (f index)) : Numbers [] l (n + 1) (declareLocal t >>= f) :=
  numbers_newLocal t false hf

theorem numbers_declarePinned (t : TypeRef) {f : UInt16 → Emit β}
    (hf : ∀ index, Numbers [index] l n (f index)) : Numbers [] l (n + 1) (declarePinned t >>= f) :=
  numbers_newLocal t true hf

theorem toList_instrs (is : List Instr) (e : Emitter) :
    (instrs is e).2.instrs.toList = e.instrs.toList ++ is := by
  rw [instrs_apply]
  induction is generalizing e with
  | nil => exact (List.append_nil _).symm
  | cons i is ih =>
    refine (ih (e.push i)).trans ?_
    rw [Emitter.instrs_push, Array.toList_push, List.append_assoc]
    rfl

theorem numbers_instrs {is : List Instr} (loads : is.filterMap Instr.loaded? = l.map UInt16.ofNat)
    (stores : is.filterMap Instr.stored? = owed) : Numbers owed l 0 (instrs is) := by
  intro e
  have code : (instrs is e).2.instrs.toList = e.instrs.toList ++ is := toList_instrs is e
  constructor
  · rw [code, List.filterMap_append, loads]
  · rw [code, List.filterMap_append, stores, List.range'_zero, List.map_nil, List.append_nil]
  · rw [same_instrs is e |>.locals]
    rfl

theorem numbers_instr {i : Instr} (loads : i.loaded?.toList = l.map UInt16.ofNat)
    (stores : i.stored?.toList = owed) : Numbers owed l 0 (instr i) := by
  have single : Numbers owed l 0 (instrs [i]) := numbers_instrs (by rw [← loads]; cases i <;> rfl)
    (by rw [← stores]; cases i <;> rfl)
  exact single

theorem numbers_defineLabel : Numbers [] [] 0 defineLabel :=
  numbers_of_silent only_defineLabel fun _ => rfl

theorem numbers_markLabel (label : Label) : Numbers [] [] 0 (markLabel label) :=
  numbers_of_silent (only_markLabel label) fun e => (e.same_placeLabel label).locals

theorem numbers_beginTry : Numbers [] [] 0 beginTry := by
  refine numbers_of_silent only_beginTry fun e => ?_
  rw [beginTry_apply]
  unfold Emitter.openTry
  dsimp only
  split <;> rfl

theorem numbers_beginFinally : Numbers [] [] 0 beginFinally := by
  refine numbers_of_silent (only_beginFinally fun _ => ⟨rfl, rfl⟩) fun e => ?_
  rw [beginFinally_apply]
  unfold Emitter.openFinally
  split
  · rfl
  · dsimp only
    split <;> split <;> first | rfl | exact (e.same_push _).locals

theorem numbers_endTry : Numbers [] [] 0 endTry := by
  refine numbers_of_silent (only_endTry ⟨rfl, rfl⟩) fun e => ?_
  rw [endTry_apply]
  unfold Emitter.closeTry
  split
  · rfl
  · dsimp only
    split
    · rfl
    · rw [(Emitter.same_placeLabel _ _).locals]
      split
      · exact (Emitter.same_push _ _).locals
      · rfl

theorem numbers_forM {items : List α} (loads : α → List Nat) (locals : α → Nat) {f : α → Emit PUnit}
    (hf : ∀ a ∈ items, Numbers [] (loads a) (locals a) (f a)) :
    Numbers [] (items.flatMap loads) (items.map locals).sum (items.forM f) := by
  induction items with
  | nil => exact numbers_pure _
  | cons a items ih =>
    rw [List.forall_mem_cons] at hf
    exact hf.1.bind fun _ => ih hf.2

theorem numbers_mapM {items : List α} {loads : α → List Nat} {locals : α → Nat} {f : α → Emit β}
    (hf : ∀ a ∈ items, Numbers [] (loads a) (locals a) (f a)) :
    Numbers [] (items.flatMap loads) (items.map locals).sum (items.mapM f) := by
  induction items with
  | nil => exact numbers_pure _
  | cons a items ih =>
    rw [List.forall_mem_cons] at hf
    rw [List.mapM_cons]
    exact hf.1.bind fun _ => (ih hf.2).before fun _ => numbers_pure _

theorem locals_of_body {x : Emit Unit} {body : Body} (made : Emit.body x = .ok body) :
    body.locals = (x Emitter.empty).2.locals.toList := by
  unfold Emit.body Emitter.finish at made
  split at made
  · cases made
  · obtain ⟨labels, -, rfl⟩ := map_eq_ok made
    rfl

/-- The operands of a body that was emitted from the start. -/
theorem Numbers.body {x : Emit Unit} (hx : Numbers [] l n x) {body : Body}
    (made : Emit.body x = .ok body) :
    body.instrs.filterMap Instr.loaded? = l.map UInt16.ofNat ∧
      body.instrs.filterMap Instr.stored? = (List.range n).map UInt16.ofNat ∧
      body.locals.length = n := by
  have numbers := hx Emitter.empty
  rw [instrs_of_body made, locals_of_body made, List.range_eq_range']
  refine ⟨numbers.loads, numbers.stores, ?_⟩
  rw [Array.length_toList, numbers.locals]
  exact Nat.zero_add n

end Emit

/-! ## Operands of stubs -/

/-- How many times the code for an argument loads the parameter. -/
def SlotPlan.loads : SlotPlan → Nat
  | blittableArray => 3
  | delegate => 2
  | stringArray _ => 0
  | _ => 1

/-- How many locals the code for an argument declares. -/
def SlotPlan.locals : SlotPlan → Nat
  | byRef | blittableArray | unicodeString | stringArray _ => 1
  | ansiString => 2
  | _ => 0

namespace Stub

/-- Each string array so many times. -/
def arrayLoads (s : Stub) (times : Nat) : List Nat :=
  s.params.zipIdx.flatMap fun (p, i) => if p.plan.isStringArray then List.replicate times i else []

def argumentLoads (s : Stub) : List Nat :=
  s.params.zipIdx.flatMap fun (p, i) => List.replicate p.plan.loads i

/-- The parameters that the body of a stub loads, in order: for the address arrays, for the copies of
strings, and for the arguments. -/
def loads (s : Stub) : List Nat := s.arrayLoads 2 ++ (s.arrayLoads 1 ++ s.argumentLoads)

/-- How many locals the body of a stub has: address arrays, those of arguments, and the one that keeps a
result while copies are freed. -/
def localCount (s : Stub) : Nat :=
  (s.params.map fun p => if p.plan.isStringArray then 1 else 0).sum +
    ((s.params.map (·.plan.locals)).sum +
      if s.hasStringArrays && !s.returns.type.isVoid then 1 else 0)

end Stub

namespace StubBody

open Emit (numbers_pure numbers_instr numbers_instrs numbers_defineLabel numbers_markLabel
  numbers_declareLocal numbers_declarePinned)

variable (helper : TypeName)

theorem numbers_emitPinnedArray {load : Instr} {l : List Nat} (element : TypeRef)
    (loads : [load, load, load].filterMap Instr.loaded? = l.map UInt16.ofNat)
    (stores : load.stored? = none) : Emit.Numbers [] l 1 (emitPinnedArray load element) := by
  refine numbers_declarePinned _ fun pin => numbers_defineLabel.andThen fun empty =>
    numbers_defineLabel.andThen fun done => (numbers_instrs (l := l) ?_ ?_).before fun _ =>
      (numbers_markLabel _).andThen fun _ => ?_
  · rw [← loads]
    cases load <;> rfl
  · cases load <;> first | rfl | cases stores
  · exact (numbers_instrs (l := []) (by rfl) (by rfl)).andThen fun _ => numbers_markLabel _

/-- The code for an argument loads its own parameter. -/
theorem numbers_emitArgument (slot : ParamSlot) (index : Nat) {addresses : Option UInt16}
    (made : slot.plan.isStringArray = addresses.isSome) :
    Emit.Numbers [] (List.replicate slot.plan.loads index) slot.plan.locals
      (emitArgument helper slot (UInt16.ofNat index) addresses) := by
  unfold emitArgument
  cases plan : slot.plan with
  | direct => exact numbers_instr (by rfl) (by rfl)
  | boolean width =>
    refine (numbers_instrs (by rfl) (by rfl)).before fun _ => ?_
    split
    · exact numbers_instr (by rfl) (by rfl)
    · exact numbers_pure _
  | byRef => exact numbers_declarePinned _ fun pin => numbers_instrs (by rfl) (by rfl)
  | blittableArray => exact numbers_emitPinnedArray _ (by rfl) (by rfl)
  | unicodeString =>
    exact numbers_declarePinned _ fun pin => numbers_defineLabel.andThen fun null =>
      (numbers_instrs (by rfl) (by rfl)).before fun _ => numbers_markLabel _
  | ansiString =>
    exact numbers_declareLocal _ fun bytes => Emit.Numbers.bind (l := [index]) (r := []) (d := 1)
      (numbers_instrs (by rfl) (by rfl)) fun _ => numbers_emitPinnedArray _ (by rfl) (by rfl)
  | stringArray encoding =>
    cases addresses with
    | none => simp [plan, SlotPlan.isStringArray] at made
    | some a => exact numbers_emitPinnedArray _ (by rfl) (by rfl)
  | delegate =>
    refine numbers_defineLabel.andThen fun present => numbers_defineLabel.andThen fun done =>
      (numbers_instrs (l := [index]) (by rfl) (by rfl)).bind (r := [index]) (d := 0) fun _ => ?_
    refine (numbers_instrs (l := []) (by rfl) (by rfl)).andThen fun _ =>
      (numbers_instr (l := []) (by rfl) (by rfl)).andThen fun _ =>
        (numbers_markLabel _).andThen fun _ => ?_
    exact (numbers_instrs (by rfl) (by rfl)).before fun _ => numbers_markLabel _

theorem numbers_emitResult (slot : ReturnSlot) : Emit.Numbers [] [] 0 (emitResult slot) := by
  unfold emitResult
  split
  case isTrue => exact numbers_pure _
  case isFalse =>
    split
    case h_1 => exact numbers_instrs (by rfl) (by rfl)
    case h_2 | h_3 => exact numbers_instr (by rfl) (by rfl)
    case h_4 =>
      refine numbers_defineLabel.andThen fun present => numbers_defineLabel.andThen fun done =>
        (numbers_instrs (l := []) (by rfl) (by rfl)).andThen fun _ =>
          (numbers_markLabel _).andThen fun _ => ?_
      exact (numbers_instrs (l := []) (by rfl) (by rfl)).andThen fun _ => numbers_markLabel _
    all_goals exact numbers_pure _

/-! ### Bodies -/

theorem zipIdx_fst {slots : List (ParamSlot × Option UInt16)} {params : List ParamSlot}
    (own : slots.map Prod.fst = params) :
    params.zipIdx = slots.zipIdx.map fun x => (x.1.1, x.2) := by
  rw [← own, List.zipIdx_map]
  rfl

variable {s : StubScaffold} {slots : List (ParamSlot × Option UInt16)}

theorem numbers_emitCall (own : slots.map Prod.fst = s.stub.params) (made : Made slots) :
    Emit.Numbers [] s.stub.argumentLoads (s.stub.params.map (·.plan.locals)).sum
      (emitCall helper s slots) := by
  have arguments := Emit.numbers_forM (fun x => List.replicate x.1.1.plan.loads x.2)
    (fun x => x.1.1.plan.locals) fun x (hx : x ∈ slots.zipIdx) =>
      numbers_emitArgument helper x.1.1 x.2 (made x.1 (List.fst_mem_of_mem_zipIdx hx))
  have loads : slots.zipIdx.flatMap (fun x => List.replicate x.1.1.plan.loads x.2) =
      s.stub.argumentLoads := by rw [Stub.argumentLoads, zipIdx_fst own, List.flatMap_map]
  have locals : slots.zipIdx.map (fun x => x.1.1.plan.locals) =
      s.stub.params.map (·.plan.locals) := by
    rw [← own, List.map_map, ← List.zipIdx_map_fst 0 slots, List.map_map]
    simp only [List.zipIdx_map_fst]
    rfl
  rw [loads, locals] at arguments
  unfold emitCall
  exact arguments.before fun _ =>
    (numbers_instrs (l := []) (by rfl) (by rfl)).andThen fun _ => numbers_emitResult _

/-- The copies of a string array are made from its parameter. -/
theorem numbers_emitCopies (slot : ParamSlot) (index : Nat) {addresses : Option UInt16}
    (made : slot.plan.isStringArray = addresses.isSome) :
    Emit.Numbers [] (if slot.plan.isStringArray then [index] else []) 0
      (emitCopies helper slot index addresses) := by
  unfold emitCopies
  cases plan : slot.plan with
  | stringArray encoding =>
    cases addresses with
    | none => simp [plan, SlotPlan.isStringArray] at made
    | some a => exact numbers_instrs (by rfl) (by rfl)
  | _ => exact numbers_pure _

theorem numbers_emitFrees (addresses : Option UInt16) :
    Emit.Numbers [] [] 0 (emitFrees helper addresses) := by
  cases addresses with
  | none => exact numbers_pure _
  | some a => exact numbers_instrs (by rfl) (by rfl)

theorem numbers_emitAddressArrayFor (slot : ParamSlot) (index : Nat) :
    Emit.Numbers [] (if slot.plan.isStringArray then [index, index] else [])
      (if slot.plan.isStringArray then 1 else 0) (emitAddressArrayFor slot index) := by
  unfold emitAddressArrayFor
  split
  case isFalse => exact numbers_pure _
  case isTrue =>
    refine numbers_declareLocal _ fun addresses => Emit.Numbers.before ?_ fun _ => numbers_pure _
    refine numbers_defineLabel.andThen fun present => numbers_defineLabel.andThen fun sized =>
      Emit.Numbers.loadFirst (l := [index]) (r := [index]) (numbers_instrs (by rfl) (by rfl))
        fun _ => ?_
    exact (numbers_markLabel _).andThen fun _ => Emit.Numbers.loadFirst (l := [index]) (r := [])
      (numbers_instrs (by rfl) (by rfl)) fun _ => (numbers_markLabel _).andThen fun _ =>
        numbers_instrs (by rfl) (by rfl)

theorem numbers_emitSlots (params : List (ParamSlot × Nat)) :
    Emit.Numbers [] (params.flatMap fun (p, i) =>
        if p.plan.isStringArray then [i, i] else [])
      (params.map fun (p, _) => if p.plan.isStringArray then 1 else 0).sum (emitSlots params) :=
  Emit.numbers_mapM fun (p, i) _ =>
    (numbers_emitAddressArrayFor p i).before fun _ => numbers_pure _

/-- Each slot has the local of its address array if it is a string array. -/
theorem emitSlots_made (params : List (ParamSlot × Nat)) (e : Emitter) :
    (emitSlots params e).1.map Prod.fst = params.map Prod.fst ∧ Made (emitSlots params e).1 := by
  induction params generalizing e with
  | nil => exact ⟨rfl, by simp [emitSlots, Made]⟩
  | cons param params ih =>
    have made : param.1.plan.isStringArray = (emitAddressArrayFor param.1 param.2 e).1.isSome := by
      unfold emitAddressArrayFor
      split
      · next array => rw [array]; rfl
      · next other => rw [Bool.not_eq_true] at other; rw [other]; rfl
    obtain ⟨own, rest⟩ := ih (emitAddressArrayFor param.1 param.2 e).2
    unfold emitSlots at own rest ⊢
    rw [List.mapM_cons]
    exact ⟨congrArg (param.1 :: ·) own, List.forall_mem_cons.mpr ⟨made, rest⟩⟩

theorem numbers_emitProtectedCall (own : slots.map Prod.fst = s.stub.params) (made : Made slots) :
    Emit.Numbers [] (s.stub.arrayLoads 1 ++ s.stub.argumentLoads)
      ((s.stub.params.map (·.plan.locals)).sum +
        if s.stub.returns.type.isVoid then 0 else 1) (emitProtectedCall helper s slots) := by
  have copies := Emit.numbers_forM (fun x => if x.1.1.plan.isStringArray then [x.2] else [])
    (fun _ => 0) fun x (hx : x ∈ slots.zipIdx) =>
      numbers_emitCopies helper x.1.1 x.2 (made x.1 (List.fst_mem_of_mem_zipIdx hx))
  have loads : slots.zipIdx.flatMap (fun x => if x.1.1.plan.isStringArray then [x.2] else []) =
      s.stub.arrayLoads 1 := by
    rw [Stub.arrayLoads, zipIdx_fst own, List.flatMap_map]
    rfl
  have none : (slots.zipIdx.map fun _ => 0).sum = 0 := by simp
  rw [loads, none] at copies
  have frees : Emit.Numbers [] [] 0 (slots.forM fun slot =>
      emitFrees helper slot.2) := by
    have all := Emit.numbers_forM (fun _ => []) (fun _ => 0) fun slot (_ : slot ∈ slots) =>
      numbers_emitFrees helper slot.2
    have none : slots.flatMap (fun _ => ([] : List Nat)) = [] := by simp
    have zero : (slots.map fun _ => 0).sum = 0 := by simp
    rwa [none, zero] at all
  -- What follows the call: the result waits in a local while the copies are freed.
  have closes {code : Emit Unit} (silent : Emit.Numbers [] [] 0 code) : Emit.Numbers [] [] 0 (do
      Emit.beginFinally
      slots.forM fun slot => emitFrees helper slot.2
      Emit.endTry
      code : Emit Unit) :=
    Emit.numbers_beginFinally.andThen fun _ => frees.andThen fun _ =>
      Emit.numbers_endTry.andThen fun _ => silent
  unfold emitProtectedCall
  refine Emit.numbers_beginTry.andThen fun _ => copies.loadFirst fun _ =>
    (numbers_emitCall helper own made).declareAfter fun _ => ?_
  split
  case isTrue => exact closes (numbers_pure ())
  case isFalse =>
    have stored : Emit.Numbers [] [] 1 (Emit.declareLocal s.stub.returns.type >>= fun result => do
        Emit.instr (.stloc result)
        Emit.beginFinally
        slots.forM fun slot => emitFrees helper slot.2
        Emit.endTry
        Emit.instr (.ldloc result) : Emit Unit) :=
      numbers_declareLocal _ fun result => (numbers_instr (by rfl) (by rfl)).before fun _ =>
        closes (numbers_instr (by rfl) (by rfl))
    exact stored

/-- Without string arrays there is nothing to copy. -/
theorem arrayLoads_of_not_hasStringArrays {s : Stub} (none : s.hasStringArrays = false)
    (times : Nat) : s.arrayLoads times = [] := by
  refine List.flatMap_eq_nil_iff.mpr fun x hx => ?_
  have plain := List.any_eq_false.mp none x.1 (List.fst_mem_of_mem_zipIdx hx)
  exact if_neg plain

/-- The body of a stub loads its parameters and stores to its locals, each by its own number. -/
theorem numbers_emit (helper : TypeName) (s : StubScaffold) :
    Emit.Numbers [] s.stub.loads s.stub.localCount (emit helper s) := by
  have slots : Emit.Numbers [] (s.stub.arrayLoads 2)
      (s.stub.params.map fun p => if p.plan.isStringArray then 1 else 0).sum
      (emitSlots s.stub.params.zipIdx) := by
    have all := numbers_emitSlots s.stub.params.zipIdx
    have arrays : (s.stub.params.zipIdx.map fun (p, _) => if p.plan.isStringArray then 1 else 0) =
        s.stub.params.map fun p => if p.plan.isStringArray then 1 else 0 := by
      rw [← List.zipIdx_map_fst 0 s.stub.params, List.map_map]
      simp only [List.zipIdx_map_fst]
      rfl
    rw [arrays] at all
    exact all
  have call {slots : List (ParamSlot × Option UInt16)} (own : slots.map Prod.fst = s.stub.params)
      (made : Made slots) : Emit.Numbers [] (s.stub.arrayLoads 1 ++ s.stub.argumentLoads)
        ((s.stub.params.map (·.plan.locals)).sum +
          if s.stub.hasStringArrays && !s.stub.returns.type.isVoid then 1 else 0) (do
        if s.stub.hasStringArrays then emitProtectedCall helper s slots
        else emitCall helper s slots
        Emit.instr .ret : Emit Unit) := by
    cases arrays : s.stub.hasStringArrays with
    | true =>
      have inner := numbers_emitProtectedCall helper own made
      refine Emit.Numbers.before ?_ fun _ => numbers_instr (by rfl) (by rfl)
      cases void : s.stub.returns.type.isVoid with
      | true =>
        rw [void] at inner
        exact inner
      | false =>
        rw [void] at inner
        exact inner
    | false =>
      have inner := numbers_emitCall helper own made
      rw [arrayLoads_of_not_hasStringArrays arrays]
      exact inner.before fun _ => numbers_instr (by rfl) (by rfl)
  unfold emit
  refine numbers_defineLabel.andThen fun ready =>
    (numbers_instrs (l := []) (by rfl) (by rfl)).andThen fun _ =>
      (Emit.numbers_markLabel _).andThen fun _ => Emit.Numbers.bind_of
        (R := fun slots => slots.map Prod.fst = s.stub.params.zipIdx.map Prod.fst ∧ Made slots)
        slots (emitSlots_made _) ?_
  rintro slots ⟨own, made⟩
  rw [List.zipIdx_map_fst] at own
  exact call own made

/-- The operands of a stub's body are numbers that were cut to words: those of the parameters, and
those of the locals, which count all that were declared. -/
theorem operands_of_compile {body : Body} (made : compile helper s = .ok body) :
    body.instrs.filterMap Instr.loaded? = s.stub.loads.map UInt16.ofNat ∧
      body.instrs.filterMap Instr.stored? = (List.range s.stub.localCount).map UInt16.ofNat ∧
      body.locals.length = s.stub.localCount :=
  (numbers_emit helper s).body (body_of_compile made)

end StubBody

/-! ## Numbers that are exact -/

open Instr (effect countedEffect)

theorem map_toNat_ofNat {ns : List Nat} (low : ∀ n ∈ ns, n < 2 ^ 16) :
    (ns.map UInt16.ofNat).map UInt16.toNat = ns := by
  rw [List.map_map]
  refine (List.map_congr_left fun n hn => ?_).trans (List.map_id ns)
  exact UInt16.toNat_ofNat_of_lt' (low n hn)

namespace Instr

theorem pushes_le (i : Instr) : i.pushes ≤ 2 := by
  cases i <;> simp only [pushes, MethodRef.pushes] <;> first | omega | (split <;> omega)

theorem pushes_of_not_falls {i : Instr} (ends : i.falls = false) : i.pushes = 0 := by
  cases i <;> first | rfl | cases ends

/-- What is counted is what the instruction pops and pushes, if that is a word. -/
theorem countedEffect_eq {i : Instr} (low : i.pops < 2 ^ 16) : countedEffect i = effect i := by
  have few := i.pushes_le
  rw [countedEffect, stackEffect_eq, UInt16.toNat_ofNat_of_lt' low,
    UInt16.toNat_ofNat_of_lt' (Nat.lt_of_le_of_lt few (by decide)), effect]

end Instr

/-- No number of the code was cut to a word: it loads so many parameters and stores to each of its
locals, by their own numbers; what was counted for each instruction is what it pops and pushes, and no
height is more than a word; the greatest height is recorded. -/
structure Body.Exact (b : Body) (params results : Nat) (loads : List Nat) : Prop where
  loads : (b.instrs.filterMap Instr.loaded?).map UInt16.toNat = loads
  stores : (b.instrs.filterMap Instr.stored?).map UInt16.toNat = List.range b.locals.length
  effects : ∀ i ∈ b.instrs, countedEffect i = effect i
  heights : ∃ heights, b.Certified params results heights ∧
    (∀ x ∈ b.instrs.zip heights, effect.after x.1 x.2 < 2 ^ 16) ∧
    (1 :: heights).max? = some b.maxStack.toNat

namespace Body.Certified

variable {b : Body} {params results : Nat} {heights : List Nat}
  (certified : b.Certified params results heights)

include certified

/-- An instruction pops no more than what there is room for. -/
theorem countedEffect_eq {i : Instr} (hi : i ∈ b.instrs) : countedEffect i = effect i := by
  obtain ⟨pc, found⟩ := List.mem_iff_getElem?.mp hi
  obtain ⟨h, -, enough, low, -⟩ := certified.passes found
  exact Instr.countedEffect_eq (Nat.lt_of_le_of_lt (Nat.le_trans enough low) b.maxStack.toNat_lt)

/-- No height is more than a word: it is the next one of the table, or nothing is pushed. -/
theorem after_lt {x : Instr × Nat} (hx : x ∈ b.instrs.zip heights) :
    effect.after x.1 x.2 < 2 ^ 16 := by
  have room := b.maxStack.toNat_lt
  have low := certified.2.1.le_height
  obtain ⟨pc, at_pc⟩ := List.mem_iff_getElem?.mp hx
  obtain ⟨found, height⟩ := List.getElem?_zip_eq_some.mp at_pc
  obtain ⟨h, height', -, -, next, -⟩ := certified.passes found
  obtain rfl := Option.some.inj (height.symm.trans height')
  cases falls : x.1.falls with
  | true => exact Nat.lt_of_le_of_lt (low _ (List.mem_of_getElem? (next falls))) room
  | false =>
    have none : (effect x.1).2 = 0 := Instr.pushes_of_not_falls falls
    rw [StackEffect.after, none]
    exact Nat.lt_of_le_of_lt (Nat.le_trans (Nat.sub_le _ _) (low _ (List.mem_of_getElem? height))) room

/-- A certified body is exact if its parameters and locals have their own numbers. -/
theorem exact {loads : List Nat} (top : (1 :: heights).max? = some b.maxStack.toNat)
    (loaded : (b.instrs.filterMap Instr.loaded?).map UInt16.toNat = loads)
    (stored : (b.instrs.filterMap Instr.stored?).map UInt16.toNat = List.range b.locals.length) :
    b.Exact params results loads where
  loads := loaded
  stores := stored
  effects := fun _ => certified.countedEffect_eq
  heights := ⟨heights, certified, fun _ => certified.after_lt, top⟩

end Body.Certified

/-! ### Stubs -/

namespace Stub

/-- Only parameters of the stub are loaded. -/
theorem loads_lt (s : Stub) : ∀ i ∈ s.loads, i < s.params.length := by
  have inside {α : Type} {f : ParamSlot × Nat → List α} {g : α → Nat}
      (own : ∀ x, ∀ a ∈ f x, g a = x.2) : ∀ a ∈ s.params.zipIdx.flatMap f, g a < s.params.length := by
    intro a ha
    obtain ⟨x, hx, ha⟩ := List.mem_flatMap.mp ha
    have low := (List.mem_zipIdx hx).2.1
    rwa [Nat.zero_add, ← own x a ha] at low
  have array (times : Nat) : ∀ i ∈ s.arrayLoads times, i < s.params.length := by
    refine inside (g := id) fun (p, i) a ha => ?_
    simp only at ha
    split at ha
    · exact List.eq_of_mem_replicate ha
    · cases ha
  have argument : ∀ i ∈ s.argumentLoads, i < s.params.length :=
    inside (g := id) fun _ _ ha => List.eq_of_mem_replicate ha
  rw [loads]
  simp only [List.forall_mem_append]
  exact ⟨array 2, array 1, argument⟩

/-- A parameter has two locals at most, and there is one more for the result. -/
theorem localCount_le (s : Stub) : s.localCount ≤ 2 * s.params.length + 1 := by
  have each (p : ParamSlot) : (if p.plan.isStringArray then 1 else 0) + p.plan.locals ≤ 2 := by
    cases p.plan <;> simp [SlotPlan.isStringArray, SlotPlan.locals]
  have all (ps : List ParamSlot) : (ps.map fun p => if p.plan.isStringArray then 1 else 0).sum +
      (ps.map (·.plan.locals)).sum ≤ 2 * ps.length := by
    induction ps with
    | nil => exact Nat.le_refl 0
    | cons p ps ih =>
      have first := each p
      simp only [List.map_cons, List.sum_cons, List.length_cons]
      omega
  have params := all s.params
  rw [localCount]
  split <;> omega

end Stub

namespace StubBody

variable {owner : TypeName} {s : StubScaffold}

/-- The body of a stub is exact if all of its locals can be numbered, and only then. -/
theorem exact_iff_of_countable (helper : TypeName) (hs : Countable owner s) :
    ∃ body, compile helper s = .ok body ∧
      (body.Exact s.stub.params.length (resultHeight s.stub.returns.type) s.stub.loads ↔
        s.stub.localCount ≤ 2 ^ 16) := by
  have few := hs.few
  obtain ⟨body, heights, made, certified, top⟩ := compile_certified helper hs
  obtain ⟨loaded, stored, locals⟩ := operands_of_compile helper made
  refine ⟨body, made, fun exact => ?_, fun low => ?_⟩
  · have stores := exact.stores
    rw [stored, locals] at stores
    by_contra high
    -- The last local's number is a word, but there are more locals than words.
    have last : s.stub.localCount - 1 ∈ List.range s.stub.localCount := by
      rw [List.mem_range]
      omega
    rw [← stores, List.map_map] at last
    obtain ⟨n, -, eq⟩ := List.mem_map.mp last
    have word : s.stub.localCount - 1 < 2 ^ 16 := eq ▸ (UInt16.ofNat n).toNat_lt
    omega
  · refine certified.exact top ?_ ?_
    · rw [loaded, map_toNat_ofNat fun i hi => Nat.lt_trans (s.stub.loads_lt i hi) (by omega)]
    · rw [stored, locals, map_toNat_ofNat fun i hi => Nat.lt_of_lt_of_le (List.mem_range.mp hi) low]

end StubBody

namespace StubScaffold

variable {owner : TypeName} {s : StubScaffold}

/-- The thunk of a stub loads all of its parameters in order, and is exact. -/
theorem exact_thunkDef (fits : s.Fits owner) (few : s.stub.params.length + 2 < 2 ^ 16) :
    ∃ thunk body, s.thunkDef = .ok thunk ∧ thunk.body = some body ∧
      body.Exact (s.stub.params.length + 1) (StubBody.resultHeight s.thunk.returnType)
        (List.range (s.stub.params.length + 1)) := by
  obtain ⟨k, made⟩ := thunkDef_eq fits few
  obtain ⟨e, emitted, lays⟩ := emitThunk_lays fits few
  have low := StubBody.resultHeight_le s.thunk.returnType
  obtain ⟨body, heights, finished, certified, top⟩ := lays.certified (by omega) (by decide)
  have made' : ∃ thunk, s.thunkDef = .ok thunk ∧ thunk.body = some body := by
    rw [thunkDef, MethodDef.generated, Emit.body, emitted, finished]
    exact ⟨_, rfl, rfl⟩
  obtain ⟨thunk, made', eq⟩ := made'
  refine ⟨thunk, body, made', eq, ?_⟩
  -- The code is known from the thunk as a whole.
  cases made.symm.trans made'
  cases eq
  refine certified.exact top ?_ ?_
  · rw [List.filterMap_append, List.filterMap_map]
    have loaded : List.filterMap (Instr.loaded? ∘ fun i => .ldarg (UInt16.ofNat i))
        (List.range (s.stub.params.length + 1)) =
          (List.range (s.stub.params.length + 1)).map UInt16.ofNat := congrFun List.filterMap_eq_map _
    rw [loaded]
    refine (congrArg (List.map UInt16.toNat) (List.append_nil _)).trans (map_toNat_ofNat fun i hi => ?_)
    have inside := List.mem_range.mp hi
    omega
  · rw [List.filterMap_append, List.filterMap_map]
    have stored : List.filterMap (Instr.stored? ∘ fun i => .ldarg (UInt16.ofNat i))
        (List.range (s.stub.params.length + 1)) = [] := List.filterMap_eq_nil_iff.mpr fun _ _ => rfl
    rw [stored]
    rfl

end StubScaffold

namespace Module

variable {m : Module} {c : Config} {found : ImportTable}

/-- Nothing is cut to a word in generated code, if there is room for the numbers: every stub that is
accepted gets a body and a thunk. If its parameters, its target and one more item fit on the stack
together, then its thunk is exact; and its body is so if all of its locals can be numbered, and only
then. -/
theorem exact_of_importTable (table : m.importTable c.exclusions = .ok found) :
    ∃ types, m.planTypes c found = .ok types ∧
      (types.flatMap TypeScaffold.stubs).map StubScaffold.stub = found.stubs ∧
      ∀ s ∈ types.flatMap TypeScaffold.stubs, s.stub.params.length + 2 < 2 ^ 16 →
        (∃ body, StubBody.compile c.helperType s = .ok body ∧
          (body.Exact s.stub.params.length (StubBody.resultHeight s.stub.returns.type) s.stub.loads ↔
            s.stub.localCount ≤ 2 ^ 16)) ∧
        ∃ thunk body, s.thunkDef = .ok thunk ∧ thunk.body = some body ∧
          body.Exact (s.stub.params.length + 1) (StubBody.resultHeight s.thunk.returnType)
            (List.range (s.stub.params.length + 1)) := by
  obtain ⟨types, planned, plans⟩ := planTypes_of_importTable table
  refine ⟨types, planned, stubs_of_plans plans, fun s hs few => ?_⟩
  obtain ⟨-, void, owner, fits⟩ := fits_of_plans table plans hs
  exact ⟨StubBody.exact_iff_of_countable c.helperType ⟨fits, void, few⟩,
    StubScaffold.exact_thunkDef fits few⟩

theorem exact_of_importTable_twins : ∃ (found : ImportTable) (types : List TypeScaffold)
    (s : StubScaffold) (body : Body),
    twins.importTable Config.default.exclusions = .ok found ∧
      twins.planTypes Config.default found = .ok types ∧ s ∈ types.flatMap TypeScaffold.stubs ∧
      s.stub.params.length + 2 < 2 ^ 16 ∧ StubBody.compile Config.default.helperType s = .ok body ∧
      body.Exact s.stub.params.length (StubBody.resultHeight s.stub.returns.type) s.stub.loads := by
  obtain ⟨found, table⟩ := exists_importTable_twins
  obtain ⟨types, planned, stubs, exact⟩ := exact_of_importTable table
  have some_stub : (twins.importTable Config.default.exclusions).toOption.map (·.stubs.length) =
      some 1 := by decide +kernel
  rw [table] at some_stub
  have one : found.stubs.length = 1 := Option.some.inj some_stub
  obtain ⟨s, hs⟩ : ∃ s, s ∈ types.flatMap TypeScaffold.stubs := by
    refine List.exists_mem_of_length_pos ?_
    rw [← List.length_map StubScaffold.stub, stubs, one]
    exact Nat.one_pos
  have few := fewParams_twins.stub table (stubs ▸ List.mem_map_of_mem hs)
  have locals := s.stub.localCount_le
  have low : s.stub.params.length + 2 < 2 ^ 16 := by omega
  obtain ⟨⟨body, made, iff⟩, -⟩ := exact s hs low
  exact ⟨found, types, s, body, table, planned, hs, low, made, iff.mpr (by omega)⟩

end Module

end LateBind

import LateBind.Emitter
import Mathlib.Algebra.Group.Nat.Defs

/-! # What an emitter has after a sequence of calls

An emitter that has gone on from another has more instructions, labels and locals. Each call is an
equation on such emitters, as long as the stack is high enough and no counter overflows. -/

namespace LateBind

/-! ## Heights of the stack -/

namespace TypeRef

@[simp]
theorem isVoid_void : void.isVoid = true := rfl

@[simp]
theorem isVoid_i32 : i32.isVoid = false := rfl

@[simp]
theorem isVoid_boolean : boolean.isVoid = false := rfl

@[simp]
theorem isVoid_intPtr : intPtr.isVoid = false := rfl

@[simp]
theorem isVoid_string : string.isVoid = false := rfl

@[simp]
theorem isVoid_named (name : TypeName) : (named name).isVoid = false := by
  simp [isVoid, void]

@[simp]
theorem isVoid_vector (element : TypeRef) : (vector element).isVoid = false := by
  simp [isVoid, vector, void]

end TypeRef

namespace MethodRef

/-- How many items a call pops. -/
def pops (m : MethodRef) : Nat := m.params.length + if m.hasThis then 1 else 0

/-- How many items a call pushes. -/
def pushes (m : MethodRef) : Nat := if m.returnType.isVoid then 0 else 1

@[simp]
theorem pops_static (owner : TypeName) (name : String) (params : List TypeRef) (t : TypeRef) :
    (static owner name params t).pops = params.length := by
  simp [pops, static]

@[simp]
theorem pushes_static (owner : TypeName) (name : String) (params : List TypeRef) (t : TypeRef) :
    (static owner name params t).pushes = if t.isVoid then 0 else 1 := rfl

end MethodRef

namespace Instr

/-- How many items an instruction pops. -/
@[reducible, simp]
def pops : Instr → Nat
  | ldarg _ | ldloc _ | ldcI4 _ | ldcI8 _ | ldnull | ldstr _ | ldsfld _ | ldtoken _ => 0
  | stloc _ | stsfld _ | pop | dup => 1
  | add | sub | cgtUn => 2
  | convI | convU | convI4 | convU1 | castclass _ | ldlen | newarr _ => 1
  | br _ | leave _ | endfinally | ret => 0
  | brtrue _ | brfalse _ | switch _ | throw => 1
  | blt _ => 2
  | call m => m.pops
  | calli site => site.params.length + 1
  | newobj m => m.params.length
  | ldelemI | ldelemRef | ldelema _ => 2
  | stelemI | stelemI1 => 3

/-- How many items an instruction pushes after that. -/
@[reducible, simp]
def pushes : Instr → Nat
  | ldarg _ | ldloc _ | ldcI4 _ | ldcI8 _ | ldnull | ldstr _ | ldsfld _ | ldtoken _ => 1
  | stloc _ | stsfld _ | pop => 0
  | dup => 2
  | add | sub | cgtUn => 1
  | convI | convU | convI4 | convU1 | castclass _ | ldlen | newarr _ => 1
  | br _ | leave _ | endfinally | ret => 0
  | brtrue _ | brfalse _ | switch _ | throw => 0
  | blt _ => 0
  | call m => m.pushes
  | calli site => if site.returnType.isVoid then 0 else 1
  | newobj _ => 1
  | ldelemI | ldelemRef | ldelema _ => 1
  | stelemI | stelemI1 => 0

theorem stackEffect_eq (i : Instr) :
    i.stackEffect = (UInt16.ofNat i.pops, UInt16.ofNat i.pushes) := by
  cases i with
  | call m => cases h : m.hasThis <;> cases h' : m.returnType.isVoid <;>
      simp [stackEffect, pops, pushes, MethodRef.pops, MethodRef.pushes, h, h']
  | calli site => cases h : site.returnType.isVoid <;> simp [stackEffect, pops, pushes, h]
  | _ => rfl

/-- Control passes on from the instruction, and from there only. -/
@[reducible, simp]
def isPlain : Instr → Bool
  | br _ | brtrue _ | brfalse _ | blt _ | switch _ | leave _ | endfinally | throw | ret => false
  | _ => true

/-- A branch that control can fall through. -/
@[reducible, simp]
def isConditional : Instr → Bool
  | brtrue _ | brfalse _ | blt _ | switch _ => true
  | _ => false

theorem targets_of_isPlain {i : Instr} (plain : i.isPlain) : i.targets = [] := by
  cases i <;> first | rfl | cases plain

end Instr

/-! ## Growth -/

/-- What is known of a label: its place, and the height of the stack at the first branch to it. -/
structure Mark where
  place : Option Nat
  height : Option Nat

namespace Mark

@[simp]
def new : Mark := ⟨none, none⟩

def state (m : Mark) : LabelState := ⟨m.place, m.height.map UInt16.ofNat⟩

@[simp]
def branched (height : Nat) (m : Mark) : Mark := ⟨m.place, some (m.height.getD height)⟩

@[simp]
def placed (place : Nat) (m : Mark) : Mark := ⟨some place, m.height⟩

end Mark

namespace Emitter

/-- The emitter with more instructions, labels and locals, at a new height of the stack. -/
def grow (e : Emitter) (is : List Instr) (ms : List Mark) (vs : List Local) (height : Nat)
    (maxDepth : UInt16) (reachable : Bool) : Emitter :=
  { e with
    instrs := e.instrs ++ is.toArray
    labels := e.labels ++ (ms.map Mark.state).toArray
    locals := e.locals ++ vs.toArray
    depth := UInt16.ofNat height
    maxDepth
    reachable }

/-- The label that is given out after `n` others. -/
def label (e : Emitter) (n : Nat) : Label := ⟨UInt32.ofNat (e.labels.size + n)⟩

/-- Control comes here, with the given height of the stack. -/
structure At (e : Emitter) (height : Nat) : Prop where
  reachable : e.reachable = true
  depth : e.depth = UInt16.ofNat height

theorem At.eq_grow {e : Emitter} {h : Nat} (he : e.At h) :
    e.grow [] [] [] h e.maxDepth true = e := by
  cases e
  simp [grow, ← he.depth, ← he.reachable]

variable {e : Emitter} {is : List Instr} {ms : List Mark} {vs : List Local} {h : Nat}
  {k : UInt16} {r : Bool}

theorem at_grow : (e.grow is ms vs h k true).At h := ⟨rfl, rfl⟩

theorem position_grow : (e.grow is ms vs h k r).position = e.position + is.length := by
  simp [position, grow]

theorem size_labels_grow : (e.grow is ms vs h k r).labels.size = e.labels.size + ms.length := by
  simp [grow]

theorem size_locals_grow : (e.grow is ms vs h k r).locals.size = e.locals.size + vs.length := by
  simp [grow]

theorem label_grow (n : Nat) : (e.grow is ms vs h k r).label n = e.label (ms.length + n) := by
  simp [label, size_labels_grow, Nat.add_assoc]

@[simp]
theorem newLabel_grow : (e.grow is ms vs h k r).newLabel =
    (e.label ms.length, e.grow is (ms ++ [Mark.new]) vs h k r) := by
  simp [newLabel, grow, label, Mark.new, Mark.state]

@[simp]
theorem newLocal_grow (t : TypeRef) (pinned : Bool) : (e.grow is ms vs h k r).newLocal t pinned =
    (UInt16.ofNat (e.locals.size + vs.length), e.grow is ms (vs ++ [⟨t, pinned⟩]) h k r) := by
  simp [newLocal, grow]

theorem toNat_label {n : Nat} (hn : e.labels.size + n < 2 ^ 32) :
    (e.label n).id.toNat = e.labels.size + n := by
  rw [label, UInt32.toNat_ofNat', Nat.mod_eq_of_lt hn]

theorem getElem?_labels_grow (n : Nat) :
    (e.grow is ms vs h k r).labels[e.labels.size + n]? = ms[n]?.map Mark.state := by
  simp only [grow]
  rw [Array.getElem?_append_right (by omega)]
  simp

theorem setLabel_grow (e : Emitter) (is : List Instr) (vs : List Local) (h : Nat) (k : UInt16)
    (r : Bool) {n : Nat} {m m' : Mark} (hm : ms[n]? = some m) (f : Mark → Mark)
    (hf : f m = m') :
    (e.grow is ms vs h k r).labels.setIfInBounds (e.labels.size + n) m'.state =
      e.labels ++ ((ms.modify n f).map Mark.state).toArray := by
  have modified : ms.modify n f = ms.set n m' := by
    obtain ⟨hn, rfl⟩ := List.getElem?_eq_some_iff.mp hm
    apply List.ext_getElem
    · simp
    · intro i _ _
      rw [List.getElem_modify, List.getElem_set]
      split <;> simp_all
  apply Array.ext'
  simp [grow, modified, List.map_set]

theorem recordBranch_grow {n : Nat} (hn : n < ms.length) (hl : e.labels.size + n < 2 ^ 32) :
    (e.grow is ms vs h k r).recordBranch (e.label n) =
      e.grow is (ms.modify n (Mark.branched h)) vs h k r := by
  obtain ⟨⟨place, height⟩, hm⟩ : ∃ m, ms[n]? = some m := ⟨ms[n], List.getElem?_eq_getElem hn⟩
  cases height with
  | none =>
    have set := setLabel_grow e is vs h k r hm (Mark.branched h) rfl
    simp only [recordBranch, toNat_label hl, getElem?_labels_grow, hm]
    exact congrArg (fun ls => { e.grow is ms vs h k r with labels := ls }) set
  | some height =>
    have same : ms.modify n (Mark.branched h) = ms := by
      apply List.ext_getElem?
      intro i
      rw [List.getElem?_modify]
      by_cases hi : n = i
      · subst hi
        rw [hm]
        simp [Mark.branched]
      · cases ms[i]? <;> simp [hi]
    simp only [recordBranch, toNat_label hl, getElem?_labels_grow, hm, same]
    rfl

@[simp]
theorem placeLabel_grow {n : Nat} (new : ms[n]?.map Mark.place = some none)
    (hl : e.labels.size + n < 2 ^ 32) :
    (e.grow is ms vs h k r).placeLabel (e.label n) =
      e.grow is (ms.modify n (Mark.placed (e.position + is.length))) vs
        (if r then h else (ms[n]?.bind Mark.height).getD 0) k true := by
  obtain ⟨⟨place, height⟩, hm, rfl⟩ := Option.map_eq_some_iff.mp new
  have set := setLabel_grow e is vs h k r hm (Mark.placed (e.position + is.length)) rfl
  simp only [placeLabel, toNat_label hl, getElem?_labels_grow, hm, Option.map_some, position_grow]
  have state : (Mark.placed (e.position + is.length) ⟨none, height⟩).state =
      ⟨some (e.position + is.length), height.map UInt16.ofNat⟩ := rfl
  simp only [Mark.state, Option.isSome_none, Bool.false_eq_true, if_false]
  rw [← state, set]
  cases r with
  | true => rfl
  | false => cases height <;> simp [grow]

theorem applyEffect_grow {i : Instr} (hh : h < 2 ^ 16) (hp : i.pops ≤ h) :
    (e.grow is ms vs h k r).applyEffect i =
      e.grow is ms vs (h - i.pops + i.pushes)
        (max k (UInt16.ofNat (h - i.pops + i.pushes))) r := by
  have enough : ¬UInt16.ofNat h < UInt16.ofNat i.pops := by
    rw [UInt16.lt_iff_toNat_lt, UInt16.toNat_ofNat', UInt16.toNat_ofNat', Nat.mod_eq_of_lt hh,
      Nat.mod_eq_of_lt (by omega)]
    omega
  have after : UInt16.ofNat h - UInt16.ofNat i.pops + UInt16.ofNat i.pushes =
      UInt16.ofNat (h - i.pops + i.pushes) := by
    rw [UInt16.ofNat_add, UInt16.ofNat_sub hp]
  unfold applyEffect
  simp only [Instr.stackEffect_eq, grow, enough, if_false, after]

/-! ## Instructions -/

@[simp]
theorem push_grow {i : Instr} (plain : i.isPlain) (hh : h < 2 ^ 16) (hp : i.pops ≤ h) :
    (e.grow is ms vs h k r).push i =
      e.grow (is ++ [i]) ms vs (h - i.pops + i.pushes)
        (max k (UInt16.ofNat (h - i.pops + i.pushes))) r := by
  have no_jump (e : Emitter) : e.applyFlow i = e := by cases i <;> first | rfl | cases plain
  rw [push, applyEffect_grow hh hp, Instr.targets_of_isPlain plain, List.foldl_nil, no_jump]
  simp [grow]

theorem push_branch_grow {i : Instr} {n : Nat} (ht : i.targets = [e.label n])
    (hn : n < ms.length) (hl : e.labels.size + n < 2 ^ 32) (hh : h < 2 ^ 16) (hp : i.pops ≤ h)
    (hc : i.isConditional) :
    (e.grow is ms vs h k r).push i =
      e.grow (is ++ [i]) (ms.modify n (Mark.branched (h - i.pops))) vs (h - i.pops)
        (max k (UInt16.ofNat (h - i.pops))) r := by
  have no_jump (e : Emitter) : e.applyFlow i = e := by cases i <;> first | rfl | cases hc
  have no_push : i.pushes = 0 := by cases i <;> first | rfl | cases hc
  rw [push, applyEffect_grow hh hp, ht, List.foldl_cons, List.foldl_nil, recordBranch_grow hn hl,
    no_jump, no_push]
  simp [grow]

@[simp]
theorem push_brtrue_grow {n : Nat} (hn : n < ms.length) (hl : e.labels.size + n < 2 ^ 32)
    (hh : h < 2 ^ 16) (hp : 1 ≤ h) :
    (e.grow is ms vs h k r).push (.brtrue (e.label n)) =
      e.grow (is ++ [.brtrue (e.label n)]) (ms.modify n (Mark.branched (h - 1))) vs (h - 1)
        (max k (UInt16.ofNat (h - 1))) r :=
  push_branch_grow rfl hn hl hh hp rfl

@[simp]
theorem push_brfalse_grow {n : Nat} (hn : n < ms.length) (hl : e.labels.size + n < 2 ^ 32)
    (hh : h < 2 ^ 16) (hp : 1 ≤ h) :
    (e.grow is ms vs h k r).push (.brfalse (e.label n)) =
      e.grow (is ++ [.brfalse (e.label n)]) (ms.modify n (Mark.branched (h - 1))) vs (h - 1)
        (max k (UInt16.ofNat (h - 1))) r :=
  push_branch_grow rfl hn hl hh hp rfl

@[simp]
theorem push_br_grow {n : Nat} (hn : n < ms.length) (hl : e.labels.size + n < 2 ^ 32)
    (hh : h < 2 ^ 16) :
    (e.grow is ms vs h k r).push (.br (e.label n)) =
      e.grow (is ++ [.br (e.label n)]) (ms.modify n (Mark.branched h)) vs h
        (max k (UInt16.ofNat h)) false := by
  rw [push, applyEffect_grow hh (show Instr.pops (.br (e.label n)) ≤ h from Nat.zero_le h)]
  simp only [Instr.targets, List.foldl_cons, List.foldl_nil]
  rw [recordBranch_grow hn hl]
  simp [grow, applyFlow, Instr.pops, Instr.pushes]

@[simp]
theorem push_ret_grow (hh : h < 2 ^ 16) :
    (e.grow is ms vs h k r).push .ret =
      e.grow (is ++ [.ret]) ms vs h (max k (UInt16.ofNat h)) false := by
  rw [push, applyEffect_grow hh (show Instr.pops .ret ≤ h from Nat.zero_le h)]
  simp [grow, applyFlow, Instr.targets, Instr.pops, Instr.pushes]

/-! ## Regions -/

theorem openTry_eq (he : e.At 0) :
    e.openTry = (e.label 0,
      { e with openRegions := ⟨e.position, none, e.label 0⟩ :: e.openRegions }.grow [] [Mark.new] []
        0 e.maxDepth true) := by
  have depth : e.depth = 0 := he.depth
  have reachable : e.reachable = true := he.reachable
  cases e
  simp only at depth reachable
  subst depth reachable
  simp [openTry, newLabel, grow, label, position, Mark.state]

theorem max_ofNat_zero (k : UInt16) : max k (UInt16.ofNat 0) = k := by
  change (if k ≤ 0 then 0 else k) = k
  split
  case isTrue low => exact (UInt16.le_zero_iff.mp low).symm
  case isFalse => rfl

theorem openFinally_grow {start : Nat} {outer : List OpenRegion} {m : Mark}
    (hopen : e.openRegions = ⟨start, none, e.label 0⟩ :: outer) (hl : e.labels.size < 2 ^ 32) :
    (e.grow is (m :: ms) vs 0 k true).openFinally =
      { e with openRegions :=
          ⟨start, some (e.position + is.length + 1), e.label 0⟩ :: outer }.grow
        (is ++ [Instr.leave (e.label 0)]) (m.branched 0 :: ms) vs 0 k true := by
  have pushed : (e.grow is (m :: ms) vs 0 k true).push (.leave (e.label 0)) =
      e.grow (is ++ [Instr.leave (e.label 0)]) (m.branched 0 :: ms) vs 0 k false := by
    rw [push, applyEffect_grow (by decide) (show Instr.pops (.leave (e.label 0)) ≤ 0 from Nat.le_refl 0)]
    simp only [Instr.targets, List.foldl_cons, List.foldl_nil, Nat.sub_zero, Nat.add_zero,
      max_ofNat_zero]
    rw [recordBranch_grow (by simp) (by simpa using hl)]
    simp [grow, applyFlow]
  have still : (e.grow is (m :: ms) vs 0 k true).openRegions = ⟨start, none, e.label 0⟩ :: outer :=
    hopen
  simp only [openFinally, still, at_grow.reachable, if_true, pushed]
  simp [grow, position, Nat.add_assoc]

theorem closeTry_grow {start finallyStart : Nat} {outer : List OpenRegion} {m : Mark}
    (hopen : e.openRegions = ⟨start, some finallyStart, e.label 0⟩ :: outer)
    (unplaced : m.place = none) (hl : e.labels.size < 2 ^ 32) :
    (e.grow is (m :: ms) vs 0 k true).closeTry =
      { e with
        openRegions := outer
        regions := e.regions.push
          ⟨start, finallyStart, finallyStart, e.position + is.length + 1⟩ }.grow
        (is ++ [Instr.endfinally]) (m.placed (e.position + is.length + 1) :: ms) vs
        (m.height.getD 0) k true := by
  -- The region is closed before its last instruction is pushed, so the base changes twice.
  let inner : Emitter := { e with openRegions := outer }
  let closed : Emitter := { inner with
    regions := e.regions.push
      ⟨start, finallyStart, finallyStart, e.position + is.length + 1⟩ }
  have pushed : (inner.grow is (m :: ms) vs 0 k true).push .endfinally =
      inner.grow (is ++ [.endfinally]) (m :: ms) vs 0 k false := by
    rw [push, applyEffect_grow (by decide) (show Instr.pops .endfinally ≤ 0 from Nat.le_refl 0),
      Nat.sub_zero, Nat.add_zero, max_ofNat_zero]
    simp [grow, applyFlow, Instr.targets]
  have still : (e.grow is (m :: ms) vs 0 k true).openRegions =
      ⟨start, some finallyStart, e.label 0⟩ :: outer := hopen
  have at_end : (inner.grow (is ++ [.endfinally]) (m :: ms) vs 0 k false).position =
      e.position + is.length + 1 := by
    rw [position_grow, List.length_append, ← Nat.add_assoc]
    rfl
  let close (x : Emitter) : Emitter :=
    { x with regions := x.regions.push ⟨start, finallyStart, finallyStart, x.position⟩, depth := 0 }
  have ended : (e.grow is (m :: ms) vs 0 k true).closeTry =
      (closed.grow (is ++ [.endfinally]) (m :: ms) vs 0 k false).placeLabel
        (closed.label 0) := by
    unfold closeTry
    rw [still]
    refine (congrArg (fun x => (close x).placeLabel (e.label 0)) pushed).trans ?_
    simp only [close, at_end]
    rfl
  have exit : (m :: ms)[0]?.map Mark.place = some none := by simp [unplaced]
  rw [ended, placeLabel_grow exit (show closed.labels.size + 0 < 2 ^ 32 from hl)]
  simp only [List.length_append, List.length_singleton, List.modify_zero_cons, Bool.false_eq_true,
    if_false, List.getElem?_cons_zero, Option.bind_some, Nat.add_assoc]
  rfl

/-! ## The finished body -/

/-- The labels of a finished body are at the places that the emitter has for them. -/
theorem resolveLabels_eq_ok_iff {ls : List LabelState} {id : Nat} {places : List Nat} :
    resolveLabels id ls = .ok places ↔ ls.map LabelState.position = places.map some := by
  induction ls generalizing id places with
  | nil => cases places <;> simp [resolveLabels]
  | cons l ls ih =>
    rw [resolveLabels, List.map_cons]
    cases l.position with
    | none => cases places <;> simp
    | some place =>
      constructor
      · intro resolved
        cases others : resolveLabels (id + 1) ls with
        | error fault =>
          rw [others] at resolved
          cases resolved
        | ok rest =>
          rw [others] at resolved
          cases resolved
          rw [List.map_cons, ih.mp others]
      · intro placed
        cases places with
        | nil => cases placed
        | cons place' places =>
          obtain ⟨same, rest⟩ := List.cons.inj placed
          dsimp only
          rw [ih.mpr rest, Option.some.inj same]
          rfl

theorem resolveLabels_of_placed {ls : List LabelState} (id : Nat)
    (placed : ∀ l ∈ ls, l.position.isSome) :
    resolveLabels id ls = .ok (ls.map fun l => l.position.getD 0) := by
  refine resolveLabels_eq_ok_iff.mpr ?_
  rw [List.map_map]
  refine List.map_congr_left fun l mem => ?_
  obtain ⟨place, known⟩ := Option.isSome_iff_exists.mp (placed l mem)
  simp [known]

/-- Nothing has gone wrong, no region is open, and all labels are placed. -/
structure Complete (e : Emitter) : Prop where
  errors : e.errors = #[]
  closed : e.openRegions = []
  placed : ∀ l ∈ e.labels.toList, l.position.isSome

theorem Complete.finish_eq (he : e.Complete) :
    e.finish = .ok
      { locals := e.locals.toList
        instrs := e.instrs.toList
        labels := e.labels.toList.map fun l => l.position.getD 0
        regions := e.regions.toList
        initLocals := true
        maxStack := max e.maxDepth 1 } := by
  have no_error : e.firstError? = none := by simp [firstError?, he.errors, he.closed]
  rw [finish, no_error]
  simp only
  rw [resolveLabels_of_placed 0 he.placed]
  rfl

theorem empty_complete : empty.Complete := ⟨rfl, rfl, by simp [empty]⟩

theorem Complete.grow (he : e.Complete) (placed : ∀ m ∈ ms, m.place.isSome) :
    (e.grow is ms vs h k r).Complete := by
  refine ⟨he.errors, he.closed, ?_⟩
  intro l hl
  simp only [Emitter.grow, Array.toList_append, List.mem_append] at hl
  rcases hl with hl | hl
  · exact he.placed l hl
  · obtain ⟨m, hm, rfl⟩ := List.mem_map.mp hl
    exact placed m hm

end Emitter

/-! ## Calls -/

namespace Emit

variable {α β : Type} (e : Emitter)

@[simp]
theorem bind_apply (x : Emit α) (f : α → Emit β) : (x >>= f) e = f (x e).1 (x e).2 := rfl

@[simp]
theorem pure_apply (a : α) : (pure a : Emit α) e = (a, e) := rfl

@[simp]
theorem map_apply (f : α → β) (x : Emit α) : (f <$> x) e = (f (x e).1, (x e).2) := rfl

@[simp]
theorem instrs_apply (is : List Instr) : instrs is e = ((), is.foldl Emitter.push e) := rfl

@[simp]
theorem instr_apply (i : Instr) : instr i e = ((), e.push i) := rfl

@[simp]
theorem defineLabel_apply : defineLabel e = e.newLabel := rfl

@[simp]
theorem markLabel_apply (l : Label) : markLabel l e = ((), e.placeLabel l) := rfl

@[simp]
theorem declareLocal_apply (t : TypeRef) : declareLocal t e = e.newLocal t false := rfl

@[simp]
theorem declarePinned_apply (t : TypeRef) : declarePinned t e = e.newLocal t true := rfl

@[simp]
theorem beginTry_apply : beginTry e = e.openTry := rfl

@[simp]
theorem beginFinally_apply : beginFinally e = ((), e.openFinally) := rfl

@[simp]
theorem endTry_apply : endTry e = ((), e.closeTry) := rfl

end Emit

end LateBind

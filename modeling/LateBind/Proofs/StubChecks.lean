import LateBind.Proofs.Blittability
import LateBind.Proofs.ImportTable

/-! # Stubs checked one by one

All stubs of a module share what is remembered about types. This changes nothing, since a no ends
the checks: as long as they go on, only right answers are remembered, and all of them are yes. -/

namespace LateBind

namespace Module

/-- Nothing but right answers is remembered, and all of them are yes. -/
structure Certain (m : Module) (memo : Memo) : Prop where
  knows : m.Knows memo
  idle : memo.active = []
  sure : ¬Doubts memo

variable {m : Module} {memo : Memo}

theorem certain_nil (m : Module) : m.Certain [] :=
  ⟨fun _ _ mem => absurd mem List.not_mem_nil, rfl, fun ⟨_, mem⟩ => absurd mem List.not_mem_nil⟩

/-- Before a yes nothing is remembered but yes. -/
theorem namedBlittable_sure (certain : m.Certain memo) (name : TypeName)
    (notNo : (m.namedBlittable memo name).answer ≠ .ok false) :
    ¬Doubts (m.namedBlittable memo name).after := by
  cases standing : memo.lookup name with
  | some standing' =>
    cases standing' with
    | active =>
      rw [namedBlittable_active standing]
      exact certain.sure
    | answered known =>
      rw [namedBlittable_answered standing]
      exact certain.sure
  | none =>
    cases found : m.findType? name with
    | none =>
      rw [namedBlittable_missing standing found]
      exact certain.sure
    | some t =>
      rw [namedBlittable_found standing found, Search.answer_conclude] at notNo
      rw [namedBlittable_found standing found]
      have kept := lookInto_keeps (Memo.not_mem_active_of_lookup standing) t
        ((search_keeps m).2 _ _ (by simp)) notNo
      cases eq : (m.lookInto memo name (Memo.not_mem_active_of_lookup standing) t).answer with
      | error e =>
        rw [Search.conclude_of_error eq, kept]
        exact certain.sure
      | ok fits =>
        rw [Search.after_conclude_of_ok eq, kept, Memo.conclude]
        split
        · rintro ⟨other, mem⟩
          rcases List.mem_cons.mp mem with same | mem
          · cases same
            exact notNo eq
          · exact certain.sure ⟨other, mem⟩
        · exact certain.sure

/-- A question is answered as if it were the first. With a yes all stays certain. -/
theorem ask_certain (certain : m.Certain memo) (t : TypeRef) :
    (m.ask memo t).answer = (m.ask [] t).answer ∧
      ((m.ask memo t).answer ≠ .ok false → m.Certain (m.ask memo t).after) := by
  constructor
  · rcases ask_agrees certain.knows certain.idle t with same | ⟨-, doubts⟩
    · exact same
    · exact absurd doubts certain.sure
  · intro notNo
    refine ⟨(ask_decides certain.knows certain.idle t).2,
      (m.ask memo t).active_after.trans certain.idle, ?_⟩
    rcases m.ask_cases t with ⟨u, eq⟩ | eq
    · rw [eq] at notNo ⊢
      cases u with
      | named name => exact namedBlittable_sure certain name notNo
      | _ => exact certain.sure
    · rw [eq] at notNo
      exact absurd rfl notNo

end Module

/-! ## Inquiries that what is remembered does not sway -/

namespace Inquiry

variable {α β : Type} {m : Module} {x : Inquiry α} {y : Except BindError α}

/-- The answer when nothing is remembered. -/
def alone (x : Inquiry α) : Except BindError α := (x.run []).1

/-- Whatever is known for certain, the answer is the given one, and with a result all that is known
then is certain. -/
def Gives (m : Module) (x : Inquiry α) (y : Except BindError α) : Prop :=
  ∀ memo, m.Certain memo → (x.run memo).1 = y ∧ ((∃ a, y = .ok a) → m.Certain (x.run memo).2)

/-- The inquiry answers as it does alone. -/
def Unswayed (m : Module) (x : Inquiry α) : Prop := x.Gives m x.alone

theorem Gives.eq_alone (h : x.Gives m y) : y = x.alone := (h [] m.certain_nil).1.symm

theorem Gives.unswayed (h : x.Gives m y) : x.Unswayed m := by
  rw [Unswayed, ← h.eq_alone]
  exact h

theorem gives_pure (a : α) : Gives m (pure a) (.ok a) := fun _ certain => ⟨rfl, fun _ => certain⟩

theorem gives_throw (e : BindError) : Gives m (throw e : Inquiry α) (.error e) :=
  fun _ _ => ⟨rfl, nofun⟩

theorem Gives.bind {f : α → Inquiry β} {g : α → Except BindError β} (hx : x.Gives m y)
    (hf : ∀ a, y = .ok a → (f a).Gives m (g a)) : (x >>= f).Gives m (y >>= g) := by
  intro memo certain
  obtain ⟨answer, after⟩ := hx memo certain
  rw [run_bind]
  rcases run : x.run memo with ⟨answer', memo'⟩
  rw [run] at answer after
  subst answer
  cases answer' with
  | error e => exact ⟨rfl, nofun⟩
  | ok a => exact hf a rfl memo' (after ⟨a, rfl⟩)

theorem Gives.mapM {f : α → Inquiry β} {g : α → Except BindError β}
    (h : ∀ a, (f a).Gives m (g a)) (l : List α) : Gives m (l.mapM f) (l.mapM g) := by
  induction l with
  | nil => exact gives_pure []
  | cons a l ih =>
    rw [List.mapM_cons, List.mapM_cons]
    exact (h a).bind fun b _ => ih.bind fun bs _ => gives_pure _

theorem unswayed_pure (a : α) : Unswayed m (pure a) := (gives_pure a).unswayed

theorem unswayed_throw (e : BindError) : Unswayed m (throw e : Inquiry α) := (gives_throw e).unswayed

theorem unswayed_lift (e : Except BindError α) : Unswayed m (liftM e : Inquiry α) := by
  cases e with
  | ok a => exact unswayed_pure a
  | error e => exact unswayed_throw e

theorem Unswayed.bind {f : α → Inquiry β} (hx : x.Unswayed m) (hf : ∀ a, (f a).Unswayed m) :
    (x >>= f).Unswayed m :=
  (Gives.bind hx fun a _ => hf a).unswayed

end Inquiry

/-! ## Slots -/

namespace Module

variable {m : Module} {α : Type}

open Inquiry

/-- A question whose no ends the inquiry. -/
theorem unswayed_isBlittable_bind (t : TypeRef) {f : Bool → Inquiry α} (e : BindError)
    (no : f false = throw e) (yes : (f true).Unswayed m) : Unswayed m (m.isBlittable t >>= f) := by
  intro memo certain
  obtain ⟨same, stays⟩ := ask_certain certain t
  obtain ⟨-, stays'⟩ := ask_certain m.certain_nil t
  rw [alone, run_bind, run_bind, run_isBlittable, run_isBlittable, same]
  rw [same] at stays
  cases eq : (m.ask [] t).answer with
  | error e => exact ⟨rfl, nofun⟩
  | ok fits =>
    cases fits with
    | false =>
      simp only [no]
      exact ⟨rfl, nofun⟩
    | true =>
      -- What is known before `f` differs, but both times it is certain.
      obtain ⟨answer, after⟩ := yes _ (stays (by rw [eq]; exact nofun))
      obtain ⟨answer', -⟩ := yes _ (stays' (by rw [eq]; exact nofun))
      exact ⟨answer.trans answer'.symm, fun ⟨a, result⟩ => after ⟨a, answer'.symm.trans result⟩⟩

theorem unswayed_asked (cx : SlotContext) (t : TypeRef) (marshal : Option MarshalInfo) :
    Unswayed m (cx.asked t marshal) := by
  unfold SlotContext.asked
  split
  · exact unswayed_pure _
  · split
    · exact unswayed_throw _
    · exact unswayed_pure _

theorem unswayed_checkNatural (cx : SlotContext) (slot t : TypeRef) (asked : Option NativeType) :
    Unswayed m (m.checkNatural cx slot t asked) := by
  unfold checkNatural
  split
  · exact unswayed_pure _
  · refine (unswayed_lift _).bind fun natural => ?_
    split
    · exact unswayed_throw _
    · exact unswayed_pure _

theorem unswayed_planValue (cx : SlotContext) (t : TypeRef) (asked : Option NativeType) :
    Unswayed m (m.planValue cx t asked) := by
  unfold planValue
  split
  · split <;> first | exact unswayed_pure _ | exact unswayed_throw _
  split
  · split <;> first | exact unswayed_pure _ | exact unswayed_throw _
  split
  · exact unswayed_throw _
  refine (unswayed_lift _).bind fun isDelegate => ?_
  split
  · split <;> first | exact unswayed_pure _ | exact unswayed_throw _
  · refine unswayed_isBlittable_bind t _ rfl ?_
    exact (unswayed_checkNatural cx t t asked).bind fun _ => unswayed_pure _

theorem unswayed_planByRef (cx : SlotContext) (target : TypeRef) (asked : Option NativeType) :
    Unswayed m (m.planByRef cx target asked) := by
  unfold planByRef
  simp only
  split
  · exact unswayed_throw _
  · refine unswayed_isBlittable_bind target _ rfl ?_
    exact (unswayed_checkNatural cx _ target asked).bind fun _ => unswayed_pure _

theorem unswayed_planStringArray (cx : SlotContext) (slot : TypeRef)
    (marshal : Option MarshalInfo) : Unswayed m (planStringArray cx slot marshal) := by
  unfold planStringArray
  split
  on_goal 2 => split
  all_goals
    refine Unswayed.bind ?known fun element => ?element
    case known => first | exact unswayed_pure _ | exact unswayed_throw _
    case element =>
      dsimp only
      split <;> first | exact unswayed_pure _ | exact unswayed_throw _

theorem unswayed_planArray (cx : SlotContext) (element : TypeRef) (rank : UInt32)
    (marshal : Option MarshalInfo) (asked : Option NativeType) :
    Unswayed m (m.planArray cx element rank marshal asked) := by
  unfold planArray
  simp only
  split
  · exact unswayed_throw _
  split
  · exact unswayed_planStringArray cx _ marshal
  refine unswayed_isBlittable_bind _ _ rfl ?_
  rw [if_pos rfl]
  split
  · exact unswayed_pure _
  · next native =>
    have fitted (elementFits : Bool) : Unswayed m (
        if native ≠ .lpArray || !elementFits then cx.reject (.array element rank) (.unfit native)
        else return .blittableArray : Inquiry SlotPlan) := by
      split
      · exact unswayed_throw _
      · exact unswayed_pure _
    split
    · exact (unswayed_pure _).bind fitted
    · exact (unswayed_lift _).bind fitted

theorem unswayed_planParameter (cx : SlotContext) (param : ParamDef) :
    Unswayed m (m.planParameter cx param) := by
  refine (unswayed_asked cx _ _).bind fun asked => ?_
  split
  · exact unswayed_planByRef cx _ asked
  · exact unswayed_planArray cx _ _ _ asked
  · exact unswayed_planValue cx _ asked

theorem unswayed_planReturn (cx : SlotContext) (t : TypeRef) (marshal : Option MarshalInfo) :
    Unswayed m (m.planReturn cx t marshal) := by
  refine (unswayed_asked cx t marshal).bind fun asked => ?_
  split
  · split
    · exact unswayed_throw _
    · exact unswayed_pure _
  split
  · exact unswayed_throw _
  split
  · exact unswayed_throw _
  · exact unswayed_planValue cx t asked

/-! ## Stubs -/

/-- Checks a stub, with nothing known about types when a slot is planned. -/
def checkAlone (m : Module) (l : LocatedMethod) (info : Import) : Except BindError Stub := do
  let qualified := l.owner.name.display ++ "::" ++ l.method.name
  unless l.method.isStatic do
    throw (.unsupportedSignature qualified (.named l.owner.name) .notStatic)
  let convention ← match info.convention.indirect with
    | .ok convention => pure convention
    | .error bits => throw (.unknownConvention qualified bits)
  let cx : SlotContext := ⟨qualified, info.charSet⟩
  let returnPlan ← (m.planReturn cx l.method.returnType l.method.returnMarshal).alone
  let params ← l.method.params.mapM fun p => do
    return { name := p.name, type := p.type, marshal := p.marshal
             plan := ← (m.planParameter cx p).alone : ParamSlot }
  return {
    handle := l.handle
    owner := l.owner.name
    name := l.method.name
    params
    returns := ⟨l.method.returnType, l.method.returnMarshal, returnPlan⟩
    declaredConvention := info.convention
    convention
    charSet := info.charSet
    library := info.library
    symbol := info.entryPoint.getD l.method.name
    setLastError := info.setLastError }

theorem analyzeStub_gives (l : LocatedMethod) (info : Import) :
    Gives m (m.analyzeStub l info) (m.checkAlone l info) := by
  have param (cx : SlotContext) (p : ParamDef) :=
    Gives.bind (unswayed_planParameter (m := m) cx p) fun plan _ =>
      gives_pure (⟨p.name, p.type, p.marshal, plan⟩ : ParamSlot)
  cases isStatic : l.method.isStatic with
  | false =>
    simp only [analyzeStub, checkAlone, isStatic]
    exact (gives_throw _).bind nofun
  | true =>
    simp only [analyzeStub, checkAlone, isStatic, if_true]
    cases info.convention.indirect with
    | error bits => exact (gives_throw _).bind nofun
    | ok convention =>
      refine (gives_pure _).bind fun convention _ => ?_
      refine Gives.bind (unswayed_planReturn _ _ _) fun returnPlan _ => ?_
      refine (Gives.mapM (param _) _).bind fun params _ => ?_
      exact gives_pure _

theorem exists_mapM_eq_ok_iff {α β ε : Type} (f : α → Except ε β) (l : List α) :
    (∃ bs, l.mapM f = .ok bs) ↔ ∀ a ∈ l, ∃ b, f a = .ok b := by
  induction l with
  | nil => exact iff_of_true ⟨[], rfl⟩ fun a mem => absurd mem List.not_mem_nil
  | cons a l ih =>
    rw [List.forall_mem_cons, ← ih, List.mapM_cons]
    cases f a with
    | error e => exact iff_of_false nofun nofun
    | ok b =>
      cases l.mapM f with
      | error e => exact iff_of_false nofun nofun
      | ok bs => exact iff_of_true ⟨_, rfl⟩ ⟨⟨b, rfl⟩, bs, rfl⟩

/-- What is remembered from the stubs in front changes nothing: the table is that of the stubs
checked one by one up to the first failure. There is one if and only if each stub passes alone. -/
theorem importTable_eq_mapM_checkAlone (m : Module) (x : Exclusions) :
    m.importTable x =
      ((m.eligibleStubs x).mapM fun e => m.checkAlone e.1 e.2).map ImportTable.ofStubs ∧
    ((∃ found, m.importTable x = .ok found) ↔
      ∀ e ∈ m.eligibleStubs x, ∃ s, m.checkAlone e.1 e.2 = .ok s) := by
  have checked : ((m.checkedStubs x).run []).1 =
      (m.eligibleStubs x).mapM fun e => m.checkAlone e.1 e.2 :=
    (Gives.mapM (fun e : LocatedMethod × Import => analyzeStub_gives e.1 e.2) _ [] m.certain_nil).1
  rw [importTable, checked]
  refine ⟨rfl, Iff.trans ?_ (exists_mapM_eq_ok_iff _ _)⟩
  cases (m.eligibleStubs x).mapM fun e => m.checkAlone e.1 e.2 with
  | error e => simp [Except.map]
  | ok stubs => simp [Except.map]

/-- Stubs that take the types of `ring` by reference. -/
def ringStubs (targets : List String) : Module :=
  let takes (target : String) : MethodDef :=
    { (MethodDef.static target .i32).importing "m" with
      params := [.plain "target" (.byRef (.named ⟨"", target⟩))] }
  ring.withType { TypeDef.ofKind "A.T" .classType with methods := targets.map takes }

-- The stubs share two structs that hold each other.
example :
    let m := ringStubs ["Node", "Link", "Node"]
    let x : Exclusions := ⟨⟨"", "Helper"⟩, []⟩
    (m.importTable x).isOk ∧ m.importTable x =
      ((m.eligibleStubs x).mapM fun e => m.checkAlone e.1 e.2).map ImportTable.ofStubs := by
  cbv

-- Behind one of them comes a struct with a field whose type is missing.
example :
    let m := ringStubs ["Link", "Broken"]
    let x : Exclusions := ⟨⟨"", "Helper"⟩, []⟩
    m.importTable x = .error (.unresolvedType ⟨"", "Lost"⟩) ∧
      ((m.eligibleStubs x).mapM fun e => m.checkAlone e.1 e.2) =
        .error (.unresolvedType ⟨"", "Lost"⟩) := by
  cbv

end Module

end LateBind

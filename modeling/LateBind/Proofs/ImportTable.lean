import LateBind.ImportTable
import Mathlib.Data.List.Forall2

/-! # Checked stubs and their table

A checked stub keeps what its method declares. The table holds the checked stubs, those of one type
together, with the libraries that they name. -/

namespace LateBind

/-! ## Inquiries that succeed -/

/-- A computation that can fail keeps its state when it does. -/
theorem run_bind {σ ε α β : Type} (x : ExceptT ε (StateM σ) α) (f : α → ExceptT ε (StateM σ) β)
    (s : σ) : (x >>= f).run s =
      match x.run s with
      | (.ok a, s') => (f a).run s'
      | (.error e, s') => (.error e, s') := by
  rcases h : x.run s with ⟨answer, s'⟩
  simp only [ExceptT.run, Bind.bind, ExceptT.bind, ExceptT.mk, StateT.bind] at h ⊢
  rw [h]
  cases answer <;> rfl

/-- What holds of an answer whenever there is one. -/
def Inquiry.Ensures {α : Type} (x : Inquiry α) (P : α → Prop) : Prop :=
  ∀ memo a memo', x.run memo = (.ok a, memo') → P a

namespace Inquiry

variable {α β : Type} {x : Inquiry α} {P : α → Prop} {Q : β → Prop}

theorem ensures_true (x : Inquiry α) : Ensures x fun _ => True := fun _ _ _ _ => trivial

theorem ensures_pure {a : α} (h : P a) : Ensures (pure a) P := by
  intro memo b memo' run
  cases run
  exact h

theorem ensures_throw (e : BindError) : Ensures (throw e) P := by
  intro memo b memo' run
  cases run

theorem Ensures.bind {f : α → Inquiry β} (hx : Ensures x P) (hf : ∀ a, P a → Ensures (f a) Q) :
    Ensures (x >>= f) Q := by
  intro memo b memo' run
  rw [run_bind] at run
  rcases first : x.run memo with ⟨answer, memo₁⟩
  rw [first] at run
  cases answer with
  | error e => cases run
  | ok a => exact hf a (hx memo a memo₁ first) memo₁ b memo' run

/-- Answers of a whole list, item by item. -/
theorem Ensures.mapM {f : α → Inquiry β} {R : α → β → Prop} (hf : ∀ a, Ensures (f a) (R a))
    (l : List α) : Ensures (l.mapM f) (List.Forall₂ R l) := by
  induction l with
  | nil => exact ensures_pure .nil
  | cons a l ih =>
    rw [List.mapM_cons]
    refine (hf a).bind fun b hb => ih.bind fun bs hbs => ensures_pure (.cons hb hbs)

end Inquiry

theorem mapM_eq_ok_iff {α β ε : Type} {f : α → Except ε β} {items : List α} {results : List β} :
    items.mapM f = .ok results ↔ List.Forall₂ (fun a b => f a = .ok b) items results := by
  induction items generalizing results with
  | nil =>
    rw [List.mapM_nil, List.forall₂_nil_left_iff]
    exact ⟨fun same => (Except.ok.inj same).symm, fun none => by rw [none]; rfl⟩
  | cons a items ih =>
    rw [List.mapM_cons, List.forall₂_cons_left_iff]
    cases first : f a with
    | error e => exact ⟨nofun, nofun⟩
    | ok b =>
      cases others : items.mapM f with
      | error e =>
        refine ⟨nofun, fun ⟨_, rest, _, each, _⟩ => ?_⟩
        rw [ih.mpr each] at others
        cases others
      | ok rest =>
        have each := ih.mp others
        constructor
        · intro same
          cases same
          exact ⟨b, rest, rfl, each, rfl⟩
        · rintro ⟨b', rest', same, each', rfl⟩
          cases same
          cases others.symm.trans (ih.mpr each')
          rfl

theorem List.map_eq_of_forall₂ {α β : Type} {g : β → α} {l : List α} {l' : List β}
    (h : List.Forall₂ (fun a b => g b = a) l l') : l'.map g = l := by
  induction h with
  | nil => rfl
  | cons head _ ih => rw [List.map_cons, head, ih]

theorem List.exists_left_of_forall₂ {α β : Type} {R : α → β → Prop} {l : List α} {l' : List β}
    (h : List.Forall₂ R l l') {b : β} (hb : b ∈ l') : ∃ a ∈ l, R a b := by
  induction h with
  | nil => cases hb
  | cons head _ ih =>
    rcases List.mem_cons.mp hb with rfl | hb
    · exact ⟨_, List.mem_cons_self, head⟩
    · obtain ⟨a, ha, related⟩ := ih hb
      exact ⟨a, List.mem_cons_of_mem _ ha, related⟩

theorem List.exists_right_of_forall₂ {α β : Type} {R : α → β → Prop} {l : List α} {l' : List β}
    (h : List.Forall₂ R l l') {a : α} (ha : a ∈ l) : ∃ b ∈ l', R a b :=
  List.exists_left_of_forall₂ h.flip ha

/-! ## Checked stubs -/

/-- What a checked stub has from its method and its import. -/
structure Stub.Declares (s : Stub) (l : LocatedMethod) (info : Import) : Prop where
  isStatic : l.method.isStatic
  handle : s.handle = l.handle
  owner : s.owner = l.owner.name
  name : s.name = l.method.name
  params : s.params.map (fun p => ⟨p.name, p.type, p.marshal⟩) = l.method.params
  returnType : s.returns.type = l.method.returnType
  returnMarshal : s.returns.marshal = l.method.returnMarshal
  library : s.library = info.library
  symbol : s.symbol = info.entryPoint.getD l.method.name
  void : s.returns.type.isVoid → s.returns.plan = .direct

namespace Module

variable {m : Module}

theorem planReturn_void (cx : SlotContext) (t : TypeRef) (marshal : Option MarshalInfo) :
    (m.planReturn cx t marshal).Ensures fun plan => t.isVoid → plan = .direct := by
  refine (Inquiry.ensures_true _).bind fun asked _ => ?_
  cases void : t.isVoid with
  | false =>
    intro memo plan memo' _ isVoid
    cases isVoid
  | true =>
    simp only [if_true]
    split
    · exact Inquiry.ensures_throw _
    · exact Inquiry.ensures_pure fun _ => rfl

theorem analyzeStub_declares (l : LocatedMethod) (info : Import) :
    (m.analyzeStub l info).Ensures fun s => s.Declares l info := by
  have throws {α : Type} (e : BindError) (f : α → Inquiry Stub) :
      ((throw e : Inquiry α) >>= f).Ensures fun s => s.Declares l info :=
    Inquiry.Ensures.bind (P := fun _ => False) (Inquiry.ensures_throw e) fun _ no => no.elim
  have param (cx : SlotContext) (p : ParamDef) :
      Inquiry.Ensures (do
        return { name := p.name, type := p.type, marshal := p.marshal
                 plan := ← m.planParameter cx p : ParamSlot })
        fun s => (⟨s.name, s.type, s.marshal⟩ : ParamDef) = p :=
    (Inquiry.ensures_true _).bind fun _ _ => Inquiry.ensures_pure rfl
  cases isStatic : l.method.isStatic with
  | false =>
    simp only [analyzeStub, isStatic]
    exact throws _ _
  | true =>
    simp only [analyzeStub, isStatic, if_true]
    split
    · refine (Inquiry.ensures_true _).bind fun convention _ => ?_
      refine (planReturn_void _ _ _).bind fun returnPlan void => ?_
      refine (Inquiry.Ensures.mapM (param _) _).bind fun params declared => ?_
      exact Inquiry.ensures_pure ⟨isStatic, rfl, rfl, rfl, List.map_eq_of_forall₂ declared, rfl, rfl,
        rfl, rfl, void⟩
    · exact throws _ _

/-- The checked stubs are the eligible ones, one by one. -/
theorem checkedStubs_declare (m : Module) (x : Exclusions) :
    (m.checkedStubs x).Ensures
      (List.Forall₂ (fun (l, info) s => Stub.Declares s l info) (m.eligibleStubs x)) :=
  Inquiry.Ensures.mapM (fun (l, info) => analyzeStub_declares l info) (m.eligibleStubs x)

end Module

/-! ## The table -/

namespace ImportTable

variable {found : ImportTable} {stubs : List Stub}

/-- The table holds the stubs and no others, each with those of its type, and with its library. -/
structure Groups (found : ImportTable) (stubs : List Stub) : Prop where
  owners : (found.map TypeImports.owner).Nodup
  own : ∀ imports ∈ found, ∀ s ∈ imports.stubs, s.owner = imports.owner
  known : ∀ imports ∈ found, ∀ s ∈ imports.stubs, s.library ∈ imports.libraries
  mem : ∀ s, s ∈ found.stubs ↔ s ∈ stubs
  used : ∀ imports ∈ found, imports.stubs ≠ []

theorem mem_add_stubs (s : Stub) : ∀ s', s' ∈ (found.add s).stubs ↔ s' ∈ found.stubs ∨ s' = s := by
  intro s'
  unfold add
  split
  · next known =>
    obtain ⟨imports, hi, owner⟩ := List.any_eq_true.mp known
    simp only [stubs, List.mem_flatMap, List.mem_map]
    constructor
    · rintro ⟨_, ⟨before, hb, rfl⟩, hs⟩
      by_cases same : before.owner = s.owner
      · rw [if_pos (by simpa using same)] at hs
        rcases List.mem_append.mp hs with hs | hs
        · exact .inl ⟨before, hb, hs⟩
        · exact .inr (List.mem_singleton.mp hs)
      · exact .inl ⟨before, hb, by simpa [same] using hs⟩
    · rintro (⟨before, hb, hs⟩ | rfl)
      · refine ⟨_, ⟨before, hb, rfl⟩, ?_⟩
        split
        · exact List.mem_append_left _ hs
        · exact hs
      · refine ⟨_, ⟨imports, hi, rfl⟩, ?_⟩
        simp [owner, TypeImports.add]
  · simp [stubs, TypeImports.add]

theorem add_owners (s : Stub) : ((found.add s).map TypeImports.owner) =
    if found.any (·.owner == s.owner) then found.map TypeImports.owner
    else found.map TypeImports.owner ++ [s.owner] := by
  unfold add
  split
  · rw [List.map_map]
    apply List.map_congr_left
    intro imports _
    simp only [Function.comp_apply]
    split <;> rfl
  · simp [TypeImports.add]

/-- An entry of the longer table is an old entry, one with the new stub, or new. -/
theorem mem_add {imports : TypeImports} {s : Stub} (h : imports ∈ found.add s) :
    imports ∈ found ∨
    ∃ before : TypeImports, imports = before.add s ∧ before.owner = s.owner ∧
      (before ∈ found ∨ before.stubs = []) := by
  unfold add at h
  split at h
  · obtain ⟨before, hb, rfl⟩ := List.mem_map.mp h
    by_cases owner : before.owner = s.owner
    · exact .inr ⟨before, by simp [owner], owner, .inl hb⟩
    · exact .inl (by simpa [owner] using hb)
  · rcases List.mem_append.mp h with hb | hb
    · exact .inl hb
    · exact .inr ⟨⟨s.owner, [], []⟩, List.mem_singleton.mp hb, rfl, .inr rfl⟩

theorem Groups.add (h : found.Groups stubs) (s : Stub) : (found.add s).Groups (stubs ++ [s]) := by
  refine ⟨?_, ?_, ?_, ?_, ?_⟩
  · rw [add_owners]
    split
    · exact h.owners
    · next new =>
      refine List.nodup_append.mpr ⟨h.owners, by simp, ?_⟩
      intro owner howner owner' howner' same
      obtain ⟨imports, hi, rfl⟩ := List.mem_map.mp howner
      rw [List.mem_singleton.mp howner'] at same
      exact new (List.any_eq_true.mpr ⟨imports, hi, by simpa using same⟩)
  · intro imports hi s' hs'
    rcases mem_add hi with hi | ⟨before, rfl, owner, hb⟩
    · exact h.own imports hi s' hs'
    · rcases List.mem_append.mp hs' with hs' | hs'
      · rcases hb with hb | empty
        · exact h.own before hb s' hs'
        · simp [empty] at hs'
      · rw [List.mem_singleton.mp hs']
        exact owner.symm
  · intro imports hi s' hs'
    rcases mem_add hi with hi | ⟨before, rfl, owner, hb⟩
    · exact h.known imports hi s' hs'
    · have keeps (library : String) (hl : library ∈ before.libraries ∨ library = s.library) :
          library ∈ (before.add s).libraries := by
        unfold TypeImports.add
        simp only
        split
        · next already =>
          rcases hl with hl | rfl
          · exact hl
          · simpa using already
        · simpa using hl
      rcases List.mem_append.mp hs' with hs' | hs'
      · rcases hb with hb | empty
        · exact keeps _ (.inl (h.known before hb s' hs'))
        · simp [empty] at hs'
      · rw [List.mem_singleton.mp hs']
        exact keeps _ (.inr rfl)
  · intro s'
    rw [mem_add_stubs, h.mem, List.mem_append, List.mem_singleton]
  · intro imports hi
    rcases mem_add hi with hi | ⟨before, rfl, -, -⟩
    · exact h.used imports hi
    · simp [TypeImports.add]

theorem ofStubs_groups (stubs : List Stub) : (ofStubs stubs).Groups stubs := by
  have run (found : ImportTable) (before stubs : List Stub) (h : found.Groups before) :
      (stubs.foldl ImportTable.add found).Groups (before ++ stubs) := by
    induction stubs generalizing found before with
    | nil => simpa using h
    | cons s stubs ih =>
      rw [List.append_cons]
      exact ih (found.add s) (before ++ [s]) (h.add s)
  exact run [] [] stubs ⟨by simp, by simp, by simp, by simp [ImportTable.stubs], by simp⟩

end ImportTable

end LateBind

import LateBind.Proofs.Emission
import LateBind.Proofs.StackHeights

/-! # Bodies that a verifier accepts

What a verifier asks of a body, and the table of heights that it is read off from: one height for each
instruction, checked from one instruction to the next. -/

namespace LateBind

namespace Instr

/-- What an instruction takes from the stack and puts there. -/
def effect : StackEffect := fun i => (i.pops, i.pushes)

def isLeave : Instr → Bool
  | leave _ => true
  | _ => false

/-- The instruction names an argument or a local. -/
@[reducible, simp]
def isIndexed : Instr → Bool
  | ldarg _ | ldloc _ | stloc _ => true
  | _ => false

/-- The argument or local that the instruction names is there. -/
def InRange (params locals : Nat) : Instr → Prop
  | ldarg index => index.toNat < params
  | ldloc index | stloc index => index.toNat < locals
  | _ => True

instance (params locals : Nat) : DecidablePred (InRange params locals) := fun i => by
  cases i <;> unfold InRange <;> infer_instance

section InRange

variable {params params' locals locals' : Nat} {index : UInt16}

@[simp]
theorem inRange_ldarg : (ldarg index).InRange params locals ↔ index.toNat < params := Iff.rfl

@[simp]
theorem inRange_ldloc : (ldloc index).InRange params locals ↔ index.toNat < locals := Iff.rfl

@[simp]
theorem inRange_stloc : (stloc index).InRange params locals ↔ index.toNat < locals := Iff.rfl

@[simp]
theorem inRange_of_not_isIndexed {i : Instr} (h : i.isIndexed = false) : i.InRange params locals := by
  cases i <;> trivial

theorem InRange.mono {i : Instr} (h : i.InRange params locals) (le : params ≤ params')
    (le' : locals ≤ locals') : i.InRange params' locals' := by
  cases i <;> simp only [InRange] at h ⊢ <;> omega

end InRange

end Instr

namespace Region

/-- Control that passes from one place to another, other than by `leave`, stays in the part that it
is in. It comes into no finally part, and into a try part at its start only. -/
structure Keeps (r : Region) (pc place : Nat) : Prop where
  inTry : r.tryContains pc → r.tryContains place
  inFinally : r.finallyContains pc → r.finallyContains place
  notInto : r.finallyContains place → r.finallyContains pc
  fromStart : r.tryContains place → r.tryContains pc ∨ place = r.tryStart

theorem tryContains_iff {r : Region} {pc : Nat} :
    r.tryContains pc = true ↔ r.tryStart ≤ pc ∧ pc < r.tryEnd := by
  simp [tryContains]

theorem finallyContains_iff {r : Region} {pc : Nat} :
    r.finallyContains pc = true ↔ r.finallyStart ≤ pc ∧ pc < r.finallyEnd := by
  simp [finallyContains]

theorem keeps_iff {r : Region} {pc place : Nat} : r.Keeps pc place ↔
    (r.tryStart ≤ pc ∧ pc < r.tryEnd → r.tryStart ≤ place ∧ place < r.tryEnd) ∧
    (r.finallyStart ≤ pc ∧ pc < r.finallyEnd → r.finallyStart ≤ place ∧ place < r.finallyEnd) ∧
    (r.finallyStart ≤ place ∧ place < r.finallyEnd → r.finallyStart ≤ pc ∧ pc < r.finallyEnd) ∧
    (r.tryStart ≤ place ∧ place < r.tryEnd →
      (r.tryStart ≤ pc ∧ pc < r.tryEnd) ∨ place = r.tryStart) := by
  simp only [← tryContains_iff, ← finallyContains_iff]
  exact ⟨fun ⟨a, b, c, d⟩ => ⟨a, b, c, d⟩, fun ⟨a, b, c, d⟩ => ⟨a, b, c, d⟩⟩

instance (r : Region) (pc place : Nat) : Decidable (r.Keeps pc place) :=
  decidable_of_iff _ keeps_iff.symm

/-- The place is in neither part. -/
def Outside (r : Region) (pc : Nat) : Prop :=
  r.tryContains pc = false ∧ r.finallyContains pc = false

instance (r : Region) (pc : Nat) : Decidable (r.Outside pc) := inferInstanceAs (Decidable (_ ∧ _))

/-- Both parts lie between two places, one behind the other, and are not empty. -/
structure Within (r : Region) (lo hi : Nat) : Prop where
  start : lo ≤ r.tryStart
  tryPart : r.tryStart < r.tryEnd
  adjacent : r.finallyStart = r.tryEnd
  finallyPart : r.finallyStart < r.finallyEnd
  finish : r.finallyEnd ≤ hi

namespace Within

variable {r : Region} {lo hi lo' hi' pc place : Nat} (within : r.Within lo hi)

include within

theorem mono (le : lo' ≤ lo) (le' : hi ≤ hi') : r.Within lo' hi' := by
  obtain ⟨start, tryPart, adjacent, finallyPart, finish⟩ := within
  exact ⟨Nat.le_trans le start, tryPart, adjacent, finallyPart, Nat.le_trans finish le'⟩

theorem keeps_before (before : pc < lo) (before' : place ≤ lo) : r.Keeps pc place := by
  obtain ⟨start, tryPart, adjacent, finallyPart, finish⟩ := within
  rw [keeps_iff]
  omega

theorem keeps_behind (behind : hi ≤ pc) (behind' : hi ≤ place) : r.Keeps pc place := by
  obtain ⟨start, tryPart, adjacent, finallyPart, finish⟩ := within
  rw [keeps_iff]
  omega

theorem outside (behind : hi ≤ pc) : r.Outside pc := by
  obtain ⟨start, tryPart, adjacent, finallyPart, finish⟩ := within
  rw [Outside, ← Bool.not_eq_true, ← Bool.not_eq_true, tryContains_iff, finallyContains_iff]
  omega

end Within

end Region

open Instr (effect)

/-- What a verifier asks of the body of a method with so many parameters and results. -/
structure Body.Verified (b : Body) (params results : Nat) : Prop where
  /-- All ways to a place bring the same height of the stack. -/
  single : ∀ pc h h', b.Reaches effect pc h → b.Reaches effect pc h' → h = h'
  /-- Control does not fall off the end, and each instruction finds what it pops. -/
  enough : ∀ pc h, b.Reaches effect pc h → ∃ i, b.instrs[pc]? = some i ∧ i.pops ≤ h
  limited : ∀ pc h, b.Reaches effect pc h → h ≤ b.maxStack.toNat
  returns : ∀ pc h, b.Reaches effect pc h → b.instrs[pc]? = some .ret →
    h = results ∧ ∀ r ∈ b.regions, r.Outside pc
  falls : ∀ pc i, b.instrs[pc]? = some i → i.falls → ∀ r ∈ b.regions, r.Keeps pc (pc + 1)
  branches : ∀ pc i l place, b.instrs[pc]? = some i → i.isLeave = false → l ∈ i.targets →
    b.target? l = some place → ∀ r ∈ b.regions, r.Keeps pc place
  operands : ∀ i ∈ b.instrs, i.InRange params b.locals.length
  labels : ∀ i ∈ b.instrs, ∀ l ∈ i.targets, ∃ place < b.instrs.length, b.target? l = some place

/-! ## Code with heights -/

/-- How many parameters and locals there are, and how high the stack may be. -/
structure Bounds where
  params : Nat
  locals : Nat
  height : Nat

/-- The first bounds leave no more than the second ones. -/
structure Bounds.Le (bounds bounds' : Bounds) : Prop where
  params : bounds.params ≤ bounds'.params
  locals : bounds.locals ≤ bounds'.locals
  height : bounds.height ≤ bounds'.height

namespace Instr

/-- The instruction finds what it pops on a stack of a height, and leaves the height that the next
instruction and its labels have. -/
def Passes (bounds : Bounds) (level : Label → Nat → Prop) (i : Instr) (h : Nat)
    (next : Option Nat) : Prop :=
  i.pops ≤ h ∧ h ≤ bounds.height ∧ (i.falls → next = some (effect.after i h)) ∧
    (∀ l ∈ i.targets, level l (effect.arrival i h)) ∧ i.InRange bounds.params bounds.locals

variable {bounds bounds' : Bounds} {level level' : Label → Nat → Prop} {i : Instr} {l : Label}
  {h : Nat} {next : Option Nat}

instance [∀ l h, Decidable (level l h)] : Decidable (i.Passes bounds level h next) :=
  inferInstanceAs (Decidable (_ ∧ _ ∧ _ ∧ _ ∧ _))

theorem Passes.mono (passes : i.Passes bounds level h next) (le : bounds.Le bounds')
    (levels : ∀ l h, level l h → level' l h) : i.Passes bounds' level' h next := by
  obtain ⟨enough, low, falls, branches, inRange⟩ := passes
  exact ⟨enough, Nat.le_trans low le.height, falls, fun l hl => levels l _ (branches l hl),
    inRange.mono le.params le.locals⟩

/-- Where control does not pass on, any height may follow. -/
theorem Passes.of_next {next' : Option Nat} (passes : i.Passes bounds level h next)
    (goes_on : ∀ h', next = some h' → next' = some h') : i.Passes bounds level h next' := by
  obtain ⟨enough, low, falls, rest⟩ := passes
  exact ⟨enough, low, fun falls' => goes_on _ (falls falls'), rest⟩

@[simp]
theorem passes_plain (plain : i.isPlain) : i.Passes bounds level h next ↔
    i.pops ≤ h ∧ h ≤ bounds.height ∧ next = some (h - i.pops + i.pushes) ∧
      i.InRange bounds.params bounds.locals := by
  have falls : i.falls := by cases i <;> first | rfl | cases plain
  simp [Passes, falls, targets_of_isPlain plain, StackEffect.after, effect]

@[simp]
theorem passes_brtrue : (brtrue l).Passes bounds level h next ↔
    1 ≤ h ∧ h ≤ bounds.height ∧ next = some (h - 1) ∧ level l (h - 1) := by
  simp [Passes, falls, targets, StackEffect.after, StackEffect.arrival, effect]

@[simp]
theorem passes_brfalse : (brfalse l).Passes bounds level h next ↔
    1 ≤ h ∧ h ≤ bounds.height ∧ next = some (h - 1) ∧ level l (h - 1) := by
  simp [Passes, falls, targets, StackEffect.after, StackEffect.arrival, effect]

@[simp]
theorem passes_br : (br l).Passes bounds level h next ↔ h ≤ bounds.height ∧ level l h := by
  simp [Passes, falls, targets, StackEffect.arrival, effect]

@[simp]
theorem passes_leave : (leave l).Passes bounds level h next ↔ h ≤ bounds.height ∧ level l 0 := by
  simp [Passes, falls, targets, StackEffect.arrival]

@[simp]
theorem passes_ret : ret.Passes bounds level h next ↔ h ≤ bounds.height := by
  simp [Passes, falls, targets]

@[simp]
theorem passes_endfinally : endfinally.Passes bounds level h next ↔ h ≤ bounds.height := by
  simp [Passes, falls, targets]

end Instr

/-- Each instruction passes with its height from a table; the last height is the one behind the code,
unless control does not come there. -/
def Fits (bounds : Bounds) (level : Label → Nat → Prop) :
    List Instr → List Nat → Option Nat → Prop
  | [], [], _ => True
  | i :: is, h :: hs, last => i.Passes bounds level h (hs.head?.or last) ∧ Fits bounds level is hs last
  | _, _, _ => False

namespace Fits

variable {bounds bounds' : Bounds} {level level' : Label → Nat → Prop} {i : Instr}
  {is is' : List Instr} {h : Nat} {hs hs' : List Nat} {last : Option Nat}

instance decidable [∀ l h, Decidable (level l h)] : (is : List Instr) → (hs : List Nat) →
    (last : Option Nat) → Decidable (Fits bounds level is hs last)
  | [], [], _ => .isTrue trivial
  | _ :: is, _ :: hs, last =>
    have := decidable is hs last
    inferInstanceAs (Decidable (_ ∧ _))
  | [], _ :: _, _ => .isFalse id
  | _ :: _, [], _ => .isFalse id

@[simp]
theorem nil : Fits bounds level [] [] last := trivial

@[simp]
theorem cons_iff : Fits bounds level (i :: is) (h :: hs) last ↔
    i.Passes bounds level h (hs.head?.or last) ∧ Fits bounds level is hs last := Iff.rfl

theorem length_eq (fits : Fits bounds level is hs last) : hs.length = is.length := by
  induction is generalizing hs with
  | nil =>
    cases hs with
    | nil => rfl
    | cons => exact fits.elim
  | cons i is ih =>
    cases hs with
    | nil => exact fits.elim
    | cons h hs => exact congrArg (· + 1) (ih fits.2)

theorem mono (fits : Fits bounds level is hs last) (le : bounds.Le bounds')
    (levels : ∀ l h, level l h → level' l h) : Fits bounds' level' is hs last := by
  induction is generalizing hs with
  | nil =>
    cases hs with
    | nil => trivial
    | cons => exact fits.elim
  | cons i is ih =>
    cases hs with
    | nil => exact fits.elim
    | cons h hs => exact ⟨fits.1.mono le levels, ih fits.2⟩

/-- Code goes on behind other code with the height that is there, if control comes out of it. -/
theorem append {mid : Option Nat} (first : Fits bounds level is hs mid)
    (second : Fits bounds level is' hs' last)
    (goes_on : ∀ h, mid = some h → hs'.head?.or last = some h) :
    Fits bounds level (is ++ is') (hs ++ hs') last := by
  induction is generalizing hs with
  | nil =>
    cases hs with
    | nil => exact second
    | cons => exact first.elim
  | cons i is ih =>
    cases hs with
    | nil => exact first.elim
    | cons h hs =>
      refine ⟨first.1.of_next fun h' there => ?_, ih first.2⟩
      cases hs with
      | nil => exact goes_on h' there
      | cons => exact there

theorem passes (fits : Fits bounds level is hs last) {pc : Nat} (found : is[pc]? = some i) :
    ∃ h, hs[pc]? = some h ∧ i.Passes bounds level h (hs ++ last.toList)[pc + 1]? := by
  induction is generalizing hs pc with
  | nil => cases found
  | cons i' is ih =>
    cases hs with
    | nil => exact fits.elim
    | cons h hs =>
      cases pc with
      | zero =>
        cases found
        refine ⟨h, rfl, fits.1.of_next fun h' there => ?_⟩
        cases hs with
        | nil =>
          cases last with
          | none => cases there
          | some => exact there
        | cons => exact there
      | succ pc => exact ih fits.2 found

theorem le_height (fits : Fits bounds level is hs last) : ∀ h ∈ hs, h ≤ bounds.height := by
  induction is generalizing hs with
  | nil =>
    cases hs with
    | nil => simp
    | cons => exact fits.elim
  | cons i is ih =>
    cases hs with
    | nil => exact fits.elim
    | cons h hs => exact List.forall_mem_cons.mpr ⟨fits.1.2.1, ih fits.2⟩

end Fits

namespace Body

variable {b : Body} {params results : Nat} {heights : List Nat}

/-- The height in a table at the place of a label. -/
def Level (b : Body) (heights : List Nat) (l : Label) (h : Nat) : Prop :=
  (b.target? l).bind (heights[·]?) = some h

instance (heights : List Nat) (l : Label) (h : Nat) : Decidable (b.Level heights l h) :=
  inferInstanceAs (Decidable (_ = _))

/-- What a verifier checks at one instruction besides heights: the parts of regions, and the end. -/
def Ordered (b : Body) (results : Nat) (pc : Nat) (i : Instr) (h : Nat) : Prop :=
  (i.falls → ∀ r ∈ b.regions, r.Keeps pc (pc + 1)) ∧
    (i.isLeave = false → ∀ l ∈ i.targets, ∀ place ∈ b.target? l, ∀ r ∈ b.regions, r.Keeps pc place) ∧
    (i = .ret → h = results ∧ ∀ r ∈ b.regions, r.Outside pc)

instance (b : Body) (results pc : Nat) (i : Instr) (h : Nat) : Decidable (b.Ordered results pc i h) :=
  inferInstanceAs (Decidable (_ ∧ _ ∧ _))

/-- A table of heights that passes all checks. -/
def Certified (b : Body) (params results : Nat) (heights : List Nat) : Prop :=
  heights[0]? = some 0 ∧
    Fits ⟨params, b.locals.length, b.maxStack.toNat⟩ (b.Level heights) b.instrs heights none ∧
    (∀ x ∈ (b.instrs.zip heights).zipIdx, b.Ordered results x.2 x.1.1 x.1.2) ∧
    ∀ r ∈ b.regions, heights[r.finallyStart]? = some 0

instance : Decidable (b.Certified params results heights) :=
  inferInstanceAs (Decidable (_ ∧ _ ∧ _ ∧ _))

namespace Certified

variable (certified : b.Certified params results heights)

include certified

theorem length_eq : heights.length = b.instrs.length := certified.2.1.length_eq

theorem passes {pc : Nat} {i : Instr} (found : b.instrs[pc]? = some i) :
    ∃ h, heights[pc]? = some h ∧ i.Passes ⟨params, b.locals.length, b.maxStack.toNat⟩
      (b.Level heights) h heights[pc + 1]? := by
  have passes := certified.2.1.passes found
  rwa [Option.toList_none, List.append_nil] at passes

theorem ordered {pc h : Nat} {i : Instr} (found : b.instrs[pc]? = some i)
    (at_pc : heights[pc]? = some h) : b.Ordered results pc i h := by
  refine certified.2.2.1 ((i, h), pc) (List.mem_zipIdx_iff_getElem?.mpr ?_)
  rw [List.getElem?_zip_eq_some]
  exact ⟨found, at_pc⟩

theorem carries : b.Carries effect (heights[·]?) where
  start := certified.1
  next pc i h found at_pc falls := by
    obtain ⟨h', at_pc', -, -, next, -⟩ := certified.passes found
    obtain rfl := Option.some.inj (at_pc.symm.trans at_pc')
    exact next falls
  branch pc i h l place found at_pc hl target := by
    obtain ⟨h', at_pc', -, -, -, branches, -⟩ := certified.passes found
    obtain rfl := Option.some.inj (at_pc.symm.trans at_pc')
    obtain ⟨place', target', arrival⟩ := Option.bind_eq_some_iff.mp (branches l hl)
    obtain rfl := Option.some.inj (target.symm.trans target')
    exact arrival
  finallyStart := certified.2.2.2

/-- The table says what a verifier finds by following all ways that control can take. -/
theorem verified : b.Verified params results := by
  have height {pc h : Nat} (reaches : b.Reaches effect pc h) : heights[pc]? = some h :=
    certified.carries.height?_eq reaches
  have instr {pc h : Nat} (reaches : b.Reaches effect pc h) :
      ∃ i, b.instrs[pc]? = some i ∧ i.pops ≤ h ∧ h ≤ b.maxStack.toNat := by
    have inside := (List.getElem?_eq_some_iff.mp (height reaches)).1
    rw [certified.length_eq] at inside
    have found := List.getElem?_eq_getElem inside
    obtain ⟨h', at_pc, enough, low, -⟩ := certified.passes found
    obtain rfl := Option.some.inj ((height reaches).symm.trans at_pc)
    exact ⟨_, found, enough, low⟩
  constructor
  case single =>
    intro pc h h' reaches reaches'
    exact Option.some.inj ((height reaches).symm.trans (height reaches'))
  case enough =>
    intro pc h reaches
    obtain ⟨i, found, enough, -⟩ := instr reaches
    exact ⟨i, found, enough⟩
  case limited =>
    intro pc h reaches
    obtain ⟨i, -, -, low⟩ := instr reaches
    exact low
  case returns =>
    intro pc h reaches found
    exact (certified.ordered found (height reaches)).2.2 rfl
  case falls =>
    intro pc i found
    obtain ⟨h, at_pc, -⟩ := certified.passes found
    exact (certified.ordered found at_pc).1
  case branches =>
    intro pc i l place found stays hl target
    obtain ⟨h, at_pc, -⟩ := certified.passes found
    exact (certified.ordered found at_pc).2.1 stays l hl place target
  case operands =>
    intro i hi
    obtain ⟨pc, found⟩ := List.mem_iff_getElem?.mp hi
    obtain ⟨h, -, -, -, -, -, operands⟩ := certified.passes found
    exact operands
  case labels =>
    intro i hi l hl
    obtain ⟨pc, found⟩ := List.mem_iff_getElem?.mp hi
    obtain ⟨h, -, -, -, -, branches, -⟩ := certified.passes found
    obtain ⟨place, target, arrival⟩ := Option.bind_eq_some_iff.mp (branches l hl)
    have inside := (List.getElem?_eq_some_iff.mp arrival).1
    exact ⟨place, certified.length_eq ▸ inside, target⟩

end Certified

end Body

end LateBind

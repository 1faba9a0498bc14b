import LateBind.Machine.Run
import LateBind.Proofs.Regions

/-! # The regions around a place

Which finally parts a jump or an exception has to run, in a body whose regions are well nested and
whose branches keep to them. -/

namespace LateBind

/-- The place lies in one of the two parts. -/
def Region.covers (r : Region) (pc : Nat) : Bool := r.tryContains pc || r.finallyContains pc

namespace Body

/-- The innermost part around a place: its region, and whether it is the finally part. Of the regions
around a place, the table has the innermost first. -/
def part? (b : Body) (pc : Nat) : Option (Region × Bool) :=
  b.regions.findSome? fun r =>
    if r.tryContains pc then some (r, false)
    else if r.finallyContains pc then some (r, true)
    else none

/-- The control transfers that a body may make. -/
def Permits (b : Body) (pc : Nat) : Instr → Prop
  | .leave l => ∀ target ∈ b.target? l, ∀ r ∈ b.regions,
    (r.finallyContains pc → r.finallyContains target) ∧ (r.covers target → r.covers pc)
  | .ret => ∀ r ∈ b.regions, ¬r.covers pc
  | i => ∀ l ∈ i.targets, ∀ target ∈ b.target? l, b.part? target = b.part? pc

/-- Branches stay in their innermost part, no `leave` gets out of a finally part or into a region, and
no region returns. -/
def Structured (b : Body) : Prop := ∀ p ∈ b.instrs.zipIdx, b.Permits p.2 p.1

instance (b : Body) (pc : Nat) (i : Instr) : Decidable (b.Permits pc i) := by
  apply @Instr.casesOn (fun i => Decidable (b.Permits pc i)) i <;> intros <;>
    exact inferInstanceAs (Decidable (∀ _ ∈ _, _))

instance (b : Body) : Decidable b.Structured := inferInstanceAs (Decidable (∀ _ ∈ _, _))

variable {b : Body} {pc target : Nat} {r q : Region}

theorem Structured.permits (structured : b.Structured) {i : Instr} (code : b.instrs[pc]? = some i) :
    b.Permits pc i :=
  structured (i, pc) (List.mem_zipIdx_iff_getElem?.mpr code)

theorem Structured.branch (structured : b.Structured) {i : Instr} {l : Label}
    (code : b.instrs[pc]? = some i) (notLeave : ∀ l, i ≠ .leave l) (hl : l ∈ i.targets)
    (goes : b.target? l = some target) : b.part? target = b.part? pc := by
  have permits := structured.permits code
  cases i with
  | leave l => exact absurd rfl (notLeave l)
  | ret => cases hl
  | _ => exact permits l hl target goes

theorem Structured.leave (structured : b.Structured) {l : Label}
    (code : b.instrs[pc]? = some (.leave l)) (goes : b.target? l = some target) (hr : r ∈ b.regions)
    (inside : r.finallyContains pc) : r.finallyContains target :=
  (structured.permits code target goes r hr).1 inside

theorem mem_of_part? {side : Bool} (h : b.part? pc = some (q, side)) :
    q ∈ b.regions ∧ if side then q.finallyContains pc else q.tryContains pc := by
  obtain ⟨q', mem, eq⟩ := List.exists_of_findSome?_eq_some h
  split at eq
  · next inTry =>
    cases eq
    exact ⟨mem, inTry⟩
  · split at eq
    · next inFinally =>
      cases eq
      exact ⟨mem, inFinally⟩
    · cases eq

namespace Nested

variable (nested : b.Nested)

include nested

theorem fits_of_eq {before after : List Region} (table : b.regions = before ++ r :: after) :
    (∀ q ∈ before, q.Fits r) ∧ ∀ q ∈ after, r.Fits q := by
  have fits := nested.fits
  rw [table, List.pairwise_append, List.pairwise_cons] at fits
  exact ⟨fun q hq => fits.2.2 q hq r List.mem_cons_self, fits.2.1.1⟩

/-- The innermost part around a place in a finally part is that part or lies in it. -/
theorem part?_of_finallyContains (hr : r ∈ b.regions) (inside : r.finallyContains pc) :
    b.part? pc = some (r, true) ∨ ∃ q side, b.part? pc = some (q, side) ∧ q.InFinally r := by
  obtain ⟨before, after, table⟩ := List.append_of_mem hr
  have formed := nested.formed r hr
  have notInTry : ¬r.tryContains pc := fun inTry => formed.not_both inTry inside
  rw [part?, table, List.findSome?_append, List.findSome?_cons]
  cases inner : before.findSome? fun r =>
      if r.tryContains pc then some (r, false)
      else if r.finallyContains pc then some (r, true) else none with
  | none =>
    left
    simp [notInTry, inside]
  | some part =>
    obtain ⟨q, hq, eq⟩ := List.exists_of_findSome?_eq_some inner
    have around : q.tryContains pc ∨ q.finallyContains pc := by
      by_contra neither
      rw [not_or] at neither
      simp [neither] at eq
    have same : part.1 = q := by
      split at eq
      · rw [← Option.some.inj eq]
      · split at eq
        · rw [← Option.some.inj eq]
        · cases eq
    have hq' : q ∈ b.regions := table ▸ List.mem_append_left _ hq
    refine .inr ⟨q, part.2, by simp [← same], ?_⟩
    exact ((nested.fits_of_eq table).1 q hq).inFinally (nested.formed q hq') formed around inside

/-- Two places with the same innermost part lie in the same finally parts. -/
theorem finallyContains_of_part? (same : b.part? target = b.part? pc) (hr : r ∈ b.regions)
    (inside : r.finallyContains pc) : r.finallyContains target := by
  rcases nested.part?_of_finallyContains hr inside with part | ⟨q, side, part, inner⟩
  · exact (mem_of_part? (same.trans part)).2
  · obtain ⟨hq, contains⟩ := mem_of_part? (same.trans part)
    refine inner.finallyContains (nested.formed q hq) ?_
    split at contains
    · exact .inr contains
    · exact .inl contains

/-- Control does not fall out of a finally part. -/
theorem finallyContains_next {i : Instr} (live : b.Live pc) (code : b.instrs[pc]? = some i)
    (falls : i.falls) (hr : r ∈ b.regions) (inside : r.finallyContains pc) :
    r.finallyContains (pc + 1) := by
  rw [Region.finallyContains_iff] at inside ⊢
  have notEnd : r.finallyEnd ≠ pc + 1 := by
    intro atEnd
    rw [nested.sealed r hr pc i atEnd live code] at falls
    cases falls
  omega

/-! ### The regions around a place -/

/-- The regions around a place, each in the try part of those behind it. -/
theorem pairwise_regionsAround (pc : Nat) : (b.regionsAround pc).Pairwise Region.InTry := by
  rw [regionsAround, List.pairwise_filter]
  refine nested.fits.imp_of_mem fun hr hr' fits inTry inTry' => ?_
  exact fits.inTry (nested.formed _ hr) (nested.formed _ hr') (.inl inTry) inTry'

/-- A jump goes out of the innermost of the regions around it. -/
theorem regionsLeft_append (pc target : Nat) :
    ∃ outer, b.regionsAround pc = b.regionsLeft pc target ++ outer := by
  have grows := nested.pairwise_regionsAround pc
  have left : b.regionsLeft pc target =
      (b.regionsAround pc).filter fun r => !r.tryContains target := by
    rw [regionsLeft, regionsAround, List.filter_filter]
    simp only [Bool.and_comm]
  have formed : ∀ r ∈ b.regionsAround pc, r.Formed := fun r hr =>
    nested.formed r (List.mem_filter.mp hr).1
  rw [left]
  generalize b.regionsAround pc = regions at grows formed
  induction regions with
  | nil => exact ⟨[], rfl⟩
  | cons r regions ih =>
    rw [List.pairwise_cons] at grows
    rw [List.forall_mem_cons] at formed
    cases holds : r.tryContains target with
    | false =>
      obtain ⟨outer, eq⟩ := ih grows.2 formed.2
      exact ⟨outer, by rw [List.filter_cons_of_pos (by simp [holds]), List.cons_append, ← eq]⟩
    | true =>
      have none : (r :: regions).filter (fun r => !r.tryContains target) = [] := by
        rw [List.filter_eq_nil_iff, List.forall_mem_cons]
        refine ⟨by simp [holds], fun r' hr' => ?_⟩
        simp [(grows.1 r' hr').tryContains formed.1 (.inl holds)]
      exact ⟨r :: regions, by rw [none]; rfl⟩

/-- Around a place in the finally part of a region are regions that lie in that part, and those that
are behind the region around its try part. -/
theorem regionsAround_of_finallyContains {pc' : Nat} {before later : List Region}
    (around : b.regionsAround pc = before ++ r :: later) (inside : r.finallyContains pc') :
    ∃ inner, b.regionsAround pc' = inner ++ later ∧ ∀ q ∈ inner, q ∈ b.regions ∧ q.InFinally r := by
  obtain ⟨before', after, table, -, behind⟩ := List.filter_eq_append_iff.mp around
  obtain ⟨skipped, after', rfl, -, inTry, rfl⟩ := List.filter_eq_cons_iff.mp behind
  rw [← List.append_assoc] at table
  obtain ⟨fitsBefore, fitsAfter⟩ := nested.fits_of_eq table
  have mem (q : Region) (hq : q ∈ before' ++ skipped ∨ q ∈ after') : q ∈ b.regions := by
    rw [table]
    rcases hq with hq | hq
    · exact List.mem_append_left _ hq
    · exact List.mem_append_right _ (List.mem_cons_of_mem _ hq)
  have formed : r.Formed := nested.formed r (by rw [table]; simp)
  have notInTry : ¬r.tryContains pc' := fun inTry => formed.not_both inTry inside
  refine ⟨(before' ++ skipped).filter (·.tryContains pc'), ?_, fun q hq => ?_⟩
  · rw [regionsAround, table, List.filter_append, List.filter_cons_of_neg (by simpa using notInTry)]
    refine congrArg _ (List.filter_congr fun q hq => ?_)
    have formed' := nested.formed q (mem q (.inr hq))
    rw [Bool.eq_iff_iff]
    constructor
    · intro inTry'
      exact ((fitsAfter q hq).inTry formed formed' (.inr inside) inTry').tryContains formed (.inl inTry)
    · intro inTry'
      exact ((fitsAfter q hq).inTry formed formed' (.inl inTry) inTry').tryContains formed (.inr inside)
  · obtain ⟨hq, inTry'⟩ := List.mem_filter.mp hq
    refine ⟨mem q (.inl hq), ?_⟩
    exact (fitsBefore q hq).inFinally (nested.formed q (mem q (.inl hq))) formed (.inl inTry') inside

/-- What a jump within a finally part goes out of lies in that part. -/
theorem regionsLeft_inFinally (hr : r ∈ b.regions) (inside : r.finallyContains pc)
    (stays : r.finallyContains target) (hq : q ∈ b.regionsLeft pc target) : q.InFinally r := by
  obtain ⟨hq, left⟩ := List.mem_filter.mp hq
  rw [Bool.and_eq_true, Bool.not_eq_true'] at left
  obtain ⟨before, after, table⟩ := List.append_of_mem hr
  obtain ⟨fitsBefore, fitsAfter⟩ := nested.fits_of_eq table
  have formed := nested.formed r hr
  have formed' := nested.formed q hq
  have place : q ∈ before ∨ q = r ∨ q ∈ after := by simpa [table] using hq
  rcases place with hq | rfl | hq
  · exact (fitsBefore q hq).inFinally formed' formed (.inl left.1) inside
  · exact absurd inside fun inside => formed.not_both left.1 inside
  · have outer := (fitsAfter q hq).inTry formed formed' (.inr inside) left.1
    rw [outer.tryContains formed (.inr stays)] at left
    cases left.2

end Nested

end Body

end LateBind

import LateBind.Module.Construction
import LateBind.Proofs.Planning

/-! # First free names

Names are given out in a row, and each is the first candidate for its base that is free at that
point. The names of planned members come from such a row; so they differ although one base may be
another one with a number, and although two libraries may have one fragment. -/

namespace LateBind

open Naming TypeScaffold

namespace TypeDef

/-- However many names are asked for in a type, each search ends at the first of the base and its
numbered names that neither a member has nor was given out before. A search passes over at most as
many candidates as there are such names, so its number never outgrows their count. All names that
are given out differ. The names of planned members are given out in such a row. -/
theorem gives_first_free_names (t : TypeDef) :
    (∀ bases, ∃ names taken, GivesOut t.memberNames bases names taken ∧
      names.length = bases.length ∧ names.Nodup ∧
      ∀ i base name, bases[i]? = some base → names[i]? = some name →
        ∃ n ≤ t.memberNames.length + i,
          IsFirst (fun x => x ∈ t.memberNames ∨ x ∈ names.take i) base name n) ∧
    ∀ c imports, (∀ s ∈ imports.stubs, s.library ∈ imports.libraries) →
      ∃ planned taken, plan c t imports = .ok planned ∧ planned.Fits c t imports ∧
        GivesOut t.memberNames (bases imports) planned.names taken ∧ planned.names.Nodup := by
  refine ⟨fun bases => ?names, fun c imports known => ?members⟩
  case names =>
    have gives : GivesOut t.memberNames bases _ _ := rfl
    exact ⟨_, _, gives, gives.length_eq, gives.isFresh.nodup, fun _ _ _ => gives.isFirst⟩
  case members =>
    obtain ⟨planned, taken, ok, fits, gives⟩ := plan_givesOut c t known
    exact ⟨planned, taken, ok, fits, gives, gives.isFresh.nodup⟩

/-- A type that has the names `p_Add` and `p_Add_1` already. -/
def numbered : TypeDef :=
  ((ofKind "A.T" .classType).withStaticField "p_Add" .intPtr).withMethod (.static "p_Add_1" .i32)

/-- A stub `Add` of the second of two libraries with one fragment. -/
def numberedImports : TypeImports :=
  let add : Stub :=
    { handle := ⟨0, 1⟩, owner := numbered.name, name := "Add", params := []
      returns := ⟨.i32, none, .direct⟩, declaredConvention := .cdecl, convention := .cdecl
      charSet := .notSpecified, library := "a.b", symbol := "Add", setLastError := false }
  ⟨numbered.name, [add], ["a-b", "a.b"]⟩

/-- Names with a number count as bases and as candidates, and libraries of one fragment get
different members. -/
theorem gives_first_free_names_numbered :
    (∃ taken, GivesOut numbered.memberNames ["p_Add", "p_Add_2", "p_Add", "p_Add_1"]
        ["p_Add_2", "p_Add_2_1", "p_Add_3", "p_Add_1_1"] taken) ∧
      (∃ n ≤ 4, IsFirst (fun x => x ∈ ["p_Add", "p_Add_1"] ∨ x ∈ ["p_Add_2", "p_Add_2_1"])
        "p_Add" "p_Add_3" n) ∧
      (∀ s ∈ numberedImports.stubs, s.library ∈ numberedImports.libraries) ∧
      ∃ planned, plan .default numbered numberedImports = .ok planned ∧
        planned.names = ["pl_a_b", "LoadLibrarya_b", "pl_a_b_1", "LoadLibrarya_b_1", "p_Add_2",
          "init_Add", "native_Add"] ∧ planned.names.Nodup := by
  obtain ⟨names, taken, gives, -, -, first⟩ :=
    (gives_first_free_names numbered).1 ["p_Add", "p_Add_2", "p_Add", "p_Add_1"]
  obtain rfl : ["p_Add_2", "p_Add_2_1", "p_Add_3", "p_Add_1_1"] = names :=
    Eq.trans (by decide +kernel) (congrArg Prod.fst gives)
  have known : ∀ s ∈ numberedImports.stubs, s.library ∈ numberedImports.libraries := by decide
  obtain ⟨planned, taken', ok, -, gives', nodup⟩ :=
    (gives_first_free_names numbered).2 .default numberedImports known
  refine ⟨⟨taken, gives⟩, first 2 "p_Add" "p_Add_3" rfl rfl, known, planned, ok, ?_, nodup⟩
  exact (congrArg Prod.fst gives').symm.trans (by decide +kernel)

end TypeDef

end LateBind

import LateBind.Proofs.ImportTable
import Mathlib.Algebra.GroupWithZero.Nat
import Mathlib.Data.List.Induction
import Mathlib.Data.List.Nodup

/-! # Groups of stubs

The table keeps the stubs of a type together. Its types, and the libraries of each, stand in the order
in which they are met first. -/

namespace LateBind

/-! ## Groups -/

section Groups

variable {α β κ : Type} [BEq κ] {l : List α} {key : α → κ}

/-- The items of a list by their keys: the keys in the order in which they are met first, and the
items of a key in the order of the list. -/
def groupedBy (key : α → κ) (l : List α) : List α :=
  (l.map key).eraseDups.flatMap fun k => l.filter (key · == k)

theorem groupedBy_map (f : β → α) (key : α → κ) (l : List β) :
    groupedBy key (l.map f) = (groupedBy (key ∘ f) l).map f := by
  simp only [groupedBy, List.map_map, List.map_flatMap, List.filter_map]
  rfl

theorem groupedBy_congr {key' : α → κ} (same : ∀ a ∈ l, key a = key' a) :
    groupedBy key l = groupedBy key' l := by
  have keys : l.map key = l.map key' := List.map_congr_left same
  rw [groupedBy, groupedBy, keys]
  refine List.flatMap_congr fun k _ => List.filter_congr fun a mem => ?_
  rw [same a mem]

variable [LawfulBEq κ]

theorem eraseDups_append_singleton (ks : List κ) (k : κ) :
    (ks ++ [k]).eraseDups = if k ∈ ks then ks.eraseDups else ks.eraseDups ++ [k] := by
  rw [List.eraseDups_append]
  split
  · next known => simp [List.removeAll, known]
  · next new => simp [List.removeAll, new, List.eraseDups_cons]

theorem nodup_eraseDups (ks : List κ) : ks.eraseDups.Nodup := by
  induction ks using List.reverseRecOn with
  | nil => exact List.nodup_nil
  | append_singleton ks k ih =>
    rw [eraseDups_append_singleton]
    split
    · exact ih
    · next new =>
      refine List.nodup_append.mpr ⟨ih, List.nodup_singleton k, fun k' mem k'' same eq => new ?_⟩
      rw [← List.mem_singleton.mp same, ← eq]
      exact List.mem_eraseDups.mp mem

/-- Groups of all the keys hold each item once. -/
theorem flatMap_filter_perm {ks : List κ} (nodup : ks.Nodup) (known : ∀ a ∈ l, key a ∈ ks) :
    (ks.flatMap fun k => l.filter (key · == k)).Perm l := by
  induction ks generalizing l with
  | nil =>
    cases l with
    | nil => exact .nil
    | cons a l => exact absurd (known a List.mem_cons_self) List.not_mem_nil
  | cons k ks ih =>
    obtain ⟨new, nodup⟩ := List.nodup_cons.mp nodup
    have others : (ks.flatMap fun k' => l.filter (key · == k')) =
        ks.flatMap fun k' => (l.filter (!key · == k)).filter (key · == k') := by
      refine List.flatMap_congr fun k' mem => ?_
      rw [List.filter_filter]
      refine List.filter_congr fun a _ => ?_
      by_cases same : key a = k'
      · have differ : key a ≠ k := fun eq => new (eq ▸ same ▸ mem)
        simp [same, same ▸ differ]
      · simp [same]
    have rest := ih (l := l.filter (!key · == k)) nodup fun a mem => by
      obtain ⟨mem, differ⟩ := List.mem_filter.mp mem
      exact (List.mem_cons.mp (known a mem)).resolve_left (by simpa using differ)
    rw [List.flatMap_cons, others]
    exact (rest.append_left _).trans (List.filter_append_perm _ l)

theorem groupedBy_perm (key : α → κ) (l : List α) : (groupedBy key l).Perm l :=
  flatMap_filter_perm (nodup_eraseDups _) fun _ mem =>
    List.mem_eraseDups.mpr (List.mem_map_of_mem mem)

/-- Items that belong together stay so when both lists are grouped alike. -/
theorem forall₂_groupedBy {R : α → β → Prop} {key' : β → κ} {l' : List β}
    (related : List.Forall₂ R l l') (same : ∀ a b, R a b → key a = key' b) :
    List.Forall₂ R (groupedBy key l) (groupedBy key' l') := by
  obtain ⟨lengths, pairs⟩ := List.forall₂_iff_zip.mp related
  have left : (l.zip l').map Prod.fst = l := List.map_fst_zip (Nat.le_of_eq lengths)
  have right : (l.zip l').map Prod.snd = l' := List.map_snd_zip (Nat.le_of_eq lengths.symm)
  have keys : groupedBy (key ∘ Prod.fst) (l.zip l') = groupedBy (key' ∘ Prod.snd) (l.zip l') :=
    groupedBy_congr fun p mem => same p.1 p.2 (pairs mem)
  have alike : List.Forall₂ R (groupedBy key ((l.zip l').map Prod.fst))
      (groupedBy key' ((l.zip l').map Prod.snd)) := by
    rw [groupedBy_map, groupedBy_map, keys, List.forall₂_map_left_iff, List.forall₂_map_right_iff,
      List.forall₂_same]
    exact fun p mem => pairs ((groupedBy_perm _ _).mem_iff.mp mem)
  rwa [left, right] at alike

/-- The different pairs of keys, group by group. -/
theorem flatMap_eraseDups_perm {κ' : Type} [BEq κ'] [LawfulBEq κ'] (key : α → κ) (key' : α → κ')
    (l : List α) :
    ((l.map key).eraseDups.flatMap fun k =>
      ((l.filter (key · == k)).map key').eraseDups.map (k, ·)).Perm
        (l.map fun a => (key a, key' a)).eraseDups := by
  refine (List.perm_ext_iff_of_nodup (List.nodup_flatMap.mpr ⟨fun k _ => ?_, ?_⟩)
    (nodup_eraseDups _)).mpr fun ⟨k, k'⟩ => ?_
  · exact (nodup_eraseDups _).map fun _ _ same => (Prod.mk.inj same).2
  · refine (nodup_eraseDups (l.map key)).imp fun differ => ?_
    simp only [Function.onFun, List.disjoint_left, List.mem_map]
    rintro _ ⟨_, -, rfl⟩ ⟨_, -, same⟩
    exact differ (Prod.mk.inj same).1.symm
  · simp only [List.mem_flatMap, List.mem_map, List.mem_eraseDups, List.mem_filter, beq_iff_eq,
      Prod.mk.injEq]
    constructor
    · rintro ⟨_, -, _, ⟨a, ⟨mem, rfl⟩, rfl⟩, rfl, rfl⟩
      exact ⟨a, mem, rfl, rfl⟩
    · rintro ⟨a, mem, rfl, rfl⟩
      exact ⟨_, ⟨a, mem, rfl⟩, _, ⟨a, ⟨mem, rfl⟩, rfl⟩, rfl, rfl⟩

end Groups

/-! ## The table -/

namespace ImportTable

/-- What the table has for a type. -/
def group (stubs : List Stub) (owner : TypeName) : TypeImports :=
  let own := stubs.filter (·.owner == owner)
  ⟨owner, own, (own.map Stub.library).eraseDups⟩

theorem group_append_of_eq (stubs : List Stub) (s : Stub) :
    group (stubs ++ [s]) s.owner = (group stubs s.owner).add s := by
  have own : (stubs ++ [s]).filter (·.owner == s.owner) =
      stubs.filter (·.owner == s.owner) ++ [s] := by simp
  simp only [group, own, TypeImports.add, List.map_append, List.map_singleton,
    eraseDups_append_singleton, List.contains_eq_mem, List.mem_eraseDups, decide_eq_true_eq]

theorem group_append_of_ne {stubs : List Stub} {s : Stub} {owner : TypeName}
    (other : s.owner ≠ owner) : group (stubs ++ [s]) owner = group stubs owner := by
  have own : (stubs ++ [s]).filter (·.owner == owner) = stubs.filter (·.owner == owner) := by
    simp [other]
  simp only [group, own]

/-- The types stand in the order of their first stubs, each with its stubs in order and with the
libraries that they name, each once. -/
theorem ofStubs_eq (stubs : List Stub) :
    ofStubs stubs = (stubs.map Stub.owner).eraseDups.map (group stubs) := by
  induction stubs using List.reverseRecOn with
  | nil => rfl
  | append_singleton stubs s ih =>
    rw [ofStubs, List.foldl_append, List.foldl_cons, List.foldl_nil, ← ofStubs, ih, add,
      List.map_append, List.map_singleton, eraseDups_append_singleton]
    have known : ((stubs.map Stub.owner).eraseDups.map (group stubs)).any (·.owner == s.owner) =
        decide (s.owner ∈ stubs.map Stub.owner) := by
      rw [Bool.eq_iff_iff]
      simp [group]
    rw [known]
    by_cases mem : s.owner ∈ stubs.map Stub.owner
    · rw [if_pos (decide_eq_true mem), if_pos mem, List.map_map]
      refine List.map_congr_left fun owner _ => ?_
      by_cases same : s.owner = owner
      · subst same
        rw [group_append_of_eq, Function.comp_apply, if_pos (by simp [group])]
      · rw [group_append_of_ne same, Function.comp_apply,
          if_neg (by simp [group, Ne.symm same])]
    · rw [if_neg (by simpa using mem), if_neg mem, List.map_append]
      congr 1
      · refine List.map_congr_left fun owner ho => (group_append_of_ne fun same => mem ?_).symm
        rw [same]
        exact List.mem_eraseDups.mp ho
      · have none : stubs.filter (·.owner == s.owner) = [] := by
          refine List.filter_eq_nil_iff.mpr fun s' hs' same => mem ?_
          rw [← beq_iff_eq.mp same]
          exact List.mem_map_of_mem hs'
        rw [List.map_singleton, group_append_of_eq, group, none]
        rfl

theorem stubs_ofStubs (stubs : List Stub) :
    (ofStubs stubs).stubs = groupedBy Stub.owner stubs := by
  rw [ofStubs_eq, ImportTable.stubs, List.flatMap_map]
  rfl

end ImportTable

end LateBind

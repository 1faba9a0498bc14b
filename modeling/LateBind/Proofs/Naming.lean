import LateBind.Scaffold
import Mathlib.Data.Nat.Init
import Mathlib.Tactic.ByContra

/-! # Fresh names

A name that is given out is new: it is no name of a member and none given out before. It is the
first such name among the candidates for its base. -/

namespace LateBind

/-! ## Candidates -/

theorem toString_nat_injective {m n : Nat} (h : toString m = toString n) : m = n := by
  have digits : Nat.toDigits 10 m = Nat.toDigits 10 n := by
    have := congrArg String.toList h
    simpa [Nat.toString_eq_repr, Nat.repr] using this
  have value := congrArg (Nat.ofDigitChars 10 · 0) digits
  simpa [Nat.ofDigitChars_toDigits] using value

theorem candidateName_injective (base : String) {m n : Nat}
    (h : candidateName base m = candidateName base n) : m = n := by
  have shorter : ∀ n, (candidateName base 0).length < (candidateName base (n + 1)).length := by
    intro n
    simp only [candidateName, String.length_append]
    have : "_".length = 1 := rfl
    omega
  cases m with
  | zero =>
    cases n with
    | zero => rfl
    | succ n => exact absurd (congrArg String.length h) (Nat.ne_of_lt (shorter n))
  | succ m =>
    cases n with
    | zero => exact absurd (congrArg String.length h) (Nat.ne_of_gt (shorter m))
    | succ n =>
      simp only [candidateName, String.append_assoc, String.append_right_inj] at h
      exact toString_nat_injective h

/-- Among one candidate more than there are names taken, one is free. -/
theorem exists_free_candidate (taken : List String) (base : String) :
    ∃ n ∈ List.range (taken.length + 1), candidateName base n ∉ taken := by
  by_contra none_free
  have all_taken : (List.range (taken.length + 1)).map (candidateName base) ⊆ taken := by
    intro name hname
    obtain ⟨n, hn, rfl⟩ := List.mem_map.mp hname
    by_contra free
    exact none_free ⟨n, hn, free⟩
  have distinct : ((List.range (taken.length + 1)).map (candidateName base)).Nodup :=
    List.Pairwise.map _ (fun _ _ hne h => hne (candidateName_injective base h)) List.nodup_range
  have := distinct.length_le_of_subset all_taken
  rw [List.length_map, List.length_range] at this
  omega

/-! ## Searches -/

/-- The search for a free name that has come to candidate `n` ends at `last`: while a candidate is
taken, it goes on to the next, and nothing bounds its rounds. -/
inductive SearchEnds (taken : String → Prop) (base : String) : Nat → Nat → Prop
  | stop {n : Nat} (free : ¬taken (candidateName base n)) : SearchEnds taken base n n
  | next {n last : Nat} (used : taken (candidateName base n))
      (rest : SearchEnds taken base (n + 1) last) : SearchEnds taken base n last

namespace SearchEnds

variable {taken : String → Prop} {base : String} {n last : Nat}

theorem free (ends : SearchEnds taken base n last) : ¬taken (candidateName base last) := by
  induction ends with
  | stop free => exact free
  | next _ _ ih => exact ih

theorem used_of_lt (ends : SearchEnds taken base n last) {k : Nat} (le : n ≤ k) (lt : k < last) :
    taken (candidateName base k) := by
  induction ends with
  | stop => omega
  | next used _ ih =>
    rcases Nat.eq_or_lt_of_le le with rfl | later
    · exact used
    · exact ih later lt

theorem of_first (free : ¬taken (candidateName base last))
    (used : ∀ k < last, taken (candidateName base k)) (le : n ≤ last) :
    SearchEnds taken base n last := by
  induction le using Nat.decreasingInduction with
  | self => exact .stop free
  | of_succ k lt ih => exact .next (used k lt) ih

end SearchEnds

/-- The search ends at the name that is given out, after at most one round for each taken name. -/
theorem firstFree_searchEnds (taken : List String) (base : String) :
    ∃ n ≤ taken.length, SearchEnds (· ∈ taken) base 0 n ∧
      firstFree taken base = candidateName base n := by
  obtain ⟨k, inRange, free⟩ := exists_free_candidate taken base
  cases found : (List.range (taken.length + 1)).find? fun n =>
      !taken.contains (candidateName base n) with
  | none =>
    have := List.find?_eq_none.mp found k inRange
    simp [free] at this
  | some n =>
    obtain ⟨free, inRange, used⟩ := List.find?_range_eq_some.mp found
    refine ⟨n, Nat.le_of_lt_succ (List.mem_range.mp inRange), ?_, ?_⟩
    · exact .of_first (by simpa using free) (fun k lt => by simpa using used k lt) (Nat.zero_le n)
    · simp only [firstFree, found, Option.getD_some]

theorem firstFree_notMem (taken : List String) (base : String) :
    firstFree taken base ∉ taken := by
  obtain ⟨n, -, ends, eq⟩ := firstFree_searchEnds taken base
  rw [eq]
  exact ends.free

/-! ## Runs -/

/-- The names were free and differ, and now are taken like those before. -/
structure Naming.Fresh (taken names taken' : List String) : Prop where
  nodup : names.Nodup
  free : ∀ name ∈ names, name ∉ taken
  taken : ∀ name, name ∈ taken' ↔ name ∈ taken ∨ name ∈ names

/-- The name is that of the candidate at which the search ends: the first that is not taken. -/
structure Naming.IsFirst (taken : String → Prop) (base name : String) (n : Nat) : Prop where
  ends : SearchEnds taken base 0 n
  name_eq : name = candidateName base n
  free : ¬taken name
  used : ∀ k < n, taken (candidateName base k)

namespace Naming

/-- The names are given out for the bases, one after the other. -/
def GivesOut (taken bases names taken' : List String) : Prop :=
  (bases.mapM fresh : Naming _) taken = (names, taken')

variable {taken taken' taken'' bases bases' names names' : List String}

theorem Fresh.nil : Fresh taken [] taken :=
  ⟨List.nodup_nil, by simp, by simp⟩

theorem Fresh.append (first : Fresh taken names taken') (second : Fresh taken' names' taken'') :
    Fresh taken (names ++ names') taken'' := by
  refine ⟨?_, ?_, ?_⟩
  · refine List.nodup_append.mpr ⟨first.nodup, second.nodup, ?_⟩
    intro a ha b hb hab
    exact second.free b hb ((first.taken b).mpr (.inr (hab ▸ ha)))
  · intro name hname
    rcases List.mem_append.mp hname with h | h
    · exact first.free name h
    · exact fun ht => second.free name h ((first.taken name).mpr (.inl ht))
  · intro name
    rw [second.taken name, first.taken name, List.mem_append, or_assoc]

theorem fresh_fresh (base : String) (taken : List String) :
    Fresh taken [(fresh base taken).1] (fresh base taken).2 := by
  refine ⟨by simp, ?_, ?_⟩
  · intro name hname
    rw [List.mem_singleton.mp hname]
    exact firstFree_notMem taken base
  · intro name
    simp [fresh, or_comm]

theorem fresh_isFirst (base : String) (taken : List String) :
    ∃ n ≤ taken.length, IsFirst (· ∈ taken) base (fresh base taken).1 n := by
  obtain ⟨n, le, ends, eq⟩ := firstFree_searchEnds taken base
  exact ⟨n, le, ends, eq, firstFree_notMem taken base, fun k lt => ends.used_of_lt k.zero_le lt⟩

namespace GivesOut

theorem nil : GivesOut taken [] [] taken := rfl

theorem fresh (base : String) (taken : List String) :
    GivesOut taken [base] [(Naming.fresh base taken).1] (Naming.fresh base taken).2 := rfl

theorem append (first : GivesOut taken bases names taken')
    (second : GivesOut taken' bases' names' taken'') :
    GivesOut taken (bases ++ bases') (names ++ names') taken'' := by
  unfold GivesOut at first second ⊢
  rw [List.mapM_append]
  simp only [bind, StateT.bind, first, second]
  rfl

/-- One more name in front of the others. -/
theorem of_cons {base : String} (gives : GivesOut taken (base :: bases) names taken') :
    ∃ rest, names = (Naming.fresh base taken).1 :: rest ∧
      GivesOut (Naming.fresh base taken).2 bases rest taken' := by
  unfold GivesOut at gives
  rw [List.mapM_cons] at gives
  cases gives
  exact ⟨_, rfl, rfl⟩

theorem length_eq (gives : GivesOut taken bases names taken') : names.length = bases.length := by
  induction bases generalizing taken names with
  | nil =>
    cases gives
    rfl
  | cons base bases ih =>
    obtain ⟨rest, rfl, others⟩ := gives.of_cons
    rw [List.length_cons, List.length_cons, ih others]

theorem isFresh (gives : GivesOut taken bases names taken') : Fresh taken names taken' := by
  induction bases generalizing taken names with
  | nil =>
    cases gives
    exact .nil
  | cons base bases ih =>
    obtain ⟨rest, rfl, others⟩ := gives.of_cons
    exact (fresh_fresh base taken).append (ih others)

/-- Each name is the first that neither was taken at the start nor has been given out since. -/
theorem isFirst (gives : GivesOut taken bases names taken') {i : Nat} {base name : String}
    (hbase : bases[i]? = some base) (hname : names[i]? = some name) :
    ∃ n ≤ taken.length + i, IsFirst (fun x => x ∈ taken ∨ x ∈ names.take i) base name n := by
  induction bases generalizing taken names i with
  | nil => cases hbase
  | cons first bases ih =>
    obtain ⟨rest, rfl, others⟩ := gives.of_cons
    cases i with
    | zero =>
      cases hbase
      cases hname
      simpa using fresh_isFirst base taken
    | succ i =>
      obtain ⟨n, le, isFirst⟩ := ih others hbase hname
      -- What is taken when the others are searched for: the old names and the one in front.
      have same : (fun x => x ∈ (Naming.fresh first taken).2 ∨ x ∈ rest.take i) =
          fun x => x ∈ taken ∨ x ∈ ((Naming.fresh first taken).1 :: rest).take (i + 1) := by
        funext x
        simp only [(fresh_fresh first taken).taken x, List.take_succ_cons, List.mem_cons,
          List.not_mem_nil, or_assoc, or_false]
      have longer : (Naming.fresh first taken).2.length = taken.length + 1 := rfl
      exact ⟨n, by omega, same ▸ isFirst⟩

end GivesOut

/-! ## Stems -/

/-- What the name of a generated member starts with. -/
def stems : List String := ["pl_", "LoadLibrary", "p_", "init_", "native_"]

def Generated (name : String) : Prop := ∃ stem ∈ stems, stem.toList <+: name.toList

instance (name : String) : Decidable (Generated name) :=
  inferInstanceAs (Decidable (∃ stem ∈ stems, stem.toList <+: name.toList))

/-- A name that is given out starts as its base does. -/
theorem prefix_fresh (stem rest : String) (taken : List String) :
    stem.toList <+: (fresh (stem ++ rest) taken).1.toList := by
  have candidate (n : Nat) :
      (stem ++ rest).toList <+: (candidateName (stem ++ rest) n).toList := by
    cases n with
    | zero => exact List.prefix_rfl
    | succ n =>
      rw [candidateName, String.append_assoc]
      exact ⟨_, String.toList_append.symm⟩
  exact .trans ⟨rest.toList, String.toList_append.symm⟩ (candidate _)

theorem generated_fresh {stem : String} (mem : stem ∈ stems) (rest : String) (taken : List String) :
    Generated (fresh (stem ++ rest) taken).1 :=
  ⟨stem, mem, prefix_fresh stem rest taken⟩

end Naming

end LateBind

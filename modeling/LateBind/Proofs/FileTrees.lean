import LateBind.Files
import Mathlib.Tactic.SplitIfs

/-! # Files that are replaced

After a file has been written its path gives what was written, and every other path to a file gives
what it gave before. -/

namespace LateBind.FileTree

variable {tree tree' : FileTree} {place other : FilePlace} {path path' : String}
  {content data : Bytes} {parts : List String}

/-- Where a path leads. A slash at its end asks for a directory. -/
def leads (tree : FileTree) (path : String) : Except FileFault FilePlace :=
  tree.walk (startOf path) (if path.endsWith "/" then partsOf path ++ ["."] else partsOf path)

theorem lookup_filter_ne (different : other ≠ place) :
    (tree.filter fun e => e.1 ≠ place).lookup other = tree.lookup other := by
  induction tree with
  | nil => rfl
  | cons e tree ih =>
    obtain ⟨at_, entry⟩ := e
    by_cases same : at_ = place
    · rw [List.filter_cons_of_neg (by simpa using same), ih, List.lookup_cons,
        beq_false_of_ne (fun eq => different (eq.trans same))]
    · rw [List.filter_cons_of_pos (by simpa using same), List.lookup_cons, List.lookup_cons, ih]

/-- One place has a file with a content, and all others have what they had. -/
structure Puts (tree : FileTree) (place : FilePlace) (content : Bytes) (tree' : FileTree) : Prop where
  notDirectory : tree.entry? place ≠ some .directory
  own : tree'.entry? place = some (.file content)
  others : ∀ other, other ≠ place → tree'.entry? other = tree.entry? other

/-- A way leads over directories, and these are still there. -/
theorem Puts.walk (puts : tree.Puts place content tree') {start goal : FilePlace}
    (leads : tree.walk start parts = .ok goal) : tree'.walk start parts = .ok goal := by
  induction parts generalizing start with
  | nil => exact leads
  | cons part rest ih =>
    rw [FileTree.walk] at leads ⊢
    cases here : tree.entry? start with
    | none =>
      rw [here] at leads
      cases leads
    | some entry =>
      cases entry with
      | file content =>
        rw [here] at leads
        cases leads
      | directory =>
        have elsewhere : start ≠ place := by
          rintro rfl
          exact puts.notDirectory here
        rw [here] at leads
        rw [puts.others start elsewhere, here]
        simp only at leads ⊢
        split_ifs at leads ⊢
        all_goals exact ih leads

/-- Of the places that a path can lead to, only files can be read. -/
def fileAt (tree : FileTree) (place : FilePlace) : Except FileFault Bytes :=
  match tree.entry? place with
  | none => .error .notFound
  | some .directory => .error .isDirectory
  | some (.file content) => .ok content

theorem fileAt_eq_ok : tree.fileAt place = .ok data ↔ tree.entry? place = some (.file data) := by
  unfold fileAt
  rcases tree.entry? place with _ | content | _
  · exact iff_of_false nofun nofun
  · simp
  · exact iff_of_false nofun nofun

theorem read_eq (valid : pathFault? path = none) :
    tree.read path = tree.leads path >>= tree.fileAt := by
  rw [read, valid]
  rfl

theorem read_eq_ok : tree.read path = .ok data ↔ pathFault? path = none ∧
    ∃ place, tree.leads path = .ok place ∧ tree.entry? place = some (.file data) := by
  cases valid : pathFault? path with
  | some fault =>
    refine iff_of_false ?_ nofun
    rw [read, valid]
    exact nofun
  | none =>
    rw [read_eq valid]
    cases tree.leads path with
    | error fault => exact iff_of_false nofun nofun
    | ok place =>
      refine fileAt_eq_ok.trans ⟨fun found => ⟨rfl, place, rfl, found⟩, ?_⟩
      rintro ⟨-, _, ⟨⟩, found⟩
      exact found

/-- The tree with the file of a place replaced or added. -/
def put (tree : FileTree) (place : FilePlace) (content : Bytes) : FileTree :=
  (place, .file content) :: tree.filter fun e => e.1 ≠ place

/-- A directory is not replaced. -/
def putAt (tree : FileTree) (place : FilePlace) (content : Bytes) : Except FileFault FileTree :=
  match tree.entry? place with
  | some .directory => .error .isDirectory
  | _ => .ok (tree.put place content)

theorem putAt_eq_ok : tree.putAt place content = .ok tree' ↔
    tree.entry? place ≠ some .directory ∧ tree' = tree.put place content := by
  unfold putAt
  rcases tree.entry? place with _ | content | _
  · simp [eq_comm]
  · simp [eq_comm]
  · simp

theorem write_eq (valid : pathFault? path = none) (noSlash : path.endsWith "/" = false) :
    tree.write path content = tree.leads path >>= fun place => tree.putAt place content := by
  rw [write, valid, leads, noSlash]
  rfl

theorem write_eq_ok : tree.write path content = .ok tree' ↔ pathFault? path = none ∧
    path.endsWith "/" = false ∧ ∃ place, tree.leads path = .ok place ∧
      tree.entry? place ≠ some .directory ∧ tree' = tree.put place content := by
  cases valid : pathFault? path with
  | some fault =>
    refine iff_of_false ?_ nofun
    rw [write, valid]
    exact nofun
  | none =>
    cases slash : path.endsWith "/" with
    | true =>
      refine iff_of_false ?_ nofun
      rw [write, valid, slash]
      change (tree.walk (startOf path) ((partsOf path).dropLast ++ ["."]) >>= fun _ => _) ≠ _
      cases tree.walk (startOf path) ((partsOf path).dropLast ++ ["."]) <;> exact nofun
    | false =>
      rw [write_eq valid slash]
      cases tree.leads path with
      | error fault => exact iff_of_false nofun nofun
      | ok place =>
        refine putAt_eq_ok.trans ⟨fun found => ⟨rfl, rfl, place, rfl, found⟩, ?_⟩
        rintro ⟨-, -, _, ⟨⟩, found⟩
        exact found

theorem puts_put (notDirectory : tree.entry? place ≠ some .directory) :
    tree.Puts place content (tree.put place content) := by
  have below : place.isAbove = false := by
    cases above : place.isAbove with
    | false => rfl
    | true =>
      unfold entry? at notDirectory
      rw [above] at notDirectory
      exact absurd rfl notDirectory
  refine ⟨notDirectory, ?_, fun other different => ?_⟩
  · unfold entry?
    rw [below, put, List.lookup_cons_self]
    rfl
  · unfold entry?
    rw [put, List.lookup_cons, beq_false_of_ne different]
    simp only [lookup_filter_ne different]

/-- A path leads where it led. -/
theorem Puts.leads (puts : tree.Puts place content tree') (way : tree.leads path = .ok other) :
    tree'.leads path = .ok other := puts.walk way

/-- What a file that is written leaves of the tree. -/
structure Replaces (tree : FileTree) (path : String) (content : Bytes) (tree' : FileTree) : Prop where
  /-- One file has changed, or is new. -/
  puts : ∃ place, tree.leads path = .ok place ∧ tree.Puts place content tree'
  read : tree'.read path = .ok content
  /-- The same file may be written again. -/
  write : tree'.write path content = .ok tree'

theorem replaces_of_write (wrote : tree.write path content = .ok tree') :
    tree.Replaces path content tree' := by
  obtain ⟨valid, noSlash, place, way, notDirectory, rfl⟩ := write_eq_ok.mp wrote
  have puts : tree.Puts place content (tree.put place content) := puts_put notDirectory
  refine ⟨⟨place, way, puts⟩, read_eq_ok.mpr ⟨valid, place, puts.leads way, puts.own⟩,
    write_eq_ok.mpr ⟨valid, noSlash, place, puts.leads way, ?_, ?_⟩⟩
  · rw [puts.own]
    exact nofun
  · rw [put, put, List.filter_cons_of_neg (by simp), List.filter_filter]
    simp

/-- A path to another file gives what it gave. -/
theorem Replaces.read_of_ne (replaces : tree.Replaces path content tree')
    (different : tree.leads path' ≠ tree.leads path) (readable : tree.read path' = .ok data) :
    tree'.read path' = .ok data := by
  obtain ⟨place, way, puts⟩ := replaces.puts
  obtain ⟨valid, other, way', found⟩ := read_eq_ok.mp readable
  have elsewhere : other ≠ place := by
    rintro rfl
    exact different (way'.trans way.symm)
  exact read_eq_ok.mpr ⟨valid, other, puts.leads way', by rw [puts.others other elsewhere, found]⟩

end LateBind.FileTree

import LateBind.Command
import LateBind.Proofs.FileTrees
import LateBind.Proofs.StoredModules

/-! # Runs of the command

A run changes the file that it writes or nothing at all. What it has written is the bound module, and
running again on that finds no stubs and writes the same bytes. -/

namespace LateBind

/-! ## Late binding again -/

namespace Module

variable {m : Module} {c : Config} {id : Uuid} {out : LateBound}

theorem importTable_of_nil {x : Exclusions} (none : m.eligibleStubs x = []) :
    m.importTable x = .ok [] := by
  rw [importTable, checkedStubs, none]
  rfl

/-- No stub is left that would be bound. -/
theorem eligibleStubs_eq_nil {x : Exclusions}
    (none : ∀ t ∈ m.types, x.excludes t.name = false → ∀ method ∈ t.methods, method.importInfo = none) :
    m.eligibleStubs x = [] := by
  refine List.eq_nil_iff_forall_not_mem.mpr fun ⟨l, info⟩ mem => ?_
  obtain ⟨known, included, isImport⟩ := mem_eligibleStubs.mp mem
  obtain ⟨own, at_⟩ := mem_methods.mp known
  rw [none _ (List.mem_of_getElem? own) included _ (List.mem_of_getElem? at_)] at isImport
  cases isImport

/-- A bound module has nothing left to bind. -/
theorem bindLate_again (ok : m.bindLate c id = .ok out) (id' : Uuid) :
    out.module.bindLate c id' = .ok ⟨out.module, Report.empty out.module.name c.helperType⟩ := by
  rcases bindLate_cases ok with ⟨valid, table, same⟩ | ⟨found, types, bodies, helper, binds, -, eq⟩
  · rw [same]
    exact bindLate_of_nil valid table id'
  · rw [eq]
    exact bindLate_of_nil binds.valid
      (importTable_of_nil (eligibleStubs_eq_nil (binds.importInfo_eq_none id))) id'

end Module

/-! ## Runs -/

namespace Command

variable {tree tree' : FileTree} {request : Request} {freshId : Uuid} {c : Config} {image : Image}
  {bound : LateBound} {path : String} {content : Bytes}

/-- The settings that a path stands for. -/
def configIn (tree : FileTree) (path : Option String) : Except Failure Config :=
  ((loadConfig FileTree.access path).run tree).1

/-- The settings in what a path gives. -/
def settings (path : String) : Except FileFault Bytes → Except Failure Config
  | .error fault => .error (.configFile path fault)
  | .ok content =>
    match Bytes.toText? content with
    | none => .error (.configFile path .invalidText)
    | some text =>
      match Config.parse text with
      | .ok config => .ok config
      | .error .notSettings => .error (.configText path)
      | .error (.invalid fault) => .error (.configFault path fault)

theorem run_read (path : String) (tree : FileTree) :
    (liftM (FileTree.access.read path) : ExceptT Failure (StateM FileTree) _).run tree =
      (.ok (tree.read path), tree) := rfl

theorem run_write (path : String) (content : Bytes) (tree : FileTree) :
    (liftM (FileTree.access.write path content) : ExceptT Failure (StateM FileTree) _).run tree =
      match tree.write path content with
      | .ok tree' => (.ok (.ok ()), tree')
      | .error fault => (.ok (.error fault), tree) := by
  change (match FileTree.access.write path content tree with
    | (answer, tree') => (Except.ok answer, tree')) = _
  cases wrote : tree.write path content <;> simp only [FileTree.access, wrote]

theorem loadConfig_some_run (path : String) (tree : FileTree) :
    (loadConfig FileTree.access (some path)).run tree = (settings path (tree.read path), tree) := by
  rw [loadConfig, run_bind, run_read]
  cases tree.read path with
  | error fault => rfl
  | ok content =>
    rw [settings]
    dsimp only
    cases Bytes.toText? content with
    | none => rfl
    | some text =>
      dsimp only
      rcases Config.parse text with (_ | _) | _ <;> rfl

theorem configIn_some (path : String) (tree : FileTree) :
    configIn tree (some path) = settings path (tree.read path) := by
  rw [configIn, loadConfig_some_run]

theorem loadConfig_run (path : Option String) (tree : FileTree) :
    (loadConfig FileTree.access path).run tree = (configIn tree path, tree) := by
  cases path with
  | none => rfl
  | some path => rw [configIn_some, loadConfig_some_run]

/-- The settings depend on their file alone. -/
theorem configIn_congr {path : Option String} (same : ∀ p ∈ path, tree'.read p = tree.read p) :
    configIn tree' path = configIn tree path := by
  cases path with
  | none => rfl
  | some path => rw [configIn_some, configIn_some, same path rfl]

theorem exists_read_of_configIn (loaded : configIn tree (some path) = .ok c) :
    ∃ content, tree.read path = .ok content := by
  rw [configIn_some] at loaded
  cases read : tree.read path with
  | error fault =>
    rw [read] at loaded
    cases loaded
  | ok content => exact ⟨content, rfl⟩

/-- The image that a path stands for. -/
def imageIn (tree : FileTree) (path : String) : Except Failure Image :=
  match tree.read path with
  | .error fault => .error (.imageFile path fault)
  | .ok content => (Image.ofBytes content).mapError (.image path)

theorem loadImage_run (path : String) (tree : FileTree) :
    (loadImage FileTree.access path).run tree = (imageIn tree path, tree) := by
  rw [loadImage, run_bind, run_read, imageIn]
  cases tree.read path with
  | error fault => rfl
  | ok content =>
    dsimp only
    cases Image.ofBytes content <;> rfl

/-- A run in one piece: only the last step changes files. -/
theorem run_eq (request : Request) (freshId : Uuid) (tree : FileTree) :
    (run FileTree.access request freshId).run tree =
      match configIn tree request.config with
      | .error failure => (.error failure, tree)
      | .ok c =>
        match imageIn tree request.input with
        | .error failure => (.error failure, tree)
        | .ok image =>
          match image.module.bindLate c freshId with
          | .error e => (.error (.binding request.input e), tree)
          | .ok bound =>
            match tree.write request.output (Image.ofModule bound.module).toBytes with
            | .error fault => (.error (.outputFile request.output fault), tree)
            | .ok tree' => (.ok bound.report, tree') := by
  rw [run, run_bind, loadConfig_run]
  cases configIn tree request.config with
  | error failure => rfl
  | ok c =>
    dsimp only
    rw [run_bind, loadImage_run]
    cases imageIn tree request.input with
    | error failure => rfl
    | ok image =>
      dsimp only
      cases image.module.bindLate c freshId with
      | error e => rfl
      | ok bound =>
        dsimp only
        rw [run_bind, run_write]
        cases tree.write request.output (Image.ofModule bound.module).toBytes <;> rfl

/-- What a run has loaded and bound when it comes to write. -/
structure Prepares (tree : FileTree) (request : Request) (freshId : Uuid) (c : Config) (image : Image)
    (bound : LateBound) : Prop where
  settings : configIn tree request.config = .ok c
  input : imageIn tree request.input = .ok image
  binding : image.module.bindLate c freshId = .ok bound

theorem Prepares.run_of_write (prepares : Prepares tree request freshId c image bound)
    (wrote : tree.write request.output (Image.ofModule bound.module).toBytes = .ok tree') :
    (run FileTree.access request freshId).run tree = (.ok bound.report, tree') := by
  simp only [run_eq, prepares.settings, prepares.input, prepares.binding, wrote]

/-- A run fails and changes nothing, or it writes the image of the bound module. -/
theorem run_cases (tree : FileTree) (request : Request) (freshId : Uuid) :
    (∃ failure, (run FileTree.access request freshId).run tree = (.error failure, tree)) ∨
      ∃ c image bound tree', Prepares tree request freshId c image bound ∧
        tree.write request.output (Image.ofModule bound.module).toBytes = .ok tree' ∧
        (run FileTree.access request freshId).run tree = (.ok bound.report, tree') := by
  rw [run_eq]
  split
  · exact .inl ⟨_, rfl⟩
  next c settings =>
  split
  · exact .inl ⟨_, rfl⟩
  next image input =>
  split
  · exact .inl ⟨_, rfl⟩
  next bound binding =>
  split
  · exact .inl ⟨_, rfl⟩
  next tree' wrote =>
  exact .inr ⟨c, image, bound, tree', ⟨settings, input, binding⟩, wrote, rfl⟩

theorem imageIn_eq_ok : imageIn tree path = .ok image ↔
    ∃ content, tree.read path = .ok content ∧ Image.ofBytes content = .ok image := by
  unfold imageIn
  cases tree.read path with
  | error fault => exact iff_of_false nofun nofun
  | ok content => cases read : Image.ofBytes content <;> simp [read, Except.mapError]

/-- The written file holds the bound module. -/
theorem Prepares.imageIn_output (prepares : Prepares tree request freshId c image bound)
    (shallow : ∀ t ∈ image.module.typeRefs, t.depth < 50)
    (small : (Image.ofModule bound.module).toBytes.length < Image.wordBound)
    (read : tree'.read path = .ok (Image.ofModule bound.module).toBytes) :
    imageIn tree' path = .ok (Image.ofModule bound.module) := by
  obtain ⟨content, -, stored⟩ := imageIn_eq_ok.mp prepares.input
  exact imageIn_eq_ok.mpr ⟨_, read, Image.ofBytes_bindLate shallow
    (Image.positions_lt_of_ofBytes stored) prepares.binding small⟩

/-- The settings are those of before, unless they stood in the written file. -/
theorem Prepares.configIn_eq (prepares : Prepares tree request freshId c image bound)
    (replaces : tree.Replaces request.output content tree')
    (elsewhere : ∀ path ∈ request.config, tree.leads path ≠ tree.leads request.output) :
    configIn tree' request.config = .ok c := by
  refine (configIn_congr fun path given => ?_).trans prepares.settings
  have settings := prepares.settings
  rw [Option.mem_def.mp given] at settings
  obtain ⟨content, read⟩ := exists_read_of_configIn settings
  rw [read]
  exact replaces.read_of_ne (elsewhere path given) read

/-- Late binding finds nothing to do on what it has made. A run of the command changes nothing, or
the file that it writes and no other; this holds the bound module. With the same settings a run on
that file reports no change and writes the same bytes, so that the files stay as they are when it
writes to the same path. -/
theorem run_idempotent (tree : FileTree) (request : Request) (freshId : Uuid)
    (shallow : ∀ image, imageIn tree request.input = .ok image →
      ∀ t ∈ image.module.typeRefs, t.depth < 50)
    (small : ∀ c image bound, Prepares tree request freshId c image bound →
      (Image.ofModule bound.module).toBytes.length < Image.wordBound) :
    (∀ (m : Module) (c : Config) (id id' : Uuid) (out : LateBound), m.bindLate c id = .ok out →
      out.module.bindLate c id' = .ok ⟨out.module, Report.empty out.module.name c.helperType⟩) ∧
    ((∃ failure, (run FileTree.access request freshId).run tree = (.error failure, tree)) ∨
      ∃ c image bound tree', Prepares tree request freshId c image bound ∧
        (run FileTree.access request freshId).run tree = (.ok bound.report, tree') ∧
        tree.Replaces request.output (Image.ofModule bound.module).toBytes tree' ∧
        imageIn tree' request.output = .ok (Image.ofModule bound.module) ∧
        ((∀ path ∈ request.config, tree.leads path ≠ tree.leads request.output) →
          configIn tree' request.config = .ok c) ∧
        ∀ config, configIn tree' config = .ok c → ∀ freshId', ∃ report : Report,
          report.unchanged ∧ report.stubs = [] ∧
          (run FileTree.access ⟨request.output, request.output, config⟩ freshId').run tree' =
            (.ok report, tree') ∧
          ∀ output tree'', tree'.write output (Image.ofModule bound.module).toBytes = .ok tree'' →
            (run FileTree.access ⟨request.output, output, config⟩ freshId').run tree' =
              (.ok report, tree'') ∧
            tree'.Replaces output (Image.ofModule bound.module).toBytes tree'') := by
  refine ⟨fun m c id id' out ok => Module.bindLate_again ok id', ?_⟩
  rcases run_cases tree request freshId with failed | ⟨c, image, bound, tree', prepares, wrote, ran⟩
  · exact .inl failed
  refine .inr ⟨c, image, bound, tree', prepares, ran, ?_⟩
  have replaces := FileTree.replaces_of_write wrote
  have stored := prepares.imageIn_output (shallow image prepares.input)
    (small c image bound prepares) replaces.read
  refine ⟨replaces, stored, prepares.configIn_eq replaces, fun config same freshId' => ?_⟩
  have again (output : String) : Prepares tree' ⟨request.output, output, config⟩ freshId' c
      (Image.ofModule bound.module)
      ⟨bound.module, Report.empty bound.module.name c.helperType⟩ :=
    ⟨same, stored, Module.bindLate_again prepares.binding freshId'⟩
  exact ⟨_, rfl, rfl, (again _).run_of_write replaces.write, fun output tree'' wrote' =>
    ⟨(again output).run_of_write wrote', FileTree.replaces_of_write wrote'⟩⟩

/-- One file, with the image of a module that declares a stub. -/
def shelf : FileTree := [(["in"], .file (Image.ofModule Module.twins).toBytes)]

theorem toBytes_small {m : Module} (room : m.toJson.room < 1000000) :
    (Image.ofModule m).toBytes.length < Image.wordBound := by
  have text : (Image.ofModule m).payload.length ≤ m.toJson.room := Json.length_render_le m.toJson
  have bytes := (Bytes.length_ofText_bounds (Image.ofModule m).payload).2
  rw [Image.length_toBytes, Image.wordBound]
  omega

theorem imageIn_shelf : imageIn shelf "in" = .ok (Image.ofModule Module.twins) := by
  have stored : Image.ofBytes ((Image.ofModule Module.twins).toBytes ++ []) = .ok _ :=
    Image.ofBytes_append rfl (by decide) (by decide) (toBytes_small (by decide +kernel)) []
  rw [List.append_nil] at stored
  have leads : shelf.leads "in" = .ok ["in"] := by
    unfold shelf
    generalize (Image.ofModule Module.twins).toBytes = content
    cbv
  exact imageIn_eq_ok.mpr ⟨_, FileTree.read_eq_ok.mpr ⟨by cbv, ["in"], leads, rfl⟩, stored⟩

theorem write_shelf (content : Bytes) : ∃ tree', shelf.write "out" content = .ok tree' := by
  have leads : shelf.leads "out" = .ok ["out"] ∧ shelf.entry? ["out"] = none := by
    unfold shelf
    generalize (Image.ofModule Module.twins).toBytes = content
    exact ⟨by cbv, by cbv⟩
  exact ⟨_, FileTree.write_eq_ok.mpr ⟨by cbv, by cbv, ["out"], leads.1, by simp [leads.2], rfl⟩⟩

theorem run_idempotent_shelf :
    (∀ image, imageIn shelf "in" = .ok image → ∀ t ∈ image.module.typeRefs, t.depth < 50) ∧
    (∀ c image bound, Prepares shelf ⟨"in", "out", none⟩ Uuid.zero c image bound →
      (Image.ofModule bound.module).toBytes.length < Image.wordBound) ∧
    ∃ first second tree', first.unchanged = false ∧ second.unchanged = true ∧
      (run FileTree.access ⟨"in", "out", none⟩ Uuid.zero).run shelf = (.ok first, tree') ∧
      (run FileTree.access ⟨"out", "out", none⟩ Uuid.zero).run tree' = (.ok second, tree') := by
  obtain ⟨out, ok⟩ := Module.bindLate_twins
  have outline : ((Module.twins.bindLate Config.default Uuid.zero).map fun out =>
      (decide (out.module.toJson.room < 1000000), out.report.unchanged)) = .ok (true, false) := by
    decide +kernel
  rw [ok] at outline
  obtain ⟨room, changed⟩ := Prod.mk.inj (Except.ok.inj outline)
  have prepares : Prepares shelf ⟨"in", "out", none⟩ Uuid.zero Config.default
      (Image.ofModule Module.twins) out := ⟨rfl, imageIn_shelf, ok⟩
  have shallow : ∀ image, imageIn shelf "in" = .ok image →
      ∀ t ∈ image.module.typeRefs, t.depth < 50 := by
    intro image input
    cases imageIn_shelf.symm.trans input
    decide
  have small : ∀ c image bound, Prepares shelf ⟨"in", "out", none⟩ Uuid.zero c image bound →
      (Image.ofModule bound.module).toBytes.length < Image.wordBound := by
    intro c image bound prepares'
    cases prepares.settings.symm.trans prepares'.settings
    cases prepares.input.symm.trans prepares'.input
    cases prepares.binding.symm.trans prepares'.binding
    exact toBytes_small (of_decide_eq_true room)
  obtain ⟨tree', wrote⟩ := write_shelf (Image.ofModule out.module).toBytes
  have ran := prepares.run_of_write wrote
  refine ⟨shallow, small, ?_⟩
  rcases (run_idempotent shelf ⟨"in", "out", none⟩ Uuid.zero shallow small).2 with
    ⟨failure, failed⟩ | ⟨c, image, bound, tree'', prepares', ran', -, -, same, again⟩
  · rw [ran] at failed
    cases failed
  · cases prepares.settings.symm.trans prepares'.settings
    cases prepares.input.symm.trans prepares'.input
    cases prepares.binding.symm.trans prepares'.binding
    obtain ⟨report, unchanged, -, ran'', -⟩ := again none rfl Uuid.zero
    exact ⟨out.report, report, tree'', changed, unchanged, ran', ran''⟩

end Command

end LateBind

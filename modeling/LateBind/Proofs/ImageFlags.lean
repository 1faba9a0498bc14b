import LateBind.Proofs.CommandRuns

/-! # Flags of written images

The command takes the flags of an image from its module alone. So they tell what the module has, but
nothing of what was done to it: neither that this run has bound stubs late, nor that an earlier one
has. -/

namespace LateBind

/-- A module has import stubs when one of its methods still carries import information. -/
theorem Module.stubCount_pos_iff {m : Module} :
    0 < m.stubCount ↔ ∃ t ∈ m.types, ∃ method ∈ t.methods, method.importInfo.isSome := by
  rw [stubCount, List.length_pos_iff_exists_mem]
  constructor
  · rintro ⟨l, mem⟩
    obtain ⟨known, isStub⟩ := List.mem_filter.mp mem
    obtain ⟨own, at_⟩ := mem_methods.mp known
    exact ⟨l.owner, List.mem_of_getElem? own, l.method, List.mem_of_getElem? at_, isStub⟩
  · rintro ⟨t, ht, method, hm, isStub⟩
    obtain ⟨i, own⟩ := List.getElem?_of_mem ht
    obtain ⟨j, at_⟩ := List.getElem?_of_mem hm
    have known : (⟨⟨i, j⟩, t, method⟩ : LocatedMethod) ∈ m.methods := mem_methods.mpr ⟨own, at_⟩
    exact ⟨_, List.mem_filter.mpr ⟨known, isStub⟩⟩

namespace Image.Flags

/-- The flags of a module say whether it has stubs and references, and nothing else. -/
theorem has_ofModule (m : Module) : (ofModule m).has hasImportStubs = decide (0 < m.stubCount) ∧
    (ofModule m).has hasReferences = !m.references.isEmpty ∧ (ofModule m).has lateBound = false := by
  by_cases stubs : 0 < m.stubCount <;> cases references : m.references.isEmpty <;>
    simp only [ofModule, stubs, references] <;> decide

end Image.Flags

namespace Command

open Image

variable {tree tree' : FileTree} {request : Request} {freshId : Uuid} {report : Report}

/-- After a run that succeeds the file that it has written tells rightly whether its module has import
stubs and whether it comes with references. It never tells that stubs were bound late, so that it is
silent about them exactly when the run has bound some or the image that it was given had the flag. -/
theorem flags_of_run (succeeds : (run FileTree.access request freshId).run tree = (.ok report, tree')) :
    ∃ given m flags header, imageIn tree request.input = .ok given ∧
      tree'.read request.output = .ok (Image.mk .current flags m).toBytes ∧
      Header.parse (Image.mk .current flags m).toBytes = .ok header ∧ header.flags = flags ∧
      (flags.has Flags.hasImportStubs ↔
        ∃ t ∈ m.types, ∃ method ∈ t.methods, method.importInfo.isSome) ∧
      (flags.has Flags.hasReferences ↔ m.references ≠ []) ∧
      flags.has Flags.lateBound = false ∧
      ((flags.has Flags.lateBound ↔ report.unchanged = false ∨ given.flags.has Flags.lateBound) ↔
        report.unchanged = true ∧ given.flags.has Flags.lateBound = false) := by
  rcases run_cases tree request freshId with
    ⟨failure, failed⟩ | ⟨c, given, bound, tree'', prepares, wrote, ran⟩
  · rw [failed] at succeeds
    cases succeeds
  rw [ran] at succeeds
  obtain ⟨rfl, rfl⟩ : bound.report = report ∧ tree'' = tree' := by
    cases succeeds
    exact ⟨rfl, rfl⟩
  have parsed : Header.parse ((Image.ofModule bound.module).toBytes ++ []) = _ :=
    parse_toBytes rfl []
  rw [List.append_nil] at parsed
  obtain ⟨stubs, references, unmarked⟩ := Flags.has_ofModule bound.module
  refine ⟨given, bound.module, Flags.ofModule bound.module, _, prepares.input,
    (FileTree.replaces_of_write wrote).read, parsed, rfl, ?_, ?_, unmarked, ?_⟩
  · rw [stubs, decide_eq_true_iff, Module.stubCount_pos_iff]
  · simp [references]
  · rw [unmarked]
    cases bound.report.unchanged <;> cases given.flags.has Flags.lateBound <;> simp

/-- On the file of a module with a stub the run binds it and does not say so. -/
theorem flags_of_run_shelf : ∃ report tree' m flags header,
    (run FileTree.access ⟨"in", "out", none⟩ Uuid.zero).run shelf = (.ok report, tree') ∧
      tree'.read "out" = .ok (Image.mk .current flags m).toBytes ∧
      Header.parse (Image.mk .current flags m).toBytes = .ok header ∧
      report.unchanged = false ∧ header.flags.has Flags.lateBound = false := by
  obtain ⟨out, ok⟩ := Module.bindLate_twins
  have changed : (Module.twins.bindLate Config.default Uuid.zero).map (·.report.unchanged) =
      .ok false := by
    decide +kernel
  rw [ok] at changed
  have prepares : Prepares shelf ⟨"in", "out", none⟩ Uuid.zero Config.default
      (Image.ofModule Module.twins) out := ⟨rfl, imageIn_shelf, ok⟩
  obtain ⟨tree', wrote⟩ := write_shelf (Image.ofModule out.module).toBytes
  have ran := prepares.run_of_write wrote
  obtain ⟨given, m, flags, header, -, read, parsed, same, -, -, unmarked, -⟩ := flags_of_run ran
  exact ⟨out.report, tree', m, flags, header, ran, read, parsed, Except.ok.inj changed,
    same ▸ unmarked⟩

end Command

end LateBind

import LateBind.Proofs.Extent
import LateBind.Proofs.ImageFile

/-! # Modules that are stored again

A module that has been read from an image can be written and read again, and so can what late binding
makes of it, as long as its types are not nested too deep and its image fits the machine. -/

namespace LateBind

/-! ## Places that are read -/

variable {α : Type} {j : Json}

theorem Json.position?_lt {p : Nat} (read : position? j = some p) : p < Image.wordBound := by
  unfold position? natBelow? at read
  split at read
  · next n =>
    split at read
    · next bounds =>
      cases read
      rw [Image.wordBound]
      omega
    · cases read
  · cases read

theorem List.exists_of_mapM_eq_some {decode : Json → Option α} {js : List Json} {items : List α}
    (read : js.mapM decode = some items) : ∀ a ∈ items, ∃ j, decode j = some a := by
  induction js generalizing items with
  | nil =>
    cases read
    exact fun a mem => absurd mem List.not_mem_nil
  | cons j js ih =>
    rw [List.mapM_cons] at read
    obtain ⟨a, first, read⟩ := Option.bind_eq_some_iff.mp read
    obtain ⟨rest, later, read⟩ := Option.bind_eq_some_iff.mp read
    cases read
    exact List.forall_mem_cons.mpr ⟨⟨j, first⟩, ih later⟩

theorem Json.exists_of_mem_list? {decode : Json → Option α} {items : List α}
    (read : list? decode j = some items) : ∀ a ∈ items, ∃ j', decode j' = some a := by
  obtain ⟨js, -, read⟩ := Option.bind_eq_some_iff.mp read
  exact List.exists_of_mapM_eq_some read

theorem Members.exists_of_required {members : Members} {name : String} {decode : Json → Option α}
    {a : α} (read : required members name decode = some a) : ∃ j, decode j = some a := by
  obtain ⟨j, -, read⟩ := Option.bind_eq_some_iff.mp read
  exact ⟨j, read⟩

theorem Members.exists_of_withDefault {members : Members} {name : String} {default : α}
    {decode : Json → Option α} {a : α} (read : withDefault members name default decode = some a) :
    a = default ∨ ∃ j, decode j = some a := by
  unfold withDefault at read
  split at read
  · exact .inl (Option.some.inj read).symm
  · exact .inr ⟨_, read⟩

theorem Members.exists_of_optional {members : Members} {name : String} {decode : Json → Option α}
    {value : Option α} (read : optional members name decode = some value) :
    ∀ a ∈ value, ∃ j, decode j = some a := by
  rintro a ⟨⟩
  rcases exists_of_withDefault read with absent | ⟨j, read⟩
  · cases absent
  · unfold Json.nullable? at read
    split at read
    · cases read
    · obtain ⟨a', read, same⟩ := Option.map_eq_some_iff.mp read
      cases same
      exact ⟨_, read⟩

theorem Region.positions_lt {r : Region} (read : ofJson? j = some r) :
    ∀ p ∈ r.positions, p < Image.wordBound := by
  have bound {members : Members} {name : String} {p : Nat}
      (read : Members.required members name Json.position? = some p) : p < Image.wordBound := by
    obtain ⟨j, read⟩ := Members.exists_of_required read
    exact Json.position?_lt read
  simp only [ofJson?, Option.bind_eq_bind, Option.bind_eq_some_iff, Option.some.injEq] at read
  obtain ⟨members, -, tryStart, h₁, tryEnd, h₂, finallyStart, h₃, finallyEnd, h₄, rfl⟩ := read
  simp [positions, bound h₁, bound h₂, bound h₃, bound h₄]

theorem Body.positions_lt {source : Json.Source} {b : Body} (read : ofJson? source j = some b) :
    ∀ p ∈ b.positions, p < Image.wordBound := by
  simp only [ofJson?, Option.bind_eq_bind, Option.bind_eq_some_iff, Option.some.injEq] at read
  obtain ⟨members, -, locals, -, instrs, -, labels, hLabels, regions, hRegions, initLocals, -, maxStack,
    -, rfl⟩ := read
  refine List.forall_mem_append.mpr ⟨fun p mem => ?_, fun p mem => ?_⟩
  · obtain ⟨j, hLabels⟩ := Members.exists_of_required hLabels
    obtain ⟨j', read⟩ := Json.exists_of_mem_list? hLabels p mem
    exact Json.position?_lt read
  · obtain ⟨r, hr, mem⟩ := List.mem_flatMap.mp mem
    rcases Members.exists_of_withDefault hRegions with rfl | ⟨j, hRegions⟩
    · cases hr
    · obtain ⟨j', read⟩ := Json.exists_of_mem_list? hRegions r hr
      exact Region.positions_lt read p mem

theorem MethodDef.positions_lt {source : Json.Source} {m : MethodDef}
    (read : ofJson? source j = some m) : ∀ p ∈ m.positions, p < Image.wordBound := by
  simp only [ofJson?, Option.bind_eq_bind, Option.bind_eq_some_iff, Option.some.injEq] at read
  obtain ⟨members, -, name, -, params, -, returnType, -, returnMarshal, -, isStatic, -, visibility, -,
    flags, -, importInfo, -, body, hBody, rfl⟩ := read
  intro p mem
  obtain ⟨b, own, mem⟩ := List.mem_flatMap.mp mem
  obtain ⟨j, read⟩ := Members.exists_of_optional hBody b (Option.mem_toList.mp own)
  exact Body.positions_lt read p mem

theorem TypeDef.positions_lt {source : Json.Source} {t : TypeDef}
    (read : ofJson? source j = some t) : ∀ p ∈ t.positions, p < Image.wordBound := by
  simp only [ofJson?, Option.bind_eq_bind, Option.bind_eq_some_iff, Option.some.injEq] at read
  obtain ⟨members, -, name, -, kind, -, visibility, -, isAbstract, -, isSealed, -, beforeFieldInit, -,
    base, -, fields, -, methods, hMethods, rfl⟩ := read
  intro p mem
  obtain ⟨m, own, mem⟩ := List.mem_flatMap.mp mem
  rcases Members.exists_of_withDefault hMethods with rfl | ⟨j, hMethods⟩
  · cases own
  · obtain ⟨j', read⟩ := Json.exists_of_mem_list? hMethods m own
    exact MethodDef.positions_lt read p mem

/-- The places in a module that has been read fit a machine word. -/
theorem Module.positions_lt {source : Json.Source} {m : Module}
    (read : ofJson? source j = some m) : ∀ p ∈ m.positions, p < Image.wordBound := by
  simp only [ofJson?, Option.bind_eq_bind, Option.bind_eq_some_iff, Option.some.injEq] at read
  obtain ⟨members, -, name, -, mvid, -, assemblyRefs, -, types, hTypes, references, hReferences, rfl⟩ :=
    read
  intro p mem
  obtain ⟨t, own, mem⟩ := List.mem_flatMap.mp mem
  rcases List.mem_append.mp own with own | own
  · obtain ⟨j, hTypes⟩ := Members.exists_of_required hTypes
    obtain ⟨j', read⟩ := Json.exists_of_mem_list? hTypes t own
    exact TypeDef.positions_lt read p mem
  · rcases Members.exists_of_withDefault hReferences with rfl | ⟨j, hReferences⟩
    · cases own
    · obtain ⟨j', read⟩ := Json.exists_of_mem_list? hReferences t own
      exact TypeDef.positions_lt read p mem

namespace Image

theorem positions_lt_of_ofBytes {data : Bytes} {image : Image} (read : ofBytes data = .ok image) :
    ∀ p ∈ image.module.positions, p < wordBound := by
  cases parsed : Header.parse data with
  | error e =>
    rw [ofBytes_of_parse_error parsed] at read
    cases read
  | ok h =>
    rw [ofBytes_of_parse parsed] at read
    split_ifs at read
    split at read
    · cases read
    · next m stored =>
      cases read
      obtain ⟨j, -, stored⟩ := Option.bind_eq_some_iff.mp stored
      exact Module.positions_lt stored

end Image

/-! ## The length of code -/

namespace Module

/-- A module's text is longer than the number of the instructions of any of its bodies. -/
theorem length_instrs_le_render {m : Module} {t : TypeDef} {method : MethodDef} {body : Body}
    (ht : t ∈ m.types) (hm : method ∈ t.methods) (hb : body ∈ method.body) :
    body.instrs.length ≤ m.toJson.render.length := by
  have item {items : List Json} {j : Json} (mem : j ∈ items) :
      j.render.length ≤ (Json.arr items).render.length :=
    (List.le_sum_of_mem (List.mem_map_of_mem mem)).trans (Json.sum_length_le_render_arr items)
  calc body.instrs.length
    _ ≤ (Json.arr (body.instrs.map Instr.toJson)).render.length := by
      have count := Json.length_le_render_arr (body.instrs.map Instr.toJson)
      rwa [List.length_map] at count
    _ ≤ body.toJson.render.length :=
      Json.length_le_render_obj (e := ("instrs", .arr (body.instrs.map Instr.toJson))) (by simp)
    _ ≤ method.toJson.render.length := by
      refine Json.length_le_render_obj (e := ("body", body.toJson)) ?_
      rw [Option.mem_def.mp hb]
      simp [Json.option]
    _ ≤ (Json.arr (t.methods.map MethodDef.toJson)).render.length := item (List.mem_map_of_mem hm)
    _ ≤ t.toJson.render.length :=
      Json.length_le_render_obj (e := ("methods", .arr (t.methods.map MethodDef.toJson))) (by simp)
    _ ≤ (Json.arr (m.types.map TypeDef.toJson)).render.length := item (List.mem_map_of_mem ht)
    _ ≤ m.toJson.render.length := m.length_render_types_le

end Module

/-! ## Bound modules -/

/-- The image of a bound module is read back, when the old module has been read from an image. -/
theorem Image.ofBytes_bindLate {m : Module} {c : Config} {id : Uuid} {out : LateBound}
    (shallow : ∀ t ∈ m.typeRefs, t.depth < 50) (fit : ∀ p ∈ m.positions, p < wordBound)
    (ok : m.bindLate c id = .ok out) (small : (ofModule out.module).toBytes.length < wordBound) :
    ofBytes (ofModule out.module).toBytes = .ok (ofModule out.module) := by
  have back (shallow' : ∀ t ∈ out.module.typeRefs, t.depth < 50)
      (fit' : ∀ p ∈ out.module.positions, p < wordBound) :
      ofBytes (ofModule out.module).toBytes = .ok (ofModule out.module) := by
    have read : ofBytes ((ofModule out.module).toBytes ++ []) = .ok (ofModule out.module) :=
      ofBytes_append rfl shallow' fit' small []
    rwa [List.append_nil] at read
  rcases Module.bindLate_cases ok with ⟨-, -, same⟩ | ⟨found, types, bodies, helper, binds, -, eq⟩
  · exact back (by rwa [same]) (by rwa [same])
  · refine back ?_ ?_
    · rw [eq]
      exact binds.below_of_mem_typeRefs (by decide) shallow id
    · intro p named
      rw [eq] at named
      rcases binds.place_cases (by decide) shallow id p named with
        old | ⟨t, ht, method, hm, body, hb, inside⟩
      · exact fit p old
      · rw [← eq] at ht
        have code := Module.length_instrs_le_render ht hm hb
        have text := (Bytes.length_ofText_bounds (ofModule out.module).payload).1
        change out.module.toJson.render.length ≤ _ at text
        rw [length_toBytes] at small
        omega

end LateBind

import LateBind.Proofs.Agreement
import LateBind.Proofs.Layouts

/-! # Values in a module with one more type

A module that has one type more, a class, and in which the others keep their kinds and their instance
fields, has the same values, and they lie in memory alike. -/

namespace LateBind

/-- What the layout of a type depends on. -/
def TypeDef.shape (t : TypeDef) : TypeKind × List FieldDef :=
  (t.kind, t.fields.filter fun f => !f.isStatic)

namespace Module

/-- The second module has one type more, a class, which the first one does not know. The other types
are shaped alike, and none has a field of the new type. -/
structure OneMore (new : TypeName) (m m' : Module) : Prop where
  unknown : m.findType? new = none
  isClass : (m'.findType? new).map TypeDef.kind = some .classType
  shapes {name : TypeName} : name ≠ new →
    (m'.findType? name).map TypeDef.shape = (m.findType? name).map TypeDef.shape
  unused {name : TypeName} {t : TypeDef} : m.findType? name = some t →
    ∀ f ∈ t.fields, f.type ≠ .named new

namespace OneMore

variable {new : TypeName} {m m' : Module} (more : OneMore new m m')

include more

theorem kinds {name : TypeName} (other : name ≠ new) :
    (m'.findType? name).map TypeDef.kind = (m.findType? name).map TypeDef.kind := by
  have same := congrArg (Option.map Prod.fst) (more.shapes other)
  rw [Option.map_map, Option.map_map] at same
  exact same

theorem represent_eq (t : TypeRef) : m'.represent t = m.represent t := by
  cases t with
  | named name =>
    by_cases other : name = new
    · subst other
      simp only [represent, more.unknown, more.isClass, Option.map_none]
    · simp only [represent, more.kinds other]
  | _ => rfl

theorem isStruct_eq (name : TypeName) : m'.isStruct name = m.isStruct name := by
  have isStruct (m : Module) : m.isStruct name =
      ((m.findType? name).map TypeDef.kind).any (· == .structType) := by
    rw [Module.isStruct, Option.any_map]
  rw [isStruct, isStruct]
  by_cases other : name = new
  · subst other
    rw [more.isClass, more.unknown]
    rfl
  · rw [more.kinds other]

omit more

mutual

theorem namedExtent_eq (more : OneMore new m m') (active : List TypeName) {name : TypeName}
    (other : name ≠ new) : m'.namedExtent active name = m.namedExtent active name := by
  by_cases mem : name ∈ active
  · rw [namedExtent_of_mem mem, namedExtent_of_mem mem]
  · have shapes := more.shapes other
    cases found : m.findType? name with
    | none =>
      rw [found, Option.map_none, Option.map_eq_none_iff] at shapes
      rw [namedExtent_of_none mem found, namedExtent_of_none mem shapes]
    | some t =>
      rw [found] at shapes
      obtain ⟨t', found', shape⟩ := Option.map_eq_some_iff.mp shapes
      have kind : t'.kind = t.kind := congrArg Prod.fst shape
      have fields : t'.fields.filter (fun f => !f.isStatic) = t.fields.filter fun f => !f.isStatic :=
        congrArg Prod.snd shape
      have unused : ∀ f ∈ t.fields.filter fun f => !f.isStatic, f.type ≠ .named new :=
        fun f hf => more.unused found f (List.mem_filter.mp hf).1
      have smaller := definitionsOutside_cons_lt found mem
      rw [namedExtent_of_some mem found, namedExtent_of_some mem found', kind, fields,
        fieldsExtent_eq more (name :: active) .start _ unused]
termination_by (m.definitionsOutside active, 0, 0)

theorem fieldsExtent_eq (more : OneMore new m m') (active : List TypeName) (before : Extent)
    (fields : List FieldDef) (unused : ∀ f ∈ fields, f.type ≠ .named new) :
    m'.fieldsExtent active before fields = m.fieldsExtent active before fields := by
  cases fields with
  | nil => rw [fieldsExtent, fieldsExtent]
  | cons f rest =>
    have ih (before : Extent) := fieldsExtent_eq more active before rest fun f hf =>
      unused f (List.mem_cons_of_mem _ hf)
    have here := unused f (by simp)
    rw [fieldsExtent, fieldsExtent]
    simp only [ih]
    cases type : f.type with
    | named name =>
      have other : name ≠ new := fun same => here (by rw [type, same])
      simp only [namedExtent_eq more active other]
    | _ => rfl
termination_by (m.definitionsOutside active, 1, fields.length)

end

include more

/-- The new type has an extent in the second module only. -/
theorem size_eq {t : TypeRef} (other : t ≠ .named new) : m'.size t = m.size t := by
  cases t with
  | named name =>
    have other : name ≠ new := fun same => other (by rw [same])
    simp only [size, extent, more.namedExtent_eq [] other]
  | _ => rfl

theorem defaultValue_eq (t : TypeRef) : m'.defaultValue t = m.defaultValue t := by
  unfold defaultValue
  rw [more.represent_eq]
  split
  · rfl
  · rfl
  · next name _ =>
    rw [more.isStruct_eq]
    split
    · next isStruct =>
      have other : name ≠ new := by
        rintro rfl
        simp [Module.isStruct, more.unknown] at isStruct
      have other : TypeRef.named name ≠ .named new := fun same => other (TypeRef.named.inj same)
      rw [more.size_eq other]
    · rfl
  all_goals rfl

theorem refined_size (t : TypeRef) : Refined (fun _ => True) (m.size t) (m'.size t) := by
  by_cases other : t = .named new
  · subst other
    refine .inl ⟨.unsupported (.unresolvedType new), trivial, ?_⟩
    rw [size, extent, namedExtent_of_none (by simp) more.unknown]
    rfl
  · exact .inr (more.size_eq other)

theorem decode_eq {t : TypeRef} (other : t ≠ .named new) (bytes : Bytes) :
    m'.decode t bytes = m.decode t bytes := by
  have represented : m.represent t ≠ .named new := by
    unfold represent
    split
    · split
      · simp
      · exact other
    · exact other
  unfold decode
  dsimp only
  rw [more.represent_eq, more.size_eq represented]

theorem refined_decode (t : TypeRef) (bytes : Bytes) :
    Refined (fun _ => True) (m.decode t bytes) (m'.decode t bytes) := by
  unfold decode
  dsimp only
  rw [more.represent_eq]
  exact (more.refined_size _).bind fun _ => .refl _

/-- What is refused in the first module is what is made of the new type. -/
theorem agrees : m.Agrees (fun _ => True) m' where
  defaultValue := more.defaultValue_eq
  size := more.refined_size
  encode t v := by
    unfold Module.encode
    dsimp only
    rw [more.represent_eq]
    exact (more.refined_size _).bind fun _ => .refl _
  decode := more.refined_decode
  toNative t v := by
    unfold Module.toNative
    dsimp only
    rw [more.represent_eq]
    exact .refl _
  ofNative t v := by
    unfold Module.ofNative
    dsimp only
    rw [more.represent_eq]
    split
    · exact .refl _
    · split
      · exact .refl _
      · exact .refl _
      · split
        · exact (more.refined_decode _ _).map some
        · exact .refl _
      all_goals exact .refl _

theorem isScalar_eq (t : TypeRef) : Machine.isScalar m' t = Machine.isScalar m t := by
  cases t with
  | named name =>
    by_cases other : name = new
    · subst other
      simp only [Machine.isScalar, more.unknown, more.isClass, Option.map_none]
    · simp only [Machine.isScalar, more.kinds other]
  | _ => rfl

end OneMore

end Module

end LateBind

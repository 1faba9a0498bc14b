import LateBind.Proofs.Marshalling

/-! # How types lie in memory that look the same on both sides

A type that looks the same on both sides of a native call has an extent, unless it is a struct that
is a part of itself, and then its values can be written, read and passed. -/

namespace LateBind

/-! ## Extents -/

/-- A value takes a positive multiple of its alignment, which is one of the machine's. -/
structure Extent.Sound (e : Extent) : Prop where
  align : e.align ∈ [1, 2, 4, 8]
  pos : 0 < e.size
  multiple : e.align ∣ e.size

namespace Extent

theorem align_append {e field : Extent} (before : e.align ∈ [1, 2, 4, 8])
    (align : field.align ∈ [1, 2, 4, 8]) : (e.append field).align ∈ [1, 2, 4, 8] := by
  rw [append]
  rcases Nat.le_total e.align field.align with le | le
  · rw [Nat.max_eq_right le]
    exact align
  · rw [Nat.max_eq_left le]
    exact before

theorem sound_finish {e : Extent} (align : e.align ∈ [1, 2, 4, 8]) : e.finish.Sound where
  align := align
  pos := size_finish_pos (Nat.pos_of_ne_zero fun zero => by simp [zero] at align)
  multiple := Nat.dvd_mul_left _ _

theorem sound_ofPointer : ofPointer.Sound := ⟨by decide, by decide, by decide⟩

end Extent

theorem Primitive.exists_extent {p : Primitive} (plain : p.isNumericOrPointer) :
    ∃ e, p.extent = .ok e ∧ e.Sound := by
  have sound {n : Nat} (known : n ∈ [1, 2, 4, 8]) : (⟨n, n⟩ : Extent).Sound := by
    have pos : n ≠ 0 := by
      rintro rfl
      simp at known
    exact ⟨known, Nat.pos_of_ne_zero pos, Nat.dvd_refl n⟩
  cases p <;> first | exact ⟨_, rfl, sound (by decide)⟩ | cases plain

namespace Module

variable {m : Module} {name inner : TypeName} {t : TypeDef} {f g : FieldDef}
  {active : List TypeName}

/-- Values of one type are parts of the values of a struct. -/
def Embeds (m : Module) (outer inner : TypeName) : Prop :=
  ∃ f, m.Contains outer f ∧ f.type = .named inner

theorem Contains.trans (first : m.Contains name f) (isNamed : f.type = .named inner)
    (rest : m.Contains inner g) : m.Contains name g := by
  induction first with
  | own found isStruct mem => exact .within found isStruct mem isNamed rest
  | within found isStruct mem isNamed' _ ih => exact .within found isStruct mem isNamed' (ih isNamed)

theorem Embeds.trans {outer : TypeName} (first : m.Embeds outer name) (rest : m.Embeds name inner) :
    m.Embeds outer inner := by
  obtain ⟨f, contains, isNamed⟩ := first
  obtain ⟨g, contains', isNamed'⟩ := rest
  exact ⟨g, contains.trans isNamed contains', isNamed'⟩

theorem Embeds.of_field (found : m.findType? name = some t) (isStruct : t.kind = .structType)
    (mem : f ∈ t.instanceFields) (isNamed : f.type = .named inner) : m.Embeds name inner :=
  ⟨f, .own found isStruct mem, isNamed⟩

/-- What has a part has a field of a named type. -/
theorem Embeds.exists_field {outer : TypeName} (embeds : m.Embeds outer inner) :
    ∃ t f next, m.findType? outer = some t ∧ f ∈ t.instanceFields ∧ f.type = .named next := by
  obtain ⟨f, contains, isNamed⟩ := embeds
  cases contains with
  | own found _ mem => exact ⟨_, f, inner, found, mem, isNamed⟩
  | within found _ mem isNamed' _ => exact ⟨_, _, _, found, mem, isNamed'⟩

/-- No struct to which the type leads is a part of itself. -/
def Bounded (m : Module) (t : TypeRef) : Prop :=
  ∀ name, m.Reaches t (.named name) → ¬m.Embeds name name

theorem Bounded.field (bounded : m.Bounded (.named name)) (found : m.findType? name = some t)
    (isStruct : t.kind = .structType) (mem : f ∈ t.instanceFields) : m.Bounded f.type :=
  fun other reaches => bounded other (.field found isStruct mem reaches)

/-- The extent of a value inside of structs. -/
def extentIn (m : Module) (active : List TypeName) : TypeRef → Except MachineError Extent
  | .named name => m.namedExtent active name
  | .primitive p => p.extent
  | .pointer _ | .array _ _ | .byRef _ => .ok .ofPointer

theorem fieldsExtent_cons {before e : Extent} {rest : List FieldDef}
    (extent : m.extentIn active f.type = .ok e) :
    m.fieldsExtent active before (f :: rest) = m.fieldsExtent active (before.append e) rest := by
  rw [fieldsExtent]
  cases type : f.type with
  | named name | primitive p =>
    rw [type, extentIn] at extent
    simp only [extent]
  | pointer | array | byRef =>
    rw [type] at extent
    cases extent
    rfl

mutual

/-- The search for an extent ends, since the structs that it is in all hold the type. -/
theorem exists_namedExtent (active : List TypeName) (name : TypeName)
    (uniform : m.Uniform [] name) (bounded : m.Bounded (.named name))
    (holds : ∀ a ∈ active, m.Embeds a name) :
    ∃ e, m.namedExtent active name = .ok e ∧ e.Sound := by
  have fresh : name ∉ active := fun mem => bounded name (.refl _) (holds name mem)
  obtain ⟨t, found, fits⟩ := uniform.found
  have smaller := definitionsOutside_cons_lt found fresh
  rw [namedExtent_of_some fresh found]
  cases kind : t.kind with
  | enum underlying =>
    rw [kind] at fits
    exact Primitive.exists_extent fits
  | structType =>
    rw [kind] at fits
    have fields : ∀ f ∈ t.instanceFields, TypePasses (m.Uniform []) f.type ∧ m.Bounded f.type ∧
        ∀ inner, f.type = .named inner → ∀ a ∈ name :: active, m.Embeds a inner := by
      refine fun f mem => ⟨(fits f mem).2, bounded.field found kind mem, fun inner isNamed => ?_⟩
      have own := Embeds.of_field found kind mem isNamed
      exact List.forall_mem_cons.mpr ⟨own, fun a ha => (holds a ha).trans own⟩
    obtain ⟨e, extent, align⟩ := exists_fieldsExtent (name :: active) .start _ fields (by decide)
    exact ⟨e.finish, congrArg (Except.map Extent.finish) extent, Extent.sound_finish align⟩
  | _ =>
    rw [kind] at fits
    cases fits
termination_by (m.definitionsOutside active, 0, 0)

theorem exists_fieldsExtent (active : List TypeName) (before : Extent) (fields : List FieldDef)
    (fits : ∀ f ∈ fields, TypePasses (m.Uniform []) f.type ∧ m.Bounded f.type ∧
      ∀ inner, f.type = .named inner → ∀ a ∈ active, m.Embeds a inner)
    (align : before.align ∈ [1, 2, 4, 8]) :
    ∃ e, m.fieldsExtent active before fields = .ok e ∧ e.align ∈ [1, 2, 4, 8] := by
  match fields with
  | [] =>
    rw [fieldsExtent]
    exact ⟨before, rfl, align⟩
  | f :: rest =>
    obtain ⟨⟨passes, bounded, holds⟩, others⟩ := List.forall_mem_cons.mp fits
    obtain ⟨e, extent, sound⟩ : ∃ e, m.extentIn active f.type = .ok e ∧ e.Sound := by
      cases shape : f.type with
      | named inner =>
        rw [shape] at passes bounded
        exact exists_namedExtent active inner passes bounded (holds inner shape)
      | primitive p =>
        rw [shape] at passes
        exact Primitive.exists_extent passes
      | _ => exact ⟨_, rfl, Extent.sound_ofPointer⟩
    rw [fieldsExtent_cons extent]
    exact exists_fieldsExtent active (before.append e) rest others
      (Extent.align_append align sound.align)
termination_by (m.definitionsOutside active, 1, fields.length)

end

/-! ## Values -/

end Module

/-- How the values of a built-in type are held that are stored in place. -/
def Primitive.valueKind? : Primitive → Option ValueKind
  | void | string | object => none
  | boolean | char | i8 | u8 | i16 | u16 | i32 | u32 => some .int32
  | i64 | u64 => some .int64
  | intPtr | uintPtr => some .nativeInt
  | f32 | f64 => some .float

namespace Module

/-- The value is one of a type that is stored in place. -/
def HasValue (m : Module) (t : TypeRef) (v : Value) : Prop :=
  match m.represent t with
  | .primitive p => p.valueKind? = some v.kind
  | .pointer _ => v.kind = .nativeInt
  | .named _ => ∃ bytes, v = .struct bytes ∧ m.size t = .ok bytes.length
  | .array _ _ | .byRef _ => False

/-- A type that is stored in place, with the bytes that its values take. -/
structure Placed (m : Module) (t : TypeRef) (n : Nat) : Prop extends m.LaysOut t n where
  isStruct : ∀ name, m.represent t = .named name → m.isStruct name

variable {m : Module} {u : TypeRef} {n : Nat} {v : Value} {bytes : Bytes}

namespace Placed

/-- A type that is stored in place stands for a number, a pointer or a struct. -/
theorem shape (placed : m.Placed u n) :
    (∃ p kind, m.represent u = .primitive p ∧ p.valueKind? = some kind) ∨
      (∃ target, m.represent u = .pointer target) ∨
      ∃ name, m.represent u = .named name ∧ m.isStruct name := by
  obtain ⟨⟨size, inPlace⟩, isStruct⟩ := placed
  rw [← size_represent] at size
  cases shape : m.represent u with
  | primitive p =>
    rw [shape] at size inPlace
    cases p with
    | void => cases size
    | string | object => cases inPlace
    | _ => exact .inl ⟨_, _, rfl, rfl⟩
  | pointer target => exact .inr (.inl ⟨target, rfl⟩)
  | named name => exact .inr (.inr ⟨name, rfl, isStruct name shape⟩)
  | array _ _ | byRef _ =>
    rw [shape] at inPlace
    cases inPlace

theorem hasValue_defaultValue (placed : m.Placed u n) : m.HasValue u (m.defaultValue u) := by
  have size := placed.size
  rw [← size_represent] at size
  unfold HasValue defaultValue
  rcases placed.shape with ⟨p, kind, shape, known⟩ | ⟨target, shape⟩ | ⟨name, shape, isStruct⟩
  · rw [shape]
    cases p <;> cases known <;> rfl
  · rw [shape]
    rfl
  · rw [shape] at size ⊢
    simp only [isStruct, if_true, size]
    exact ⟨_, rfl, by rw [List.length_replicate, placed.size]⟩

theorem exists_encode (placed : m.Placed u n) (value : m.HasValue u v) :
    ∃ bytes, m.encode u v = .ok bytes ∧ bytes.length = n := by
  have size := placed.size
  suffices encodes : ∃ bytes, m.encode u v = .ok bytes by
    obtain ⟨bytes, encodes⟩ := encodes
    have length := length_of_encode encodes
    rw [size] at length
    exact ⟨bytes, encodes, (Except.ok.inj length).symm⟩
  unfold HasValue at value
  rw [← size_represent] at size
  unfold encode
  simp only [size, bind, Except.bind]
  rcases placed.shape with ⟨p, kind, shape, known⟩ | ⟨target, shape⟩ | ⟨name, shape, -⟩
  · rw [shape] at value ⊢
    cases p <;> cases known <;> cases v <;> cases value <;> exact ⟨_, rfl⟩
  · rw [shape] at value ⊢
    cases v <;> cases value
    exact ⟨_, rfl⟩
  · rw [shape] at value ⊢
    obtain ⟨bytes, rfl, length⟩ := value
    cases placed.size.symm.trans length
    exact ⟨bytes, if_pos rfl⟩

theorem exists_decode (placed : m.Placed u n) (enough : n ≤ bytes.length) :
    ∃ v, m.decode u bytes = .ok v ∧ m.HasValue u v := by
  have size := placed.size
  rw [← size_represent] at size
  unfold HasValue decode
  simp only [size, bind, Except.bind, if_neg (Nat.not_lt.mpr enough)]
  rcases placed.shape with ⟨p, kind, shape, known⟩ | ⟨target, shape⟩ | ⟨name, shape, -⟩
  · rw [shape]
    cases p <;> cases known <;> exact ⟨_, rfl, rfl⟩
  · rw [shape]
    exact ⟨_, rfl, rfl⟩
  · rw [shape]
    exact ⟨_, rfl, _, rfl, by rw [List.length_take_of_le enough, placed.size]⟩

theorem exists_toNative (placed : m.Placed u n) (value : m.HasValue u v) :
    ∃ x, m.toNative u v = .ok x := by
  unfold HasValue at value
  unfold toNative
  rcases placed.shape with ⟨p, kind, shape, known⟩ | ⟨target, shape⟩ | ⟨name, shape, -⟩
  · rw [shape] at value ⊢
    cases p <;> cases known <;> cases v <;> cases value <;> exact ⟨_, rfl⟩
  · rw [shape] at value ⊢
    cases v <;> cases value
    exact ⟨_, rfl⟩
  · rw [shape] at value ⊢
    obtain ⟨bytes, rfl, -⟩ := value
    exact ⟨_, rfl⟩

end Placed

/-! ## Types that look the same on both sides -/

theorem passes_of_isBlittable {queries : List TypeRef} {t : TypeRef}
    (yes : ((m.isBlittable t).run (m.memoAfter queries)).1 = .ok true) :
    TypePasses (m.Uniform []) t ∨ ∃ u, t = .vector u ∧ TypePasses (m.Uniform []) u := by
  obtain ⟨knows, idle⟩ := m.memoAfter_knows queries
  have looked {u : TypeRef} (yes : (m.lookAt (m.memoAfter queries) u).answer = .ok true) :
      TypePasses (m.Uniform []) u := by
    have tells := (lookAt_tells (fun name => (search_tells m).1 _ name knows) knows u).1
    rw [yes, idle] at tells
    exact tells
  rw [run_isBlittable] at yes
  cases t with
  | array element rank =>
    rw [ask] at yes
    split at yes
    · next vector => exact .inr ⟨element, by rw [vector]; rfl, looked yes⟩
    · cases yes
  | primitive p => exact .inl (looked yes)
  | named name => exact .inl (looked yes)
  | pointer target => exact .inl (looked yes)
  | byRef target => exact .inl (looked yes)

/-- A type that fits in its place has a sound extent, unless a struct is a part of itself. -/
theorem placed_of_passes (passes : TypePasses (m.Uniform []) u) (bounded : m.Bounded u) :
    ∃ e, m.extent u = .ok e ∧ e.Sound ∧ m.Placed u e.size := by
  cases u with
  | primitive p =>
    obtain ⟨e, extent, sound⟩ := Primitive.exists_extent passes
    refine ⟨e, extent, sound, ⟨congrArg (Except.map Extent.size) extent, ?_⟩, nofun⟩
    have plain : p.isNumericOrPointer = true := passes
    cases p <;> first | rfl | cases plain
  | pointer target => exact ⟨_, rfl, Extent.sound_ofPointer, ⟨rfl, trivial⟩, nofun⟩
  | named name =>
    obtain ⟨e, extent, sound⟩ := exists_namedExtent [] name passes bounded nofun
    refine ⟨e, extent, sound, ?_⟩
    have size : m.size (.named name) = .ok e.size := congrArg (Except.map Extent.size) extent
    obtain ⟨t, found, fits⟩ := Uniform.found passes
    cases kind : t.kind with
    | enum underlying =>
      have alike : m.represent (.named name) = .primitive underlying := by
        simp [represent, found, kind]
      rw [kind] at fits
      have plain : underlying.isNumericOrPointer = true := fits
      refine ⟨⟨size, ?_⟩, fun other same => ?_⟩
      · rw [alike]
        cases underlying <;> first | rfl | cases plain
      · cases alike.symm.trans same
    | structType =>
      have alike : m.represent (.named name) = .named name := by simp [represent, found, kind]
      refine ⟨⟨size, by rw [alike]; trivial⟩, fun other same => ?_⟩
      cases alike.symm.trans same
      simp [isStruct, found, kind]
    | _ =>
      rw [kind] at fits
      cases fits
  | _ => cases passes

/-- The arguments for which a slot has a type that looks the same on both sides: a value of it, a
pointer to one, or an array of them. -/
inductive Fills (m : Module) (u : TypeRef) (s : MachineState) : ParamSlot → Value → Prop
  | direct {slot : ParamSlot} {v : Value} (plan : slot.plan = .direct) (type : slot.type = u)
      (value : m.HasValue u v) : Fills m u s slot v
  | box {slot : ParamSlot} {box : ObjRef} {v : Value} (plan : slot.plan = .byRef)
      (isBox : s.objects[box.index]? = some (.boxed u v)) (value : m.HasValue u v) :
      Fills m u s slot (.address (.boxed box))
  | item {slot : ParamSlot} {r : ObjRef} {index : Nat} {items : Array Value}
      (plan : slot.plan = .byRef) (isArray : s.objects[r.index]? = some (.array u items))
      (inside : index < items.size) (values : ∀ v ∈ items, m.HasValue u v) :
      Fills m u s slot (.address (.element r index))
  | null {slot : ParamSlot} (plan : slot.plan = .blittableArray) : Fills m u s slot .null
  | array {slot : ParamSlot} {r : ObjRef} {items : Array Value} (plan : slot.plan = .blittableArray)
      (isArray : s.objects[r.index]? = some (.array u items)) (few : items.size < 2 ^ 31)
      (values : ∀ v ∈ items, m.HasValue u v) : Fills m u s slot (.ref r)

theorem Placed.exists_images (placed : m.Placed u n) {objects : Array Object} {r : ObjRef}
    {index : Nat} {items : Array Value} (isArray : objects[r.index]? = some (.array u items))
    (inside : index < items.size) (values : ∀ v ∈ items, m.HasValue u v) :
    ∃ bytes, (PinSource.elements r index).Images m objects bytes := by
  have each : ∀ v ∈ items.toList.drop index, ∃ bytes, m.encode u v = .ok bytes := by
    intro v hv
    obtain ⟨bytes, encodes, -⟩ :=
      placed.exists_encode (values v (Array.mem_toList_iff.mp (List.mem_of_mem_drop hv)))
    exact ⟨bytes, encodes⟩
  obtain ⟨pieces, encodes⟩ := (exists_mapM_eq_ok_iff _ _).mpr each
  exact ⟨_, .elements isArray inside placed.toLaysOut (mapM_eq_ok_iff.mp encodes)⟩

/-- A slot takes all such arguments. -/
theorem Placed.admits (placed : m.Placed u n) {s : MachineState} {slot : ParamSlot}
    (fills : m.Fills u s slot v) : slot.Admits m s v := by
  unfold ParamSlot.Admits
  cases fills with
  | direct plan type value =>
    rw [plan, type]
    exact placed.exists_toNative value
  | box plan isBox value =>
    rw [plan]
    obtain ⟨bytes, encodes, -⟩ := placed.exists_encode value
    exact ⟨_, bytes, rfl, .boxed isBox placed.toLaysOut encodes⟩
  | item plan isArray inside values =>
    rw [plan]
    obtain ⟨bytes, images⟩ := placed.exists_images isArray inside values
    exact ⟨_, bytes, rfl, images⟩
  | null plan =>
    rw [plan]
    exact .inl rfl
  | array plan isArray few values =>
    rw [plan]
    exact .inr ⟨_, u, _, rfl, isArray, few, fun some => placed.exists_images isArray some values⟩

/-- A vector is a reference: it has the extent of a pointer, and is not stored in place. -/
theorem layout_vector (m : Module) (u : TypeRef) :
    m.extent (.vector u) = .ok .ofPointer ∧ m.defaultValue (.vector u) = .null ∧
      (∀ v bytes, m.encode (.vector u) v ≠ .ok bytes) ∧
      ∀ bytes v, m.decode (.vector u) bytes ≠ .ok v := by
  refine ⟨rfl, rfl, fun v bytes encodes => ?_, fun bytes v decodes => ?_⟩
  · cases v <;> cases encodes
  · unfold decode at decodes
    have size : m.size (m.represent (.vector u)) = .ok 8 := rfl
    simp only [size, bind, Except.bind] at decodes
    split at decodes <;> cases decodes

/-- A type that looks the same on both sides, whatever was asked before, has a sound extent if no
struct that it leads to is a part of itself. A new variable has a value of the type or, for a vector,
of its elements; all values can be written, read and passed. -/
theorem laid_of_isBlittable (m : Module) (queries : List TypeRef) (t : TypeRef)
    (yes : ((m.isBlittable t).run (m.memoAfter queries)).1 = .ok true) (bounded : m.Bounded t) :
    (∃ e, m.extent t = .ok e ∧ e.Sound) ∧
    (∀ u, t = .vector u → m.defaultValue t = .null ∧ (∀ v bytes, m.encode t v ≠ .ok bytes) ∧
      ∀ bytes v, m.decode t bytes ≠ .ok v) ∧
    ∀ u, (t = u ∧ t.array? = none ∨ t = .vector u) →
      ∃ e, m.extent u = .ok e ∧ e.Sound ∧ m.HasValue u (m.defaultValue u) ∧
        (∀ v, m.HasValue u v → ∃ bytes, m.encode u v = .ok bytes ∧ bytes.length = e.size) ∧
        (∀ bytes, e.size ≤ bytes.length → ∃ v, m.decode u bytes = .ok v ∧ m.HasValue u v) ∧
        ∀ s slot v, m.Fills u s slot v → slot.Admits m s v := by
  have inPlace {u : TypeRef} (passes : TypePasses (m.Uniform []) u) (bounded : m.Bounded u) :
      ∃ e, m.extent u = .ok e ∧ e.Sound ∧ m.HasValue u (m.defaultValue u) ∧
        (∀ v, m.HasValue u v → ∃ bytes, m.encode u v = .ok bytes ∧ bytes.length = e.size) ∧
        (∀ bytes, e.size ≤ bytes.length → ∃ v, m.decode u bytes = .ok v ∧ m.HasValue u v) ∧
        ∀ s slot v, m.Fills u s slot v → slot.Admits m s v := by
    obtain ⟨e, extent, sound, placed⟩ := placed_of_passes passes bounded
    exact ⟨e, extent, sound, placed.hasValue_defaultValue, fun _ => placed.exists_encode,
      fun _ => placed.exists_decode, fun _ _ _ => placed.admits⟩
  rcases passes_of_isBlittable yes with passes | ⟨u, rfl, passes⟩
  · obtain ⟨e, extent, sound, rest⟩ := inPlace passes bounded
    refine ⟨⟨e, extent, sound⟩, fun u vector => ?_, fun u isType => ?_⟩
    · subst vector
      cases passes
    · rcases isType with ⟨rfl, -⟩ | rfl
      · exact ⟨e, extent, sound, rest⟩
      · cases passes
  · obtain ⟨extent, null, writes, reads⟩ := m.layout_vector u
    refine ⟨⟨_, extent, Extent.sound_ofPointer⟩, fun _ _ => ⟨null, writes, reads⟩, fun u' isType => ?_⟩
    rcases isType with ⟨-, none⟩ | same
    · cases none
    · cases same
      exact inPlace passes fun name reaches => bounded name (.element 1 reaches)

/-- A struct with a gap in it, and one that is a part of itself. -/
def samples : Module :=
  ((start "samples" Uuid.zero).withType (((TypeDef.ofKind "Sample" .structType).withField "tag" .u8
    none).withField "weight" .i64 none)).withType
      ((TypeDef.ofKind "Loop" .structType).withField "self" (.named ⟨"", "Loop"⟩) none)

theorem laid_of_isBlittable_samples :
    let t : TypeRef := .vector (.named ⟨"", "Sample"⟩)
    let queries : List TypeRef := [.named ⟨"", "Loop"⟩, .string]
    ((samples.isBlittable t).run (samples.memoAfter queries)).1 = .ok true ∧ samples.Bounded t ∧
    samples.extent (.named ⟨"", "Sample"⟩) = .ok ⟨16, 8⟩ ∧
    ∀ bytes, 16 ≤ bytes.length → ∃ v, samples.decode (.named ⟨"", "Sample"⟩) bytes = .ok v ∧
      samples.HasValue (.named ⟨"", "Sample"⟩) v := by
  intro t queries
  have yes : ((samples.isBlittable t).run (samples.memoAfter queries)).1 = .ok true := by cbv
  have bounded : samples.Bounded t := by
    intro name reaches
    have mem := reaches.mem_of_closed [t, .named ⟨"", "Sample"⟩, .u8, .i64] (by decide +kernel)
      List.mem_cons_self
    obtain rfl : name = ⟨"", "Sample"⟩ := by simpa [t, TypeRef.vector, TypeRef.u8, TypeRef.i64] using mem
    intro embeds
    obtain ⟨d, f, next, found, own, isNamed⟩ := embeds.exists_field
    have flat : ((samples.findType? ⟨"", "Sample"⟩).all fun d =>
        d.instanceFields.all fun f => f.type.name?.isNone) = true := by decide +kernel
    rw [found] at flat
    have none := List.all_eq_true.mp flat f own
    rw [isNamed] at none
    cases none
  have extent : samples.extent (.named ⟨"", "Sample"⟩) = .ok ⟨16, 8⟩ := by cbv
  obtain ⟨-, -, inPlace⟩ := laid_of_isBlittable samples queries t yes bounded
  obtain ⟨e, extent', -, -, -, reads, -⟩ := inPlace _ (.inr rfl)
  cases extent.symm.trans extent'
  exact ⟨yes, bounded, extent, reads⟩

/-- A vector of numbers looks the same on both sides and is not stored in place; and a struct that is
a part of itself looks the same on both sides and has no extent. -/
theorem not_laid_of_isBlittable :
    (¬∀ (m : Module) (t : TypeRef), ((m.isBlittable t).run []).1 = .ok true →
      ∃ bytes, m.encode t (m.defaultValue t) = .ok bytes) ∧
    ¬∀ (m : Module) (t : TypeRef), ((m.isBlittable t).run []).1 = .ok true →
      ∃ e, m.extent t = .ok e := by
  constructor
  · intro all
    obtain ⟨bytes, encodes⟩ := all samples (.vector .i32) (by cbv)
    exact (samples.layout_vector .i32).2.2.1 _ _ encodes
  · intro all
    obtain ⟨e, extent⟩ := all samples (.named ⟨"", "Loop"⟩) (by cbv)
    have endless : samples.extent (.named ⟨"", "Loop"⟩) =
        .error (.unsupported (.endlessLayout ⟨"", "Loop"⟩)) := by cbv
    cases endless.symm.trans extent

end Module

end LateBind

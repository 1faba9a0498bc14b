import LateBind.Proofs.Statics

/-! # Values in native memory

A value that is written in place of a type takes exactly the bytes of the type. Any bytes of that
number are read as a value, and written again they are the same bytes, floats of 32 bits apart. -/

namespace LateBind

namespace Bytes

theorem toNat_lt (bytes : Bytes) : toNat bytes < 2 ^ (8 * bytes.length) := by
  induction bytes with
  | nil => simp [toNat]
  | cons b rest ih =>
    have low := b.toNat_lt
    have power : 2 ^ (8 * (rest.length + 1)) = 256 * 2 ^ (8 * rest.length) := by
      rw [Nat.mul_succ, Nat.pow_add, Nat.mul_comm]
    rw [toNat, List.length_cons, power]
    omega

/-- The bytes of the number that some bytes are. -/
theorem ofNat_toNat (bytes : Bytes) (n : Nat) (same : n % 2 ^ (8 * bytes.length) = toNat bytes) :
    ofNat bytes.length n = bytes := by
  induction bytes generalizing n with
  | nil => rfl
  | cons b rest ih =>
    have low := b.toNat_lt
    have power : 2 ^ (8 * (rest.length + 1)) = 256 * 2 ^ (8 * rest.length) := by
      rw [Nat.mul_succ, Nat.pow_add, Nat.mul_comm]
    rw [List.length_cons, power, Nat.mod_mul, toNat] at same
    have first : n % 256 = b.toNat := by omega
    have others : n / 256 % 2 ^ (8 * rest.length) = toNat rest := by omega
    rw [List.length_cons, ofNat, ih _ others]
    refine congrArg (· :: rest) (UInt8.toNat_inj.mp ?_)
    rw [UInt8.toNat_ofNat', first]

end Bytes

/-! ## Signs -/

/-- Extended with its sign, a number keeps its low bits. -/
theorem toNat_signExtend_mod {w v : Nat} (b : BitVec w) (le : w ≤ v) :
    (b.signExtend v).toNat % 2 ^ w = b.toNat := by
  have same : (b.signExtend v).setWidth w = b := by
    ext i hi
    rw [BitVec.getElem_setWidth, BitVec.getLsbD_signExtend]
    simp [hi, show i < v by omega]
  rw [← BitVec.toNat_setWidth, same]

/-- The pointer that an integer counts as has the integer's bits at its end. -/
theorem Value.toNat_mod_of_toPointer? {n : Int32} {w : UInt64}
    (pointer : (Value.i32 n).toPointer? = some w) : w.toNat % 2 ^ 32 = n.toUInt32.toNat := by
  cases pointer
  exact toNat_signExtend_mod n.toBitVec (by decide)

theorem Extent.size_finish_pos {e : Extent} (pos : 0 < e.align) : 0 < e.finish.size := by
  have some : 0 < (max e.size 1 + e.align - 1) / e.align := Nat.div_pos (by omega) pos
  exact Nat.mul_pos some pos

theorem Primitive.size_extent_pos {p : Primitive} {e : Extent} (known : p.extent = .ok e) :
    0 < e.size := by
  cases p <;> cases known <;> decide

namespace Module

variable {m : Module} {t : TypeRef} {v : Value} {bytes : Bytes} {n : Nat}

/-! ## Extents -/

section Extents

variable {active : List TypeName} {name : TypeName}

theorem namedExtent_of_mem (mem : name ∈ active) :
    m.namedExtent active name = .error (.unsupported (.endlessLayout name)) := by
  rw [namedExtent, dif_pos mem]

theorem namedExtent_of_none (fresh : name ∉ active) (unknown : m.findType? name = none) :
    m.namedExtent active name = .error (.unsupported (.unresolvedType name)) := by
  rw [namedExtent, dif_neg fresh]
  split
  · rfl
  · next found => cases found.symm.trans unknown

theorem namedExtent_of_some {t : TypeDef} (fresh : name ∉ active)
    (found : m.findType? name = some t) : m.namedExtent active name =
      match t.kind with
      | .enum underlying => underlying.extent
      | .structType =>
        (m.fieldsExtent (name :: active) .start (t.fields.filter fun f => !f.isStatic)).map
          Extent.finish
      | .classType | .delegate | .interface => .ok .ofPointer := by
  rw [namedExtent, dif_neg fresh]
  split
  · next unknown => cases unknown.symm.trans found
  · next found' =>
    cases found'.symm.trans found
    rfl

end Extents

theorem size_represent (m : Module) (t : TypeRef) : m.size (m.represent t) = m.size t := by
  cases t with
  | named name =>
    cases found : m.findType? name with
    | none => simp [represent, found]
    | some d =>
      cases kind : d.kind with
      | enum underlying =>
        have alike : m.represent (.named name) = .primitive underlying := by
          simp [represent, found, kind]
        have same : m.namedExtent [] name = underlying.extent := by
          rw [namedExtent_of_some List.not_mem_nil found, kind]
        rw [alike, size, size, extent, extent, same]
      | _ => simp [represent, found, kind]
  | _ => rfl

/-- What an enum stands for stands for itself. -/
theorem represent_represent (m : Module) (t : TypeRef) :
    m.represent (m.represent t) = m.represent t := by
  cases t with
  | named name =>
    cases found : (m.findType? name).map TypeDef.kind with
    | none => simp [represent, found]
    | some kind => cases kind <;> simp [represent, found]
  | _ => rfl

theorem length_of_encode (encodes : m.encode t v = .ok bytes) : m.size t = .ok bytes.length := by
  rw [← size_represent]
  unfold encode at encodes
  generalize m.represent t = t' at encodes ⊢
  dsimp only at encodes
  cases size : m.size t' with
  | error e =>
    rw [size] at encodes
    cases encodes
  | ok n =>
    simp only [size, bind, Except.bind] at encodes
    split at encodes
    · cases encodes
      cases size
      rfl
    · cases encodes
      cases size
      simp [Bytes.ofWord]
    · split at encodes
      · next length =>
        cases encodes
        rw [length]
      · cases encodes
    · split at encodes <;> cases encodes
      simp
    · split at encodes <;> cases encodes
      simp
    · cases encodes

/-! ## Sizes -/

theorem align_of_fieldsExtent {active : List TypeName} {before e : Extent} {fields : List FieldDef}
    (laid : m.fieldsExtent active before fields = .ok e) (pos : 0 < before.align) : 0 < e.align := by
  induction fields generalizing before with
  | nil =>
    rw [fieldsExtent] at laid
    cases laid
    exact pos
  | cons f rest ih =>
    rw [fieldsExtent] at laid
    split at laid
    · exact ih laid (Nat.lt_of_lt_of_le pos (Nat.le_max_left _ _))
    · cases laid

/-- A value takes a byte or more. -/
theorem size_pos (size : m.size t = .ok n) : 0 < n := by
  obtain ⟨e, extent, rfl⟩ : ∃ e, m.extent t = .ok e ∧ e.size = n := by
    unfold Module.size at size
    cases laid : m.extent t with
    | error fault =>
      rw [laid] at size
      cases size
    | ok e =>
      rw [laid] at size
      exact ⟨e, rfl, Except.ok.inj size⟩
  cases t with
  | primitive p => exact Primitive.size_extent_pos extent
  | named name =>
    change m.namedExtent [] name = .ok e at extent
    cases found : m.findType? name with
    | none =>
      rw [namedExtent_of_none List.not_mem_nil found] at extent
      cases extent
    | some d =>
      rw [namedExtent_of_some List.not_mem_nil found] at extent
      split at extent
      · exact Primitive.size_extent_pos extent
      · cases fields : m.fieldsExtent [name] .start (d.fields.filter fun f => !f.isStatic) with
        | error fault =>
          rw [fields] at extent
          cases extent
        | ok all =>
          rw [fields] at extent
          cases extent
          exact Extent.size_finish_pos (align_of_fieldsExtent fields Nat.one_pos)
      all_goals
        cases extent
        decide
  | _ =>
    cases extent
    decide

/-- Any bytes of a number are a value of the type. -/
structure LaysOut (m : Module) (t : TypeRef) (n : Nat) : Prop where
  size : m.size t = .ok n
  inPlace : match m.represent t with
    | .primitive p => p.isReference = false
    | .pointer _ | .named _ => True
    | .array _ _ | .byRef _ => False

theorem LaysOut.decode_isOk (lays : m.LaysOut t n) (enough : n ≤ bytes.length) :
    ∃ v, m.decode t bytes = .ok v := by
  obtain ⟨size, inPlace⟩ := lays
  rw [← size_represent] at size
  unfold decode
  generalize m.represent t = t' at size inPlace ⊢
  simp only [size, bind, Except.bind, if_neg (Nat.not_lt.mpr enough)]
  cases t' with
  | primitive p =>
    cases p with
    | void => cases size
    | string => cases inPlace
    | object => cases inPlace
    | _ => exact ⟨_, rfl⟩
  | pointer _ => exact ⟨_, rfl⟩
  | named _ => exact ⟨_, rfl⟩
  | array _ _ => cases inPlace
  | byRef _ => cases inPlace

/-- The bytes of a pointer-sized number whose low bits are read from bytes. -/
theorem ofNat_of_low {i : Int32} {k : Nat} (small : k ≤ 4) (length : bytes.length = k)
    (read : i.toUInt32.toNat % 2 ^ (8 * k) = Bytes.toNat bytes) :
    Bytes.ofNat k i.toInt64.toUInt64.toNat = bytes := by
  subst length
  refine Bytes.ofNat_toNat bytes _ ?_
  rw [← read, ← Value.toNat_mod_of_toPointer? (n := i) rfl]
  refine (Nat.mod_mod_of_dvd _ (Nat.pow_dvd_pow 2 ?_)).symm
  omega

/-- The bytes of a word that is read from bytes. -/
theorem ofNat_of_word (length : bytes.length = 8) {w : UInt64}
    (read : w = UInt64.ofNat (Bytes.toNat bytes)) : Bytes.ofNat 8 w.toNat = bytes := by
  have low := Bytes.toNat_lt bytes
  rw [length] at low
  subst read
  rw [← length]
  refine Bytes.ofNat_toNat bytes _ ?_
  rw [length, UInt64.toNat_ofNat']
  omega

theorem size?_of_size {p : Primitive} (size : m.size (.primitive p) = .ok n) : p.size? = some n := by
  cases p <;> first | (cases size; rfl) | cases size

/-- What is read from bytes is written as those bytes, but for floats of 32 bits, whose payloads may
change. -/
theorem encode_of_decode (decodes : m.decode t bytes = .ok v) (size : m.size t = .ok n)
    (exact : m.represent t ≠ .primitive .f32) : m.encode t v = .ok (bytes.take n) := by
  rw [← size_represent] at size
  unfold decode at decodes
  unfold encode
  generalize m.represent t = t' at size decodes exact ⊢
  simp only [size, bind, Except.bind] at decodes ⊢
  split at decodes
  · cases decodes
  next enough =>
    have length : (bytes.take n).length = n := List.length_take_of_le (Nat.not_lt.mp enough)
    have low := Bytes.toNat_lt (bytes.take n)
    rw [length] at low
    cases t' with
    | primitive p =>
      have known := size?_of_size size
      have small : n ≤ 8 := by cases p <;> cases known <;> decide
      rw [Nat.min_eq_left small] at decodes
      generalize bytes.take n = piece at length low decodes ⊢
      cases p with
      | void => cases known
      | string => cases decodes
      | object => cases decodes
      | f32 => exact absurd rfl exact
      | boolean | char | u8 | u16 | i32 | u32 =>
        cases known
        cases decodes
        refine congrArg Except.ok (ofNat_of_low (by decide) length ?_)
        rw [Int32.toUInt32_ofNat', UInt32.toNat_ofNat']
        omega
      | i8 =>
        cases known
        cases decodes
        have signed := toNat_signExtend_mod (Int8.ofNat (Bytes.toNat piece)).toBitVec
          (show 8 ≤ 32 by decide)
        refine congrArg Except.ok (ofNat_of_low (by decide) length (signed.trans ?_))
        exact Nat.mod_eq_of_lt low
      | i16 =>
        cases known
        cases decodes
        have signed := toNat_signExtend_mod (Int16.ofNat (Bytes.toNat piece)).toBitVec
          (show 16 ≤ 32 by decide)
        refine congrArg Except.ok (ofNat_of_low (by decide) length (signed.trans ?_))
        exact Nat.mod_eq_of_lt low
      | i64 | u64 =>
        cases known
        cases decodes
        exact congrArg Except.ok (ofNat_of_word length rfl)
      | f64 | intPtr | uintPtr =>
        cases known
        cases decodes
        exact congrArg Except.ok (ofNat_of_word length rfl)
    | pointer target =>
      cases size
      cases decodes
      exact congrArg Except.ok (ofNat_of_word length rfl)
    | named name =>
      cases decodes
      exact if_pos length
    | array _ _ => cases decodes
    | byRef _ => cases decodes

/-- What lies behind a value does not matter. -/
theorem decode_take (size : m.size t = .ok n) {k : Nat} (le : n ≤ k) (bytes : Bytes) :
    m.decode t (bytes.take k) = m.decode t bytes := by
  have length : (bytes.take k).length = min k bytes.length := List.length_take
  rw [← size_represent] at size
  unfold decode
  generalize m.represent t = t' at size ⊢
  simp only [size, bind, Except.bind]
  by_cases short : bytes.length < n
  · rw [List.take_of_length_le (by omega)]
  · rw [if_neg (by omega), if_neg short, List.take_take, List.take_take,
      Nat.min_eq_left (show min n 8 ≤ k by omega), Nat.min_eq_left le]

/-- What was read and is written again is read as the same. -/
theorem decode_of_encode_of_decode {written : Bytes} (decodes : m.decode t bytes = .ok v)
    (size : m.size t = .ok n) (exact : m.represent t ≠ .primitive .f32)
    (encodes : m.encode t v = .ok written) : m.decode t written = .ok v := by
  rw [encode_of_decode decodes size exact] at encodes
  cases encodes
  rw [decode_take size (Nat.le_refl n), decodes]

end Module

end LateBind

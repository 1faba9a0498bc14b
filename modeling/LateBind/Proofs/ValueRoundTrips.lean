import LateBind.Module.Construction
import LateBind.Proofs.Layouts

/-! # Values there and back

A value that was read from bytes is written as those bytes, comes back from native code as it went
there, and is found again in a static field that it was stored in. -/

namespace LateBind

/-- Up to eight bytes are the first ones of their word. -/
theorem Bytes.take_ofWord_toWord {bytes : Bytes} (small : bytes.length ≤ 8) :
    (ofWord bytes.toWord).take bytes.length = bytes := by
  have low : toNat bytes < 2 ^ 64 :=
    Nat.lt_of_lt_of_le (toNat_lt bytes) (Nat.pow_le_pow_right (by decide) (by omega))
  have word : bytes.toWord.toNat = toNat bytes := by
    rw [toWord, List.take_of_length_le small, UInt64.toNat_ofNat', Nat.mod_eq_of_lt low]
  have read : toNat ((ofWord bytes.toWord).take bytes.length) = toNat bytes := by
    rw [toNat_take_ofWord small, word, Nat.mod_eq_of_lt (toNat_lt bytes)]
  have length : ((ofWord bytes.toWord).take bytes.length).length = bytes.length := by
    rw [List.length_take, ofWord, length_ofNat, Nat.min_eq_left small]
  have there := ofNat_toNat ((ofWord bytes.toWord).take bytes.length) (toNat bytes) (by
    rw [length, read]
    exact Nat.mod_eq_of_lt (toNat_lt bytes))
  have back := ofNat_toNat bytes (toNat bytes) (Nat.mod_eq_of_lt (toNat_lt bytes))
  rw [length, back] at there
  exact there.symm

/-- A mask of ones keeps a number that has no other bits. -/
theorem Int32.ofNat_and_mask {word k : Nat} (low : word < 2 ^ k) (small : k < 32) :
    Int32.ofNat word &&& Int32.ofNat (2 ^ k - 1) = Int32.ofNat word := by
  have lt : 2 ^ k < 2 ^ 32 := Nat.pow_lt_pow_right (by decide) small
  apply Int32.toBitVec_inj.mp
  apply BitVec.eq_of_toNat_eq
  rw [Int32.toBitVec_and, BitVec.toNat_and, Int32.toBitVec_ofNat', Int32.toBitVec_ofNat',
    BitVec.toNat_ofNat, BitVec.toNat_ofNat, Nat.mod_eq_of_lt (by omega : word < 2 ^ 32),
    Nat.mod_eq_of_lt (by omega : 2 ^ k - 1 < 2 ^ 32), Nat.and_two_pow_sub_one_eq_mod,
    Nat.mod_eq_of_lt low]

namespace Module

variable {m : Module} {t : TypeRef} {v : Value} {bytes : Bytes} {n : Nat} {p : Primitive}

/-! ## Reading -/

theorem size_of_decode (decodes : m.decode t bytes = .ok v) :
    ∃ n, m.size t = .ok n ∧ n ≤ bytes.length := by
  rw [← size_represent]
  unfold decode at decodes
  generalize m.represent t = t' at decodes ⊢
  dsimp only at decodes
  cases size : m.size t' with
  | error e =>
    rw [size] at decodes
    cases decodes
  | ok n =>
    simp only [size, bind, Except.bind] at decodes
    split at decodes
    · cases decodes
    · next enough => exact ⟨n, rfl, Nat.not_lt.mp enough⟩

theorem not_isVoid_of_size (size : m.size t = .ok n) : t.isVoid = false := by
  cases t with
  | primitive p =>
    cases p with
    | void => cases size
    | _ => rfl
  | _ => rfl

theorem decode_represent : m.decode (m.represent t) bytes = m.decode t bytes := by
  unfold decode
  rw [represent_represent]

/-! ## Native code -/

/-- A number that was read from the bytes of a small type is not cut. -/
theorem narrowTo_of_decode {i : Int32} (known : p.size?.any (· ≤ 4)) (float : p ≠ .f32)
    (decodes : m.decode (.primitive p) bytes = .ok (.i32 i)) : narrowTo p i = i := by
  obtain ⟨n, size, enough⟩ := size_of_decode decodes
  have knownSize := size?_of_size size
  unfold decode at decodes
  simp only [represent, size, bind, Except.bind, if_neg (Nat.not_lt.mpr enough)] at decodes
  have small : n ≤ 8 := by cases p <;> cases knownSize <;> decide
  rw [Nat.min_eq_left small] at decodes
  have low := Bytes.toNat_lt (bytes.take n)
  rw [List.length_take_of_le enough] at low
  cases p with
  | boolean | u8 | char | u16 =>
    cases knownSize
    cases decodes
    exact Int32.ofNat_and_mask low (by decide)
  | i8 =>
    cases decodes
    exact congrArg Int8.toInt32 (Int8.toInt8_toInt32 _)
  | i16 =>
    cases decodes
    exact congrArg Int16.toInt32 (Int16.toInt16_toInt32 _)
  | i32 | u32 => rfl
  | f32 => exact absurd rfl float
  | _ => cases known

/-- What was read comes back from native code as it went there. -/
theorem ofNative_of_toNative {x : NativeValue} (decodes : m.decode t bytes = .ok v)
    (converts : m.toNative t v = .ok x) : m.ofNative t x = .ok (some v) := by
  obtain ⟨n, size, enough⟩ := size_of_decode decodes
  rw [ofNative, if_neg (by simp [not_isVoid_of_size size])]
  rw [← decode_represent] at decodes
  rw [← size_represent] at size
  have itself := m.represent_represent t
  unfold toNative at converts
  generalize m.represent t = t' at decodes size itself converts ⊢
  have read := decodes
  unfold decode at read
  simp only [itself, size, bind, Except.bind, if_neg (Nat.not_lt.mpr enough)] at read
  cases t' with
  | primitive p =>
    cases p with
    | boolean | char | i8 | u8 | i16 | u16 | i32 | u32 =>
      cases read
      cases converts
      refine congrArg (fun i => Except.ok (some (Value.i32 i))) ?_
      exact narrowTo_of_decode (by decide) (by decide) decodes
    | void | string | object => cases read
    | _ =>
      cases read
      cases converts
      rfl
  | pointer target =>
    cases read
    cases converts
    rfl
  | named name =>
    cases read
    cases converts
    dsimp only
    rw [decode_take size (Nat.le_refl n), decodes]
    rfl
  | array _ _ => cases converts
  | byRef _ => cases converts

end Module

namespace Machine

variable {m : Machine} {t : TypeRef} {v : Value} {bytes : Bytes} {n : Nat}

/-! ## Static fields -/

/-- A scalar fits in a word. -/
theorem size_of_isScalar (scalar : isScalar m.module t) (size : m.module.size t = .ok n) :
    n ≤ 8 := by
  have primitive {p : Primitive} (size : m.module.size (.primitive p) = .ok n) : n ≤ 8 := by
    have known := Module.size?_of_size size
    cases p <;> cases known <;> decide
  cases t with
  | primitive p => exact primitive size
  | pointer _ =>
    cases size
    decide
  | named name =>
    rw [← Module.size_represent, Module.represent] at size
    rw [isScalar] at scalar
    split at scalar
    · next underlying kind =>
      rw [kind] at size
      exact primitive size
    · cases scalar
  | array _ _ => cases scalar
  | byRef _ => cases scalar

/-- The word of a cell that a value was stored in is read as the value. -/
theorem decode_stored {written : Bytes} (scalar : isScalar m.module t)
    (decodes : m.module.decode t bytes = .ok v) (exact : m.module.represent t ≠ .primitive .f32)
    (encodes : m.module.encode t v = .ok written) :
    m.module.decode t (Bytes.ofWord written.toWord) = .ok v := by
  obtain ⟨n, size, -⟩ := Module.size_of_decode decodes
  have small := size_of_isScalar scalar size
  have length : written.length = n := by
    have size' := Module.length_of_encode encodes
    rw [size] at size'
    exact (Except.ok.inj size').symm
  subst length
  rw [← Module.decode_take size (Nat.le_refl _) (Bytes.ofWord written.toWord),
    Bytes.take_ofWord_toWord small]
  exact Module.decode_of_encode_of_decode decodes size exact encodes

theorem loadStatic_storeStatic {s : MachineState} {f : FieldRef} {c : StaticCell} {written : Bytes}
    (found : cell? s f.owner f.name = some c) (scalar : isScalar m.module c.type)
    (decodes : m.module.decode c.type bytes = .ok v)
    (exact : m.module.represent c.type ≠ .primitive .f32)
    (encodes : m.module.encode c.type v = .ok written) :
    m.loadStatic f (s.setStatic f written.toWord) = (.ok v, s.setStatic f written.toWord) := by
  have key := List.find?_some found
  simp only [Bool.and_eq_true, beq_iff_eq] at key
  have found' : cell? (s.setStatic f written.toWord) f.owner f.name =
      some { c with word := written.toWord } := by
    rw [MachineState.cell?_setStatic, found, Option.map_some, if_pos key]
  exact loadStatic_cell found' (decode_stored scalar decodes exact encodes)

/-! ## There and back -/

/-- Floats of 32 bits apart, a value takes the bytes of its type. One that was read from bytes is
written as those bytes, is the same after a way to native code and back, and is the same after a
stay in a static field, which changes nothing else. -/
theorem value_roundTrip (m : Machine) (t : TypeRef)
    (exact : m.module.represent t ≠ .primitive .f32) :
    (∀ v bytes, m.module.encode t v = .ok bytes → m.module.size t = .ok bytes.length) ∧
    ∀ bytes v, m.module.decode t bytes = .ok v →
      (∃ n, m.module.size t = .ok n ∧ n ≤ bytes.length ∧
        m.module.encode t v = .ok (bytes.take n)) ∧
      (∀ x, m.module.toNative t v = .ok x → m.module.ofNative t x = .ok (some v)) ∧
      (isScalar m.module t → ∀ s f c, cell? s f.owner f.name = some c → c.type = t →
        ∃ s', m.storeStatic f v s = (.ok (), s') ∧ m.loadStatic f s' = (.ok v, s') ∧
          { s' with statics := s.statics } = s ∧
          ∀ owner name, owner ≠ f.owner ∨ name ≠ f.name →
            cell? s' owner name = cell? s owner name) := by
  refine ⟨fun v bytes encodes => Module.length_of_encode encodes, fun bytes v decodes => ?_⟩
  obtain ⟨n, size, enough⟩ := Module.size_of_decode decodes
  have encodes := Module.encode_of_decode decodes size exact
  refine ⟨⟨n, size, enough, encodes⟩, fun x => Module.ofNative_of_toNative decodes, ?_⟩
  rintro scalar s f c found rfl
  exact ⟨s.setStatic f (Bytes.toWord (bytes.take n)), storeStatic_cell found encodes,
    loadStatic_storeStatic found scalar decodes exact encodes, rfl,
    fun owner name other => MachineState.cell?_setStatic_of_ne other⟩

/-- A gauge whose level has two bytes and a sign. -/
def gauge : Module :=
  ((Module.start "gauge" Uuid.zero).withType (TypeDef.enumOf "Level" .i16)).withType
    (((TypeDef.ofKind "Gauge" .classType).withStaticField "level"
      (.named ⟨"", "Level"⟩)).withStaticField "peak" .i32)

theorem value_roundTrip_gauge :
    let m : Machine := ⟨gauge, .empty .linux⟩
    let t : TypeRef := .named ⟨"", "Level"⟩
    let f : FieldRef := ⟨⟨"", "Gauge"⟩, "level", t⟩
    let s : MachineState := ⟨.start, staticCells gauge, #[], []⟩
    gauge.represent t ≠ .primitive .f32 ∧
    gauge.decode t [0xFE, 0xFF, 0x07] = .ok (.i32 (-2)) ∧
    gauge.encode t (.i32 (-2)) = .ok [0xFE, 0xFF] ∧
    gauge.ofNative t (.i32 (-2)) = .ok (some (.i32 (-2))) ∧
    ∃ s', m.storeStatic f (.i32 (-2)) s = (.ok (), s') ∧ m.loadStatic f s' = (.ok (.i32 (-2)), s') ∧
      cell? s' ⟨"", "Gauge"⟩ "peak" = some ⟨⟨"", "Gauge"⟩, "peak", .i32, 0⟩ := by
  intro m t f s
  have exact : gauge.represent t ≠ .primitive .f32 := by decide
  have decodes : gauge.decode t [0xFE, 0xFF, 0x07] = .ok (.i32 (-2)) := by cbv
  have size : gauge.size t = .ok 2 := by cbv
  have passes : gauge.toNative t (.i32 (-2)) = .ok (.i32 (-2)) := by cbv
  obtain ⟨⟨n, size', -, encodes⟩, returns, stores⟩ := (value_roundTrip m t exact).2 _ _ decodes
  obtain ⟨s', stored, loaded, -, others⟩ := stores (by decide) s f _ rfl rfl
  rw [size] at size'
  cases size'
  exact ⟨exact, decodes, encodes, returns _ passes, s', stored, loaded,
    (others _ _ (.inr (by decide))).trans (by decide)⟩

end Machine

end LateBind

import LateBind.Proofs.LoaderSequences
import LateBind.Proofs.Narrowing
import LateBind.Proofs.PinnedData
import LateBind.Proofs.Texts

/-! # ANSI copies of strings

A string crosses as ANSI in two forms. A byte array that the helper type makes and that is pinned
keeps the low byte of each unit; the copies of elements of arrays and of arguments of import stubs
keep each character of a byte, and a question mark for any other. -/

namespace LateBind

open Machine

namespace Units

/-- A high surrogate stands in front of a low one. -/
def HasPair (units : Units) : Prop :=
  ∃ front high low rest, units = front ++ high :: low :: rest ∧ isHighSurrogate high = true ∧
    isLowSurrogate low = true

theorem HasPair.cons {units : Units} (pair : units.HasPair) (u : UInt16) :
    HasPair (u :: units) := by
  obtain ⟨front, high, low, rest, rfl, isHigh, isLow⟩ := pair
  exact ⟨u :: front, high, low, rest, rfl, isHigh, isLow⟩

theorem hasPair_cons_iff {u v : UInt16} {rest : Units} :
    HasPair (u :: v :: rest) ↔
      (isHighSurrogate u = true ∧ isLowSurrogate v = true) ∨ HasPair (v :: rest) := by
  constructor
  · rintro ⟨front, high, low, rest', eq, isHigh, isLow⟩
    cases front with
    | nil =>
      cases eq
      exact .inl ⟨isHigh, isLow⟩
    | cons w front =>
      obtain ⟨-, eq⟩ := List.cons.inj eq
      exact .inr ⟨front, high, low, rest', eq, isHigh, isLow⟩
  · rintro (⟨isHigh, isLow⟩ | pair)
    · exact ⟨[], u, v, rest, rfl, isHigh, isLow⟩
    · exact pair.cons u

theorem not_hasPair_singleton (u : UInt16) : ¬HasPair [u] := by
  rintro ⟨front, high, low, rest, eq, -⟩
  have lengths := congrArg List.length eq
  simp at lengths
  omega

theorem length_toChars_le (units : Units) : units.toChars.length ≤ units.length := by
  fun_induction toChars units with
  | case1 => simp
  | case2 => simp
  | _ => simp_all; try omega

end Units

namespace Latin1

/-- The byte of a unit that is no half of a pair. -/
theorem byteOfChar_unit (u : UInt16) :
    byteOfChar (if Units.isHighSurrogate u || Units.isLowSurrogate u then '\uFFFD'
      else Char.ofNat u.toNat) = if u.toNat ≤ 0xFF then u.toUInt8 else 0x3F := by
  have bound := u.toNat_lt
  by_cases surrogate : Units.isHighSurrogate u || Units.isLowSurrogate u
  · have high : ¬u.toNat ≤ 0xFF := by
      simp only [Units.isHighSurrogate, Units.isLowSurrogate, Bool.or_eq_true, Bool.and_eq_true,
        decide_eq_true_eq, UInt16.le_iff_toNat_le] at surrogate
      simp at surrogate
      omega
    rw [if_pos surrogate, if_neg high]
    decide
  · have valid : u.toNat.isValidChar := by
      simp only [Units.isHighSurrogate, Units.isLowSurrogate, Bool.or_eq_true, Bool.and_eq_true,
        decide_eq_true_eq, UInt16.le_iff_toNat_le, UInt16.lt_iff_toNat_lt] at surrogate
      simp at surrogate
      rw [Nat.isValidChar]
      omega
    have number : (Char.ofNat u.toNat).toNat = u.toNat := by
      rw [Char.ofNat, dif_pos valid]
      rfl
    rw [if_neg surrogate, byteOfChar, number]
    split
    · exact UInt8.toNat_inj.mp (by simp)
    · rfl

/-- Narrowing and encoding a unit give one byte when the unit has no byte of its own but that of
the question mark. -/
theorem narrow_eq_iff (u : UInt16) : u.toUInt8 = (if u.toNat ≤ 0xFF then u.toUInt8 else 0x3F) ↔
    u.toNat ≤ 0xFF ∨ u.toUInt8 = 0x3F := by
  split
  · next small => simp [small]
  · next large => simp [large]

theorem lowBytes_eq_encode_iff (units : Units) : lowBytes units = encode units.toText ↔
    (∀ u ∈ units, u.toNat ≤ 0xFF ∨ u.toUInt8 = 0x3F) ∧ ¬units.HasPair := by
  have text (units : Units) : encode units.toText = units.toChars.map byteOfChar := by
    rw [encode, Units.toText, String.toList_ofList]
  rw [text]
  have step {u v : UInt16} {rest : Units}
      (alone : ¬(Units.isHighSurrogate u = true ∧ Units.isLowSurrogate v = true))
      (ih : lowBytes (v :: rest) = (Units.toChars (v :: rest)).map byteOfChar ↔
        (∀ u ∈ v :: rest, u.toNat ≤ 0xFF ∨ u.toUInt8 = 0x3F) ∧ ¬Units.HasPair (v :: rest)) :
      lowBytes (u :: v :: rest) = (if u.toNat ≤ 0xFF then u.toUInt8 else 0x3F) ::
          (Units.toChars (v :: rest)).map byteOfChar ↔
        (∀ w ∈ u :: v :: rest, w.toNat ≤ 0xFF ∨ w.toUInt8 = 0x3F) ∧
          ¬Units.HasPair (u :: v :: rest) := by
    have first : lowBytes (u :: v :: rest) = u.toUInt8 :: lowBytes (v :: rest) := rfl
    rw [first, List.cons.injEq, narrow_eq_iff, ih, Units.hasPair_cons_iff, or_iff_right alone,
      List.forall_mem_cons (a := u), and_assoc]
  fun_induction Units.toChars units with
  | case1 =>
    have none : ¬Units.HasPair [] := by
      rintro ⟨front, high, low, rest, eq, -⟩
      exact absurd eq (by simp)
    simp [none, lowBytes]
  | case2 u =>
    have byte := byteOfChar_unit u
    rw [List.map_singleton, byte]
    simp only [lowBytes, List.map_singleton, List.cons.injEq, and_true, narrow_eq_iff,
      List.forall_mem_singleton, Units.not_hasPair_singleton, not_false_eq_true]
  | case3 u v rest high low ih =>
    -- A pair is one character, so that its text has fewer bytes than units.
    have short := Units.length_toChars_le rest
    refine iff_of_false (fun same => ?_) fun alike => alike.2 ⟨[], u, v, rest, rfl, high, low⟩
    have lengths := congrArg List.length same
    simp [lowBytes] at lengths
    omega
  | case4 u v rest high low ih =>
    have byte := byteOfChar_unit u
    rw [if_pos (by simp [high])] at byte
    rw [List.map_cons, byte]
    exact step (by simp [low]) ih
  | case5 u v rest high low ih =>
    have byte := byteOfChar_unit u
    rw [if_pos (by simp [low])] at byte
    rw [List.map_cons, byte]
    exact step (by simp [high]) ih
  | case6 u v rest high low ih =>
    have byte := byteOfChar_unit u
    rw [if_neg (by simp [high, low])] at byte
    rw [List.map_cons, byte]
    exact step (by simp [high]) ih

end Latin1

/-! ## Copies -/

theorem Module.encode_u8 (m : Module) (b : UInt8) :
    m.encode .u8 (.i32 (Int32.ofNat b.toNat)) = .ok [b] := by
  have decoded : m.decode .u8 [b] = .ok (.i32 (Int32.ofNat b.toNat)) := by
    have number : Bytes.toNat [b] = b.toNat := by simp [Bytes.toNat]
    exact congrArg (fun n => Except.ok (Value.i32 (Int32.ofNat n))) number
  have size : m.size .u8 = .ok 1 := rfl
  have whole : m.represent .u8 ≠ .primitive .f32 := by
    intro same
    cases same
  exact encode_of_decode decoded size whole

/-- The copy of a byte array is the bytes. -/
theorem images_ofBytes {m : Module} {objects : Array Object} {r : ObjRef} {bytes : Bytes}
    (isBytes : objects[r.index]? = some (.ofBytes bytes)) (some : 0 < bytes.length) :
    PinSource.Images m objects (.elements r 0) bytes := by
  have encodes : List.Forall₂ (fun v piece => m.encode .u8 v = .ok piece)
      (bytes.map fun b => Value.i32 (Int32.ofNat b.toNat)) (bytes.map fun b => [b]) := by
    rw [List.forall₂_map_left_iff, List.forall₂_map_right_iff, List.forall₂_same]
    exact fun b _ => m.encode_u8 b
  have images : PinSource.Images m objects (.elements r 0) (bytes.map fun b => [b]).flatten :=
    .elements isBytes (by simpa using some) ⟨rfl, rfl⟩ encodes
  have whole : (bytes.map fun b => [b]).flatten = bytes := by
    rw [← List.flatMap_def, List.flatMap_singleton']
  rwa [whole] at images

theorem Machine.Ends.unique {m : Machine} {callee : OwnedMethod} {args : List Value}
    {s s₁ s₂ : MachineState} {result result' : Except Trap (Option Value)}
    (ends : m.Ends callee args s result s₁) (ends' : m.Ends callee args s result' s₂) :
    result = result' ∧ s₁ = s₂ := by
  obtain ⟨enough, go, -⟩ := ends
  obtain ⟨enough', go', -⟩ := ends'
  exact Prod.mk.inj ((go _ (Nat.le_max_left _ enough')).symm.trans (go' _ (Nat.le_max_right _ _)))

theorem Heap.Latest.unique {h : Heap} {start : UInt64} {bytes bytes' : Bytes}
    (latest : h.Latest start bytes) (latest' : h.Latest start bytes') : bytes = bytes' :=
  Option.some.inj (latest.readToEnd?.symm.trans latest'.readToEnd?)

/-- What native code finds at the address that it is given for a string: as an argument of a stub
that was bound late, which is the copy of a byte array; as an element of an array of strings; and as
an argument of an import stub whose string mode is not Unicode. -/
structure Machine.AnsiCopies (m : Machine) (helper : TypeName) (r : ObjRef) (s : MachineState)
    (argument element declared : Bytes) : Prop where
  argument : ∃ array s₁ address s₂,
    m.Ends ⟨helper, Helper.ansiBytesDef⟩ [.ref r] s (.ok (some (.ref array))) s₁ ∧
      m.pinAddress (.element array 0) s₁ = (.ok address, s₂) ∧
      s₂.native.heap.Latest address argument
  element : ∃ address s₁,
    RuntimeMember.stringToHGlobalAnsi.call m.world.catalog.platform [.ref r] s =
        (.ok (some (.ptr address)), s₁) ∧ s₁.native.heap.Latest address element
  declared : ∀ charSet ≠ .unicode, ∃ address s₁,
    m.passArgument charSet .string (.ref r) s = (.ok (.ptr address, some address), s₁) ∧
      s₁.native.heap.Latest address declared

namespace Machine.AnsiCopies

variable {m : Machine} {helper : TypeName} {flags : Int32} {s : MachineState} {r : ObjRef}
  {units : Units} {argument element declared : Bytes}

theorem of_text (h : m.HasHelper helper flags) (text : s.objects[r.index]? = some (.str units))
    (short : units.length < 2 ^ 31 - 1) (fresh : ∀ p ∈ s.pins, p.source ≠ .elements ⟨s.objects.size⟩ 0) :
    m.AnsiCopies helper r s (Latin1.lowBytes units ++ [0]) (Latin1.encode units.toText ++ [0])
      (Latin1.encode units.toText ++ [0]) where
  argument := by
    have isBytes := MachineState.object_withObject_new s (.ofBytes (Latin1.lowBytes units ++ [0]))
    exact ⟨_, _, _, _, Helper.ansiBytes_ends h text short,
      pin_new fresh (images_ofBytes isBytes (by simp)), Heap.latest_allocBytes _ _ _⟩
  element := by
    refine ⟨s.native.heap.nextAddress, s.withHeap (s.native.heap.allocBytes _ .hglobal).2, ?_,
      Heap.latest_allocBytes _ _ _⟩
    simp [RuntimeMember.call, RuntimeMember.copyString, RuntimeMember.stringUnits_ref text,
      Exec.allocBytes, Exec.setHeap]
    rfl
  declared charSet notUnicode := by
    refine ⟨_, _, passArgument_string charSet text, ?_⟩
    have encoded : encodeString charSet units = Latin1.encode units.toText ++ [0] := by
      cases charSet with
      | unicode => exact absurd rfl notUnicode
      | _ => rfl
    rw [encoded]
    exact Heap.latest_allocBytes _ _ _

/-- There is no choice in what native code finds. -/
theorem unique {argument' element' declared' : Bytes}
    (copies : m.AnsiCopies helper r s argument element declared)
    (copies' : m.AnsiCopies helper r s argument' element' declared') :
    argument = argument' ∧ element = element' := by
  obtain ⟨array, s₁, address, s₂, ends, pinned, latest⟩ := copies.argument
  obtain ⟨array', s₁', address', s₂', ends', pinned', latest'⟩ := copies'.argument
  obtain ⟨same, rfl⟩ := ends.unique ends'
  cases same
  cases pinned.symm.trans pinned'
  obtain ⟨address, s₁, made, found⟩ := copies.element
  obtain ⟨address', s₁', made', found'⟩ := copies'.element
  cases made.symm.trans made'
  exact ⟨latest.unique latest', found.unique found'⟩

end Machine.AnsiCopies

/-- In a module that was bound late a string crosses as ANSI with the low bytes of its units when it
is an argument, and with one byte for each character when it is an element of an array or the argument
of an import stub. These bytes are the same for the strings without surrogate pairs whose units above
255 have the low byte of a question mark. -/
theorem Module.ansiCopies_of_bindLate {original : Module} {c : Config} {id : Uuid} {out : LateBound}
    (bindsLate : original.bindLate c id = .ok out)
    (eligible : original.eligibleStubs c.exclusions ≠ []) (spares : original.Spares c.helperType)
    (framework : ∀ member : RuntimeMember, ∀ t ∈ out.module.types, t.name ≠ member.ref.owner)
    (w : World) {s : MachineState} {r : ObjRef} {units : Units}
    (text : s.objects[r.index]? = some (.str units)) (short : units.length < 2 ^ 31 - 1)
    (fresh : ∀ p ∈ s.pins, p.source ≠ .elements ⟨s.objects.size⟩ 0) :
    (⟨out.module, w⟩ : Machine).AnsiCopies c.helperType r s (Latin1.lowBytes units ++ [0])
        (Latin1.encode units.toText ++ [0]) (Latin1.encode units.toText ++ [0]) ∧
      (Latin1.lowBytes units ++ [0] = Latin1.encode units.toText ++ [0] ↔
        (∀ u ∈ units, u.toNat ≤ 0xFF ∨ u.toUInt8 = 0x3F) ∧ ¬units.HasPair) := by
  obtain ⟨types, bound⟩ : ∃ types, Helper.IsBound ⟨out.module, w⟩ types c.helperType c.loadFlags :=
    isBound_of_bindLate bindsLate eligible spares framework rfl
  refine ⟨.of_text bound.hasHelper text short fresh, ?_⟩
  rw [List.append_left_inj]
  exact Latin1.lowBytes_eq_encode_iff units

/-- A session with one string. -/
def MachineState.saying (text : String) : MachineState :=
  ⟨.start, [], #[.str (Units.ofString text)], []⟩

theorem Module.exists_bound_twins : ∃ out, twins.bindLate Config.default Uuid.zero = .ok out ∧
    ∀ member : RuntimeMember, ∀ t ∈ out.module.types, t.name ≠ member.ref.owner := by
  have known : Platform.linux.IsUnixOrWindows := .unix (by decide)
  obtain ⟨out, -, -, ok, framework, -⟩ := exists_load_twins (w := .empty .linux) known.endsLines
  exact ⟨out, ok, framework⟩

/-- Latin-1 text is the same in all three ways. -/
theorem Module.ansiCopies_cafe : ∃ out, twins.bindLate Config.default Uuid.zero = .ok out ∧
    (⟨out.module, .empty .linux⟩ : Machine).AnsiCopies Config.default.helperType ⟨0⟩ (.saying "café")
      [0x63, 0x61, 0x66, 0xE9, 0] [0x63, 0x61, 0x66, 0xE9, 0] [0x63, 0x61, 0x66, 0xE9, 0] := by
  obtain ⟨out, ok, framework⟩ := exists_bound_twins
  obtain ⟨copies, -⟩ := ansiCopies_of_bindLate ok eligibleStubs_twins spares_twins framework
    (.empty .linux) (s := .saying "café") (r := ⟨0⟩) rfl (by decide) nofun
  exact ⟨out, ok, copies⟩

/-- A face is a colon in the byte array and a question mark elsewhere. -/
theorem Module.not_ansiCopies_face : ∃ out, twins.bindLate Config.default Uuid.zero = .ok out ∧
    ¬∃ bytes, (⟨out.module, .empty .linux⟩ : Machine).AnsiCopies Config.default.helperType ⟨0⟩
      (.saying "☺") bytes bytes bytes := by
  obtain ⟨out, ok, framework⟩ := exists_bound_twins
  obtain ⟨types, bound⟩ : ∃ types, Helper.IsBound ⟨out.module, .empty .linux⟩ types
      Config.default.helperType Config.default.loadFlags :=
    isBound_of_bindLate ok eligibleStubs_twins spares_twins framework rfl
  have copies := Machine.AnsiCopies.of_text bound.hasHelper (s := .saying "☺") (r := ⟨0⟩) rfl
    (by decide) nofun
  refine ⟨out, ok, fun ⟨bytes, same⟩ => ?_⟩
  obtain ⟨argument, element⟩ := same.unique copies
  rw [argument] at element
  exact absurd element (by decide)

end LateBind

import LateBind.Native.Heap

/-! # Texts across the border

A text that is encoded for native code is read back as it was, when every character of it has a
place in the encoding and none is the zero that ends it. -/

namespace LateBind

/-! ## Units -/

namespace Units

theorem toChars_cons {u : UInt16} (high : isHighSurrogate u = false) (low : isLowSurrogate u = false)
    (rest : Units) : toChars (u :: rest) = Char.ofNat u.toNat :: toChars rest := by
  cases rest <;> simp [toChars, high, low]

theorem toChars_pair {u v : UInt16} (high : isHighSurrogate u = true)
    (low : isLowSurrogate v = true) (rest : Units) :
    toChars (u :: v :: rest) = pair u v :: toChars rest := by
  simp [toChars, high, low]

theorem isHighSurrogate_ofNat {n : Nat} (h : n < 0x10000) :
    isHighSurrogate (UInt16.ofNat n) = decide (0xD800 ≤ n ∧ n < 0xDC00) := by
  simp only [isHighSurrogate, UInt16.le_iff_toNat_le, UInt16.lt_iff_toNat_lt, UInt16.toNat_ofNat',
    Nat.mod_eq_of_lt h, UInt16.reduceToNat, ← Bool.decide_and]

theorem isLowSurrogate_ofNat {n : Nat} (h : n < 0x10000) :
    isLowSurrogate (UInt16.ofNat n) = decide (0xDC00 ≤ n ∧ n < 0xE000) := by
  simp only [isLowSurrogate, UInt16.le_iff_toNat_le, UInt16.lt_iff_toNat_lt, UInt16.toNat_ofNat',
    Nat.mod_eq_of_lt h, UInt16.reduceToNat, ← Bool.decide_and]

theorem toChars_ofChar_append (c : Char) (rest : Units) :
    toChars (ofChar c ++ rest) = c :: toChars rest := by
  have valid : c.toNat < 0xD800 ∨ 0xDFFF < c.toNat ∧ c.toNat < 0x110000 := c.valid
  unfold ofChar
  dsimp only
  split
  · next basic =>
    rw [List.singleton_append, toChars_cons, UInt16.toNat_ofNat', Nat.mod_eq_of_lt basic,
      Char.ofNat_toNat]
    · rw [isHighSurrogate_ofNat basic]
      simp only [decide_eq_false_iff_not]
      omega
    · rw [isLowSurrogate_ofNat basic]
      simp only [decide_eq_false_iff_not]
      omega
  · next beyond =>
    have number : 0x10000 + (0xD800 + (c.toNat - 0x10000) / 0x400 - 0xD800) * 0x400 +
        (0xDC00 + (c.toNat - 0x10000) % 0x400 - 0xDC00) = c.toNat := by omega
    rw [List.cons_append, List.singleton_append, toChars_pair, pair, UInt16.toNat_ofNat',
      UInt16.toNat_ofNat', Nat.mod_eq_of_lt (by omega), Nat.mod_eq_of_lt (by omega), number,
      Char.ofNat_toNat]
    · rw [isHighSurrogate_ofNat (by omega)]
      simp only [decide_eq_true_eq]
      omega
    · rw [isLowSurrogate_ofNat (by omega)]
      simp only [decide_eq_true_eq]
      omega

@[simp]
theorem toText_ofString (s : String) : (ofString s).toText = s := by
  have chars (cs : List Char) : toChars (cs.flatMap ofChar) = cs := by
    induction cs with
    | nil => rfl
    | cons c cs ih => rw [List.flatMap_cons, toChars_ofChar_append, ih]
  rw [toText, ofString, chars, String.ofList_toList]

end Units

/-! ## Texts without a zero -/

/-- Every character fits in a byte and is not zero. -/
def Latin1.Plain (s : String) : Prop := ∀ c ∈ s.toList, 0 < c.toNat ∧ c.toNat ≤ 0xFF

-- The instance for lists is named, since characters have one of their own that tries them all.
instance (s : String) : Decidable (Latin1.Plain s) :=
  @List.decidableBAll Char (fun c => 0 < c.toNat ∧ c.toNat ≤ 0xFF) (fun _ => inferInstance) s.toList

namespace Latin1

variable {s : String}

theorem toNat_byteOfChar {c : Char} (h : c.toNat ≤ 0xFF) : (byteOfChar c).toNat = c.toNat := by
  rw [byteOfChar, if_pos h, UInt8.toNat_ofNat', Nat.mod_eq_of_lt (by omega)]

/-- The question mark stands for characters without a byte, and no other byte is shared. -/
theorem byteOfChar_injective {c d : Char} (known : d.toNat ≤ 0xFF) (mark : d ≠ '?')
    (same : byteOfChar c = byteOfChar d) : c = d := by
  have right := toNat_byteOfChar known
  by_cases small : c.toNat ≤ 0xFF
  · have left := toNat_byteOfChar small
    rw [same, right] at left
    rw [← Char.ofNat_toNat c, ← left, Char.ofNat_toNat]
  · rw [← same, byteOfChar, if_neg small] at right
    refine absurd ?_ mark
    rw [← Char.ofNat_toNat d, ← right]
    rfl

theorem units_injective {bytes bytes' : List UInt8} (same : units bytes = units bytes') :
    bytes = bytes' := by
  refine (List.map_inj_right fun b b' eq => ?_).mp same
  have number := congrArg UInt16.toNat eq
  rw [UInt8.toNat_toUInt16, UInt8.toNat_toUInt16] at number
  exact UInt8.toNat_inj.mp number

theorem Plain.ofString_eq (plain : Plain s) : Units.ofString s = units (encode s) := by
  have chars (cs : List Char) (plain : ∀ c ∈ cs, c.toNat ≤ 0xFF) :
      cs.flatMap Units.ofChar = units (cs.map byteOfChar) := by
    induction cs with
    | nil => rfl
    | cons c cs ih =>
      have small := plain c (by simp)
      have unit : Units.ofChar c = [(byteOfChar c).toUInt16] := by
        rw [Units.ofChar, if_pos (by omega), byteOfChar, if_pos small]
        refine congrArg (fun u => [u]) (UInt16.toNat_inj.mp ?_)
        rw [UInt16.toNat_ofNat', UInt8.toNat_toUInt16, UInt8.toNat_ofNat', Nat.mod_eq_of_lt (by omega),
          Nat.mod_eq_of_lt (by omega)]
      rw [List.flatMap_cons, unit, ih fun d hd => plain d (List.mem_cons_of_mem _ hd)]
      rfl
  exact chars s.toList fun c hc => (plain c hc).2

theorem Plain.decode_encode (plain : Plain s) : decode (encode s) = s := by
  have chars : (encode s).map (fun b => Char.ofNat b.toNat) = s.toList := by
    rw [encode, List.map_map]
    refine (List.map_congr_left fun c hc => ?_).trans (List.map_id _)
    rw [Function.comp_apply, toNat_byteOfChar (plain c hc).2, Char.ofNat_toNat, id]
  rw [decode, chars, String.ofList_toList]

theorem Plain.zero_notMem_encode (plain : Plain s) : 0 ∉ encode s := by
  intro mem
  obtain ⟨c, hc, eq⟩ := List.mem_map.mp mem
  have value := toNat_byteOfChar (plain c hc).2
  rw [eq, UInt8.toNat_zero] at value
  have := (plain c hc).1
  omega

theorem Plain.zero_notMem_ofString (plain : Plain s) : 0 ∉ Units.ofString s := by
  intro mem
  obtain ⟨c, hc, unit⟩ := List.mem_flatMap.mp mem
  have bounds := plain c hc
  rw [Units.ofChar, if_pos (by omega), List.mem_singleton] at unit
  have value : (UInt16.ofNat c.toNat).toNat = c.toNat := by
    rw [UInt16.toNat_ofNat', Nat.mod_eq_of_lt (by omega)]
  rw [← unit, UInt16.toNat_zero] at value
  omega

end Latin1

/-! ## Ends of texts -/

namespace Heap

theorem untilZero?_append {α : Type} [BEq α] [LawfulBEq α] {zero : α} {items : List α}
    (free : zero ∉ items) (rest : List α) :
    untilZero? zero (items ++ zero :: rest) = some items := by
  have kept : ∀ item ∈ items, (item != zero) = true := by
    intro item mem
    simp only [bne_iff_ne, ne_eq]
    rintro rfl
    exact free mem
  rw [untilZero?, if_pos (by simp), List.takeWhile_append_of_pos kept]
  simp

end Heap

namespace Bytes

theorem ofUnits_append (units units' : Units) :
    ofUnits (units ++ units') = ofUnits units ++ ofUnits units' :=
  List.flatMap_append

@[simp]
theorem length_ofUnits (units : Units) : (ofUnits units).length = 2 * units.length := by
  induction units with
  | nil => rfl
  | cons u units ih =>
    rw [ofUnits, List.flatMap_cons, List.length_append, length_ofNat]
    rw [ofUnits] at ih
    rw [ih, List.length_cons]
    omega

/-- Two zero bytes are the unit that ends a text. -/
theorem toUnits_ofUnits_append_zeros (units : Units) :
    toUnits (ofUnits units ++ [0, 0]) = units ++ [0] := by
  rw [← toUnits_ofUnits (units ++ [0]), ofUnits_append]
  rfl

end Bytes

end LateBind

import LateBind.Json.Parser
import LateBind.Json.Printer
import Mathlib.Tactic.IntervalCases

/-! # What is written as JSON is read back

Text is written as UTF-8 and read symbol by symbol. A value whose numbers are integers of 64 bits
and whose containers are not too deep in one another is read back from its own text, whatever
stands behind it, as long as it does not look like more digits. -/

namespace LateBind

/-! ## Characters -/

namespace Utf8

theorem utf8DecodeChar?_take (c : Char) (bytes : Bytes) :
    ByteArray.utf8DecodeChar? ⟨((String.utf8EncodeChar c ++ bytes).take 4).toArray⟩ 0 = some c := by
  have cut : (String.utf8EncodeChar c ++ bytes).take 4 =
      String.utf8EncodeChar c ++ bytes.take (4 - c.utf8Size) := by
    rw [List.take_append, String.length_utf8EncodeChar, List.take_of_length_le]
    rw [String.length_utf8EncodeChar]
    exact c.utf8Size_le_four
  have whole : (⟨(String.utf8EncodeChar c ++ bytes.take (4 - c.utf8Size)).toArray⟩ : ByteArray) =
      (String.utf8EncodeChar c).toByteArray ++ (bytes.take (4 - c.utf8Size)).toByteArray := by
    rw [← List.toByteArray_append]
    apply ByteArray.ext
    rw [List.data_toByteArray]
  rw [cut, whole, ByteArray.utf8DecodeChar?_utf8EncodeChar_append]

theorem symbolsBehind_encode (cs : List Char) (seen : List Symbol) :
    symbolsBehind seen (cs.flatMap String.utf8EncodeChar) = seen.reverse ++ cs.map some := by
  induction cs generalizing seen with
  | nil => simp [symbolsBehind]
  | cons c cs ih =>
    have decoded := utf8DecodeChar?_take c (cs.flatMap String.utf8EncodeChar)
    have size := c.utf8Size_pos
    rw [List.flatMap_cons]
    cases bytes : String.utf8EncodeChar c ++ cs.flatMap String.utf8EncodeChar with
    | nil =>
      have := congrArg List.length bytes
      rw [List.length_append, String.length_utf8EncodeChar, List.length_nil] at this
      omega
    | cons byte rest =>
      have behind : rest.drop (c.utf8Size - 1) = cs.flatMap String.utf8EncodeChar := by
        have dropped := congrArg (List.drop c.utf8Size) bytes
        rw [List.drop_left' (String.length_utf8EncodeChar c)] at dropped
        obtain ⟨n, size⟩ : ∃ n, c.utf8Size = n + 1 := ⟨c.utf8Size - 1, by omega⟩
        rw [dropped, size, List.drop_succ_cons, Nat.add_sub_cancel]
      rw [bytes] at decoded
      rw [symbolsBehind, decoded]
      simp only
      rw [behind, ih, List.reverse_cons, List.append_assoc, List.map_cons, List.singleton_append]

end Utf8

theorem toList_byteArray (b : ByteArray) : b.toList = b.data.toList := by
  have loop (i : Nat) (read : List UInt8) : ByteArray.toList.loop b i read =
      read.reverse ++ b.data.toList.drop i := by
    fun_induction ByteArray.toList.loop b i read with
    | case1 i read inside ih =>
      have item : b.get! i = b.data[i] := getElem!_pos b.data i inside
      rw [ih, List.reverse_cons, List.append_assoc, List.singleton_append,
        List.drop_eq_getElem_cons (i := i) (by simpa using inside), item]
      rfl
    | case2 i read outside =>
      rw [List.drop_eq_nil_of_le (by simpa using outside), List.append_nil]
  rw [ByteArray.toList, loop]
  rfl

theorem Bytes.ofText_eq (s : String) : ofText s = s.toList.flatMap String.utf8EncodeChar := by
  rw [ofText, String.toUTF8, toList_byteArray, ← String.utf8Encode_toList, List.utf8Encode,
    List.data_toByteArray]

/-- Encoded text is read back character by character. -/
theorem Utf8.symbols_ofText (s : String) : symbols (Bytes.ofText s) = s.toList.map some := by
  rw [symbols, Bytes.ofText_eq, symbolsBehind_encode, List.reverse_nil, List.nil_append]

/-! ## Hexadecimal digits -/

namespace Hex

theorem digit?_digit {n : Nat} (small : n < 16) : digit? (digit n) = some n := by
  interval_cases n <;> decide

theorem foldlM_digits (digits : List Nat) (small : ∀ d ∈ digits, d < 16) (n : Nat) :
    (digits.map digit).foldlM (fun n c => (digit? c).map (16 * n + ·)) n =
      some (digits.foldl (fun n d => 16 * n + d) n) := by
  induction digits generalizing n with
  | nil => rfl
  | cons d digits ih =>
    rw [List.map_cons, List.foldlM_cons, digit?_digit (small d (by simp)), Option.map_some,
      Option.bind_eq_bind, Option.bind_some, ih fun d hd => small d (List.mem_cons_of_mem _ hd)]
    rfl

theorem foldl_digits (width n : Nat) :
    ((List.range width).map fun i => n >>> (4 * (width - 1 - i)) % 16).foldl
      (fun n d => 16 * n + d) 0 = n % 16 ^ width := by
  induction width generalizing n with
  | zero => simp [Nat.mod_one]
  | succ width ih =>
    have shifted : (List.range width).map (fun i => n >>> (4 * (width + 1 - 1 - i)) % 16) =
        (List.range width).map fun i => (n / 16) >>> (4 * (width - 1 - i)) % 16 := by
      refine List.map_congr_left fun i hi => ?_
      have hi := List.mem_range.mp hi
      rw [show 4 * (width + 1 - 1 - i) = 4 + 4 * (width - 1 - i) by omega, Nat.shiftRight_add,
        Nat.shiftRight_eq_div_pow n 4]
    rw [List.range_succ, List.map_append, List.foldl_append, shifted, ih]
    simp only [List.map_cons, List.map_nil, List.foldl_cons, List.foldl_nil]
    rw [Nat.add_sub_cancel, Nat.sub_self, Nat.mul_zero, Nat.shiftRight_zero, Nat.pow_succ,
      Nat.mul_comm (16 ^ width) 16, Nat.mod_mul]
    omega

theorem length_padded (width n : Nat) : (padded width n).toList.length = width := by
  simp [padded]

theorem toNat?_padded {width n : Nat} (small : n < 16 ^ width) :
    toNat? (padded width n).toList = some n := by
  have digits : (padded width n).toList =
      ((List.range width).map fun i => n >>> (4 * (width - 1 - i)) % 16).map digit := by
    rw [padded, String.toList_ofList, List.map_map]
    rfl
  rw [toNat?, digits, foldlM_digits _ fun d hd => ?_, foldl_digits, Nat.mod_eq_of_lt small]
  obtain ⟨i, -, rfl⟩ := List.mem_map.mp hd
  exact Nat.mod_lt _ (by decide)

end Hex

namespace Json

open Utf8 (Symbol)

/-! ## Strings -/

/-- An escaped character is read as the character. -/
theorem readString_escapeChar (c : Char) (seen : List Char) (rest : List Symbol) :
    readString (some seen) ((escapeChar c).map some ++ rest) =
      readString (some (c :: seen)) rest := by
  unfold escapeChar
  split_ifs with quote backslash b f n r t control
  iterate 7
    · subst c
      rfl
  · have digits := Hex.toNat?_padded (show c.toNat < 16 ^ 4 by omega)
    have length := Hex.length_padded 4 c.toNat
    generalize (Hex.padded 4 c.toNat).toList = hex at digits length
    obtain ⟨d₁, d₂, d₃, d₄, rfl⟩ : ∃ d₁ d₂ d₃ d₄, hex = [d₁, d₂, d₃, d₄] := by
      match hex, length with
      | [d₁, d₂, d₃, d₄], _ => exact ⟨d₁, d₂, d₃, d₄, rfl⟩
    have unit : unit? (some d₁) (some d₂) (some d₃) (some d₄) = some (UInt16.ofNat c.toNat) := by
      simp [unit?, digits]
    have value : (UInt16.ofNat c.toNat).toNat = c.toNat := by
      rw [UInt16.toNat_ofNat', Nat.mod_eq_of_lt (by omega)]
    have high : Units.isHighSurrogate (UInt16.ofNat c.toNat) = false := by
      simp only [Units.isHighSurrogate, UInt16.le_iff_toNat_le, value, Bool.and_eq_false_iff]
      exact .inl (by simp; omega)
    have low : Units.isLowSurrogate (UInt16.ofNat c.toNat) = false := by
      simp only [Units.isLowSurrogate, UInt16.le_iff_toNat_le, value, Bool.and_eq_false_iff]
      exact .inl (by simp; omega)
    simp only [List.map_cons, List.map_nil, List.cons_append, List.nil_append]
    rw [readString]
    simp only [unit, high, low, Bool.false_eq_true, if_false, value, Char.ofNat_toNat, extend]
    rfl
  · rw [List.map_cons, List.map_nil, List.singleton_append, readString.eq_def]
    split
    · next same => exact absurd (Option.some.inj (List.cons.inj same).1) quote
    · next same => exact absurd (Option.some.inj (List.cons.inj same).1) backslash
    · next same => exact absurd (Option.some.inj (List.cons.inj same).1) backslash
    · next same => exact absurd (Option.some.inj (List.cons.inj same).1) backslash
    · next same =>
      obtain ⟨rfl, rfl⟩ := List.cons.inj same
      rw [Option.any_some, decide_eq_false control]
      rfl
    · next same => cases same

/-- A written string is read up to its closing quote. -/
theorem readString_escaped (cs seen : List Char) (rest : List Symbol) :
    readString (some seen) ((cs.flatMap escapeChar).map some ++ some '"' :: rest) =
      some (some (String.ofList (seen.reverse ++ cs)), rest) := by
  induction cs generalizing seen with
  | nil =>
    rw [List.flatMap_nil, List.map_nil, List.nil_append, readString, Option.map_some,
      List.append_nil]
  | cons c cs ih =>
    rw [List.flatMap_cons, List.map_append, List.append_assoc, readString_escapeChar, ih,
      List.reverse_cons, List.append_assoc, List.singleton_append]

/-- The symbols of a text. -/
def written (text : String) : List Symbol := text.toList.map some

@[simp]
theorem written_append (s t : String) : written (s ++ t) = written s ++ written t := by
  rw [written, String.toList_append, List.map_append]
  rfl

theorem length_written (s : String) : (written s).length = s.length := by
  rw [written, List.length_map, String.length_toList]

theorem written_renderString (s : String) : written (renderString s) =
    some '"' :: ((s.toList.flatMap escapeChar).map some ++ [some '"']) := by
  simp [renderString, written]

theorem readString_renderString (s : String) (rest : List Symbol) :
    ∃ body, written (renderString s) ++ rest = some '"' :: body ∧
      readString (some []) body = some (some s, rest) := by
  refine ⟨_, by rw [written_renderString, List.cons_append], ?_⟩
  rw [List.append_assoc, List.singleton_append, readString_escaped, List.reverse_nil,
    List.nil_append, String.ofList_toList]

/-! ## Numbers -/

/-- What may stand behind a value in a text: nothing, or what ends an item. -/
def Stops (rest : List Symbol) : Prop :=
  ∀ c ∈ rest.head?, c = some ',' ∨ c = some ']' ∨ c = some '\x7d'

theorem stops_cons {c : Char} (ends : c = ',' ∨ c = ']' ∨ c = '\x7d') (rest : List Symbol) :
    Stops (some c :: rest) := by
  intro s hs
  obtain rfl : some c = s := Option.some.inj hs
  exact ends.imp (congrArg some) (Or.imp (congrArg some) (congrArg some))

theorem Stops.notDigit {rest : List Symbol} (stops : Stops rest) :
    ∀ c ∈ rest.head?, isDigit c = false := by
  intro c hc
  rcases stops c hc with rfl | rfl | rfl <;> rfl

theorem digits1?_append {ds : List Char} (isDigits : ∀ d ∈ ds, d.isDigit = true) (nonempty : ds ≠ [])
    {rest : List Symbol} (stops : Stops rest) :
    digits1? (ds.map some ++ rest) = some (ds, rest) := by
  have all : ∀ s ∈ ds.map some, isDigit s = true := by
    intro s hs
    obtain ⟨d, hd, rfl⟩ := List.mem_map.mp hs
    exact isDigits d hd
  have ends : rest.takeWhile isDigit = [] ∧ rest.dropWhile isDigit = rest := by
    cases rest with
    | nil => exact ⟨rfl, rfl⟩
    | cons c rest =>
      have c := stops.notDigit c rfl
      exact ⟨by rw [List.takeWhile_cons, if_neg (by simp [c])],
        by rw [List.dropWhile_cons, if_neg (by simp [c])]⟩
  have front : ((ds.map some ++ rest).takeWhile isDigit).filterMap id = ds := by
    rw [List.takeWhile_append_of_pos all, ends.1, List.append_nil, List.filterMap_map]
    exact List.filterMap_some
  have behind : (ds.map some ++ rest).dropWhile isDigit = rest := by
    rw [List.dropWhile_append_of_pos all, ends.2]
  rw [digits1?, front, behind]
  cases ds with
  | nil => exact absurd rfl nonempty
  | cons d ds => rfl

theorem readUnsigned_append (negative : Bool) {ds : List Char}
    (isDigits : ∀ d ∈ ds, d.isDigit = true) (nonempty : ds ≠ [])
    (noZero : ds.head? = some '0' → ds.length = 1) {rest : List Symbol} (stops : Stops rest) :
    readUnsigned negative (ds.map some ++ rest) =
      some (Literal.toJson ⟨negative, ds, [], []⟩, rest) := by
  have fraction : fraction? rest = some ([], rest) := by
    rcases rest with - | ⟨c, rest⟩
    · rfl
    · rcases stops c rfl with rfl | rfl | rfl <;> rfl
  have power : power? rest = some ([], rest) := by
    rcases rest with - | ⟨c, rest⟩
    · rfl
    · rcases stops c rfl with rfl | rfl | rfl <;> rfl
  have canonical : ¬(ds.head? = some '0' ∧ ds.length ≠ 1) := fun h => h.2 (noZero h.1)
  simp [readUnsigned, digits1?_append isDigits nonempty stops, canonical, fraction, power]

theorem digitsValue_toDigits (n : Nat) : digitsValue (Nat.toDigits 10 n) = n :=
  Nat.ofDigitChars_toDigits (by decide) (by decide)

/-- A number is written without leading zeros. -/
theorem head?_toDigits {n : Nat} (zero : (Nat.toDigits 10 n).head? = some '0') : n = 0 := by
  induction n using Nat.strongRecOn with
  | ind n ih =>
    by_cases small : n < 10
    · rw [Nat.toDigits_of_lt_base small] at zero
      interval_cases n <;> first | rfl | exact absurd zero (by decide)
    · rw [Nat.toDigits_of_base_le (by decide) (by omega), List.head?_append,
        List.head?_eq_some_head Nat.toDigits_ne_nil, Option.some_or,
        ← List.head?_eq_some_head Nat.toDigits_ne_nil] at zero
      have := ih (n / 10) (by omega) zero
      omega

theorem readUnsigned_toDigits (negative : Bool) (n : Nat) {rest : List Symbol}
    (stops : Stops rest) : readUnsigned negative ((Nat.toDigits 10 n).map some ++ rest) =
      some (Literal.toJson ⟨negative, Nat.toDigits 10 n, [], []⟩, rest) := by
  refine readUnsigned_append negative ?_ Nat.toDigits_ne_nil (fun zero => ?_) stops
  · exact fun d hd => Nat.isDigit_of_mem_toDigits (by decide) (by decide) hd
  · rw [head?_toDigits zero]
    rfl

/-- The first symbol of a written number is a digit. -/
theorem exists_toDigits (n : Nat) :
    ∃ d ds, Nat.toDigits 10 n = d :: ds ∧ d.isDigit = true := by
  cases digits : Nat.toDigits 10 n with
  | nil => exact absurd digits Nat.toDigits_ne_nil
  | cons d ds =>
    have mem : d ∈ Nat.toDigits 10 n := by rw [digits]; simp
    exact ⟨d, ds, rfl, Nat.isDigit_of_mem_toDigits (by decide) (by decide) mem⟩

theorem written_ofNat (n : Nat) : written (toString (n : Int)) = (Nat.toDigits 10 n).map some := by
  rw [written, Int.toString_eq_repr]
  change (Nat.repr n).toList.map some = _
  rw [Nat.repr, String.toList_ofList]

theorem written_negSucc (n : Nat) :
    written (toString (Int.negSucc n)) = some '-' :: (Nat.toDigits 10 (n + 1)).map some := by
  rw [written, Int.toString_eq_repr]
  change ("-" ++ Nat.repr (n + 1)).toList.map some = _
  simp only [Nat.repr, String.toList_append, String.toList_ofList]
  rfl

/-- An integer of 64 bits, with or without a sign, is read back. -/
theorem readNumber_toString {n : Int} (low : -0x8000000000000000 ≤ n) (high : n < 0x10000000000000000)
    {rest : List Symbol} (stops : Stops rest) :
    readNumber (written (toString n) ++ rest) = some (int n, rest) := by
  cases n with
  | ofNat n =>
    have value : Literal.toJson ⟨false, Nat.toDigits 10 n, [], []⟩ = int n := by
      have small : n < 0x10000000000000000 := by
        have : (n : Int) < 0x10000000000000000 := high
        omega
      simp [Literal.toJson, digitsValue_toDigits, small]
    obtain ⟨d, ds, digits, isDigit⟩ := exists_toDigits n
    have unsigned := readUnsigned_toDigits false n stops
    rw [Int.ofNat_eq_natCast, written_ofNat, ← value, ← unsigned, digits]
    simp only [List.map_cons, List.cons_append]
    rw [readNumber.eq_def]
    split
    · next sign =>
      cases sign
      exact absurd isDigit (by decide)
    · rfl
  | negSucc n =>
    have value : Literal.toJson ⟨true, Nat.toDigits 10 (n + 1), [], []⟩ = int (Int.negSucc n) := by
      have small : n + 1 ≤ 0x8000000000000000 := by
        have : -0x8000000000000000 ≤ Int.negSucc n := low
        omega
      simp [Literal.toJson, digitsValue_toDigits, small]
      omega
    rw [written_negSucc, List.cons_append, readNumber, readUnsigned_toDigits true _ stops, value]

theorem isBlank_of_sign {c : Char} (sign : c.isDigit = true ∨ c = '-') : isBlank c = false := by
  rw [isBlank, Bool.or_eq_false_iff, Bool.or_eq_false_iff, Bool.or_eq_false_iff]
  simp only [beq_eq_false_iff_ne, ne_eq]
  refine ⟨⟨⟨?_, ?_⟩, ?_⟩, ?_⟩ <;> rintro rfl <;> exact absurd sign (by decide)

/-- The first symbol of a written integer is a digit or a sign. -/
theorem written_int (n : Int) : ∃ c rest, written (toString n) = some c :: rest ∧
    (c.isDigit = true ∨ c = '-') := by
  cases n with
  | ofNat n =>
    obtain ⟨d, ds, digits, isDigit⟩ := exists_toDigits n
    refine ⟨d, ds.map some, ?_, .inl isDigit⟩
    rw [Int.ofNat_eq_natCast, written_ofNat, digits, List.map_cons]
  | negSucc n => exact ⟨'-', _, written_negSucc n, .inr rfl⟩

/-! ## Values -/

/-- A value that its own text stands for: its numbers are integers of 64 bits, with or without a
sign, and at most so many containers stand in one another. -/
inductive Fits : Nat → Json → Prop
  | null {depth : Nat} : Fits depth null
  | bool {depth : Nat} (b : Bool) : Fits depth (bool b)
  | str {depth : Nat} (s : String) : Fits depth (str s)
  | int {depth : Nat} {n : Int} (low : -0x8000000000000000 ≤ n) (high : n < 0x10000000000000000) :
      Fits depth (int n)
  | arr {depth : Nat} {items : List Json} (all : ∀ j ∈ items, Fits depth j) :
      Fits (depth + 1) (arr items)
  | obj {depth : Nat} {members : List (String × Json)} (all : ∀ e ∈ members, Fits depth e.2) :
      Fits (depth + 1) (obj members)

theorem Fits.mono {depth depth' : Nat} {j : Json} (fits : Fits depth j) (le : depth ≤ depth') :
    Fits depth' j := by
  induction fits generalizing depth' with
  | null => exact .null
  | bool b => exact .bool b
  | str s => exact .str s
  | int low high => exact .int low high
  | arr all ih =>
    obtain ⟨n, rfl⟩ : ∃ n, depth' = n + 1 := ⟨depth' - 1, by omega⟩
    exact .arr fun j hj => ih j hj (by omega)
  | obj all ih =>
    obtain ⟨n, rfl⟩ : ∃ n, depth' = n + 1 := ⟨depth' - 1, by omega⟩
    exact .obj fun e he => ih e he (by omega)

/-- The first symbol of a value is neither a blank nor what closes a container. -/
theorem Fits.written_head {depth : Nat} {j : Json} (fits : Fits depth j) :
    ∃ c rest, written j.render = some c :: rest ∧ isBlank c = false ∧ c ≠ ']' ∧ c ≠ '\x7d' := by
  cases fits with
  | null => exact ⟨'n', _, rfl, rfl, by decide, by decide⟩
  | bool b => cases b <;> exact ⟨_, _, rfl, rfl, by decide, by decide⟩
  | str s => exact ⟨'"', _, by rw [render, written_renderString], rfl, by decide, by decide⟩
  | int low high =>
    rename_i n
    obtain ⟨c, rest, starts, sign⟩ := written_int n
    refine ⟨c, rest, starts, isBlank_of_sign sign, ?_, ?_⟩
    · rintro rfl
      exact absurd sign (by decide)
    · rintro rfl
      exact absurd sign (by decide)
  | arr all => exact ⟨'[', _, by rw [render, written_append, written_append]; rfl, rfl, by decide,
      by decide⟩
  | obj all => exact ⟨'\x7b', _, by rw [render, written_append, written_append]; rfl, rfl,
      by decide, by decide⟩

theorem skipBlanks_of_head {c : Char} (notBlank : isBlank c = false) (rest : List Symbol) :
    skipBlanks (some c :: rest) = some c :: rest := by
  rw [skipBlanks, List.dropWhile_cons, if_neg (by simp [notBlank])]

/-- A reader that reads back the text of a value. -/
def Reads (read : List Symbol → Option (Json × List Symbol)) (j : Json) : Prop :=
  ∀ rest, Stops rest → read (written j.render ++ rest) = some (j, rest)

theorem written_comma : written "," = [some ','] := rfl

theorem written_colon : written ":" = [some ':'] := rfl

variable {read : List Symbol → Option (Json × List Symbol)}

theorem readItems_written {items : List Json} (nonempty : items ≠ [])
    (reads : ∀ j ∈ items, Reads read j) {fuel : Nat} (enough : items.length ≤ fuel)
    (rest : List Symbol) :
    readItems read fuel (written (",".intercalate (renderItems items)) ++ some ']' :: rest) =
      some (items, rest) := by
  induction items generalizing fuel with
  | nil => exact absurd rfl nonempty
  | cons j items ih =>
    obtain ⟨fuel, rfl⟩ : ∃ n, fuel = n + 1 := ⟨fuel - 1, by simp at enough; omega⟩
    cases items with
    | nil =>
      rw [renderItems, renderItems, String.intercalate_singleton, readItems,
        reads j (by simp) _ (stops_cons (by decide) _)]
      rfl
    | cons j' items =>
      have more := ih (by simp) (fun j hj => reads j (List.mem_cons_of_mem _ hj))
        (show (j' :: items).length ≤ fuel by simpa using enough)
      rw [renderItems] at more
      rw [renderItems, renderItems, String.intercalate_cons_cons, written_append, written_append,
        written_comma, List.append_assoc, List.append_assoc, List.singleton_append, readItems,
        reads j (by simp) _ (stops_cons (by decide) _)]
      simp only [skipBlanks_of_head (c := ',') (by decide), more, Option.map_some]

/-- One member is read, and what stands behind its value is left. -/
theorem readMembers_member {name : String} {j : Json} (reads : Reads read j) (fuel : Nat)
    {rest : List Symbol} (stops : Stops rest) :
    readMembers read (fuel + 1) (written (renderString name ++ ":" ++ j.render) ++ rest) =
      match skipBlanks rest with
      | some '\x7d' :: rest => some (some [(name, j)], rest)
      | some ',' :: rest => (readMembers read fuel rest).map fun (members, rest) =>
          (do some ((name, j) :: (← members)), rest)
      | _ => none := by
  obtain ⟨body, starts, named⟩ := readString_renderString name
    (some ':' :: (written j.render ++ rest))
  rw [written_append, written_append, written_colon, List.append_assoc, List.append_assoc,
    List.singleton_append, starts, readMembers, skipBlanks_of_head (by decide)]
  simp only [named, skipBlanks_of_head (c := ':') (by decide), reads _ stops]
  rfl

theorem readMembers_written {members : List (String × Json)} (nonempty : members ≠ [])
    (reads : ∀ e ∈ members, Reads read e.2) {fuel : Nat} (enough : members.length ≤ fuel)
    (rest : List Symbol) :
    readMembers read fuel
        (written (",".intercalate (renderMembers members)) ++ some '\x7d' :: rest) =
      some (some members, rest) := by
  induction members generalizing fuel with
  | nil => exact absurd rfl nonempty
  | cons e members ih =>
    obtain ⟨name, j⟩ := e
    obtain ⟨fuel, rfl⟩ : ∃ n, fuel = n + 1 := ⟨fuel - 1, by simp at enough; omega⟩
    have first := reads (name, j) (by simp)
    cases members with
    | nil =>
      rw [renderMembers, renderMembers, String.intercalate_singleton,
        readMembers_member first fuel (stops_cons (by decide) _), skipBlanks_of_head (by decide)]
      rfl
    | cons e' members =>
      have more := ih (by simp) (fun e he => reads e (List.mem_cons_of_mem _ he))
        (show (e' :: members).length ≤ fuel by simpa using enough)
      obtain ⟨name', j'⟩ := e'
      rw [renderMembers] at more
      rw [renderMembers, renderMembers, String.intercalate_cons_cons, written_append,
        written_append, written_comma, List.append_assoc, List.append_assoc, List.singleton_append,
        readMembers_member first fuel (stops_cons (by decide) _), skipBlanks_of_head (by decide)]
      simp only [more, Option.map_some]
      rfl

theorem length_le_intercalate {texts : List String} {s : String} (mem : s ∈ texts) :
    s.length ≤ (",".intercalate texts).length := by
  induction texts with
  | nil => cases mem
  | cons t texts ih =>
    cases texts with
    | nil =>
      obtain rfl := List.mem_singleton.mp mem
      rw [String.intercalate_singleton]
    | cons t' texts =>
      rw [String.intercalate_cons_cons, String.length_append, String.length_append]
      rcases List.mem_cons.mp mem with rfl | mem
      · omega
      · have := ih mem
        omega

theorem length_le_length_intercalate (texts : List String) :
    texts.length ≤ (",".intercalate texts).length + 1 := by
  induction texts with
  | nil => simp
  | cons t texts ih =>
    cases texts with
    | nil => simp
    | cons t' texts =>
      rw [String.intercalate_cons_cons, String.length_append, String.length_append,
        show (",".length) = 1 from rfl, List.length_cons]
      omega

theorem renderItems_eq (items : List Json) : renderItems items = items.map render := by
  induction items with
  | nil => rfl
  | cons j items ih => rw [renderItems, ih, List.map_cons]

theorem renderMembers_eq (members : List (String × Json)) :
    renderMembers members = members.map fun (name, j) => renderString name ++ ":" ++ j.render := by
  induction members with
  | nil => rfl
  | cons e members ih =>
    obtain ⟨name, j⟩ := e
    rw [renderMembers, ih, List.map_cons]

/-- A value that opens no container is read as a scalar. -/
theorem readValue_scalar {c : Char} (notBlank : isBlank c = false) (noList : c ≠ '[')
    (noObject : c ≠ '\x7b') (fuel depth : Nat) (rest : List Symbol) :
    readValue (fuel + 1) depth (some c :: rest) = readScalar (some c :: rest) := by
  rw [readValue, skipBlanks_of_head notBlank]
  simp only
  split
  · next same => exact absurd (Option.some.inj (List.cons.inj same).1) noList
  · next same => exact absurd (Option.some.inj (List.cons.inj same).1) noObject
  · rfl

theorem readScalar_readNumber {c : Char} (digit : c.isDigit = true ∨ c = '-')
    (rest : List Symbol) : readScalar (some c :: rest) = readNumber (some c :: rest) := by
  rw [readScalar.eq_def]
  split
  · next same =>
    cases same
    exact absurd digit (by decide)
  · next same =>
    cases same
    exact absurd digit (by decide)
  · next same =>
    cases same
    exact absurd digit (by decide)
  · next same =>
    cases same
    exact absurd digit (by decide)
  · rfl

theorem readValue_list {c : Char} (notBlank : isBlank c = false) (noEnd : c ≠ ']')
    (fuel depth : Nat) (rest : List Symbol) :
    readValue (fuel + 1) (depth + 1) (some '[' :: some c :: rest) =
      (readItems (readValue fuel depth) fuel (some c :: rest)).map fun (js, rest) =>
        (arr js, rest) := by
  rw [readValue, skipBlanks_of_head (by decide)]
  simp only [skipBlanks_of_head notBlank]
  split
  · next same => exact absurd (Option.some.inj (List.cons.inj same).1) noEnd
  · rfl

theorem readValue_object {c : Char} (notBlank : isBlank c = false) (noEnd : c ≠ '\x7d')
    (fuel depth : Nat) (rest : List Symbol) :
    readValue (fuel + 1) (depth + 1) (some '\x7b' :: some c :: rest) =
      (readMembers (readValue fuel depth) fuel (some c :: rest)).map fun (members, rest) =>
        ((members.map obj).getD unreadable, rest) := by
  rw [readValue, skipBlanks_of_head (by decide)]
  simp only [skipBlanks_of_head notBlank]
  split
  · next same => exact absurd (Option.some.inj (List.cons.inj same).1) noEnd
  · rfl

theorem exists_written_intercalate (text : String) (texts : List String) :
    ∃ behind, written (",".intercalate (text :: texts)) = written text ++ behind := by
  cases texts with
  | nil => exact ⟨[], by rw [String.intercalate_singleton, List.append_nil]⟩
  | cons next texts =>
    refine ⟨written "," ++ written (",".intercalate (next :: texts)), ?_⟩
    rw [String.intercalate_cons_cons, written_append, written_append, List.append_assoc]

/-- A value is read back from its text. -/
theorem readValue_render {depth : Nat} {j : Json} (fits : Fits depth j) {fuel : Nat}
    (enough : j.render.length < fuel) : Reads (readValue fuel depth) j := by
  intro rest stops
  obtain ⟨fuel, rfl⟩ : ∃ n, fuel = n + 1 := ⟨fuel - 1, by omega⟩
  induction fits generalizing fuel rest with
  | null => exact readValue_scalar (c := 'n') (by decide) (by decide) (by decide) _ _ _
  | bool b =>
    cases b
    · exact readValue_scalar (c := 'f') (by decide) (by decide) (by decide) _ _ _
    · exact readValue_scalar (c := 't') (by decide) (by decide) (by decide) _ _ _
  | str s =>
    obtain ⟨body, starts, text⟩ := readString_renderString s rest
    rw [render, starts, readValue_scalar (by decide) (by decide) (by decide), readScalar, text]
    rfl
  | int low high =>
    rename_i n
    obtain ⟨c, behind, starts, sign⟩ := written_int n
    have number := readNumber_toString low high stops
    rw [starts, List.cons_append] at number
    rw [render, starts, List.cons_append, readValue_scalar (isBlank_of_sign sign)
      (by rintro rfl; exact absurd sign (by decide)) (by rintro rfl; exact absurd sign (by decide)),
      readScalar_readNumber sign, number]
  | arr all ih =>
    rename_i depth items
    have text : written (arr items).render ++ rest =
        some '[' :: (written (",".intercalate (renderItems items)) ++ some ']' :: rest) := by
      rw [render, written_append, written_append, List.append_assoc, List.append_assoc]
      rfl
    have size : (arr items).render.length = (",".intercalate (renderItems items)).length + 2 := by
      rw [render, String.length_append, String.length_append, Nat.add_comm "[".length]
      rfl
    rw [text]
    cases items with
    | nil => rfl
    | cons j items =>
      obtain ⟨c, starts, head, notBlank, noEnd, -⟩ := (all j (by simp)).written_head
      obtain ⟨behind, starts⟩ := exists_written_intercalate j.render (renderItems items)
      have count := length_le_length_intercalate (renderItems (j :: items))
      rw [renderItems_eq, List.length_map, ← renderItems_eq] at count
      have reads : ∀ j' ∈ j :: items, Reads (readValue fuel depth) j' := fun j' mem => by
        have length := length_le_intercalate
          (renderItems_eq (j :: items) ▸ List.mem_map_of_mem (f := render) mem)
        obtain ⟨fuel, rfl⟩ : ∃ n, fuel = n + 1 := ⟨fuel - 1, by omega⟩
        exact fun rest stops => ih j' mem rest stops fuel (by omega)
      have read := readItems_written (List.cons_ne_nil j items) reads
        (show (j :: items).length ≤ fuel by omega) rest
      rw [renderItems] at read ⊢
      rw [starts, head, List.cons_append, List.cons_append] at read ⊢
      rw [readValue_list notBlank noEnd, read, Option.map_some]
  | obj all ih =>
    rename_i depth members
    have text : written (obj members).render ++ rest =
        some '\x7b' :: (written (",".intercalate (renderMembers members)) ++
          some '\x7d' :: rest) := by
      rw [render, written_append, written_append, List.append_assoc, List.append_assoc]
      rfl
    have size : (obj members).render.length =
        (",".intercalate (renderMembers members)).length + 2 := by
      rw [render, String.length_append, String.length_append, Nat.add_comm "\x7b".length]
      rfl
    rw [text]
    cases members with
    | nil => rfl
    | cons e members =>
      obtain ⟨name, j⟩ := e
      obtain ⟨behind, starts⟩ := exists_written_intercalate
        (renderString name ++ ":" ++ j.render) (renderMembers members)
      have count := length_le_length_intercalate (renderMembers ((name, j) :: members))
      rw [renderMembers_eq, List.length_map, ← renderMembers_eq] at count
      have reads : ∀ e ∈ (name, j) :: members, Reads (readValue fuel depth) e.2 := by
        rintro ⟨name', j'⟩ mem
        have length := length_le_intercalate
          (renderMembers_eq ((name, j) :: members) ▸ List.mem_map_of_mem mem)
        have inner : j'.render.length ≤ (renderString name' ++ ":" ++ j'.render).length := by
          rw [String.length_append]
          exact Nat.le_add_left _ _
        have length : (name', j').2.render.length ≤ _ := inner.trans length
        obtain ⟨fuel, rfl⟩ : ∃ n, fuel = n + 1 := ⟨fuel - 1, by omega⟩
        exact fun rest stops => ih (name', j') mem rest stops fuel (by omega)
      have read := readMembers_written (List.cons_ne_nil (name, j) members) reads
        (show ((name, j) :: members).length ≤ fuel by omega) rest
      rw [renderMembers] at read ⊢
      rw [starts, written_append, written_append, written_renderString] at read ⊢
      simp only [List.cons_append] at read ⊢
      rw [readValue_object (by decide) (by decide), read]
      rfl

/-- The text of a value makes up the value. -/
theorem ofSymbols?_render {j : Json} (fits : Fits maxDepth j) :
    ofSymbols? (written j.render) = some j := by
  have read := readValue_render fits
    (show j.render.length < (written j.render).length + 1 by rw [length_written]; omega) []
    (by rintro _ ⟨⟩)
  rw [List.append_nil] at read
  rw [ofSymbols?, read]
  rfl

end Json

end LateBind

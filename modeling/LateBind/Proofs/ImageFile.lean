import LateBind.Image
import LateBind.Proofs.JsonSize
import LateBind.Proofs.ModuleFormat
import Mathlib.Algebra.Order.BigOperators.Group.List

/-! # Reading images

What the reader answers for any bytes, decided by the sizes, the header, the digest and the payload
in this order; and that a written image is read back, whatever stands behind it. -/

namespace LateBind

/-! ## Sizes -/

theorem Module.methodCount_eq (m : Module) :
    m.methodCount = (m.types.map fun t => t.methods.length).sum := by
  have count : (fun t => t.methods.length) ∘ Prod.fst =
      fun e : TypeDef × Nat => (e.1.methods.zipIdx.map fun place =>
        (⟨⟨e.2, place.2⟩, e.1, place.1⟩ : LocatedMethod)).length := by
    funext e
    simp
  rw [methodCount, methods, List.length_flatMap, ← count, ← List.map_map, List.zipIdx_map_fst]

theorem Module.stubCount_le (m : Module) : m.stubCount ≤ m.methodCount :=
  List.length_filter_le _ _

theorem Module.length_render_types_le (m : Module) :
    (Json.arr (m.types.map TypeDef.toJson)).render.length ≤ m.toJson.render.length := by
  rw [toJson]
  exact Json.length_le_render_obj (e := ("types", .arr (m.types.map TypeDef.toJson))) (by simp)

/-- A module's text is longer than the number of its types. -/
theorem Module.length_types_le_render (m : Module) : m.types.length ≤ m.toJson.render.length := by
  have types := Json.length_le_render_arr (m.types.map TypeDef.toJson)
  rw [List.length_map] at types
  exact types.trans m.length_render_types_le

theorem TypeDef.length_methods_le_render (t : TypeDef) :
    t.methods.length ≤ t.toJson.render.length := by
  have methods := Json.length_le_render_arr (t.methods.map MethodDef.toJson)
  rw [List.length_map] at methods
  rw [toJson]
  exact methods.trans (Json.length_le_render_obj
    (e := ("methods", .arr (t.methods.map MethodDef.toJson))) (by simp))

/-- A module's text is longer than the number of its methods. -/
theorem Module.methodCount_le_render (m : Module) : m.methodCount ≤ m.toJson.render.length := by
  have types := Json.sum_length_le_render_arr (m.types.map TypeDef.toJson)
  simp only [List.map_map, Function.comp_def] at types
  have each : (m.types.map fun t => t.methods.length).sum ≤
      (m.types.map fun t => t.toJson.render.length).sum :=
    List.sum_le_sum fun t _ => t.length_methods_le_render
  rw [methodCount_eq]
  exact each.trans (types.trans m.length_render_types_le)

/-- A character takes between one byte and four. -/
theorem Bytes.length_ofText_bounds (s : String) :
    s.length ≤ (ofText s).length ∧ (ofText s).length ≤ 4 * s.length := by
  rw [ofText_eq, ← String.length_toList]
  induction s.toList with
  | nil => simp
  | cons c cs ih =>
    have := c.utf8Size_pos
    have := c.utf8Size_le_four
    rw [List.flatMap_cons, List.length_append, List.length_cons, String.length_utf8EncodeChar]
    omega

namespace Image

/-! ## The header -/

namespace Header

theorem length_ofWord (w : UInt64) : (Bytes.ofWord w).length = 8 := Bytes.length_ofNat 8 _

theorem length_toBytes (h : Header) : h.toBytes.length = headerSize := by
  simp [toBytes, magic, length_ofWord, headerSize]

/-- A word is read back at its place. -/
theorem wordAt_append {before : Bytes} {k : Nat} (place : before.length = k) (w : UInt64)
    (behind : Bytes) : wordAt (before ++ (Bytes.ofWord w ++ behind)) k = w := by
  rw [wordAt, List.drop_left' place, List.take_left' (length_ofWord w), Bytes.ofWord,
    Bytes.toNat_ofNat, Nat.mod_eq_of_lt (by simpa [Nat.shiftLeft_eq] using w.toNat_lt),
    UInt64.ofNat_toNat]

/-- A header is read back from the start of bytes that leave room for a digest. -/
theorem parse_append {h : Header} (compatible : h.version.isCompatible = true) {behind : Bytes}
    (room : digestSize ≤ behind.length) : parse (h.toBytes ++ behind) = .ok h := by
  have long : ¬(h.toBytes ++ behind).length < headerSize + digestSize := by
    rw [List.length_append, length_toBytes]
    omega
  have parts : h.toBytes ++ behind =
      (magic ++ [h.version.major, h.version.minor, h.version.patch, h.flags.bits]) ++
        (Bytes.ofWord h.typeCount ++ (Bytes.ofWord h.methodCount ++ (Bytes.ofWord h.stubCount ++
          (Bytes.ofWord h.payloadLength ++ behind)))) := by
    simp only [toBytes, List.append_assoc]
  have types : wordAt (h.toBytes ++ behind) 8 = h.typeCount := by
    rw [parts]
    exact wordAt_append rfl _ _
  have methods : wordAt (h.toBytes ++ behind) 16 = h.methodCount := by
    rw [parts, ← List.append_assoc]
    exact wordAt_append (by simp [magic, length_ofWord]) _ _
  have stubs : wordAt (h.toBytes ++ behind) 24 = h.stubCount := by
    rw [parts, ← List.append_assoc, ← List.append_assoc]
    exact wordAt_append (by simp [magic, length_ofWord]) _ _
  have payload : wordAt (h.toBytes ++ behind) 32 = h.payloadLength := by
    rw [parts, ← List.append_assoc, ← List.append_assoc, ← List.append_assoc]
    exact wordAt_append (by simp [magic, length_ofWord]) _ _
  rw [parse, if_neg long, types, methods, stubs, payload, parts, if_neg (by simp [magic])]
  simp only [magic, List.cons_append, List.nil_append, List.getElem?_cons_succ,
    List.getElem?_cons_zero, Option.getD_some]
  exact if_pos compatible

end Header

/-! ## The parts that bytes claim to have -/

/-- The version that stands at its place. -/
def storedVersion (data : Bytes) : Version :=
  ⟨(data[4]?).getD 0, (data[5]?).getD 0, (data[6]?).getD 0⟩

def storedFlags (data : Bytes) : Flags := ⟨(data[7]?).getD 0⟩

/-- How long the payload is said to be. -/
def storedLength (data : Bytes) : Nat := (Header.wordAt data 32).toNat

theorem parse_cases (data : Bytes) :
    Header.parse data =
      if data.length < 72 then .error .tooSmall
      else if data.take 4 ≠ magic then .error .invalidMagic
      else if (storedVersion data).isCompatible then
        .ok ⟨storedVersion data, storedFlags data, Header.wordAt data 8, Header.wordAt data 16,
          Header.wordAt data 24, Header.wordAt data 32⟩
      else .error (.unsupportedVersion (storedVersion data)) := rfl

/-- What is read once the header has been. -/
theorem ofBytes_of_parse {data : Bytes} {h : Header} (parsed : Header.parse data = .ok h) :
    ofBytes data =
      if wordBound ≤ 40 + h.payloadLength.toNat then .error .tooSmall
      else if wordBound ≤ 72 + h.payloadLength.toNat then .error .overflow
      else if data.length < 72 + h.payloadLength.toNat then .error .tooSmall
      else if Sha256.digest (data.take (40 + h.payloadLength.toNat)) ≠
          (data.drop (40 + h.payloadLength.toNat)).take 32 then .error .hashMismatch
      else match moduleOfPayload? ((data.drop 40).take h.payloadLength.toNat) with
        | none => .error .notAModule
        | some m => .ok ⟨h.version, h.flags, m⟩ := by
  have payload : (data.drop 40).take h.payloadLength.toNat =
      (data.take (40 + h.payloadLength.toNat)).drop 40 := by
    rw [List.drop_take, Nat.add_sub_cancel_left]
  have sizes : headerSize + h.payloadLength.toNat + digestSize = 72 + h.payloadLength.toNat := by
    rw [headerSize, digestSize]
    omega
  rw [payload]
  simp only [ofBytes, parsed, bind, Except.bind, pure, Except.pure, throw, throwThe,
    MonadExceptOf.throw, sizes]
  rfl

theorem ofBytes_of_parse_error {data : Bytes} {e : ReadError} (failed : Header.parse data = .error e) :
    ofBytes data = .error e := by
  rw [ofBytes, failed]
  rfl

/-- The checks in order. The sum of the sizes is not formed where it leaves the machine word. -/
theorem ofBytes_cases {data : Bytes} (small : data.length < wordBound) :
    ofBytes data =
      if data.length < 72 then .error .tooSmall
      else if data.take 4 ≠ magic then .error .invalidMagic
      else if (storedVersion data).isCompatible = false then
        .error (.unsupportedVersion (storedVersion data))
      else if 40 + storedLength data < wordBound ∧ wordBound ≤ 72 + storedLength data then
        .error .overflow
      else if data.length < 72 + storedLength data then .error .tooSmall
      else if Sha256.digest (data.take (40 + storedLength data)) ≠
          (data.drop (40 + storedLength data)).take 32 then .error .hashMismatch
      else match moduleOfPayload? ((data.drop 40).take (storedLength data)) with
        | none => .error .notAModule
        | some m => .ok ⟨storedVersion data, storedFlags data, m⟩ := by
  have parsed := parse_cases data
  by_cases short : data.length < 72
  · rw [if_pos short] at parsed ⊢
    exact ofBytes_of_parse_error parsed
  rw [if_neg short] at parsed ⊢
  by_cases foreign : data.take 4 ≠ magic
  · rw [if_pos foreign] at parsed ⊢
    exact ofBytes_of_parse_error parsed
  rw [if_neg foreign] at parsed ⊢
  cases compatible : (storedVersion data).isCompatible with
  | false =>
    rw [if_neg (by simp [compatible])] at parsed
    rw [if_pos rfl]
    exact ofBytes_of_parse_error parsed
  | true =>
    rw [if_pos compatible] at parsed
    have length : (Header.wordAt data 32).toNat = storedLength data := rfl
    rw [if_neg nofun, ofBytes_of_parse parsed]
    simp only [length]
    by_cases first : wordBound ≤ 40 + storedLength data
    · rw [if_pos first, if_neg (by omega), if_pos (by omega)]
    rw [if_neg first]
    by_cases second : wordBound ≤ 72 + storedLength data
    · rw [if_pos second, if_pos ⟨by omega, second⟩]
    · rw [if_neg second, if_neg (show ¬(_ ∧ _) from fun both => second both.2)]

/-- Bytes behind the digest do not matter. -/
theorem ofBytes_take {data : Bytes} (small : data.length < wordBound) :
    ofBytes (data.take (72 + storedLength data)) = ofBytes data := by
  by_cases inside : data.length ≤ 72 + storedLength data
  · rw [List.take_of_length_le inside]
  have place {i n : Nat} (lt : i < n) : (data.take n)[i]? = data[i]? := List.getElem?_take_of_lt lt
  have front {k n : Nat} (le : k ≤ n) : (data.take n).take k = data.take k := by
    rw [List.take_take, Nat.min_eq_left le]
  have part {i k n : Nat} (le : i + k ≤ n) : ((data.take n).drop i).take k = (data.drop i).take k := by
    rw [List.drop_take, List.take_take, Nat.min_eq_left (by omega)]
  have length : (data.take (72 + storedLength data)).length = 72 + storedLength data := by
    rw [List.length_take]
    omega
  have sameLength : storedLength (data.take (72 + storedLength data)) = storedLength data := by
    rw [storedLength, Header.wordAt, part (by omega)]
    rfl
  have sameVersion : storedVersion (data.take (72 + storedLength data)) = storedVersion data := by
    rw [storedVersion, place (by omega), place (by omega), place (by omega)]
    rfl
  have sameFlags : storedFlags (data.take (72 + storedLength data)) = storedFlags data := by
    rw [storedFlags, place (by omega)]
    rfl
  rw [ofBytes_cases small, ofBytes_cases (by omega), sameLength, sameVersion, sameFlags, length,
    front (by omega), front (by omega), part (by omega), part (by omega),
    if_neg (show ¬72 + storedLength data < 72 by omega), if_neg (show ¬data.length < 72 by omega),
    if_neg (Nat.lt_irrefl _), if_neg (show ¬data.length < 72 + storedLength data by omega)]

/-- The answer for any bytes that fit a machine, and which bytes decide it. The sum of the sizes is
not formed where it leaves the machine word. -/
theorem ofBytes_exact {data : Bytes} (small : data.length < wordBound) :
    (ofBytes data =
      if data.length < 72 then .error .tooSmall
      else if data.take 4 ≠ magic then .error .invalidMagic
      else if (storedVersion data).isCompatible = false then
        .error (.unsupportedVersion (storedVersion data))
      else if 40 + storedLength data < wordBound ∧ wordBound ≤ 72 + storedLength data then
        .error .overflow
      else if data.length < 72 + storedLength data then .error .tooSmall
      else if Sha256.digest (data.take (40 + storedLength data)) ≠
          (data.drop (40 + storedLength data)).take 32 then .error .hashMismatch
      else match moduleOfPayload? ((data.drop 40).take (storedLength data)) with
        | none => .error .notAModule
        | some m => .ok ⟨storedVersion data, storedFlags data, m⟩) ∧
    ofBytes (data.take (72 + storedLength data)) = ofBytes data :=
  ⟨ofBytes_cases small, ofBytes_take small⟩

/-- A header alone, with a payload said to end less than a digest below the machine word. -/
def boastful : Bytes :=
  Header.toBytes ⟨Version.current, Flags.none, 0, 0, 0, 0xFFFFFFFFFFFFFFCE⟩ ++ List.replicate 32 0

theorem ofBytes_exact_boastful :
    boastful.length < wordBound ∧ ofBytes boastful = .error .overflow := by
  have small : boastful.length < wordBound := by decide
  refine ⟨small, (ofBytes_exact small).1.trans ?_⟩
  rw [if_neg (by decide), if_neg (by decide), if_neg (by decide), if_pos (by decide)]

/-! ## Written images -/

theorem length_toBytes (image : Image) :
    image.toBytes.length = 72 + (Bytes.ofText image.payload).length := by
  rw [toBytes, List.length_append, List.length_append, Header.length_toBytes, Sha256.length_digest,
    headerSize]
  omega

theorem moduleOfPayload?_payload {image : Image}
    (shallow : ∀ t ∈ image.module.typeRefs, t.depth < 50)
    (fit : ∀ p ∈ image.module.positions, p < wordBound) :
    moduleOfPayload? (Bytes.ofText image.payload) = some image.module := by
  have fits : Json.Fits Json.maxDepth image.module.toJson :=
    (Module.fits_toJson (fun t mem => Nat.le_of_lt_succ (shallow t mem)) fit).mono (by decide)
  rw [moduleOfPayload?, Utf8.symbols_ofText]
  change (Json.ofSymbols? (Json.written image.module.toJson.render)).bind _ = _
  rw [Json.ofSymbols?_render fits, Option.bind_some, Module.ofJson?_toJson fit]

theorem parse_toBytes {image : Image} (compatible : image.version.isCompatible = true)
    (suffix : Bytes) : Header.parse (image.toBytes ++ suffix) = .ok image.header := by
  rw [toBytes, List.append_assoc, List.append_assoc]
  refine Header.parse_append compatible ?_
  rw [List.length_append, List.length_append, Sha256.length_digest, digestSize]
  omega

theorem ofBytes_append {image : Image} (compatible : image.version.isCompatible = true)
    (shallow : ∀ t ∈ image.module.typeRefs, t.depth < 50)
    (fit : ∀ p ∈ image.module.positions, p < wordBound) (small : image.toBytes.length < wordBound)
    (suffix : Bytes) : ofBytes (image.toBytes ++ suffix) = .ok image := by
  have length := image.length_toBytes
  have payloadLength : image.header.payloadLength.toNat = (Bytes.ofText image.payload).length :=
    UInt64.toNat_ofNat_of_lt' (Nat.lt_of_le_of_lt (show _ ≤ image.toBytes.length by omega) small)
  have content : (image.header.toBytes ++ Bytes.ofText image.payload).length =
      40 + (Bytes.ofText image.payload).length := by
    rw [List.length_append, Header.length_toBytes, headerSize]
  have bytes : image.toBytes ++ suffix = image.header.toBytes ++ Bytes.ofText image.payload ++
      (Sha256.digest (image.header.toBytes ++ Bytes.ofText image.payload) ++ suffix) := by
    rw [toBytes, List.append_assoc]
  have inside : ¬(image.toBytes ++ suffix).length < 72 + (Bytes.ofText image.payload).length := by
    rw [List.length_append]
    omega
  rw [ofBytes_of_parse (parse_toBytes compatible suffix), payloadLength, if_neg (by omega),
    if_neg (by omega), if_neg inside, bytes, List.take_left' content, List.drop_left' content,
    List.take_left' (Sha256.length_digest _), if_neg (by simp), List.append_assoc,
    List.drop_left' (show image.header.toBytes.length = 40 from image.header.length_toBytes),
    List.take_left, moduleOfPayload?_payload shallow fit]
  rfl

/-- A written image is read back, whatever stands behind it, and so is what its header tells. -/
theorem ofBytes_toBytes {image : Image} (compatible : image.version.isCompatible = true)
    (shallow : ∀ t ∈ image.module.typeRefs, t.depth < 50)
    (fit : ∀ p ∈ image.module.positions, p < wordBound) (small : image.toBytes.length < wordBound)
    (suffix : Bytes) :
    ofBytes (image.toBytes ++ suffix) = .ok image ∧
      ∃ h, Header.parse (image.toBytes ++ suffix) = .ok h ∧ h.version = image.version ∧
        h.flags = image.flags ∧ h.typeCount.toNat = image.module.types.length ∧
        h.methodCount.toNat = image.module.methodCount ∧
        h.stubCount.toNat = image.module.stubCount ∧
        h.payloadLength.toNat + 72 = image.toBytes.length := by
  have length := image.length_toBytes
  have text := (Bytes.length_ofText_bounds image.payload).1
  have types : image.module.types.length ≤ image.payload.length :=
    image.module.length_types_le_render
  have methods : image.module.methodCount ≤ image.payload.length :=
    image.module.methodCount_le_render
  have stubs := image.module.stubCount_le
  have word {n : Nat} (le : n ≤ image.toBytes.length) : (UInt64.ofNat n).toNat = n :=
    UInt64.toNat_ofNat_of_lt' (Nat.lt_of_le_of_lt le small)
  have payloadLength : image.header.payloadLength.toNat = (Bytes.ofText image.payload).length :=
    word (by omega)
  exact ⟨ofBytes_append compatible shallow fit small suffix, image.header,
    parse_toBytes compatible suffix, rfl, rfl, word (by omega), word (by omega), word (by omega), by
      omega⟩

/-- An image whose module has an instruction with two members of text, a region, an enumeration and
text beyond ASCII. -/
def specimen : Image :=
  let body : Body :=
    ⟨[⟨.vector (.pointer .i32), true⟩], [.ldstr "\"é\n", .switch [⟨0⟩], .pop, .ret], [2],
      [⟨0, 1, 1, 2⟩], true, 8⟩
  ofModule ⟨"a\\b", ⟨0x0123456789abcdef, 0xfedcba9876543210⟩, ["mscorlib"],
    [⟨⟨"A", "T"⟩, .enum .i64, .pub, false, true, false, none, [],
      [⟨"M", [⟨"x", .byRef .object, some (.arrayOf .lpStr)⟩], .void, none, true, .assembly, .none,
        none, some body⟩]⟩], []⟩

theorem length_specimen : specimen.toBytes.length < wordBound := by
  have room : specimen.module.toJson.room < 10000 := by decide +kernel
  have text : specimen.payload.length ≤ _ := Json.length_render_le specimen.module.toJson
  have bytes := (Bytes.length_ofText_bounds specimen.payload).2
  rw [length_toBytes, wordBound]
  omega

theorem ofBytes_toBytes_specimen : ∃ h, ofBytes (specimen.toBytes ++ [0xFF]) = .ok specimen ∧
    Header.parse (specimen.toBytes ++ [0xFF]) = .ok h ∧ h.methodCount.toNat = 1 := by
  have compatible : specimen.version.isCompatible = true := rfl
  obtain ⟨image, h, header, -, -, -, methods, -⟩ :=
    ofBytes_toBytes compatible (by decide) (by decide) length_specimen [0xFF]
  exact ⟨h, image, header, methods⟩

end Image

end LateBind

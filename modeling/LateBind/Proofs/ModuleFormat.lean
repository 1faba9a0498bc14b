import LateBind.Module.Format
import LateBind.Proofs.JsonText

/-! # Modules in their JSON form

Every record is read back from what it is written as. Positions must fit a machine word, as those of
bodies do, and the nesting of the written value is bounded by that of the types it mentions. -/

namespace LateBind

/-! ## Records, lists and options -/

/-- A record that has just its members is taken as it stands. -/
@[simp]
theorem Json.record?_obj {names : List String} {members : List (String × Json)}
    (named : members.map Prod.fst = names) (nodup : names.Nodup) :
    record? names (obj members) = some members := by
  subst named
  rw [record?]
  dsimp only
  rw [List.filter_eq_self.mpr fun e mem => ?known, if_pos nodup]
  case known => exact List.elem_eq_true_of_mem (List.mem_map_of_mem mem)

namespace Members

variable {α : Type} {name name' : String} {j : Json} {rest : Members}

@[simp]
theorem lookup_cons_of_ne (other : name' ≠ name) :
    List.lookup name ((name', j) :: rest) = List.lookup name rest := by
  rw [List.lookup_cons, beq_false_of_ne other.symm]

/-- What stands first under a name is what is read. -/
@[simp]
theorem required_cons_self (decode : Json → Option α) :
    required ((name, j) :: rest) name decode = decode j := by
  rw [required, List.lookup_cons_self, Option.bind_some]

@[simp]
theorem required_cons_of_ne (other : name' ≠ name) (decode : Json → Option α) :
    required ((name', j) :: rest) name decode = required rest name decode := by
  rw [required, required, lookup_cons_of_ne other]

@[simp]
theorem withDefault_cons_self (default : α) (decode : Json → Option α) :
    withDefault ((name, j) :: rest) name default decode = decode j := by
  rw [withDefault, List.lookup_cons_self]

@[simp]
theorem withDefault_cons_of_ne (other : name' ≠ name) (default : α) (decode : Json → Option α) :
    withDefault ((name', j) :: rest) name default decode = withDefault rest name default decode := by
  rw [withDefault, withDefault, lookup_cons_of_ne other]

@[simp]
theorem optional_cons_self (decode : Json → Option α) :
    optional ((name, j) :: rest) name decode = Json.nullable? decode j := by
  rw [optional, withDefault_cons_self]

@[simp]
theorem optional_cons_of_ne (other : name' ≠ name) (decode : Json → Option α) :
    optional ((name', j) :: rest) name decode = optional rest name decode := by
  rw [optional, optional, withDefault_cons_of_ne other]

end Members

@[simp] theorem Json.str?_str (s : String) : str? (str s) = some s := rfl

@[simp] theorem Json.bool?_bool (b : Bool) : bool? (bool b) = some b := rfl

section

variable {α : Type} {toJson : α → Json} {decode : Json → Option α}

@[simp]
theorem Json.list?_map {items : List α} (back : ∀ a ∈ items, decode (toJson a) = some a) :
    list? decode (arr (items.map toJson)) = some items := by
  change (items.map toJson).mapM decode = some items
  induction items with
  | nil => rfl
  | cons a items ih =>
    rw [List.map_cons, List.mapM_cons, back a (by simp),
      ih fun a mem => back a (List.mem_cons_of_mem _ mem)]
    rfl

theorem Json.nullable?_option {value : Option α} (back : ∀ a ∈ value, decode (toJson a) = some a)
    (notNull : ∀ a, toJson a ≠ null) : nullable? decode (option toJson value) = some value := by
  cases value with
  | none => rfl
  | some a =>
    rw [option, nullable?.eq_def]
    split
    · next isNull => exact absurd isNull (notNull a)
    · rw [back a rfl, Option.map_some]

theorem Json.fits_option {depth : Nat} {value : Option α}
    (fits : ∀ a ∈ value, Json.Fits depth (toJson a)) : Json.Fits depth (option toJson value) := by
  cases value with
  | none => exact .null
  | some a => exact fits a rfl

theorem Json.fits_list {depth : Nat} {items : List α}
    (fits : ∀ a ∈ items, Json.Fits depth (toJson a)) : Json.Fits (depth + 1) (arr (items.map toJson)) :=
  .arr fun _ written => by
    obtain ⟨a, mem, rfl⟩ := List.mem_map.mp written
    exact fits a mem

end

theorem Json.fits_nat {depth n : Nat} (small : n < 0x10000000000000000) : Json.Fits depth (nat n) :=
  .int (by omega) (by omega)

theorem Json.position?_nat {n : Nat} (small : n < 0x10000000000000000) :
    position? (nat n) = some n := by
  have bounds : (0 : Int) ≤ n ∧ (n : Int) < (0x10000000000000000 : Nat) := by omega
  rw [position?, nat, natBelow?, if_pos bounds, Int.toNat_natCast]

@[simp]
theorem Json.uint16?_nat (n : UInt16) : uint16? (nat n.toNat) = some n := by
  have bounds : (0 : Int) ≤ n.toNat ∧ (n.toNat : Int) < (0x10000 : Nat) := by
    have := n.toNat_lt
    omega
  rw [uint16?, nat, natBelow?, if_pos bounds, Int.toNat_natCast, Option.map_some,
    UInt16.ofNat_toNat]

@[simp]
theorem Json.uint32?_nat (n : UInt32) : uint32? (nat n.toNat) = some n := by
  have bounds : (0 : Int) ≤ n.toNat ∧ (n.toNat : Int) < (0x100000000 : Nat) := by
    have := n.toNat_lt
    omega
  rw [uint32?, nat, natBelow?, if_pos bounds, Int.toNat_natCast, Option.map_some,
    UInt32.ofNat_toNat]

@[simp]
theorem Json.int32?_int (n : Int32) : int32? (int n.toInt) = some n := by
  have bounds : -0x80000000 ≤ n.toInt ∧ n.toInt < 0x80000000 := ⟨n.le_toInt, n.toInt_lt⟩
  rw [int32?, intIn?, if_pos bounds, Option.map_some, Int32.ofInt_toInt]

@[simp]
theorem Json.int64?_int (n : Int64) : int64? (int n.toInt) = some n := by
  have bounds : -0x8000000000000000 ≤ n.toInt ∧ n.toInt < 0x8000000000000000 :=
    ⟨n.le_toInt, n.toInt_lt⟩
  rw [int64?, intIn?, if_pos bounds, Option.map_some, Int64.ofInt_toInt]

/-! ## Names -/

@[simp]
theorem Primitive.ofJson?_toJson (p : Primitive) : ofJson? .text p.toJson = some p := by
  cases p <;> rfl

@[simp]
theorem CallConv.ofJson?_toJson (c : CallConv) : ofJson? .text c.toJson = some c := by
  cases c <;> rfl

@[simp]
theorem Visibility.ofJson?_toJson (v : Visibility) : ofJson? v.toJson = some v := by
  cases v <;> rfl

@[simp]
theorem CharSet.ofJson?_toJson (c : CharSet) : ofJson? c.toJson = some c := by
  cases c <;> rfl

@[simp]
theorem NativeType.ofJson?_toJson (n : NativeType) : ofJson? n.toJson = some n := by
  cases n <;> rfl

@[simp]
theorem TypeKind.ofJson?_toJson (k : TypeKind) : ofJson? .text k.toJson = some k := by
  cases k with
  | enum p => cases p <;> rfl
  | _ => rfl

@[simp]
theorem ImportConv.ofJson?_toJson (c : ImportConv) : ofJson? c.toJson = some c := by
  cases c with
  | other bits => simp [toJson, ofJson?, Json.variant?]
  | _ => rfl

/-! ## Version ids -/

theorem Hex.digit_ne_hyphen {n : Nat} (small : n < 16) : digit n ≠ '-' := by
  intro same
  have back := digit?_digit small
  rw [same] at back
  exact absurd back (by rw [show digit? '-' = none from rfl]; exact nofun)

theorem Hex.ne_hyphen_of_mem_padded {width n : Nat} {c : Char} (mem : c ∈ (padded width n).toList) :
    c ≠ '-' := by
  rw [padded, String.toList_ofList] at mem
  obtain ⟨i, -, rfl⟩ := List.mem_map.mp mem
  exact digit_ne_hyphen (Nat.mod_lt _ (by decide))

namespace Uuid

theorem filter_hyphenate {digits : List Char} (bare : ∀ c ∈ digits, c ≠ '-') :
    (hyphenate digits).filter (· ≠ '-') = digits := by
  have piece {part : List Char} (sub : part ⊆ digits) : part.filter (· ≠ '-') = part :=
    List.filter_eq_self.mpr fun c mem => decide_eq_true (bare c (sub mem))
  have hyphen : ['-'].filter (· ≠ '-') = [] := by decide
  have cut (n k : Nat) : (digits.drop n).take k ⊆ digits :=
    ((List.take_sublist k _).trans (List.drop_sublist n digits)).subset
  have join (n k : Nat) : (digits.drop n).take k ++ digits.drop (n + k) = digits.drop n := by
    rw [← List.drop_drop, List.take_append_drop]
  simp only [hyphenate, List.filter_append, hyphen, List.nil_append,
    piece (List.take_subset 8 digits), piece (cut 8 4), piece (cut 12 4), piece (cut 16 4),
    piece (List.drop_subset 20 digits), List.append_assoc]
  rw [join 16 4, join 12 4, join 8 4, List.take_append_drop]

theorem length_hyphenate {digits : List Char} (length : digits.length = 32) :
    (hyphenate digits).length = 36 := by
  simp [hyphenate, length]

theorem unhyphenate?_hyphenate {digits : List Char} (length : digits.length = 32)
    (bare : ∀ c ∈ digits, c ≠ '-') : unhyphenate? (hyphenate digits) = some digits := by
  simp only [unhyphenate?, filter_hyphenate bare]
  rw [if_pos ⟨length, trivial⟩]

theorem ofNat_toNat (u : Uuid) : ofNat u.toNat = u := by
  have high : u.toNat >>> 64 = u.high.toNat := by
    have := u.low.toNat_lt
    rw [toNat, Nat.shiftLeft_eq, Nat.shiftRight_eq_div_pow]
    omega
  have low : UInt64.ofNat u.toNat = u.low := by
    rw [← UInt64.toNat_inj, UInt64.toNat_ofNat', toNat, Nat.shiftLeft_eq]
    have := u.low.toNat_lt
    omega
  rw [ofNat, high, low, UInt64.ofNat_toNat]

theorem toNat_lt (u : Uuid) : u.toNat < 16 ^ 32 := by
  have := u.high.toNat_lt
  have := u.low.toNat_lt
  rw [toNat, Nat.shiftLeft_eq]
  omega

/-- A version id is read back from its text. -/
@[simp]
theorem ofText?_toText (u : Uuid) : ofText? u.toText = some u := by
  have length := Hex.length_padded 32 u.toNat
  have bare : ∀ c ∈ (Hex.padded 32 u.toNat).toList, c ≠ '-' := fun c =>
    Hex.ne_hyphen_of_mem_padded
  have value := Hex.toNat?_padded u.toNat_lt
  generalize digits : (Hex.padded 32 u.toNat).toList = ds at length bare value
  -- The ninth character is a hyphen, where a scheme has a colon.
  have noScheme : ((hyphenate ds).take 9).map Char.toLower ≠ "urn:uuid:".toList := by
    intro same
    have ninth : (hyphenate ds)[8]? = some '-' := by
      simp [hyphenate, length]
    have colon := congrArg (·[8]?) same
    simp only [List.getElem?_map, List.getElem?_take, ninth] at colon
    exact absurd colon (by decide)
  have text : u.toText.toList = hyphenate ds := by rw [toText, String.toList_ofList, digits]
  rw [ofText?, text]
  rw [length_hyphenate length, if_neg (by decide), if_neg (by simp), if_neg noScheme,
    unhyphenate?_hyphenate length bare, Option.bind_eq_bind, Option.bind_some]
  beta_reduce
  rw [value, Option.map_some, ofNat_toNat]

end Uuid

/-! ## Types -/

@[simp]
theorem TypeName.ofJson?_toJson (t : TypeName) : ofJson? t.toJson = some t := by
  simp [ofJson?, toJson]

@[simp]
theorem TypeRef.ofJson?_toJson (t : TypeRef) : ofJson? .text t.toJson = some t := by
  induction t with
  | primitive p => simp [toJson, ofJson?]
  | named name => simp [toJson, ofJson?]
  | pointer target ih => simp [toJson, ofJson?, ih]
  | array element rank ih =>
    simp -implicitDefEqProofs [toJson, ofJson?, arrayOfJson?, elementOfMembers?, ih]
  | byRef target ih => simp [toJson, ofJson?, ih]

/-- How many type constructors stand around the innermost type. -/
def TypeRef.depth : TypeRef → Nat
  | primitive _ => 0
  | named _ => 0
  | pointer target => target.depth + 1
  | array element _ => element.depth + 1
  | byRef target => target.depth + 1

theorem TypeName.fits_toJson (t : TypeName) : Json.Fits 1 t.toJson :=
  .obj (by simp [Json.Fits.str])

theorem TypeRef.fits_toJson (t : TypeRef) : Json.Fits (2 * t.depth + 2) t.toJson := by
  induction t with
  | primitive p => exact .obj (by simp [Primitive.toJson, Json.Fits.str])
  | named name => exact .obj (by simpa [depth] using name.fits_toJson)
  | pointer target ih => exact .obj (by simpa using ih.mono (by simp only [depth]; omega))
  | array element rank ih =>
    have small : rank.toNat < 0x10000000000000000 := Nat.lt_trans rank.toNat_lt (by decide)
    have inner : Json.Fits (2 * element.depth + 3)
        (.obj [("element", element.toJson), ("rank", .nat rank.toNat)]) :=
      .obj (by simp [ih, Json.fits_nat small])
    exact .obj (by simpa [depth, Nat.mul_add] using inner)
  | byRef target ih => exact .obj (by simpa using ih.mono (by simp only [depth]; omega))

/-- Types nested at most so deep are written within a known nesting. -/
theorem TypeRef.fits_of_depth {t : TypeRef} {n : Nat} (shallow : t.depth ≤ n) {d : Nat}
    (deep : 2 * n + 2 ≤ d) : Json.Fits d t.toJson :=
  t.fits_toJson.mono (by omega)

/-! ## Instructions -/

@[simp]
theorem Label.ofJson?_toJson (l : Label) : ofJson? l.toJson = some l := by
  simp [toJson, ofJson?]

@[simp]
theorem MethodRef.ofJson?_toJson (m : MethodRef) : ofJson? .text m.toJson = some m := by
  simp [ofJson?, toJson]

@[simp]
theorem FieldRef.ofJson?_toJson (f : FieldRef) : ofJson? .text f.toJson = some f := by
  simp [ofJson?, toJson]

@[simp]
theorem CallSite.ofJson?_toJson (site : CallSite) : ofJson? .text site.toJson = some site := by
  simp [ofJson?, toJson]

theorem Instr.ofParts?_toJson (i : Instr) : ofParts? .text i.formatName i.operandJson? = some i := by
  cases i with
  | ldarg x | ldloc x | stloc x | ldcI4 x | ldcI8 x | ldstr x | switch x | ldsfld x | stsfld x
    | br x | brtrue x | brfalse x | blt x | leave x | call x | newobj x | calli x | newarr x | ldelema x
    | ldtoken x | castclass x =>
    simp [ofParts?, plain, formatName, operandJson?, ofOperand?]
  | _ => rfl

@[simp]
theorem Instr.ofJson?_toJson (i : Instr) : ofJson? .text i.toJson = some i := by
  have parts := i.ofParts?_toJson
  rw [toJson]
  cases operand : i.operandJson? with
  | none =>
    rw [operand] at parts
    simpa [ofJson?, Json.record?, Json.unitVariant?, Json.variant?] using parts
  | some j =>
    rw [operand] at parts
    simpa [ofJson?, Json.unitVariant?, Json.variant?] using parts

/-! ## Bodies -/

@[simp]
theorem Local.ofJson?_toJson (l : Local) : ofJson? .text l.toJson = some l := by
  simp [ofJson?, toJson]

def Region.positions (r : Region) : List Nat :=
  [r.tryStart, r.tryEnd, r.finallyStart, r.finallyEnd]

/-- The places that a body's labels and regions name. -/
def Body.positions (b : Body) : List Nat := b.labels ++ b.regions.flatMap Region.positions

theorem Region.ofJson?_toJson {r : Region} (fit : ∀ p ∈ r.positions, p < 0x10000000000000000) :
    ofJson? r.toJson = some r := by
  simp only [positions, List.forall_mem_cons] at fit
  obtain ⟨tryStart, tryEnd, finallyStart, finallyEnd, -⟩ := fit
  simp -implicitDefEqProofs [ofJson?, toJson, Json.position?_nat, tryStart, tryEnd, finallyStart,
    finallyEnd]

theorem Body.ofJson?_toJson {b : Body} (fit : ∀ p ∈ b.positions, p < 0x10000000000000000) :
    ofJson? .text b.toJson = some b := by
  have labels : Json.list? Json.position? (.arr (b.labels.map Json.nat)) = some b.labels :=
    Json.list?_map fun p mem => Json.position?_nat (fit p (List.mem_append_left _ mem))
  have regions : Json.list? Region.ofJson? (.arr (b.regions.map Region.toJson)) = some b.regions :=
    Json.list?_map fun r mem => Region.ofJson?_toJson fun p inside =>
      fit p (List.mem_append_right _ (List.mem_flatMap.mpr ⟨r, mem, inside⟩))
  simp -implicitDefEqProofs [ofJson?, toJson, labels, regions]

/-! ## Definitions -/

@[simp]
theorem MarshalInfo.ofJson?_toJson (info : MarshalInfo) : ofJson? info.toJson = some info := by
  have element : Json.nullable? NativeType.ofJson? (Json.option NativeType.toJson info.element) =
      some info.element := Json.nullable?_option (by simp) (by simp [NativeType.toJson])
  have custom : Json.nullable? Json.str? (Json.option Json.str info.customMarshaler) =
      some info.customMarshaler := Json.nullable?_option (by simp) (by simp)
  simp [ofJson?, toJson, element, custom]

theorem MarshalInfo.nullable?_toJson (marshal : Option MarshalInfo) :
    Json.nullable? ofJson? (Json.option toJson marshal) = some marshal :=
  Json.nullable?_option (by simp) (by simp [toJson])

@[simp]
theorem Import.ofJson?_toJson (i : Import) : ofJson? i.toJson = some i := by
  have entryPoint : Json.nullable? Json.str? (Json.option Json.str i.entryPoint) =
      some i.entryPoint := Json.nullable?_option (by simp) (by simp)
  simp [ofJson?, toJson, entryPoint]

@[simp]
theorem FieldDef.ofJson?_toJson (f : FieldDef) : ofJson? .text f.toJson = some f := by
  simp [ofJson?, toJson, MarshalInfo.nullable?_toJson]

@[simp]
theorem ParamDef.ofJson?_toJson (p : ParamDef) : ofJson? .text p.toJson = some p := by
  simp [ofJson?, toJson, MarshalInfo.nullable?_toJson]

@[simp]
theorem MethodFlags.ofJson?_toJson (f : MethodFlags) : ofJson? f.toJson = some f := by
  simp [ofJson?, toJson]

def MethodDef.positions (m : MethodDef) : List Nat := m.body.toList.flatMap Body.positions

theorem MethodDef.ofJson?_toJson {m : MethodDef} (fit : ∀ p ∈ m.positions, p < 0x10000000000000000) :
    ofJson? .text m.toJson = some m := by
  have importInfo : Json.nullable? Import.ofJson? (Json.option Import.toJson m.importInfo) =
      some m.importInfo := Json.nullable?_option (by simp) (by simp [Import.toJson])
  have body : Json.nullable? (Body.ofJson? .text) (Json.option Body.toJson m.body) = some m.body :=
    Json.nullable?_option (fun b mem => Body.ofJson?_toJson fun p inside =>
      fit p (List.mem_flatMap.mpr ⟨b, Option.mem_toList.mpr mem, inside⟩)) (by simp [Body.toJson])
  simp [ofJson?, toJson, MarshalInfo.nullable?_toJson, importInfo, body]

def TypeDef.positions (t : TypeDef) : List Nat := t.methods.flatMap MethodDef.positions

theorem TypeDef.ofJson?_toJson {t : TypeDef} (fit : ∀ p ∈ t.positions, p < 0x10000000000000000) :
    ofJson? .text t.toJson = some t := by
  have base : Json.nullable? (TypeRef.ofJson? .text) (Json.option TypeRef.toJson t.base) =
      some t.base := Json.nullable?_option (by simp) (by rintro (_ | _) <;> simp [TypeRef.toJson])
  have methods : Json.list? (MethodDef.ofJson? .text) (.arr (t.methods.map MethodDef.toJson)) =
      some t.methods :=
    Json.list?_map fun m mem => MethodDef.ofJson?_toJson fun p inside =>
      fit p (List.mem_flatMap.mpr ⟨m, mem, inside⟩)
  simp [ofJson?, toJson, base, methods]

/-- Every place that a body of the module names. -/
def Module.positions (m : Module) : List Nat :=
  (m.types ++ m.references).flatMap TypeDef.positions

/-- A module is what it is written as. -/
theorem Module.ofJson?_toJson {m : Module} (fit : ∀ p ∈ m.positions, p < 0x10000000000000000) :
    ofJson? .text m.toJson = some m := by
  have types {ts : List TypeDef} (own : ∀ t ∈ ts, t ∈ m.types ++ m.references) :
      Json.list? (TypeDef.ofJson? .text) (.arr (ts.map TypeDef.toJson)) = some ts :=
    Json.list?_map fun t mem => TypeDef.ofJson?_toJson fun p inside =>
      fit p (List.mem_flatMap.mpr ⟨t, own t mem, inside⟩)
  have refs : Json.list? Json.str? (Json.strs m.assemblyRefs) = some m.assemblyRefs :=
    Json.list?_map fun s _ => Json.str?_str s
  simp [ofJson?, toJson, types fun t => List.mem_append_left _,
    types fun t => List.mem_append_right _, refs]

/-! ## Nesting

Each record stands a known number of containers around the types it mentions. -/

def MethodRef.typeRefs (m : MethodRef) : List TypeRef := m.returnType :: m.params

def CallSite.typeRefs (site : CallSite) : List TypeRef := site.returnType :: site.params

def Instr.typeRefs : Instr → List TypeRef
  | ldsfld f | stsfld f => [f.type]
  | call m | newobj m => m.typeRefs
  | calli site => site.typeRefs
  | newarr t | ldelema t | ldtoken t | castclass t => [t]
  | _ => []

def Body.typeRefs (b : Body) : List TypeRef :=
  b.locals.map Local.type ++ b.instrs.flatMap Instr.typeRefs

def MethodDef.typeRefs (m : MethodDef) : List TypeRef :=
  m.returnType :: m.params.map ParamDef.type ++ m.body.toList.flatMap Body.typeRefs

def TypeDef.typeRefs (t : TypeDef) : List TypeRef :=
  t.base.toList ++ t.fields.map FieldDef.type ++ t.methods.flatMap MethodDef.typeRefs

/-- Every type that a definition of the module mentions. -/
def Module.typeRefs (m : Module) : List TypeRef := (m.types ++ m.references).flatMap TypeDef.typeRefs

attribute [simp] Json.Fits.null Json.Fits.bool Json.Fits.str

section

variable {n : Nat}

theorem TypeRef.fits_list {types : List TypeRef} (shallow : ∀ t ∈ types, t.depth ≤ n) :
    Json.Fits (2 * n + 3) (.arr (types.map toJson)) :=
  Json.fits_list fun t mem => t.fits_of_depth (shallow t mem) le_rfl

theorem MethodRef.fits_toJson {m : MethodRef} (shallow : ∀ t ∈ m.typeRefs, t.depth ≤ n) :
    Json.Fits (2 * n + 4) m.toJson := by
  have returned := TypeRef.fits_of_depth (shallow m.returnType (by simp [typeRefs]))
    (d := 2 * n + 3) (by omega)
  have params := TypeRef.fits_list fun t mem => shallow t (List.mem_cons_of_mem _ mem)
  exact .obj (by simp [returned, params, m.owner.fits_toJson.mono (show 1 ≤ 2 * n + 3 by omega)])

theorem CallSite.fits_toJson {site : CallSite} (shallow : ∀ t ∈ site.typeRefs, t.depth ≤ n) :
    Json.Fits (2 * n + 4) site.toJson := by
  have returned := TypeRef.fits_of_depth (shallow site.returnType (by simp [typeRefs]))
    (d := 2 * n + 3) (by omega)
  have params := TypeRef.fits_list fun t mem => shallow t (List.mem_cons_of_mem _ mem)
  exact .obj (by simp [returned, params, CallConv.toJson])

theorem FieldRef.fits_toJson {f : FieldRef} (shallow : f.type.depth ≤ n) :
    Json.Fits (2 * n + 3) f.toJson :=
  .obj (by simp [TypeRef.fits_of_depth shallow,
    f.owner.fits_toJson.mono (show 1 ≤ 2 * n + 2 by omega)])

theorem Label.fits_toJson (l : Label) {d : Nat} : Json.Fits d l.toJson :=
  Json.fits_nat (Nat.lt_trans l.id.toNat_lt (by decide))

theorem Instr.fits_operand {i : Instr} (shallow : ∀ t ∈ i.typeRefs, t.depth ≤ n) :
    ∀ j ∈ i.operandJson?, Json.Fits (2 * n + 4) j := by
  rintro j operand
  cases i with
  | ldarg x | ldloc x | stloc x =>
    obtain rfl := Option.some.inj operand
    exact Json.fits_nat (Nat.lt_trans x.toNat_lt (by decide))
  | ldcI4 v =>
    obtain rfl := Option.some.inj operand
    exact .int (Int.le_trans (by decide) v.le_toInt) (Int.lt_trans v.toInt_lt (by decide))
  | ldcI8 v =>
    obtain rfl := Option.some.inj operand
    exact .int v.le_toInt (Int.lt_trans v.toInt_lt (by decide))
  | ldstr s =>
    obtain rfl := Option.some.inj operand
    exact .str s
  | ldsfld f | stsfld f =>
    obtain rfl := Option.some.inj operand
    exact (FieldRef.fits_toJson (shallow f.type (by simp [typeRefs]))).mono (by omega)
  | br l | brtrue l | brfalse l | blt l | leave l =>
    obtain rfl := Option.some.inj operand
    exact l.fits_toJson
  | switch ls =>
    obtain rfl := Option.some.inj operand
    exact Json.fits_list fun l _ => l.fits_toJson
  | call m | newobj m =>
    obtain rfl := Option.some.inj operand
    exact MethodRef.fits_toJson shallow
  | calli site =>
    obtain rfl := Option.some.inj operand
    exact CallSite.fits_toJson shallow
  | newarr t | ldelema t | ldtoken t | castclass t =>
    obtain rfl := Option.some.inj operand
    exact TypeRef.fits_of_depth (shallow t (by simp [typeRefs])) (by omega)
  | _ => cases operand

theorem Instr.fits_toJson {i : Instr} (shallow : ∀ t ∈ i.typeRefs, t.depth ≤ n) :
    Json.Fits (2 * n + 5) i.toJson := by
  have operands := fits_operand shallow
  rw [toJson]
  cases operand : i.operandJson? with
  | none => exact .obj (by simp)
  | some j => exact .obj (by simp [operands j operand])

theorem Local.fits_toJson {l : Local} (shallow : l.type.depth ≤ n) : Json.Fits (2 * n + 3) l.toJson :=
  .obj (by simp [TypeRef.fits_of_depth shallow])

theorem Region.fits_toJson {r : Region} (fit : ∀ p ∈ r.positions, p < 0x10000000000000000) :
    Json.Fits 1 r.toJson := by
  simp only [positions, List.forall_mem_cons] at fit
  exact .obj (by simp [Json.fits_nat, fit])

theorem Body.fits_toJson {b : Body} (shallow : ∀ t ∈ b.typeRefs, t.depth ≤ n)
    (fit : ∀ p ∈ b.positions, p < 0x10000000000000000) : Json.Fits (2 * n + 7) b.toJson := by
  have locals : Json.Fits (2 * n + 6) (.arr (b.locals.map Local.toJson)) :=
    Json.fits_list fun l mem =>
      (Local.fits_toJson (shallow _ (List.mem_append_left _ (List.mem_map_of_mem mem)))).mono
        (by omega)
  have instrs : Json.Fits (2 * n + 6) (.arr (b.instrs.map Instr.toJson)) :=
    Json.fits_list fun i mem => Instr.fits_toJson fun t inside =>
      shallow t (List.mem_append_right _ (List.mem_flatMap.mpr ⟨i, mem, inside⟩))
  have labels : Json.Fits (2 * n + 6) (.arr (b.labels.map Json.nat)) :=
    Json.fits_list fun p mem => Json.fits_nat (fit p (List.mem_append_left _ mem))
  have regions : Json.Fits (2 * n + 6) (.arr (b.regions.map Region.toJson)) :=
    Json.fits_list fun r mem => (Region.fits_toJson fun p inside =>
      fit p (List.mem_append_right _ (List.mem_flatMap.mpr ⟨r, mem, inside⟩))).mono (by omega)
  have maxStack := Nat.lt_trans b.maxStack.toNat_lt
    (show 2 ^ 16 < 0x10000000000000000 by decide)
  exact .obj (by simp [locals, instrs, labels, regions, Json.fits_nat maxStack])

theorem MarshalInfo.fits_toJson (info : MarshalInfo) : Json.Fits 1 info.toJson :=
  have element : Json.Fits 0 (Json.option NativeType.toJson info.element) :=
    Json.fits_option fun _ _ => .str _
  .obj (by simp [NativeType.toJson, Json.fits_option, element])

theorem MarshalInfo.fits_option (marshal : Option MarshalInfo) {d : Nat} (deep : 1 ≤ d) :
    Json.Fits d (Json.option toJson marshal) :=
  Json.fits_option fun info _ => info.fits_toJson.mono deep

theorem ImportConv.fits_toJson (c : ImportConv) : Json.Fits 1 c.toJson := by
  cases c with
  | other bits =>
    exact .obj (by simp [Json.fits_nat (Nat.lt_trans bits.toNat_lt
      (show 2 ^ 16 < 0x10000000000000000 by decide))])
  | _ => exact .str _

theorem Import.fits_toJson (i : Import) : Json.Fits 2 i.toJson :=
  .obj (by simp [CharSet.toJson, Json.fits_option, i.convention.fits_toJson])

theorem FieldDef.fits_toJson {f : FieldDef} (shallow : f.type.depth ≤ n) :
    Json.Fits (2 * n + 3) f.toJson :=
  .obj (by simp [TypeRef.fits_of_depth shallow, Visibility.toJson, MarshalInfo.fits_option])

theorem ParamDef.fits_toJson {p : ParamDef} (shallow : p.type.depth ≤ n) :
    Json.Fits (2 * n + 3) p.toJson :=
  .obj (by simp [TypeRef.fits_of_depth shallow, MarshalInfo.fits_option])

theorem MethodFlags.fits_toJson (f : MethodFlags) : Json.Fits 1 f.toJson :=
  .obj (by simp)

theorem MethodDef.fits_toJson {m : MethodDef} (shallow : ∀ t ∈ m.typeRefs, t.depth ≤ n)
    (fit : ∀ p ∈ m.positions, p < 0x10000000000000000) : Json.Fits (2 * n + 8) m.toJson := by
  have params : Json.Fits (2 * n + 7) (.arr (m.params.map ParamDef.toJson)) :=
    Json.fits_list fun p mem =>
      (ParamDef.fits_toJson (shallow _ (List.mem_append_left _
        (List.mem_cons_of_mem _ (List.mem_map_of_mem mem))))).mono (by omega)
  have returned := TypeRef.fits_of_depth (shallow m.returnType (by simp [typeRefs]))
    (d := 2 * n + 7) (by omega)
  have body : Json.Fits (2 * n + 7) (Json.option Body.toJson m.body) :=
    Json.fits_option fun b mem => Body.fits_toJson
      (fun t inside => shallow t (List.mem_append_right _
        (List.mem_flatMap.mpr ⟨b, Option.mem_toList.mpr mem, inside⟩)))
      (fun p inside => fit p (List.mem_flatMap.mpr ⟨b, Option.mem_toList.mpr mem, inside⟩))
  have importInfo : Json.Fits (2 * n + 7) (Json.option Import.toJson m.importInfo) :=
    Json.fits_option fun i _ => i.fits_toJson.mono (by omega)
  exact .obj (by simp [params, returned, body, importInfo, Visibility.toJson,
    MarshalInfo.fits_option, m.flags.fits_toJson.mono (show 1 ≤ 2 * n + 7 by omega)])

theorem TypeKind.fits_toJson (k : TypeKind) : Json.Fits 2 k.toJson := by
  cases k with
  | enum p =>
    have content : Json.Fits 1 (.obj [("underlying", p.toJson)]) := .obj (by simp [Primitive.toJson])
    exact .obj (by simp [content])
  | _ => exact .str _

theorem TypeDef.fits_toJson {t : TypeDef} (shallow : ∀ t' ∈ t.typeRefs, t'.depth ≤ n)
    (fit : ∀ p ∈ t.positions, p < 0x10000000000000000) : Json.Fits (2 * n + 10) t.toJson := by
  have fields : Json.Fits (2 * n + 9) (.arr (t.fields.map FieldDef.toJson)) :=
    Json.fits_list fun f mem =>
      (FieldDef.fits_toJson (shallow _ (List.mem_append_left _ (List.mem_append_right _
        (List.mem_map_of_mem mem))))).mono (by omega)
  have methods : Json.Fits (2 * n + 9) (.arr (t.methods.map MethodDef.toJson)) :=
    Json.fits_list fun m mem => MethodDef.fits_toJson
      (fun t' inside => shallow t' (List.mem_append_right _
        (List.mem_flatMap.mpr ⟨m, mem, inside⟩)))
      (fun p inside => fit p (List.mem_flatMap.mpr ⟨m, mem, inside⟩))
  have base : Json.Fits (2 * n + 9) (Json.option TypeRef.toJson t.base) :=
    Json.fits_option fun b mem => b.fits_of_depth
      (shallow b (List.mem_append_left _ (List.mem_append_left _ (Option.mem_toList.mpr mem))))
      (by omega)
  exact .obj (by simp [fields, methods, base, Visibility.toJson,
    t.name.fits_toJson.mono (show 1 ≤ 2 * n + 9 by omega),
    t.kind.fits_toJson.mono (show 2 ≤ 2 * n + 9 by omega)])

theorem Module.fits_toJson {m : Module} (shallow : ∀ t ∈ m.typeRefs, t.depth ≤ n)
    (fit : ∀ p ∈ m.positions, p < 0x10000000000000000) : Json.Fits (2 * n + 12) m.toJson := by
  have types {ts : List TypeDef} (own : ∀ t ∈ ts, t ∈ m.types ++ m.references) :
      Json.Fits (2 * n + 11) (.arr (ts.map TypeDef.toJson)) :=
    Json.fits_list fun t mem => TypeDef.fits_toJson
      (fun t' inside => shallow t' (List.mem_flatMap.mpr ⟨t, own t mem, inside⟩))
      (fun p inside => fit p (List.mem_flatMap.mpr ⟨t, own t mem, inside⟩))
  have refs : Json.Fits (2 * n + 11) (Json.strs m.assemblyRefs) :=
    Json.fits_list fun s _ => .str s
  exact .obj (by simp [refs, types fun t => List.mem_append_left _,
    types fun t => List.mem_append_right _])

end

end LateBind

import LateBind.Json.Printer
import LateBind.Scaffold

/-! What late binding has done, as text and as JSON. -/

namespace LateBind

structure SlotReport where
  name : String
  type : TypeRef
  plan : SlotPlan
  deriving DecidableEq, Repr

structure StubReport where
  method : String
  library : String
  loadName : String
  symbol : String
  convention : CallConv
  params : List SlotReport
  returns : SlotReport
  deriving DecidableEq, Repr

structure Report where
  module : String
  helperType : TypeName
  duration : Nat
  /-- Whether there was no stub to bind. -/
  unchanged : Bool
  /-- The types that got new members. -/
  types : List TypeName
  /-- How many libraries there are, counted for each type. -/
  libraryCells : Nat
  stubs : List StubReport
  warnings : List String
  deriving DecidableEq, Repr

namespace StubReport

def ofScaffold (s : StubScaffold) : StubReport :=
  { method := s.stub.qualifiedName
    library := s.stub.library
    loadName := s.library.loadName
    symbol := s.stub.symbol
    convention := s.callSite.convention
    params := s.stub.params.map fun p => ⟨p.name, p.type, p.plan⟩
    returns := ⟨"return", s.stub.returns.type, s.stub.returns.plan⟩ }

def targetText (s : StubReport) : String :=
  let library := if s.loadName = s.library then s.library else s.library ++ " as " ++ s.loadName
  library ++ "!" ++ s.symbol ++ " (" ++ s.convention.display ++ ")"

def lines (s : StubReport) : List String :=
  let params := s.params.map fun p =>
    p.name ++ ": " ++ p.type.display ++ " [" ++ p.plan.display ++ "]"
  ["  " ++ s.method ++ "(" ++ ", ".intercalate params ++ ") -> " ++ s.returns.type.display ++
      " [" ++ s.returns.plan.display ++ "]",
    "    " ++ s.targetText]

end StubReport

namespace Report

def empty (module : String) (helperType : TypeName) : Report :=
  ⟨module, helperType, 0, true, [], 0, [], []⟩

def addType (r : Report) (t : TypeScaffold) : Report :=
  { r with
    unchanged := false
    types := r.types ++ [t.owner]
    libraryCells := r.libraryCells + t.libraries.length
    stubs := r.stubs ++ t.stubs.map StubReport.ofScaffold }

def lines (r : Report) : List String :=
  let head := ["=== Rewrite Report ===", "Module: " ++ r.module,
    "Duration: " ++ toString r.duration ++ " ms"]
  if r.unchanged then head ++ ["No import stubs to rewrite; module unchanged."]
  else
    let warnings :=
      if r.warnings.isEmpty then []
      else "" :: ("--- Warnings (" ++ toString r.warnings.length ++ ") ---") ::
        r.warnings.map ("  " ++ ·)
    head ++
      ["Helper type: " ++ r.helperType.display,
        "Rewritten: " ++ toString r.stubs.length ++ " stubs in " ++ toString r.types.length ++
          " types (" ++ toString r.libraryCells ++ " library cells)",
        "", "--- Stubs ---"] ++
      r.stubs.flatMap StubReport.lines ++ warnings

/-- One line after the other, each ended. -/
def toText (r : Report) : String := String.join (r.lines.map (· ++ "\n"))

end Report

/-- The kind of a plan, and the detail of the kinds that have one. -/
def SlotPlan.toJson : SlotPlan → Json
  | direct => .obj [("kind", .str "direct")]
  | ansiString => .obj [("kind", .str "ansi_string")]
  | unicodeString => .obj [("kind", .str "unicode_string")]
  | blittableArray => .obj [("kind", .str "blittable_array")]
  | stringArray .ansi => .obj [("kind", .str "string_array"), ("detail", .str "ansi")]
  | stringArray .unicode => .obj [("kind", .str "string_array"), ("detail", .str "unicode")]
  | delegate => .obj [("kind", .str "delegate")]
  | byRef => .obj [("kind", .str "by_ref")]
  | boolean .int32 => .obj [("kind", .str "boolean_to_int"), ("detail", .str "int32")]
  | boolean .byte => .obj [("kind", .str "boolean_to_int"), ("detail", .str "byte")]

def SlotReport.toJson (s : SlotReport) : Json :=
  .obj [("name", .str s.name), ("type", .str s.type.display), ("plan", s.plan.toJson)]

def StubReport.toJson (s : StubReport) : Json :=
  .obj [("method", .str s.method), ("library", .str s.library), ("load_name", .str s.loadName),
    ("symbol", .str s.symbol), ("convention", .str s.convention.display),
    ("params", .arr (s.params.map SlotReport.toJson)), ("returns", s.returns.toJson)]

def Report.toJson (r : Report) : Json :=
  .obj [("module", .str r.module), ("helper_type", .str r.helperType.display),
    ("duration_ms", .nat r.duration), ("unchanged", .bool r.unchanged),
    ("types", Json.strs (r.types.map TypeName.display)), ("library_cells", .nat r.libraryCells),
    ("stubs", .arr (r.stubs.map StubReport.toJson)), ("warnings", Json.strs r.warnings)]

end LateBind

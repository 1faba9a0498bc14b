import LateBind.Bytes
import LateBind.Digest.Sha256
import LateBind.Json.Parser
import LateBind.Json.Printer
import LateBind.Module.Format

/-! Module images: a header of forty bytes, the module as JSON text, and the SHA-256 digest of
everything before it. -/

namespace LateBind

namespace Image

/-- The first bytes of every image. -/
def magic : Bytes := [0x4E, 0x4D, 0x44, 0x00]

def headerSize : Nat := 40

def digestSize : Nat := 32

structure Version where
  major : UInt8
  minor : UInt8
  patch : UInt8
  deriving DecidableEq, Repr

namespace Version

def current : Version := ⟨0, 1, 0⟩

/-- The same major version, and a minor version that is not newer. -/
def isCompatible (v : Version) : Bool :=
  v.major == current.major && v.minor ≤ current.minor

def display (v : Version) : String :=
  toString v.major ++ "." ++ toString v.minor ++ "." ++ toString v.patch

end Version

/-- Why bytes are no image. -/
inductive ReadError
  | invalidMagic
  | unsupportedVersion (version : Version)
  | hashMismatch
  | notAModule
  | tooSmall
  /-- No answer: the sum of the sizes leaves the machine word, and the program stops. -/
  | overflow
  deriving DecidableEq, Repr

/-- The text of an error; what keeps a payload from being a module is not told. -/
def ReadError.message? : ReadError → Option String
  | invalidMagic => some "invalid magic bytes: expected NMD\\0"
  | unsupportedVersion version => some ("unsupported format version " ++ version.display)
  | hashMismatch => some "content hash mismatch: file is corrupted"
  | notAModule => none
  | tooSmall => some "file too small to be a valid module image"
  | overflow => none

structure Flags where
  bits : UInt8
  deriving DecidableEq, Repr

namespace Flags

def none : Flags := ⟨0⟩

/-- The module still has import stubs. -/
def hasImportStubs : UInt8 := 0x01

/-- The module comes with definitions from other modules. -/
def hasReferences : UInt8 := 0x02

/-- Stubs of the module have been bound late. -/
def lateBound : UInt8 := 0x04

def has (f : Flags) (flag : UInt8) : Bool := f.bits &&& flag != 0

def set (f : Flags) (flag : UInt8) : Flags := ⟨f.bits ||| flag⟩

end Flags

/-- What can be told of an image without reading its module. -/
structure Header where
  version : Version
  flags : Flags
  typeCount : UInt64
  methodCount : UInt64
  stubCount : UInt64
  payloadLength : UInt64
  deriving DecidableEq, Repr

namespace Header

def toBytes (h : Header) : Bytes :=
  magic ++ [h.version.major, h.version.minor, h.version.patch, h.flags.bits] ++
    Bytes.ofWord h.typeCount ++ Bytes.ofWord h.methodCount ++ Bytes.ofWord h.stubCount ++
    Bytes.ofWord h.payloadLength

/-- The word of which the first byte stands at a position. -/
def wordAt (data : Bytes) (position : Nat) : UInt64 :=
  UInt64.ofNat (Bytes.toNat ((data.drop position).take 8))

/-- Reads the header at the start of an image. -/
def parse (data : Bytes) : Except ReadError Header :=
  if data.length < headerSize + digestSize then .error .tooSmall
  else if data.take 4 ≠ magic then .error .invalidMagic
  else
    let byteAt (position : Nat) : UInt8 := (data[position]?).getD 0
    let version : Version := ⟨byteAt 4, byteAt 5, byteAt 6⟩
    if version.isCompatible then
      .ok ⟨version, ⟨byteAt 7⟩, wordAt data 8, wordAt data 16, wordAt data 24, wordAt data 32⟩
    else .error (.unsupportedVersion version)

end Header

end Image

/-- A module with the version and the flags it is stored under. -/
structure Image where
  version : Image.Version
  flags : Image.Flags
  module : Module
  deriving DecidableEq, Repr

namespace Image

/-- The flags that a module's content asks for. -/
def Flags.ofModule (m : Module) : Flags :=
  let stubs := if 0 < m.stubCount then Flags.none.set Flags.hasImportStubs else Flags.none
  if m.references.isEmpty then stubs else stubs.set Flags.hasReferences

def ofModule (m : Module) : Image := ⟨Version.current, Flags.ofModule m, m⟩

/-- The stored text of the module. -/
def payload (image : Image) : String := image.module.toJson.render

def header (image : Image) : Header :=
  { version := image.version
    flags := image.flags
    typeCount := UInt64.ofNat image.module.types.length
    methodCount := UInt64.ofNat image.module.methodCount
    stubCount := UInt64.ofNat image.module.stubCount
    payloadLength := UInt64.ofNat (Bytes.ofText image.payload).length }

def toBytes (image : Image) : Bytes :=
  let content := image.header.toBytes ++ Bytes.ofText image.payload
  content ++ Sha256.digest content

/-- The module that a stored text stands for. -/
def moduleOfPayload? (payload : Bytes) : Option Module :=
  (Json.ofSymbols? (Utf8.symbols payload)).bind (Module.ofJson? .text)

/-- Sizes are counted in a machine word and lie below this. -/
def wordBound : Nat := 0x10000000000000000

/-- Reads an image; bytes behind its digest do not matter. Of the two sums that give its size only
the first is checked. -/
def ofBytes (data : Bytes) : Except ReadError Image := do
  let header ← Header.parse data
  let payloadEnd := headerSize + header.payloadLength.toNat
  if wordBound ≤ payloadEnd then throw .tooSmall
  if wordBound ≤ payloadEnd + digestSize then throw .overflow
  if data.length < payloadEnd + digestSize then throw .tooSmall
  if Sha256.digest (data.take payloadEnd) ≠ (data.drop payloadEnd).take digestSize then
    throw .hashMismatch
  match moduleOfPayload? ((data.take payloadEnd).drop headerSize) with
  | none => throw .notAModule
  | some m => return ⟨header.version, header.flags, m⟩

end Image

end LateBind

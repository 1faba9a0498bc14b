import LateBind.Native.System
import LateBind.Proofs.Memory
import LateBind.Proofs.Texts

/-! # Functions of the system

What the functions of the system's loader and `uname` return when the texts they are given are the
latest block of memory. -/

namespace LateBind

namespace Native

variable {α β : Type} {p p' : NativeState}

@[simp]
theorem bind_apply (x : Native α) (g : α → Native β) (p : NativeState) : (x >>= g) p =
    match x p with
    | (.ok a, p') => g a p'
    | (.error e, p') => (.error e, p') := by
  simp only [bind, ExceptT.bind, ExceptT.mk, StateT.bind]
  rcases x p with ⟨r, p'⟩
  cases r <;> rfl

@[simp]
theorem pure_apply (a : α) (p : NativeState) : (pure a : Native α) p = (.ok a, p) := rfl

@[simp]
theorem map_apply (g : α → β) (x : Native α) (p : NativeState) : (g <$> x) p =
    match x p with
    | (.ok a, p') => (.ok (g a), p')
    | (.error e, p') => (.error e, p') := by
  rw [map_eq_pure_bind, bind_apply]
  rfl

@[simp]
theorem modify_apply (g : NativeState → NativeState) (p : NativeState) :
    (modify g : Native PUnit) p = (.ok ⟨⟩, g p) := rfl

theorem access_apply {address : UInt64} {result : Heap → Option α} {a : α}
    (found : result p.heap = some a) : access address result p = (.ok a, p) := by
  have got : (get : Native NativeState) p = (.ok p, p) := rfl
  simp [access, got, found]

theorem write_apply {address : UInt64} {bytes : Bytes} {heap : Heap}
    (written : p.heap.write? address bytes = some heap) :
    write address bytes p = (.ok (), { p with heap }) := by
  have found : access address (·.write? address bytes) p = (.ok heap, p) := access_apply written
  simp [write, change, found]

@[simp]
theorem pointerArg_apply {args : List NativeValue} {i : Nat} {a : UInt64}
    (arg : args[i]? = some (.ptr a)) (p : NativeState) : pointerArg args i p = (.ok a, p) := by
  simp [pointerArg, argument, arg, NativeValue.toPointer?]

@[simp]
theorem int32Arg_apply {args : List NativeValue} {i : Nat} {n : Int32}
    (arg : args[i]? = some (.i32 n)) (p : NativeState) : int32Arg args i p = (.ok n, p) := by
  simp [int32Arg, argument, arg, NativeValue.toInt32?]

end Native

namespace Heap.Latest

variable {h : Heap} {start : UInt64} {text : String}

/-- A text of bytes reads as it was written. -/
theorem readByteString? {bytes rest : Bytes} (latest : h.Latest start (bytes ++ 0 :: rest))
    (free : 0 ∉ bytes) : h.readByteString? start = some bytes := by
  rw [Heap.readByteString?, latest.readToEnd?]
  exact untilZero?_append free rest

theorem readUnits? {units : Units} (latest : h.Latest start (Bytes.ofUnits units ++ [0, 0]))
    (free : 0 ∉ units) : h.readUnits? start = some units := by
  rw [Heap.readUnits?, latest.readToEnd?, Option.bind_some, Bytes.toUnits_ofUnits_append_zeros]
  exact untilZero?_append free []

end Heap.Latest

namespace Native

variable {p : NativeState} {address : UInt64} {text : String}

theorem readAnsi_apply (latest : p.heap.Latest address (Latin1.encode text ++ [0]))
    (plain : Latin1.Plain text) : readAnsi address p = (.ok text, p) := by
  refine access_apply ?_
  rw [latest.readByteString? plain.zero_notMem_encode, Option.map_some, plain.decode_encode]

theorem readWide_apply (latest : p.heap.Latest address (Bytes.ofUnits (Units.ofString text) ++ [0, 0]))
    (plain : Latin1.Plain text) : readWide address p = (.ok text, p) := by
  refine access_apply ?_
  rw [latest.readUnits? plain.zero_notMem_ofString, Option.map_some, Units.toText_ofString]

end Native

/-! ## The functions of the loader -/

namespace SystemFunction

variable {cx : NativeContext} {p : NativeState} {a handle : UInt64} {text : String}

/-- The state after a request to open a library. -/
def asked (p : NativeState) (name : String) (flags : Int32) : NativeState :=
  { p with loads := p.loads ++ [⟨name, flags⟩] }

theorem openLibrary_apply (cx : NativeContext) (name : String) (flags : Int32) (p : NativeState) :
    cx.openLibrary name flags p = (.ok ((cx.catalog.handle? name).getD 0), asked p name flags) := rfl

theorem dlopen_apply (latest : p.heap.Latest a (Latin1.encode text ++ [0]))
    (plain : Latin1.Plain text) (flags : Int32) :
    dlopen cx [.ptr a, .i32 flags] p =
      (.ok (.ptr ((cx.catalog.handle? text).getD 0)), asked p text flags) := by
  simp [dlopen, Native.readAnsi_apply latest plain, openLibrary_apply]

theorem loadLibraryW_apply
    (latest : p.heap.Latest a (Bytes.ofUnits (Units.ofString text) ++ [0, 0]))
    (plain : Latin1.Plain text) :
    loadLibraryW cx [.ptr a] p =
      (.ok (.ptr ((cx.catalog.handle? text).getD 0)), asked p text 0) := by
  simp [loadLibraryW, Native.readWide_apply latest plain,
    openLibrary_apply]

theorem findSymbol_apply (latest : p.heap.Latest a (Latin1.encode text ++ [0]))
    (plain : Latin1.Plain text) :
    findSymbol cx [.ptr handle, .ptr a] p = (.ok (.ptr (cx.catalog.symbol handle text)), p) := by
  simp [findSymbol, Native.readAnsi_apply latest plain]

theorem dlclose_apply : dlclose cx [.ptr handle] p =
    (.ok (.i32 (if cx.catalog.isHandle handle then 0 else -1)), p) := by
  simp [dlclose]

theorem freeLibrary_apply : freeLibrary cx [.ptr handle] p =
    (.ok (.ofBool (cx.catalog.isHandle handle)), p) := by
  simp [freeLibrary]

/-! ## The name of the system -/

/-- What `uname` writes. -/
def record (platform : Platform) : Bytes :=
  let name := (Latin1.encode platform.systemName).take platform.unameSize
  name ++ List.replicate (platform.unameSize - name.length) 0

@[simp]
theorem length_record (platform : Platform) : (record platform).length = platform.unameSize := by
  simp only [record, List.length_append, List.length_replicate, List.length_take]
  omega

theorem uname_apply {platform : Platform} {buffer : Bytes} (latest : p.heap.Latest a buffer)
    (fits : platform.unameSize ≤ buffer.length) :
    ∃ heap : Heap, heap.Latest a (record platform ++ buffer.drop platform.unameSize) ∧
      ∀ cx : NativeContext, cx.catalog.platform = platform →
        uname cx [.ptr a] p = (.ok (.i32 0), { p with heap }) := by
  have inside : (record platform).length ≤ buffer.length := by rwa [length_record]
  obtain ⟨heap, writes, after⟩ := latest.write? inside
  rw [length_record] at after
  refine ⟨heap, after, fun cx same => ?_⟩
  have unfolded : uname cx [.ptr a] = (do
      Native.write (← Native.pointerArg [.ptr a] 0) (record cx.catalog.platform)
      return .i32 0) := rfl
  simp [unfolded, same, Native.write_apply writes]

end SystemFunction

end LateBind

import LateBind.Proofs.Detection

/-! # The imports of the helper type

Each import of the helper type stands for a function of the system's loader, which answers from the
catalog of the world. -/

namespace LateBind

open Machine

namespace Helper

variable {m : Machine} {helper : TypeName} {s : MachineState} {address handle : UInt64}
  {r : ObjRef} {text : String}

def openImport (flavor : UnixFlavor) : MethodDef :=
  loaderImport (flavor.mark ++ "dlopen") flavor.library "dlopen"
    [("fileName", .string), ("flags", .i32)] .intPtr .cdecl .ansi

def closeImport (flavor : UnixFlavor) : MethodDef :=
  loaderImport (flavor.mark ++ "dlclose") flavor.library "dlclose" [("handle", .intPtr)] .i32 .cdecl
    .ansi

def symbolImport (flavor : UnixFlavor) : MethodDef :=
  loaderImport (flavor.mark ++ "dlsym") flavor.library "dlsym"
    [("handle", .intPtr), ("symbol", .string)] .intPtr .cdecl .ansi

def windowsOpenImport : MethodDef :=
  loaderImport "windows_LoadLibrary" "kernel32" "LoadLibraryW" [("fileName", .string)] .intPtr
    .winapi .unicode

def windowsCloseImport : MethodDef :=
  loaderImport "windows_FreeLibrary" "kernel32" "FreeLibrary" [("handle", .intPtr)] .i32 .winapi
    .ansi

def windowsSymbolImport : MethodDef :=
  loaderImport "windows_GetProcAddress" "kernel32" "GetProcAddress"
    [("handle", .intPtr), ("symbol", .string)] .intPtr .winapi .ansi

theorem mem_unixImports (helper : TypeName) (flags : Int32) (flavor : UnixFlavor) :
    openImport flavor ∈ methods helper flags ∧ closeImport flavor ∈ methods helper flags ∧
      symbolImport flavor ∈ methods helper flags := by
  have all {i : Nat} {imported : MethodDef} (at_ : (methods helper flags)[i]? = some imported) :
      imported ∈ methods helper flags := List.mem_of_getElem? at_
  cases flavor with
  | linux => exact ⟨all (i := 0) rfl, all (i := 1) rfl, all (i := 2) rfl⟩
  | darwin => exact ⟨all (i := 3) rfl, all (i := 4) rfl, all (i := 5) rfl⟩
  | bsd => exact ⟨all (i := 6) rfl, all (i := 7) rfl, all (i := 8) rfl⟩

/-! ## Arguments -/

theorem passArguments_text {charSet : CharSet} {method : MethodDef}
    (params : method.paramTypes = [.string])
    (found : s.objects[r.index]? = some (.str (Units.ofString text))) :
    m.passArguments charSet method [.ref r] s =
      (.ok [(.ptr s.native.heap.nextAddress, some s.native.heap.nextAddress)],
        copied s (encodeString charSet (Units.ofString text))) := by
  simp [passArguments, params, passArgument_string charSet found]

theorem passArguments_text_i32 {charSet : CharSet} {method : MethodDef} {n : Int32}
    (params : method.paramTypes = [.string, .i32])
    (found : s.objects[r.index]? = some (.str (Units.ofString text))) :
    m.passArguments charSet method [.ref r, .i32 n] s =
      (.ok [(.ptr s.native.heap.nextAddress, some s.native.heap.nextAddress), (.i32 n, none)],
        copied s (encodeString charSet (Units.ofString text))) := by
  have number (s : MachineState) : m.passArgument charSet .i32 (.i32 n) s = (.ok (.i32 n, none), s) :=
    rfl
  simp [passArguments, params, passArgument_string charSet found, number]

theorem passArguments_intPtr_text {charSet : CharSet} {method : MethodDef}
    (params : method.paramTypes = [.intPtr, .string])
    (found : s.objects[r.index]? = some (.str (Units.ofString text))) :
    m.passArguments charSet method [.ptr handle, .ref r] s =
      (.ok [(.ptr handle, none),
          (.ptr s.native.heap.nextAddress, some s.native.heap.nextAddress)],
        copied s (encodeString charSet (Units.ofString text))) := by
  have pointer : m.passArgument charSet .intPtr (.ptr handle) s = (.ok (.ptr handle, none), s) := rfl
  simp [passArguments, params, passArgument_string charSet found, pointer]

theorem encodeString_ofString (text : String) :
    encodeString .ansi (Units.ofString text) = Latin1.encode text ++ [0] := by
  rw [encodeString, Units.toText_ofString]

theorem takeResult_intPtr {charSet : CharSet} {p : UInt64} (s : MachineState) :
    m.takeResult charSet .intPtr (.ptr p) s = (.ok (some (.ptr p)), s) := rfl

/-! ## Answers -/

section Answers

variable {name library entry : String} {convention : ImportConv} (unpinned : s.pins = [])

include unpinned

theorem open_ends (exports : m.world.Exports library entry SystemFunction.dlopen address)
    (found : s.objects[r.index]? = some (.str (Units.ofString text))) (plain : Latin1.Plain text)
    (flags : Int32) :
    ∃ s', m.Ends ⟨helper, loaderImport name library entry [("fileName", .string), ("flags", .i32)]
          .intPtr convention .ansi⟩ [.ref r, .i32 flags] s
        (.ok (some (.ptr ((m.world.catalog.handle? text).getD 0)))) s' ∧
      s.Steady [address] [⟨text, flags⟩] s' := by
  obtain ⟨_, g, finds, body⟩ := exports.finds
  refine Ends.ofTextImport rfl finds unpinned (passArguments_text_i32 rfl found) rfl
    (fun call p latest => ?_) takeResult_intPtr
  rw [body]
  rw [encodeString_ofString] at latest
  exact SystemFunction.dlopen_apply latest plain flags

theorem windowsOpen_ends (exports : m.world.Exports library entry SystemFunction.loadLibraryW address)
    (found : s.objects[r.index]? = some (.str (Units.ofString text))) (plain : Latin1.Plain text) :
    ∃ s', m.Ends ⟨helper, loaderImport name library entry [("fileName", .string)] .intPtr convention
          .unicode⟩ [.ref r] s
        (.ok (some (.ptr ((m.world.catalog.handle? text).getD 0)))) s' ∧
      s.Steady [address] [⟨text, 0⟩] s' := by
  obtain ⟨_, g, finds, body⟩ := exports.finds
  refine Ends.ofTextImport rfl finds unpinned (passArguments_text rfl found) rfl
    (fun call p latest => ?_) takeResult_intPtr
  rw [body]
  exact SystemFunction.loadLibraryW_apply latest plain

theorem symbol_ends (exports : m.world.Exports library entry SystemFunction.findSymbol address)
    (found : s.objects[r.index]? = some (.str (Units.ofString text))) (plain : Latin1.Plain text)
    (handle : UInt64) :
    ∃ s', m.Ends ⟨helper, loaderImport name library entry [("handle", .intPtr), ("symbol", .string)]
          .intPtr convention .ansi⟩ [.ptr handle, .ref r] s
        (.ok (some (.ptr (m.world.catalog.symbol handle text)))) s' ∧
      s.Steady [address] [] s' := by
  obtain ⟨_, g, finds, body⟩ := exports.finds
  refine Ends.ofTextImport rfl finds unpinned (passArguments_intPtr_text rfl found) rfl
    (fun call p latest => ?_) takeResult_intPtr
  rw [body, List.append_nil]
  rw [encodeString_ofString] at latest
  exact SystemFunction.findSymbol_apply latest plain

/-- A handle is let go of, with the status that the function gives. -/
theorem close_ends {body : NativeBody} {status : Int32}
    (exports : m.world.Exports library entry body address)
    (gives : ∀ cx : NativeContext, cx.catalog = m.world.catalog → ∀ p,
      body cx [.ptr handle] p = (.ok (.i32 status), p)) :
    ∃ s', m.Ends ⟨helper, loaderImport name library entry [("handle", .intPtr)] .i32 convention
          .ansi⟩ [.ptr handle] s (.ok (some (.i32 status))) s' ∧ s.Steady [address] [] s' := by
  obtain ⟨_, g, finds, rfl⟩ := exports.finds
  let method : MethodDef :=
    loaderImport name library entry [("handle", .intPtr)] .i32 convention .ansi
  have passes : m.passArguments .ansi method [.ptr handle] s = (.ok [(.ptr handle, none)], s) := rfl
  have takes (s : MachineState) : m.takeResult .ansi .i32 (.i32 status) s =
      (.ok (some (.i32 status)), s) := rfl
  exact ⟨_, Ends.ofScalarImport rfl finds unpinned passes rfl (fun call => gives _ rfl _) takes,
    ⟨fun _ _ => id, rfl, rfl, by simp⟩, rfl⟩

end Answers

end Helper

end LateBind

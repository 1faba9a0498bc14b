import LateBind.Native.World

/-! The libraries that a platform brings along: its loader, and on a Unix `uname`. -/

namespace LateBind

namespace SystemFunction

/-- Opens the library of a wide name. -/
def loadLibraryW : NativeBody := fun cx args => do
  let name ← Native.readWide (← Native.pointerArg args 0)
  return .ptr (← cx.openLibrary name 0)

/-- One for a handle, zero for anything else. -/
def freeLibrary : NativeBody := fun cx args => do
  return .ofBool (cx.catalog.isHandle (← Native.pointerArg args 0))

/-- The address of a symbol; its name is read before the handle is looked at. -/
def findSymbol : NativeBody := fun cx args => do
  let symbol ← Native.readAnsi (← Native.pointerArg args 1)
  let handle ← Native.pointerArg args 0
  return .ptr (cx.catalog.symbol handle symbol)

/-- Opens the library of a name; the name is read before the flags are looked at. -/
def dlopen : NativeBody := fun cx args => do
  let name ← Native.readAnsi (← Native.pointerArg args 0)
  let flags ← Native.int32Arg args 1
  return .ptr (← cx.openLibrary name flags)

/-- Zero for a handle, minus one for anything else. -/
def dlclose : NativeBody := fun cx args => do
  let known := cx.catalog.isHandle (← Native.pointerArg args 0)
  return .i32 (if known then 0 else -1)

/-- Writes a whole record that starts with the name of the system, and faults in a smaller
buffer. -/
def uname : NativeBody := fun cx args => do
  let buffer ← Native.pointerArg args 0
  let platform := cx.catalog.platform
  let size := platform.unameSize
  let name := (Latin1.encode platform.systemName).take size
  Native.write buffer (name ++ List.replicate (size - name.length) 0)
  return .i32 0

end SystemFunction

namespace Platform

def dynamicLoader : List (String × NativeBody) :=
  [("dlopen", SystemFunction.dlopen), ("dlclose", SystemFunction.dlclose),
    ("dlsym", SystemFunction.findSymbol)]

def systemLibraries (p : Platform) : List LibraryDecl :=
  match p.family with
  | .windows =>
    [⟨"kernel32", [("LoadLibraryW", SystemFunction.loadLibraryW),
      ("FreeLibrary", SystemFunction.freeLibrary), ("GetProcAddress", SystemFunction.findSymbol)]⟩]
  | .unix =>
    let libc : LibraryDecl := ⟨"libc", [("uname", SystemFunction.uname)]⟩
    match p.loaderLibrary? with
    | none => [libc]
    | some name =>
      if name = libc.name then [⟨name, libc.functions ++ dynamicLoader⟩]
      else [⟨name, dynamicLoader⟩, libc]

end Platform

/-- The libraries of a platform, and then those that are declared. -/
def World.build (platform : Platform) (declared : List LibraryDecl) : World :=
  (platform.systemLibraries ++ declared).foldl World.declare (World.empty platform)

end LateBind

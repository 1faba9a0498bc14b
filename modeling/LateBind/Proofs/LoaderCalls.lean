import LateBind.Proofs.Startup

/-! # Calls of the loader

What the methods that load, resolve and let go answer on each kind of platform. A world that is built
for a platform has the functions of its loader, and there each method gives the answer that the kind
of the platform says. -/

namespace LateBind

open Machine

/-! ## Calls and their answers -/

/-- A call of one of the methods of the helper type that load libraries. -/
inductive LoaderCall
  | load (name : String)
  | resolve (handle : UInt64) (symbol : String)
  | release (handle : UInt64)

namespace LoaderCall

/-- Texts cross to native code as they are. -/
def Plain : LoaderCall → Prop
  | load text | resolve _ text => Latin1.Plain text
  | release _ => True

/-- What the system's loader answers. -/
def answer (c : Catalog) : LoaderCall → Except String Value
  | load name =>
    match c.handle? name with
    | some handle => .ok (.ptr handle)
    | none => .error (Helper.loadFailed ++ name)
  | resolve handle symbol =>
    if c.symbol handle symbol = 0 then .error (Helper.resolveFailed ++ symbol)
    else .ok (.ptr (c.symbol handle symbol))
  | release handle =>
    match c.platform.family with
    | .unix => .ok (.i32 (if c.isHandle handle then 0 else -1))
    | .windows => .ok (.i32 (if c.isHandle handle then 1 else 0))

/-- The function of a Unix library that answers. -/
def unixSymbol : LoaderCall → String
  | load _ => "dlopen"
  | resolve _ _ => "dlsym"
  | release _ => "dlclose"

/-- The function of the Windows library that answers. -/
def windowsSymbol : LoaderCall → String
  | load _ => "LoadLibraryW"
  | resolve _ _ => "GetProcAddress"
  | release _ => "FreeLibrary"

/-- The request for a library, with the flags that go along. -/
def requests (flags : Int32) : LoaderCall → List LoadRequest
  | load name => [⟨name, flags⟩]
  | resolve _ _ | release _ => []

end LoaderCall

/-- What a platform does for calls of the helper type. -/
inductive LoaderKind
  /-- A Unix with a loader library of its own, and its number. -/
  | unix (library : String) (number : Nat)
  | windows
  /-- A Unix that is not known. -/
  | unsupported

namespace Platform

def loaderKind (p : Platform) : LoaderKind :=
  match p.family, p.loaderLibrary? with
  | .windows, _ => .windows
  | .unix, some library => .unix library (Helper.systems.findIdx (·.1 == p.systemName) + 1)
  | .unix, none => .unsupported

end Platform

namespace LoaderKind

/-- The number of the system once it has been looked for; zero when it has none. -/
def number : LoaderKind → Nat
  | unix _ number => number
  | windows | unsupported => 0

/-- The answer to a call. -/
def answer (kind : LoaderKind) (c : Catalog) (call : LoaderCall) : Except String Value :=
  match kind with
  | unix _ _ | windows => call.answer c
  | unsupported => .error Helper.platformNotSupported

/-- The functions that are called for an answer, by library and symbol. A Unix is asked for its name
while its number is zero. -/
def functions (kind : LoaderKind) (number : Nat) (call : LoaderCall) : List (String × String) :=
  match kind with
  | unix library _ =>
    (if number = 0 then [("libc", "uname")] else []) ++ [(library, call.unixSymbol)]
  | windows => [("kernel32", call.windowsSymbol)]
  | unsupported => [("libc", "uname")]

/-- The functions that are called for a sequence of calls. -/
def trace (kind : LoaderKind) (number : Nat) : List LoaderCall → List (String × String)
  | [] => []
  | call :: rest => kind.functions number call ++ kind.trace kind.number rest

/-- The libraries that are asked for; Windows takes no flags. -/
def requests (kind : LoaderKind) (flags : Int32) (call : LoaderCall) : List LoadRequest :=
  match kind with
  | unix _ _ => call.requests flags
  | windows => call.requests 0
  | unsupported => []

end LoaderKind

/-! ## Platforms -/

open Helper

/-- The platform of the machine is of a kind, and its world has the functions of the loader. -/
inductive Machine.HasLoader (m : Machine) : LoaderKind → Prop
  | unix {place : Nat} {flavor : UnixFlavor} {at_ : Unix.Addresses} :
    Unix.Known m place flavor at_ → m.HasLoader (.unix flavor.library (place + 1))
  | windows {load symbol free : UInt64} : Windows m load symbol free → m.HasLoader .windows
  | unsupported {address : UInt64} : Unix.Unknown m address → m.HasLoader .unsupported

namespace Platform

/-- A Unix of any name, or Windows. -/
inductive IsUnixOrWindows : Platform → Prop
  | unix {name : String} : '\x00' ∉ name.toList → IsUnixOrWindows (.unix name)
  | windows : IsUnixOrWindows .windows

theorem IsUnixOrWindows.endsLines {p : Platform} (known : p.IsUnixOrWindows) : EndsLines p := by
  cases known with
  | unix free => exact ⟨fun _ => rfl, fun _ => rfl⟩
  | windows => exact ⟨fun same => absurd same (by decide), fun family => nomatch family⟩

/-- The platform brings along a function of a library. -/
def Brings (p : Platform) (library symbol : String) (body : NativeBody) : Prop :=
  ∃ d ∈ p.systemLibraries, d.name = library ∧ (symbol, body) ∈ d.functions

theorem brings_at {p : Platform} {library symbol : String} {body : NativeBody} (i j : Nat)
    {d : LibraryDecl} (hd : p.systemLibraries[i]? = some d) (own : d.name = library)
    (he : d.functions[j]? = some (symbol, body)) : p.Brings library symbol body :=
  ⟨d, List.mem_of_getElem? hd, own, List.mem_of_getElem? he⟩

theorem windows_brings : windows.exports.Nodup ∧
    windows.Brings "kernel32" "LoadLibraryW" SystemFunction.loadLibraryW ∧
    windows.Brings "kernel32" "GetProcAddress" SystemFunction.findSymbol ∧
    windows.Brings "kernel32" "FreeLibrary" SystemFunction.freeLibrary :=
  ⟨by decide, brings_at 0 0 rfl rfl rfl, brings_at 0 2 rfl rfl rfl, brings_at 0 1 rfl rfl rfl⟩

variable {name : String} {place : Nat} {flavor : UnixFlavor}

/-- What a Unix of the table is, and what it brings along. -/
theorem unix_of_system (system : systems[place]? = some (name, flavor)) :
    (unix name).loaderKind = .unix flavor.library (place + 1) ∧ (unix name).exports.Nodup ∧
      (unix name).Brings "libc" "uname" SystemFunction.uname ∧
      (unix name).Brings flavor.library "dlopen" SystemFunction.dlopen ∧
      (unix name).Brings flavor.library "dlsym" SystemFunction.findSymbol ∧
      (unix name).Brings flavor.library "dlclose" SystemFunction.dlclose := by
  match place, system with
  | 0, rfl =>
    exact ⟨rfl, by decide, brings_at 1 0 rfl rfl rfl, brings_at 0 0 rfl rfl rfl,
      brings_at 0 2 rfl rfl rfl, brings_at 0 1 rfl rfl rfl⟩
  | 1, rfl =>
    exact ⟨rfl, by decide, brings_at 1 0 rfl rfl rfl, brings_at 0 0 rfl rfl rfl,
      brings_at 0 2 rfl rfl rfl, brings_at 0 1 rfl rfl rfl⟩
  | 2, rfl =>
    exact ⟨rfl, by decide, brings_at 0 0 rfl rfl rfl, brings_at 0 1 rfl rfl rfl,
      brings_at 0 3 rfl rfl rfl, brings_at 0 2 rfl rfl rfl⟩
  | 3, rfl =>
    exact ⟨rfl, by decide, brings_at 0 0 rfl rfl rfl, brings_at 0 1 rfl rfl rfl,
      brings_at 0 3 rfl rfl rfl, brings_at 0 2 rfl rfl rfl⟩

/-- Another Unix has no loader. -/
theorem unix_of_notMem (unknown : name ∉ systems.map Prod.fst) :
    (unix name).loaderKind = .unsupported ∧ (unix name).exports.Nodup ∧
      (unix name).Brings "libc" "uname" SystemFunction.uname := by
  have noLoader : (unix name).loaderLibrary? = none := by
    have other : name ≠ "Linux" ∧ name ≠ "Darwin" ∧ name ≠ "FreeBSD" ∧ name ≠ "NetBSD" := by
      simpa [systems] using unknown
    unfold loaderLibrary? unix
    split <;> simp_all
  have libraries : (unix name).systemLibraries = [⟨"libc", [("uname", SystemFunction.uname)]⟩] := by
    unfold systemLibraries
    rw [noLoader]
    rfl
  refine ⟨?_, ?_, ⟨_, by rw [libraries]; exact List.mem_singleton.mpr rfl, rfl, by simp⟩⟩
  · unfold loaderKind
    rw [noLoader]
    rfl
  · unfold exports
    rw [libraries]
    decide

end Platform

section Build

variable {m : Machine} {p : Platform} {declared : List LibraryDecl}
  (built : m.world = .build p declared)
  (free : ∀ d ∈ declared, ∀ e ∈ d.exports, e ∉ p.exports) (small : m.world.Small)

include built

theorem Machine.platform_of_build : m.world.catalog.platform = p := by
  rw [built, World.platform_build]

include free small

/-- What a platform brings along can be called in the world that is built for it. -/
theorem Machine.exports_of_build (distinct : p.exports.Nodup) {library symbol : String}
    {body : NativeBody} (brings : p.Brings library symbol body) :
    ∃ address, m.world.Exports library symbol body address := by
  obtain ⟨d, hd, rfl, he⟩ := brings
  rw [built] at small ⊢
  exact (World.provides_build distinct free hd he).exports (World.consistent_build p declared) small

/-- A world that is built for a platform has the functions of its loader. -/
theorem Machine.hasLoader_of_build (known : p.IsUnixOrWindows) : m.HasLoader p.loaderKind := by
  have platform := Machine.platform_of_build built
  cases known with
  | @unix name nulFree =>
    by_cases mem : name ∈ systems.map Prod.fst
    · obtain ⟨⟨name', flavor⟩, hm, rfl⟩ := List.mem_map.mp mem
      obtain ⟨place, system⟩ := List.mem_iff_getElem?.mp hm
      obtain ⟨kind, distinct, uname, dlopen, dlsym, dlclose⟩ := Platform.unix_of_system system
      obtain ⟨a, uname⟩ := Machine.exports_of_build built free small distinct uname
      obtain ⟨b, dlopen⟩ := Machine.exports_of_build built free small distinct dlopen
      obtain ⟨c, dlsym⟩ := Machine.exports_of_build built free small distinct dlsym
      obtain ⟨d, dlclose⟩ := Machine.exports_of_build built free small distinct dlclose
      have known : Unix.Known m place flavor ⟨a, b, c, d⟩ :=
        ⟨by rw [platform]; rfl, by rw [platform]; exact system, uname, dlopen, dlsym, dlclose⟩
      rw [kind]
      exact .unix known
    · obtain ⟨kind, distinct, uname⟩ := Platform.unix_of_notMem mem
      obtain ⟨a, uname⟩ := Machine.exports_of_build built free small distinct uname
      rw [kind]
      exact .unsupported
        ⟨by rw [platform]; rfl, by rw [platform]; exact nulFree, by rw [platform]; exact mem, uname⟩
  | windows =>
    obtain ⟨distinct, load, symbol, release⟩ := Platform.windows_brings
    obtain ⟨a, load⟩ := Machine.exports_of_build built free small distinct load
    obtain ⟨b, symbol⟩ := Machine.exports_of_build built free small distinct symbol
    obtain ⟨c, release⟩ := Machine.exports_of_build built free small distinct release
    exact .windows ⟨by rw [platform]; rfl, load, symbol, release⟩

end Build

/-! ## One call -/

namespace LoaderCall

/-- The method that is called. -/
def method (helper : TypeName) (flags : Int32) : LoaderCall → MethodDef
  | load _ => loadLibraryDef helper flags
  | resolve _ _ => getProcAddressDef helper
  | release _ => freeLibraryDef helper

def methodName : LoaderCall → String
  | load _ => "LoadLibrary"
  | resolve _ _ => "GetProcAddress"
  | release _ => "FreeLibrary"

/-- The arguments, with a reference to the text. -/
def args (r : ObjRef) : LoaderCall → List Value
  | load _ => [.ref r]
  | resolve handle _ => [.ptr handle, .ref r]
  | release handle => [.ptr handle]

/-- The state with an object for the text. -/
def prepare (s : MachineState) : LoaderCall → MachineState
  | load text | resolve _ text => { s with objects := s.objects.push (.str (Units.ofString text)) }
  | release _ => s

/-- Calls the helper type from outside. -/
def perform (m : Machine) (fuel : Nat) (helper : TypeName) (call : LoaderCall) :
    Session (Option Value) := fun s =>
  m.callByName fuel helper.display call.methodName (call.args ⟨s.objects.size⟩) (call.prepare s)

variable {m : Machine} {helper : TypeName} {flags : Int32} {s : MachineState} {number : Nat}

theorem steady_prepare (call : LoaderCall) (s : MachineState) : s.Steady [] [] (call.prepare s) := by
  cases call with
  | load text => exact .push s _
  | resolve handle text => exact .push s _
  | release handle => exact .refl s

end LoaderCall

/-- The world has functions for the libraries and symbols, at the addresses. -/
def World.At (w : World) (functions : List (String × String)) (addresses : List UInt64) : Prop :=
  List.Forall₂ (fun f address => w.catalog.address? f.1 f.2 = some address) functions addresses

section Calls

variable {m : Machine} {helper : TypeName} {flags : Int32} {s : MachineState} {number : Nat}
  (handles : ∀ name handle, m.world.catalog.handle? name = some handle → handle ≠ 0)

include handles

theorem LoaderCall.answer_load (name : String) : (load name).answer m.world.catalog =
    checked ((m.world.catalog.handle? name).getD 0) (loadFailed ++ name) := by
  cases found : m.world.catalog.handle? name with
  | none => simp [answer, found, checked]
  | some handle => simp [answer, found, checked, handles name handle found]

variable (h : m.HasHelper helper flags) (ready : Ready m helper number s) (call : LoaderCall)
  (plain : call.Plain)

include h ready plain

theorem Helper.Unix.Known.serves {place : Nat} {flavor : UnixFlavor} {at_ : Unix.Addresses}
    (known : Unix.Known m place flavor at_) (stage : Unix.Stage place number s) :
    ∃ addresses, m.world.At ((LoaderKind.unix flavor.library (place + 1)).functions number call)
        addresses ∧
      Serves m helper (call.method helper flags) (call.args ⟨s.objects.size⟩) (call.prepare s)
        (call.answer m.world.catalog) addresses (call.requests flags) (place + 1) := by
  have at_asking {symbol : String} {address : UInt64}
      (present : m.world.catalog.address? flavor.library symbol = some address) :
      m.world.At ((if number = 0 then [("libc", "uname")] else []) ++ [(flavor.library, symbol)])
        (Unix.asking at_ number ++ [address]) := by
    unfold Unix.asking
    split
    · exact .cons known.uname.present (.cons present .nil)
    · exact .cons present .nil
  have ready' := ready.steady (call.steady_prepare s)
  have stage' : Unix.Stage place number (call.prepare s) := by
    cases call <;> exact stage
  cases call with
  | load name =>
    refine ⟨_, at_asking known.dlopen.present, ?_⟩
    rw [LoaderCall.answer_load handles]
    exact known.loadLibrary h stage' ready' Array.getElem?_push_size plain
  | resolve handle symbol =>
    refine ⟨_, at_asking known.dlsym.present, ?_⟩
    exact known.getProcAddress h stage' ready' Array.getElem?_push_size plain handle
  | release handle =>
    refine ⟨_, at_asking known.dlclose.present, ?_⟩
    rw [LoaderCall.answer, known.family]
    exact known.freeLibrary h stage' ready' handle

theorem Helper.Windows.serves {loadAddress symbolAddress freeAddress : UInt64}
    (windows : Windows m loadAddress symbolAddress freeAddress) :
    ∃ addresses, m.world.At (LoaderKind.windows.functions number call) addresses ∧
      Serves m helper (call.method helper flags) (call.args ⟨s.objects.size⟩) (call.prepare s)
        (call.answer m.world.catalog) addresses (call.requests 0) number := by
  have ready' := ready.steady (call.steady_prepare s)
  cases call with
  | load name =>
    refine ⟨_, .cons windows.loadLibrary.present .nil, ?_⟩
    rw [LoaderCall.answer_load handles]
    exact windows.serves_loadLibrary h ready' Array.getElem?_push_size plain
  | resolve handle symbol =>
    exact ⟨_, .cons windows.getProcAddress.present .nil,
      windows.serves_getProcAddress h ready' Array.getElem?_push_size plain handle⟩
  | release handle =>
    refine ⟨_, .cons windows.freeLibrary.present .nil, ?_⟩
    rw [LoaderCall.answer, windows.family]
    have served := windows.serves_freeLibrary h ready' handle
    cases isHandle : m.world.catalog.isHandle handle <;> rw [isHandle] at served <;> exact served

omit handles plain in
theorem Helper.Unix.Unknown.serves_error {address : UInt64} (unknown : Unix.Unknown m address)
    (first : number = 0) :
    ∃ addresses, m.world.At (LoaderKind.unsupported.functions number call) addresses ∧
      Serves m helper (call.method helper flags) (call.args ⟨s.objects.size⟩) (call.prepare s)
        (.error platformNotSupported) addresses [] 0 := by
  have ready' := ready.steady (call.steady_prepare s)
  subst first
  refine ⟨_, .cons unknown.uname.present .nil, ?_⟩
  cases call with
  | load name => exact unknown.loadLibrary h ready' _
  | resolve handle symbol => exact unknown.getProcAddress h ready' _ _
  | release handle => exact unknown.freeLibrary h ready' _

/-- Each call is served as the kind of the platform says. -/
theorem Machine.HasLoader.serves {kind : LoaderKind} (loader : m.HasLoader kind)
    (stage : number = kind.number ∨ number = 0 ∧ s.native.heap.nextAddress ≠ 0) :
    ∃ addresses, m.world.At (kind.functions number call) addresses ∧
      Serves m helper (call.method helper flags) (call.args ⟨s.objects.size⟩) (call.prepare s)
        (kind.answer m.world.catalog call) addresses (kind.requests flags call) kind.number := by
  cases loader with
  | unix known => exact known.serves handles h ready call plain stage.symm
  | windows windows =>
    obtain rfl : number = 0 := by
      rcases stage with same | ⟨same, -⟩ <;> exact same
    exact windows.serves handles h ready call plain
  | unsupported unknown =>
    refine unknown.serves_error h ready call ?_
    rcases stage with same | ⟨same, -⟩ <;> exact same

end Calls

end LateBind

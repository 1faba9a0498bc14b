import LateBind.Text.Quoted

/-! Operating systems, as programs can tell them apart. -/

namespace LateBind

inductive OsFamily
  | unix | windows
  deriving DecidableEq, Repr

def OsFamily.display : OsFamily → String
  | unix => "Unix"
  | windows => "Windows"

structure Platform where
  family : OsFamily
  /-- What `uname` reports. -/
  systemName : String
  newline : String
  deriving DecidableEq, Repr

namespace Platform

def unix (systemName : String) : Platform := ⟨.unix, systemName, "\n"⟩

def linux : Platform := unix "Linux"
def darwin : Platform := unix "Darwin"
def freeBSD : Platform := unix "FreeBSD"
def netBSD : Platform := unix "NetBSD"

def windows : Platform := ⟨.windows, "Windows_NT", "\r\n"⟩

/-- The library with `dlopen`, `dlclose` and `dlsym`; a Unix that is not known has none. -/
def loaderLibrary? (p : Platform) : Option String :=
  match p.family, p.systemName with
  | .unix, "Linux" => some "libdl"
  | .unix, "Darwin" => some "libSystem"
  | .unix, "FreeBSD" | .unix, "NetBSD" => some "libc"
  | _, _ => none

/-- The size of what `uname` writes: six fields of 65 bytes on Linux, five of 256 elsewhere. -/
def unameSize (p : Platform) : Nat :=
  if p.systemName = "Linux" then 6 * 65 else 5 * 256

/-- A record of the fields, for diagnostics. -/
def display (p : Platform) : String :=
  "Platform \x7b family: " ++ p.family.display ++ ", sysname: " ++ Text.quote p.systemName ++
    ", newline: " ++ Text.quote p.newline ++ " \x7d"

end Platform

end LateBind

import LateBind.Command

/-! The command line: an input image, an output image, and options. -/

open LateBind

namespace LateBind.Main

structure Options where
  paths : List String
  config : Option String
  format : Command.ReportFormat
  quiet : Bool

def usage : String :=
  "usage: latebind INPUT OUTPUT [--config FILE] [--report text|json] [--verbose] [--quiet]"

def formatOf? : String → Option Command.ReportFormat
  | "text" => some .text
  | "json" => some .json
  | _ => none

def parseArgs (options : Options) : List String → Option Options
  | [] => some options
  | "--config" :: path :: rest => parseArgs { options with config := some path } rest
  | "--report" :: name :: rest =>
    match formatOf? name with
    | some format => parseArgs { options with format } rest
    | none => none
  | "--quiet" :: rest => parseArgs { options with quiet := true } rest
  | "-q" :: rest => parseArgs { options with quiet := true } rest
  | "--verbose" :: rest => parseArgs options rest
  | "-v" :: rest => parseArgs options rest
  | word :: rest =>
    if word.startsWith "-" then none
    else parseArgs { options with paths := options.paths ++ [word] } rest

def faultOf : IO.Error → FileFault
  | .noFileOrDirectory _ _ _ => .notFound
  | .inappropriateType _ code _ => if code = 21 then .isDirectory else .notDirectory
  | e => .other (toString e)

def access : FileAccess IO where
  read path := do
    try
      return .ok (← IO.FS.readBinFile path).toList
    catch e => return .error (faultOf e)
  write path content := do
    try
      IO.FS.writeBinFile path ⟨content.toArray⟩
      return .ok ()
    catch e => return .error (faultOf e)

def randomId : IO Uuid := do
  let bytes := (← IO.getRandomBytes 16).toList
  return Uuid.ofRandomBits (UInt64.ofNat (Bytes.toNat (bytes.take 8)))
    (UInt64.ofNat (Bytes.toNat (bytes.drop 8)))

end LateBind.Main

def main (args : List String) : IO UInt32 := do
  match LateBind.Main.parseArgs ⟨[], none, .text, false⟩ args with
  | some ⟨[input, output], config, format, quiet⟩ =>
    let start ← IO.monoMsNow
    let freshId ← LateBind.Main.randomId
    match ← (Command.run LateBind.Main.access ⟨input, output, config⟩ freshId).run with
    | .ok report =>
      let stop ← IO.monoMsNow
      unless quiet do IO.println (Command.render { report with duration := stop - start } format)
      return 0
    | .error failure =>
      IO.eprintln ("error: " ++ failure.message)
      return 1
  | _ =>
    IO.eprintln LateBind.Main.usage
    return 2

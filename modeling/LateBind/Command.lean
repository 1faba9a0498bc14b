import LateBind.Binding
import LateBind.Files

/-! The command: it reads settings and an image, binds the stubs of its module late, and writes the
new image. When something fails nothing is written. -/

namespace LateBind.Command

inductive ReportFormat
  | text
  | json
  deriving DecidableEq, Repr

structure Request where
  input : String
  output : String
  config : Option String
  deriving DecidableEq, Repr

/-- What failed, on which file. -/
inductive Failure
  | configFile (path : String) (fault : FileFault)
  | configText (path : String)
  | configFault (path : String) (fault : Config.Fault)
  | imageFile (path : String) (fault : FileFault)
  | image (path : String) (error : Image.ReadError)
  | binding (path : String) (error : BindError)
  | outputFile (path : String) (fault : FileFault)
  deriving DecidableEq, Repr

/-- A file's fault is told twice: by the file and by the access to it. -/
def fileText (fault : FileFault) : String :=
  "I/O error: " ++ fault.message ++ ": " ++ fault.message

/-- An error of generated code is told twice too. -/
def bindText (e : BindError) : String :=
  match e with
  | .emit _ fault => e.message ++ ": " ++ fault.message
  | _ => e.message

namespace Failure

def message : Failure → String
  | configFile path fault => "loading config " ++ path ++ ": " ++ fileText fault
  | configText path => "loading config " ++ path
  | configFault path fault => "loading config " ++ path ++ ": " ++ fault.message
  | imageFile path fault => "reading " ++ path ++ ": " ++ fileText fault
  | image path error =>
    match error.message? with
    | some text => "reading " ++ path ++ ": " ++ text
    | none => "reading " ++ path
  | binding path error => "rewriting " ++ path ++ ": " ++ bindText error
  | outputFile path fault => "writing " ++ path ++ ": " ++ fileText fault

end Failure

variable {m : Type → Type} [Monad m]

/-- The settings in a file, or the default ones when there is none. -/
def loadConfig (files : FileAccess m) (path : Option String) : ExceptT Failure m Config := do
  match path with
  | none => return .default
  | some path =>
    match ← files.read path with
    | .error fault => throw (.configFile path fault)
    | .ok content =>
      match Bytes.toText? content with
      | none => throw (.configFile path .invalidText)
      | some text =>
        match Config.parse text with
        | .ok config => return config
        | .error .notSettings => throw (.configText path)
        | .error (.invalid fault) => throw (.configFault path fault)

def loadImage (files : FileAccess m) (path : String) : ExceptT Failure m Image := do
  match ← files.read path with
  | .error fault => throw (.imageFile path fault)
  | .ok content =>
    match Image.ofBytes content with
    | .ok image => return image
    | .error error => throw (.image path error)

/-- Does what a request asks for; `freshId` becomes the version id of a changed module. -/
def run (files : FileAccess m) (request : Request) (freshId : Uuid) : ExceptT Failure m Report := do
  let config ← loadConfig files request.config
  let image ← loadImage files request.input
  match image.module.bindLate config freshId with
  | .error error => throw (.binding request.input error)
  | .ok bound =>
    match ← files.write request.output (Image.ofModule bound.module).toBytes with
    | .error fault => throw (.outputFile request.output fault)
    | .ok () => return bound.report

def render (report : Report) : ReportFormat → String
  | .text => report.toText
  | .json => report.toJson.pretty

end LateBind.Command

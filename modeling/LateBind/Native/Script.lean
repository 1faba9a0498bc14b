import LateBind.Native.World

/-! Native functions written as data: a list of actions, each of which tells in a note what it saw,
and a result. -/

namespace LateBind

/-- The place that a pointer argument points to, or one some bytes behind it. -/
structure Place where
  argument : Nat
  offset : UInt64
  deriving DecidableEq, Repr

inductive CharWidth
  | byte | unit
  deriving DecidableEq, Repr

inductive Action
  | readText (width : CharWidth) (place : Place)
  /-- Reads a table of pointers to texts. -/
  | readTexts (width : CharWidth) (argument count : Nat)
  | readBytes (place : Place) (length : Nat)
  | readInt32 (place : Place)
  | readPointer (place : Place)
  | write (place : Place) (bytes : Bytes)
  | writeInt32 (place : Place) (value : Int32)
  | writePointer (place : Place) (value : UInt64)
  | increment (place : Place)
  /-- Looks at the kind of the block that starts at a place. -/
  | inspect (place : Place)
  /-- Calls through a pointer argument. -/
  | call (argument : Nat) (args : List NativeValue)
  /-- Ends the run with a value when a pointer argument is zero. -/
  | returnOnNull (argument : Nat) (value : NativeValue)
  | fail (fault : NativeFault)
  deriving DecidableEq, Repr

inductive ScriptResult
  | const (value : NativeValue)
  | argument (index : Nat)
  /-- What the last action that gives a value gave. -/
  | last
  | addInt32
  | addInt64
  | addFloat
  /-- A pointer to a text that the library owns. -/
  | text (width : CharWidth) (text : String)
  | function (library symbol : String)
  deriving DecidableEq, Repr

structure Script where
  name : String
  actions : List Action
  result : ScriptResult
  deriving DecidableEq, Repr

namespace Script

def locate (args : List NativeValue) (place : Place) : Native UInt64 := do
  return (← Native.pointerArg args place.argument) + place.offset

def readText : CharWidth → UInt64 → Native String
  | .byte, address => Native.readAnsi address
  | .unit, address => Native.readWide address

/-- Bytes or units of a text. -/
def textLength : CharWidth → String → Nat
  | .byte, text => text.length
  | .unit, text => (Units.ofString text).length

/-- The texts of a table of pointers; a zero pointer stands for none. -/
def readTexts (width : CharWidth) (table : UInt64) : Nat → Native (List (Option String))
  | 0 => return []
  | count + 1 => do
    let address ← Native.readPointer table
    let text ← if address = 0 then pure none else some <$> readText width address
    return text :: (← readTexts width (table + 8) count)

/-- What an action leaves behind: the value that is now the last, and a result that ends the run. -/
structure Outcome where
  last : NativeValue
  result : Option NativeValue := none

/-- One action; its note is made when it has succeeded. -/
def perform (cx : NativeContext) (args : List NativeValue) (last : NativeValue) (action : Action) :
    Native Outcome := do
  let keep (n : Note) : Native Outcome := do
    Native.note n
    return { last }
  let give (v : NativeValue) : Native Outcome := do
    Native.note (.value v)
    return { last := v }
  match action with
  | .readText width place =>
    let address ← locate args place
    if address = 0 then keep .nothing
    else
      let text ← readText width address
      Native.note (.text text)
      return { last := .i32 (Int32.ofNat (textLength width text)) }
  | .readTexts width argument count =>
    let table ← Native.pointerArg args argument
    let texts ← if table = 0 then pure [] else readTexts width table count
    keep (.texts texts)
  | .readBytes place length => keep (.bytes (← Native.read (← locate args place) length))
  | .readInt32 place => give (.i32 (← Native.readInt32 (← locate args place)))
  | .readPointer place => give (.ptr (← Native.readPointer (← locate args place)))
  | .write place bytes =>
    Native.write (← locate args place) bytes
    keep .nothing
  | .writeInt32 place v =>
    Native.writeInt32 (← locate args place) v
    keep .nothing
  | .writePointer place v =>
    Native.writePointer (← locate args place) v
    keep .nothing
  | .increment place =>
    let address ← locate args place
    Native.writeInt32 address ((← Native.readInt32 address) + 1)
    keep .nothing
  | .inspect place =>
    let address ← locate args place
    match (← get).heap.kindOf? address with
    | some kind => keep (.kind kind)
    | none => keep .nothing
  | .call argument callArgs => give (← cx.call (← Native.pointerArg args argument) callArgs)
  | .returnOnNull argument v =>
    if (← Native.pointerArg args argument) = 0 then return { last, result := some v }
    else return { last }
  | .fail fault => throw fault

def finish (cx : NativeContext) (args : List NativeValue) (last : NativeValue) :
    ScriptResult → Native NativeValue
  | .const v => return v
  | .argument index =>
    match args[index]? with
    | some v => return v
    | none => throw (.badArguments "no such argument")
  | .last => return last
  | .addInt32 => return .i32 ((← Native.int32Arg args 0) + (← Native.int32Arg args 1))
  | .addInt64 => return .i64 ((← Native.int64Arg args 0) + (← Native.int64Arg args 1))
  | .addFloat => return .f64 ((← Native.floatArg args 0).add (← Native.floatArg args 1))
  | .text .byte text => return .ptr (← Native.allocAnsi text)
  | .text .unit text => return .ptr (← Native.allocWide text)
  | .function library symbol => return .ptr ((cx.catalog.address? library symbol).getD 0)

/-- The actions in order, and then the result. -/
def run (cx : NativeContext) (args : List NativeValue) (result : ScriptResult) :
    NativeValue → List Action → Native NativeValue
  | last, [] => finish cx args last result
  | last, action :: rest => do
    let outcome ← perform cx args last action
    match outcome.result with
    | some v => return v
    | none => run cx args result outcome.last rest

/-- The function that a script describes; it starts with a note of its name and arguments. -/
def body (s : Script) : NativeBody := fun cx args => do
  Native.note (.called s.name args)
  run cx args s.result .void s.actions

end Script

end LateBind

import LateBind.Instr

/-! # Heights of the evaluation stack

What heights the stack can have before each instruction of a body, along all ways that control can
take, and assignments of one height to each place that every way agrees with. -/

namespace LateBind

/-- Control can pass behind the instruction. -/
def Instr.falls : Instr → Bool
  | br _ | ret | throw | endfinally | leave _ => false
  | _ => true

/-- How many items an instruction takes from the stack, and how many it puts there then. -/
abbrev StackEffect := Instr → Nat × Nat

namespace StackEffect

variable (effect : StackEffect)

/-- The height behind an instruction that control passes on from. -/
def after (i : Instr) (height : Nat) : Nat := height - (effect i).1 + (effect i).2

/-- The height where an instruction branches to; `leave` empties the stack. -/
def arrival (i : Instr) (height : Nat) : Nat :=
  match i with
  | .leave _ => 0
  | _ => height - (effect i).1

end StackEffect

namespace Body

/-- Control can come to a place with a height of the stack: at the start, from the instruction before,
by a branch, or into a finally part with an empty stack. -/
inductive Reaches (effect : StackEffect) (b : Body) : Nat → Nat → Prop
  | start : Reaches effect b 0 0
  | next {pc height : Nat} {i : Instr} : Reaches effect b pc height → b.instrs[pc]? = some i →
      i.falls → Reaches effect b (pc + 1) (effect.after i height)
  | branch {pc height place : Nat} {i : Instr} {l : Label} : Reaches effect b pc height →
      b.instrs[pc]? = some i → l ∈ i.targets → b.target? l = some place →
      Reaches effect b place (effect.arrival i height)
  | finallyStart {r : Region} : r ∈ b.regions → Reaches effect b r.finallyStart 0

/-- One height for each place, which every way that control can take agrees with. -/
structure Carries (effect : StackEffect) (b : Body) (height? : Nat → Option Nat) : Prop where
  start : height? 0 = some 0
  next : ∀ pc i height, b.instrs[pc]? = some i → height? pc = some height → i.falls →
    height? (pc + 1) = some (effect.after i height)
  branch : ∀ pc i height l place, b.instrs[pc]? = some i → height? pc = some height →
    l ∈ i.targets → b.target? l = some place → height? place = some (effect.arrival i height)
  finallyStart : ∀ r ∈ b.regions, height? r.finallyStart = some 0

theorem Carries.height?_eq {effect : StackEffect} {b : Body} {height? : Nat → Option Nat}
    (carries : b.Carries effect height?) {pc height : Nat} (reaches : b.Reaches effect pc height) :
    height? pc = some height := by
  induction reaches with
  | start => exact carries.start
  | next _ found falls ih => exact carries.next _ _ _ found ih falls
  | branch _ found target placed ih => exact carries.branch _ _ _ _ _ found ih target placed
  | finallyStart hr => exact carries.finallyStart _ hr

end Body

end LateBind

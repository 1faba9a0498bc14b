import LateBind.MachineError
import LateBind.Native.Heap
import Mathlib.Data.List.Pairwise

/-! # Memory without a layout

What native memory is to its users: stretches of addresses that stay apart, one byte at each address, and
a relation between what is asked, what is answered and what memory is afterwards. Only the choice of a
new address is left open. -/

namespace LateBind

namespace Heap

/-- What can be asked of native memory. -/
inductive Call
  | alloc (size : Nat) (kind : BlockKind)
  | allocBytes (bytes : Bytes) (kind : BlockKind)
  | free (address : UInt64)
  | read (address : UInt64) (length : Nat)
  | write (address : UInt64) (bytes : Bytes)
  | readToEnd (address : UInt64)
  | readByteString (address : UInt64)
  | readUnits (address : UInt64)
  deriving DecidableEq

/-- What native memory answers. -/
inductive Answer
  | address (address : UInt64)
  | done
  | bytes (bytes : Bytes)
  | units (units : Units)
  | failed (error : MachineError)
  deriving DecidableEq

/-- The size of the block that a call makes. -/
def Call.size? : Call → Option Nat
  | alloc size _ => some size
  | allocBytes bytes _ => some bytes.length
  | _ => none

/-- The pointer that a call reads or writes through. -/
def Call.pointer? : Call → Option UInt64
  | read address _ => some address
  | write address _ => some address
  | readToEnd address => some address
  | readByteString address => some address
  | readUnits address => some address
  | _ => none

/-- The address that is handed out. -/
def Answer.address? : Answer → Option UInt64
  | address a => some a
  | _ => none

end Heap

/-- The addresses of a block. -/
structure Stretch where
  start : Nat
  size : Nat
  kind : BlockKind
  deriving DecidableEq

namespace Stretch

/-- The first address behind the bytes. -/
def finish (e : Stretch) : Nat := e.start + e.size

/-- A range of addresses lies inside; an empty one may also stand at the end. -/
def Contains (e : Stretch) (address length : Nat) : Prop :=
  e.start ≤ address ∧ address + length ≤ e.finish

/-- There is a gap between two stretches. -/
def Apart (e f : Stretch) : Prop :=
  e.finish + Heap.gap ≤ f.start ∨ f.finish + Heap.gap ≤ e.start

instance : Std.Symm Apart := ⟨fun _ _ => Or.symm⟩

theorem Apart.start_ne {e f : Stretch} (apart : e.Apart f) : e.start ≠ f.start := by
  simp only [Apart, finish, Heap.gap] at apart
  omega

/-- No range is in two stretches, not even an empty one. -/
theorem Apart.not_contains {e f : Stretch} (apart : e.Apart f) {address length : Nat}
    (inside : e.Contains address length) (length' : Nat) : ¬ f.Contains address length' := by
  simp only [Apart, Contains, finish, Heap.gap] at *
  omega

end Stretch

structure Memory where
  live : List Stretch
  freed : List Stretch
  byte : Nat → UInt8

namespace Memory

def empty : Memory := ⟨[], [], fun _ => 0⟩

/-- The bytes of a range of addresses. -/
def bytes (m : Memory) (address length : Nat) : Bytes := (List.range' address length).map m.byte

/-- One live stretch has a whole range. -/
def Holds (m : Memory) (address length : Nat) : Prop :=
  ∃ e ∈ m.live, e.Contains address length

theorem Holds.le {m : Memory} {address length shorter : Nat} (holds : m.Holds address length)
    (le : shorter ≤ length) : m.Holds address shorter := by
  obtain ⟨e, he, inside⟩ := holds
  exact ⟨e, he, inside.1, Nat.le_trans (Nat.add_le_add_left le address) inside.2⟩

/-- Puts bytes at an address on, and changes no other byte. -/
def put (m : Memory) (address : Nat) (bytes : Bytes) : Memory :=
  { m with byte := fun i =>
      if address ≤ i ∧ i < address + bytes.length then bytes[i - address]?.getD 0 else m.byte i }

theorem byte_put (m : Memory) (address : Nat) (bytes : Bytes) (i : Nat) :
    (m.put address bytes).byte i = if address ≤ i ∧ i < address + bytes.length then
      bytes[i - address]?.getD 0 else m.byte i :=
  rfl

/-- Hands out a stretch that holds the given bytes. -/
def take (m : Memory) (e : Stretch) (bytes : Bytes) : Memory :=
  { m.put e.start bytes with live := e :: m.live }

def release (m : Memory) (e : Stretch) : Memory :=
  { m with live := m.live.erase e, freed := e :: m.freed }

/-- A stretch keeps its gap to every stretch that was ever handed out. -/
def Fresh (m : Memory) (e : Stretch) : Prop := ∀ f ∈ m.live ++ m.freed, e.Apart f

/-- The bytes from an address up to the first zero. -/
def HasString (m : Memory) (address : Nat) (s : Bytes) : Prop :=
  0 ∉ s ∧ m.Holds address (s.length + 1) ∧ m.bytes address (s.length + 1) = s ++ [0]

/-- The units from an address up to the first zero; each takes two bytes. -/
def HasUnits (m : Memory) (address : Nat) (u : Units) : Prop :=
  0 ∉ u ∧ m.Holds address (2 * (u.length + 1)) ∧
    m.bytes address (2 * (u.length + 1)) = Bytes.ofUnits (u ++ [0])

/-- What memory may answer to a call, and what it is afterwards. -/
inductive Does : Memory → Heap.Call → Heap.Answer → Memory → Prop
  | alloc {m a size kind} : m.Fresh ⟨a.toNat, size, kind⟩ →
      Does m (.alloc size kind) (.address a)
        (m.take ⟨a.toNat, size, kind⟩ (List.replicate size 0))
  | allocBytes {m a bytes kind} : m.Fresh ⟨a.toNat, bytes.length, kind⟩ →
      Does m (.allocBytes bytes kind) (.address a) (m.take ⟨a.toNat, bytes.length, kind⟩ bytes)
  | free {m a e} : e ∈ m.live → e.start = a.toNat → Does m (.free a) .done (m.release e)
  | freeAgain {m a e} : e ∈ m.freed → e.start = a.toNat →
      Does m (.free a) (.failed (.doubleFree a)) m
  | freeUnknown {m a} : (∀ e ∈ m.live ++ m.freed, e.start ≠ a.toNat) →
      Does m (.free a) (.failed (.invalidFree a)) m
  | read {m a n} : m.Holds a.toNat n → Does m (.read a n) (.bytes (m.bytes a.toNat n)) m
  | readOutside {m a n} : ¬ m.Holds a.toNat n →
      Does m (.read a n) (.failed (.invalidAddress a)) m
  | write {m a bytes} : m.Holds a.toNat bytes.length →
      Does m (.write a bytes) .done (m.put a.toNat bytes)
  | writeOutside {m a bytes} : ¬ m.Holds a.toNat bytes.length →
      Does m (.write a bytes) (.failed (.invalidAddress a)) m
  | readToEnd {m a e} : e ∈ m.live → e.Contains a.toNat 0 →
      Does m (.readToEnd a) (.bytes (m.bytes a.toNat (e.finish - a.toNat))) m
  | readToEndOutside {m a} : ¬ m.Holds a.toNat 0 →
      Does m (.readToEnd a) (.failed (.invalidAddress a)) m
  | readByteString {m a s} : m.HasString a.toNat s → Does m (.readByteString a) (.bytes s) m
  | noByteString {m a} : (∀ s, ¬ m.HasString a.toNat s) →
      Does m (.readByteString a) (.failed (.invalidAddress a)) m
  | readUnits {m a u} : m.HasUnits a.toNat u → Does m (.readUnits a) (.units u) m
  | noUnits {m a} : (∀ u, ¬ m.HasUnits a.toNat u) →
      Does m (.readUnits a) (.failed (.invalidAddress a)) m

/-- Calls one after the other, with their answers. -/
inductive Runs : Memory → List Heap.Call → List Heap.Answer → Memory → Prop
  | nil {m} : Runs m [] [] m
  | cons {m m' last call answer calls answers} : Does m call answer m' →
      Runs m' calls answers last → Runs m (call :: calls) (answer :: answers) last

/-! ## Stretches stay apart -/

variable {m m' : Memory}

/-- All stretches that were ever handed out keep their gaps. -/
def Separated (m : Memory) : Prop := (m.live ++ m.freed).Pairwise Stretch.Apart

theorem Separated.apart (separated : m.Separated) {e f : Stretch} (he : e ∈ m.live ++ m.freed)
    (hf : f ∈ m.live ++ m.freed) (other : e ≠ f) : e.Apart f :=
  separated.forall he hf other

theorem separated_take (separated : m.Separated) {e : Stretch} (fresh : m.Fresh e) (bytes : Bytes) :
    (m.take e bytes).Separated :=
  List.pairwise_cons.2 ⟨fresh, separated⟩

/-- Freeing only moves a stretch. -/
theorem perm_release {e : Stretch} (he : e ∈ m.live) :
    ((m.release e).live ++ (m.release e).freed).Perm (m.live ++ m.freed) :=
  List.perm_middle.trans ((List.perm_cons_erase he).symm.append_right m.freed)

theorem Does.separated {call : Heap.Call} {answer : Heap.Answer} (does : m.Does call answer m')
    (separated : m.Separated) : m'.Separated := by
  cases does with
  | alloc fresh => exact separated_take separated fresh _
  | allocBytes fresh => exact separated_take separated fresh _
  | free he _ => exact (perm_release he).symm.pairwise separated Or.symm
  | _ => exact separated

/-- A pointer into a freed block leads nowhere, its end included. -/
theorem Separated.not_holds (separated : m.Separated) {e : Stretch} (he : e ∈ m.freed)
    {address : Nat} (inside : e.Contains address 0) (length : Nat) : ¬ m.Holds address length := by
  rintro ⟨f, hf, holds⟩
  by_cases same : e = f
  · subst same
    have pairs := List.pairwise_append.mp separated
    exact (pairs.2.2 e hf e he).start_ne rfl
  · have apart := separated.apart (List.mem_append_right _ he) (List.mem_append_left _ hf) same
    exact apart.not_contains inside length holds

theorem Does.stale {call : Heap.Call} {answer : Heap.Answer} {a : UInt64}
    (does : m.Does call answer m') (separated : m.Separated) {e : Stretch} (he : e ∈ m.freed)
    (inside : e.Contains a.toNat 0) (through : call.pointer? = some a) :
    answer = .failed (.invalidAddress a) := by
  have outside := separated.not_holds he inside
  cases does <;> cases through
  case read holds => exact absurd holds (outside _)
  case write holds => exact absurd holds (outside _)
  case readToEnd f hf holds => exact absurd ⟨f, hf, holds⟩ (outside 0)
  case readByteString string => exact absurd string.2.1 (outside _)
  case readUnits units => exact absurd units.2.1 (outside _)
  all_goals rfl

/-- The answer to a free says exactly what the address is: no start is both live and freed. -/
theorem Does.free_iff {answer : Heap.Answer} {a : UInt64} (does : m.Does (.free a) answer m')
    (separated : m.Separated) :
    (answer = .done ↔ ∃ e ∈ m.live, e.start = a.toNat) ∧
      (answer = .failed (.doubleFree a) ↔ ∃ e ∈ m.freed, e.start = a.toNat) ∧
      (answer = .failed (.invalidFree a) ↔ ∀ e ∈ m.live ++ m.freed, e.start ≠ a.toNat) := by
  have one_of {e f : Stretch} (he : e ∈ m.live) (hf : f ∈ m.freed) : e.start ≠ f.start :=
    ((List.pairwise_append.mp separated).2.2 e he f hf).start_ne
  simp only [List.mem_append, or_imp, forall_and]
  cases does with
  | free he start =>
    simp only [reduceCtorEq, true_iff, false_iff]
    exact ⟨⟨_, he, start⟩, fun ⟨f, hf, same⟩ => one_of he hf (start.trans same.symm),
      fun none => none.1 _ he start⟩
  | freeAgain hf same =>
    simp only [reduceCtorEq, true_iff, false_iff, Heap.Answer.failed.injEq]
    exact ⟨fun ⟨e, he, start⟩ => one_of he hf (start.trans same.symm), ⟨_, hf, same⟩,
      fun none => none.2 _ hf same⟩
  | freeUnknown none =>
    simp only [List.mem_append, or_imp, forall_and] at none
    simp only [reduceCtorEq, true_iff, false_iff, Heap.Answer.failed.injEq]
    exact ⟨fun ⟨e, he, start⟩ => none.1 e he start, fun ⟨e, he, start⟩ => none.2 e he start, none⟩

end Memory

end LateBind

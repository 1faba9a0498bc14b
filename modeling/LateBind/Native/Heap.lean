import LateBind.Native.Block

/-! Native memory. Every block has addresses of its own, with a gap behind it, and no address is
handed out twice, so that a stale pointer never reaches a newer block. -/

namespace LateBind

/-- Why a block could not be freed. -/
inductive FreeFault
  | freedBefore
  | noBlock
  deriving DecidableEq, Repr

/-- Counts that show what is leaked. -/
structure HeapStats where
  liveHGlobal : Nat
  hglobalAllocs : Nat
  hglobalFrees : Nat
  liveBlocks : Nat
  deriving DecidableEq, Repr

structure Heap where
  /-- The live blocks, latest first, which is by falling address. -/
  blocks : List Block
  /-- Where freed blocks started. -/
  freed : List UInt64
  /-- Where the next block starts, counted without an end; its address is the low 64 bits. -/
  next : Nat
  hglobalAllocs : Nat
  hglobalFrees : Nat
  deriving DecidableEq, Repr

namespace Heap

def base : Nat := 0x100000

/-- The bytes between the room of one block and the next block. -/
def gap : Nat := 0x40

def empty : Heap := ⟨[], [], base, 0, 0⟩

/-- A block's room is a positive multiple of sixteen bytes. -/
def room (size : Nat) : Nat := (max size 1 + 15) / 16 * 16

/-- The address of the next block. -/
def nextAddress (h : Heap) : UInt64 := UInt64.ofNat h.next

/-- Takes in a block that was made for the next address. -/
def add (h : Heap) (block : Block) : UInt64 × Heap :=
  (h.nextAddress,
    { h with
      blocks := block :: h.blocks
      next := h.next + room block.size + gap
      hglobalAllocs := h.hglobalAllocs + (if block.kind = .hglobal then 1 else 0) })

/-- A new block of zeros. -/
def alloc (h : Heap) (size : Nat) (kind : BlockKind) : UInt64 × Heap :=
  h.add (.zeros h.nextAddress size kind)

/-- A new block with the given bytes. -/
def allocBytes (h : Heap) (bytes : Bytes) (kind : BlockKind) : UInt64 × Heap :=
  h.add (.ofBytes h.nextAddress bytes kind)

/-- The block that starts at an address. -/
def blockAt? (h : Heap) (address : UInt64) : Option Block :=
  h.blocks.find? (·.start == address)

def kindOf? (h : Heap) (address : UInt64) : Option BlockKind :=
  (h.blockAt? address).map Block.kind

/-- Frees the block that starts at an address. -/
def free (h : Heap) (address : UInt64) : Except FreeFault Heap :=
  match h.blockAt? address with
  | some block =>
    .ok { h with
      blocks := h.blocks.filter (·.start != address)
      freed := address :: h.freed
      hglobalFrees := h.hglobalFrees + (if block.kind = .hglobal then 1 else 0) }
  | none => .error (if address ∈ h.freed then .freedBefore else .noBlock)

/-- The live block that holds a range, and where in it the range starts. The last block that starts
at or below an address is the only one that can hold it; its end is still in it. -/
def locate? (h : Heap) (address : UInt64) (length : Nat) : Option (Block × Nat) :=
  match h.blocks.find? (·.start ≤ address) with
  | some block =>
    let offset := (address - block.start).toNat
    if offset + length ≤ block.size then some (block, offset) else none
  | none => none

def read? (h : Heap) (address : UInt64) (length : Nat) : Option Bytes :=
  (h.locate? address length).map fun (block, offset) => block.read offset length

/-- The bytes up to the end of the block. -/
def readToEnd? (h : Heap) (address : UInt64) : Option Bytes :=
  (h.locate? address 0).map fun (block, offset) =>
    block.read offset (block.size - offset)

def write? (h : Heap) (address : UInt64) (bytes : Bytes) : Option Heap :=
  (h.locate? address bytes.length).map fun (block, offset) =>
    { h with
      blocks := h.blocks.map fun b =>
        if b.start = block.start then b.write offset bytes else b }

def readInt32? (h : Heap) (address : UInt64) : Option Int32 :=
  (h.read? address 4).map fun bytes => Int32.ofNat bytes.toNat

def writeInt32? (h : Heap) (address : UInt64) (v : Int32) : Option Heap :=
  h.write? address (Bytes.ofNat 4 v.toUInt32.toNat)

def readPointer? (h : Heap) (address : UInt64) : Option UInt64 :=
  (h.read? address 8).map Bytes.toWord

def writePointer? (h : Heap) (address : UInt64) (v : UInt64) : Option Heap :=
  h.write? address (Bytes.ofWord v)

/-- What stands before the first zero, if there is one. -/
def untilZero? {α : Type} [BEq α] (zero : α) (items : List α) : Option (List α) :=
  if items.contains zero then some (items.takeWhile (· != zero)) else none

/-- The bytes before a zero byte. -/
def readByteString? (h : Heap) (address : UInt64) : Option Bytes :=
  (h.readToEnd? address).bind (untilZero? 0)

/-- The units before a zero unit. -/
def readUnits? (h : Heap) (address : UInt64) : Option Units :=
  (h.readToEnd? address).bind fun bytes => untilZero? 0 bytes.toUnits

def stats (h : Heap) : HeapStats :=
  ⟨(h.blocks.filter (·.kind == .hglobal)).length, h.hglobalAllocs, h.hglobalFrees,
    h.blocks.length⟩

end Heap

end LateBind

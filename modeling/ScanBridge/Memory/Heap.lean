import ScanBridge.Text.Utf8

namespace ScanBridge

inductive Owner
  | bundle
  /-- Memory of a party that serves an engine on its own. -/
  | outside
  deriving DecidableEq, Repr

structure Block where
  address : Nat
  owner : Owner
  bytes : Bytes
  deriving DecidableEq, Repr

/-- Where an engine finds bytes: in memory of its own that nobody else writes, or on the heap. -/
inductive Pointer
  | own (bytes : Bytes)
  | heap (address : Nat)
  deriving DecidableEq, Repr

/-- How much a block adds to the count of live import buffers. -/
def Owner.weight : Owner → Int
  | .bundle => 1
  | .outside => 0

/-- The heap from which buffers for the engine are taken. Addresses are never used twice, so a freed
address finds nothing for good. -/
structure Heap where
  next : Nat := 0
  blocks : List Block := []
  /-- Raised and lowered with every import buffer taken and released, whatever the blocks are: a
  buffer released once too often is missing here. -/
  importBuffers : Int := 0
  deriving DecidableEq, Repr

namespace Heap

def find? (h : Heap) (address : Nat) : Option Block := h.blocks.find? (·.address = address)

def alloc (h : Heap) (owner : Owner) (bytes : Bytes) : Heap where
  next := h.next + 1
  blocks := h.blocks ++ [⟨h.next, owner, bytes⟩]
  importBuffers := h.importBuffers + owner.weight

def free (h : Heap) (owner : Owner) (address : Nat) : Heap where
  next := h.next
  blocks := h.blocks.filter (·.address ≠ address)
  importBuffers := h.importBuffers - owner.weight

def freeAll (h : Heap) (owner : Owner) (addresses : List Nat) : Heap :=
  addresses.foldl (·.free owner) h

def modify (h : Heap) (address : Nat) (f : Bytes → Bytes) : Heap :=
  { h with blocks := h.blocks.map fun b =>
      if b.address = address then { b with bytes := f b.bytes } else b }

/-- The first `size` bytes behind a pointer; nothing where the block is gone. -/
def read (h : Heap) (p : Pointer) (size : Nat) : Option Bytes :=
  match p with
  | .own bytes => some (bytes.take size)
  | .heap address => (h.find? address).map (·.bytes.take size)

end Heap

end ScanBridge

import EtyOS.Library.ByteMemory

/-!
# The allocator of `memory_allocator.c`

The pool is a byte memory and the block headers are read and written in it at
their C offsets, so a stray store into a header is seen by the next walk.
Addresses and sizes are natural numbers below 2^64 with the wrapping sums of
`size_t` written out. The two walks follow `next` pointers; a walk that takes
more steps than the pool has bytes goes round a cycle and does not come back.
-/

namespace EtyOS

open Library

/-- 100 MB. -/
def memoryPoolSize : ℕ := 1024 * 1024 * 100

/-- `sizeof(MemoryBlock)`: `size_t` at 0, `int` at 8, a pointer at 16. -/
def sizeofMemoryBlock : ℕ := 24

/-- Where the linker put `memory_pool`: not at NULL, and with its end still an
address. -/
structure PoolBase where
  addr : ℕ
  pos : 0 < addr
  fits : addr + memoryPoolSize < 2 ^ 64

namespace MemoryBlock

variable (m : Memory) (block : ℕ)

def size : ℕ := m.load block 8
def isFree : ℕ := m.load (block + 8) 4
def next : ℕ := m.load (block + 16) 8

def setSize (v : ℕ) : Memory := m.store block 8 v
def setIsFree (v : ℕ) : Memory := m.store (block + 8) 4 v
def setNext (v : ℕ) : Memory := m.store (block + 16) 8 v

end MemoryBlock

open MemoryBlock

/-- Sums and differences of `size_t`. -/
def add64 (a b : ℕ) : ℕ := (a + b) % 2 ^ 64
def sub64 (a b : ℕ) : ℕ := (a + 2 ^ 64 - b) % 2 ^ 64

def memoryAllocatorInit (base : PoolBase) (m : Memory) : Memory :=
  let m := setSize m base.addr (memoryPoolSize - sizeofMemoryBlock)
  let m := setIsFree m base.addr 1
  setNext m base.addr 0

/-- `if (current->size > size + sizeof(MemoryBlock)) { ... }`. -/
def splitBlock (m : Memory) (current size : ℕ) : Memory :=
  if MemoryBlock.size m current > add64 size sizeofMemoryBlock then
    let newBlock := add64 (add64 current sizeofMemoryBlock) size
    let m := setSize m newBlock
      (sub64 (sub64 (MemoryBlock.size m current) size) sizeofMemoryBlock)
    let m := setIsFree m newBlock 1
    let m := setNext m newBlock (next m current)
    setNext m current newBlock
  else m

/-- The `while (current != NULL)` of `allocate`. -/
def allocateFrom (size : ℕ) : ℕ → Memory → ℕ → Option (ℕ × Memory)
  | 0, _, _ => none
  | steps + 1, m, current =>
    if current = 0 then some (0, m)
    else if isFree m current ≠ 0 ∧ MemoryBlock.size m current ≥ size then
      let m := splitBlock m current size
      let m := setIsFree m current 0
      let m := setSize m current size
      some (add64 current sizeofMemoryBlock, m)
    else allocateFrom size steps m (next m current)

/-- Returns the payload pointer, 0 for NULL. -/
def allocate (base : PoolBase) (m : Memory) (size : UInt64) : Option (ℕ × Memory) :=
  allocateFrom size.toNat memoryPoolSize m base.addr

/-- The body of the `if` in the coalescing loop of `free`. -/
def mergeNext (m : Memory) (current : ℕ) : Memory :=
  let m := setSize m current
    (add64 (MemoryBlock.size m current)
      (add64 sizeofMemoryBlock (MemoryBlock.size m (next m current))))
  setNext m current (next m (next m current))

/-- The `while (current != NULL && current->next != NULL)` of `free`. -/
def coalesceFrom : ℕ → Memory → ℕ → Option Memory
  | 0, _, _ => none
  | steps + 1, m, current =>
    if current = 0 ∨ next m current = 0 then some m
    else
      let m := if isFree m current ≠ 0 ∧ isFree m (next m current) ≠ 0 then
        mergeNext m current else m
      coalesceFrom steps m (next m current)

def free (base : PoolBase) (m : Memory) (ptr : ℕ) : Option Memory :=
  if ptr = 0 then some m
  else
    let m := setIsFree m (sub64 ptr sizeofMemoryBlock) 1
    coalesceFrom memoryPoolSize m base.addr

end EtyOS

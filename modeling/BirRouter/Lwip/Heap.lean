import BirRouter.Lib.Loop
import BirRouter.Lib.Memory

/-!
# The heap of the TCP stack (`mem.c`)

The heap is an array `ram` of `MEM_SIZE` bytes in which blocks lie one behind another, each with a
header of 12 bytes: the offsets of the next and of the previous block and a flag.  A header that is
always in use stands behind the array.  `mem_malloc` searches from `lfree` on, `mem_free` joins a block
with its free neighbours, and `mem_realloc` cuts a block off at its end.

Pointers are offsets into `ram`; `mem_size_t` is `uint32_t`.  The semaphore `mem_sem` is modelled since
`mem_free` and `mem_realloc` keep it when they refuse a pointer.
-/

set_option autoImplicit false

namespace BirRouter

open ByteLayout ByteMemory

/-- `MEM_SIZE`. -/
def memSize : Nat := 5120000

/-- `SIZEOF_STRUCT_MEM`. -/
def sizeofStructMem : Nat := 12

/-- `MIN_SIZE`. -/
def minSize : Nat := 12

/-- The heap: `ram`, `lfree` and the count of `mem_sem`. -/
structure MemHeap where
  ram : Memory
  lfree : Nat
  mem_sem : Nat

namespace MemHeap

/-! ## Headers -/

/-- `mem->next`. -/
def next (ram : Memory) (mem : Nat) : Nat := (load u32le mem ram).toNat

/-- `mem->prev`. -/
def prev (ram : Memory) (mem : Nat) : Nat := (load u32le (mem + 4) ram).toNat

/-- `mem->used`. -/
def used (ram : Memory) (mem : Nat) : Bool := load u8 (mem + 8) ram != 0

def setNext (ram : Memory) (mem v : Nat) : Memory := store u32le mem (BitVec.ofNat 32 v) ram

def setPrev (ram : Memory) (mem v : Nat) : Memory := store u32le (mem + 4) (BitVec.ofNat 32 v) ram

def setUsed (ram : Memory) (mem : Nat) (v : Bool) : Memory :=
  store u8 (mem + 8) (if v then 1 else 0) ram

/-! ## The functions -/

/-- The first half of `plug_holes`: a free block behind `mem` is joined to it. -/
def plugForward (s : MemHeap) (mem : Nat) : MemHeap :=
  let nmem := next s.ram mem
  if mem ≠ nmem ∧ used s.ram nmem = false ∧ nmem ≠ memSize then
    let ram := setNext s.ram mem (next s.ram nmem)
    { s with
      ram := setPrev ram (next ram nmem) mem
      lfree := if s.lfree = nmem then mem else s.lfree }
  else s

/-- The second half: `mem` is joined to a free block in front of it. -/
def plugBackward (s : MemHeap) (mem : Nat) : MemHeap :=
  let pmem := prev s.ram mem
  if pmem ≠ mem ∧ used s.ram pmem = false then
    let ram := setNext s.ram pmem (next s.ram mem)
    { s with
      ram := setPrev ram (next ram mem) pmem
      lfree := if s.lfree = mem then pmem else s.lfree }
  else s

/-- `plug_holes`. -/
def plugHoles (s : MemHeap) (mem : Nat) : MemHeap := (s.plugForward mem).plugBackward mem

/-- `mem_init`; `ram` is what the array holds behind its first `MEM_SIZE` bytes. -/
def memInit (ram : Memory) : MemHeap :=
  let ram : Memory := fun i => if i < memSize then 0 else ram i
  let ram := setUsed (setPrev (setNext ram 0 memSize) 0 0) 0 false
  ⟨setPrev (setNext (setUsed ram memSize true) memSize memSize) memSize memSize, 0, 1⟩

/-- The size that is really asked for: a multiple of `MEM_ALIGNMENT`. -/
def align (size : Nat) : Nat :=
  if size % 4 ≠ 0 then (size + (4 - (size + sizeofStructMem) % 4)) % 4294967296 else size

/-- A round of the search in `mem_malloc`. -/
def searchBody (ram : Memory) (size ptr : Nat) : Option (Nat ⊕ Option Nat) :=
  if ptr < memSize then
    if !used ram ptr && decide (size + sizeofStructMem ≤
        (next ram ptr + 4294967296 - (ptr + sizeofStructMem)) % 4294967296) then
      some (.inr (some ptr))
    else some (.inl (next ram ptr))
  else some (.inr none)

/-- `if(mem2->next != MEM_SIZE)`, the block behind `mem2` points back to it. -/
def linkBack (ram : Memory) (mem2 : Nat) : Memory :=
  if next ram mem2 ≠ memSize then setPrev ram (next ram mem2) mem2 else ram

/-- The free block at `ptr` is cut behind `size` bytes and its first part taken. -/
def split (ram : Memory) (ptr size : Nat) : Memory :=
  let ptr2 := ptr + sizeofStructMem + size
  let ram := setPrev ram ptr2 ptr
  let ram := setNext ram ptr2 (next ram ptr)
  let ram := linkBack (setNext ram ptr ptr2) ptr2
  setUsed (setUsed ram ptr2 false) ptr true

/-- A round of the loop that moves `lfree`. -/
def lfreeBody (ram : Memory) (lfree : Nat) : Option (Nat ⊕ Nat) :=
  if used ram lfree = true ∧ lfree ≠ memSize then some (.inl (next ram lfree))
  else some (.inr lfree)

/-- `mem_malloc`: a pointer or `NULL`; `none` if it blocks or does not return. -/
def memMalloc (s : MemHeap) (size : Nat) : Option (Option Nat × MemHeap) :=
  if size = 0 then some (none, s)
  else
    let size := align size
    if memSize < size then some (none, s)
    else if s.mem_sem = 0 then none
    else do
      match ← Loop.run (searchBody s.ram size) memSize s.lfree with
      | none => some (none, s)
      | some ptr =>
        let ram := split s.ram ptr size
        let lfree ← if ptr = s.lfree then Loop.run (lfreeBody ram) memSize s.lfree else some s.lfree
        some (some (ptr + sizeofStructMem), { s with ram := ram, lfree := lfree })

/-- `mem_free`. -/
def memFree (s : MemHeap) (rmem : Option Nat) : Option MemHeap :=
  match rmem with
  | none => some s
  | some rmem =>
    if s.mem_sem = 0 then none
    else if memSize ≤ rmem then some { s with mem_sem := s.mem_sem - 1 }
    else
      let mem := rmem - sizeofStructMem
      let s := { s with
        ram := setUsed s.ram mem false, lfree := if mem < s.lfree then mem else s.lfree }
      some (s.plugHoles mem)

/-- A free block at `ptr2` is put behind the block `mem`. -/
def trim (ram : Memory) (mem ptr2 : Nat) : Memory :=
  let ram := setUsed ram ptr2 false
  let ram := setPrev (setNext ram ptr2 (next ram mem)) ptr2 mem
  linkBack (setNext ram mem ptr2) ptr2

/-- `mem_realloc`; the pointer it returns is `rmem`. -/
def memRealloc (s : MemHeap) (rmem newsize : Nat) : Option MemHeap :=
  if s.mem_sem = 0 then none
  else if memSize ≤ rmem then some { s with mem_sem := s.mem_sem - 1 }
  else
    let mem := rmem - sizeofStructMem
    let size := (next s.ram mem + 4294967296 - mem + 4294967296 - sizeofStructMem) % 4294967296
    if (newsize + sizeofStructMem + minSize) % 4294967296 < size then
      let ptr2 := (mem + sizeofStructMem + newsize) % 4294967296
      some ({ s with ram := trim s.ram mem ptr2 }.plugHoles ptr2)
    else some s

end MemHeap

end BirRouter

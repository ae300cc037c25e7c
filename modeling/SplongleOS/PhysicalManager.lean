import SplongleOS.Base.WordMemory
set_option autoImplicit false

/-! The physical memory manager, physical_manager.c. The macros are written out:
BLOCK_SIZE is 4096, BLOCKS_PER_BYTE is 8, INDEX_MMAP(offset, bit) is offset * 32 + bit
and MEMMAP_AREA is 0x30000. A uint32_t is a natural number reduced modulo 2^32. -/

namespace SplongleOS
open WordMemory

/-- The statics of the manager and the physical memory its bitmap lies in.
`touched` is ghost: every block index handed to `setBlock`, `unsetBlock` or
`checkBlock` so far, as the C functions receive it. -/
structure Pmm where
  mem : Mem
  memoryMap : Nat
  maxBlocks : Nat
  usedBlocks : Nat
  touched : List Int

def Pmm.slot (s : Pmm) (k : Int) : Nat :=
  (((s.memoryMap / 4 : Nat) + k) % 0x40000000).toNat

def toInt32 (x : Nat) : Int :=
  if x % 0x100000000 < 0x80000000 then ((x % 0x100000000 : Nat) : Int)
  else ((x % 0x100000000 : Nat) : Int) - 0x100000000

/-- `bit / 32` truncates toward zero; the shift count is taken modulo 32, as the
shift instruction does for a negative `bit % 32`. -/
def setBlock (s : Pmm) (bit : Int) : Pmm :=
  { s with
    mem := Function.update s.mem (s.slot (bit.tdiv 32))
      (s.mem (s.slot (bit.tdiv 32)) ||| 1#32 <<< (bit % 32).toNat)
    touched := bit :: s.touched }

def unsetBlock (s : Pmm) (bit : Nat) : Pmm :=
  { s with
    mem := Function.update s.mem (s.slot (bit / 32 : Nat))
      (s.mem (s.slot (bit / 32 : Nat)) &&& ~~~(1#32 <<< (bit % 32)))
    touched := (bit : Int) :: s.touched }

def checkBlock (s : Pmm) (bit : Nat) : Bool :=
  s.mem (s.slot (bit / 32 : Nat)) &&& 1#32 <<< (bit % 32) != 0#32

def probeLoop (s : Pmm) (numBlocks startBit : Nat) : Nat → Nat → Nat → Bool × List Nat
  | 0, _, _ => (false, [])
  | fuel + 1, count, freeBlocks =>
    if count ≤ numBlocks then
      let bit := (startBit + count) % 0x100000000
      let freeBlocks := if checkBlock s bit then freeBlocks else (freeBlocks + 1) % 0x100000000
      if freeBlocks = numBlocks then (true, [bit])
      else
        let r := probeLoop s numBlocks startBit fuel ((count + 1) % 0x100000000) freeBlocks
        (r.1, bit :: r.2)
    else (false, [])

/-- At `num_blocks = 0xFFFFFFFF` the bound on `count` never fails and the loop may
wrap around; every other request needs at most 2^32 iterations. -/
def probeFuel : Nat := 0x10000000000000000

def scanBits (s : Pmm) (numBlocks i : Nat) : Nat → Nat → Option Nat × List Nat
  | 0, _ => (none, [])
  | k + 1, j =>
    if s.mem (s.slot i) &&& 1#32 <<< j = 0#32 then
      -- the probe starts at INDEX_MMAP(i, bit), where bit is the mask 1 << j
      let p := probeLoop s numBlocks ((i * 32 + 2 ^ j) % 0x100000000) probeFuel 0 0
      if p.1 then (some (i * 32 + j), p.2)
      else
        let r := scanBits s numBlocks i k (j + 1)
        (r.1, p.2 ++ r.2)
    else scanBits s numBlocks i k (j + 1)

def scanWords (s : Pmm) (numBlocks : Nat) : Nat → Nat → Option Nat × List Nat
  | 0, _ => (none, [])
  | k + 1, i =>
    if s.mem (s.slot i) ≠ 0xFFFFFFFF#32 then
      let p := scanBits s numBlocks i 32 0
      match p.1 with
      | some b => (some b, p.2)
      | none =>
        let r := scanWords s numBlocks k (i + 1)
        (r.1, p.2 ++ r.2)
    else scanWords s numBlocks k (i + 1)

/-- The block found, or the sentinel, and the indices passed to `check_block`. -/
def findFirstFreeBlock (s : Pmm) (numBlocks : Nat) : Nat × List Nat :=
  if numBlocks = 0 then (0x100000000, [])
  else
    let r := scanWords s numBlocks (s.maxBlocks / 32) 0
    match r.1 with
    | some b => (b, r.2)
    | none => (0x100000000, r.2)

def memoryManagerInit (s : Pmm) (address size : Nat) : Pmm :=
  let size := if size > 0x100000000 then 0x100000000 else size
  let maxBlocks := size / 4096 % 0x100000000
  { s with
    mem := memset s.mem address 0xFF#8 (maxBlocks / 8)
    memoryMap := address
    maxBlocks := maxBlocks
    usedBlocks := maxBlocks }

/-- The block loops of the manager: `body` at `num` consecutive block numbers from
`align` on, each reduced to 32 bits. -/
def forBlocks (body : Pmm → Nat → Pmm) : Nat → Nat → Pmm → Pmm
  | 0, _, s => s
  | num + 1, align, s => forBlocks body num (align + 1) (body s (align % 0x100000000))

/-- The size both region functions work with: clipped where `base + size`, taken
modulo 2^64, passes 4 GB. -/
def clipSize (base size : Nat) : Nat :=
  if (base + size) % 0x10000000000000000 > 0x100000000 then 0x100000000 - base else size

def regionBlocks (base size : Nat) : Nat := clipSize base size / 4096 % 0x100000000

def initializeBlock (s : Pmm) (align : Nat) : Pmm :=
  { unsetBlock s align with usedBlocks := (s.usedBlocks + 0xFFFFFFFF) % 0x100000000 }

def initializeRegion (s : Pmm) (base size : Nat) : Pmm :=
  if base ≥ 0x100000000 then s
  else setBlock (forBlocks initializeBlock (regionBlocks base size) (base / 4096) s) 0

def deinitializeBlock (s : Pmm) (align : Nat) : Pmm :=
  { setBlock s (toInt32 align) with usedBlocks := (s.usedBlocks + 1) % 0x100000000 }

def deinitializeRegion (s : Pmm) (base size : Nat) : Pmm :=
  if base ≥ 0x100000000 then s
  else forBlocks deinitializeBlock (regionBlocks base size) (base / 4096) s

def allocateBlock (s : Pmm) (block : Nat) : Pmm := setBlock s (toInt32 block)

/-- The address returned, 0 for failure, and the state left behind. -/
def allocateBlocks (s : Pmm) (numBlocks : Nat) : Nat × Pmm :=
  let freeBlocks := (s.maxBlocks + 0x100000000 - s.usedBlocks) % 0x100000000
  if freeBlocks < numBlocks then (0, s)
  else
    let found := findFirstFreeBlock s numBlocks
    let s := { s with touched := found.2.reverse.map Int.ofNat ++ s.touched }
    if found.1 = 0x100000000 then (0, s)
    else
      let s := forBlocks allocateBlock numBlocks found.1 s
      let s := { s with usedBlocks := (s.usedBlocks + numBlocks) % 0x100000000 }
      (found.1 * 4096 % 0x100000000, s)

def freeBlocks (s : Pmm) (address numBlocks : Nat) : Pmm :=
  let s := forBlocks unsetBlock numBlocks (address / 4096) s
  { s with usedBlocks := (s.usedBlocks + 0x100000000 - numBlocks) % 0x100000000 }

end SplongleOS

import SplongleOS.Allocation
set_option autoImplicit false

/-! Paging, page.c and page.h. Physical memory is the memory the bitmap lies in, an
entry is a word of it, and pages are one block long. -/

namespace SplongleOS
open WordMemory

/-- The block manager and the current directory. `handed` is ghost: what
`allocate_blocks` has returned to this module so far. -/
structure Vm where
  pmm : Pmm
  currentPD : Nat
  handed : List Alloc

def pdIndex (virt : Nat) : Nat := virt >>> 22 &&& 0x3FF

def ptIndex (virt : Nat) : Nat := virt >>> 12 &&& 0x3FF

def pagePhysAddr (entry : BitVec 32) : Nat := (entry &&& ~~~0xFFF#32).toNat

def setAttr (entry attr : BitVec 32) : BitVec 32 := entry ||| attr

def clearAttr (entry attr : BitVec 32) : BitVec 32 := entry &&& ~~~attr

/-- The entry keeps its flags. -/
def setFrame (entry : BitVec 32) (address : Nat) : BitVec 32 :=
  entry &&& ~~~0xFFFFF000#32 ||| BitVec.ofNat 32 address

def present : BitVec 32 := 0x1#32

def readWrite : BitVec 32 := 0x2#32

def entryAddr (table i : Nat) : Nat := (table + 4 * i) % 0x100000000

def Vm.load (s : Vm) (a : Nat) : BitVec 32 := s.pmm.mem (a / 4)

def Vm.store (s : Vm) (a : Nat) (v : BitVec 32) : Vm :=
  { s with pmm := { s.pmm with mem := Function.update s.pmm.mem (a / 4) v } }

def Vm.clear (s : Vm) (ptr num : Nat) : Vm :=
  { s with pmm := { s.pmm with mem := memset s.pmm.mem ptr 0#8 num } }

def Vm.handOut (s : Vm) (num : Nat) (r : Nat × Pmm) : Nat × Vm :=
  (r.1, { s with pmm := r.2, handed := if r.1 = 0 then s.handed else ⟨r.1, num⟩ :: s.handed })

def Vm.allocate (s : Vm) (num : Nat) : Nat × Vm := s.handOut num (allocateBlocks s.pmm num)

def mapBlock (page : Nat) (block : Nat × Vm) : Nat × Vm :=
  if block.1 = 0 then block
  else (block.1, block.2.store page (setAttr (setFrame (block.2.load page) block.1) present))

def allocatePage (s : Vm) (page : Nat) : Nat × Vm := mapBlock page (s.allocate 1)

def freePage (s : Vm) (page : Nat) : Vm :=
  let address := pagePhysAddr (s.load page)
  let s := if address = 0 then s else { s with pmm := freeBlocks s.pmm address 1 }
  s.store page (clearAttr (s.load page) present)

def linkTable (s : Vm) (pde table : Nat) : Vm :=
  s.store pde (setFrame (setAttr (s.load pde) (present ||| readWrite)) table)

/-- `map_page` once the table is there. -/
def setPage (s : Vm) (pde phys virt : Nat) : Vm :=
  let page := entryAddr (pagePhysAddr (s.load pde)) (ptIndex virt)
  s.store page (setFrame (setAttr (s.load page) present) phys)

/-- `map_page` with the table it got for a directory entry that is not present. -/
def mapTable (pde phys virt : Nat) (table : Nat × Vm) : Bool × Vm :=
  if table.1 = 0 then (false, table.2)
  else (true, setPage (linkTable (table.2.clear table.1 4096) pde table.1) pde phys virt)

/-- `get_pte` and `get_pde`; `none` is the null pointer. The index is PT_INDEX in both. -/
def getPte (pt virt : Nat) : Option Nat := if pt ≠ 0 then some (entryAddr pt (ptIndex virt)) else none

def getPde (pd virt : Nat) : Option Nat := if pd ≠ 0 then some (entryAddr pd (ptIndex virt)) else none

def getPage (s : Vm) (virt : Nat) : Nat :=
  let pde := s.load (entryAddr s.currentPD (pdIndex virt))
  entryAddr (pagePhysAddr pde) (ptIndex virt)

/-- A null directory is refused. -/
def setPD (s : Vm) (pd : Nat) : Bool × Vm :=
  if pd = 0 then (false, s) else (true, { s with currentPD := pd })

def mapPage (s : Vm) (phys virt : Nat) : Bool × Vm :=
  let pde := entryAddr s.currentPD (pdIndex virt)
  if s.load pde &&& present ≠ present then mapTable pde phys virt (s.allocate 1)
  else (true, setPage s pde phys virt)

def unmapPage (s : Vm) (virt : Nat) : Vm :=
  let page := getPage s virt
  let s := s.store page (setFrame (s.load page) 0)
  s.store page (clearAttr (s.load page) present)

def fillEntries (table : Nat) (idx : Nat → Nat) (value : Nat → BitVec 32) : Nat → Vm → Vm
  | 0, s => s
  | n + 1, s => (fillEntries table idx value n s).store (entryAddr table (idx n)) (value n)

def mappedEntry (frame : Nat) : BitVec 32 := setFrame (setAttr 0#32 (present ||| readWrite)) frame

/-- `sizeof(dir)` is the size of a pointer; the loop then writes every entry. -/
def initDirectory (s : Vm) (dir : Nat) : Vm :=
  fillEntries dir (fun i => i) (fun _ => 0x2#32) 1024 (s.clear dir 4)

def initTables (s : Vm) (dir table table3G : Nat) : Vm :=
  let s := s.clear table 4
  let s := s.clear table3G 4
  let s := fillEntries table3G (fun i => ptIndex (i * 4096)) (fun i => mappedEntry (i * 4096)) 1024 s
  let s := fillEntries table (fun i => ptIndex (0xC0000000 + i * 4096))
    (fun i => mappedEntry (0x100000 + i * 4096)) 1024 s
  let s := linkTable s (entryAddr dir (pdIndex 0xC0000000)) table
  let s := linkTable s (entryAddr dir (pdIndex 0)) table3G
  { s with currentPD := dir }

/-- `Page_Manager_Init` from the test of `table3G` on, and below from those of `table`
and of `dir` on. -/
def initFromTable3G (dir table : Nat) (table3G : Nat × Vm) : Bool × Vm :=
  if table3G.1 = 0 then (false, table3G.2)
  else (true, initTables table3G.2 dir table table3G.1)

def initFromTable (dir : Nat) (table : Nat × Vm) : Bool × Vm :=
  if table.1 = 0 then (false, table.2)
  else initFromTable3G dir table.1 (table.2.allocate 1)

def initFromDir (dir : Nat × Vm) : Bool × Vm :=
  if dir.1 = 0 then (false, dir.2)
  else initFromTable dir.1 ((initDirectory dir.2 dir.1).allocate 1)

def pageManagerInit (s : Vm) : Bool × Vm := initFromDir (s.allocate 3)

def pfResolve (vpage : Nat) (frame : Nat × Vm) : Option Vm :=
  if frame.1 = 0 then none
  else
    match mapPage frame.2 frame.1 vpage with
    | (true, s) => some s
    | (false, _) => none

/-- `none` is the endless loop after the register dump. -/
def pfHandler (s : Vm) (badAddr ec : BitVec 32) : Option Vm :=
  let notPresent := ec &&& 1#32 = 0#32
  let user := ec &&& 4#32 ≠ 0#32
  if notPresent ∧ ¬user then pfResolve (badAddr &&& ~~~0xFFF#32).toNat (s.allocate 1)
  else none

def Vm.walk (s : Vm) (virt : Nat) : Option Nat :=
  let pde := s.load (entryAddr s.currentPD (pdIndex virt))
  if pde &&& present = 0#32 then none
  else
    let pte := s.load (entryAddr (pagePhysAddr pde) (ptIndex virt))
    if pte &&& present = 0#32 then none else some (pagePhysAddr pte)

end SplongleOS

import SplongleOS.Base.ByteMemory
import SplongleOS.Base.Runs
import SplongleOS.Sched
set_option autoImplicit false

/-! `switch_to_task` down to its pushes and pops, and the stack that `create_kernel_task`
builds for it: what a task finds when it is resumed. -/

namespace SplongleOS
open ByteMemory

/-- What the scheduler has in memory; `bootStack` is the stack task 0 runs on. -/
inductive KernelObject where
  | tasks
  | kernelStacks
  | currentTaskTcb
  | firstReady
  | lastReady
  | tss
  | postponeTaskSwitchesCounter
  | taskSwitchesPostponed
  | bootStack
  deriving DecidableEq

/-- In bytes. A TCB has 28: esp 0, esp0 4, cr3 8, next 12, state 16, task_id 20,
entrypoint 24. -/
def KernelObject.size (bootStackSize : Nat) : KernelObject → Nat
  | .tasks => 16 * 28
  | .kernelStacks => 16 * 4096
  | .tss => 104
  | .taskSwitchesPostponed => 1
  | .bootStack => bootStackSize
  | _ => 4

structure Layout where
  addr : KernelObject → Nat
  bootStackSize : Nat
  disjoint : ∀ o p, o ≠ p →
    addr o + o.size bootStackSize ≤ addr p ∨ addr p + p.size bootStackSize ≤ addr o
  bound : ∀ o, addr o + o.size bootStackSize ≤ 0x100000000

def Layout.tcb (L : Layout) (t : TaskId) : Nat := L.addr .tasks + 28 * t.val

def Layout.tcbPtr (L : Layout) (t : TaskId) : BitVec 32 := BitVec.ofNat 32 (L.tcb t)

def Layout.stackBottom (L : Layout) (t : TaskId) : Nat :=
  if t = 0 then L.addr .bootStack else L.addr .kernelStacks + 4096 * t.val

def Layout.stackTop (L : Layout) (t : TaskId) : Nat :=
  if t = 0 then L.addr .bootStack + L.bootStackSize else L.addr .kernelStacks + 4096 * t.val + 4096

def Layout.InStack (L : Layout) (t : TaskId) (x : Nat) : Prop := L.stackBottom t ≤ x ∧ x < L.stackTop t

structure Cpu where
  eax : BitVec 32
  ebx : BitVec 32
  ecx : BitVec 32
  edx : BitVec 32
  esi : BitVec 32
  edi : BitVec 32
  ebp : BitVec 32
  esp : BitVec 32
  eip : BitVec 32
  cr3 : BitVec 32
  mem : Mem

def Cpu.push (s : Cpu) (v : BitVec 32) : Cpu :=
  { s with esp := s.esp - 4#32, mem := store32 s.mem (s.esp - 4#32).toNat v }

def Cpu.top (s : Cpu) : BitVec 32 := load32 s.mem s.esp.toNat

/-- `.continue`, to the store of the previous task's ESP. -/
def Cpu.saveTask (L : Layout) (s : Cpu) : Cpu :=
  let s := (((s.push s.ebx).push s.esi).push s.edi).push s.ebp
  let s := { s with edi := load32 s.mem (L.addr .currentTaskTcb) }
  { s with mem := store32 s.mem s.edi.toNat s.esp }

/-- The previous task behind `g_last_ready`, down to `.ready_done`. -/
def Cpu.linkPrevious (L : Layout) (s : Cpu) : Cpu :=
  let s := { s with ebx := load32 s.mem (L.addr .lastReady) }
  if s.ebx = 0#32 then
    let s := { s with mem := store32 s.mem (L.addr .firstReady) s.edi }
    { s with mem := store32 s.mem (L.addr .lastReady) s.edi }
  else
    let s := { s with mem := store32 s.mem (s.ebx + 12#32).toNat s.edi }
    { s with mem := store32 s.mem (L.addr .lastReady) s.edi }

/-- To `.skip_put_back`. -/
def Cpu.putBackTask (L : Layout) (s : Cpu) : Cpu :=
  let s := { s with
    eax := s.eax &&& 0xFFFFFF00#32 ||| (s.mem (s.edi + 16#32).toNat).setWidth 32 }
  if s.eax.setWidth 8 ≠ 0#8 then s
  else
    let s := { s with mem := store8 s.mem (s.edi + 16#32).toNat 1#8 }
    let s := s.linkPrevious L
    { s with mem := store32 s.mem (s.edi + 12#32).toNat 0#32 }

/-- `.skip_put_back` and `.doneVAS`, up to the pops. -/
def Cpu.loadTask (L : Layout) (s : Cpu) : Cpu :=
  let s := { s with esi := load32 s.mem (s.esp + 20#32).toNat }
  let s := { s with mem := store32 s.mem (L.addr .currentTaskTcb) s.esi }
  let s := { s with mem := store8 s.mem (s.esi + 16#32).toNat 0#8 }
  let s := { s with esp := load32 s.mem s.esi.toNat }
  let s := { s with eax := load32 s.mem (s.esi + 8#32).toNat }
  let s := { s with ebx := load32 s.mem (s.esi + 4#32).toNat }
  let s := { s with mem := store32 s.mem (L.addr .tss + 4) s.ebx }
  let s := { s with ecx := s.cr3 }
  if s.eax = s.ecx then s else { s with cr3 := s.eax }

def Cpu.resumeTask (s : Cpu) : Cpu :=
  let s := { s with ebp := s.top, esp := s.esp + 4#32 }
  let s := { s with edi := s.top, esp := s.esp + 4#32 }
  let s := { s with esi := s.top, esp := s.esp + 4#32 }
  let s := { s with ebx := s.top, esp := s.esp + 4#32 }
  { s with eip := s.top, esp := s.esp + 4#32 }

def Cpu.switchToTask (L : Layout) (s : Cpu) : Cpu :=
  if load32 s.mem (L.addr .postponeTaskSwitchesCounter) = 0#32 then
    (((s.saveTask L).putBackTask L).loadTask L).resumeTask
  else
    let s := { s with mem := store32 s.mem (L.addr .taskSwitchesPostponed) 1#32 }
    { s with eip := s.top, esp := s.esp + 4#32 }

/-- What `switch_to_task` promises to bring back. -/
structure TaskContext where
  ebx : BitVec 32
  esi : BitVec 32
  edi : BitVec 32
  ebp : BitVec 32
  esp : BitVec 32
  eip : BitVec 32

def Cpu.context (s : Cpu) : TaskContext := ⟨s.ebx, s.esi, s.edi, s.ebp, s.esp, s.eip⟩

def Cpu.calling (s : Cpu) : TaskContext := ⟨s.ebx, s.esi, s.edi, s.ebp, s.esp + 4#32, s.top⟩

/-- Ghosts: which task is running, the context of each at its own last call of
`switch_to_task`, and the entrypoint it was created with. -/
structure Tasking where
  cpu : Cpu
  used : TaskId → Bool
  numTasks : Nat
  nextTaskId : BitVec 32
  current : TaskId
  saved : TaskId → Option TaskContext
  entry : TaskId → BitVec 32

def appendReady (L : Layout) (m : Mem) (t : BitVec 32) : Mem :=
  let last := load32 m (L.addr .lastReady)
  if last = 0#32 then store32 (store32 m (L.addr .lastReady) t) (L.addr .firstReady) t
  else store32 (store32 m (last + 12#32).toNat t) (L.addr .lastReady) t

/-- The stack and the TCB of a new task. -/
def buildTask (L : Layout) (m : Mem) (t : TaskId) (entrypoint cr3 taskId : BitVec 32) : Mem :=
  let stackTop := L.addr .kernelStacks + 4096 * t.val + 4096
  let m := fill m (L.tcb t) 28 0#8
  let m := store32 m (stackTop - 4) entrypoint
  let m := store32 m (stackTop - 8) 0#32
  let m := store32 m (stackTop - 12) 0#32
  let m := store32 m (stackTop - 16) 0#32
  let m := store32 m (stackTop - 20) 0#32
  let m := store32 m (L.tcb t) (BitVec.ofNat 32 (stackTop - 20))
  let m := store32 m (L.tcb t + 8) cr3
  let m := store32 m (L.tcb t + 4) (BitVec.ofNat 32 stackTop)
  let m := store32 m (L.tcb t + 20) taskId
  let m := store32 m (L.tcb t + 24) entrypoint
  let m := store8 m (L.tcb t + 16) 1#8
  store32 m (L.tcb t + 12) 0#32

def Tasking.addTask (L : Layout) (s : Tasking) (t : TaskId) (entrypoint : BitVec 32) : Tasking :=
  { s with
    cpu := { s.cpu with
      mem := appendReady L (buildTask L s.cpu.mem t entrypoint s.cpu.cr3 s.nextTaskId) (L.tcbPtr t) }
    used := Function.update s.used t true
    numTasks := s.numTasks + 1
    nextTaskId := s.nextTaskId + 1#32
    saved := Function.update s.saved t none
    entry := Function.update s.entry t entrypoint }

def Tasking.createKernelTask (L : Layout) (s : Tasking) (entrypoint : BitVec 32) : Tasking :=
  if s.numTasks ≥ 16 then s
  else
    match (List.finRange 16).find? fun i => !s.used i with
    | some t => s.addTask L t entrypoint
    | none => s

def Tasking.multitaskingInit (L : Layout) (s : Tasking) (idle : BitVec 32) : Tasking :=
  let m := store32 s.cpu.mem (L.addr .currentTaskTcb) (L.tcbPtr 0)
  let m := store8 m (L.tcb 0 + 16) 0#8
  let m := store32 m (L.tcb 0) s.cpu.esp
  let m := store32 m (L.tcb 0 + 8) s.cpu.cr3
  let m := store32 m (L.tcb 0 + 4) s.cpu.esp
  let m := store32 m (L.tcb 0 + 20) s.nextTaskId
  let m := store32 m (L.tcb 0 + 12) 0#32
  let m := store32 (store32 m (L.addr .lastReady) 0#32) (L.addr .firstReady) 0#32
  let s :=
    { s with
      cpu := { s.cpu with mem := m }
      used := fun i => decide (i = 0)
      numTasks := 1
      nextTaskId := s.nextTaskId + 1#32
      current := 0 }
  s.createKernelTask L idle

inductive TaskingAct where
  | work (cpu : Cpu)
  | createKernelTask (entrypoint : BitVec 32)
  | switchToTask (next : TaskId)

def Tasking.step (L : Layout) (s : Tasking) : TaskingAct → Option Tasking
  | .work cpu => some { s with cpu := cpu }
  | .createKernelTask entrypoint => some (s.createKernelTask L entrypoint)
  | .switchToTask next => some
    { s with
      cpu := s.cpu.switchToTask L
      current := next
      saved := Function.update s.saved s.current (some s.cpu.calling) }

/-- A task writes to its own stack only, also the parameter, the return address and the
pushes of its calls, and switches to another task that has been created. -/
def Tasking.Allowed (L : Layout) (s : Tasking) : TaskingAct → Prop
  | .work cpu => Within (L.InStack s.current) s.cpu.mem cpu.mem
  | .createKernelTask _ => True
  | .switchToTask next =>
    s.used next = true ∧ next ≠ s.current ∧
    load32 s.cpu.mem (L.addr .postponeTaskSwitchesCounter) = 0#32 ∧
    L.stackBottom s.current + 16 ≤ s.cpu.esp.toNat ∧ s.cpu.esp.toNat + 8 ≤ L.stackTop s.current ∧
    load32 s.cpu.mem (s.cpu.esp + 4#32).toNat = L.tcbPtr next

def Tasking.Booted (L : Layout) (s : Tasking) : Prop :=
  ∃ s0 idle, s = Tasking.multitaskingInit L s0 idle

variable {L : Layout} {t u : TaskId} {x k : Nat}

theorem Layout.tcb_le (L : Layout) (t : TaskId) :
    L.addr .tasks ≤ L.tcb t ∧ L.tcb t + 28 ≤ L.addr .tasks + 448 := by
  unfold Layout.tcb
  omega

theorem Layout.tasks_bound (L : Layout) : L.addr .tasks + 448 ≤ 0x100000000 := L.bound .tasks

theorem Layout.tcbPtr_add (L : Layout) (t : TaskId) (hk : k < 28) :
    (L.tcbPtr t + BitVec.ofNat 32 k).toNat = L.tcb t + k := by
  have hle := L.tcb_le t
  have hbound := L.tasks_bound
  unfold Layout.tcbPtr
  rw [BitVec.toNat_add, BitVec.toNat_ofNat, BitVec.toNat_ofNat]
  omega

theorem Layout.tcbPtr_toNat (L : Layout) (t : TaskId) : (L.tcbPtr t).toNat = L.tcb t := by
  have hle := L.tcb_le t
  have hbound := L.tasks_bound
  unfold Layout.tcbPtr
  rw [BitVec.toNat_ofNat]
  omega

theorem Layout.stack_apart (L : Layout) (t : TaskId) {o : KernelObject} (hboot : o ≠ .bootStack)
    (hkernel : o ≠ .kernelStacks) :
    L.addr o + o.size L.bootStackSize ≤ L.stackBottom t ∨ L.stackTop t ≤ L.addr o := by
  have h0 := L.disjoint o .bootStack hboot
  have h1 := L.disjoint o .kernelStacks hkernel
  have hsize : KernelObject.bootStack.size L.bootStackSize = L.bootStackSize := rfl
  have hsize' : KernelObject.kernelStacks.size L.bootStackSize = 16 * 4096 := rfl
  unfold Layout.stackBottom Layout.stackTop
  by_cases ht : t = 0
  · rw [if_pos ht, if_pos ht]
    omega
  · rw [if_neg ht, if_neg ht]
    omega

theorem Layout.stack_stack (L : Layout) (h : t ≠ u) :
    L.stackTop t ≤ L.stackBottom u ∨ L.stackTop u ≤ L.stackBottom t := by
  have h0 := L.disjoint .bootStack .kernelStacks (by decide)
  have hsize : KernelObject.bootStack.size L.bootStackSize = L.bootStackSize := rfl
  have hsize' : KernelObject.kernelStacks.size L.bootStackSize = 16 * 4096 := rfl
  have hval : t.val ≠ u.val := fun heq => h (Fin.ext heq)
  unfold Layout.stackBottom Layout.stackTop
  by_cases ht : t = 0
  · have hu : u ≠ 0 := fun heq => h (ht.trans heq.symm)
    rw [if_pos ht, if_pos ht, if_neg hu, if_neg hu]
    omega
  · rw [if_neg ht, if_neg ht]
    by_cases hu : u = 0
    · rw [if_pos hu, if_pos hu]
      omega
    · rw [if_neg hu, if_neg hu]
      omega

theorem Layout.stackTop_le (L : Layout) (t : TaskId) : L.stackTop t ≤ 0x100000000 := by
  have h0 : L.addr .bootStack + L.bootStackSize ≤ 0x100000000 := L.bound .bootStack
  have h1 : L.addr .kernelStacks + 16 * 4096 ≤ 0x100000000 := L.bound .kernelStacks
  unfold Layout.stackTop
  by_cases ht : t = 0
  · rw [if_pos ht]
    exact h0
  · rw [if_neg ht]
    omega

def Layout.Listing (L : Layout) (x : Nat) : Prop :=
  (∃ t : TaskId, L.tcb t + 12 ≤ x ∧ x < L.tcb t + 17) ∨
    (L.addr .firstReady ≤ x ∧ x < L.addr .firstReady + 4) ∨
    (L.addr .lastReady ≤ x ∧ x < L.addr .lastReady + 4)

def Layout.Switching (L : Layout) (x : Nat) : Prop :=
  L.Listing x ∨ (L.addr .currentTaskTcb ≤ x ∧ x < L.addr .currentTaskTcb + 4) ∨
    (L.addr .tss + 4 ≤ x ∧ x < L.addr .tss + 8)

theorem Layout.tcb_switching (L : Layout) (t : TaskId) (hk : k < 12) : ¬L.Switching (L.tcb t + k) := by
  have hle := L.tcb_le t
  have hfirst := L.disjoint .tasks .firstReady (by decide)
  have hlast := L.disjoint .tasks .lastReady (by decide)
  have hcurrent := L.disjoint .tasks .currentTaskTcb (by decide)
  have htss := L.disjoint .tasks .tss (by decide)
  simp only [KernelObject.size] at hfirst hlast hcurrent htss
  rintro ((⟨u, hu⟩ | h | h) | h | h)
  · unfold Layout.tcb at hu
    omega
  · omega
  · omega
  · omega
  · omega

theorem Layout.stack_switching (L : Layout) (h : L.InStack t x) : ¬L.Switching x := by
  unfold Layout.InStack at h
  have htasks := L.stack_apart t (o := .tasks) (by decide) (by decide)
  have hfirst := L.stack_apart t (o := .firstReady) (by decide) (by decide)
  have hlast := L.stack_apart t (o := .lastReady) (by decide) (by decide)
  have hcurrent := L.stack_apart t (o := .currentTaskTcb) (by decide) (by decide)
  have htss := L.stack_apart t (o := .tss) (by decide) (by decide)
  simp only [KernelObject.size] at htasks hfirst hlast hcurrent htss
  rintro ((⟨u, hu⟩ | h | h) | h | h)
  · have hle := L.tcb_le u
    omega
  · omega
  · omega
  · omega
  · omega

end SplongleOS

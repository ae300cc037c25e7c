import SplongleOS.Base.WordStack
import SplongleOS.ContextSwitch
set_option autoImplicit false

/-! The way of an interrupt through isr.asm: from the processor's pushes to `i686_ISR_Handler` and
back to the code that was interrupted. -/

namespace SplongleOS
open ByteMemory WordStack

structure Core where
  eax : BitVec 32
  ebx : BitVec 32
  ecx : BitVec 32
  edx : BitVec 32
  esi : BitVec 32
  edi : BitVec 32
  ebp : BitVec 32
  esp : BitVec 32
  eip : BitVec 32
  eflags : BitVec 32
  cs : BitVec 16
  ds : BitVec 16
  es : BitVec 16
  fs : BitVec 16
  gs : BitVec 16
  mem : Mem

structure Registers where
  ds : BitVec 32
  edi : BitVec 32
  esi : BitVec 32
  ebp : BitVec 32
  kernelEsp : BitVec 32
  ebx : BitVec 32
  edx : BitVec 32
  ecx : BitVec 32
  eax : BitVec 32
  interrupt : BitVec 32
  errorCode : BitVec 32
  eip : BitVec 32
  cs : BitVec 32
  eflags : BitVec 32
  esp : BitVec 32
  ss : BitVec 32
  deriving DecidableEq, Repr

def Registers.read (m : Mem) (p : Nat) : Registers :=
  ⟨load32 m p, load32 m (p + 4), load32 m (p + 8), load32 m (p + 12), load32 m (p + 16),
    load32 m (p + 20), load32 m (p + 24), load32 m (p + 28), load32 m (p + 32), load32 m (p + 36),
    load32 m (p + 40), load32 m (p + 44), load32 m (p + 48), load32 m (p + 52), load32 m (p + 56),
    load32 m (p + 60)⟩

/-- The addresses of `i686_ISR0` to `i686_ISR255`, of `i686_ISR_Handler` and of the instruction
behind its call. -/
structure IsrCode where
  isr : Fin 256 → BitVec 32
  handler : BitVec 32
  returnTo : BitVec 32

def isrsWithErrorCode : List Nat := [8, 10, 11, 12, 13, 14, 17, 21, 29, 30]

def Core.push (s : Core) (v : BitVec 32) : Core :=
  { s with esp := s.esp - 4#32, mem := store32 s.mem (s.esp - 4#32).toNat v }

def Core.pop (s : Core) (f : BitVec 32 → Core → Core) : Core :=
  f (load32 s.mem s.esp.toNat) { s with esp := s.esp + 4#32 }

/-- The processor takes an interrupt through an interrupt gate, without a change of the privilege
level; some exceptions push an error code. IF, TF, NT, RF and VM are cleared. -/
def Core.deliver (s : Core) (selector : BitVec 16) (offset : BitVec 32)
    (error : Option (BitVec 32)) : Core :=
  let t := ([s.eflags, s.cs.setWidth 32, s.eip] ++ error.toList).foldl Core.push s
  { t with cs := selector, eip := offset, eflags := s.eflags &&& ~~~0x34300#32 }

def Core.isrStub (v : Fin 256) (s : Core) : Core :=
  if isrsWithErrorCode.contains v.val then s.push (BitVec.ofNat 32 v.val)
  else (s.push 0#32).push (BitVec.ofNat 32 v.val)

def Core.pusha (s : Core) : Core :=
  [s.eax, s.ecx, s.edx, s.ebx, s.esp, s.ebp, s.esi, s.edi].foldl Core.push s

def Core.loadSegments (s : Core) (v : BitVec 32) : Core :=
  { s with ds := v.setWidth 16, es := v.setWidth 16, fs := v.setWidth 16, gs := v.setWidth 16 }

def Core.isrCommon (C : IsrCode) (s : Core) : Core :=
  let s := s.pusha
  let s := { s with eax := s.ds.setWidth 32 }
  let s := s.push s.eax
  let s := { s with eax := s.eax &&& 0xFFFF0000#32 ||| 0x10#32 }
  let s := s.loadSegments s.eax
  let s := s.push s.esp
  let s := s.push C.returnTo
  { s with eip := C.handler }

def Core.popa (s : Core) : Core :=
  let s := s.pop fun w s => { s with edi := w }
  let s := s.pop fun w s => { s with esi := w }
  let s := s.pop fun w s => { s with ebp := w }
  let s := s.pop fun _ s => s
  let s := s.pop fun w s => { s with ebx := w }
  let s := s.pop fun w s => { s with edx := w }
  let s := s.pop fun w s => { s with ecx := w }
  s.pop fun w s => { s with eax := w }

def Core.iret (s : Core) : Core :=
  let s := s.pop fun w s => { s with eip := w }
  let s := s.pop fun w s => { s with cs := w.setWidth 16 }
  s.pop fun w s => { s with eflags := w }

/-- `isr_common` from the return of the call on. -/
def Core.isrReturn (s : Core) : Core :=
  let s := { s with esp := s.esp + 4#32 }
  let s := s.pop fun w s => { s with eax := w }
  let s := s.loadSegments s.eax
  let s := s.popa
  let s := { s with esp := s.esp + 8#32 }
  s.iret

/-- Up to the first instruction of `i686_ISR_Handler`; every gate has the code segment 0x08. -/
def Core.enter (C : IsrCode) (v : Fin 256) (error : Option (BitVec 32)) (s : Core) : Core :=
  ((s.deliver 0x08#16 (C.isr v) error).isrStub v).isrCommon C

/-- What runs from a call to its return: computations, and interrupts between any two of them,
each with what its handler does. -/
inductive Activity where
  | done
  | work (next : Core) (rest : Activity)
  | interrupt (v : Fin 256) (error : Option (BitVec 32)) (handler rest : Activity)

def Activity.run (C : IsrCode) : Activity → Core → Core
  | .done, s => s
  | .work next rest, _ => rest.run C next
  | .interrupt v error handler rest, s => rest.run C (handler.run C (s.enter C v error)).isrReturn

/-- An interrupt from its arrival to its `iret`. -/
def Core.serve (C : IsrCode) (v : Fin 256) (error : Option (BitVec 32)) (handler : Activity)
    (s : Core) : Core := (handler.run C (s.enter C v error)).isrReturn

structure KernelStack where
  bottom : Nat
  top : Nat
  other : Nat → Prop
  apart : ∀ x, other x → x < bottom ∨ top ≤ x

/-- What a function may write to that was called with `base` in esp: everything below, its
return address and its argument. -/
def KernelStack.Open (K : KernelStack) (base x : Nat) : Prop :=
  K.bottom ≤ x ∧ x < base + 8 ∨ K.other x

/-- The processor pushes an error code exactly where the stub counts on one. -/
def Fits (v : Fin 256) (error : Option (BitVec 32)) : Prop :=
  error.isSome = isrsWithErrorCode.contains v.val

instance (v : Fin 256) (error : Option (BitVec 32)) : Decidable (Fits v error) :=
  inferInstanceAs (Decidable (_ = _))

/-- Nothing writes above what it may write to, an interrupt comes with room for its frame, and
`i686_ISR_Handler` returns. -/
def Activity.Ok (K : KernelStack) (C : IsrCode) (base : Nat) : Activity → Core → Prop
  | .done, _ => True
  | .work next rest, s => Within (K.Open base) s.mem next.mem ∧ rest.Ok K C base next
  | .interrupt v error handler rest, s =>
    Fits v error ∧ (K.bottom + 64 ≤ s.esp.toNat ∧ s.esp.toNat ≤ base) ∧
      handler.Ok K C (s.enter C v error).esp.toNat (s.enter C v error) ∧
      (handler.run C (s.enter C v error)).esp = (s.enter C v error).esp + 4#32 ∧
      rest.Ok K C base (handler.run C (s.enter C v error)).isrReturn

/-- The interrupted code goes on as if nothing had happened, but for es, fs and gs, which are
loaded from ds. -/
structure Transparent (K : KernelStack) (s t : Core) : Prop where
  general : (t.eax, t.ebx, t.ecx, t.edx, t.esi, t.edi, t.ebp, t.esp) =
    (s.eax, s.ebx, s.ecx, s.edx, s.esi, s.edi, s.ebp, s.esp)
  control : (t.eip, t.cs, t.eflags) = (s.eip, s.cs, s.eflags)
  segments : (t.ds, t.es, t.fs, t.gs) = (s.ds, s.ds, s.ds, s.ds)
  memory : Within (fun x => K.bottom ≤ x ∧ x < s.esp.toNat ∨ K.other x) s.mem t.mem

def Core.frame (s : Core) (v : Fin 256) (error : Option (BitVec 32)) : Registers where
  ds := s.ds.setWidth 32
  edi := s.edi
  esi := s.esi
  ebp := s.ebp
  kernelEsp := s.esp - 20#32
  ebx := s.ebx
  edx := s.edx
  ecx := s.ecx
  eax := s.eax
  interrupt := BitVec.ofNat 32 v.val
  errorCode := error.getD 0#32
  eip := s.eip
  cs := s.cs.setWidth 32
  eflags := s.eflags
  esp := load32 s.mem s.esp.toNat
  ss := load32 s.mem (s.esp.toNat + 4)

variable {C : IsrCode} {K : KernelStack} {v : Fin 256} {error : Option (BitVec 32)} {s t : Core}

def Core.stack (s : Core) : BitVec 32 × Mem := (s.esp, s.mem)

def Core.withStack (s : Core) (p : BitVec 32 × Mem) : Core := { s with esp := p.1, mem := p.2 }

theorem foldl_push (ws : List (BitVec 32)) (s : Core) :
    ws.foldl Core.push s = s.withStack (ws.foldl WordStack.push s.stack) := by
  induction ws generalizing s with
  | nil => rfl
  | cons w ws ih => exact ih (s.push w)

/-- What the stub leaves above the words the processor pushes. -/
def stubWords (v : Fin 256) : List (BitVec 32) :=
  if isrsWithErrorCode.contains v.val then [BitVec.ofNat 32 v.val]
  else [0#32, BitVec.ofNat 32 v.val]

def Core.frameWords (C : IsrCode) (s : Core) (v : Fin 256) (error : Option (BitVec 32)) :
    List (BitVec 32) :=
  let head := [s.eflags, s.cs.setWidth 32, s.eip] ++ error.toList ++ stubWords v
  let esp := s.esp - BitVec.ofNat 32 (4 * head.length)
  head ++ [s.eax, s.ecx, s.edx, s.ebx, esp, s.ebp, s.esi, s.edi, s.ds.setWidth 32, esp - 36#32,
    C.returnTo]

theorem isrStub_eq (v : Fin 256) (s : Core) : s.isrStub v = (stubWords v).foldl Core.push s := by
  unfold Core.isrStub stubWords
  split <;> rfl

theorem isrCommon_stack (C : IsrCode) (s : Core) : (s.isrCommon C).stack =
    [s.eax, s.ecx, s.edx, s.ebx, s.esp, s.ebp, s.esi, s.edi, s.ds.setWidth 32, s.esp - 36#32,
      C.returnTo].foldl WordStack.push s.stack := by
  have hesp : (([s.eax, s.ecx, s.edx, s.ebx, s.esp, s.ebp, s.esi, s.edi, s.ds.setWidth 32].foldl
      WordStack.push s.stack)).1 = s.esp - 36#32 := pushes_fst _ _
  rw [← hesp]
  unfold Core.isrCommon
  rw [Core.pusha, foldl_push]
  rfl

theorem deliver_stack (s : Core) (selector : BitVec 16) (offset : BitVec 32)
    (error : Option (BitVec 32)) : (s.deliver selector offset error).stack =
      ([s.eflags, s.cs.setWidth 32, s.eip] ++ error.toList).foldl WordStack.push s.stack := by
  rw [Core.deliver, foldl_push]
  rfl

theorem isrStub_stack (v : Fin 256) (s : Core) :
    (s.isrStub v).stack = (stubWords v).foldl WordStack.push s.stack := by
  rw [isrStub_eq, foldl_push]
  rfl

def Core.general (s : Core) :=
  (s.eax, s.ecx, s.edx, s.ebx, s.ebp, s.esi, s.edi, s.ds)

theorem isrStub_general (v : Fin 256) (s : Core) (selector : BitVec 16) (offset : BitVec 32)
    (error : Option (BitVec 32)) :
    ((s.deliver selector offset error).isrStub v).general = s.general := by
  rw [isrStub_eq, foldl_push, Core.deliver, foldl_push]
  rfl

theorem enter_stack (C : IsrCode) (v : Fin 256) (error : Option (BitVec 32)) (s : Core) :
    (s.enter C v error).stack = (s.frameWords C v error).foldl WordStack.push s.stack := by
  have hregs := isrStub_general v s 0x08#16 (C.isr v) error
  have hstack : ((s.deliver 0x08#16 (C.isr v) error).isrStub v).stack =
      ([s.eflags, s.cs.setWidth 32, s.eip] ++ error.toList ++ stubWords v).foldl
        WordStack.push s.stack := by
    rw [isrStub_stack, deliver_stack, ← List.foldl_append]
  have hesp := (congrArg Prod.fst hstack).trans (pushes_fst _ _)
  rw [Core.enter, isrCommon_stack, hstack, ← List.foldl_append]
  generalize (s.deliver 0x08#16 (C.isr v) error).isrStub v = t at hregs hesp
  simp only [Core.general, Prod.mk.injEq] at hregs
  obtain ⟨hax, hcx, hdx, hbx, hbp, hsi, hdi, hds⟩ := hregs
  change t.esp = s.esp - _ at hesp
  rw [hesp, hax, hcx, hdx, hbx, hbp, hsi, hdi, hds]
  rfl

theorem isrReturn_esp (s : Core) : s.isrReturn.esp = s.esp + 60#32 := by
  simp only [Core.isrReturn, Core.popa, Core.iret, Core.pop, Core.loadSegments, BitVec.add_assoc,
    BitVec.reduceAdd]

theorem isrReturn_mem (s : Core) : s.isrReturn.mem = s.mem := by
  simp only [Core.isrReturn, Core.popa, Core.iret, Core.pop, Core.loadSegments]

theorem isrReturn_holds {d di si bp sp b dx c ax number code ip cseg flags : BitVec 32}
    (hroom : s.esp.toNat + 60 < 2 ^ 32)
    (h : Holds s.mem (s.esp.toNat + 4)
      [d, di, si, bp, sp, b, dx, c, ax, number, code, ip, cseg, flags]) :
    s.isrReturn = ⟨ax, b, c, dx, si, di, bp, s.esp + 60#32, ip, flags, cseg.setWidth 16,
      d.setWidth 16, d.setWidth 16, d.setWidth 16, d.setWidth 16, s.mem⟩ := by
  have hnat (k : Nat) (hk : k ≤ 60) : (s.esp + BitVec.ofNat 32 k).toNat = s.esp.toNat + k := by
    rw [BitVec.toNat_add, BitVec.toNat_ofNat]
    omega
  simp only [Holds, Nat.add_assoc, Nat.reduceAdd] at h
  obtain ⟨hd, hdi, hsi, hbp, -, hb, hdx, hc, hax, -, -, hip, hcs, hflags, -⟩ := h
  rw [← hnat 4 (by decide)] at hd
  rw [← hnat 8 (by decide)] at hdi
  rw [← hnat 12 (by decide)] at hsi
  rw [← hnat 16 (by decide)] at hbp
  rw [← hnat 24 (by decide)] at hb
  rw [← hnat 28 (by decide)] at hdx
  rw [← hnat 32 (by decide)] at hc
  rw [← hnat 36 (by decide)] at hax
  rw [← hnat 48 (by decide)] at hip
  rw [← hnat 52 (by decide)] at hcs
  rw [← hnat 56 (by decide)] at hflags
  simp only [Core.isrReturn, Core.popa, Core.iret, Core.pop, Core.loadSegments,
    BitVec.add_assoc, BitVec.reduceAdd, hd, hdi, hsi, hbp, hb, hdx, hc, hax, hip, hcs, hflags]

theorem length_stubWords (v : Fin 256) (error : Option (BitVec 32)) :
    (error.toList ++ stubWords v).length = 2 ↔ Fits v error := by
  unfold Fits stubWords
  cases error <;> cases isrsWithErrorCode.contains v.val <;> simp

theorem length_frameWords (C : IsrCode) (v : Fin 256) (error : Option (BitVec 32)) (s : Core) :
    (s.frameWords C v error).length = 14 + (error.toList ++ stubWords v).length := by
  simp only [Core.frameWords, List.length_append, List.length_cons, List.length_nil]
  omega

theorem length_toList_le (v : Fin 256) (error : Option (BitVec 32)) :
    1 ≤ (error.toList ++ stubWords v).length ∧ (error.toList ++ stubWords v).length ≤ 3 := by
  unfold stubWords
  cases error <;> cases isrsWithErrorCode.contains v.val <;> simp

theorem frameWords_of_fits (C : IsrCode) (s : Core) (hfits : Fits v error) :
    s.frameWords C v error =
      [s.eflags, s.cs.setWidth 32, s.eip, error.getD 0#32, BitVec.ofNat 32 v.val, s.eax, s.ecx,
        s.edx, s.ebx, s.esp - 20#32, s.ebp, s.esi, s.edi, s.ds.setWidth 32, s.esp - 56#32,
        C.returnTo] := by
  have hwords : error.toList ++ stubWords v = [error.getD 0#32, BitVec.ofNat 32 v.val] := by
    unfold Fits at hfits
    unfold stubWords
    rw [← hfits]
    cases error <;> rfl
  have hesp : s.esp - 20#32 - 36#32 = s.esp - 56#32 := by
    rw [BitVec.sub_sub]
    rfl
  simp only [Core.frameWords, List.append_assoc, hwords, ← hesp]
  rfl

theorem enter_spec (C : IsrCode) (v : Fin 256) (error : Option (BitVec 32)) {s : Core}
    (hroom : 4 * (s.frameWords C v error).length ≤ s.esp.toNat) :
    (s.enter C v error).esp.toNat = s.esp.toNat - 4 * (s.frameWords C v error).length ∧
      Holds (s.enter C v error).mem (s.enter C v error).esp.toNat
        (s.frameWords C v error).reverse ∧
      Within (fun x => (s.enter C v error).esp.toNat ≤ x ∧ x < s.esp.toNat) s.mem
        (s.enter C v error).mem := by
  have hstack := enter_stack C v error s
  have hnone : Holds s.stack.2 s.stack.1.toNat [] := trivial
  have hpushes := hnone.pushes hroom
  rw [← hstack, List.append_nil] at hpushes
  exact hpushes

/-- However deep interrupts are nested, a handler leaves its caller's part of the stack alone. -/
theorem Activity.within {a : Activity} {base : Nat} (h : a.Ok K C base s) :
    Within (K.Open base) s.mem (a.run C s).mem := by
  induction a generalizing s base with
  | done => exact Within.refl _ _
  | work next rest ih => exact h.1.trans (ih h.2)
  | interrupt v error handler rest ihhandler ihrest =>
    obtain ⟨hfits, ⟨hbottom, hbase⟩, hhandler, hret, hrest⟩ := h
    have hlength : (s.frameWords C v error).length = 16 := by
      rw [length_frameWords, (length_stubWords v error).mpr hfits]
    obtain ⟨hesp, -, henter⟩ := enter_spec C v error (s := s) (by omega)
    have hdone := ihrest hrest
    rw [isrReturn_mem] at hdone
    refine (henter.mono ?_).trans (((ihhandler hhandler).mono ?_).trans hdone)
    · intro x hx
      exact .inl (by omega)
    · rintro x (hx | hx)
      · exact .inl (by omega)
      · exact .inr hx

theorem serve_of_fits (hfits : Fits v error) (hbottom : K.bottom + 64 ≤ s.esp.toNat)
    (htop : s.esp.toNat ≤ K.top) {handler : Activity}
    (hok : handler.Ok K C (s.enter C v error).esp.toNat (s.enter C v error))
    (hret : (handler.run C (s.enter C v error)).esp = (s.enter C v error).esp + 4#32) :
    s.serve C v error handler = { s with
      es := s.ds, fs := s.ds, gs := s.ds, mem := (handler.run C (s.enter C v error)).mem } := by
  have hwords := frameWords_of_fits C s hfits
  have hlength : (s.frameWords C v error).length = 16 := by rw [hwords]; rfl
  obtain ⟨hesp, hholds, -⟩ := enter_spec C v error (s := s) (by omega)
  have hlt := s.esp.isLt
  have hnat : (handler.run C (s.enter C v error)).esp.toNat = s.esp.toNat - 60 := by
    rw [hret, BitVec.toNat_add, hesp, hlength]
    have hfour : (4#32).toNat = 4 := rfl
    omega
  -- the frame from the pushed ds up is out of the handler's reach
  have hkept : Holds (handler.run C (s.enter C v error)).mem 
      ((handler.run C (s.enter C v error)).esp.toNat + 4)
      [s.ds.setWidth 32, s.edi, s.esi, s.ebp, s.esp - 20#32, s.ebx, s.edx, s.ecx, s.eax,
        BitVec.ofNat 32 v.val, error.getD 0#32, s.eip, s.cs.setWidth 32, s.eflags] := by
    rw [hwords] at hholds
    have hup : (s.enter C v error).esp.toNat + 4 + 4 =
        (handler.run C (s.enter C v error)).esp.toNat + 4 := by omega
    refine (hup ▸ hholds.2.2).within (Activity.within hok) fun x hx hlt' => ?_
    simp only [List.length_cons, List.length_nil] at hlt'
    rintro (hopen | hother)
    · omega
    · have := K.apart x hother
      omega
  have hesp' : (handler.run C (s.enter C v error)).esp + 60#32 = s.esp := by
    apply BitVec.eq_of_toNat_eq
    rw [BitVec.toNat_add, hnat]
    have hsixty : (60#32).toNat = 60 := rfl
    omega
  rw [Core.serve, isrReturn_holds (by omega) hkept, hesp', BitVec.setWidth_setWidth_of_le,
    BitVec.setWidth_setWidth_of_le]
  · simp only [BitVec.setWidth_eq]
  all_goals decide

theorem serve_esp (C : IsrCode) {handler : Activity} (s : Core)
    (hroom : 4 * (s.frameWords C v error).length ≤ s.esp.toNat)
    (hret : (handler.run C (s.enter C v error)).esp = (s.enter C v error).esp + 4#32)
    (hserved : (s.serve C v error handler).esp = s.esp) : Fits v error := by
  obtain ⟨hesp, -, -⟩ := enter_spec C v error hroom
  have hlength := length_frameWords C v error s
  have hle := length_toList_le v error
  have hlt := s.esp.isLt
  rw [Core.serve, isrReturn_esp, hret, BitVec.add_assoc] at hserved
  have hnat := congrArg BitVec.toNat hserved
  rw [BitVec.toNat_add, hesp] at hnat
  have hsum : (4#32 + 60#32).toNat = 64 := rfl
  exact (length_stubWords v error).mp (by omega)

/-- An interrupt comes and goes without a trace exactly when the processor pushes an error code
where isrs_gen.inc says it does. -/
theorem interrupt_transparent_iff (K : KernelStack) (C : IsrCode) (v : Fin 256)
    (error : Option (BitVec 32)) (handler : Activity) (s : Core)
    (hbottom : K.bottom + 68 ≤ s.esp.toNat) (htop : s.esp.toNat ≤ K.top)
    (hok : handler.Ok K C (s.enter C v error).esp.toNat (s.enter C v error))
    (hret : (handler.run C (s.enter C v error)).esp = (s.enter C v error).esp + 4#32) :
    Transparent K s (s.serve C v error handler) ↔ Fits v error := by
  have hlength := length_frameWords C v error s
  have hle := length_toList_le v error
  constructor
  · intro h
    have hesp : (s.serve C v error handler).esp = s.esp := by
      have hgeneral := h.general
      simp only [Prod.mk.injEq] at hgeneral
      exact hgeneral.2.2.2.2.2.2.2
    exact serve_esp C s (by omega) hret hesp
  · intro hfits
    obtain ⟨hesp, -, henter⟩ := enter_spec C v error (s := s) (by omega)
    have hwithin := Activity.within hok
    rw [serve_of_fits hfits (by omega) htop hok hret]
    refine ⟨rfl, rfl, rfl, (henter.mono ?_).trans (hwithin.mono ?_)⟩
    · intro x hx
      exact .inl (by omega)
    · rintro x (hx | hx)
      · exact .inl (by omega)
      · exact .inr hx

def spacedStubs : IsrCode where
  isr v := BitVec.ofNat 32 (0x10000 + 16 * v.val)
  handler := 0x20000#32
  returnTo := 0x11000#32

theorem interrupt_transparent_keyboard :
    let K : KernelStack := ⟨0x1000, 0x2000, fun x => x = 0x500, fun _ h => .inl (h ▸ by decide)⟩
    let s : Core := ⟨1#32, 2#32, 3#32, 4#32, 5#32, 6#32, 7#32, 0x1800#32, 0x10100#32, 0x202#32,
      0x08#16, 0x10#16, 0x10#16, 0x10#16, 0x10#16, fun _ => 0#8⟩
    let e := s.enter spacedStubs 33 none
    let w : Core := { e with eax := 9#32, mem := Function.update e.mem 0x500 0x1C#8 }
    let i := w.enter spacedStubs 32 none
    Transparent K s (s.serve spacedStubs 33 none
      (.work w (.interrupt 32 none (.work { i with esp := i.esp + 4#32 } .done)
        (.work { w with esp := e.esp + 4#32, mem := i.mem } .done)))) := by
  intro K s e w i
  have hwrite : Within (K.Open e.esp.toNat) e.mem w.mem := fun x hx =>
    Function.update_of_ne (fun heq : x = 0x500 => hx (.inr heq)) _ _
  refine (interrupt_transparent_iff K spacedStubs 33 none _ s (by decide) (by decide) ?_ ?_).mpr (by decide)
  · exact ⟨hwrite, by decide, ⟨by decide, by decide⟩, ⟨Within.refl _ _, trivial⟩, rfl,
      Within.refl _ _, trivial⟩
  · rfl

theorem read_enter (C : IsrCode) {v : Fin 256} {error : Option (BitVec 32)} {s : Core}
    (hfits : Fits v error) (hroom : 64 ≤ s.esp.toNat) (hend : s.esp.toNat + 8 ≤ 2 ^ 32) :
    let e := s.enter C v error
    Registers.read e.mem (load32 e.mem (e.esp.toNat + 4)).toNat = s.frame v error := by
  intro e
  have hwords := frameWords_of_fits C s hfits
  have hlength : (s.frameWords C v error).length = 16 := by rw [hwords]; rfl
  obtain ⟨hesp, hholds, hwithin⟩ := enter_spec C v error (s := s) (by omega)
  rw [hwords] at hholds
  change e.esp.toNat = _ at hesp
  have harg : (s.esp - 56#32).toNat = e.esp.toNat + 8 := by
    rw [BitVec.toNat_sub]
    have hfifty : (56#32).toNat = 56 := rfl
    omega
  have habove (a : Nat) (ha : s.esp.toNat ≤ a) : load32 e.mem a = load32 s.mem a :=
    hwithin.load32 fun k _ hx => by omega
  have hesp64 : e.esp.toNat + 64 = s.esp.toNat := by omega
  have hesp68 : e.esp.toNat + 68 = s.esp.toNat + 4 := by omega
  simp only [List.reverse_cons, List.reverse_nil, List.nil_append, List.cons_append, Holds,
    Nat.add_assoc, Nat.reduceAdd] at hholds
  obtain ⟨-, harg', hds, hdi, hsi, hbp, hsp, hbx, hdx, hcx, hax, hv, herror, hip, hcs, hflags, -⟩ :=
    hholds
  rw [harg', harg]
  simp only [Registers.read, Nat.add_assoc, Nat.reduceAdd]
  rw [hds, hdi, hsi, hbp, hsp, hbx, hdx, hcx, hax, hv, herror, hip, hcs, hflags, hesp64,
    hesp68, habove _ (Nat.le_refl _), habove _ (by omega)]
  rfl

/-- Through its argument `i686_ISR_Handler` sees the registers of the interrupted code, the vector
and the error code, under the names of isr.h. For esp and ss it reads on in the interrupted code's
own stack: without a change of the privilege level nothing is pushed for them. -/
theorem interrupt_frame (C : IsrCode) (v : Fin 256) (error : Option (BitVec 32)) (s : Core)
    (hfits : Fits v error) (hroom : 64 ≤ s.esp.toNat) (hend : s.esp.toNat + 8 ≤ 2 ^ 32) :
    let e := s.enter C v error
    Registers.read e.mem (load32 e.mem (e.esp.toNat + 4)).toNat = s.frame v error := by
  exact read_enter C hfits hroom hend

theorem interrupt_frame_page_fault :
    let s : Core := ⟨1#32, 2#32, 3#32, 4#32, 5#32, 6#32, 7#32, 0x1800#32, 0x10100#32, 0x202#32,
      0x08#16, 0x10#16, 0x10#16, 0x10#16, 0x10#16, fun _ => 0#8⟩
    let e := s.enter spacedStubs 14 (some 2#32)
    Registers.read e.mem (load32 e.mem (e.esp.toNat + 4)).toNat = s.frame 14 (some 2#32) :=
  interrupt_frame _ 14 (some 2#32) _ (by decide) (by decide) (by decide)

end SplongleOS

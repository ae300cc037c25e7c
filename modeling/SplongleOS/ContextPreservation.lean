import SplongleOS.ContextSwitch
set_option autoImplicit false

/-! Every task finds its registers again: the saved frames stay as they are until their
task is switched to. -/

namespace SplongleOS
open ByteMemory

variable {L : Layout} {m m' : Mem} {t u : TaskId} {c : TaskContext} {s : Cpu} {S : Nat → Prop}

/-- The stack of `t` as a switch leaves it, with what its return will bring back. -/
structure Frame (L : Layout) (m : Mem) (t : TaskId) (c : TaskContext) : Prop where
  bottom : L.stackBottom t ≤ (load32 m (L.tcb t)).toNat
  top : (load32 m (L.tcb t)).toNat + 20 ≤ L.stackTop t
  ebp : load32 m (load32 m (L.tcb t)).toNat = c.ebp
  edi : load32 m ((load32 m (L.tcb t)).toNat + 4) = c.edi
  esi : load32 m ((load32 m (L.tcb t)).toNat + 8) = c.esi
  ebx : load32 m ((load32 m (L.tcb t)).toNat + 12) = c.ebx
  eip : load32 m ((load32 m (L.tcb t)).toNat + 16) = c.eip
  esp : c.esp = load32 m (L.tcb t) + 20#32

theorem Frame.within (h : Frame L m t c) (hw : Within S m m') (hstack : ∀ x, L.InStack t x → ¬S x)
    (htcb : ∀ k < 4, ¬S (L.tcb t + k)) : Frame L m' t c := by
  have hesp : load32 m' (L.tcb t) = load32 m (L.tcb t) := hw.load32 htcb
  have hbottom := h.bottom
  have htop := h.top
  have hword : ∀ d ≤ 16, load32 m' ((load32 m (L.tcb t)).toNat + d) =
      load32 m ((load32 m (L.tcb t)).toNat + d) := by
    intro d hd
    refine hw.load32 fun k hk => hstack _ ?_
    constructor <;> omega
  refine ⟨?_, ?_, ?_, ?_, ?_, ?_, ?_, ?_⟩
  · rw [hesp]
    exact hbottom
  · rw [hesp]
    exact htop
  · rw [hesp]
    exact (hword 0 (by decide)).trans h.ebp
  · rw [hesp, hword 4 (by decide)]
    exact h.edi
  · rw [hesp, hword 8 (by decide)]
    exact h.esi
  · rw [hesp, hword 12 (by decide)]
    exact h.ebx
  · rw [hesp, hword 16 (by decide)]
    exact h.eip
  · rw [hesp]
    exact h.esp

/-- The pushes of `switch_to_task`. -/
def pushed (s : Cpu) : Mem :=
  store32 (store32 (store32 (store32 s.mem (s.esp.toNat - 4) s.ebx) (s.esp.toNat - 8) s.esi)
    (s.esp.toNat - 12) s.edi) (s.esp.toNat - 16) s.ebp

theorem toNat_sub_four {x : BitVec 32} (h : 4 ≤ x.toNat) : (x - 4#32).toNat = x.toNat - 4 := by
  bv_omega

theorem push_eq (h : 16 ≤ s.esp.toNat) :
    (((s.push s.ebx).push s.esi).push s.edi).push s.ebp =
      { s with esp := s.esp - 16#32, mem := pushed s } := by
  have h1 : (s.esp - 4#32).toNat = s.esp.toNat - 4 := toNat_sub_four (by omega)
  have h2 : (s.esp - 4#32 - 4#32).toNat = s.esp.toNat - 8 := by
    rw [toNat_sub_four (by omega), h1]
    omega
  have h3 : (s.esp - 4#32 - 4#32 - 4#32).toNat = s.esp.toNat - 12 := by
    rw [toNat_sub_four (by omega), h2]
    omega
  have h4 : (s.esp - 4#32 - 4#32 - 4#32 - 4#32).toNat = s.esp.toNat - 16 := by
    rw [toNat_sub_four (by omega), h3]
    omega
  have h5 : s.esp - 4#32 - 4#32 - 4#32 - 4#32 = s.esp - 16#32 := by
    apply BitVec.eq_of_toNat_eq
    rw [h4]
    bv_omega
  rw [h5] at h4
  simp only [Cpu.push, pushed, h1, h2, h3, h5, h4]

theorem pushed_within (hlo : L.stackBottom t + 16 ≤ s.esp.toNat)
    (hhi : s.esp.toNat ≤ L.stackTop t) : Within (L.InStack t) s.mem (pushed s) := by
  have hin : ∀ d, 4 ≤ d → d ≤ 16 → ∀ k < 4, L.InStack t (s.esp.toNat - d + k) := by
    intro d h4 h16 k hk
    constructor <;> omega
  have h1 := within_store32 s.mem s.ebx (hin 4 (by decide) (by decide))
  have h2 := h1.trans (within_store32 _ s.esi (hin 8 (by decide) (by decide)))
  have h3 := h2.trans (within_store32 _ s.edi (hin 12 (by decide) (by decide)))
  exact h3.trans (within_store32 _ s.ebp (hin 16 (by decide) (by decide)))

theorem pushed_words (h : 16 ≤ s.esp.toNat) :
    load32 (pushed s) (s.esp.toNat - 16) = s.ebp ∧ load32 (pushed s) (s.esp.toNat - 12) = s.edi ∧
      load32 (pushed s) (s.esp.toNat - 8) = s.esi ∧ load32 (pushed s) (s.esp.toNat - 4) = s.ebx ∧
      ∀ a, s.esp.toNat ≤ a → load32 (pushed s) a = load32 s.mem a := by
  unfold pushed
  refine ⟨load32_store32 _ _ _, ?_, ?_, ?_, fun a ha => ?_⟩
  · rw [load32_store32_apart _ _ (by omega), load32_store32]
  · rw [load32_store32_apart _ _ (by omega), load32_store32_apart _ _ (by omega), load32_store32]
  · rw [load32_store32_apart _ _ (by omega), load32_store32_apart _ _ (by omega),
      load32_store32_apart _ _ (by omega), load32_store32]
  · rw [load32_store32_apart _ _ (by omega), load32_store32_apart _ _ (by omega),
      load32_store32_apart _ _ (by omega), load32_store32_apart _ _ (by omega)]

def Layout.Leaving (L : Layout) (t : TaskId) (x : Nat) : Prop :=
  L.InStack t x ∨ (L.tcb t ≤ x ∧ x < L.tcb t + 4)

theorem saveTask_eq (h : 16 ≤ s.esp.toNat)
    (hptr : load32 (pushed s) (L.addr .currentTaskTcb) = L.tcbPtr t) :
    s.saveTask L = { s with
      edi := L.tcbPtr t
      esp := s.esp - 16#32
      mem := store32 (pushed s) (L.tcb t) (s.esp - 16#32) } := by
  unfold Cpu.saveTask
  rw [push_eq h]
  simp only [hptr, Layout.tcbPtr_toNat]

theorem store_tcb_stack (L : Layout) (m : Mem) (t u : TaskId) (v : BitVec 32) {a : Nat}
    (hlo : L.stackBottom u ≤ a) (hhi : a + 4 ≤ L.stackTop u) :
    load32 (store32 m (L.tcb t) v) a = load32 m a := by
  have htasks := L.stack_apart u (o := .tasks) (by decide) (by decide)
  have hle := L.tcb_le t
  have hsize : KernelObject.tasks.size L.bootStackSize = 448 := rfl
  exact load32_store32_apart _ _ (by omega)

theorem saveTask_frame (hlo : L.stackBottom t + 16 ≤ s.esp.toNat) (hhi : s.esp.toNat + 8 ≤ L.stackTop t) :
    Frame L (store32 (pushed s) (L.tcb t) (s.esp - 16#32)) t s.calling := by
  have hesp : (s.esp - 16#32).toNat = s.esp.toNat - 16 := by bv_omega
  have htop := L.stackTop_le t
  have hapart : ∀ a, L.stackBottom t ≤ a → a + 4 ≤ L.stackTop t →
      load32 (store32 (pushed s) (L.tcb t) (s.esp - 16#32)) a = load32 (pushed s) a :=
    fun a ha ha' => store_tcb_stack L _ t t _ ha ha'
  obtain ⟨hebp, hedi, hesi, hebx, habove⟩ := pushed_words (s := s) (by omega)
  have hat : load32 (store32 (pushed s) (L.tcb t) (s.esp - 16#32)) (L.tcb t) = s.esp - 16#32 :=
    load32_store32 _ _ _
  refine ⟨?_, ?_, ?_, ?_, ?_, ?_, ?_, ?_⟩
  · rw [hat, hesp]
    omega
  · rw [hat, hesp]
    omega
  · rw [hat, hesp, hapart _ (by omega) (by omega)]
    exact hebp
  · rw [hat, hesp, hapart _ (by omega) (by omega)]
    refine Eq.trans ?_ hedi
    congr 1
    omega
  · rw [hat, hesp, hapart _ (by omega) (by omega)]
    refine Eq.trans ?_ hesi
    congr 1
    omega
  · rw [hat, hesp, hapart _ (by omega) (by omega)]
    refine Eq.trans ?_ hebx
    congr 1
    omega
  · have hret : s.esp.toNat - 16 + 16 = s.esp.toNat := by omega
    rw [hat, hesp, hret, hapart _ (by omega) (by omega)]
    exact habove _ (Nat.le_refl _)
  · rw [hat]
    show s.esp + 4#32 = s.esp - 16#32 + 20#32
    bv_omega

/-- `g_last_ready` is NULL or a TCB. -/
def TailAt (L : Layout) (m : Mem) : Prop :=
  load32 m (L.addr .lastReady) = 0#32 ∨ ∃ u, load32 m (L.addr .lastReady) = L.tcbPtr u

theorem Layout.listing_tcb (L : Layout) (t : TaskId) {k : Nat} (hlo : 12 ≤ k) (hhi : k < 17) :
    L.Listing (L.tcb t + k) := Or.inl ⟨t, by omega, by omega⟩

theorem Layout.listing_first (L : Layout) {k : Nat} (hk : k < 4) : L.Listing (L.addr .firstReady + k) :=
  Or.inr (Or.inl ⟨by omega, by omega⟩)

theorem Layout.listing_last (L : Layout) {k : Nat} (hk : k < 4) : L.Listing (L.addr .lastReady + k) :=
  Or.inr (Or.inr ⟨by omega, by omega⟩)

theorem linkPrevious_spec (htail : TailAt L s.mem) :
    (s.linkPrevious L).edi = s.edi ∧ (s.linkPrevious L).esp = s.esp ∧
      (s.linkPrevious L).cr3 = s.cr3 ∧ Within L.Listing s.mem (s.linkPrevious L).mem ∧
      load32 (s.linkPrevious L).mem (L.addr .lastReady) = s.edi := by
  have hlast : ∀ m : Mem, Within L.Listing m (store32 m (L.addr .lastReady) s.edi) :=
    fun m => within_store32 _ _ fun k hk => L.listing_last hk
  unfold Cpu.linkPrevious
  dsimp only
  split
  · refine ⟨rfl, rfl, rfl, Within.trans ?_ (hlast _), load32_store32 _ _ _⟩
    exact within_store32 _ _ fun k hk => L.listing_first hk
  · rename_i hsome
    obtain ⟨u, hu⟩ := htail.resolve_left hsome
    have haddr : (L.tcbPtr u + 12#32).toNat = L.tcb u + 12 := L.tcbPtr_add u (by decide)
    refine ⟨rfl, rfl, rfl, Within.trans ?_ (hlast _), load32_store32 _ _ _⟩
    rw [hu, haddr]
    refine within_store32 _ _ fun k hk => ?_
    rw [Nat.add_assoc]
    exact L.listing_tcb u (by omega) (by omega)

theorem putBackTask_spec (hedi : s.edi = L.tcbPtr t) (htail : TailAt L s.mem) :
    (s.putBackTask L).esp = s.esp ∧ (s.putBackTask L).cr3 = s.cr3 ∧
      Within L.Listing s.mem (s.putBackTask L).mem ∧ TailAt L (s.putBackTask L).mem := by
  have hstate : (s.edi + 16#32).toNat = L.tcb t + 16 := by
    rw [hedi]
    exact L.tcbPtr_add t (by decide)
  have hnext : (s.edi + 12#32).toNat = L.tcb t + 12 := by
    rw [hedi]
    exact L.tcbPtr_add t (by decide)
  have hle := L.tcb_le t
  have hlast := L.disjoint .tasks .lastReady (by decide)
  have hsize : KernelObject.tasks.size L.bootStackSize = 448 := rfl
  have hsize' : KernelObject.lastReady.size L.bootStackSize = 4 := rfl
  unfold Cpu.putBackTask
  dsimp only
  split
  · exact ⟨rfl, rfl, Within.refl _ _, htail⟩
  · let r : Cpu := { s with
      eax := s.eax &&& 0xFFFFFF00#32 ||| (s.mem (s.edi + 16#32).toNat).setWidth 32
      mem := store8 s.mem (s.edi + 16#32).toNat 1#8 }
    have hready : Within L.Listing s.mem r.mem := by
      refine within_store8 _ _ ?_
      rw [hstate]
      exact L.listing_tcb t (by decide) (by decide)
    have hlast1 : load32 r.mem (L.addr .lastReady) = load32 s.mem (L.addr .lastReady) := by
      refine load32_store8_apart _ _ ?_
      rw [hstate]
      omega
    have htail1 : TailAt L r.mem := by
      unfold TailAt
      rw [hlast1]
      exact htail
    obtain ⟨hedi', hesp, hcr3, hwithin, hat⟩ := linkPrevious_spec (s := r) htail1
    have hnext' : ((r.linkPrevious L).edi + 12#32).toNat = L.tcb t + 12 := by
      rw [hedi']
      exact hnext
    refine ⟨hesp, hcr3, (hready.trans hwithin).trans (within_store32 _ _ fun k hk => ?_), Or.inr ⟨t, ?_⟩⟩
    · rw [hnext', Nat.add_assoc]
      exact L.listing_tcb t (by omega) (by omega)
    · refine (load32_store32_apart _ _ ?_).trans (hat.trans hedi)
      rw [hnext']
      omega

def entered (L : Layout) (m : Mem) (u : TaskId) : Mem :=
  store8 (store32 m (L.addr .currentTaskTcb) (L.tcbPtr u)) (L.tcb u + 16) 0#8

theorem loadTask_eq (hparam : load32 s.mem (s.esp + 20#32).toNat = L.tcbPtr u) :
    s.loadTask L = { s with
      esi := L.tcbPtr u
      esp := load32 (entered L s.mem u) (L.tcb u)
      eax := load32 (entered L s.mem u) (L.tcb u + 8)
      ebx := load32 (entered L s.mem u) (L.tcb u + 4)
      ecx := s.cr3
      cr3 := load32 (entered L s.mem u) (L.tcb u + 8)
      mem := store32 (entered L s.mem u) (L.addr .tss + 4)
        (load32 (entered L s.mem u) (L.tcb u + 4)) } := by
  have hstate : (L.tcbPtr u + 16#32).toNat = L.tcb u + 16 := L.tcbPtr_add u (by decide)
  have hcr3 : (L.tcbPtr u + 8#32).toNat = L.tcb u + 8 := L.tcbPtr_add u (by decide)
  have hesp0 : (L.tcbPtr u + 4#32).toNat = L.tcb u + 4 := L.tcbPtr_add u (by decide)
  unfold Cpu.loadTask
  simp only [hparam, hstate, hcr3, hesp0, L.tcbPtr_toNat]
  split
  · rename_i hsame
    have hsame' : load32 (entered L s.mem u) (L.tcb u + 8) = s.cr3 := hsame
    rw [hsame']
    simp only [entered] at hsame' ⊢
    rw [hsame']
  · rfl

theorem entered_within (L : Layout) (m : Mem) (u : TaskId) : Within L.Switching m (entered L m u) := by
  refine Within.trans (within_store32 m _ fun k hk => ?_) (within_store8 _ _ ?_)
  · exact Or.inr (Or.inl ⟨by omega, by omega⟩)
  · exact Or.inl (L.listing_tcb u (by decide) (by decide))

theorem tcb_word_kept (hw : Within L.Switching m m') (t : TaskId) {d : Nat} (hd : d ≤ 8) :
    load32 m' (L.tcb t + d) = load32 m (L.tcb t + d) := by
  refine hw.load32 fun k hk => ?_
  rw [Nat.add_assoc]
  exact L.tcb_switching t (by omega)

theorem loadTask_spec (hparam : load32 s.mem (s.esp + 20#32).toNat = L.tcbPtr u) :
    (s.loadTask L).esp = load32 s.mem (L.tcb u) ∧ Within L.Switching s.mem (s.loadTask L).mem ∧
      load32 (s.loadTask L).mem (L.addr .currentTaskTcb) = L.tcbPtr u ∧
      load32 (s.loadTask L).mem (L.addr .lastReady) = load32 s.mem (L.addr .lastReady) ∧
      load32 (s.loadTask L).mem (L.addr .tss + 4) = load32 s.mem (L.tcb u + 4) ∧
      (s.loadTask L).cr3 = load32 s.mem (L.tcb u + 8) := by
  have hw := entered_within L s.mem u
  have htss : ∀ v, Within L.Switching (entered L s.mem u) (store32 (entered L s.mem u) (L.addr .tss + 4) v) :=
    fun v => within_store32 _ _ fun k hk => Or.inr (Or.inr ⟨by omega, by omega⟩)
  have hapart := L.disjoint .tasks .currentTaskTcb (by decide)
  have hapart' := L.disjoint .currentTaskTcb .tss (by decide)
  have hlast := L.disjoint .tasks .lastReady (by decide)
  have hlast' := L.disjoint .lastReady .tss (by decide)
  have hlast'' := L.disjoint .lastReady .currentTaskTcb (by decide)
  have hsizel : KernelObject.lastReady.size L.bootStackSize = 4 := rfl
  have hle := L.tcb_le u
  have hsize : KernelObject.tasks.size L.bootStackSize = 448 := rfl
  have hsize' : KernelObject.currentTaskTcb.size L.bootStackSize = 4 := rfl
  have hsize'' : KernelObject.tss.size L.bootStackSize = 104 := rfl
  rw [loadTask_eq hparam]
  refine ⟨tcb_word_kept hw u (d := 0) (by decide), hw.trans (htss _), ?_, ?_, ?_,
    tcb_word_kept hw u (by decide)⟩
  · refine (load32_store32_apart _ _ (by omega)).trans ?_
    exact (load32_store8_apart _ _ (by omega)).trans (load32_store32 _ _ _)
  · refine (load32_store32_apart _ _ (by omega)).trans ?_
    exact (load32_store8_apart _ _ (by omega)).trans (load32_store32_apart _ _ (by omega))
  · exact (load32_store32 _ _ _).trans (tcb_word_kept hw u (by decide))

theorem resumeTask_spec (hframe : Frame L s.mem u c) (hesp : s.esp = load32 s.mem (L.tcb u)) :
    s.resumeTask.context = c ∧ s.resumeTask.cr3 = s.cr3 ∧ s.resumeTask.mem = s.mem := by
  have htop := L.stackTop_le u
  have hroom := hframe.top
  rw [← hesp] at hroom
  have h1 : (s.esp + 4#32).toNat = s.esp.toNat + 4 := by bv_omega
  have h2 : (s.esp + 4#32 + 4#32).toNat = s.esp.toNat + 8 := by bv_omega
  have h3 : (s.esp + 4#32 + 4#32 + 4#32).toNat = s.esp.toNat + 12 := by bv_omega
  have h4 : (s.esp + 4#32 + 4#32 + 4#32 + 4#32).toNat = s.esp.toNat + 16 := by bv_omega
  have h5 : s.esp + 4#32 + 4#32 + 4#32 + 4#32 + 4#32 = s.esp + 20#32 := by
    rw [BitVec.add_assoc, BitVec.add_assoc, BitVec.add_assoc, BitVec.add_assoc]
    rfl
  refine ⟨?_, rfl, rfl⟩
  simp only [Cpu.resumeTask, Cpu.context, Cpu.top, h1, h2, h3, h4, h5]
  have hebp := hframe.ebp
  have hedi := hframe.edi
  have hesi := hframe.esi
  have hebx := hframe.ebx
  have heip := hframe.eip
  have hesp' := hframe.esp
  rw [← hesp] at hebp hedi hesi hebx heip hesp'
  rw [hebp, hedi, hesi, hebx, heip, ← hesp']

def Tasking.start (L : Layout) (s : Tasking) (t : TaskId) : TaskContext :=
  ⟨0#32, 0#32, 0#32, 0#32, BitVec.ofNat 32 (L.stackTop t), s.entry t⟩

/-- What a switch to `t` is to bring back. -/
def Tasking.expected (L : Layout) (s : Tasking) (t : TaskId) : TaskContext :=
  (s.saved t).getD (s.start L t)

structure Intact (L : Layout) (s : Tasking) : Prop where
  zeroUsed : s.used 0 = true
  currentUsed : s.used s.current = true
  pointer : load32 s.cpu.mem (L.addr .currentTaskTcb) = L.tcbPtr s.current
  tail : TailAt L s.cpu.mem
  frames : ∀ t, s.used t = true → t ≠ s.current → Frame L s.cpu.mem t (s.expected L t)

theorem TailAt.of_eq (h : TailAt L m)
    (heq : load32 m' (L.addr .lastReady) = load32 m (L.addr .lastReady)) : TailAt L m' := by
  unfold TailAt
  rw [heq]
  exact h

theorem Layout.inStack_other (L : Layout) {x : Nat} (h : t ≠ u) (hx : L.InStack t x) : ¬L.InStack u x := by
  have hsep := L.stack_stack h
  unfold Layout.InStack at hx ⊢
  omega

theorem Layout.tcb_not_stack (L : Layout) (t u : TaskId) {k : Nat} (hk : k < 28) :
    ¬L.InStack u (L.tcb t + k) := by
  have hsep := L.stack_apart u (o := .tasks) (by decide) (by decide)
  have hsize : KernelObject.tasks.size L.bootStackSize = 448 := rfl
  have hle := L.tcb_le t
  unfold Layout.InStack
  omega

theorem Intact.work {s : Tasking} {cpu : Cpu} (h : Intact L s)
    (hw : Within (L.InStack s.current) s.cpu.mem cpu.mem) : Intact L { s with cpu := cpu } := by
  have hcell : ∀ x, L.Switching x → ¬L.InStack s.current x := fun x hx hin => L.stack_switching hin hx
  refine ⟨h.zeroUsed, h.currentUsed, ?_, ?_, fun t hused hne => ?_⟩
  · refine (hw.load32 fun k hk => hcell _ ?_).trans h.pointer
    exact Or.inr (Or.inl ⟨by omega, by omega⟩)
  · exact h.tail.of_eq (hw.load32 fun k hk => hcell _ (Or.inl (L.listing_last hk)))
  · exact (h.frames t hused hne).within hw (fun x hx => L.inStack_other hne hx)
      fun k hk => L.tcb_not_stack t s.current (by omega)

theorem Layout.switching_leaving (L : Layout) (t : TaskId) {a : Nat}
    (ha : ∀ k < 4, L.Listing (a + k) ∨
      (L.addr .currentTaskTcb ≤ a + k ∧ a + k < L.addr .currentTaskTcb + 4)) :
    ∀ k < 4, ¬L.Leaving t (a + k) := by
  intro k hk hleave
  have hswitch : L.Switching (a + k) := by
    rcases ha k hk with h | h
    · exact Or.inl h
    · exact Or.inr (Or.inl h)
  rcases hleave with hin | ⟨hlo, hhi⟩
  · exact L.stack_switching hin hswitch
  · have hoff : L.tcb t + (a + k - L.tcb t) = a + k := by omega
    rw [← hoff] at hswitch
    exact L.tcb_switching t (by omega) hswitch

/-- What a switch to `u` finds and leaves, register by register. -/
structure Switched (L : Layout) (s : Tasking) (u : TaskId) (cpu : Cpu) : Prop where
  context : cpu.context = s.expected L u
  cr3 : cpu.cr3 = load32 cpu.mem (L.tcb u + 8)
  esp0 : load32 cpu.mem (L.addr .tss + 4) = load32 cpu.mem (L.tcb u + 4)
  pointer : load32 cpu.mem (L.addr .currentTaskTcb) = L.tcbPtr u
  tail : TailAt L cpu.mem
  own : Frame L cpu.mem s.current s.cpu.calling
  others : ∀ t, s.used t = true → t ≠ s.current → Frame L cpu.mem t (s.expected L t)

/-- The previous task with its registers on its stack: only its stack and its esp field
have been written. -/
structure Saved (L : Layout) (s : Tasking) : Prop where
  cpu : s.cpu.saveTask L = { s.cpu with
    edi := L.tcbPtr s.current
    esp := s.cpu.esp - 16#32
    mem := store32 (pushed s.cpu) (L.tcb s.current) (s.cpu.esp - 16#32) }
  leaving : Within (L.Leaving s.current) s.cpu.mem (s.cpu.saveTask L).mem
  tail : TailAt L (s.cpu.saveTask L).mem
  own : Frame L (s.cpu.saveTask L).mem s.current s.cpu.calling

theorem Intact.saved {s : Tasking} (h : Intact L s)
    (hlo : L.stackBottom s.current + 16 ≤ s.cpu.esp.toNat)
    (hhi : s.cpu.esp.toNat + 8 ≤ L.stackTop s.current) : Saved L s := by
  have hroom : 16 ≤ s.cpu.esp.toNat := by omega
  have hpushed := pushed_within (L := L) (t := s.current) hlo (by omega)
  have hptr : load32 (pushed s.cpu) (L.addr .currentTaskTcb) = L.tcbPtr s.current := by
    refine (hpushed.load32 fun k hk hin => ?_).trans h.pointer
    exact L.stack_switching hin (Or.inr (Or.inl ⟨by omega, by omega⟩))
  have hsave := saveTask_eq (L := L) hroom hptr
  have hleave : Within (L.Leaving s.current) s.cpu.mem (s.cpu.saveTask L).mem := by
    rw [hsave]
    refine (hpushed.mono fun x hx => Or.inl hx).trans (within_store32 _ _ fun k hk => Or.inr ?_)
    constructor <;> omega
  refine ⟨hsave, hleave, ?_, ?_⟩
  · exact h.tail.of_eq (hleave.load32 (L.switching_leaving _ fun k hk => Or.inl (L.listing_last hk)))
  · rw [hsave]
    exact saveTask_frame hlo hhi

theorem Intact.frame_saved {s : Tasking} (h : Intact L s) (hsaved : Saved L s)
    (hused : s.used t = true) (hne : t ≠ s.current) :
    Frame L (s.cpu.saveTask L).mem t (s.expected L t) := by
  refine (h.frames t hused hne).within hsaved.leaving (fun x hx hin => ?_) fun k hk hin => ?_
  · rcases hin with hin | ⟨hlo, hhi⟩
    · exact L.inStack_other hne hx hin
    · have hoff : L.tcb s.current + (x - L.tcb s.current) = x := by omega
      exact L.tcb_not_stack s.current t (by omega) (hoff.symm ▸ hx)
  · rcases hin with hin | ⟨hlo, hhi⟩
    · exact L.tcb_not_stack t s.current (by omega) hin
    · have hval : t.val ≠ s.current.val := fun heq => hne (Fin.ext heq)
      unfold Layout.tcb at hlo hhi
      omega

theorem Saved.parameter {s : Tasking} {m : Mem} (h : Saved L s)
    (hlo : L.stackBottom s.current + 16 ≤ s.cpu.esp.toNat)
    (hhi : s.cpu.esp.toNat + 8 ≤ L.stackTop s.current)
    (hparam : load32 s.cpu.mem (s.cpu.esp + 4#32).toNat = L.tcbPtr u)
    (hlist : Within L.Switching (s.cpu.saveTask L).mem m) :
    load32 m ((s.cpu.saveTask L).esp + 20#32).toNat = L.tcbPtr u := by
  have htop := L.stackTop_le s.current
  have hroom : 16 ≤ s.cpu.esp.toNat := by omega
  have hat : ((s.cpu.saveTask L).esp + 20#32).toNat = s.cpu.esp.toNat + 4 := by
    rw [h.cpu]
    show (s.cpu.esp - 16#32 + 20#32).toNat = s.cpu.esp.toNat + 4
    bv_omega
  have hin : ∀ k < 4, L.InStack s.current (s.cpu.esp.toNat + 4 + k) := by
    intro k hk
    constructor <;> omega
  have hfour : (s.cpu.esp + 4#32).toNat = s.cpu.esp.toNat + 4 := by bv_omega
  rw [hat, hlist.load32 fun k hk => L.stack_switching (hin k hk), h.cpu, ← hparam, hfour]
  exact (store_tcb_stack L _ _ s.current _ (by omega) (by omega)).trans
    ((pushed_words hroom).2.2.2.2 _ (by omega))

theorem Intact.switched {s : Tasking} (h : Intact L s) (hok : s.Allowed L (.switchToTask u)) :
    Switched L s u (s.cpu.switchToTask L) := by
  obtain ⟨hused, hne, hcounter, hlo, hhi, hparam⟩ := hok
  have hsaved := h.saved hlo hhi
  -- the ready list
  have hedi : (s.cpu.saveTask L).edi = L.tcbPtr s.current := by rw [hsaved.cpu]
  obtain ⟨hesp, _, hlist, htail⟩ := putBackTask_spec (t := s.current) hedi hsaved.tail
  have hlist' : Within L.Switching (s.cpu.saveTask L).mem ((s.cpu.saveTask L).putBackTask L).mem :=
    hlist.mono fun x hx => Or.inl hx
  -- the next task
  have hparam' := hsaved.parameter hlo hhi hparam hlist'
  rw [← hesp] at hparam'
  obtain ⟨hesp', hload, hpointer, hlast, htss, hcr3⟩ := loadTask_spec hparam'
  have hrest := hlist'.trans hload
  have hkept : ∀ {t : TaskId} {c : TaskContext}, Frame L (s.cpu.saveTask L).mem t c →
      Frame L (((s.cpu.saveTask L).putBackTask L).loadTask L).mem t c := by
    intro t c hframe
    exact hframe.within hrest (fun x hx => L.stack_switching hx) fun k hk => L.tcb_switching t (by omega)
  -- the pops
  have hesp'' : (((s.cpu.saveTask L).putBackTask L).loadTask L).esp =
      load32 (((s.cpu.saveTask L).putBackTask L).loadTask L).mem (L.tcb u) :=
    hesp'.trans (tcb_word_kept hload u (d := 0) (by decide)).symm
  obtain ⟨hcontext, hcr3', hmem⟩ := resumeTask_spec (hkept (h.frame_saved hsaved hused hne)) hesp''
  have hrun : s.cpu.switchToTask L =
      (((s.cpu.saveTask L).putBackTask L).loadTask L).resumeTask := if_pos hcounter
  rw [hrun]
  refine ⟨hcontext, ?_, ?_, ?_, ?_, ?_, ?_⟩
  · rw [hcr3', hmem, hcr3]
    exact (tcb_word_kept hload u (by decide)).symm
  · rw [hmem, htss]
    exact (tcb_word_kept hload u (by decide)).symm
  · rw [hmem]
    exact hpointer
  · rw [hmem]
    exact htail.of_eq hlast
  · rw [hmem]
    exact hkept hsaved.own
  · rw [hmem]
    exact fun t hused hne => hkept (h.frame_saved hsaved hused hne)

theorem Intact.switch {s : Tasking} (h : Intact L s) (hok : s.Allowed L (.switchToTask u)) :
    Intact L { s with
      cpu := s.cpu.switchToTask L
      current := u
      saved := Function.update s.saved s.current (some s.cpu.calling) } := by
  have hswitched := h.switched hok
  refine ⟨h.zeroUsed, hok.1, hswitched.pointer, hswitched.tail, fun t hused _ => ?_⟩
  show Frame L (s.cpu.switchToTask L).mem t
    ((Function.update s.saved s.current (some s.cpu.calling) t).getD (s.start L t))
  by_cases ht : t = s.current
  · rw [ht, Function.update_self]
    exact hswitched.own
  · rw [Function.update_of_ne ht]
    exact hswitched.others t hused ht

def builtStack (L : Layout) (m : Mem) (t : TaskId) (entrypoint : BitVec 32) : Mem :=
  store32 (store32 (store32 (store32 (store32 (fill m (L.tcb t) 28 0#8) (L.stackTop t - 4) entrypoint)
    (L.stackTop t - 8) 0#32) (L.stackTop t - 12) 0#32) (L.stackTop t - 16) 0#32) (L.stackTop t - 20) 0#32

theorem stackTop_eq (L : Layout) (ht : t ≠ 0) :
    L.stackTop t = L.addr .kernelStacks + 4096 * t.val + 4096 ∧ L.stackBottom t + 4096 = L.stackTop t := by
  unfold Layout.stackTop Layout.stackBottom
  rw [if_neg ht, if_neg ht]
  exact ⟨rfl, rfl⟩

theorem builtStack_words (L : Layout) (m : Mem) (ht : t ≠ 0) (e : BitVec 32) :
    load32 (builtStack L m t e) (L.stackTop t - 20) = 0#32 ∧
      load32 (builtStack L m t e) (L.stackTop t - 16) = 0#32 ∧
      load32 (builtStack L m t e) (L.stackTop t - 12) = 0#32 ∧
      load32 (builtStack L m t e) (L.stackTop t - 8) = 0#32 ∧
      load32 (builtStack L m t e) (L.stackTop t - 4) = e := by
  have hsize := (stackTop_eq L ht).2
  unfold builtStack
  refine ⟨load32_store32 _ _ _, ?_, ?_, ?_, ?_⟩
  · rw [load32_store32_apart _ _ (by omega), load32_store32]
  · rw [load32_store32_apart _ _ (by omega), load32_store32_apart _ _ (by omega), load32_store32]
  · rw [load32_store32_apart _ _ (by omega), load32_store32_apart _ _ (by omega),
      load32_store32_apart _ _ (by omega), load32_store32]
  · rw [load32_store32_apart _ _ (by omega), load32_store32_apart _ _ (by omega),
      load32_store32_apart _ _ (by omega), load32_store32_apart _ _ (by omega), load32_store32]

def Layout.InTcb (L : Layout) (t : TaskId) (x : Nat) : Prop := L.tcb t ≤ x ∧ x < L.tcb t + 28

def Layout.Building (L : Layout) (t : TaskId) (x : Nat) : Prop := L.InStack t x ∨ L.InTcb t x

theorem builtStack_within (L : Layout) (m : Mem) (ht : t ≠ 0) (e : BitVec 32) :
    Within (L.Building t) m (builtStack L m t e) := by
  have hsize := (stackTop_eq L ht).2
  have hin : ∀ d, 4 ≤ d → d ≤ 20 → ∀ k < 4, L.Building t (L.stackTop t - d + k) := by
    intro d h4 h20 k hk
    exact Or.inl ⟨by omega, by omega⟩
  have h0 : Within (L.Building t) m (fill m (L.tcb t) 28 0#8) :=
    within_fill m _ fun x hlo hhi => Or.inr ⟨hlo, hhi⟩
  have h1 := h0.trans (within_store32 _ e (hin 4 (by decide) (by decide)))
  have h2 := h1.trans (within_store32 _ 0#32 (hin 8 (by decide) (by decide)))
  have h3 := h2.trans (within_store32 _ 0#32 (hin 12 (by decide) (by decide)))
  have h4 := h3.trans (within_store32 _ 0#32 (hin 16 (by decide) (by decide)))
  exact h4.trans (within_store32 _ 0#32 (hin 20 (by decide) (by decide)))

theorem buildTask_eq (L : Layout) (m : Mem) (ht : t ≠ 0) (e cr3 id : BitVec 32) :
    buildTask L m t e cr3 id =
      store32 (store8 (store32 (store32 (store32 (store32 (store32 (builtStack L m t e) (L.tcb t)
        (BitVec.ofNat 32 (L.stackTop t - 20))) (L.tcb t + 8) cr3) (L.tcb t + 4)
        (BitVec.ofNat 32 (L.stackTop t))) (L.tcb t + 20) id) (L.tcb t + 24) e) (L.tcb t + 16) 1#8)
        (L.tcb t + 12) 0#32 := by
  unfold buildTask builtStack
  rw [(stackTop_eq L ht).1]

theorem buildTask_spec (L : Layout) (m : Mem) (ht : t ≠ 0) (e cr3 id : BitVec 32) :
    Within (L.InTcb t) (builtStack L m t e) (buildTask L m t e cr3 id) ∧
      load32 (buildTask L m t e cr3 id) (L.tcb t) = BitVec.ofNat 32 (L.stackTop t - 20) := by
  have hin : ∀ d ≤ 24, ∀ k < 4, L.InTcb t (L.tcb t + d + k) := by
    intro d hd k hk
    constructor <;> omega
  rw [buildTask_eq L m ht]
  refine ⟨?_, ?_⟩
  · have h0 := within_store32 (builtStack L m t e) (BitVec.ofNat 32 (L.stackTop t - 20))
      (S := L.InTcb t) (hin 0 (by decide))
    have h1 := h0.trans (within_store32 _ cr3 (hin 8 (by decide)))
    have h2 := h1.trans (within_store32 _ (BitVec.ofNat 32 (L.stackTop t)) (hin 4 (by decide)))
    have h3 := h2.trans (within_store32 _ id (hin 20 (by decide)))
    have h4 := h3.trans (within_store32 _ e (hin 24 (by decide)))
    have hstate : L.InTcb t (L.tcb t + 16) := ⟨by omega, by omega⟩
    have h5 := h4.trans (within_store8 _ 1#8 hstate)
    exact h5.trans (within_store32 _ 0#32 (hin 12 (by decide)))
  · rw [load32_store32_apart _ _ (by omega), load32_store8_apart _ _ (by omega),
      load32_store32_apart _ _ (by omega), load32_store32_apart _ _ (by omega),
      load32_store32_apart _ _ (by omega), load32_store32_apart _ _ (by omega), load32_store32]

theorem buildTask_frame (L : Layout) (m : Mem) (ht : t ≠ 0) (e cr3 id : BitVec 32) :
    Frame L (buildTask L m t e cr3 id) t
      ⟨0#32, 0#32, 0#32, 0#32, BitVec.ofNat 32 (L.stackTop t), e⟩ := by
  obtain ⟨hwithin, hesp⟩ := buildTask_spec L m ht e cr3 id
  obtain ⟨hebp, hedi, hesi, hebx, heip⟩ := builtStack_words L m ht e
  have hsize := (stackTop_eq L ht).2
  have htop := L.stackTop_le t
  have hat : (BitVec.ofNat 32 (L.stackTop t - 20)).toNat = L.stackTop t - 20 := by
    rw [BitVec.toNat_ofNat]
    omega
  have hword : ∀ d, 4 ≤ d → d ≤ 20 → load32 (buildTask L m t e cr3 id) (L.stackTop t - d) =
      load32 (builtStack L m t e) (L.stackTop t - d) := by
    intro d h4 h20
    refine hwithin.load32 fun k hk hin => ?_
    unfold Layout.InTcb at hin
    have hoff : L.tcb t + (L.stackTop t - d + k - L.tcb t) = L.stackTop t - d + k := by omega
    refine L.tcb_not_stack t t (k := L.stackTop t - d + k - L.tcb t) (by omega) ?_
    rw [hoff]
    constructor <;> omega
  refine ⟨?_, ?_, ?_, ?_, ?_, ?_, ?_, ?_⟩
  · rw [hesp, hat]
    omega
  · rw [hesp, hat]
    omega
  · rw [hesp, hat, hword 20 (by decide) (by decide)]
    exact hebp
  · have hoff : L.stackTop t - 20 + 4 = L.stackTop t - 16 := by omega
    rw [hesp, hat, hoff, hword 16 (by decide) (by decide)]
    exact hedi
  · have hoff : L.stackTop t - 20 + 8 = L.stackTop t - 12 := by omega
    rw [hesp, hat, hoff, hword 12 (by decide) (by decide)]
    exact hesi
  · have hoff : L.stackTop t - 20 + 12 = L.stackTop t - 8 := by omega
    rw [hesp, hat, hoff, hword 8 (by decide) (by decide)]
    exact hebx
  · have hoff : L.stackTop t - 20 + 16 = L.stackTop t - 4 := by omega
    rw [hesp, hat, hoff, hword 4 (by decide) (by decide)]
    exact heip
  · rw [hesp]
    apply BitVec.eq_of_toNat_eq
    rw [BitVec.toNat_add, hat, BitVec.toNat_ofNat, BitVec.toNat_ofNat]
    omega

theorem appendReady_spec (m : Mem) (htail : TailAt L m) (t : TaskId) :
    Within L.Listing m (appendReady L m (L.tcbPtr t)) ∧ TailAt L (appendReady L m (L.tcbPtr t)) := by
  have hfirst := L.disjoint .firstReady .lastReady (by decide)
  have hsize : KernelObject.firstReady.size L.bootStackSize = 4 := rfl
  have hsize' : KernelObject.lastReady.size L.bootStackSize = 4 := rfl
  have hlast : ∀ m' : Mem, Within L.Listing m' (store32 m' (L.addr .lastReady) (L.tcbPtr t)) :=
    fun m' => within_store32 _ _ fun k hk => L.listing_last hk
  unfold appendReady
  dsimp only
  split
  · refine ⟨(hlast m).trans (within_store32 _ _ fun k hk => L.listing_first hk), Or.inr ⟨t, ?_⟩⟩
    rw [load32_store32_apart _ _ (by omega), load32_store32]
  · rename_i hsome
    obtain ⟨u, hu⟩ := htail.resolve_left hsome
    have haddr : (L.tcbPtr u + 12#32).toNat = L.tcb u + 12 := L.tcbPtr_add u (by decide)
    refine ⟨Within.trans ?_ (hlast _), Or.inr ⟨t, load32_store32 _ _ _⟩⟩
    rw [hu, haddr]
    refine within_store32 _ _ fun k hk => ?_
    rw [Nat.add_assoc]
    exact L.listing_tcb u (by omega) (by omega)

theorem Layout.switching_building (L : Layout) (t : TaskId) {o : KernelObject} {k : Nat}
    (hboot : o ≠ .bootStack) (hkernel : o ≠ .kernelStacks) (htasks : o ≠ .tasks)
    (hk : k < o.size L.bootStackSize) : ¬L.Building t (L.addr o + k) := by
  have hstack := L.stack_apart t hboot hkernel
  have hapart := L.disjoint .tasks o htasks.symm
  have hsize : KernelObject.tasks.size L.bootStackSize = 448 := rfl
  have hle := L.tcb_le t
  rintro (⟨hlo, hhi⟩ | ⟨hlo, hhi⟩)
  · omega
  · omega

theorem Layout.current_listing (L : Layout) {k : Nat} (hk : k < 4) :
    ¬L.Listing (L.addr .currentTaskTcb + k) := by
  have htasks := L.disjoint .tasks .currentTaskTcb (by decide)
  have hfirst := L.disjoint .firstReady .currentTaskTcb (by decide)
  have hlast := L.disjoint .lastReady .currentTaskTcb (by decide)
  simp only [KernelObject.size] at htasks hfirst hlast
  rintro (⟨u, hu⟩ | h | h)
  · have hle := L.tcb_le u
    omega
  · omega
  · omega

theorem Intact.addTask {s : Tasking} (h : Intact L s) (hfree : s.used t = false) (e : BitVec 32) :
    Intact L (s.addTask L t e) := by
  have ht : t ≠ 0 := fun heq => by simp [heq, h.zeroUsed] at hfree
  have hc : s.current ≠ t := fun heq => by simp [← heq, h.currentUsed] at hfree
  have hkeep : ∀ b, s.used b = true → Function.update s.used t true b = true := by
    intro b hb
    by_cases hbt : b = t
    · rw [hbt, Function.update_self]
    · rwa [Function.update_of_ne hbt]
  let m := buildTask L s.cpu.mem t e s.cpu.cr3 s.nextTaskId
  have hbuild : Within (L.Building t) s.cpu.mem m :=
    (builtStack_within L s.cpu.mem ht e).trans
      ((buildTask_spec L s.cpu.mem ht e _ _).1.mono fun x hx => Or.inr hx)
  have htail : TailAt L m := h.tail.of_eq (hbuild.load32 fun k hk =>
    L.switching_building t (o := .lastReady) (by decide) (by decide) (by decide) hk)
  obtain ⟨happend, htail'⟩ := appendReady_spec m htail t
  have happend' : Within L.Switching m (appendReady L m (L.tcbPtr t)) :=
    happend.mono fun x hx => Or.inl hx
  have hpointer : load32 m (L.addr .currentTaskTcb) = L.tcbPtr s.current :=
    (hbuild.load32 fun k hk => L.switching_building t (o := .currentTaskTcb) (by decide) (by decide)
      (by decide) hk).trans h.pointer
  refine ⟨hkeep 0 h.zeroUsed, hkeep _ h.currentUsed, ?_, htail', fun b hb hbc => ?_⟩
  · exact (happend.load32 fun k hk => L.current_listing hk).trans hpointer
  · show Frame L (appendReady L m (L.tcbPtr t)) b
      ((Function.update s.saved t none b).getD
        ⟨0#32, 0#32, 0#32, 0#32, BitVec.ofNat 32 (L.stackTop b), Function.update s.entry t e b⟩)
    have hlisted : ∀ c, Frame L m b c → Frame L (appendReady L m (L.tcbPtr t)) b c :=
      fun c hframe => hframe.within happend' (fun x hx => L.stack_switching hx)
        fun k hk => L.tcb_switching b (by omega)
    by_cases hbt : b = t
    · subst hbt
      rw [Function.update_self, Function.update_self]
      exact hlisted _ (buildTask_frame L s.cpu.mem ht e _ _)
    · have hb' : Function.update s.used t true b = true := hb
      rw [Function.update_of_ne hbt] at hb'
      rw [Function.update_of_ne hbt, Function.update_of_ne hbt]
      refine hlisted _ ((h.frames b hb' hbc).within hbuild (fun x hx hin => ?_) fun k hk hin => ?_)
      · rcases hin with hin | ⟨hlo, hhi⟩
        · exact L.inStack_other hbt hx hin
        · have hoff : L.tcb t + (x - L.tcb t) = x := by omega
          exact L.tcb_not_stack t b (by omega) (hoff.symm ▸ hx)
      · rcases hin with hin | ⟨hlo, hhi⟩
        · exact L.tcb_not_stack b t (by omega) hin
        · have hval : b.val ≠ t.val := fun heq => hbt (Fin.ext heq)
          unfold Layout.tcb at hlo hhi
          omega

theorem Intact.createKernelTask {s : Tasking} (h : Intact L s) (e : BitVec 32) :
    Intact L (s.createKernelTask L e) := by
  unfold Tasking.createKernelTask
  split
  · exact h
  · split
    · rename_i t hfree
      have hunused : (!s.used t) = true := List.find?_some (p := fun i => !s.used i) hfree
      exact h.addTask (by simpa using hunused) e
    · exact h

theorem intact_of_booted {s : Tasking} (h : s.Booted L) : Intact L s := by
  obtain ⟨s0, idle, rfl⟩ := h
  unfold Tasking.multitaskingInit
  have hfirst := L.disjoint .firstReady .lastReady (by decide)
  have hcurrent := L.disjoint .tasks .currentTaskTcb (by decide)
  have hle := L.tcb_le 0
  have hsize : KernelObject.tasks.size L.bootStackSize = 448 := rfl
  have hsize' : KernelObject.currentTaskTcb.size L.bootStackSize = 4 := rfl
  have hsizef : KernelObject.firstReady.size L.bootStackSize = 4 := rfl
  have hsizel : KernelObject.lastReady.size L.bootStackSize = 4 := rfl
  have hfc := L.disjoint .firstReady .currentTaskTcb (by decide)
  have hlc := L.disjoint .lastReady .currentTaskTcb (by decide)
  refine Intact.createKernelTask ⟨rfl, rfl, ?_, Or.inl ?_, fun t ht hne => ?_⟩ idle
  · dsimp only
    rw [load32_store32_apart _ _ (by omega), load32_store32_apart _ _ (by omega),
      load32_store32_apart _ _ (by omega), load32_store32_apart _ _ (by omega),
      load32_store32_apart _ _ (by omega), load32_store32_apart _ _ (by omega),
      load32_store32_apart _ _ (by omega), load32_store8_apart _ _ (by omega), load32_store32]
  · dsimp only
    rw [load32_store32_apart _ _ (by omega), load32_store32]
  · exact absurd (of_decide_eq_true ht) hne

theorem Intact.step {s s' : Tasking} {c : TaskingAct} (h : Intact L s) (hok : s.Allowed L c)
    (hs : s.step L c = some s') : Intact L s' := by
  cases c with
  | work cpu =>
    cases hs
    exact h.work hok
  | createKernelTask e =>
    cases hs
    exact h.createKernelTask e
  | switchToTask u =>
    cases hs
    exact h.switch hok

/-- A switch to `u` that has come back into it. -/
structure Resumed (L : Layout) (s : Tasking) (u : TaskId) (cpu : Cpu) : Prop where
  context : ∀ c, s.saved u = some c → cpu.context = c
  start : s.saved u = none → cpu.context =
    ⟨0#32, 0#32, 0#32, 0#32, BitVec.ofNat 32 (L.stackTop u), s.entry u⟩
  cr3 : cpu.cr3 = load32 cpu.mem (L.tcb u + 8)
  esp0 : load32 cpu.mem (L.addr .tss + 4) = load32 cpu.mem (L.tcb u + 4)

theorem context_preserved {s : Tasking}
    (hrun : Runs.Reach (Tasking.step L) (Tasking.Allowed L) (Tasking.Booted L) s)
    (hok : s.Allowed L (.switchToTask u)) : Resumed L s u (s.cpu.switchToTask L) := by
  have hintact : Intact L s := by
    refine Runs.Reach.invariant (I := Intact L) (fun _ h => intact_of_booted h) ?_ hrun
    exact fun s c s' h hok hs => h.step hok hs
  have hswitched := hintact.switched hok
  refine ⟨fun c hc => ?_, fun hnone => ?_, hswitched.cr3, hswitched.esp0⟩
  · rw [hswitched.context, Tasking.expected, hc]
    rfl
  · rw [hswitched.context, Tasking.expected, hnone]
    rfl

def smallLayout : Layout where
  addr
    | .tasks => 0x1000
    | .kernelStacks => 0x10000
    | .currentTaskTcb => 0x2000
    | .firstReady => 0x2004
    | .lastReady => 0x2008
    | .tss => 0x3000
    | .postponeTaskSwitchesCounter => 0x200C
    | .taskSwitchesPostponed => 0x2010
    | .bootStack => 0x4000
  bootStackSize := 0x1000
  disjoint := by
    intro o p hne
    cases o <;> cases p <;> simp [KernelObject.size] at hne ⊢
  bound := by
    intro o
    cases o <;> simp [KernelObject.size]

/-- Task 0 after `Multitasking_Init` on a clear memory, about to call
`switch_to_task(idle_task)`. -/
def smallTasking : Tasking :=
  let s := Tasking.multitaskingInit smallLayout
    ⟨⟨0, 0, 0, 0, 0, 0, 0, 0x4F00, 0, 0x9000, fun _ => 0⟩, fun _ => false, 0, 0, 0, fun _ => none, fun _ => 0⟩
    0x5000#32
  { s with
    cpu := { s.cpu with
      esp := 0x4EF8#32
      mem := store32 (store32 s.cpu.mem 0x4EFC (smallLayout.tcbPtr 1)) 0x4EF8 0x6000#32 } }

theorem context_preserved_small : Resumed smallLayout smallTasking 1
    (smallTasking.cpu.switchToTask smallLayout) ∧ smallTasking.saved 1 = none ∧
      smallTasking.entry 1 = 0x5000#32 := by
  have h0 : Runs.Reach (Tasking.step smallLayout) (Tasking.Allowed smallLayout)
      (Tasking.Booted smallLayout) _ := .start ⟨⟨⟨0, 0, 0, 0, 0, 0, 0, 0x4F00, 0, 0x9000, fun _ => 0⟩,
        fun _ => false, 0, 0, 0, fun _ => none, fun _ => 0⟩, 0x5000#32, rfl⟩
  have hwork : Tasking.Allowed smallLayout _ (.work smallTasking.cpu) :=
    (within_store32 _ (smallLayout.tcbPtr 1) fun k hk => ⟨by decide +revert, by decide +revert⟩).trans
      (within_store32 _ 0x6000#32 fun k hk => ⟨by decide +revert, by decide +revert⟩)
  have h1 := h0.next (TaskingAct.work smallTasking.cpu) hwork rfl
  refine ⟨context_preserved h1 ⟨rfl, by decide, ?_, by decide, by decide, ?_⟩, rfl, rfl⟩
  · decide
  · decide

end SplongleOS

import SplongleOS.InterruptRouting
set_option autoImplicit false

/-! Whole runs of the interrupt system: what comes of every edge on a line. -/

namespace SplongleOS
open Arbiter Simulation

variable {η κ : Type} {C : IsrCode} {s : IrqMachine η κ} {A : IrqLines η κ}

abbrev Trace (η κ : Type) := List (IrqEvent η κ × Option (Answer η κ))

def IrqMachine.Runs (C : IsrCode) : IrqMachine η κ → Trace η κ → IrqMachine η κ → Prop :=
  Calls (fun s e => (s.step C e).map Prod.snd) (fun _ e => e.Ok)
    (fun s e => (e, (s.step C e).map Prod.fst))

def IrqLines.Runs : IrqLines η κ → Trace η κ → IrqLines η κ → Prop :=
  Calls (fun A e => (A.step e).map Prod.snd) (fun _ e => e.Ok)
    (fun A e => (e, (A.step e).map Prod.fst))

theorem IrqLines.Runs.single {A B : IrqLines η κ} {e : IrqEvent η κ} {a : Answer η κ} (hok : e.Ok)
    (h : A.step e = some (a, B)) : A.Runs [(e, some a)] B := by
  have hrun : A.Runs [(e, (A.step e).map Prod.fst)] B := Calls.single hok (by rw [h]; rfl)
  rw [h] at hrun
  exact hrun

theorem IrqLines.Runs.append {A B D : IrqLines η κ} {first rest : Trace η κ}
    (h : A.Runs first B) (h' : B.Runs rest D) : A.Runs (first ++ rest) D := Calls.append h h'

def IrqLines.boot (fault : Fin 256 → Option κ) : IrqLines η κ :=
  ⟨fun _ => false, fun _ => false, fun _ => none, fault, false, []⟩

theorem registerIrqs_spec (is : List (Fin 16)) (s : IrqMachine η κ) (hgated : Gated C s.idt) :
    let t := is.foldl (fun s i => registerIsrHandler s (remapped i) .irqHandler) s
    Gated C t.idt ∧ t.pic = s.pic ∧ t.irqHandlers = s.irqHandlers ∧
      t.interruptFlag = s.interruptFlag ∧ t.frames = s.frames ∧
      ∀ v, ((∃ i ∈ is, v.val = PIC_REMAP_OFFSET + i.val) → t.isrHandlers v = some .irqHandler) ∧
        ((∀ i ∈ is, v.val ≠ PIC_REMAP_OFFSET + i.val) → t.isrHandlers v = s.isrHandlers v) := by
  induction is generalizing s with
  | nil => exact ⟨hgated, rfl, rfl, rfl, rfl, fun v => ⟨by simp, fun _ => rfl⟩⟩
  | cons i is ih =>
    obtain ⟨hgated', hpic, hirq, hflag, hframes, hisr⟩ :=
      ih (registerIsrHandler s (remapped i) .irqHandler) (hgated.enableGate (remapped i))
    refine ⟨hgated', hpic, hirq, hflag, hframes, fun v => ⟨?_, fun hnone => ?_⟩⟩
    · rintro ⟨j, hj, hv⟩
      by_cases hrest : ∃ i ∈ is, v.val = PIC_REMAP_OFFSET + i.val
      · exact (hisr v).1 hrest
      · have hfirst : v = remapped i := by
          rcases List.mem_cons.mp hj with rfl | hj
          · exact Fin.ext hv
          · exact absurd ⟨j, hj, hv⟩ hrest
        refine ((hisr v).2 fun i hi hvi => hrest ⟨i, hi, hvi⟩).trans ?_
        rw [hfirst]
        exact Function.update_self ..
    · have hne : v ≠ remapped i := fun hv => hnone i List.mem_cons_self (congrArg Fin.val hv)
      exact ((hisr v).2 fun j hj => hnone j (List.mem_cons_of_mem _ hj)).trans
        (Function.update_of_ne hne ..)

theorem routes_irqInitFound {s : IrqMachine η κ} {fault : Fin 256 → Option κ}
    (hgated : Gated C s.idt) (hisr : s.isrHandlers = fun v => (fault v).map .other)
    (hirq : s.irqHandlers = fun _ => none) (hflag : s.interruptFlag = false)
    (hframes : s.frames = []) : Routes C (irqInitFound s) (IrqLines.boot fault) := by
  obtain ⟨hgated', hpic, hirq', hflag', hframes', hisr'⟩ := registerIrqs_spec (C := C)
    (List.finRange 16) { s with pic := s.pic.config 0x20#8 0x28#8 } hgated
  refine ⟨?_, rfl, hgated', ?_, ?_, hirq'.trans hirq, hflag'.trans hflag, hframes'.trans hframes⟩
  · refine ⟨_, _, _, _, _, hpic.trans (I8259.config_running _), ?_, ?_⟩
    · funext l
      simp [I8259.waits, IrqLines.boot]
    · have hall : ∀ l : Fin 16, (0xFFFF#16).getLsbD l.val = true := by decide
      exact hall
  · intro v hlow hhigh
    refine (hisr' v).1 ⟨⟨v.val - 32, by omega⟩, List.mem_finRange _, ?_⟩
    change v.val = 0x20 + (v.val - 32)
    omega
  · intro v hlow
    refine ((hisr' v).2 fun i _ hv => ?_).trans (congrFun hisr v)
    unfold PIC_REMAP_OFFSET at hv
    omega

theorem irqInit_of_probe {s : IrqMachine η κ} (hprobe : s.pic.probe.1 = true) :
    irqInit s = (true, irqInitFound { s with pic := s.pic.probe.2 }) := if_pos hprobe

theorem irqInit_found {s s1 : IrqMachine η κ} (hinit : irqInit s = (true, s1)) :
    s1 = irqInitFound { s with pic := s.pic.probe.2 } := by
  unfold irqInit at hinit
  split at hinit
  · exact (Prod.mk.inj hinit).2.symm
  · cases (Prod.mk.inj hinit).1

theorem routes_of_init {s1 : IrqMachine η κ} {pic : I8259} {idt : Idt}
    {fault : Fin 256 → Option κ} (hinit : halInit C (IrqMachine.boot pic idt fault) = (true, s1)) :
    Routes C s1 (IrqLines.boot fault) := by
  have hgated := gated_isrInitialize C idt
  dsimp only [halInit, IrqMachine.boot] at hinit
  generalize isrInitialize C idt = g at hinit hgated
  rw [irqInit_found hinit]
  exact routes_irqInitFound hgated rfl rfl rfl rfl

/-- What the one can do the other can. -/
theorem Routes.both (hisr : Function.Injective C.isr) {s : IrqMachine η κ} {A : IrqLines η κ}
    (h : Routes C s A) {e : IrqEvent η κ} (hok : e.Ok) :
    ((A.step e).map Prod.fst = (s.step C e).map Prod.fst) ∧
      (∀ t, (s.step C e).map Prod.snd = some t →
        ∃ B, (A.step e).map Prod.snd = some B ∧ Routes C t B) ∧
      ∀ B, (A.step e).map Prod.snd = some B →
        ∃ t, (s.step C e).map Prod.snd = some t ∧ Routes C t B := by
  obtain ⟨hs, hA⟩ | ⟨a, t, B, hs, hA, htB⟩ := h.step hisr e hok
  · rw [hs, hA]
    exact ⟨rfl, fun t ht => (Option.some_ne_none t ht.symm).elim,
      fun B hB => (Option.some_ne_none B hB.symm).elim⟩
  · rw [hs, hA]
    refine ⟨rfl, fun t' ht' => ?_, fun B' hB' => ?_⟩
    · exact ⟨B, rfl, Option.some.inj ht' ▸ htB⟩
    · exact ⟨t, rfl, Option.some.inj hB' ▸ htB⟩

theorem Routes.runs (hisr : Function.Injective C.isr) {s t : IrqMachine η κ} {A : IrqLines η κ}
    {trace : Trace η κ} (h : Routes C s A) (hruns : s.Runs C trace t) :
    ∃ B, A.Runs trace B ∧ Routes C t B := by
  refine hruns.mirror (fun u B e v hR hok hs => ?_) h
  obtain ⟨hanswer, hforth, -⟩ := hR.both hisr hok
  exact ⟨hok, by rw [hanswer], hforth v hs⟩

theorem Routes.runs_back (hisr : Function.Injective C.isr) {s : IrqMachine η κ}
    {A B : IrqLines η κ} {trace : Trace η κ} (h : Routes C s A) (hruns : A.Runs trace B) :
    ∃ t, s.Runs C trace t ∧ Routes C t B := by
  refine hruns.mirror (R := fun A s => Routes C s A) (fun B u e v hR hok hs => ?_) h
  obtain ⟨hanswer, -, hback⟩ := hR.both hisr hok
  exact ⟨hok, by rw [hanswer], hback v hs⟩

/-- Whatever the controllers and the gates were like before, once they are set up what the
hardware, the stubs and the two tables of handlers do with interrupts is exactly what the sixteen
lines do. -/
theorem machine_runs_iff_lines (C : IsrCode) (hisr : Function.Injective C.isr) (pic : I8259)
    (idt : Idt) (fault : Fin 256 → Option κ) (s1 : IrqMachine η κ)
    (hinit : halInit C (IrqMachine.boot pic idt fault) = (true, s1)) (trace : Trace η κ) :
    (∃ s, s1.Runs C trace s) ↔ ∃ A, (IrqLines.boot fault).Runs trace A := by
  have hboot := routes_of_init hinit
  constructor
  · rintro ⟨s, hruns⟩
    obtain ⟨A, hA, -⟩ := hboot.runs hisr hruns
    exact ⟨A, hA⟩
  · rintro ⟨A, hruns⟩
    obtain ⟨s, hs, -⟩ := hboot.runs_back hisr hruns
    exact ⟨s, hs⟩

def biosPic : I8259 :=
  ⟨⟨⟨0xB8#8, 0#8, 0#8, .nothing, 0x08#8, 0x04#8, true, false, false⟩,
    ⟨0x8F#8, 0#8, 0#8, .nothing, 0x70#8, 0x02#8, true, false, false⟩⟩, 0xFFFF#16⟩

def biosMachine : IrqMachine Nat Nat :=
  IrqMachine.boot biosPic (fun _ => ⟨0#16, 0#16, 0#8, 0#8, 0#16⟩) fun _ => none

theorem spacedStubs_injective : Function.Injective spacedStubs.isr := by
  intro v w h
  have hnat : (BitVec.ofNat 32 (0x10000 + 16 * v.val)).toNat =
      (BitVec.ofNat 32 (0x10000 + 16 * w.val)).toNat := congrArg BitVec.toNat h
  rw [BitVec.toNat_ofNat, BitVec.toNat_ofNat] at hnat
  have hv := v.isLt
  have hw := w.isLt
  exact Fin.ext (by omega)

theorem halInit_bios : ∃ s1, halInit spacedStubs biosMachine = (true, s1) := by
  have hprobe : biosPic.probe.1 = true := by decide
  exact ⟨_, irqInit_of_probe hprobe⟩

theorem machine_runs_iff_lines_bios : ∃ s1, halInit spacedStubs biosMachine = (true, s1) ∧
    ((∃ s, s1.Runs spacedStubs [(.edge 1, some (.latched false))] s) ↔
      ∃ A : IrqLines Nat Nat,
        (IrqLines.boot fun _ => none).Runs [(.edge 1, some (.latched false))] A) := by
  obtain ⟨s1, hinit⟩ := halInit_bios
  exact ⟨s1, hinit, machine_runs_iff_lines _ spacedStubs_injective _ _ _ s1 hinit _⟩

def keyPressed : Trace Nat Nat :=
  [(.irqRegisterHandler 1 (some 7), some .silent), (.unmask 1, some .silent),
    (.edge 1, some (.latched false)), (.enableInts, some .silent)]

theorem keyPressed_runs : ∃ A : IrqLines Nat Nat,
    (IrqLines.boot fun _ => none).Runs keyPressed A ∧ A.interruptFlag = true ∧
      A.step .interrupt ≠ none := by
  have hedge : (IrqEvent.edge 1 : IrqEvent Nat Nat).Ok :=
    show (1 : Fin 16) ≠ 2 by decide
  have hunmask : (IrqEvent.unmask 1 : IrqEvent Nat Nat).Ok := show 1 < 31 by decide
  let A : IrqLines Nat Nat := IrqLines.boot fun _ => none
  have hregister := IrqLines.Runs.single (A := A) (e := .irqRegisterHandler 1 (some 7)) trivial rfl
  have hopen := hregister.append (IrqLines.Runs.single (e := .unmask 1) hunmask rfl)
  have hpress := hopen.append (IrqLines.Runs.single (e := .edge 1) hedge rfl)
  have hsti := hpress.append (IrqLines.Runs.single (e := .enableInts) trivial rfl)
  exact ⟨_, hsti, rfl, Option.isSome_iff_ne_none.mp rfl⟩

/-- The edges on a line that found it quiet. -/
def edges (line : Fin 16) (trace : Trace η κ) : Nat :=
  trace.countP fun
    | (.edge l, some (.latched false)) => l == line
    | _ => false

/-- The interrupts that were taken for a line. -/
def services (line : Fin 16) (trace : Trace η κ) : Nat :=
  trace.countP fun
    | (.interrupt, some (.ran (.irq l _))) => l == line
    | _ => false

def IrqEvent.handlerAfter (line : Fin 16) (handler : Option η) : IrqEvent η κ → Option η
  | .irqRegisterHandler l new => if l = line then new else handler
  | _ => handler

def IrqEvent.unmaskedAfter (line : Fin 16) (unmasked : Bool) : IrqEvent η κ → Bool
  | .mask irq => unmasked && line.val != irq
  | .unmask irq => unmasked || line.val == irq
  | .disable => false
  | _ => unmasked

def registered (line : Fin 16) (trace : Trace η κ) : Option η :=
  trace.foldl (fun handler e => e.1.handlerAfter line handler) none

/-- Whether the last word about the line was an unmask. -/
def unmaskedBy (line : Fin 16) (trace : Trace η κ) : Bool :=
  trace.foldl (fun unmasked e => e.1.unmaskedAfter line unmasked) false

variable {trace : Trace η κ}

theorem IrqLines.interrupt_eq {A B : IrqLines η κ} {a : Answer η κ}
    (h : A.step .interrupt = some (a, B)) : ∃ line, A.arbiter.grant I8259.priority = some line ∧
      a = .ran (.irq line (A.handler line)) ∧ A.interruptFlag = true ∧
      B = { A with pending := Function.update A.pending line false }.enterGate := by
  rw [IrqLines.step] at h
  split at h
  · cases hgrant : A.arbiter.grant I8259.priority with
    | none =>
      rw [hgrant] at h
      contradiction
    | some line =>
      rw [hgrant, Option.map_some, Option.some.injEq, Prod.mk.injEq] at h
      exact ⟨line, rfl, h.1.symm, ‹_›, h.2.symm⟩
  · contradiction

theorem IrqLines.pending_eq {A B : IrqLines η κ} {e : IrqEvent η κ} {a : Answer η κ}
    (h : A.step e = some (a, B)) (hedge : ∀ l, e ≠ .edge l) (hinterrupt : e ≠ .interrupt) :
    B.pending = A.pending := by
  cases e with
  | edge l => exact absurd rfl (hedge l)
  | interrupt => exact absurd rfl hinterrupt
  | iret =>
    rw [IrqLines.step] at h
    split at h
    · contradiction
    · exact (congrArg IrqLines.pending (Prod.mk.inj (Option.some.inj h)).2).symm
  | _ => exact (congrArg IrqLines.pending (Prod.mk.inj (Option.some.inj h)).2).symm

theorem IrqLines.step_accounts {A B : IrqLines η κ} {e : IrqEvent η κ} {a : Answer η κ}
    (h : A.step e = some (a, B)) (line : Fin 16) :
    edges line [(e, some a)] + (A.pending line).toNat =
      services line [(e, some a)] + (B.pending line).toNat := by
  by_cases hedge : ∃ l, e = .edge l
  · obtain ⟨l, rfl⟩ := hedge
    obtain ⟨rfl, rfl⟩ := Prod.mk.inj (Option.some.inj h)
    change _ = _ + (Function.update A.pending l true line).toNat
    by_cases hl : l = line
    · subst hl
      rw [Function.update_self]
      cases hpending : A.pending l <;> simp [edges, services]
    · rw [Function.update_of_ne (Ne.symm hl)]
      cases hpending : A.pending l <;> simp [edges, services, hl]
  · by_cases hinterrupt : e = .interrupt
    · subst hinterrupt
      obtain ⟨l, hgrant, rfl, -, rfl⟩ := A.interrupt_eq h
      have hpending : A.pending l = true := (Arbiter.of_grant hgrant).2.1
      change _ = _ + (Function.update A.pending l false line).toNat
      by_cases hl : l = line
      · subst hl
        rw [Function.update_self, hpending]
        simp [edges, services]
      · rw [Function.update_of_ne (Ne.symm hl)]
        simp [edges, services, hl]
    · rw [A.pending_eq h (fun l hl => hedge ⟨l, hl⟩) hinterrupt]
      cases e <;> simp_all [edges, services]

theorem IrqLines.of_after {A B : IrqLines η κ} {e : IrqEvent η κ}
    (h : (A.step e).map Prod.snd = some B) : ∃ a, A.step e = some (a, B) := by
  obtain ⟨⟨a, B'⟩, hstep, rfl⟩ := Option.map_eq_some_iff.mp h
  exact ⟨a, hstep⟩

theorem IrqLines.Runs.accounts {A B : IrqLines η κ} (h : A.Runs trace B) (line : Fin 16) :
    edges line trace + (A.pending line).toNat = services line trace + (B.pending line).toNat := by
  induction h with
  | nil => rfl
  | snoc e _ _ hstep ih =>
    obtain ⟨a, hstep⟩ := IrqLines.of_after hstep
    have hlast := IrqLines.step_accounts hstep line
    rw [hstep]
    simp only [edges, services, List.countP_append] at ih hlast ⊢
    change _ + List.countP _ [(e, some a)] + _ = _ + List.countP _ [(e, some a)] + _
    omega

theorem IrqLines.step_told {A B : IrqLines η κ} {e : IrqEvent η κ} {a : Answer η κ}
    (h : A.step e = some (a, B)) (line : Fin 16) :
    B.handler line = e.handlerAfter line (A.handler line) ∧
      B.unmasked line = e.unmaskedAfter line (A.unmasked line) := by
  cases e with
  | interrupt =>
    obtain ⟨l, -, -, -, rfl⟩ := A.interrupt_eq h
    exact ⟨rfl, rfl⟩
  | iret =>
    rw [IrqLines.step] at h
    split at h
    · contradiction
    · obtain ⟨-, rfl⟩ := Prod.mk.inj (Option.some.inj h)
      exact ⟨rfl, rfl⟩
  | irqRegisterHandler l new =>
    obtain ⟨-, rfl⟩ := Prod.mk.inj (Option.some.inj h)
    refine ⟨?_, rfl⟩
    by_cases hl : l = line
    · subst hl
      exact (Function.update_self ..).trans (if_pos rfl).symm
    · exact (Function.update_of_ne (Ne.symm hl) ..).trans (if_neg hl).symm
  | _ =>
    obtain ⟨-, rfl⟩ := Prod.mk.inj (Option.some.inj h)
    exact ⟨rfl, rfl⟩

theorem IrqLines.Runs.told {A : IrqLines η κ} {fault : Fin 256 → Option κ}
    (h : (IrqLines.boot fault).Runs trace A) (line : Fin 16) :
    A.handler line = registered line trace ∧ A.unmasked line = unmaskedBy line trace := by
  generalize hboot : (IrqLines.boot fault : IrqLines η κ) = A0 at h
  induction h with
  | nil =>
    subst hboot
    exact ⟨rfl, rfl⟩
  | snoc e _ _ hstep ih =>
    obtain ⟨a, hstep⟩ := IrqLines.of_after hstep
    obtain ⟨hhandler, hunmasked⟩ := ih
    obtain ⟨hhandler', hunmasked'⟩ := IrqLines.step_told hstep line
    rw [hhandler', hunmasked', hhandler, hunmasked]
    refine ⟨Eq.symm ?_, Eq.symm ?_⟩
    · exact List.foldl_append
    · exact List.foldl_append

theorem Routes.waits_eq (h : Routes C s A) :
    I8259.waits s.pic.master.irr s.pic.slave.irr = A.pending := by
  obtain ⟨m, irr1, irr2, _, _, hpic, hwaits, -⟩ := h.pic
  rw [hpic]
  exact hwaits

theorem Routes.passes_eq (h : Routes C s A) : I8259.passes s.pic.picMask = A.arbiter.enabled := by
  obtain ⟨m, irr1, irr2, _, _, hpic, -, hmask⟩ := h.pic
  funext l
  have htwo : m.getLsbD 2 = !A.unmasked 2 := hmask 2
  rw [hpic]
  change (!m.getLsbD l.val && (l.val < 8 || !m.getLsbD 2)) = _
  rw [hmask, htwo, Bool.not_not, Bool.not_not]
  rfl

/-- No interrupt is lost and none comes twice: every edge that finds its line quiet is served once
or still waits, however edges, interrupts and the calls of the kernel follow one another. -/
theorem every_edge_served_once (C : IsrCode) (hisr : Function.Injective C.isr) (pic : I8259)
    (idt : Idt) (fault : Fin 256 → Option κ) (s1 s : IrqMachine η κ)
    (hinit : halInit C (IrqMachine.boot pic idt fault) = (true, s1)) (trace : Trace η κ)
    (hruns : s1.Runs C trace s) (line : Fin 16) :
    edges line trace = services line trace +
      if I8259.waits s.pic.master.irr s.pic.slave.irr line then 1 else 0 := by
  obtain ⟨A, hA, htied⟩ := (routes_of_init hinit).runs hisr hruns
  have haccounts := IrqLines.Runs.accounts hA line
  rw [htied.waits_eq]
  change _ + 0 = _ at haccounts
  cases hpending : A.pending line <;> rw [hpending] at haccounts <;> exact haccounts

theorem every_edge_served_once_key : ∃ s1 s, halInit spacedStubs biosMachine = (true, s1) ∧
    s1.Runs spacedStubs keyPressed s ∧ edges 1 keyPressed = services 1 keyPressed +
      if I8259.waits s.pic.master.irr s.pic.slave.irr 1 then 1 else 0 := by
  obtain ⟨s1, hinit⟩ := halInit_bios
  obtain ⟨A, hA, -, -⟩ := keyPressed_runs
  obtain ⟨s, hs, -⟩ := (routes_of_init hinit).runs_back spacedStubs_injective hA
  exact ⟨s1, s, hinit, hs,
    every_edge_served_once _ spacedStubs_injective _ _ _ s1 s hinit keyPressed hs 1⟩

/-- What runs is the handler registered last for the line whose interrupt it is. The last word
about that line was an unmask, about line 2 too if it is one of the slave's, and no line that could
have come through goes before it. -/
theorem interrupt_runs_registered (C : IsrCode) (hisr : Function.Injective C.isr) (pic : I8259)
    (idt : Idt) (fault : Fin 256 → Option κ) (s1 s t : IrqMachine η κ)
    (hinit : halInit C (IrqMachine.boot pic idt fault) = (true, s1)) (trace : Trace η κ)
    (hruns : s1.Runs C trace s) (a : Answer η κ) (hstep : s.step C .interrupt = some (a, t)) :
    let through (l : Fin 16) : Prop := I8259.waits s.pic.master.irr s.pic.slave.irr l = true ∧
      unmaskedBy l trace = true ∧ (8 ≤ l.val → unmaskedBy 2 trace = true)
    ∃ line, a = .ran (.irq line (registered line trace)) ∧ through line ∧
      ∀ l, through l → I8259.priority.idxOf line ≤ I8259.priority.idxOf l := by
  intro through
  obtain ⟨A, hA, htied⟩ := (routes_of_init hinit).runs hisr hruns
  obtain ⟨hs, -⟩ | ⟨a', t', B, hs, hA', -⟩ := htied.step hisr .interrupt trivial
  · rw [hs] at hstep
    contradiction
  · rw [hs, Option.some.injEq, Prod.mk.injEq] at hstep
    obtain ⟨line, hgrant, ha, -, -⟩ := A.interrupt_eq hA'
    have hthrough (l : Fin 16) : through l ↔ A.pending l = true ∧ A.arbiter.enabled l = true := by
      have henabled : A.arbiter.enabled l = (unmaskedBy l trace &&
          (decide (l.val < 8) || unmaskedBy 2 trace)) := by
        rw [← (hA.told l).2, ← (hA.told 2).2]
        rfl
      rw [henabled, Bool.and_eq_true, Bool.or_eq_true, decide_eq_true_eq]
      change I8259.waits _ _ l = true ∧ _ ↔ _
      rw [htied.waits_eq, ← Nat.not_le, ← imp_iff_not_or]
    refine ⟨line, ?_, ?_, ?_⟩
    · rw [← hstep.1, ha, (hA.told line).1]
    · exact (hthrough line).mpr (Arbiter.of_grant hgrant).2
    · intro l hl
      obtain ⟨hpending, henabled⟩ := (hthrough l).mp hl
      exact Arbiter.idxOf_grant_le hgrant hpending henabled

theorem interrupt_runs_registered_key : ∃ s1 s t a, halInit spacedStubs biosMachine = (true, s1) ∧
    s1.Runs spacedStubs keyPressed s ∧ s.step spacedStubs .interrupt = some (a, t) ∧
      ∃ line, a = .ran (.irq line (registered line keyPressed)) := by
  obtain ⟨s1, hinit⟩ := halInit_bios
  obtain ⟨A, hA, -, hsome⟩ := keyPressed_runs
  obtain ⟨s, hs, htied⟩ := (routes_of_init hinit).runs_back spacedStubs_injective hA
  obtain ⟨-, hnone⟩ | ⟨a, t, _, ht, -, -⟩ := htied.step spacedStubs_injective .interrupt trivial
  · exact absurd hnone hsome
  · obtain ⟨line, ha, -⟩ := interrupt_runs_registered _ spacedStubs_injective _ _ _ s1 s t hinit
      keyPressed hs a ht
    exact ⟨s1, s, t, a, hinit, hs, ht, line, ha⟩

def servedInTurn (handler : Fin 16 → Option η) (lines : List (Fin 16)) : Trace η κ :=
  lines.flatMap fun l => [(.interrupt, some (.ran (.irq l (handler l)))), (.iret, some .silent)]

theorem IrqLines.serve {A : IrqLines η κ} (hflag : A.interruptFlag = true) {line : Fin 16}
    (hgrant : A.arbiter.grant I8259.priority = some line) :
    A.Runs [(.interrupt, some (.ran (.irq line (A.handler line)))), (.iret, some .silent)]
      { A with pending := Function.update A.pending line false } := by
  let B : IrqLines η κ := { A with pending := Function.update A.pending line false }
  have hinterrupt : A.step .interrupt = some (.ran (.irq line (A.handler line)), B.enterGate) := by
    rw [IrqLines.step, if_pos hflag, hgrant]
    rfl
  have hiret : B.enterGate.step .iret = some (.silent, B) := rfl
  have htaken := IrqLines.Runs.single (e := .interrupt) trivial hinterrupt
  exact htaken.append (IrqLines.Runs.single (e := .iret) trivial hiret)

theorem IrqLines.drain (due : List (Fin 16)) {A : IrqLines η κ} (hflag : A.interruptFlag = true)
    (hdue : A.arbiter.due I8259.priority = due) :
    ∃ B, A.Runs (servedInTurn A.handler due) B ∧ B.arbiter.due I8259.priority = [] := by
  induction due generalizing A with
  | nil => exact ⟨A, .nil A, hdue⟩
  | cons line due ih =>
    have hgrant : A.arbiter.grant I8259.priority = some line := by
      rw [Arbiter.grant_eq, hdue]
      rfl
    have hnodup : I8259.priority.Nodup := by decide
    have hrest := Arbiter.due_clear_of_grant hnodup hgrant
    rw [hdue, List.cons.injEq] at hrest
    obtain ⟨B, hB, hdone⟩ := ih (A := { A with pending := Function.update A.pending line false })
      hflag hrest.2.symm
    exact ⟨B, (IrqLines.serve hflag hgrant).append hB, hdone⟩

/-- With interrupts enabled, all that waits and is not masked is served without an end of
interrupt being sent, in the order of priority, each once, until the processor is left alone. -/
theorem waiting_lines_drain (C : IsrCode) (hisr : Function.Injective C.isr) (pic : I8259)
    (idt : Idt) (fault : Fin 256 → Option κ) (s1 s : IrqMachine η κ)
    (hinit : halInit C (IrqMachine.boot pic idt fault) = (true, s1)) (trace : Trace η κ)
    (hruns : s1.Runs C trace s) (hflag : s.interruptFlag = true) :
    ∃ t, s.Runs C (servedInTurn s.irqHandlers ((I8259.lines s.pic.picMask s.pic.master.irr
        s.pic.slave.irr).due I8259.priority)) t ∧ t.step C .interrupt = none := by
  obtain ⟨A, -, htied⟩ := (routes_of_init hinit).runs hisr hruns
  have hlines : I8259.lines s.pic.picMask s.pic.master.irr s.pic.slave.irr = A.arbiter := by
    rw [I8259.lines, htied.waits_eq, htied.passes_eq]
    rfl
  obtain ⟨B, hB, hdone⟩ := IrqLines.drain _ (htied.interruptFlag.symm.trans hflag) rfl
  obtain ⟨t, ht, hquiet⟩ := htied.runs_back hisr hB
  rw [hlines, htied.handler]
  refine ⟨t, ht, ?_⟩
  have hnone : B.step .interrupt = none := by
    rw [IrqLines.step, Arbiter.grant_eq, hdone, List.head?_nil, Option.map_none, ite_self]
  obtain ⟨hnot, -⟩ | ⟨a, u, D, -, hD, -⟩ := hquiet.step hisr .interrupt trivial
  · exact hnot
  · rw [hnone] at hD
    contradiction

theorem waiting_lines_drain_key : ∃ s1 s, halInit spacedStubs biosMachine = (true, s1) ∧
    s1.Runs spacedStubs keyPressed s ∧ ∃ t, s.Runs spacedStubs (servedInTurn s.irqHandlers
        ((I8259.lines s.pic.picMask s.pic.master.irr s.pic.slave.irr).due I8259.priority)) t ∧
      t.step spacedStubs .interrupt = none := by
  obtain ⟨s1, hinit⟩ := halInit_bios
  obtain ⟨A, hA, hflag, -⟩ := keyPressed_runs
  obtain ⟨s, hs, htied⟩ := (routes_of_init hinit).runs_back spacedStubs_injective hA
  exact ⟨s1, s, hinit, hs, waiting_lines_drain _ spacedStubs_injective _ _ _ s1 s hinit keyPressed
    hs (htied.interruptFlag.trans hflag)⟩

end SplongleOS

import SplongleOS.IdtMemory
import SplongleOS.InterruptDelivery
set_option autoImplicit false

/-! The interrupt system with its gates in memory, between the other writes of the kernel. -/

namespace SplongleOS
open ByteMemory Simulation

variable {η κ : Type}

/-- The gates are those that `idtr` finds in memory; the table in `rest` is not looked at. -/
structure ByteMachine (η κ : Type) where
  rest : IrqMachine η κ
  idtr : Idtr
  mem : Mem

/-- What the processor sees. Beyond the limit there is no gate. -/
def ByteMachine.seen (s : ByteMachine η κ) : IrqMachine η κ :=
  { s.rest with idt := fun v => (s.idtr.gate s.mem v).getD ⟨0#16, 0#16, 0#8, 0#8, 0#16⟩ }

inductive ByteEvent (η κ : Type) where
  | irq (e : IrqEvent η κ)
  | write (a : Nat) (v : BitVec 8)

def IrqEvent.store (table : BitVec 32) (m : Mem) : IrqEvent η κ → Mem
  | .isrRegisterHandler number _ => i686IdtEnableGate table m number
  | _ => m

def ByteMachine.step (C : IsrCode) (table : BitVec 32) (s : ByteMachine η κ) :
    ByteEvent η κ → Option (Answer η κ × ByteMachine η κ)
  | .irq e => (s.seen.step C e).map fun r => (r.1, ⟨r.2, s.idtr, e.store table s.mem⟩)
  | .write a v => some (.silent, { s with mem := store8 s.mem a v })

def ByteEvent.Ok (table : BitVec 32) : ByteEvent η κ → Prop
  | .irq e => e.Ok
  | .write a _ => a < table.toNat ∨ table.toNat + 2048 ≤ a

def IrqLines.byteStep (A : IrqLines η κ) : ByteEvent η κ → Option (Answer η κ × IrqLines η κ)
  | .irq e => A.step e
  | .write _ _ => some (.silent, A)

def ByteMachine.halInit (C : IsrCode) (table desc : BitVec 32) (s : ByteMachine η κ) :
    Bool × ByteMachine η κ :=
  let s : ByteMachine η κ := ⟨s.rest, i686IdtLoad desc s.mem, i686IsrInitialize C table s.mem⟩
  let r := irqInit s.seen
  let m := if r.1 then
      (List.finRange 16).foldl (fun m i => i686IdtEnableGate table m (remapped i)) s.mem
    else s.mem
  (r.1, ⟨r.2, s.idtr, m⟩)

abbrev ByteTrace (η κ : Type) := List (ByteEvent η κ × Option (Answer η κ))

def ByteMachine.Runs (C : IsrCode) (table : BitVec 32) :
    ByteMachine η κ → ByteTrace η κ → ByteMachine η κ → Prop :=
  Calls (fun s e => (s.step C table e).map Prod.snd) (fun _ e => e.Ok table)
    (fun s e => (e, (s.step C table e).map Prod.fst))

def IrqLines.ByteRuns (table : BitVec 32) : IrqLines η κ → ByteTrace η κ → IrqLines η κ → Prop :=
  Calls (fun A e => (A.byteStep e).map Prod.snd) (fun _ e => e.Ok table)
    (fun A e => (e, (A.byteStep e).map Prod.fst))

variable {C : IsrCode} {table : BitVec 32}

theorem seen_eq (rest : IrqMachine η κ) (m : Mem) :
    ByteMachine.seen ⟨rest, ⟨2047#16, table⟩, m⟩ = { rest with idt := gates table m } := by
  have hgates : (fun v => ((Idtr.mk 2047#16 table).gate m v).getD ⟨0#16, 0#16, 0#8, 0#8, 0#16⟩) =
      gates table m := by
    funext v
    rw [gate_eq, Option.getD_some]
  rw [ByteMachine.seen, hgates]

theorem step_idt {s t : IrqMachine η κ} {e : IrqEvent η κ} {a : Answer η κ} {m : Mem}
    (h : s.step C e = some (a, t)) (hs : s.idt = gates table m) :
    t.idt = gates table (e.store table m) := by
  cases e with
  | isrRegisterHandler number handler =>
    cases h
    rw [IrqEvent.store, gates_enableGate, ← hs]
    rfl
  | interrupt =>
    rw [IrqMachine.step] at h
    split at h
    · obtain ⟨k, -, hk⟩ := Option.map_eq_some_iff.mp h
      cases hk
      exact hs
    · cases h
  | iret =>
    rw [IrqMachine.step] at h
    split at h
    · cases h
    · cases h
      exact hs
  | _ =>
    cases h
    exact hs

/-- Through the loaded register the processor sees machines that do what the lines do. -/
structure Follows (C : IsrCode) (table : BitVec 32) (s : ByteMachine η κ) (A : IrqLines η κ) :
    Prop where
  idtr : s.idtr = ⟨2047#16, table⟩
  routes : Routes C s.seen A

theorem seen_step {s : ByteMachine η κ} (h : s.idtr = ⟨2047#16, table⟩) {e : IrqEvent η κ}
    {a : Answer η κ} {t : IrqMachine η κ} (hstep : s.seen.step C e = some (a, t)) :
    ByteMachine.seen ⟨t, s.idtr, e.store table s.mem⟩ = t := by
  obtain ⟨rest, idtr, m⟩ := s
  change idtr = ⟨2047#16, table⟩ at h
  subst h
  rw [seen_eq] at hstep ⊢
  rw [← step_idt hstep rfl]

theorem seen_write {s : ByteMachine η κ} (h : s.idtr = ⟨2047#16, table⟩) {a : Nat}
    (ha : a < table.toNat ∨ table.toNat + 2048 ≤ a) (v : BitVec 8) :
    ByteMachine.seen { s with mem := store8 s.mem a v } = s.seen := by
  obtain ⟨rest, idtr, m⟩ := s
  change idtr = ⟨2047#16, table⟩ at h
  subst h
  have hgates : gates table (store8 m a v) = gates table m := gates_step (e := .write a v) ha m
  rw [seen_eq, seen_eq, hgates]

theorem Follows.both (hisr : Function.Injective C.isr) {s : ByteMachine η κ} {A : IrqLines η κ}
    (h : Follows C table s A) {e : ByteEvent η κ} (hok : e.Ok table) :
    (A.byteStep e).map Prod.fst = (s.step C table e).map Prod.fst ∧
      (∀ t, (s.step C table e).map Prod.snd = some t →
        ∃ B, (A.byteStep e).map Prod.snd = some B ∧ Follows C table t B) ∧
      ∀ B, (A.byteStep e).map Prod.snd = some B →
        ∃ t, (s.step C table e).map Prod.snd = some t ∧ Follows C table t B := by
  cases e with
  | irq e =>
    obtain ⟨hanswer, hforth, hback⟩ := h.routes.both hisr hok
    refine ⟨?_, fun t ht => ?_, fun B hB => ?_⟩
    · rw [ByteMachine.step, Option.map_map]
      exact hanswer
    · rw [ByteMachine.step, Option.map_map] at ht
      obtain ⟨⟨a, u⟩, hu, rfl⟩ := Option.map_eq_some_iff.mp ht
      obtain ⟨B, hB, hroutes⟩ := hforth u (by rw [hu]; rfl)
      refine ⟨B, hB, h.idtr, ?_⟩
      rw [Function.comp_apply, seen_step h.idtr hu]
      exact hroutes
    · obtain ⟨t, ht, hroutes⟩ := hback B hB
      obtain ⟨⟨a, u⟩, hu, rfl⟩ := Option.map_eq_some_iff.mp ht
      refine ⟨⟨u, s.idtr, e.store table s.mem⟩, ?_, h.idtr, ?_⟩
      · rw [ByteMachine.step, hu]
        rfl
      · rw [seen_step h.idtr hu]
        exact hroutes
  | write a v =>
    have hnext : Follows C table { s with mem := store8 s.mem a v } A := by
      refine ⟨h.idtr, ?_⟩
      rw [seen_write h.idtr hok]
      exact h.routes
    refine ⟨rfl, fun t ht => ?_, fun B hB => ?_⟩
    · cases ht
      exact ⟨A, rfl, hnext⟩
    · cases hB
      exact ⟨_, rfl, hnext⟩

theorem Follows.runs (hisr : Function.Injective C.isr) {s t : ByteMachine η κ} {A : IrqLines η κ}
    {trace : ByteTrace η κ} (h : Follows C table s A) (hruns : s.Runs C table trace t) :
    ∃ B, A.ByteRuns table trace B ∧ Follows C table t B := by
  refine hruns.mirror (fun u B e v hR hok hs => ?_) h
  obtain ⟨hanswer, hforth, -⟩ := hR.both hisr hok
  exact ⟨hok, by rw [hanswer], hforth v hs⟩

theorem Follows.runs_back (hisr : Function.Injective C.isr) {s : ByteMachine η κ}
    {A B : IrqLines η κ} {trace : ByteTrace η κ} (h : Follows C table s A)
    (hruns : A.ByteRuns table trace B) : ∃ t, s.Runs C table trace t ∧ Follows C table t B := by
  refine hruns.mirror (R := fun A s => Follows C table s A) (fun B u e v hR hok hs => ?_) h
  obtain ⟨hanswer, -, hback⟩ := hR.both hisr hok
  exact ⟨hok, by rw [hanswer], hback v hs⟩

theorem registerIrqs_idt (is : List (Fin 16)) {s : IrqMachine η κ} {m : Mem}
    (h : s.idt = gates table m) :
    (is.foldl (fun s i => registerIsrHandler s (remapped i) .irqHandler) s).idt =
      gates table (is.foldl (fun m i => i686IdtEnableGate table m (remapped i)) m) := by
  induction is generalizing s m with
  | nil => exact h
  | cons i is ih =>
    refine ih ?_
    rw [gates_enableGate, ← h]
    rfl

theorem irqInit_idt {s : IrqMachine η κ} {g : Idt} {m : Mem} (h : g = gates table m)
    (hfound : (irqInit { s with idt := g }).1 = true) : (irqInit { s with idt := g }).2.idt =
      gates table ((List.finRange 16).foldl (fun m i => i686IdtEnableGate table m (remapped i)) m) := by
  have hinit : irqInit { s with idt := g } = (true, (irqInit { s with idt := g }).2) :=
    Prod.ext hfound rfl
  rw [irqInit_found hinit, irqInitFound]
  exact registerIrqs_idt (List.finRange 16) h

theorem follows_of_init {desc : BitVec 32} {s0 s1 : ByteMachine η κ} {pic : I8259} {idt : Idt}
    {fault : Fin 256 → Option κ} (hboot : s0.rest = IrqMachine.boot pic idt fault)
    (hdesc : BytesAt s0.mem desc.toNat (gIDTDescriptor table))
    (hinit : s0.halInit C table desc = (true, s1)) : Follows C table s1 (IrqLines.boot fault) := by
  have hload : i686IdtLoad desc s0.mem = ⟨2047#16, table⟩ := idtLoad_eq hdesc
  have hidt : isrInitialize C (gates table s0.mem) = gates table (i686IsrInitialize C table s0.mem) :=
    (gates_isrInitialize C table s0.mem).symm
  rw [ByteMachine.halInit] at hinit
  dsimp only at hinit
  rw [hload, seen_eq, hboot, ← hidt, Prod.mk.injEq] at hinit
  obtain ⟨hfound, rfl⟩ := hinit
  rw [if_pos hfound]
  have hinit : SplongleOS.halInit C (IrqMachine.boot pic (gates table s0.mem) fault) = (true, _) :=
    Prod.ext hfound rfl
  have hroutes := routes_of_init hinit
  refine ⟨rfl, ?_⟩
  have hgates := irqInit_idt hidt hfound
  rw [seen_eq, ← hgates]
  exact hroutes

/-- With its gates in memory as with its controllers: whatever memory, controllers and handlers of
exceptions `HAL_Init` finds, and whatever other code writes outside `g_IDT` between the events, the
machine does what the sixteen lines do. -/
theorem byte_machine_runs_iff_lines (C : IsrCode) (hisr : Function.Injective C.isr)
    (table desc : BitVec 32) (pic : I8259) (idt : Idt) (fault : Fin 256 → Option κ)
    (s0 s1 : ByteMachine η κ) (hboot : s0.rest = IrqMachine.boot pic idt fault)
    (hdesc : BytesAt s0.mem desc.toNat (gIDTDescriptor table))
    (hinit : s0.halInit C table desc = (true, s1)) (trace : ByteTrace η κ) :
    (∃ s, s1.Runs C table trace s) ↔ ∃ A, (IrqLines.boot fault).ByteRuns table trace A := by
  have hfollows := follows_of_init hboot hdesc hinit
  constructor
  · rintro ⟨s, hruns⟩
    obtain ⟨A, hA, -⟩ := hfollows.runs hisr hruns
    exact ⟨A, hA⟩
  · rintro ⟨A, hruns⟩
    obtain ⟨s, hs, -⟩ := hfollows.runs_back hisr hruns
    exact ⟨s, hs⟩

def biosBytes : ByteMachine Nat Nat := ⟨biosMachine, ⟨0#16, 0#32⟩, idtImage⟩

theorem byte_machine_runs_iff_lines_bios :
    ∃ s1, biosBytes.halInit spacedStubs 0x200000#32 0x1000#32 = (true, s1) ∧
      ((∃ s, s1.Runs spacedStubs 0x200000#32
          [(.write 0x3000 7#8, some .silent), (.irq (.edge 1), some (.latched false))] s) ↔
        ∃ A : IrqLines Nat Nat, (IrqLines.boot fun _ => none).ByteRuns 0x200000#32
          [(.write 0x3000 7#8, some .silent), (.irq (.edge 1), some (.latched false))] A) := by
  have hprobe : biosPic.probe.1 = true := by decide
  have hirq (s : IrqMachine Nat Nat) (hpic : s.pic = biosPic) : (irqInit s).1 = true := by
    rw [irqInit_of_probe (by rw [hpic]; exact hprobe)]
  have hfound : (biosBytes.halInit spacedStubs 0x200000#32 0x1000#32).1 = true := hirq _ rfl
  refine ⟨_, Prod.ext hfound rfl, ?_⟩
  exact byte_machine_runs_iff_lines spacedStubs spacedStubs_injective 0x200000#32 0x1000#32 biosPic _ _
    biosBytes _ rfl (by decide) (Prod.ext hfound rfl) _

end SplongleOS

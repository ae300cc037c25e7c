import SplongleOS.FlatSegments
set_option autoImplicit false

/-! The gates of idt.c as bytes of `g_IDT`, the register that `lidt` loads, and what the processor
reads of a vector: the table of records that the interrupt system works on is what lies in memory. -/

namespace SplongleOS
open ByteMemory

def IDTEntry.read (m : Mem) (a : Nat) : IDTEntry :=
  ⟨m (a + 1) ++ m a, m (a + 3) ++ m (a + 2), m (a + 4), m (a + 5), m (a + 7) ++ m (a + 6)⟩

def gateAddr (table : BitVec 32) (interrupt : Fin 256) : Nat := table.toNat + 8 * interrupt.val

def gates (table : BitVec 32) (m : Mem) : Idt := fun v => IDTEntry.read m (gateAddr table v)

def i686IdtSetGate (table : BitVec 32) (m : Mem) (interrupt : Fin 256) (base : BitVec 32)
    (segmentDescriptor : BitVec 16) (flags : BitVec 8) : Mem :=
  let a := gateAddr table interrupt
  let m := store16 m a ((base &&& 0xFFFF#32).setWidth 16)
  let m := store16 m (a + 2) segmentDescriptor
  let m := store8 m (a + 4) 0#8
  let m := store8 m (a + 5) flags
  store16 m (a + 6) ((base >>> 16 &&& 0xFFFF#32).setWidth 16)

def i686IdtEnableGate (table : BitVec 32) (m : Mem) (interrupt : Fin 256) : Mem :=
  let a := gateAddr table interrupt
  store8 m (a + 5) (m (a + 5) ||| IDT_FLAG_PRESENT)

def i686IdtDisableGate (table : BitVec 32) (m : Mem) (interrupt : Fin 256) : Mem :=
  let a := gateAddr table interrupt
  store8 m (a + 5) (m (a + 5) &&& ~~~IDT_FLAG_PRESENT)

def i686IsrInitializeGates (C : IsrCode) (table : BitVec 32) (m : Mem) : Mem :=
  (List.finRange 256).foldl (fun m v => i686IdtSetGate table m v (C.isr v) i686GdtCodeSegment
    (IDT_FLAG_RING0 ||| IDT_FLAG_GATE_32BIT_INT)) m

def i686IsrInitialize (C : IsrCode) (table : BitVec 32) (m : Mem) : Mem :=
  (List.finRange 256).foldl (i686IdtEnableGate table) (i686IsrInitializeGates C table m)

def gIDTDescriptor (table : BitVec 32) : List (BitVec 8) :=
  halfBytes (BitVec.ofNat 16 (8 * 256 - 1)) ++ wordBytes table

structure Idtr where
  limit : BitVec 16
  base : BitVec 32
  deriving DecidableEq, Repr

/-- `lidt`, all that `i686_IDT_Load` does beside its call frame. -/
def i686IdtLoad (desc : BitVec 32) (m : Mem) : Idtr :=
  ⟨m (desc.toNat + 1) ++ m desc.toNat, load32 m (desc.toNat + 2)⟩

/-- The gate of a vector, when all its bytes are inside the limit. -/
def Idtr.gate (r : Idtr) (m : Mem) (v : Fin 256) : Option IDTEntry :=
  if 8 * v.val + 7 ≤ r.limit.toNat then some (IDTEntry.read m (r.base.toNat + 8 * v.val)) else none

variable {C : IsrCode} {table : BitVec 32} {m m' : Mem} {S : Nat → Prop}

theorem read_within {a : Nat} (hw : Within S m m') (hout : ∀ k < 8, ¬S (a + k)) :
    IDTEntry.read m' a = IDTEntry.read m a := by
  have h0 := hw (a + 0) (hout 0 (by decide))
  rw [Nat.add_zero] at h0
  unfold IDTEntry.read
  rw [h0, hw _ (hout 1 (by decide)), hw _ (hout 2 (by decide)), hw _ (hout 3 (by decide)),
    hw _ (hout 4 (by decide)), hw _ (hout 5 (by decide)), hw _ (hout 6 (by decide)),
    hw _ (hout 7 (by decide))]

theorem gates_update {v : Fin 256} {e : IDTEntry}
    (hw : Within (fun x => gateAddr table v ≤ x ∧ x < gateAddr table v + 8) m m')
    (he : IDTEntry.read m' (gateAddr table v) = e) :
    gates table m' = Function.update (gates table m) v e := by
  funext u
  by_cases hu : u = v
  · rw [hu, Function.update_self]
    exact he
  · rw [Function.update_of_ne hu]
    have hne : u.val ≠ v.val := fun heq => hu (Fin.ext heq)
    refine read_within hw fun k hk hx => ?_
    unfold gateAddr at hx
    omega

theorem within_setGate (m : Mem) (v : Fin 256) (base : BitVec 32) (segmentDescriptor : BitVec 16)
    (flags : BitVec 8) : Within (fun x => gateAddr table v ≤ x ∧ x < gateAddr table v + 8) m
      (i686IdtSetGate table m v base segmentDescriptor flags) := by
  have hin : ∀ k < 8, gateAddr table v ≤ gateAddr table v + k ∧
      gateAddr table v + k < gateAddr table v + 8 := fun k hk => ⟨by omega, by omega⟩
  refine Within.trans ?_ (within_store16 _ _ (hin 6 (by decide)) (hin 7 (by decide)))
  refine Within.trans ?_ (within_store8 _ _ (hin 5 (by decide)))
  refine Within.trans ?_ (within_store8 _ _ (hin 4 (by decide)))
  refine Within.trans ?_ (within_store16 _ _ (hin 2 (by decide)) (hin 3 (by decide)))
  exact within_store16 _ _ (hin 0 (by decide)) (hin 1 (by decide))

theorem within_flags (m : Mem) (v : Fin 256) (flags : BitVec 8) :
    Within (fun x => gateAddr table v ≤ x ∧ x < gateAddr table v + 8) m
      (store8 m (gateAddr table v + 5) flags) :=
  within_store8 m flags ⟨by omega, by omega⟩

theorem gates_setGate (table : BitVec 32) (m : Mem) (v : Fin 256) (base : BitVec 32)
    (segmentDescriptor : BitVec 16) (flags : BitVec 8) :
    gates table (i686IdtSetGate table m v base segmentDescriptor flags) =
      setGate (gates table m) v base segmentDescriptor flags := by
  refine gates_update (within_setGate m v base segmentDescriptor flags) ?_
  have h3 : gateAddr table v ≠ gateAddr table v + 2 + 1 := by omega
  have h7 : gateAddr table v ≠ gateAddr table v + 6 + 1 := by omega
  simp [IDTEntry.read, i686IdtSetGate, store16, store8, append_halves, h3, h7]

theorem read_flags (m : Mem) (a : Nat) (flags : BitVec 8) :
    IDTEntry.read (store8 m (a + 5) flags) a = { IDTEntry.read m a with flags := flags } := by
  simp [IDTEntry.read, store8]

theorem gates_enableGate (table : BitVec 32) (m : Mem) (v : Fin 256) :
    gates table (i686IdtEnableGate table m v) = enableGate (gates table m) v :=
  gates_update (within_flags m v _) (read_flags m _ _)

theorem gates_disableGate (table : BitVec 32) (m : Mem) (v : Fin 256) :
    gates table (i686IdtDisableGate table m v) = disableGate (gates table m) v :=
  gates_update (within_flags m v _) (read_flags m _ _)

theorem within_isrInitialize (C : IsrCode) (table : BitVec 32) (m : Mem) :
    Within (fun x => table.toNat ≤ x ∧ x < table.toNat + 2048) m (i686IsrInitialize C table m) := by
  have hentry (v : Fin 256) (x : Nat) (hx : gateAddr table v ≤ x ∧ x < gateAddr table v + 8) :
      table.toNat ≤ x ∧ x < table.toNat + 2048 := by
    unfold gateAddr at hx
    omega
  refine (Within.foldl (fun m v => ?_) _ m).trans (Within.foldl (fun m v => ?_) _ _)
  · exact (within_setGate m v _ _ _).mono (hentry v)
  · exact (within_flags m v _).mono (hentry v)

theorem gates_isrInitialize (C : IsrCode) (table : BitVec 32) (m : Mem) :
    gates table (i686IsrInitialize C table m) = isrInitialize C (gates table m) := by
  have hset : gates table (i686IsrInitializeGates C table m) = isrInitializeGates C (gates table m) :=
    (List.foldl_hom (gates table) fun m v => (gates_setGate table m v _ _ _).symm).symm
  rw [i686IsrInitialize, isrInitialize, ← hset]
  exact (List.foldl_hom (gates table) fun m v => (gates_enableGate table m v).symm).symm

inductive GateEvent where
  | enableGate (interrupt : Fin 256)
  | disableGate (interrupt : Fin 256)
  | write (a : Nat) (v : BitVec 8)

def GateEvent.step (table : BitVec 32) (m : Mem) : GateEvent → Mem
  | .enableGate interrupt => i686IdtEnableGate table m interrupt
  | .disableGate interrupt => i686IdtDisableGate table m interrupt
  | .write a v => store8 m a v

def GateEvent.Ok (table : BitVec 32) : GateEvent → Prop
  | .write a _ => a < table.toNat ∨ table.toNat + 2048 ≤ a
  | _ => True

def GateEvent.record (g : Idt) : GateEvent → Idt
  | .enableGate interrupt => SplongleOS.enableGate g interrupt
  | .disableGate interrupt => SplongleOS.disableGate g interrupt
  | .write _ _ => g

def GateEvent.opened (present : Fin 256 → Bool) : GateEvent → Fin 256 → Bool
  | .enableGate interrupt => Function.update present interrupt true
  | .disableGate interrupt => Function.update present interrupt false
  | .write _ _ => present

theorem gates_step {e : GateEvent} (he : e.Ok table) (m : Mem) :
    gates table (e.step table m) = e.record (gates table m) := by
  cases e with
  | enableGate v => exact gates_enableGate table m v
  | disableGate v => exact gates_disableGate table m v
  | write a b =>
    funext u
    have hw : Within (fun x => x = a) m (store8 m a b) := within_store8 m b rfl
    refine read_within hw fun k hk hx => ?_
    have hu := u.isLt
    unfold gateAddr at hx
    rcases he with hlow | hhigh <;> omega

theorem gates_steps {es : List GateEvent} (hes : ∀ e ∈ es, e.Ok table) (m : Mem) :
    gates table (es.foldl (GateEvent.step table) m) =
      es.foldl GateEvent.record (gates table m) := by
  induction es generalizing m with
  | nil => rfl
  | cons e es ih =>
    rw [List.forall_mem_cons] at hes
    rw [List.foldl_cons, List.foldl_cons, ih hes.2, gates_step hes.1]

/-- The entry of stub `v`, open or closed. -/
def stubGate (C : IsrCode) (v : Fin 256) (present : Bool) : IDTEntry :=
  ⟨(C.isr v &&& 0xFFFF#32).setWidth 16, i686GdtCodeSegment, 0#8,
    if present then 0x8E#8 else 0x0E#8, (C.isr v >>> 16 &&& 0xFFFF#32).setWidth 16⟩

theorem stubGate_enabled (C : IsrCode) (v : Fin 256) (present : Bool) :
    ({ stubGate C v present with
      flags := (stubGate C v present).flags ||| IDT_FLAG_PRESENT } : IDTEntry) = stubGate C v true := by
  have hflags : ∀ b : Bool, (if b then 0x8E#8 else 0x0E#8) ||| IDT_FLAG_PRESENT = 0x8E#8 := by decide
  simp [stubGate, hflags]

theorem stubGate_disabled (C : IsrCode) (v : Fin 256) (present : Bool) :
    ({ stubGate C v present with
      flags := (stubGate C v present).flags &&& ~~~IDT_FLAG_PRESENT } : IDTEntry) =
        stubGate C v false := by
  have hflags : ∀ b : Bool, (if b then 0x8E#8 else 0x0E#8) &&& ~~~IDT_FLAG_PRESENT = 0x0E#8 := by
    decide
  simp [stubGate, hflags]

theorem isrInitialize_entry (C : IsrCode) (g : Idt) (v : Fin 256) :
    isrInitialize C g v = stubGate C v true := by
  have hnodup : (List.finRange 256).Nodup := List.nodup_finRange 256
  have hmem : v ∈ List.finRange 256 := List.mem_finRange v
  have hset := foldl_update (fun v (_ : IDTEntry) => stubGate C v false) hnodup g v
  have henable := foldl_update (fun _ (e : IDTEntry) => { e with
    flags := e.flags ||| IDT_FLAG_PRESENT }) hnodup (isrInitializeGates C g) v
  rw [if_pos hmem] at hset henable
  have hgate : isrInitializeGates C g v = stubGate C v false := hset
  rw [hgate] at henable
  exact henable.trans (stubGate_enabled C v false)

theorem stubGate_target (C : IsrCode) (v : Fin 256) (present : Bool) :
    (stubGate C v present).target =
      if present then some (i686GdtCodeSegment, C.isr v) else none := by
  cases present with
  | false => rfl
  | true =>
    have hgated := gated_isrInitialize C (fun _ => stubGate C v false) v
    rw [isrInitialize_entry] at hgated
    exact hgated

theorem update_opened {present : Fin 256 → Bool} {g : Idt} (h : ∀ v, g v = stubGate C v (present v))
    {u : Fin 256} {b : Bool} {e : IDTEntry} (he : e = stubGate C u b) (v : Fin 256) :
    Function.update g u e v = stubGate C v (Function.update present u b v) := by
  by_cases hv : v = u
  · rw [hv, Function.update_self, Function.update_self, he]
  · rw [Function.update_of_ne hv, Function.update_of_ne hv, h v]

theorem record_opened {present : Fin 256 → Bool} {g : Idt} (h : ∀ v, g v = stubGate C v (present v))
    (e : GateEvent) (v : Fin 256) : e.record g v = stubGate C v (e.opened present v) := by
  cases e with
  | enableGate u =>
    refine update_opened h ?_ v
    rw [h u, stubGate_enabled]
  | disableGate u =>
    refine update_opened h ?_ v
    rw [h u, stubGate_disabled]
  | write a b => exact h v

theorem records_opened {present : Fin 256 → Bool} {g : Idt} (h : ∀ v, g v = stubGate C v (present v))
    (es : List GateEvent) (v : Fin 256) :
    es.foldl GateEvent.record g v = stubGate C v (es.foldl GateEvent.opened present v) := by
  induction es generalizing present g with
  | nil => exact h v
  | cons e es ih => exact ih (record_opened h e)

theorem idtLoad_eq {desc : BitVec 32} (h : BytesAt m desc.toNat (gIDTDescriptor table)) :
    i686IdtLoad desc m = ⟨2047#16, table⟩ := by
  obtain ⟨hlimit, hbase⟩ := BytesAt.append (l := halfBytes _) h
  obtain ⟨h0, h1, _⟩ := hlimit
  have haddress : load32 m (desc.toNat + 2) = table := hbase.word
  have hsize : m (desc.toNat + 1) ++ m desc.toNat = 2047#16 := by
    rw [h1, h0]
    rfl
  rw [i686IdtLoad, haddress, hsize]

theorem gate_eq (table : BitVec 32) (m : Mem) (v : Fin 256) :
    Idtr.gate ⟨2047#16, table⟩ m v = some (gates table m v) := by
  have hlimit : 8 * v.val + 7 ≤ (2047#16).toNat := by
    have hv := v.isLt
    have hnat : (2047#16).toNat = 2047 := rfl
    omega
  rw [Idtr.gate, if_pos hlimit]
  rfl

/-- From any memory with the descriptor in it. Setting up the gates writes inside `g_IDT` only.
Whatever gates are enabled and disabled and whatever is written elsewhere afterwards, the bytes of
`g_IDT` are the records that the interrupt system works on, and through the register that `lidt`
loaded the processor finds for every vector its own stub, unless the last call on its gate disabled
it. -/
theorem gates_in_memory (C : IsrCode) (table desc : BitVec 32) (m : Mem) (es : List GateEvent)
    (hdesc : BytesAt m desc.toNat (gIDTDescriptor table)) (hes : ∀ e ∈ es, e.Ok table) :
    let r := i686IdtLoad desc m
    let m' := es.foldl (GateEvent.step table) (i686IsrInitialize C table m)
    Within (fun x => table.toNat ≤ x ∧ x < table.toNat + 2048) m (i686IsrInitialize C table m) ∧
    gates table m' = es.foldl GateEvent.record (isrInitialize C (gates table m)) ∧
    ∀ v, (r.gate m' v).bind IDTEntry.target =
      if es.foldl GateEvent.opened (fun _ => true) v then some (i686GdtCodeSegment, C.isr v)
      else none := by
  intro r m'
  have hrecords : gates table m' = es.foldl GateEvent.record (isrInitialize C (gates table m)) := by
    rw [gates_steps hes, gates_isrInitialize]
  refine ⟨within_isrInitialize C table m, hrecords, fun v => ?_⟩
  have hr : r = ⟨2047#16, table⟩ := idtLoad_eq hdesc
  rw [hr, gate_eq, Option.bind_some, hrecords,
    records_opened (isrInitialize_entry C (gates table m)) es v, stubGate_target]

def idtImage : Mem := fun x => (gIDTDescriptor 0x200000#32).getD (x - 0x1000) 0#8

theorem gates_in_memory_image :
    let es : List GateEvent := [.enableGate 33, .write 0x3000 7#8, .disableGate 14]
    let r := i686IdtLoad 0x1000#32 idtImage
    let m' := es.foldl (GateEvent.step 0x200000#32)
      (i686IsrInitialize spacedStubs 0x200000#32 idtImage)
    (r.gate m' 33).bind IDTEntry.target = some (0x08#16, 0x10210#32) ∧
      (r.gate m' 14).bind IDTEntry.target = none := by
  intro es r m'
  have hes : ∀ e ∈ es, e.Ok 0x200000#32 := by
    simp [es, GateEvent.Ok]
  have h := gates_in_memory spacedStubs 0x200000#32 0x1000#32 idtImage es (by decide) hes
  exact ⟨h.2.2 33, h.2.2 14⟩

end SplongleOS

import SplongleOS.Allocation
import SplongleOS.Base.Ownership
import SplongleOS.Base.Runs
import SplongleOS.BlockStatus
set_option autoImplicit false

/-! Who holds which block while the manager runs: allocations handed out and not freed
yet, and the blocks boot reserved. -/

namespace SplongleOS
open WordMemory Ownership

structure Owned where
  pmm : Pmm
  live : List Alloc

inductive Call where
  | allocate (n : BitVec 32)
  | free (e : Alloc)
  | write (w : Nat) (v : BitVec 32)

/-- What a caller does next. NULL is not an allocation, only live allocations are freed,
and code outside the manager writes outside the bitmap. -/
def Owned.step (o : Owned) : Call → Option Owned
  | .allocate n =>
    let r := allocateBlocks o.pmm n.toNat
    some { pmm := r.2, live := if r.1 = 0 then o.live else ⟨r.1, n.toNat⟩ :: o.live }
  | .free e =>
    if e ∈ o.live then
      some { pmm := freeBlocks o.pmm e.address e.blocks, live := o.live.erase e }
    else none
  | .write w v =>
    if o.pmm.InBitmap w then none
    else some { o with pmm := { o.pmm with mem := Function.update o.pmm.mem w v } }

def Owned.Sound (o : Owned) : Call → Prop
  | .allocate n => SearchSound o.pmm n.toNat
  | _ => True

/-- A call that returns an address returns `num` free blocks if and only if it was
refused by the count or the search settles on a free run. -/
theorem allocateBlocks_freeRun_iff {s : Pmm} {num : Nat} (hmax : s.maxBlocks ≤ 0x100000)
    (hzero : checkBlock s 0 = true) (hnum : num < 0xFFFFFFFF) :
    ((allocateBlocks s num).1 ≠ 0 → FreeRun s ((allocateBlocks s num).1 / 4096) num) ↔
      SearchSound s num := by
  constructor
  · intro hrun
    by_cases hcount : freeCount s < num
    · exact Or.inl hcount
    · refine Or.inr fun b hb => ?_
      by_cases hn : num = 0
      · subst hn
        exact fun k hk => absurd hk (by omega)
      · have hfirst := (settles_iff s (Nat.pos_of_ne_zero hn) hnum b).mp hb
        have heq := allocateBlocks_eq hmax (by omega) (Nat.pos_of_ne_zero hn) hfirst
        have hlt := hb.1
        have hb0 : b ≠ 0 := by
          intro h0
          have hfree := hfirst.free
          rw [h0, hzero] at hfree
          contradiction
        have haddr : b * 4096 % 0x100000000 = b * 4096 := Nat.mod_eq_of_lt (by omega)
        rw [heq, haddr] at hrun
        have hr := hrun (show b * 4096 ≠ 0 by omega)
        rwa [show b * 4096 / 4096 = b by omega] at hr
  · intro hsound ha
    exact (allocateBlocks_freeRun hmax hsound (by omega) ha).2.1

/-- What holds in every state of a run that starts from `s0` with no allocation. -/
structure Owned.Inv (s0 : Pmm) (o : Owned) : Prop where
  max : o.pmm.maxBlocks = s0.maxBlocks
  fits : ∀ e ∈ o.live, e.address / 4096 + e.blocks ≤ s0.maxBlocks
  owns : Owns Alloc.Holds (fun b => checkBlock o.pmm b = true) o.live
  reserved : ∀ b < s0.maxBlocks, checkBlock s0 b = true →
    checkBlock o.pmm b = true ∧ ∀ e ∈ o.live, ¬e.Holds b

theorem Owned.inv_start (s0 : Pmm) : Owned.Inv s0 ⟨s0, []⟩ :=
  ⟨rfl, by simp, Owns.nil, fun _ _ h => ⟨h, by simp⟩⟩

theorem Owned.Inv.mono {s0 : Pmm} {o : Owned} (h : Owned.Inv s0 o) {t : Pmm}
    (hmax : t.maxBlocks = o.pmm.maxBlocks)
    (hkeep : ∀ b < s0.maxBlocks, checkBlock o.pmm b = true → checkBlock t b = true) :
    Owned.Inv s0 { o with pmm := t } where
  max := hmax.trans h.max
  fits := h.fits
  owns := h.owns.mono fun e he b hb hused => by
    have hfit := h.fits e he
    obtain ⟨_, hlt⟩ := hb
    exact hkeep b (by omega) hused
  reserved b hb hr := by
    obtain ⟨hused, hnot⟩ := h.reserved b hb hr
    exact ⟨hkeep b hb hused, hnot⟩

theorem Owned.Inv.fresh {s0 : Pmm} {o : Owned} {e : Alloc} (h : Owned.Inv s0 o)
    (hrun : FreeRun o.pmm (e.address / 4096) e.blocks) :
    (∀ b, e.Holds b → b < s0.maxBlocks ∧ checkBlock o.pmm b = false) ∧
      (∀ e' ∈ o.live, ∀ b, e.Holds b → ¬e'.Holds b) ∧
      ∀ b, e.Holds b → checkBlock s0 b = false := by
  have hfree : ∀ b, e.Holds b → b < s0.maxBlocks ∧ checkBlock o.pmm b = false := by
    rintro b ⟨hlo, hhi⟩
    have hk := hrun (b - e.address / 4096) (by omega)
    rwa [h.max, show e.address / 4096 + (b - e.address / 4096) = b by omega] at hk
  refine ⟨hfree, ?_, ?_⟩
  · exact h.owns.disjoint_of_fresh fun b hb => by simp [(hfree b hb).2]
  · intro b hb
    obtain ⟨hlt, hno⟩ := hfree b hb
    by_contra hr
    have hused := (h.reserved b hlt (by simpa using hr)).1
    exact Bool.noConfusion (hused.symm.trans hno)

theorem Owned.Inv.take {s0 : Pmm} {o : Owned} {t : Pmm} {e : Alloc} (h : Owned.Inv s0 o)
    (hn : 0 < e.blocks) (hrun : FreeRun o.pmm (e.address / 4096) e.blocks)
    (hmax : t.maxBlocks = o.pmm.maxBlocks)
    (hset : ∀ b < s0.maxBlocks, checkBlock t b = true ↔ e.Holds b ∨ checkBlock o.pmm b = true) :
    Owned.Inv s0 { pmm := t, live := e :: o.live } := by
  obtain ⟨hfree, _, hres⟩ := h.fresh hrun
  have hmono : Owned.Inv s0 { o with pmm := t } :=
    h.mono hmax fun b hb hused => (hset b hb).mpr (Or.inr hused)
  have hfit := hrun.fits hn
  rw [h.max] at hfit
  refine ⟨hmono.max, ?_, ?_, ?_⟩
  · exact List.forall_mem_cons.mpr ⟨hfit, h.fits⟩
  · refine h.owns.acquire (fun b hb => by simp [(hfree b hb).2]) ?_ ?_
    · exact fun b hb => (hset b (hfree b hb).1).mpr (Or.inl hb)
    · intro e' he b hb hused
      have hfit' := h.fits e' he
      obtain ⟨_, hlt⟩ := hb
      exact (hset b (by omega)).mpr (Or.inr hused)
  · intro b hb hr
    obtain ⟨hused, hnot⟩ := hmono.reserved b hb hr
    refine ⟨hused, List.forall_mem_cons.mpr ⟨fun hb' => ?_, hnot⟩⟩
    exact Bool.noConfusion (hr.symm.trans (hres b hb'))

theorem Owned.Inv.returned {s0 : Pmm} {o : Owned} {t : Pmm} {a num : Nat}
    (hbound : s0.maxBlocks ≤ 0x100000) (h : Owned.Inv s0 o)
    (haddr : a ≠ 0 → 0 < num ∧ FreeRun o.pmm (a / 4096) num ∧ t = takeBlocks o.pmm num (a / 4096))
    (hmax : t.maxBlocks = o.pmm.maxBlocks)
    (hkeep : ∀ b < 0x100000000, checkBlock o.pmm b = true → checkBlock t b = true) :
    Owned.Inv s0 { pmm := t, live := if a = 0 then o.live else ⟨a, num⟩ :: o.live } := by
  by_cases ha : a = 0
  · rw [if_pos ha]
    exact h.mono hmax fun b hb => hkeep b (by omega)
  · obtain ⟨hn, hrun, hstate⟩ := haddr ha
    have hfit := hrun.fits hn
    have hmax' := h.max
    rw [if_neg ha]
    refine h.take (e := ⟨a, num⟩) hn hrun hmax fun b hb => ?_
    rw [hstate]
    exact checkBlock_takeBlocks o.pmm (by omega) (by omega)

theorem Owned.Inv.allocate {s0 : Pmm} {o o' : Owned} {n : BitVec 32}
    (hbound : s0.maxBlocks ≤ 0x100000) (h : Owned.Inv s0 o) (hsound : SearchSound o.pmm n.toNat)
    (hs : o.step (.allocate n) = some o') : Owned.Inv s0 o' := by
  have hmax : o.pmm.maxBlocks ≤ 0x100000 := by rw [h.max]; exact hbound
  simp only [Owned.step, Option.some.injEq] at hs
  subst hs
  exact h.returned hbound (allocateBlocks_freeRun hmax hsound (by omega))
    (allocateBlocks_maxBlocks n.toNat hmax)
    fun b hb => checkBlock_allocateBlocks_of_used n.toNat hmax hb

theorem Owned.Inv.free {s0 : Pmm} {o o' : Owned} {e : Alloc} (hbound : s0.maxBlocks ≤ 0x100000)
    (h : Owned.Inv s0 o) (hs : o.step (.free e) = some o') : Owned.Inv s0 o' := by
  by_cases he : e ∈ o.live
  · simp only [Owned.step, he, ↓reduceIte, Option.some.injEq] at hs
    subst hs
    have hfit := h.fits e he
    have hkeep : ∀ b < s0.maxBlocks, checkBlock o.pmm b = true → ¬e.Holds b →
        checkBlock (freeBlocks o.pmm e.address e.blocks) b = true := by
      intro b hb hused hnot
      rw [checkBlock_freeBlocks _ (by omega) (by omega)]
      exact ⟨hnot, hused⟩
    refine ⟨(freeBlocks_maxBlocks _ _ _).trans h.max, ?_, ?_, ?_⟩
    · exact fun e' he' => h.fits e' (List.mem_of_mem_erase he')
    · refine h.owns.release he fun e' he' b hb => ?_
      have hfit' := h.fits e' he'
      obtain ⟨_, hlt⟩ := hb
      exact hkeep b (by omega)
    · intro b hb hr
      obtain ⟨hused, hnot⟩ := h.reserved b hb hr
      exact ⟨hkeep b hb hused (hnot e he), fun e' he' => hnot e' (List.mem_of_mem_erase he')⟩
  · simp [Owned.step, he] at hs

theorem Owned.Inv.write {s0 : Pmm} {o o' : Owned} {w : Nat} {v : BitVec 32} (h : Owned.Inv s0 o)
    (hs : o.step (.write w v) = some o') : Owned.Inv s0 o' := by
  by_cases hw : o.pmm.InBitmap w
  · simp [Owned.step, hw] at hs
  · simp only [Owned.step, hw, ↓reduceIte, Option.some.injEq] at hs
    subst hs
    refine h.mono rfl fun b hb hused => ?_
    rw [← hused]
    have hne : o.pmm.slot (b / 32 : Nat) ≠ w :=
      fun heq => hw ⟨b / 32, by rw [h.max]; omega, heq.symm⟩
    exact checkBlock_congr (s := o.pmm) (t := { o.pmm with mem := Function.update o.pmm.mem w v })
      rfl (Function.update_of_ne hne v o.pmm.mem)

theorem Owned.Inv.step {s0 : Pmm} {o o' : Owned} (hbound : s0.maxBlocks ≤ 0x100000) (c : Call)
    (h : Owned.Inv s0 o) (hsound : o.Sound c) (hs : o.step c = some o') : Owned.Inv s0 o' := by
  cases c with
  | allocate n => exact h.allocate hbound hsound hs
  | free e => exact h.free hbound hs
  | write w v => exact h.write hs

def Owned.Run (ok : Owned → Call → Prop) (s0 : Pmm) : Owned → Prop :=
  Runs.Reach Owned.step ok fun o => o = ⟨s0, []⟩

theorem Owned.Run.inv {s0 : Pmm} {o : Owned} (hbound : s0.maxBlocks ≤ 0x100000)
    (h : Owned.Run Owned.Sound s0 o) : Owned.Inv s0 o :=
  Runs.Reach.invariant (fun _ h => h ▸ Owned.inv_start s0)
    (fun _ c _ hi hok hs => hi.step hbound c hok hs) h

/-- In a run whose searches all settle on free runs, what `allocate_blocks` returns is
managed, was free, and is neither live nor reserved. -/
theorem allocation_disjoint {buf : Nat → BitVec 8} {mbinfo : MultibootInfo} {mem : Mem} {s0 : Pmm}
    {o : Owned} {n : BitVec 32} {a : Nat} (hboot : bootPmm buf mbinfo mem = some s0)
    (h : Owned.Run Owned.Sound s0 o) (hsound : SearchSound o.pmm n.toNat)
    (hret : (allocateBlocks o.pmm n.toNat).1 = a) (ha : a ≠ 0) :
    (∀ b, (Alloc.mk a n.toNat).Holds b → b < o.pmm.maxBlocks ∧ checkBlock o.pmm b = false) ∧
      (∀ e ∈ o.live, ∀ b, (Alloc.mk a n.toNat).Holds b → ¬e.Holds b) ∧
        ∀ b, (Alloc.mk a n.toNat).Holds b → checkBlock s0 b = false := by
  obtain ⟨es, _, rfl⟩ := bootPmm_eq_some.mp hboot
  have hbound := managedBlocks_le (bootTotal mbinfo es)
  have hinv := h.inv (by rw [bootState_maxBlocks]; exact hbound)
  have hmax : o.pmm.maxBlocks ≤ 0x100000 := by
    rw [hinv.max, bootState_maxBlocks]
    exact hbound
  obtain ⟨_, hrun, _⟩ := allocateBlocks_freeRun hmax hsound (by omega) (by rwa [hret])
  rw [hret] at hrun
  have hfresh := hinv.fresh (e := ⟨a, n.toNat⟩) hrun
  rwa [← hinv.max] at hfresh

def QemuFree (b : Nat) : Prop := (1 ≤ b ∧ b < 48) ∨ (51 ≤ b ∧ b < 159) ∨ (768 ≤ b ∧ b < 131040)

instance : DecidablePred QemuFree := fun b =>
  inferInstanceAs (Decidable ((1 ≤ b ∧ b < 48) ∨ (51 ≤ b ∧ b < 159) ∨ (768 ≤ b ∧ b < 131040)))

def qemuState : Pmm := bootState (fun _ => 0#32) 0x1FFF0000 qemuMap

theorem bootPmm_qemuState :
    bootPmm (encodeMap qemuMap) (mapInfo qemuMap) (fun _ => 0#32) = some qemuState :=
  bootPmm_qemuMap _

theorem qemuState_maxBlocks : qemuState.maxBlocks = 131056 := bootState_maxBlocks _ _ _

theorem accepts_qemuState {num b : Nat} (hb : b < 131048) (hnum : num < 0xFFFFFFFF)
    (hfit : probeStart b + (num + 1) ≤ 131048) :
    Accepts qemuState num b ↔
      QemuFree b ∧ num ≤ Nat.count (fun c => QemuFree (probeStart b + c)) (num + 1) := by
  have hcount : freeProbes qemuState (probeStart b) (num + 1) =
      Nat.count (fun c => QemuFree (probeStart b + c)) (num + 1) := by
    refine freeProbes_eq_count fun c hc => ?_
    rw [Nat.mod_eq_of_lt (by omega)]
    exact checkBlock_qemuMap _ (by omega)
  rw [Accepts, or_iff_right (by omega), hcount]
  exact and_congr_left fun _ => checkBlock_qemuMap _ hb

theorem settles_qemuState_one : Settles qemuState 1 1 := by
  rw [Settles, qemuState_maxBlocks]
  refine ⟨by decide, (accepts_qemuState (by decide) (by decide) (by decide)).mpr (by decide), ?_⟩
  intro c hc
  obtain rfl : c = 0 := by omega
  exact (accepts_qemuState (by decide) (by decide) (by decide)).not.mpr (by decide)

theorem settles_qemuState : Settles qemuState 47 6 := by
  rw [Settles, qemuState_maxBlocks]
  refine ⟨by decide, (accepts_qemuState (by decide) (by decide) (by decide)).mpr (by decide), ?_⟩
  have hno : ∀ c < 6, ¬(QemuFree c ∧
      47 ≤ Nat.count (fun k => QemuFree (probeStart c + k)) (47 + 1)) := by decide
  intro c hc
  have hstart : probeStart c + (47 + 1) ≤ 131048 := by
    have hall : ∀ c < 6, probeStart c + (47 + 1) ≤ 131048 := by decide
    exact hall c hc
  exact (accepts_qemuState (by omega) (by decide) hstart).not.mpr (hno c hc)

theorem freeCount_qemuState : freeCount qemuState = 130316 := by
  have hused : qemuState.usedBlocks = 740 := usedBlocks_qemuMap _
  rw [freeCount, qemuState_maxBlocks, hused]

theorem allocateBlocks_qemuState {num b : Nat} (hn : 0 < num) (hnum : num ≤ 130316)
    (h : Settles qemuState num b) : (allocateBlocks qemuState num).1 = b * 4096 := by
  have hlt := h.1
  rw [qemuState_maxBlocks] at hlt
  rw [allocateBlocks_eq (by rw [qemuState_maxBlocks]; omega) (by rw [freeCount_qemuState]; exact hnum)
    hn ((settles_iff qemuState hn (by omega) b).mp h)]
  exact Nat.mod_eq_of_lt (by omega)

def qemuOne : Owned := ⟨(allocateBlocks qemuState 1).2, [⟨0x1000, 1⟩]⟩

theorem qemuOne_step : Owned.step ⟨qemuState, []⟩ (.allocate 1#32) = some qemuOne := by
  have hret : (allocateBlocks qemuState (1#32).toNat).1 = 1 * 4096 :=
    allocateBlocks_qemuState (by decide) (by decide) settles_qemuState_one
  rw [Owned.step, hret]
  rfl

theorem qemuOne_pmm : qemuOne.pmm = takeBlocks qemuState 1 1 := by
  have hfirst : FirstCandidate qemuState 1 1 :=
    (settles_iff qemuState (by decide) (by decide) 1).mp settles_qemuState_one
  have hmax : qemuState.maxBlocks ≤ 0x100000 := by
    rw [qemuState_maxBlocks]
    decide
  have hcount : 1 ≤ freeCount qemuState := by
    rw [freeCount_qemuState]
    decide
  rw [qemuOne, allocateBlocks_eq hmax hcount (by decide) hfirst]

theorem qemuOne_maxBlocks : qemuOne.pmm.maxBlocks = 131056 := by
  rw [qemuOne_pmm, takeBlocks_maxBlocks, qemuState_maxBlocks]

theorem checkBlock_qemuOne {b : Nat} (hb : b < 131048) :
    checkBlock qemuOne.pmm b = false ↔ QemuFree b ∧ b ≠ 1 := by
  have htaken := checkBlock_takeBlocks qemuState (by decide : 1 + 1 ≤ 0x80000000)
    (by omega : b < 0x100000000)
  have hfree : checkBlock qemuState b = false ↔ QemuFree b := checkBlock_qemuMap _ hb
  rw [qemuOne_pmm, ← Bool.not_eq_true, htaken, not_or, Bool.not_eq_true, hfree]
  refine ⟨fun h => ⟨h.2, fun hone => h.1 (by omega)⟩, fun h => ⟨fun hin => h.2 (by omega), h.1⟩⟩

theorem settles_qemuOne : Settles qemuOne.pmm 2 2 := by
  refine settles_of_status (fun b hb => checkBlock_qemuOne hb) (by decide) ?_ (by decide) (by decide)
    (by decide) (by decide) (by decide) fun c hc hfree => ?_
  · rw [qemuOne_maxBlocks]
    decide
  · have hno : ∀ c < 2, ¬(QemuFree c ∧ c ≠ 1) := by decide
    exact absurd hfree (hno c hc)

theorem firstCandidate_qemuOne : FirstCandidate qemuOne.pmm 2 2 :=
  (settles_iff qemuOne.pmm (by decide) (by decide) 2).mp settles_qemuOne

theorem allocateBlocks_qemuOne : (allocateBlocks qemuOne.pmm 2).1 = 0x2000 := by
  have hused : qemuOne.pmm.usedBlocks = 741 := by
    have hboot : qemuState.usedBlocks = 740 := usedBlocks_qemuMap _
    rw [qemuOne_pmm, takeBlocks_usedBlocks, hboot]
  have hcount : 2 ≤ freeCount qemuOne.pmm := by
    rw [freeCount, qemuOne_maxBlocks, hused]
    decide
  rw [allocateBlocks_eq (by rw [qemuOne_maxBlocks]; decide) hcount (by decide)
    firstCandidate_qemuOne]

theorem searchSound_qemuOne : SearchSound qemuOne.pmm 2 := by
  refine Or.inr fun b hb => ?_
  have hfirst : FirstCandidate qemuOne.pmm 2 b :=
    (settles_iff qemuOne.pmm (by decide) (by decide) b).mp hb
  rw [hfirst.unique firstCandidate_qemuOne]
  intro k hk
  have hfree : QemuFree (2 + k) ∧ 2 + k ≠ 1 := by
    have hall : ∀ k < 2, QemuFree (2 + k) ∧ 2 + k ≠ 1 := by decide
    exact hall k hk
  have hmax := qemuOne_maxBlocks
  exact ⟨by omega, (checkBlock_qemuOne (by omega)).mpr hfree⟩

theorem allocation_disjoint_qemu :
    (∀ b, (Alloc.mk 0x2000 2).Holds b →
      b < qemuOne.pmm.maxBlocks ∧ checkBlock qemuOne.pmm b = false) ∧
      (∀ e ∈ [Alloc.mk 0x1000 1], ∀ b, (Alloc.mk 0x2000 2).Holds b → ¬e.Holds b) ∧
        ∀ b, (Alloc.mk 0x2000 2).Holds b → checkBlock qemuState b = false := by
  have hstart : Owned.Run Owned.Sound qemuState ⟨qemuState, []⟩ := .start rfl
  have hone : Owned.Run Owned.Sound qemuState qemuOne :=
    hstart.next (.allocate 1#32) (Or.inr (scanFindsRun_one _)) qemuOne_step
  exact allocation_disjoint (n := 2#32) bootPmm_qemuState hone searchSound_qemuOne
    allocateBlocks_qemuOne (by decide)

/-- A request for 47 blocks right after boot returns 0x6000, which takes the blocks of
the bitmap, although blocks 1 to 47 are free. -/
theorem allocation_overlaps_qemu :
    ¬∀ (buf : Nat → BitVec 8) (mbinfo : MultibootInfo) (mem : Mem) (s0 : Pmm) (o : Owned)
      (n : BitVec 32) (a : Nat), bootPmm buf mbinfo mem = some s0 →
        Owned.Run (fun _ _ => True) s0 o → (allocateBlocks o.pmm n.toNat).1 = a → a ≠ 0 →
        ∀ b, (Alloc.mk a n.toNat).Holds b → b < o.pmm.maxBlocks ∧ checkBlock o.pmm b = false := by
  intro hall
  have hret := allocateBlocks_qemuState (by decide) (by decide) settles_qemuState
  have hfree := (hall _ _ _ _ ⟨qemuState, []⟩ 47#32 _ bootPmm_qemuState (.start rfl) hret
    (by decide) 48 ⟨by decide, by decide⟩).2
  have hno := (checkBlock_qemuMap (fun _ => 0#32) (b := 48) (by omega)).mp hfree
  omega

end SplongleOS

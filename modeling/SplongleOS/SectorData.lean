import SplongleOS.AtaCompletion
import Mathlib.Data.List.Intervals
set_option autoImplicit false

/-! The data of a sector: what the transfer loop of a write makes of a buffer, and what
that of a read prints from the same words. -/

namespace SplongleOS
open FuelProg

/-- Byte `i` of the sector that a write of `count` bytes fills. -/
def sectorByte (data : Nat → BitVec 8) (count : BitVec 32) (i : Nat) : BitVec 8 :=
  if i < count.toNat then data i else 0#8

def sectorBytes : List (BitVec 16) → List (BitVec 8)
  | [] => []
  | w :: ws => (w &&& 0xFF#16).setWidth 8 :: ((w >>> 8) &&& 0xFF#16).setWidth 8 :: sectorBytes ws

def sectorWords (data : Nat → BitVec 8) (count : BitVec 32) : Nat → BitVec 16 → List (BitVec 16)
  | 0, _ => []
  | n + 1, i => wordAt data count i :: sectorWords data count n (i + 2)

def printedWords (count : BitVec 32) : List (BitVec 16) → BitVec 16 → List (String × List Nat)
  | [], _ => []
  | w :: ws, i =>
    (if i.toNat < count.toNat then
      ("%c", [(w &&& 0xFF#16).toNat]) ::
        if i.toNat + 1 < count.toNat then [("%c", [((w >>> 8) &&& 0xFF#16).toNat])] else []
    else []) ++ printedWords count ws (i + 2)

variable {δ ε : Type}

def bufferOf (data : Nat → BitVec 8) (count : BitVec 32) (k : Nat) : Option (BitVec 8) :=
  if k < count.toNat then some (data k) else none

/-- `wordAt` and `writeSector` on a buffer that ends somewhere: `none` is a read past the end. -/
def wordIn (buffer : Nat → Option (BitVec 8)) (count : BitVec 32) (i : BitVec 16) :
    Option (BitVec 16) :=
  if i.toNat < count.toNat then
    (buffer i.toNat).bind fun (low : BitVec 8) =>
      if i.toNat + 1 < count.toNat then
        (buffer (i.toNat + 1)).map fun (high : BitVec 8) =>
          (low.setWidth 16 : BitVec 16) ||| (high.setWidth 16 : BitVec 16) <<< 8
      else some (low.setWidth 16 ||| 0#16)
  else some 0#16

def writeSectorIn (hw : Hardware δ) (ata : Ata) (buffer : Nat → Option (BitVec 8))
    (count : BitVec 32) : Nat → BitVec 16 → Option (Io δ Unit)
  | 0, _ => some (pure ())
  | n + 1, i =>
    (wordIn buffer count i).bind fun w =>
      (writeSectorIn hw ata buffer count n (i + 2)).map fun rest => do
        outw hw ata.dataPort w
        rest

/-- Reading `port` from `d` on gives the words in order and ends in `d'`. -/
def Feeds (hw : Hardware δ) (port : BitVec 16) : List (BitVec 16) → δ → δ → Prop
  | [], d, d' => d = d'
  | w :: ws, d, d' => (hw.inw port d).1 = w ∧ Feeds hw port ws (hw.inw port d).2 d'

theorem length_sectorWords (data : Nat → BitVec 8) (count : BitVec 32) (n : Nat) (i : BitVec 16) :
    (sectorWords data count n i).length = n := by
  induction n generalizing i with
  | zero => rfl
  | succ n ih => simp [sectorWords, ih]

theorem writeSector_run (hw : Hardware δ) (ata : Ata) (data : Nat → BitVec 8) (count : BitVec 32)
    (n : Nat) (i : BitVec 16) (s : Machine δ) : writeSector hw ata data count n i s =
      (some (), { s with device :=
        (sectorWords data count n i).foldl (fun d w => hw.outw ata.dataPort w d) s.device }) := by
  induction n generalizing i s with
  | zero => rfl
  | succ n ih => exact ih (i + 2) _

theorem printData_run (i : BitVec 16) (count : BitVec 32) (w : BitVec 16) (s : Machine δ) :
    printData i count w s =
      (some (), { s with console := (printedWords count [w] i).reverse ++ s.console }) := by
  rw [printData, printedWords, printedWords]
  split
  · change (if _ then printk (δ := δ) _ _ else _) _ = _
    split <;> rfl
  · rfl

theorem readSector_run (hw : Hardware δ) (ata : Ata) (count : BitVec 32) (ws : List (BitVec 16))
    (i : BitVec 16) {s : Machine δ} {d : δ} (h : Feeds hw ata.dataPort ws s.device d) :
    readSector hw ata count ws.length i s =
      (some (), { s with
        device := d
        console := (printedWords count ws i).reverse ++ s.console }) := by
  induction ws generalizing i s with
  | nil =>
    obtain rfl : s.device = d := h
    rfl
  | cons w ws ih =>
    obtain ⟨hword, hrest⟩ := h
    have hstep : readSector hw ata count (ws.length + 1) i s =
        FuelProg.bind (printData i count w) (fun _ => readSector hw ata count ws.length (i + 2))
          { s with device := (hw.inw ata.dataPort s.device).2 } := by
      rw [← hword]
      rfl
    have hprinted : printedWords count (w :: ws) i =
        printedWords count [w] i ++ printedWords count ws (i + 2) := by
      simp [printedWords]
    rw [List.length_cons, hstep, FuelProg.bind, printData_run]
    dsimp only
    rw [ih (i + 2) hrest, hprinted, List.reverse_append, List.append_assoc]

theorem getLsbD_byteMask (i : Nat) (hi : i < 16) : (0xFF#16).getLsbD i = decide (i < 8) := by
  have h : ∀ j < 16, (0xFF#16).getLsbD j = decide (j < 8) := by decide
  exact h i hi

theorem low_of_pack (lo hi : BitVec 8) :
    ((lo.setWidth 16 ||| hi.setWidth 16 <<< 8) &&& 0xFF#16).setWidth 8 = lo := by
  refine BitVec.eq_of_getLsbD_eq fun i hi => ?_
  rw [BitVec.getLsbD_setWidth, BitVec.getLsbD_and, getLsbD_byteMask i (by omega), BitVec.getLsbD_or,
    BitVec.getLsbD_setWidth, BitVec.getLsbD_shiftLeft]
  simp [hi]
  omega

theorem high_of_pack (lo hi : BitVec 8) :
    (((lo.setWidth 16 ||| hi.setWidth 16 <<< 8) >>> 8) &&& 0xFF#16).setWidth 8 = hi := by
  refine BitVec.eq_of_getLsbD_eq fun i hi => ?_
  have hzero : lo.getLsbD (8 + i) = false := BitVec.getLsbD_of_ge _ _ (by omega)
  have hsub : 8 + i - 8 = i := by omega
  have hwide : 8 + i < 16 := by omega
  have hword : i < 16 := by omega
  have hlow : ¬8 + i < 8 := by omega
  rw [BitVec.getLsbD_setWidth, BitVec.getLsbD_and, getLsbD_byteMask i (by omega),
    BitVec.getLsbD_ushiftRight, BitVec.getLsbD_or, BitVec.getLsbD_setWidth, BitVec.getLsbD_shiftLeft,
    BitVec.getLsbD_setWidth, hzero, hsub]
  simp only [hi, hwide, hword, hlow, decide_true, decide_false, Bool.and_false, Bool.false_or, Bool.not_false,
    Bool.true_and, Bool.and_true]

theorem wordAt_eq (data : Nat → BitVec 8) (count : BitVec 32) (i : BitVec 16) :
    wordAt data count i = (sectorByte data count i.toNat).setWidth 16 |||
      (sectorByte data count (i.toNat + 1)).setWidth 16 <<< 8 := by
  have hzero : (0#8).setWidth 16 <<< 8 = 0#16 := by decide
  rw [wordAt, sectorByte, sectorByte]
  by_cases hlow : i.toNat < count.toNat
  · rw [if_pos hlow, if_pos hlow]
    by_cases hhigh : i.toNat + 1 < count.toNat
    · rw [if_pos hhigh, if_pos hhigh]
    · rw [if_neg hhigh, if_neg hhigh, hzero]
  · rw [if_neg hlow, if_neg hlow, if_neg (by omega)]
    decide

theorem sectorBytes_sectorWords (data : Nat → BitVec 8) (count : BitVec 32) (n : Nat) {i : BitVec 16}
    (hfit : i.toNat + 2 * n < 0x10000) :
    sectorBytes (sectorWords data count n i) = (List.range' i.toNat (2 * n)).map (sectorByte data count) := by
  induction n generalizing i with
  | zero => rfl
  | succ n ih =>
    have hnext : (i + 2).toNat = i.toNat + 2 := by
      rw [BitVec.toNat_add]
      exact Nat.mod_eq_of_lt (by simp; omega)
    rw [sectorWords, sectorBytes, ih (by omega), hnext, wordAt_eq, low_of_pack, high_of_pack]
    rfl

theorem masked_toNat (w : BitVec 16) : (w &&& 0xFF#16).toNat = ((w &&& 0xFF#16).setWidth 8).toNat := by
  have hmod : (w &&& 0xFF#16).toNat = w.toNat % 2 ^ 8 := by
    rw [BitVec.toNat_and]
    exact Nat.and_two_pow_sub_one_eq_mod _ 8
  rw [BitVec.toNat_setWidth, hmod]
  omega

theorem printedWords_sectorWords (data : Nat → BitVec 8) (count : BitVec 32) (n : Nat) {i : BitVec 16}
    (hfit : i.toNat + 2 * n < 0x10000) :
    printedWords count (sectorWords data count n i) i =
      ((List.range' i.toNat (2 * n)).filter (· < count.toNat)).map fun k => ("%c", [(data k).toNat]) := by
  induction n generalizing i with
  | zero => rfl
  | succ n ih =>
    have hnext : (i + 2).toNat = i.toNat + 2 := by
      rw [BitVec.toNat_add]
      exact Nat.mod_eq_of_lt (by simp; omega)
    have hrange : List.range' i.toNat (2 * (n + 1)) =
        i.toNat :: (i.toNat + 1) :: List.range' (i.toNat + 2) (2 * n) := rfl
    have hlow : i.toNat < count.toNat →
        (wordAt data count i &&& 0xFF#16).toNat = (data i.toNat).toNat := by
      intro hi
      rw [masked_toNat, wordAt_eq, low_of_pack, sectorByte, if_pos hi]
    have hhigh : i.toNat + 1 < count.toNat →
        ((wordAt data count i >>> 8) &&& 0xFF#16).toNat = (data (i.toNat + 1)).toNat := by
      intro hi
      rw [masked_toNat, wordAt_eq, high_of_pack, sectorByte, if_pos hi]
    rw [sectorWords, printedWords, ih (by omega), hnext, hrange]
    by_cases hfirst : i.toNat < count.toNat
    · rw [if_pos hfirst, hlow hfirst]
      by_cases hsecond : i.toNat + 1 < count.toNat
      · simp [hfirst, hsecond, hhigh hsecond]
      · simp [hfirst, hsecond]
    · have hsecond : ¬i.toNat + 1 < count.toNat := by omega
      simp [hfirst, hsecond]

theorem sectorWords_congr {data data' : Nat → BitVec 8} {count : BitVec 32}
    (h : ∀ k < count.toNat, data' k = data k) (n : Nat) (i : BitVec 16) :
    sectorWords data' count n i = sectorWords data count n i := by
  have hbyte : ∀ k, sectorByte data' count k = sectorByte data count k := by
    intro k
    by_cases hk : k < count.toNat
    · rw [sectorByte, sectorByte, if_pos hk, if_pos hk, h k hk]
    · rw [sectorByte, sectorByte, if_neg hk, if_neg hk]
  induction n generalizing i with
  | zero => rfl
  | succ n ih => rw [sectorWords, sectorWords, ih, wordAt_eq, wordAt_eq, hbyte, hbyte]

theorem wordIn_bufferOf (data : Nat → BitVec 8) (count : BitVec 32) (i : BitVec 16) :
    wordIn (bufferOf data count) count i = some (wordAt data count i) := by
  rw [wordIn, wordAt]
  by_cases hlow : i.toNat < count.toNat
  · rw [if_pos hlow, if_pos hlow, bufferOf, if_pos hlow]
    by_cases hhigh : i.toNat + 1 < count.toNat
    · rw [Option.bind_some, if_pos hhigh, if_pos hhigh, bufferOf, if_pos hhigh, Option.map_some]
    · rw [Option.bind_some, if_neg hhigh, if_neg hhigh]
  · rw [if_neg hlow, if_neg hlow]

theorem writeSectorIn_bufferOf (hw : Hardware δ) (ata : Ata) (data : Nat → BitVec 8)
    (count : BitVec 32) (n : Nat) (i : BitVec 16) :
    writeSectorIn hw ata (bufferOf data count) count n i = some (writeSector hw ata data count n i) := by
  induction n generalizing i with
  | zero => rfl
  | succ n ih =>
    rw [writeSectorIn, wordIn_bufferOf, Option.bind_some, ih, Option.map_some]
    rfl

theorem filter_sector {count : Nat} (h : count ≤ 512) :
    (List.range 512).filter (· < count) = List.range count := by
  rw [← List.Ico.zero_bot 512, List.Ico.filter_lt, Nat.min_eq_right h, List.Ico.zero_bot]

/-- For any hardware behind the two ports: a write stays inside a buffer of `count` bytes and
sends 256 words, made of those bytes and of zeros, and a read that is fed them prints the bytes. -/
theorem sector_data_round_trip (hw : Hardware δ) (hw' : Hardware ε) {ata : Ata}
    (hsector : ata.bytesPerSector = 512#16) {count : BitVec 32} (hcount : count.toNat ≤ 512)
    (data : Nat → BitVec 8) :
    writeSectorIn hw ata (bufferOf data count) count ata.words 0#16 =
      some (writeSector hw ata data count ata.words 0#16) ∧
    (∀ data' : Nat → BitVec 8, (∀ k < count.toNat, data' k = data k) →
      writeSector hw ata data' count ata.words 0#16 = writeSector hw ata data count ata.words 0#16) ∧
    ∃ words, words.length = 256 ∧
      sectorBytes words = (List.range 512).map (sectorByte data count) ∧
      (∀ s, writeSector hw ata data count ata.words 0#16 s =
        (some (), { s with device := words.foldl (fun d w => hw.outw ata.dataPort w d) s.device })) ∧
      ∀ s d, Feeds hw' ata.dataPort words s.device d →
        readSector hw' ata count ata.words 0#16 s = (some (), { s with
          device := d
          console := ((List.range count.toNat).map fun k => ("%c", [(data k).toNat])).reverse
            ++ s.console }) := by
  have hwords : ata.words = 256 := by
    rw [Ata.words, hsector]
    rfl
  have hrange : List.range' (0#16).toNat (2 * 256) = List.range 512 := by
    rw [List.range_eq_range']
    rfl
  have hbytes := sectorBytes_sectorWords data count 256 (show (0#16).toNat + 2 * 256 < 0x10000 by decide)
  have hprinted := printedWords_sectorWords data count 256 (show (0#16).toNat + 2 * 256 < 0x10000 by decide)
  have hlength := length_sectorWords data count 256 0#16
  rw [hrange] at hbytes hprinted
  rw [filter_sector hcount] at hprinted
  rw [hwords]
  refine ⟨writeSectorIn_bufferOf .., fun data' h => funext fun s => ?_, _, hlength, hbytes, ?_, fun s d hfeeds => ?_⟩
  · rw [writeSector_run, writeSector_run, sectorWords_congr h]
  · exact writeSector_run hw ata data count 256 0#16
  · have hread := readSector_run hw' ata count _ 0#16 hfeeds
    rwa [hprinted, hlength] at hread

def wordQueue : Hardware (List (BitVec 16)) where
  inb _ d := (0#8, d)
  inw port d := if port = 0x1F0#16 then (d.headD 0#16, d.tail) else (0#16, d)
  outb _ _ d := d
  outw port w d := if port = 0x1F0#16 then d ++ [w] else d

def countUp (k : Nat) : BitVec 8 := BitVec.ofNat 8 (k + 1)

theorem sector_data_round_trip_three :
    writeSectorIn wordQueue (ataInit 0x1F0#16) (bufferOf countUp 3#32) 3#32
        (ataInit 0x1F0#16).words 0#16 =
      some (writeSector wordQueue (ataInit 0x1F0#16) countUp 3#32 (ataInit 0x1F0#16).words 0#16) ∧
    (∀ data' : Nat → BitVec 8, (∀ k < (3#32).toNat, data' k = countUp k) →
      writeSector wordQueue (ataInit 0x1F0#16) data' 3#32 (ataInit 0x1F0#16).words 0#16 =
        writeSector wordQueue (ataInit 0x1F0#16) countUp 3#32 (ataInit 0x1F0#16).words 0#16) ∧
    ∃ words, words.length = 256 ∧
      sectorBytes words = (List.range 512).map (sectorByte countUp 3#32) ∧
      (∀ s, writeSector wordQueue (ataInit 0x1F0#16) countUp 3#32 (ataInit 0x1F0#16).words 0#16 s =
        (some (), { s with
          device := words.foldl (fun d w => wordQueue.outw (ataInit 0x1F0#16).dataPort w d) s.device })) ∧
      ∀ s d, Feeds wordQueue (ataInit 0x1F0#16).dataPort words s.device d →
        readSector wordQueue (ataInit 0x1F0#16) 3#32 (ataInit 0x1F0#16).words 0#16 s =
          (some (), { s with
            device := d
            console := ((List.range (3#32).toNat).map fun k => ("%c", [(countUp k).toNat])).reverse
              ++ s.console }) :=
  sector_data_round_trip wordQueue wordQueue rfl (by decide) countUp

end SplongleOS

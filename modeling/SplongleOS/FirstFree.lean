import SplongleOS.BlockBits
set_option autoImplicit false

/-! What `find_first_free_block` computes. It takes the lowest free block `b` of a
scanned word whose probe succeeds, but the probe counts free blocks from
32 * (b / 32) + 2 ^ (b % 32) on and does not ask that they be consecutive. -/

namespace SplongleOS
open WordMemory

def probeStart (b : Nat) : Nat := (b / 32 * 32 + 2 ^ (b % 32)) % 0x100000000

/-- Free blocks among the first `k` probed from `start`. -/
def freeProbes (s : Pmm) (start k : Nat) : Nat :=
  Nat.count (fun c => checkBlock s ((start + c) % 0x100000000) = false) k

theorem freeProbes_mono (s : Pmm) (start : Nat) {k l : Nat} (h : k ≤ l) :
    freeProbes s start k ≤ freeProbes s start l := Nat.count_monotone _ h

theorem freeProbes_eq_count {s : Pmm} {start k : Nat} {p : Nat → Prop} [DecidablePred p]
    (h : ∀ c < k, checkBlock s ((start + c) % 0x100000000) = false ↔ p c) :
    freeProbes s start k = Nat.count p k :=
  Nat.le_antisymm (Nat.count_mono_left fun c hc => (h c hc).mp)
    (Nat.count_mono_left fun c hc => (h c hc).mpr)

theorem freeProbes_succ (s : Pmm) (start k : Nat) :
    freeProbes s start (k + 1) = freeProbes s start k +
      if checkBlock s ((start + k) % 0x100000000) = false then 1 else 0 := Nat.count_succ _ k

theorem freeProbes_succ_lt {s : Pmm} {num start c : Nat} (hlt : freeProbes s start c < num)
    (hne : freeProbes s start (c + 1) ≠ num) : freeProbes s start (c + 1) < num := by
  have hstep := freeProbes_succ s start c
  split at hstep <;> omega

theorem freeProbes_step (s : Pmm) {num start c : Nat} (hnum : num ≤ 0xFFFFFFFF)
    (hlt : freeProbes s start c < num) :
    (if checkBlock s ((start + c) % 0x100000000) then freeProbes s start c
      else (freeProbes s start c + 1) % 0x100000000) = freeProbes s start (c + 1) := by
  rw [freeProbes_succ]
  cases checkBlock s ((start + c) % 0x100000000) with
  | true => simp
  | false =>
    simp only [Bool.false_eq_true, ↓reduceIte]
    exact Nat.mod_eq_of_lt (by omega)

theorem probeLoop_fst (s : Pmm) {num : Nat} (start : Nat) (hnum : num < 0xFFFFFFFF) (fuel c : Nat)
    (hc : c ≤ num + 1) (hf : num + 1 < fuel + c) (hlt : freeProbes s start c < num) :
    (probeLoop s num start fuel c (freeProbes s start c)).1 =
      decide (num ≤ freeProbes s start (num + 1)) := by
  induction fuel generalizing c with
  | zero => omega
  | succ fuel ih =>
    rw [probeLoop]
    by_cases hle : c ≤ num
    · have hmono := freeProbes_mono s start (show c + 1 ≤ num + 1 by omega)
      simp only [hle, ↓reduceIte, freeProbes_step s hnum.le hlt]
      by_cases heq : freeProbes s start (c + 1) = num
      · simp only [heq, ↓reduceIte]
        symm
        rw [decide_eq_true_iff]
        omega
      · have hlt' := freeProbes_succ_lt hlt heq
        simp only [heq, ↓reduceIte]
        rw [Nat.mod_eq_of_lt (show c + 1 < 0x100000000 by omega)]
        exact ih (c + 1) (by omega) (by omega) hlt'
    · have hend : c = num + 1 := by omega
      subst hend
      simp only [hle, ↓reduceIte]
      symm
      rw [decide_eq_false_iff_not]
      omega

theorem mem_probeLoop_snd (s : Pmm) {num : Nat} (start : Nat) (hnum : num < 0xFFFFFFFF) (fuel c : Nat)
    (hc : c ≤ num + 1) (hf : num + 1 < fuel + c) (hlt : freeProbes s start c < num) (x : Nat) :
    x ∈ (probeLoop s num start fuel c (freeProbes s start c)).2 ↔
      ∃ k, c ≤ k ∧ k ≤ num ∧ freeProbes s start k < num ∧ x = (start + k) % 0x100000000 := by
  induction fuel generalizing c with
  | zero => omega
  | succ fuel ih =>
    rw [probeLoop]
    by_cases hle : c ≤ num
    · simp only [hle, ↓reduceIte, freeProbes_step s hnum.le hlt]
      by_cases heq : freeProbes s start (c + 1) = num
      · simp only [heq, ↓reduceIte, List.mem_singleton]
        constructor
        · rintro rfl
          exact ⟨c, le_rfl, hle, hlt, rfl⟩
        · rintro ⟨k, hck, _, hk, rfl⟩
          -- past `c` the count has reached `num`
          have hkc : k = c := by
            by_contra hne
            have hm := freeProbes_mono s start (show c + 1 ≤ k by omega)
            omega
          rw [hkc]
      · have hlt' := freeProbes_succ_lt hlt heq
        simp only [heq, ↓reduceIte, List.mem_cons]
        rw [Nat.mod_eq_of_lt (show c + 1 < 0x100000000 by omega), ih (c + 1) (by omega) (by omega) hlt']
        constructor
        · rintro (rfl | ⟨k, hk, hr⟩)
          · exact ⟨c, le_rfl, hle, hlt, rfl⟩
          · exact ⟨k, by omega, hr⟩
        · rintro ⟨k, hck, hkn, hk, rfl⟩
          by_cases hkc : k = c
          · exact Or.inl (by rw [hkc])
          · exact Or.inr ⟨k, by omega, hkn, hk, rfl⟩
    · have hend : c = num + 1 := by omega
      simp only [hle, ↓reduceIte, List.not_mem_nil, false_iff]
      rintro ⟨k, _, _, _⟩
      omega

/-- At the largest request too the loop goes on as long as it has not counted enough. -/
theorem mem_probeLoop_of_lt (s : Pmm) {num start k : Nat} (hnum : num ≤ 0xFFFFFFFF) (hk : k ≤ num)
    (hlt : freeProbes s start k < num) (fuel c : Nat) (hc : c ≤ k) (hf : k < fuel + c) :
    (start + k) % 0x100000000 ∈ (probeLoop s num start fuel c (freeProbes s start c)).2 := by
  induction fuel generalizing c with
  | zero => omega
  | succ fuel ih =>
    have hmono := freeProbes_mono s start hc
    rw [probeLoop]
    simp only [show c ≤ num by omega, ↓reduceIte,
      freeProbes_step s hnum (show freeProbes s start c < num by omega)]
    by_cases hkc : k = c
    · subst hkc
      split <;> simp
    · have hmono' := freeProbes_mono s start (show c + 1 ≤ k by omega)
      have hne : freeProbes s start (c + 1) ≠ num := by omega
      simp only [hne, ↓reduceIte, List.mem_cons]
      rw [Nat.mod_eq_of_lt (show c + 1 < 0x100000000 by omega)]
      exact Or.inr (ih (c + 1) (by omega) (by omega))

def probe (s : Pmm) (num b : Nat) : Bool × List Nat :=
  probeLoop s num (probeStart b) probeFuel 0 0

def candidate (s : Pmm) (num b : Nat) : Bool := !checkBlock s b && (probe s num b).1

theorem checkBlock_word (s : Pmm) {i j : Nat} (hj : j < 32) :
    (s.mem (s.slot i) &&& 1#32 <<< j = 0#32) ↔ checkBlock s (32 * i + j) = false := by
  rw [and_bit_eq_zero _ hj, checkBlock_eq]
  have hd : (32 * i + j) / 32 = i := by omega
  have hm : (32 * i + j) % 32 = j := by omega
  rw [hd, hm]

theorem probe_word (s : Pmm) (num : Nat) {i j : Nat} (hj : j < 32) :
    probeLoop s num ((i * 32 + 2 ^ j) % 0x100000000) probeFuel 0 0 = probe s num (32 * i + j) := by
  have hd : (32 * i + j) / 32 = i := by omega
  have hm : (32 * i + j) % 32 = j := by omega
  rw [probe, probeStart, hd, hm]

theorem scanBits_fst (s : Pmm) (num i k j : Nat) (h : j + k = 32) :
    (scanBits s num i k j).1 = (List.range' (32 * i + j) k).find? (candidate s num) := by
  induction k generalizing j with
  | zero => rfl
  | succ k ih =>
    have hj : j < 32 := by omega
    rw [scanBits, List.range'_succ]
    by_cases hfree : checkBlock s (32 * i + j) = false
    · simp only [(checkBlock_word s hj).mpr hfree, ↓reduceIte, probe_word s num hj]
      by_cases hp : (probe s num (32 * i + j)).1 = true
      · rw [List.find?_cons_of_pos (by simp [candidate, hfree, hp])]
        simp [hp, Nat.mul_comm i 32]
      · rw [List.find?_cons_of_neg (by simp [candidate, hp])]
        simp only [hp, Bool.false_eq_true, ↓reduceIte]
        exact ih (j + 1) (by omega)
    · simp only [(checkBlock_word s hj).not.mpr hfree, ↓reduceIte]
      rw [List.find?_cons_of_neg (by simp [candidate, hfree])]
      exact ih (j + 1) (by omega)

theorem checkBlock_full (s : Pmm) {i b : Nat} (h : s.mem (s.slot i) = 0xFFFFFFFF#32)
    (hb : b / 32 = i) : checkBlock s b = true := by
  have hall : ∀ j < 32, (0xFFFFFFFF#32).getLsbD j = true := by decide
  rw [checkBlock_eq, hb, h]
  exact hall _ (Nat.mod_lt _ (by decide))

theorem scanWords_fst (s : Pmm) (num k i : Nat) :
    (scanWords s num k i).1 = (List.range' (32 * i) (32 * k)).find? (candidate s num) := by
  induction k generalizing i with
  | zero => rfl
  | succ k ih =>
    have hsplit : List.range' (32 * i) (32 * (k + 1)) =
        List.range' (32 * i) 32 ++ List.range' (32 * (i + 1)) (32 * k) := by
      rw [show 32 * (k + 1) = 32 + 32 * k by omega, show 32 * (i + 1) = 32 * i + 32 by omega,
        List.range'_append_1]
    rw [scanWords, hsplit, List.find?_append, ← ih (i + 1)]
    by_cases hfull : s.mem (s.slot i) = 0xFFFFFFFF#32
    · have hnone : (List.range' (32 * i) 32).find? (candidate s num) = none := by
        rw [List.find?_eq_none]
        intro b hb
        rw [List.mem_range'_1] at hb
        simp [candidate, checkBlock_full s hfull (show b / 32 = i by omega)]
      simp [hfull, hnone]
    · have hbits := scanBits_fst s num i 32 0 (by decide)
      rw [Nat.add_zero] at hbits
      simp only [ne_eq, hfull, not_false_eq_true, ↓reduceIte, hbits]
      cases (List.range' (32 * i) 32).find? (candidate s num) <;> rfl

/-- `b` is the block the search settles on. -/
def FirstCandidate (s : Pmm) (num b : Nat) : Prop :=
  b < 32 * (s.maxBlocks / 32) ∧ candidate s num b = true ∧ ∀ c < b, candidate s num c = false

theorem findFirstFreeBlock_eq (s : Pmm) {num b : Nat} (hn : 0 < num) (hb : FirstCandidate s num b) :
    (findFirstFreeBlock s num).1 = b := by
  obtain ⟨hlt, hcand, hmin⟩ := hb
  have hfind : (scanWords s num (s.maxBlocks / 32) 0).1 = some b := by
    rw [scanWords_fst, List.find?_range'_eq_some]
    refine ⟨hcand, List.mem_range'_1.mpr (by omega), ?_⟩
    intro c _ hc
    simp [hmin c hc]
  simp [findFirstFreeBlock, Nat.ne_of_gt hn, hfind]

theorem findFirstFreeBlock_cases (s : Pmm) {num : Nat} (hn : 0 < num) :
    ((findFirstFreeBlock s num).1 = 0x100000000 ∧
      ∀ b < 32 * (s.maxBlocks / 32), candidate s num b = false) ∨
    FirstCandidate s num (findFirstFreeBlock s num).1 := by
  cases hr : (scanWords s num (s.maxBlocks / 32) 0).1 with
  | none =>
    left
    refine ⟨by simp [findFirstFreeBlock, Nat.ne_of_gt hn, hr], ?_⟩
    rw [scanWords_fst, List.find?_range'_eq_none] at hr
    intro b hb
    simpa using hr b (by omega) (by omega)
  | some b =>
    right
    rw [scanWords_fst, List.find?_range'_eq_some] at hr
    obtain ⟨hcand, hmem, hmin⟩ := hr
    rw [List.mem_range'_1] at hmem
    have hb : FirstCandidate s num b :=
      ⟨by omega, hcand, fun c hc => by simpa using hmin c (by omega) hc⟩
    rw [findFirstFreeBlock_eq s hn hb]
    exact hb

theorem candidate_iff (s : Pmm) {num b : Nat} (hn : 0 < num) (hnum : num < 0xFFFFFFFF) :
    candidate s num b = true ↔
      checkBlock s b = false ∧ num ≤ freeProbes s (probeStart b) (num + 1) := by
  have hfst := probeLoop_fst s (probeStart b) hnum probeFuel 0 (by omega)
    (by unfold probeFuel; omega) (by simpa [freeProbes] using hn)
  have hprobe : (probe s num b).1 = decide (num ≤ freeProbes s (probeStart b) (num + 1)) := by
    simpa [probe, freeProbes] using hfst
  simp [candidate, hprobe]

theorem mem_probe_snd (s : Pmm) {num b : Nat} (hn : 0 < num) (hnum : num < 0xFFFFFFFF) (x : Nat) :
    x ∈ (probe s num b).2 ↔ ∃ k ≤ num, freeProbes s (probeStart b) k < num ∧
      x = (probeStart b + k) % 0x100000000 := by
  have hsnd := mem_probeLoop_snd s (probeStart b) hnum probeFuel 0 (by omega)
    (by unfold probeFuel; omega) (by simpa [freeProbes] using hn) x
  simpa [probe, freeProbes] using hsnd

theorem mem_probe_of_lt (s : Pmm) {num b k : Nat} (hnum : num ≤ 0xFFFFFFFF) (hk : k ≤ num)
    (hlt : freeProbes s (probeStart b) k < num) :
    (probeStart b + k) % 0x100000000 ∈ (probe s num b).2 := by
  have hmem := mem_probeLoop_of_lt s hnum hk hlt probeFuel 0 (by omega)
    (by unfold probeFuel; omega)
  simpa [probe, freeProbes] using hmem

/-- Blocks from `lo` up to `b` that the search tries before it settles: `b` is free
and nothing from `lo` on below `b` is a candidate. -/
def Tried (s : Pmm) (num lo b : Nat) : Prop :=
  lo ≤ b ∧ checkBlock s b = false ∧ ∀ c, lo ≤ c → c < b → candidate s num c = false

theorem tried_succ {s : Pmm} {num lo b : Nat} :
    Tried s num lo b ↔ (b = lo ∧ checkBlock s lo = false) ∨
      (candidate s num lo = false ∧ Tried s num (lo + 1) b) := by
  constructor
  · rintro ⟨hlo, hfree, hmin⟩
    by_cases hb : b = lo
    · exact Or.inl ⟨hb, hb ▸ hfree⟩
    · exact Or.inr ⟨hmin lo le_rfl (by omega), by omega, hfree, fun c hc => hmin c (by omega)⟩
  · rintro (⟨rfl, hfree⟩ | ⟨hlo, hle, hfree, hmin⟩)
    · exact ⟨le_rfl, hfree, fun c h1 h2 => by omega⟩
    · refine ⟨by omega, hfree, fun c h1 h2 => ?_⟩
      by_cases hc : c = lo
      · exact hc ▸ hlo
      · exact hmin c (by omega) h2

theorem mem_scanBits_snd (s : Pmm) (num i k j : Nat) (h : j + k = 32) (x : Nat) :
    x ∈ (scanBits s num i k j).2 ↔
      ∃ b < 32 * i + 32, Tried s num (32 * i + j) b ∧ x ∈ (probe s num b).2 := by
  induction k generalizing j with
  | zero =>
    simp only [scanBits, List.not_mem_nil, false_iff]
    rintro ⟨b, hb, ⟨hle, _⟩, _⟩
    omega
  | succ k ih =>
    have hj : j < 32 := by omega
    rw [scanBits]
    by_cases hfree : checkBlock s (32 * i + j) = false
    · simp only [(checkBlock_word s hj).mpr hfree, ↓reduceIte, probe_word s num hj]
      by_cases hp : (probe s num (32 * i + j)).1 = true
      · have hcand : candidate s num (32 * i + j) = true := by simp [candidate, hfree, hp]
        simp only [hp, ↓reduceIte]
        constructor
        · exact fun hx => ⟨_, by omega, tried_succ.mpr (Or.inl ⟨rfl, hfree⟩), hx⟩
        · rintro ⟨b, _, ht, hx⟩
          rcases tried_succ.mp ht with ⟨rfl, _⟩ | ⟨hno, _⟩
          · exact hx
          · simp [hcand] at hno
      · have hcand : candidate s num (32 * i + j) = false := by simp [candidate, hp]
        simp only [hp, Bool.false_eq_true, ↓reduceIte, List.mem_append, ih (j + 1) (by omega)]
        constructor
        · rintro (hx | ⟨b, hb, ht, hx⟩)
          · exact ⟨_, by omega, tried_succ.mpr (Or.inl ⟨rfl, hfree⟩), hx⟩
          · exact ⟨b, hb, tried_succ.mpr (Or.inr ⟨hcand, ht⟩), hx⟩
        · rintro ⟨b, hb, ht, hx⟩
          rcases tried_succ.mp ht with ⟨rfl, _⟩ | ⟨_, ht⟩
          · exact Or.inl hx
          · exact Or.inr ⟨b, hb, ht, hx⟩
    · have hcand : candidate s num (32 * i + j) = false := by simp [candidate, hfree]
      simp only [(checkBlock_word s hj).not.mpr hfree, ↓reduceIte, ih (j + 1) (by omega)]
      refine exists_congr fun b => and_congr_right fun _ => and_congr_left fun _ => ?_
      constructor
      · exact fun ht => tried_succ.mpr (Or.inr ⟨hcand, ht⟩)
      · intro ht
        rcases tried_succ.mp ht with ⟨_, hno⟩ | ⟨_, ht⟩
        · exact absurd hno hfree
        · exact ht

theorem Tried.of_full {s : Pmm} {num i b : Nat} (hfull : s.mem (s.slot i) = 0xFFFFFFFF#32) :
    Tried s num (32 * i) b ↔ Tried s num (32 * (i + 1)) b := by
  have hused : ∀ c, 32 * i ≤ c → c < 32 * (i + 1) → checkBlock s c = true :=
    fun c h1 h2 => checkBlock_full s hfull (by omega)
  constructor
  · rintro ⟨hle, hfree, hmin⟩
    refine ⟨?_, hfree, fun c hc => hmin c (by omega)⟩
    by_contra hlt
    simp [hused b hle (by omega)] at hfree
  · rintro ⟨hle, hfree, hmin⟩
    refine ⟨by omega, hfree, fun c h1 h2 => ?_⟩
    by_cases hc : c < 32 * (i + 1)
    · simp [candidate, hused c h1 hc]
    · exact hmin c (by omega) h2

theorem Tried.of_none {s : Pmm} {num i b : Nat} (hb : 32 * (i + 1) ≤ b)
    (hnone : ∀ c, 32 * i ≤ c → c < 32 * (i + 1) → candidate s num c = false) :
    Tried s num (32 * i) b ↔ Tried s num (32 * (i + 1)) b := by
  constructor
  · rintro ⟨_, hfree, hmin⟩
    exact ⟨hb, hfree, fun c hc => hmin c (by omega)⟩
  · rintro ⟨_, hfree, hmin⟩
    refine ⟨by omega, hfree, fun c h1 h2 => ?_⟩
    by_cases hc : c < 32 * (i + 1)
    · exact hnone c h1 hc
    · exact hmin c (by omega) h2

theorem mem_scanWords_snd (s : Pmm) (num k i x : Nat) :
    x ∈ (scanWords s num k i).2 ↔
      ∃ b < 32 * (i + k), Tried s num (32 * i) b ∧ x ∈ (probe s num b).2 := by
  induction k generalizing i with
  | zero =>
    simp only [scanWords, List.not_mem_nil, false_iff]
    rintro ⟨b, hb, ⟨hle, _⟩, _⟩
    omega
  | succ k ih =>
    have hk : i + (k + 1) = i + 1 + k := by omega
    rw [scanWords]
    by_cases hfull : s.mem (s.slot i) = 0xFFFFFFFF#32
    · simp only [ne_eq, hfull, not_true_eq_false, ↓reduceIte, ih (i + 1), Tried.of_full hfull, hk]
    · simp only [ne_eq, hfull, not_false_eq_true, ↓reduceIte]
      have hbits := scanBits_fst s num i 32 0 (by decide)
      have hlog := mem_scanBits_snd s num i 32 0 (by decide) x
      rw [Nat.add_zero] at hbits hlog
      cases hr : (scanBits s num i 32 0).1 with
      | some b =>
        -- the search stops in this word: nothing past it is tried
        rw [hbits, List.find?_range'_eq_some] at hr
        obtain ⟨hcand, hmem, _⟩ := hr
        rw [List.mem_range'_1] at hmem
        simp only [hlog]
        constructor
        · rintro ⟨c, hc, ht, hx⟩
          exact ⟨c, by omega, ht, hx⟩
        · rintro ⟨c, _, ht, hx⟩
          refine ⟨c, ?_, ht, hx⟩
          by_contra hge
          have hcb := ht.2.2 b hmem.1 (by omega)
          simp [hcand] at hcb
      | none =>
        rw [hbits, List.find?_range'_eq_none] at hr
        have hnone : ∀ c, 32 * i ≤ c → c < 32 * (i + 1) → candidate s num c = false :=
          fun c h1 h2 => by simpa using hr c h1 (by omega)
        simp only [List.mem_append, hlog, ih (i + 1), hk]
        constructor
        · rintro (⟨b, hb, ht, hx⟩ | ⟨b, hb, ht, hx⟩)
          · exact ⟨b, by omega, ht, hx⟩
          · exact ⟨b, hb, (Tried.of_none ht.1 hnone).mpr ht, hx⟩
        · rintro ⟨b, hb, ht, hx⟩
          by_cases hlt : b < 32 * i + 32
          · exact Or.inl ⟨b, hlt, ht, hx⟩
          · exact Or.inr ⟨b, hb, (Tried.of_none (by omega) hnone).mp ht, hx⟩

theorem mem_findFirstFreeBlock_snd (s : Pmm) {num : Nat} (hn : 0 < num) (x : Nat) :
    x ∈ (findFirstFreeBlock s num).2 ↔
      ∃ b < 32 * (s.maxBlocks / 32), Tried s num 0 b ∧ x ∈ (probe s num b).2 := by
  have hw := mem_scanWords_snd s num (s.maxBlocks / 32) 0 x
  rw [Nat.zero_add, Nat.mul_zero] at hw
  rw [← hw]
  unfold findFirstFreeBlock
  rw [if_neg (Nat.ne_of_gt hn)]
  dsimp only
  split <;> rfl

end SplongleOS

import SplongleOS.Printk
set_option autoImplicit false

/-! `printk_unsigned` with its buffer and its two loops, and what reading the printed
number back gives. -/

namespace SplongleOS.Stdio

/-- The locals of `printk_unsigned`, `buffer` being the memory from the array on. -/
structure NumberBuffer where
  number : BitVec 64
  buffer : Nat → BitVec 8
  pos : Nat

def NumberBuffer.store (radix : Nat) (s : NumberBuffer) : NumberBuffer :=
  let remainder := s.number % BitVec.ofNat 64 radix
  { number := s.number / BitVec.ofNat 64 radix
    buffer := fun i => if i = s.pos then ch (hexChars.getD remainder.toNat ' ') else s.buffer i
    pos := s.pos + 1 }

/-- The do loop; `none` when it has not ended after that many iterations. -/
def NumberBuffer.fill (radix : Nat) : Nat → NumberBuffer → Option NumberBuffer
  | 0, _ => none
  | fuel + 1, s =>
    if 0#64 < (s.store radix).number then fill radix fuel (s.store radix)
    else some (s.store radix)

def NumberBuffer.emit (buffer : Nat → BitVec 8) : Nat → List (BitVec 8)
  | 0 => []
  | pos + 1 => buffer pos :: emit buffer pos

def digitValue (radix : Nat) (c : BitVec 8) : Option Nat :=
  let v := hexChars.findIdx fun d => ch d = c
  if v < radix ∧ v < hexChars.length then some v else none

def parseDigits (radix : Nat) (str : List (BitVec 8)) : Option Nat :=
  str.foldl (fun acc c => do
    let v ← acc
    let d ← digitValue radix c
    some (radix * v + d)) (some 0)

def parseUnsigned (radix : Nat) (str : List (BitVec 8)) : Option Nat :=
  if str = [] then none else parseDigits radix str

def parseSigned (radix : Nat) (str : List (BitVec 8)) : Option Int :=
  match str with
  | [] => none
  | c :: rest =>
    if c = ch '-' then (parseUnsigned radix rest).map fun v : Nat => -(v : Int)
    else (parseUnsigned radix (c :: rest)).map fun v : Nat => (v : Int)

theorem parseDigits_append (radix : Nat) (str : List (BitVec 8)) (c : BitVec 8) :
    parseDigits radix (str ++ [c]) = (do
      let v ← parseDigits radix str
      let d ← digitValue radix c
      some (radix * v + d)) := by
  simp [parseDigits]

theorem digitValue_ch {radix d : Nat} (hd : d < 16) (hlt : d < radix) :
    digitValue radix (ch d.digitChar) = some d := by
  have hfind : ∀ d < 16, (hexChars.findIdx fun e => ch e = ch d.digitChar) = d := by decide
  simp only [digitValue, hfind d hd]
  simp [hlt, hexChars, hd]

theorem parseDigits_toDigits {radix : Nat} (hlo : 2 ≤ radix) (hhi : radix ≤ 16) (n : Nat) :
    parseDigits radix ((Nat.toDigits radix n).map ch) = some n := by
  induction n using Nat.strongRecOn with
  | ind n ih =>
    by_cases hlt : n < radix
    · rw [Nat.toDigits_of_lt_base hlt]
      simp [parseDigits, digitValue_ch (by omega) hlt]
    · have hmod : n % radix < radix := Nat.mod_lt _ (by omega)
      have hdigit := digitValue_ch (by omega) hmod
      have hdiv : n / radix < n := Nat.div_lt_self (by omega) (by omega)
      rw [Nat.toDigits_of_base_le (by omega) (by omega), List.map_append, List.map_singleton,
        parseDigits_append, ih _ hdiv, hdigit]
      simp [Nat.div_add_mod]

theorem parseUnsigned_toDigits {radix : Nat} (hlo : 2 ≤ radix) (hhi : radix ≤ 16) (n : Nat) :
    parseUnsigned radix ((Nat.toDigits radix n).map ch) = some n := by
  have hne : (Nat.toDigits radix n).map ch ≠ [] := by simp
  rw [parseUnsigned, if_neg hne, parseDigits_toDigits hlo hhi]

theorem head_toDigits {radix : Nat} (hradix : 2 ≤ radix) (n : Nat) :
    ∃ d < radix, ((Nat.toDigits radix n).map ch).head? = some (ch d.digitChar) ∧
      (d = 0 → n = 0) := by
  induction n using Nat.strongRecOn with
  | ind n ih =>
    by_cases hlt : n < radix
    · exact ⟨n, hlt, by simp [Nat.toDigits_of_lt_base hlt], id⟩
    · have hpos : 0 < n / radix := Nat.div_pos (by omega) (by omega)
      have hdiv : n / radix < n := Nat.div_lt_self (by omega) (by omega)
      obtain ⟨d, hd, hhead, hzero⟩ := ih _ hdiv
      refine ⟨d, hd, ?_, by omega⟩
      rw [Nat.toDigits_of_base_le (by omega) (by omega), List.map_append,
        List.head?_append_of_ne_nil _ (by simp)]
      exact hhead

theorem NumberBuffer.emit_congr {b c : Nat → BitVec 8} {pos : Nat} (h : ∀ i < pos, b i = c i) :
    emit b pos = emit c pos := by
  induction pos with
  | zero => rfl
  | succ pos ih =>
    rw [emit, emit, h pos (by omega), ih fun i hi => h i (by omega)]

theorem NumberBuffer.emit_store (radix : Nat) (s : NumberBuffer) :
    emit (s.store radix).buffer (s.store radix).pos
      = ch (hexChars.getD (s.number % BitVec.ofNat 64 radix).toNat ' ')
        :: emit s.buffer s.pos := by
  have hkeep : emit (s.store radix).buffer s.pos = emit s.buffer s.pos :=
    emit_congr fun i hi => if_neg (by omega)
  change (s.store radix).buffer s.pos :: emit (s.store radix).buffer s.pos = _
  rw [hkeep]
  simp [store]

theorem NumberBuffer.number_store {radix : Nat} (hword : radix < 2 ^ 64) (s : NumberBuffer) :
    (s.store radix).number.toNat = s.number.toNat / radix := by
  rw [store, BitVec.toNat_udiv, BitVec.toNat_ofNat, Nat.mod_eq_of_lt hword]

theorem NumberBuffer.more_iff {radix : Nat} (hword : radix < 2 ^ 64) (s : NumberBuffer) :
    0#64 < (s.store radix).number ↔ 0 < s.number.toNat / radix := by
  rw [BitVec.lt_def, number_store hword]
  simp

theorem NumberBuffer.fill_eq {radix size : Nat} (hradix : 1 < radix) (hword : radix < 2 ^ 64)
    (s : NumberBuffer) (hfit : s.number.toNat < radix ^ (size + 1)) :
    ∃ t, s.fill radix (size + 1) = some t ∧
      t.pos = s.pos + (Digits.backward radix (size + 1) s.number.toNat).length ∧
      emit t.buffer t.pos =
        ((Digits.backward radix (size + 1) s.number.toNat).map
          fun d => ch (hexChars.getD d ' ')).reverse ++ emit s.buffer s.pos := by
  induction size generalizing s with
  | zero =>
    have hlt : s.number.toNat < radix := by simpa using hfit
    have hdiv : s.number.toNat / radix = 0 := Nat.div_eq_of_lt hlt
    have hlast : ¬0#64 < (s.store radix).number := by
      rw [more_iff hword, hdiv]
      omega
    refine ⟨s.store radix, by rw [fill, if_neg hlast], ?_, ?_⟩
    · simp [Digits.backward, hdiv, store]
    · rw [emit_store, BitVec.toNat_umod, BitVec.toNat_ofNat, Nat.mod_eq_of_lt hword]
      simp [Digits.backward, hdiv]
  | succ size ih =>
    rw [fill, Digits.backward]
    by_cases hmore : 0 < s.number.toNat / radix
    · have hnext : (s.store radix).number.toNat < radix ^ (size + 1) := by
        rw [number_store hword, Nat.div_lt_iff_lt_mul (by omega), ← Nat.pow_succ]
        exact hfit
      obtain ⟨t, ht, htpos, htemit⟩ := ih (s.store radix) hnext
      rw [number_store hword] at htpos htemit
      refine ⟨t, by rw [if_pos ((more_iff hword s).mpr hmore), ht], ?_, ?_⟩
      · rw [htpos, if_pos hmore, List.length_cons]
        simp only [store]
        omega
      · rw [htemit, emit_store, BitVec.toNat_umod, BitVec.toNat_ofNat, Nat.mod_eq_of_lt hword,
          if_pos hmore]
        simp
    · refine ⟨s.store radix, by rw [if_neg ((more_iff hword s).not.mpr hmore)], ?_, ?_⟩
      · simp [hmore, store]
      · rw [emit_store, BitVec.toNat_umod, BitVec.toNat_ofNat, Nat.mod_eq_of_lt hword]
        simp [hmore]

/-- The loops emit what `printkUnsigned` says and stay inside the 32 characters. -/
theorem NumberBuffer.fill_printkUnsigned {radix : Nat} (hlo : 8 ≤ radix) (hhi : radix ≤ 16)
    (number : BitVec 64) (buffer : Nat → BitVec 8) :
    ∃ t, fill radix 32 ⟨number, buffer, 0⟩ = some t ∧ t.pos ≤ 32 ∧
      emit t.buffer t.pos = printkUnsigned number radix := by
  have hfit : number.toNat < radix ^ (31 + 1) := number_lt_pow number hlo
  obtain ⟨t, ht, hpos, hemit⟩ := fill_eq (by omega) (by omega) ⟨number, buffer, 0⟩ hfit
  refine ⟨t, ht, ?_, ?_⟩
  · have := Digits.length_backward radix (31 + 1) number.toNat
    simp only at hpos
    omega
  · rw [hemit]
    simp [printkUnsigned, emit]

theorem printkUnsigned_leading (number : BitVec 64) {radix : Nat} (hlo : 8 ≤ radix)
    (hhi : radix ≤ 16) (h : (printkUnsigned number radix).head? = some (ch '0')) :
    printkUnsigned number radix = [ch '0'] := by
  rw [printkUnsigned_eq number hlo hhi] at h ⊢
  obtain ⟨d, hd, hhead, hzero⟩ := head_toDigits (show 2 ≤ radix by omega) number.toNat
  have hdigit : ∀ d < 16, ch d.digitChar = ch '0' → d = 0 := by decide
  rw [hhead] at h
  rw [hzero (hdigit d (by omega) (Option.some.inj h)), Nat.toDigits_zero]
  rfl

theorem parseSigned_numeral (x : Int) : parseSigned 10 (numeral 10 x) = some x := by
  have hparse := parseUnsigned_toDigits (show 2 ≤ 10 by decide) (by decide) x.natAbs
  obtain ⟨d, hd, hhead, -⟩ := head_toDigits (show 2 ≤ 10 by decide) x.natAbs
  have hminus : ∀ d < 10, ch d.digitChar ≠ ch '-' := by decide
  unfold numeral
  generalize (Nat.toDigits 10 x.natAbs).map ch = out at hparse hhead
  cases out with
  | nil => simp at hhead
  | cons c rest =>
    have hc : c ≠ ch '-' := by
      simp only [List.head?_cons, Option.some.injEq] at hhead
      exact hhead ▸ hminus d hd
    by_cases hneg : x < 0
    · have habs : -(x.natAbs : Int) = x := by omega
      rw [if_pos hneg, List.singleton_append, parseSigned, if_pos rfl, hparse, Option.map_some, habs]
    · have habs : (x.natAbs : Int) = x := by omega
      rw [if_neg hneg, List.nil_append, parseSigned, if_neg hc, hparse, Option.map_some, habs]

/-- For every number of 64 bits: unsigned in a radix `printk` uses, signed in decimal. -/
theorem numbers_print_exactly (number : BitVec 64) (radix : Nat)
    (hradix : radix = 8 ∨ radix = 10 ∨ radix = 16) (buffer : Nat → BitVec 8) :
    (∃ t, NumberBuffer.fill radix 32 ⟨number, buffer, 0⟩ = some t ∧ t.pos ≤ 32 ∧
      NumberBuffer.emit t.buffer t.pos = printkUnsigned number radix) ∧
    ((printkUnsigned number radix).head? = some (ch '0') →
      printkUnsigned number radix = [ch '0']) ∧
    parseUnsigned radix (printkUnsigned number radix) = some number.toNat ∧
    printkSigned number 10 = numeral 10 number.toInt ∧
    parseSigned 10 (printkSigned number 10) = some number.toInt := by
  have hlo : 8 ≤ radix := by omega
  have hhi : radix ≤ 16 := by omega
  have hsigned := printkSigned_numeral number (show 8 ≤ 10 by decide) (by decide)
  refine ⟨NumberBuffer.fill_printkUnsigned hlo hhi number buffer,
    printkUnsigned_leading number hlo hhi, ?_, hsigned, ?_⟩
  · rw [printkUnsigned_eq number hlo hhi, parseUnsigned_toDigits (by omega) hhi]
  · rw [hsigned, parseSigned_numeral]

theorem least_number_prints_exactly :
    (∃ t, NumberBuffer.fill 16 32 ⟨BitVec.intMin 64, fun _ => 0#8, 0⟩ = some t ∧ t.pos ≤ 32 ∧
      NumberBuffer.emit t.buffer t.pos = printkUnsigned (BitVec.intMin 64) 16) ∧
    ((printkUnsigned (BitVec.intMin 64) 16).head? = some (ch '0') →
      printkUnsigned (BitVec.intMin 64) 16 = [ch '0']) ∧
    parseUnsigned 16 (printkUnsigned (BitVec.intMin 64) 16) = some (BitVec.intMin 64).toNat ∧
    printkSigned (BitVec.intMin 64) 10 = numeral 10 (BitVec.intMin 64).toInt ∧
    parseSigned 10 (printkSigned (BitVec.intMin 64) 10) = some (BitVec.intMin 64).toInt :=
  numbers_print_exactly (BitVec.intMin 64) 16 (by decide) fun _ => 0#8

example : printkSigned (BitVec.intMin 64) 10 = "-9223372036854775808".toList.map ch := by decide

end SplongleOS.Stdio

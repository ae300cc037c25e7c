import SplongleOS.Base.Digits
import Mathlib.Data.BitVec
set_option autoImplicit false

/-! `printk`, stdio.c, and the characters it hands to `putc`. The arguments are words of
the stack, `argp` is the one `va_arg` reads next. -/

namespace SplongleOS.Stdio

def ch (c : Char) : BitVec 8 := BitVec.ofNat 8 c.toNat

def cString (str : List (BitVec 8)) : List (BitVec 8) := str.takeWhile (· ≠ 0#8)

def hexChars : List Char :=
  ['0', '1', '2', '3', '4', '5', '6', '7', '8', '9', 'a', 'b', 'c', 'd', 'e', 'f']

/-- `char buffer[32]` is filled from the last digit on and emitted backward. -/
def printkUnsigned (number : BitVec 64) (radix : Nat) : List (BitVec 8) :=
  ((Digits.backward radix 32 number.toNat).map fun d => ch (hexChars.getD d ' ')).reverse

def printkSigned (number : BitVec 64) (radix : Nat) : List (BitVec 8) :=
  if number.slt 0#64 then ch '-' :: printkUnsigned (-number) radix
  else printkUnsigned number radix

def stateNormal : Nat := 0
def stateLength : Nat := 1
def stateLengthShort : Nat := 2
def stateLengthLong : Nat := 3
def stateSpec : Nat := 4

def lengthDefault : Nat := 0
def lengthShortShort : Nat := 1
def lengthShort : Nat := 2
def lengthLong : Nat := 3
def lengthLongLong : Nat := 4

/-- The variables of `printk`; `out` collects what `putc` gets. -/
structure Printk where
  state : Nat
  length : Nat
  radix : Nat
  sign : Bool
  number : Bool
  argp : Nat
  out : List (BitVec 8)

/-- The variables at the start of `printk`, and after every conversion. -/
def Printk.start (argp : Nat) (out : List (BitVec 8)) : Printk :=
  ⟨stateNormal, lengthDefault, 10, false, false, argp, out⟩

section
variable (stack : Nat → BitVec 32) (strings : BitVec 32 → List (BitVec 8))

def Printk.word (s : Printk) : BitVec 32 := stack s.argp

def Printk.longWord (s : Printk) : BitVec 64 := stack (s.argp + 1) ++ stack s.argp

def Printk.printNumber (s : Printk) : Printk :=
  if s.sign then
    if s.length = lengthShortShort ∨ s.length = lengthShort ∨ s.length = lengthDefault then
      { s with
        argp := s.argp + 1
        out := s.out ++ printkSigned ((s.word stack).signExtend 64) s.radix }
    else if s.length = lengthLong then
      { s with
        argp := s.argp + 1
        out := s.out ++ printkSigned ((s.word stack).signExtend 64) s.radix }
    else if s.length = lengthLongLong then
      { s with argp := s.argp + 2, out := s.out ++ printkSigned (s.longWord stack) s.radix }
    else s
  else
    if s.length = lengthShortShort ∨ s.length = lengthShort ∨ s.length = lengthDefault then
      { s with
        argp := s.argp + 1
        out := s.out ++ printkUnsigned ((s.word stack).setWidth 64) s.radix }
    else if s.length = lengthLong then
      { s with
        argp := s.argp + 1
        out := s.out ++ printkUnsigned ((s.word stack).setWidth 64) s.radix }
    else if s.length = lengthLongLong then
      { s with argp := s.argp + 2, out := s.out ++ printkUnsigned (s.longWord stack) s.radix }
    else s

def Printk.specifier (s : Printk) (c : BitVec 8) : Printk :=
  if c = ch 'c' then
    { s with argp := s.argp + 1, out := s.out ++ [(s.word stack).setWidth 8] }
  else if c = ch 's' then
    { s with argp := s.argp + 1, out := s.out ++ cString (strings (s.word stack)) }
  else if c = ch '%' then { s with out := s.out ++ [ch '%'] }
  else if c = ch 'd' ∨ c = ch 'i' then { s with radix := 10, sign := true, number := true }
  else if c = ch 'u' then { s with radix := 10, sign := false, number := true }
  else if c = ch 'X' ∨ c = ch 'x' ∨ c = ch 'p' then
    { s with radix := 16, sign := false, number := true }
  else if c = ch 'o' then { s with radix := 8, sign := false, number := true }
  else s

/-- From the label PRINTF_STATE_SPEC_ on. -/
def Printk.spec (s : Printk) (c : BitVec 8) : Printk :=
  let s := s.specifier stack strings c
  let s := if s.number then s.printNumber stack else s
  { s with
    state := stateNormal
    length := lengthDefault
    radix := 10
    sign := false
    number := false }

/-- One iteration. Two of the case labels are lengths where states are meant. -/
def Printk.step (s : Printk) (c : BitVec 8) : Printk :=
  if s.state = stateNormal then
    if c = ch '%' then { s with state := stateLength } else { s with out := s.out ++ [c] }
  else if s.state = stateLength then
    if c = ch 'h' then { s with length := lengthShort, state := stateLengthShort }
    else if c = ch 'l' then { s with length := lengthLong, state := stateLengthLong }
    else s.spec stack strings c
  else if s.state = lengthShort then
    if c = ch 'h' then { s with length := lengthShortShort, state := stateSpec }
    else s.spec stack strings c
  else if s.state = lengthLong then
    if c = ch 'l' then { s with length := lengthLongLong, state := stateSpec }
    else s.spec stack strings c
  else if s.state = stateSpec then s.spec stack strings c
  else s

def printk (fmt : List (BitVec 8)) : Printk :=
  (cString fmt).foldl (Printk.step stack strings) (.start 0 [])

end

inductive Modifier where
  | none
  | hh
  | h
  | l
  | ll
  deriving DecidableEq, Repr

def Modifier.width : Modifier → Nat
  | .none | .l => 32
  | .hh => 8
  | .h => 16
  | .ll => 64

/-- What a format string asks for, piece by piece. `unfinished` is a conversion that the
end of the string cuts off. -/
inductive Item where
  | text (c : BitVec 8)
  | percent
  | char
  | string
  | number (modifier : Modifier) (signed : Bool) (radix : Nat)
  | unknown
  | unfinished
  deriving DecidableEq, Repr

/-- The modifier matters to the number conversions only. -/
def conversion (modifier : Modifier) (c : BitVec 8) : Item :=
  if c = ch 'c' then .char
  else if c = ch 's' then .string
  else if c = ch '%' then .percent
  else if c = ch 'd' ∨ c = ch 'i' then .number modifier true 10
  else if c = ch 'u' then .number modifier false 10
  else if c = ch 'X' ∨ c = ch 'x' ∨ c = ch 'p' then .number modifier false 16
  else if c = ch 'o' then .number modifier false 8
  else .unknown

def items : List (BitVec 8) → List Item
  | [] => []
  | c :: rest =>
    if c = ch '%' then
      match rest with
      | [] => [.unfinished]
      | d :: rest =>
        if d = ch 'h' then
          match rest with
          | [] => [.unfinished]
          | e :: rest =>
            if e = ch 'h' then
              match rest with
              | [] => [.unfinished]
              | f :: rest => conversion .hh f :: items rest
            else conversion .h e :: items rest
        else if d = ch 'l' then
          match rest with
          | [] => [.unfinished]
          | e :: rest =>
            if e = ch 'l' then
              match rest with
              | [] => [.unfinished]
              | f :: rest => conversion .ll f :: items rest
            else conversion .l e :: items rest
        else conversion .none d :: items rest
    else .text c :: items rest

inductive Arg where
  | int (v : BitVec 32)
  | pointer (p : BitVec 32)
  | number (modifier : Modifier) (signed : Bool) (v : BitVec modifier.width)

def exactValue {w : Nat} (signed : Bool) (v : BitVec w) : Int :=
  if signed then v.toInt else v.toNat

def numeral (radix : Nat) (x : Int) : List (BitVec 8) :=
  (if x < 0 then [ch '-'] else []) ++ (Nat.toDigits radix x.natAbs).map ch

def Arg.words : Arg → List (BitVec 32)
  | .int v => [v]
  | .pointer p => [p]
  | .number .ll _ v => [v.setWidth 32, (v >>> 32).setWidth 32]
  | .number _ signed v => [if signed then v.signExtend 32 else v.setWidth 32]

/-- What one piece takes from the arguments and prints. -/
inductive Item.Prints (strings : BitVec 32 → List (BitVec 8)) :
    Item → List Arg → List (BitVec 8) → Prop where
  | text (c : BitVec 8) : Prints strings (.text c) [] [c]
  | percent : Prints strings .percent [] [ch '%']
  | char (v : BitVec 32) : Prints strings .char [.int v] [v.setWidth 8]
  | string (p : BitVec 32) : Prints strings .string [.pointer p] (cString (strings p))
  | number {m : Modifier} (signed : Bool) (radix : Nat) (v : BitVec m.width) :
      Prints strings (.number m signed radix) [.number m signed v]
        (numeral radix (exactValue signed v))
  | unknown : Prints strings .unknown [] []
  | unfinished : Prints strings .unfinished [] []

inductive Formats (strings : BitVec 32 → List (BitVec 8)) :
    List Item → List Arg → List (BitVec 8) → Prop where
  | nil : Formats strings [] [] []
  | cons {i : Item} {is : List Item} {as bs : List Arg} {out rest : List (BitVec 8)} :
      i.Prints strings as out → Formats strings is bs rest →
      Formats strings (i :: is) (as ++ bs) (out ++ rest)

def Laid (stack : Nat → BitVec 32) : Nat → List (BitVec 32) → Prop
  | _, [] => True
  | argp, w :: ws => stack argp = w ∧ Laid stack (argp + 1) ws

theorem ch_hexChars : ∀ d < 16, ch (hexChars.getD d ' ') = ch d.digitChar := by decide

theorem number_lt_pow (number : BitVec 64) {radix : Nat} (hlo : 8 ≤ radix) :
    number.toNat < radix ^ (31 + 1) := by
  calc number.toNat < 2 ^ 64 := number.isLt
    _ ≤ 8 ^ (31 + 1) := by decide
    _ ≤ radix ^ (31 + 1) := Nat.pow_le_pow_left hlo _

theorem printkUnsigned_eq (number : BitVec 64) {radix : Nat} (hlo : 8 ≤ radix) (hhi : radix ≤ 16) :
    printkUnsigned number radix = (Nat.toDigits radix number.toNat).map ch := by
  have hfit := number_lt_pow number hlo
  rw [← Digits.backward_toDigits (by omega) hfit, printkUnsigned, List.map_map, ← List.map_reverse]
  refine List.map_congr_left fun d hd => ?_
  have hlt := Digits.lt_of_mem_backward (by omega) (List.mem_reverse.mp hd)
  exact ch_hexChars d (by omega)

theorem printkUnsigned_numeral (number : BitVec 64) {radix : Nat} (hlo : 8 ≤ radix)
    (hhi : radix ≤ 16) : printkUnsigned number radix = numeral radix number.toNat := by
  have hpos : ¬((number.toNat : Int) < 0) := by omega
  simp [printkUnsigned_eq number hlo hhi, numeral, hpos]

/-- Also for the least number, whose negation is itself. -/
theorem printkSigned_numeral (number : BitVec 64) {radix : Nat} (hlo : 8 ≤ radix)
    (hhi : radix ≤ 16) : printkSigned number radix = numeral radix number.toInt := by
  have hsign : number.slt 0#64 = decide (number.toInt < 0) := by simp [BitVec.slt]
  have hcases := BitVec.toInt_eq_toNat_cond number
  have hlt := number.isLt
  unfold printkSigned numeral
  rw [hsign]
  by_cases hneg : number.toInt < 0
  · have habs : (-number).toNat = number.toInt.natAbs := by
      rw [BitVec.toNat_neg]
      split at hcases <;> omega
    simp [hneg, printkUnsigned_eq _ hlo hhi, habs]
  · have habs : number.toNat = number.toInt.natAbs := by
      split at hcases <;> omega
    simp [hneg, printkUnsigned_eq _ hlo hhi, habs]

def Modifier.length : Modifier → Nat
  | .none => lengthDefault
  | .hh => lengthShortShort
  | .h => lengthShort
  | .l => lengthLong
  | .ll => lengthLongLong

section
variable {stack : Nat → BitVec 32} {strings : BitVec 32 → List (BitVec 8)}

theorem laid_append (argp : Nat) (ws vs : List (BitVec 32)) :
    Laid stack argp (ws ++ vs) ↔ Laid stack argp ws ∧ Laid stack (argp + ws.length) vs := by
  induction ws generalizing argp with
  | nil => simp [Laid]
  | cons w ws ih =>
    simp [Laid, ih, and_assoc, Nat.add_assoc, Nat.add_comm 1]

theorem exactValue_promoted {w : Nat} {signed : Bool} {v : BitVec w} {arg : BitVec 32}
    (h : w ≤ 32) (harg : arg = if signed then v.signExtend 32 else v.setWidth 32) :
    exactValue signed (if signed then arg.signExtend 64 else arg.setWidth 64)
      = exactValue signed v := by
  cases signed with
  | true =>
    have hwide : (arg.signExtend 64).toInt = v.toInt := by
      rw [harg, if_pos rfl, BitVec.toInt_signExtend_of_le (by omega),
        BitVec.toInt_signExtend_of_le h]
    simpa [exactValue] using hwide
  | false =>
    have hwide : (arg.setWidth 64).toNat = v.toNat := by
      rw [harg, if_neg (by simp), BitVec.toNat_setWidth_of_le (by omega),
        BitVec.toNat_setWidth_of_le h]
    simp only [exactValue, Bool.false_eq_true, if_false, hwide]

theorem append_words (v : BitVec 64) : (v >>> 32).setWidth 32 ++ v.setWidth 32 = v := by
  refine BitVec.eq_of_getLsbD_eq fun i hi => ?_
  rw [BitVec.getLsbD_append]
  by_cases hlow : i < 32
  · simp [hlow]
  · have hsum : 32 + (i - 32) = i := by omega
    simp [hlow, hsum]
    omega

def Printk.value (stack : Nat → BitVec 32) (s : Printk) (m : Modifier) : BitVec 64 :=
  if m = .ll then s.longWord stack
  else if s.sign then (s.word stack).signExtend 64
  else (s.word stack).setWidth 64

theorem Printk.exactValue_value {s : Printk} {m : Modifier} {signed : Bool} {v : BitVec m.width}
    (hsign : s.sign = signed) (hlaid : Laid stack s.argp (Arg.number m signed v).words) :
    exactValue signed (s.value stack m) = exactValue signed v := by
  subst hsign
  cases m with
  | ll =>
    have hword : s.longWord stack = v := by
      rw [longWord, hlaid.1, hlaid.2.1]
      exact append_words v
    rw [value, if_pos rfl, hword]
    rfl
  | none | hh | h | l => exact exactValue_promoted (by decide) hlaid.1

variable (stack) in
/-- The cases of the two switches are the same one up to what `va_arg` reads. -/
theorem Printk.printNumber_cases (s : Printk) {m : Modifier} (hlength : s.length = m.length) :
    s.printNumber stack = { s with
      argp := s.argp + if m = .ll then 2 else 1
      out := s.out ++ if s.sign then printkSigned (s.value stack m) s.radix
        else printkUnsigned (s.value stack m) s.radix } := by
  unfold printNumber value
  rw [hlength]
  cases s.sign <;> cases m <;> rfl

variable (stack) in
theorem Printk.printNumber_eq (s : Printk) {m : Modifier} (hlength : s.length = m.length)
    (hlo : 8 ≤ s.radix) (hhi : s.radix ≤ 16) :
    s.printNumber stack = { s with
      argp := s.argp + if m = .ll then 2 else 1
      out := s.out ++ numeral s.radix (exactValue s.sign (s.value stack m)) } := by
  rw [printNumber_cases stack s hlength, printkSigned_numeral _ hlo hhi,
    printkUnsigned_numeral _ hlo hhi]
  cases hs : s.sign <;> simp [exactValue]

theorem Arg.length_words (m : Modifier) (signed : Bool) (v : BitVec m.width) :
    (Arg.number m signed v).words.length = if m = .ll then 2 else 1 := by
  cases m <;> rfl

inductive Printk.Specified (stack : Nat → BitVec 32) (strings : BitVec 32 → List (BitVec 8))
    (s : Printk) (m : Modifier) : Item → Printk → Prop where
  | char : Specified stack strings s m .char
      { s with argp := s.argp + 1, out := s.out ++ [(s.word stack).setWidth 8] }
  | string : Specified stack strings s m .string
      { s with argp := s.argp + 1, out := s.out ++ cString (strings (s.word stack)) }
  | percent : Specified stack strings s m .percent { s with out := s.out ++ [ch '%'] }
  | number (signed : Bool) {radix : Nat} : 8 ≤ radix → radix ≤ 16 →
      Specified stack strings s m (.number m signed radix)
        { s with radix := radix, sign := signed, number := true }
  | unknown : Specified stack strings s m .unknown s

variable (stack strings) in
theorem Printk.specified (s : Printk) (m : Modifier) (c : BitVec 8) :
    Specified stack strings s m (conversion m c) (s.specifier stack strings c) := by
  unfold conversion specifier
  by_cases hc : c = ch 'c'
  · rw [if_pos hc, if_pos hc]
    exact .char
  rw [if_neg hc, if_neg hc]
  by_cases hs : c = ch 's'
  · rw [if_pos hs, if_pos hs]
    exact .string
  rw [if_neg hs, if_neg hs]
  by_cases hp : c = ch '%'
  · rw [if_pos hp, if_pos hp]
    exact .percent
  rw [if_neg hp, if_neg hp]
  by_cases hd : c = ch 'd' ∨ c = ch 'i'
  · rw [if_pos hd, if_pos hd]
    exact .number true (by decide) (by decide)
  rw [if_neg hd, if_neg hd]
  by_cases hu : c = ch 'u'
  · rw [if_pos hu, if_pos hu]
    exact .number false (by decide) (by decide)
  rw [if_neg hu, if_neg hu]
  by_cases hx : c = ch 'X' ∨ c = ch 'x' ∨ c = ch 'p'
  · rw [if_pos hx, if_pos hx]
    exact .number false (by decide) (by decide)
  rw [if_neg hx, if_neg hx]
  by_cases ho : c = ch 'o'
  · rw [if_pos ho, if_pos ho]
    exact .number false (by decide) (by decide)
  rw [if_neg ho, if_neg ho]
  exact .unknown

theorem Printk.spec_eq {s : Printk} {m : Modifier} {c : BitVec 8} {args : List Arg}
    {out : List (BitVec 8)} (hnumber : s.number = false) (hlength : s.length = m.length)
    (hprints : (conversion m c).Prints strings args out)
    (hlaid : Laid stack s.argp (args.flatMap Arg.words)) :
    s.spec stack strings c
      = .start (s.argp + (args.flatMap Arg.words).length) (s.out ++ out) := by
  have hspecified := specified stack strings s m c
  unfold spec
  generalize conversion m c = item at hprints hspecified
  generalize s.specifier stack strings c = t at hspecified
  cases hspecified with
  | char =>
    cases hprints with
    | char v =>
      have hword : s.word stack = v := hlaid.1
      rw [hword]
      simp only [hnumber, Bool.false_eq_true, if_false]
      rfl
  | string =>
    cases hprints with
    | string p =>
      have hword : s.word stack = p := hlaid.1
      rw [hword]
      simp only [hnumber, Bool.false_eq_true, if_false]
      rfl
  | percent =>
    cases hprints with
    | percent =>
      simp only [hnumber, Bool.false_eq_true, if_false]
      rfl
  | unknown =>
    cases hprints with
    | unknown =>
      simp only [hnumber, Bool.false_eq_true, if_false, List.append_nil]
      rfl
  | @number signed radix hlo hhi =>
    cases hprints with
    | number _ _ v =>
      have hwords : [Arg.number m signed v].flatMap Arg.words = (Arg.number m signed v).words := by
        simp
      rw [hwords] at hlaid ⊢
      have hvalue : exactValue signed (value stack { s with radix, sign := signed, number := true } m)
          = exactValue signed v := exactValue_value rfl hlaid
      have hnum :=
        printNumber_eq stack { s with radix, sign := signed, number := true } hlength hlo hhi
      simp only [if_true, hnum, hvalue, Arg.length_words]
      rfl

def Modifier.state : Modifier → Nat
  | .none => stateLength
  | .h => stateLengthShort
  | .l => stateLengthLong
  | .hh | .ll => stateSpec

def Modifier.longer (m : Modifier) (c : BitVec 8) : Option Modifier :=
  match m with
  | .none => if c = ch 'h' then some .h else if c = ch 'l' then some .l else Option.none
  | .h => if c = ch 'h' then some .hh else Option.none
  | .l => if c = ch 'l' then some .ll else Option.none
  | .hh | .ll => Option.none

def Printk.inside (m : Modifier) (argp : Nat) (out : List (BitVec 8)) : Printk :=
  { Printk.start argp out with state := m.state, length := m.length }

theorem Printk.step_text {argp : Nat} {out : List (BitVec 8)} {c : BitVec 8} (h : c ≠ ch '%') :
    (start argp out).step stack strings c = start argp (out ++ [c]) := by
  simp [step, start, h]

theorem Printk.step_begin (argp : Nat) (out : List (BitVec 8)) :
    (start argp out).step stack strings (ch '%') = inside .none argp out := by
  simp [step, start, inside, Modifier.state, Modifier.length]

theorem Printk.step_longer {m k : Modifier} {argp : Nat} {out : List (BitVec 8)} {c : BitVec 8}
    (h : m.longer c = some k) : (inside m argp out).step stack strings c = inside k argp out := by
  have hne : ch 'l' ≠ ch 'h' := by decide
  cases m with
  | hh | ll => cases h
  | none | h | l =>
    simp only [Modifier.longer] at h
    split_ifs at h
    all_goals
      cases h
      simp_all [step, inside, start, Modifier.state, Modifier.length, stateNormal, stateLength,
        stateLengthShort, stateLengthLong, lengthShort, lengthLong]

/-- The case labels of the two lengths are the numbers of the two states. -/
theorem Printk.step_spec {m : Modifier} {argp : Nat} {out : List (BitVec 8)} {c : BitVec 8}
    (h : m.longer c = Option.none) :
    (inside m argp out).step stack strings c = (inside m argp out).spec stack strings c := by
  cases m with
  | hh | ll => rfl
  | none | h | l =>
    simp only [Modifier.longer] at h
    split_ifs at h
    simp_all [step, inside, start, Modifier.state, stateNormal, stateLength, stateLengthShort,
      stateLengthLong, lengthShort, lengthLong]

/-- What is left at the end of a format string. Only a conversion that the end cuts off
leaves something in the other variables. -/
structure Printk.Leaves (final : Printk) (is : List Item) (argp : Nat)
    (out : List (BitVec 8)) : Prop where
  emitted : final.out = out
  consumed : final.argp = argp
  fresh : .unfinished ∉ is → final = start argp out

variable (stack strings) in
/-- From the variables `entry`, the characters `rest` are printed as the pieces `is`. -/
def Printk.Follows (entry : Nat → List (BitVec 8) → Printk) (rest : List (BitVec 8))
    (is : List Item) : Prop :=
  ∀ ⦃args : List Arg⦄ ⦃shown : List (BitVec 8)⦄, Formats strings is args shown →
    ∀ ⦃argp : Nat⦄, Laid stack argp (args.flatMap Arg.words) → ∀ out : List (BitVec 8),
      (rest.foldl (step stack strings) (entry argp out)).Leaves is
        (argp + (args.flatMap Arg.words).length) (out ++ shown)

variable {m k : Modifier} {c : BitVec 8} {rest : List (BitVec 8)} {is : List Item}

theorem Printk.follows_nil : Follows stack strings start [] [] := by
  intro args shown hf argp _ out
  cases hf
  exact ⟨by simp [start], by simp [start], by simp⟩

theorem Printk.follows_unfinished (m : Modifier) :
    Follows stack strings (inside m) [] [.unfinished] := by
  intro args shown hf argp _ out
  obtain _ | ⟨hp, hf⟩ := hf
  cases hp
  cases hf
  exact ⟨by simp [inside, start], by simp [inside, start], by simp⟩

theorem Printk.follows_text (hc : c ≠ ch '%') (h : Follows stack strings start rest is) :
    Follows stack strings start (c :: rest) (.text c :: is) := by
  intro args shown hf argp hlaid out
  obtain _ | ⟨hp, hf⟩ := hf
  cases hp
  have hrest := h hf hlaid (out ++ [c])
  rw [List.foldl_cons, step_text hc]
  exact ⟨by simpa using hrest.emitted, hrest.consumed, by simpa using hrest.fresh⟩

theorem Printk.follows_begin (h : Follows stack strings (inside .none) rest is) :
    Follows stack strings start (ch '%' :: rest) is := by
  intro args shown hf argp hlaid out
  rw [List.foldl_cons, step_begin]
  exact h hf hlaid out

theorem Printk.follows_longer (hk : m.longer c = some k)
    (h : Follows stack strings (inside k) rest is) :
    Follows stack strings (inside m) (c :: rest) is := by
  intro args shown hf argp hlaid out
  rw [List.foldl_cons, step_longer hk]
  exact h hf hlaid out

theorem Printk.follows_spec (hm : m.longer c = Option.none)
    (h : Follows stack strings start rest is) :
    Follows stack strings (inside m) (c :: rest) (conversion m c :: is) := by
  intro args shown hf argp hlaid out
  obtain _ | ⟨hp, hf⟩ := hf
  rename_i as bs printed shown
  rw [List.flatMap_append, laid_append] at hlaid
  have hspec := spec_eq (s := inside m argp out) rfl rfl hp hlaid.1
  have hrest := h hf hlaid.2 (out ++ printed)
  have hargp : argp + ((as ++ bs).flatMap Arg.words).length
      = argp + (as.flatMap Arg.words).length + (bs.flatMap Arg.words).length := by
    simp [Nat.add_assoc]
  rw [List.foldl_cons, step_spec hm, hspec, hargp, ← List.append_assoc]
  exact ⟨hrest.emitted, hrest.consumed, fun hn => hrest.fresh fun h => hn (.tail _ h)⟩

theorem Printk.follows_items (rest : List (BitVec 8)) :
    Follows stack strings start rest (items rest) := by
  have hh : Modifier.none.longer (ch 'h') = some .h := by decide
  have hhh : Modifier.h.longer (ch 'h') = some .hh := by decide
  have hl : Modifier.none.longer (ch 'l') = some .l := by decide
  have hll : Modifier.l.longer (ch 'l') = some .ll := by decide
  fun_induction items rest with
  | case1 => exact follows_nil
  | case2 => exact follows_begin (follows_unfinished _)
  | case3 => exact follows_begin (follows_longer hh (follows_unfinished _))
  | case4 => exact follows_begin (follows_longer hh (follows_longer hhh (follows_unfinished _)))
  | case5 f rest ih =>
    exact follows_begin (follows_longer hh (follows_longer hhh (follows_spec rfl ih)))
  | case6 e rest he ih =>
    have hend : Modifier.h.longer e = Option.none := if_neg he
    exact follows_begin (follows_longer hh (follows_spec hend ih))
  | case7 => exact follows_begin (follows_longer hl (follows_unfinished _))
  | case8 => exact follows_begin (follows_longer hl (follows_longer hll (follows_unfinished _)))
  | case9 f rest hne ih =>
    exact follows_begin (follows_longer hl (follows_longer hll (follows_spec rfl ih)))
  | case10 e rest he hne ih =>
    have hend : Modifier.l.longer e = Option.none := if_neg he
    exact follows_begin (follows_longer hl (follows_spec hend ih))
  | case11 d rest hdh hdl ih =>
    have hend : Modifier.none.longer d = Option.none := by rw [Modifier.longer, if_neg hdh, if_neg hdl]
    exact follows_begin (follows_spec hend ih)
  | case12 c rest hc ih => exact follows_text hc ih

theorem items_append {pre post : List (BitVec 8)} (h : .unfinished ∉ items pre) :
    items (pre ++ post) = items pre ++ items post := by
  fun_induction items pre with
  | case1 => rfl
  | _ =>
    simp only [List.cons_append, List.nil_append, List.mem_cons, not_or] at *
    rw [items.eq_def]
    simp_all

theorem Formats.of_append {is js : List Item} {args : List Arg} {shown : List (BitVec 8)}
    (h : Formats strings (is ++ js) args shown) :
    ∃ as bs first last, args = as ++ bs ∧ shown = first ++ last ∧
      Formats strings is as first ∧ Formats strings js bs last := by
  induction is generalizing args shown with
  | nil => exact ⟨[], args, [], shown, rfl, rfl, .nil, h⟩
  | cons i is ih =>
    obtain _ | ⟨hp, hf⟩ := h
    obtain ⟨as, bs, first, last, rfl, rfl, hfirst, hlast⟩ := ih hf
    exact ⟨_, bs, _, last, (List.append_assoc ..).symm, (List.append_assoc ..).symm,
      .cons hp hfirst, hlast⟩

/-- What `printk` owes for a format string, at the end and between any two pieces. -/
structure Printk.Reference (stack : Nat → BitVec 32) (strings : BitVec 32 → List (BitVec 8))
    (fmt : List (BitVec 8)) (args : List Arg) (shown : List (BitVec 8)) : Prop where
  emitted : (printk stack strings fmt).out = shown
  consumed : (printk stack strings fmt).argp = (args.flatMap Arg.words).length
  between : ∀ pre post, pre ++ post = cString fmt → .unfinished ∉ items pre →
    ∃ as bs first last, args = as ++ bs ∧ shown = first ++ last ∧
      Formats strings (items pre) as first ∧ Formats strings (items post) bs last ∧
      pre.foldl (step stack strings) (start 0 []) = start (as.flatMap Arg.words).length first

theorem printk_reference {fmt : List (BitVec 8)} {args : List Arg} {shown : List (BitVec 8)}
    (hargs : Formats strings (items (cString fmt)) args shown)
    (hlaid : Laid stack 0 (args.flatMap Arg.words)) :
    Printk.Reference stack strings fmt args shown := by
  have h := Printk.follows_items (cString fmt) hargs hlaid []
  rw [Nat.zero_add, List.nil_append] at h
  refine ⟨h.emitted, h.consumed, fun pre post heq hdone => ?_⟩
  rw [← heq, items_append hdone] at hargs
  obtain ⟨as, bs, first, last, rfl, rfl, hfirst, hlast⟩ := hargs.of_append
  rw [List.flatMap_append, laid_append] at hlaid
  have hpre := (Printk.follows_items pre hfirst hlaid.1 []).fresh hdone
  rw [Nat.zero_add, List.nil_append] at hpre
  exact ⟨as, bs, first, last, rfl, rfl, hfirst, hlast, hpre⟩

theorem printk_reference_small :
    Printk.Reference (fun a => if a = 0 then 0xFFFFFF80#32 else if a = 1 then 10#32 else 1#32)
      (fun _ => []) ("%hhd%%%llX".toList.map ch)
      [.number .hh true 0x80#8, .number .ll false 0x10000000A#64]
      ("-128%10000000a".toList.map ch) := by
  have hitems : items (cString ("%hhd%%%llX".toList.map ch))
      = [.number .hh true 10, .percent, .number .ll false 16] := by
    simp [cString, items, ch, conversion]
  have hfirst : numeral 10 (exactValue true 0x80#8) = "-128".toList.map ch := by
    simp [numeral, exactValue, Nat.toDigits_of_base_le, Nat.toDigits_of_lt_base, Nat.digitChar]
  have hlast : numeral 16 (exactValue false 0x10000000A#64) = "10000000a".toList.map ch := by
    simp [numeral, exactValue, Nat.toDigits_of_base_le, Nat.toDigits_of_lt_base, Nat.digitChar]
  refine printk_reference ?_ ?_
  · rw [hitems]
    have hx : Formats (fun _ => []) [.number .ll false 16] [.number .ll false 0x10000000A#64]
        (numeral 16 (exactValue false 0x10000000A#64)) := .cons (.number _ _ _) .nil
    have hd : Formats (fun _ => []) [.number .hh true 10, .percent, .number .ll false 16]
        [.number .hh true 0x80#8, .number .ll false 0x10000000A#64]
        (numeral 10 (exactValue true 0x80#8)
          ++ ([ch '%'] ++ numeral 16 (exactValue false 0x10000000A#64))) :=
      .cons (.number _ _ _) (.cons .percent hx)
    rw [hfirst, hlast] at hd
    exact hd
  · simp [Arg.words, Laid]

end

end SplongleOS.Stdio

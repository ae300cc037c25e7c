import Mathlib.Data.BitVec
import Mathlib.Data.List.Infix
import SplongleOS.Base.FuelProg
import SplongleOS.Printk
set_option autoImplicit false

/-! The commands of the shell, shell.c and string.c. -/

namespace SplongleOS
open Stdio FuelProg

abbrev Ram := BitVec 32 → BitVec 8

abbrev Log := List (BitVec 32)

def readChar (m : Ram) (p : BitVec 32) : FuelProg Log (BitVec 8) := fun log => (some (m p), p :: log)

def strlenLoop (m : Ram) : Nat → BitVec 32 → BitVec 32 → FuelProg Log (BitVec 32)
  | 0, _, _ => outOfFuel
  | fuel + 1, len, str => do
    let c ← readChar m str
    if c ≠ 0#8 then strlenLoop m fuel (len + 1#32) (str + 1#32) else pure len

def strlen (m : Ram) (str : BitVec 32) : FuelProg Log (BitVec 32) :=
  strlenLoop m 0x100000000 0#32 str

def strcmpLoop (m : Ram) (str1 str2 : BitVec 32) : Nat → BitVec 32 → FuelProg Log Bool
  | 0, _ => outOfFuel
  | fuel + 1, i => do
    let len ← strlen m str2
    if i < len then
      let c ← readChar m (str1 + i)
      let d ← readChar m (str2 + i)
      if c ≠ d then pure false else strcmpLoop m str1 str2 fuel (i + 1#32)
    else pure true

def strcmp (m : Ram) (str1 str2 : BitVec 32) : FuelProg Log Bool :=
  strcmpLoop m str1 str2 0x100000000 0#32

inductive Command where
  | helpPlease | help | getmem | version | whoami | datetime | lspci | unrecognized
  deriving DecidableEq, Repr

namespace Literal

def helpPlease : List (BitVec 8) := ['h', 'e', 'l', 'p', ' ', 'p', 'l', 'e', 'a', 's', 'e'].map ch
def pleaseHelp : List (BitVec 8) := ['p', 'l', 'e', 'a', 's', 'e', ' ', 'h', 'e', 'l', 'p'].map ch
def help : List (BitVec 8) := ['h', 'e', 'l', 'p'].map ch
def getmem : List (BitVec 8) := ['g', 'e', 't', 'm', 'e', 'm'].map ch
def version : List (BitVec 8) := ['v', 'e', 'r', 's', 'i', 'o', 'n'].map ch
def whoami : List (BitVec 8) := ['w', 'h', 'o', 'a', 'm', 'i'].map ch
def datetime : List (BitVec 8) := ['d', 'a', 't', 'e', 't', 'i', 'm', 'e'].map ch
def lspci : List (BitVec 8) := ['l', 's', 'p', 'c', 'i'].map ch

end Literal

def Command.names : Command → List (List (BitVec 8))
  | .helpPlease => [Literal.helpPlease, Literal.pleaseHelp]
  | .help => [Literal.help]
  | .getmem => [Literal.getmem]
  | .version => [Literal.version]
  | .whoami => [Literal.whoami]
  | .datetime => [Literal.datetime]
  | .lspci => [Literal.lspci]
  | .unrecognized => []

def names : List (List (BitVec 8)) :=
  [Literal.helpPlease, Literal.pleaseHelp, Literal.help, Literal.getmem, Literal.version,
    Literal.whoami, Literal.datetime, Literal.lspci]

/-- The branch `send_command` takes. `lit` says where the literals are. -/
def sendCommand (m : Ram) (lit : List (BitVec 8) → BitVec 32) (cmd : BitVec 32) :
    FuelProg Log Command := do
  let first ← strcmp m cmd (lit Literal.helpPlease)
  let first ← if first then pure true else strcmp m cmd (lit Literal.pleaseHelp)
  if first then pure .helpPlease
  else if ← strcmp m cmd (lit Literal.help) then pure .help
  else if ← strcmp m cmd (lit Literal.getmem) then pure .getmem
  else if ← strcmp m cmd (lit Literal.version) then pure .version
  else if ← strcmp m cmd (lit Literal.whoami) then pure .whoami
  else if ← strcmp m cmd (lit Literal.datetime) then pure .datetime
  else if ← strcmp m cmd (lit Literal.lspci) then pure .lspci
  else pure .unrecognized

/-- At `p` the characters of `str` and a terminator. -/
def StringAt (m : Ram) : BitVec 32 → List (BitVec 8) → Prop
  | p, [] => m p = 0#8
  | p, c :: str => m p = c ∧ c ≠ 0#8 ∧ StringAt m (p + 1#32) str

instance decidableStringAt (m : Ram) : (p : BitVec 32) → (str : List (BitVec 8)) →
    Decidable (StringAt m p str)
  | p, [] => inferInstanceAs (Decidable (m p = 0#8))
  | p, _ :: str =>
    have := decidableStringAt m (p + 1#32) str
    inferInstanceAs (Decidable (_ ∧ _ ∧ _))

def Literals (m : Ram) (lit : List (BitVec 8) → BitVec 32) : Prop :=
  ∀ n ∈ names, StringAt m (lit n) n

def InString (p : BitVec 32) (str : List (BitVec 8)) (q : BitVec 32) : Prop :=
  ∃ i, i ≤ str.length ∧ q = p + BitVec.ofNat 32 i

/-- `strcmp` returns whether the strings are equal, and reads neither beyond its terminator. -/
def ComparesEqual (m : Ram) (a b : BitVec 32) (str1 str2 : List (BitVec 8)) : Prop :=
  ∃ r log, strcmp m a b [] = (some r, log) ∧ (r = true ↔ str1 = str2) ∧
    ∀ q ∈ log, InString a str1 q ∨ InString b str2 q

/-- A command for the line that is its name, and else the last branch. -/
def Rightly (line : List (BitVec 8)) (c : Command) : Prop :=
  line ∈ c.names ∨ c = .unrecognized ∧ line ∉ names

variable {m : Ram} {p q a b : BitVec 32} {c : BitVec 8} {str xs ys : List (BitVec 8)}

theorem add_one_ofNat (p : BitVec 32) (i : Nat) :
    p + 1#32 + BitVec.ofNat 32 i = p + BitVec.ofNat 32 (i + 1) := by
  rw [BitVec.add_assoc, BitVec.ofNat_add, BitVec.add_comm (BitVec.ofNat 32 i)]

theorem StringAt.char (h : StringAt m p str) {i : Nat} (hi : i ≤ str.length) :
    m (p + BitVec.ofNat 32 i) = 0#8 ↔ i = str.length := by
  induction str generalizing p i with
  | nil =>
    obtain rfl : i = 0 := Nat.le_zero.mp hi
    simpa [StringAt] using h
  | cons c str ih =>
    obtain ⟨hc, hne, hrest⟩ := h
    cases i with
    | zero => simp [hc, hne]
    | succ i =>
      rw [← add_one_ofNat, ih hrest (Nat.le_of_succ_le_succ hi), List.length_cons, Nat.succ_inj]

theorem StringAt.length_lt (h : StringAt m p str) : str.length < 0x100000000 := by
  by_contra hlong
  have hend := (h.char (Nat.le_refl _)).mpr rfl
  have hwrap : BitVec.ofNat 32 str.length = BitVec.ofNat 32 (str.length - 0x100000000) := by
    apply BitVec.eq_of_toNat_eq
    simp only [BitVec.toNat_ofNat]
    omega
  rw [hwrap, h.char (Nat.sub_le ..)] at hend
  omega

theorem InString.succ {c : BitVec 8} (h : InString (p + 1#32) str q) : InString p (c :: str) q := by
  obtain ⟨i, hi, rfl⟩ := h
  exact ⟨i + 1, Nat.succ_le_succ hi, add_one_ofNat p i⟩

theorem inString_start (p : BitVec 32) (str : List (BitVec 8)) : InString p str p :=
  ⟨0, Nat.zero_le _, by simp⟩

theorem readChar_run (m : Ram) (p : BitVec 32) (log : Log) :
    readChar m p log = (some (m p), p :: log) := rfl

theorem strlenLoop_run (h : StringAt m p str) {fuel : Nat} (hfuel : str.length < fuel)
    (len : BitVec 32) (log : Log) :
    ∃ log', strlenLoop m fuel len p log = (some (len + BitVec.ofNat 32 str.length), log') ∧
      ∀ q ∈ log', q ∈ log ∨ InString p str q := by
  induction str generalizing p fuel len log with
  | nil =>
    obtain ⟨fuel, rfl⟩ := Nat.exists_eq_succ_of_ne_zero (Nat.ne_zero_of_lt hfuel)
    have hend : m p = 0#8 := h
    refine ⟨p :: log, ?_, fun q hq => ?_⟩
    · rw [strlenLoop, bind_run (readChar_run m p log), hend, if_neg (not_not.mpr rfl)]
      simp [Pure.pure, FuelProg.pure]
    · cases List.mem_cons.mp hq with
      | inl heq => exact Or.inr (heq ▸ inString_start p [])
      | inr hmem => exact Or.inl hmem
  | cons c str ih =>
    obtain ⟨fuel, rfl⟩ := Nat.exists_eq_succ_of_ne_zero (Nat.ne_zero_of_lt hfuel)
    obtain ⟨hc, hne, hrest⟩ := h
    obtain ⟨log', hrun, hlog⟩ := ih hrest (Nat.lt_of_succ_lt_succ hfuel) (len + 1#32) (p :: log)
    refine ⟨log', ?_, fun q hq => ?_⟩
    · rw [strlenLoop, bind_run (readChar_run m p log), hc, if_pos hne, hrun, List.length_cons,
        add_one_ofNat]
    · cases hlog q hq with
      | inl hmem =>
        cases List.mem_cons.mp hmem with
        | inl heq => exact Or.inr (heq ▸ inString_start p (c :: str))
        | inr hold => exact Or.inl hold
      | inr hin => exact Or.inr hin.succ

theorem strlen_run (h : StringAt m p str) (log : Log) :
    ∃ log', strlen m p log = (some (BitVec.ofNat 32 str.length), log') ∧
      ∀ q ∈ log', q ∈ log ∨ InString p str q := by
  obtain ⟨log', hrun, hlog⟩ := strlenLoop_run h h.length_lt 0#32 log
  rw [BitVec.zero_add] at hrun
  exact ⟨log', hrun, hlog⟩

/-- One round below the bound, which is the length of the second string alone. -/
theorem strcmpLoop_succ {str2 : List (BitVec 8)} (hb : StringAt m b str2) {i : BitVec 32}
    (hi : i.toNat < str2.length) (fuel : Nat) (log : Log) :
    ∃ log', (strcmpLoop m a b (fuel + 1) i log =
        (if m (a + i) ≠ m (b + i) then (pure false : FuelProg Log Bool)
          else strcmpLoop m a b fuel (i + 1#32)) log') ∧
      ∀ q ∈ log', q ∈ log ∨ q = a + i ∨ InString b str2 q := by
  obtain ⟨log₁, hrun, hlog⟩ := strlen_run hb log
  have hlt : i < BitVec.ofNat 32 str2.length := by
    rw [BitVec.lt_def, BitVec.toNat_ofNat, Nat.mod_eq_of_lt hb.length_lt]
    exact hi
  refine ⟨(b + i) :: (a + i) :: log₁, ?_, fun q hq => ?_⟩
  · rw [strcmpLoop, bind_run hrun, if_pos hlt, bind_run (readChar_run m (a + i) log₁),
      bind_run (readChar_run m (b + i) _)]
  · simp only [List.mem_cons] at hq
    rcases hq with rfl | rfl | hmem
    · exact Or.inr (Or.inr ⟨i.toNat, by omega, by simp⟩)
    · exact Or.inr (Or.inl rfl)
    · cases hlog q hmem with
      | inl hold => exact Or.inl hold
      | inr hin => exact Or.inr (Or.inr hin)

theorem strcmpLoop_run {str2 : List (BitVec 8)} (hb : StringAt m b str2) {i : BitVec 32}
    (hx : StringAt m (a + i) xs) (hy : StringAt m (b + i) ys)
    (hi : i.toNat + ys.length = str2.length) {fuel : Nat} (hfuel : ys.length < fuel) (log : Log) :
    ∃ log', strcmpLoop m a b fuel i log = (some (decide (ys <+: xs)), log') ∧
      ∀ q ∈ log', q ∈ log ∨ InString (a + i) xs q ∨ InString b str2 q := by
  have hlen := hb.length_lt
  induction ys generalizing i xs fuel log with
  | nil =>
    obtain ⟨fuel, rfl⟩ := Nat.exists_eq_succ_of_ne_zero (Nat.ne_zero_of_lt hfuel)
    obtain ⟨log', hrun, hlog⟩ := strlen_run hb log
    have hdone : ¬i < BitVec.ofNat 32 str2.length := by
      rw [BitVec.lt_def, BitVec.toNat_ofNat, Nat.mod_eq_of_lt hlen, ← hi]
      exact Nat.lt_irrefl _
    refine ⟨log', ?_, fun q hq => ?_⟩
    · rw [strcmpLoop, bind_run hrun, if_neg hdone]
      simp [Pure.pure, FuelProg.pure]
    · cases hlog q hq with
      | inl hmem => exact Or.inl hmem
      | inr hin => exact Or.inr (Or.inr hin)
  | cons y ys ih =>
    obtain ⟨fuel, rfl⟩ := Nat.exists_eq_succ_of_ne_zero (Nat.ne_zero_of_lt hfuel)
    obtain ⟨hd, hne, hrest⟩ := hy
    rw [List.length_cons] at hi hfuel
    obtain ⟨log₁, hstep, hlog⟩ := strcmpLoop_succ (a := a) hb (i := i) (by omega) fuel log
    have hreads : ∀ q ∈ log₁, q ∈ log ∨ InString (a + i) xs q ∨ InString b str2 q := by
      intro q hq
      rcases hlog q hq with hold | rfl | hin
      · exact Or.inl hold
      · exact Or.inr (Or.inl (inString_start (a + i) xs))
      · exact Or.inr (Or.inr hin)
    rw [Nat.succ_eq_add_one, hstep, hd]
    cases xs with
    | nil =>
      have hend : m (a + i) = 0#8 := hx
      rw [hend, if_pos hne.symm]
      exact ⟨_, by simp [Pure.pure, FuelProg.pure], hreads⟩
    | cons x xs =>
      obtain ⟨hc, -, hx'⟩ := hx
      rw [hc]
      by_cases hxy : x = y
      · subst hxy
        have hnext : (i + 1#32).toNat = i.toNat + 1 := by
          rw [BitVec.toNat_add, BitVec.toNat_one (by decide)]
          omega
        rw [BitVec.add_assoc] at hx' hrest
        obtain ⟨log', hrun', hlog'⟩ := ih hx' hrest (by omega) (Nat.lt_of_succ_lt_succ hfuel) log₁
        refine ⟨log', ?_, fun q hq => ?_⟩
        · rw [if_neg (not_not.mpr rfl), hrun']
          simp
        · rcases hlog' q hq with hmem | hin | hin
          · exact hreads q hmem
          · rw [← BitVec.add_assoc] at hin
            exact Or.inr (Or.inl hin.succ)
          · exact Or.inr (Or.inr hin)
      · rw [if_pos hxy]
        refine ⟨_, ?_, hreads⟩
        simp [Pure.pure, FuelProg.pure, Ne.symm hxy]

theorem strcmp_run (ha : StringAt m a xs) (hb : StringAt m b ys) (log : Log) :
    ∃ log', strcmp m a b log = (some (decide (ys <+: xs)), log') ∧
      ∀ q ∈ log', q ∈ log ∨ InString a xs q ∨ InString b ys q := by
  have hzero : ∀ p : BitVec 32, p + 0#32 = p := BitVec.add_zero
  have hx : StringAt m (a + 0#32) xs := (hzero a).symm ▸ ha
  have hy : StringAt m (b + 0#32) ys := (hzero b).symm ▸ hb
  have hrun := strcmpLoop_run hb hx hy (Nat.zero_add _) hb.length_lt log
  rwa [hzero] at hrun

theorem strcmp_returns (ha : StringAt m a xs) (hb : StringAt m b ys) :
    Returns (strcmp m a b) (decide (ys <+: xs)) := by
  intro log
  obtain ⟨log', hrun, -⟩ := strcmp_run ha hb log
  rw [hrun]

/-- Right but for a second string that is a proper prefix of the first. -/
theorem comparesEqual_iff (ha : StringAt m a xs) (hb : StringAt m b ys) :
    ComparesEqual m a b xs ys ↔ ¬(ys <+: xs ∧ ys ≠ xs) := by
  obtain ⟨log, hrun, hlog⟩ := strcmp_run ha hb []
  have hreads : ∀ q ∈ log, InString a xs q ∨ InString b ys q := by
    intro q hq
    cases hlog q hq with
    | inl hmem => exact absurd hmem List.not_mem_nil
    | inr hin => exact hin
  constructor
  · intro hequal hproper
    obtain ⟨r, log', hrun', hiff, -⟩ := hequal
    obtain ⟨rfl, -⟩ : decide (ys <+: xs) = r ∧ log = log' := by simpa using hrun.symm.trans hrun'
    exact hproper.2 (hiff.mp (decide_eq_true hproper.1)).symm
  · intro hnot
    refine ⟨_, log, hrun, ⟨fun htrue => ?_, fun heq => ?_⟩, hreads⟩
    · by_contra hne
      exact hnot ⟨of_decide_eq_true htrue, Ne.symm hne⟩
    · rw [heq]
      exact decide_eq_true (List.prefix_refl ys)

def chosen (line : List (BitVec 8)) : Command :=
  if Literal.helpPlease <+: line ∨ Literal.pleaseHelp <+: line then .helpPlease
  else if Literal.help <+: line then .help
  else if Literal.getmem <+: line then .getmem
  else if Literal.version <+: line then .version
  else if Literal.whoami <+: line then .whoami
  else if Literal.datetime <+: line then .datetime
  else if Literal.lspci <+: line then .lspci
  else .unrecognized

variable {lit : List (BitVec 8) → BitVec 32}

theorem returns_test {n : List (BitVec 8)} {t e : FuelProg Log Command} {c d : Command}
    (ha : StringAt m a xs) (hn : StringAt m b n) (ht : Returns t c) (he : Returns e d) :
    Returns (strcmp m a b >>= fun r => if r = true then t else e) (if n <+: xs then c else d) := by
  refine (strcmp_returns ha hn).bind ?_
  by_cases hpre : n <+: xs
  · simpa [hpre] using ht
  · simpa [hpre] using he

theorem sendCommand_returns (hlit : Literals m lit) (ha : StringAt m a xs) :
    Returns (sendCommand m lit a) (chosen xs) := by
  have hname : ∀ n ∈ names, StringAt m (lit n) n := hlit
  have hrest : Returns _ _ :=
    returns_test ha (hname Literal.help (by decide)) (Returns.pure .help) <|
    returns_test ha (hname Literal.getmem (by decide)) (Returns.pure .getmem) <|
    returns_test ha (hname Literal.version (by decide)) (Returns.pure .version) <|
    returns_test ha (hname Literal.whoami (by decide)) (Returns.pure .whoami) <|
    returns_test ha (hname Literal.datetime (by decide)) (Returns.pure .datetime) <|
    returns_test ha (hname Literal.lspci (by decide)) (Returns.pure .lspci) (Returns.pure .unrecognized)
  refine (strcmp_returns ha (hname Literal.helpPlease (by decide))).bind ?_
  by_cases hfirst : Literal.helpPlease <+: xs
  · have hchosen : chosen xs = .helpPlease := if_pos (Or.inl hfirst)
    rw [decide_eq_true hfirst, hchosen]
    exact Returns.bind (Returns.pure true) (Returns.pure Command.helpPlease)
  · rw [decide_eq_false hfirst]
    refine (strcmp_returns ha (hname Literal.pleaseHelp (by decide))).bind ?_
    by_cases hsecond : Literal.pleaseHelp <+: xs
    · have hchosen : chosen xs = .helpPlease := if_pos (Or.inr hsecond)
      rw [decide_eq_true hsecond, hchosen]
      exact Returns.pure Command.helpPlease
    · have hnone : ¬(Literal.helpPlease <+: xs ∨ Literal.pleaseHelp <+: xs) :=
        not_or.mpr ⟨hfirst, hsecond⟩
      rw [decide_eq_false hsecond, chosen, if_neg hnone]
      exact hrest

theorem chosen_eq_unrecognized_iff (line : List (BitVec 8)) :
    chosen line = .unrecognized ↔ ∀ n ∈ names, ¬n <+: line := by
  simp only [names, List.mem_cons, List.not_mem_nil, or_false, forall_eq_or_imp, forall_eq, chosen]
  split_ifs <;> simp only [false_iff, true_iff] <;> tauto

/-- Every name is sent to its own branch: the one that has another as a prefix is tested first. -/
theorem chosen_name : ∀ n ∈ names, n ∈ (chosen n).names := by
  decide

theorem mem_names_of_command {line : List (BitVec 8)} : ∀ c : Command, line ∈ c.names → line ∈ names := by
  intro c
  cases c <;> simp only [Command.names, names, List.mem_cons, List.not_mem_nil, or_false] <;> tauto

theorem rightly_chosen_iff (line : List (BitVec 8)) :
    Rightly line (chosen line) ↔ line ∈ names ∨ ∀ n ∈ names, ¬n <+: line := by
  constructor
  · intro hright
    cases hright with
    | inl hname => exact Or.inl (mem_names_of_command _ hname)
    | inr hlast => exact Or.inr ((chosen_eq_unrecognized_iff line).mp hlast.1)
  · intro h
    cases h with
    | inl hname => exact Or.inl (chosen_name line hname)
    | inr hnone =>
      exact Or.inr ⟨(chosen_eq_unrecognized_iff line).mpr hnone,
        fun hmem => hnone line hmem (List.prefix_refl line)⟩

/-- `strcmp` is right but for a second string that is a proper prefix of the first, and
`send_command` but for a line that goes on behind a name and is none itself. -/
theorem dispatch_by_equality_iff (hlit : Literals m lit) (ha : StringAt m a xs) (hb : StringAt m b ys) :
    (ComparesEqual m a b xs ys ↔ ¬(ys <+: xs ∧ ys ≠ xs)) ∧
      ((∃ c, Returns (sendCommand m lit a) c ∧ Rightly xs c) ↔
        xs ∈ names ∨ ∀ n ∈ names, ¬n <+: xs) := by
  refine ⟨comparesEqual_iff ha hb, ?_⟩
  have hreturns := sendCommand_returns hlit ha
  rw [← rightly_chosen_iff]
  constructor
  · intro hright
    obtain ⟨c, hc, hright⟩ := hright
    have heq := (hc []).symm.trans (hreturns [])
    obtain rfl : c = chosen xs := Option.some.inj heq
    exact hright
  · intro hright
    exact ⟨chosen xs, hreturns, hright⟩

def stringTable (line : List (BitVec 8)) : Ram := fun p =>
  ((names ++ [line]).flatMap fun n => n ++ [0#8]).getD p.toNat 0#8

def literalPlace (n : List (BitVec 8)) : BitVec 32 :=
  BitVec.ofNat 32 ((names.takeWhile fun n' => n' ≠ n).map fun n' => n'.length + 1).sum

def helpful : List (BitVec 8) := ['h', 'e', 'l', 'p', 'f', 'u', 'l'].map ch

theorem literals_help : Literals (stringTable Literal.help) literalPlace := by
  unfold Literals
  decide +kernel

theorem literals_helpful : Literals (stringTable helpful) literalPlace := by
  unfold Literals
  decide +kernel

theorem dispatch_by_equality_iff_help :
    (ComparesEqual (stringTable Literal.help) 66#32 24#32 Literal.help Literal.help ↔
        ¬(Literal.help <+: Literal.help ∧ Literal.help ≠ Literal.help)) ∧
      ((∃ c, Returns (sendCommand (stringTable Literal.help) literalPlace 66#32) c ∧
          Rightly Literal.help c) ↔
        Literal.help ∈ names ∨ ∀ n ∈ names, ¬n <+: Literal.help) :=
  dispatch_by_equality_iff literals_help (by decide +kernel) (by decide +kernel)

/-- `helpful` is taken for `help`. -/
theorem not_dispatch_by_equality :
    StringAt (stringTable helpful) 66#32 helpful ∧
      StringAt (stringTable helpful) 24#32 Literal.help ∧
      ¬ComparesEqual (stringTable helpful) 66#32 24#32 helpful Literal.help ∧
      Returns (sendCommand (stringTable helpful) literalPlace 66#32) .help ∧
      ¬Rightly helpful .help := by
  have hline : StringAt (stringTable helpful) 66#32 helpful := by decide +kernel
  have hhelp : StringAt (stringTable helpful) 24#32 Literal.help := by decide +kernel
  refine ⟨hline, hhelp, fun hequal => ?_, sendCommand_returns literals_helpful hline, fun hright => ?_⟩
  · exact (comparesEqual_iff hline hhelp).mp hequal (by decide)
  · cases hright with
    | inl hname => exact absurd hname (by decide)
    | inr hlast => exact Command.noConfusion hlast.1

end SplongleOS

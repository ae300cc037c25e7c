import SplongleOS.ClockDisplay
set_option autoImplicit false

/-! Lines of labels and values: what `printk` makes of a format string that is a list of labels, each
with a conversion behind it. -/

namespace SplongleOS.Stdio

def hexadecimal (n : Nat) : List (BitVec 8) := (Nat.toDigits 16 n).map ch

inductive Slot where
  | hex (v : BitVec 32)
  | dec (v : BitVec 32)
  | str (p : BitVec 32)

def Slot.letter : Slot → BitVec 8
  | .hex _ => ch 'x'
  | .dec _ => ch 'd'
  | .str _ => ch 's'

theorem Slot.letter_ne (f : Slot) : f.letter ≠ 0#8 := by
  cases f with
  | hex v => exact (by decide : ch 'x' ≠ 0#8)
  | dec v => exact (by decide : ch 'd' ≠ 0#8)
  | str p => exact (by decide : ch 's' ≠ 0#8)

def Slot.arg : Slot → Arg
  | .hex v => .number .none false v
  | .dec v => .number .none true v
  | .str p => .pointer p

def Slot.item : Slot → Item
  | .hex _ => .number .none false 16
  | .dec _ => .number .none true 10
  | .str _ => .string

def Slot.shown (strings : BitVec 32 → List (BitVec 8)) : Slot → List (BitVec 8)
  | .hex v => hexadecimal v.toNat
  | .dec v => numeral 10 v.toInt
  | .str p => cString (strings p)

def lineFormat (fields : List (String × Slot)) (last : String) : List (BitVec 8) :=
  fields.flatMap (fun f => f.1.toList.map ch ++ [ch '%', f.2.letter]) ++ last.toList.map ch

def lineShown (strings : BitVec 32 → List (BitVec 8)) (fields : List (String × Slot))
    (last : String) : List (BitVec 8) :=
  fields.flatMap (fun f => f.1.toList.map ch ++ f.2.shown strings) ++ last.toList.map ch

def Plain (label : String) : Prop := ch '%' ∉ label.toList.map ch ∧ 0#8 ∉ label.toList.map ch

instance (label : String) : Decidable (Plain label) := inferInstanceAs (Decidable (_ ∧ _))

variable {strings : BitVec 32 → List (BitVec 8)} {fields : List (String × Slot)} {last : String}

theorem items_text {pre : List (BitVec 8)} (rest : List (BitVec 8)) (h : ch '%' ∉ pre) :
    items (pre ++ rest) = pre.map Item.text ++ items rest := by
  induction pre with
  | nil => rfl
  | cons c pre ih =>
    have hc : c ≠ ch '%' := fun heq => h (heq ▸ List.mem_cons_self)
    rw [List.cons_append, items.eq_def]
    dsimp only
    rw [if_neg hc, ih fun hmem => h (List.mem_cons_of_mem _ hmem)]
    rfl

theorem items_slot (f : Slot) (rest : List (BitVec 8)) :
    items (ch '%' :: f.letter :: rest) = f.item :: items rest := by
  rw [items.eq_def]
  cases f <;> rfl

theorem formats_behind {is : List Item} {args : List Arg} {shown : List (BitVec 8)}
    (h : Formats strings is args shown) (pre : List (BitVec 8)) :
    Formats strings (pre.map Item.text ++ is) args (pre ++ shown) := by
  induction pre with
  | nil => exact h
  | cons c pre ih => exact .cons (.text c) ih

theorem prints_slot (f : Slot) : f.item.Prints strings [f.arg] (f.shown strings) := by
  cases f with
  | hex v =>
    have hnumeral : numeral 16 (exactValue false v) = hexadecimal v.toNat := by
      simp [numeral, exactValue, hexadecimal]
    change Item.Prints strings _ _ (hexadecimal v.toNat)
    rw [← hnumeral]
    exact .number (m := .none) false 16 v
  | dec v => exact .number (m := .none) true 10 v
  | str p => exact .string p

theorem formats_line (hfields : ∀ f ∈ fields, Plain f.1) (hlast : Plain last) :
    Formats strings (items (lineFormat fields last)) (fields.map (·.2.arg))
      (lineShown strings fields last) := by
  induction fields with
  | nil =>
    have htext : items (last.toList.map ch ++ []) = (last.toList.map ch).map Item.text ++ [] :=
      items_text [] hlast.1
    have h : Formats strings ((last.toList.map ch).map Item.text ++ []) []
        (last.toList.map ch ++ []) := formats_behind .nil _
    rw [← htext, List.append_nil] at h
    exact h
  | cons f fields ih =>
    obtain ⟨hf, hrest⟩ := List.forall_mem_cons.mp hfields
    have hitems : items (lineFormat (f :: fields) last) =
        (f.1.toList.map ch).map Item.text ++ f.2.item :: items (lineFormat fields last) := by
      rw [← items_slot, ← items_text _ hf.1]
      simp [lineFormat]
    have hshown : lineShown strings (f :: fields) last =
        f.1.toList.map ch ++ (f.2.shown strings ++ lineShown strings fields last) := by
      simp [lineShown]
    rw [hitems, hshown]
    exact formats_behind (.cons (prints_slot f.2) (ih hrest)) _

theorem cString_line (hfields : ∀ f ∈ fields, Plain f.1) (hlast : Plain last) :
    cString (lineFormat fields last) = lineFormat fields last := by
  refine List.takeWhile_eq_self_iff.mpr fun c hc => decide_eq_true fun hnul => ?_
  subst hnul
  rcases List.mem_append.mp hc with hmem | hmem
  · obtain ⟨f, hf, hmem⟩ := List.mem_flatMap.mp hmem
    rcases List.mem_append.mp hmem with hlabel | hslot
    · exact (hfields f hf).2 hlabel
    · rcases List.mem_cons.mp hslot with hpercent | hletter
      · exact absurd hpercent (by decide)
      · exact f.2.letter_ne (List.mem_singleton.mp hletter).symm
  · exact hlast.2 hmem

/-- `printk` of a line, with the values of its fields as its arguments. -/
theorem Console.printk_line (c : Console) (strings : BitVec 32 → List (BitVec 8))
    (fields : List (String × Slot)) {fmt : List (BitVec 8)} (hfmt : fmt = lineFormat fields last)
    (hfields : ∀ f ∈ fields, Plain f.1) (hlast : Plain last) :
    c.printk (fun i => ((fields.map (·.2.arg)).flatMap Arg.words).getD i 0#32) strings fmt =
      (lineShown strings fields last).foldl Console.putc c := by
  have hformats : Formats strings (items (lineFormat fields last)) (fields.map (·.2.arg))
      (lineShown strings fields last) := formats_line hfields hlast
  rw [← cString_line hfields hlast, ← hfmt] at hformats
  exact congrArg (List.foldl Console.putc c) (printk_reference hformats (laid_getD [] _)).emitted

end SplongleOS.Stdio

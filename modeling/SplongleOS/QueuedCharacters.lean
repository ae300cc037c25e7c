import SplongleOS.Modifiers
import SplongleOS.Shell
set_option autoImplicit false

/-! What the keyboard interrupt passes to the buffer. -/

namespace SplongleOS
open Stdio Key

/-- The value `keyboardHandler` passes to `kb_buffer_push`, as an empty buffer receives it. -/
def Globals.pushed (s : Globals) (code : BitVec 8) : Option (BitVec 8) :=
  let kb := (keyboardHandler { s with kb := ⟨fun _ => 0#8, 0, 0⟩ } code).kb
  if keyboardHaschar kb then some (keyboardGetchar kb).1 else none

/-- A 7-bit character that one of the layout tables assigns to the key of this make code; the
escape key is a backspace. -/
def Assigned (code c : BitVec 8) : Prop :=
  code = 1#8 ∧ c = 0x08#8 ∨
    ∃ k ∈ [lowercase.getD code.toNat unknown, uppercase.getD code.toNat unknown],
      k < 0x80#32 ∧ c = k.setWidth 8

instance (code c : BitVec 8) : Decidable (Assigned code c) := inferInstanceAs (Decidable (_ ∨ _))

def navigation : List (BitVec 8) :=
  [0x47#8, 0x48#8, 0x49#8, 0x4B#8, 0x4D#8, 0x4F#8, 0x50#8, 0x51#8, 0x52#8, 0x53#8]

def Proper (extended : Bool) (code c : BitVec 8) : Prop :=
  Assigned code c ∧ ¬(extended = true ∧ code ∈ navigation)

/-- The make codes that get to the default case and have no character in the tables: 0, num lock,
scroll lock, the number pad but for its operators and the sideways arrows, and all from 0x54 on
but F11 and F12. -/
def Stray (code : BitVec 8) : Prop :=
  code = 0x00#8 ∨ 0x45#8 ≤ code ∧ code ≤ 0x49#8 ∨ code = 0x4C#8 ∨
    0x4F#8 ≤ code ∧ code ≤ 0x56#8 ∨ 0x59#8 ≤ code ∧ code ≤ 0x7F#8

instance (code : BitVec 8) : Decidable (Stray code) := inferInstanceAs (Decidable (_ ∨ _))

def Tracked.interrupts (autorepeat : Bool) : Tracked → List KeyEvent → List (Tracked × BitVec 8)
  | _, [] => []
  | t, .code b :: es => (t, b) :: interrupts autorepeat (t.step autorepeat (.code b)) es
  | t, .between kb console :: es => interrupts autorepeat (t.step autorepeat (.between kb console)) es

def silent : List (BitVec 8) :=
  [0x1D#8, 0x36#8, 0x38#8, 0x3B#8, 0x3C#8, 0x3D#8, 0x3E#8, 0x3F#8, 0x40#8, 0x41#8, 0x42#8, 0x43#8,
    0x44#8, 0x4B#8, 0x4D#8, 0x57#8, 0x58#8, 0x2A#8, 0x3A#8]

def layoutEntry (caps : Bool) (code : BitVec 8) : BitVec 32 :=
  (if caps then uppercase else lowercase).getD code.toNat unknown

def typedBy (caps : Bool) (code : BitVec 8) : Option (BitVec 8) :=
  if [1#8, 14#8].contains code then some 0x08#8
  else if code = 28#8 then some 0x0A#8
  else if silent.contains code then none
  else some ((layoutEntry caps code).setWidth 8)

variable {s : Globals} {code : BitVec 8}

theorem movecursor_kb (s : Globals) (scancode : BitVec 8) : (s.movecursor scancode).kb = s.kb := rfl

theorem keyboardHandler_kb_break (hcode : code &&& 0x80#8 ≠ 0#8) :
    (keyboardHandler s code).kb = s.kb := by
  simp only [keyboardHandler, hcode, not_true, false_and, if_false, ne_eq, not_false_eq_true,
    apply_ite Globals.kb, ite_self]

theorem keyboardHandler_kb_home (hrow : ¬0 < s.console.screenY) :
    (keyboardHandler s code).kb = s.kb := by
  simp only [keyboardHandler, Globals.character, hrow, and_false, if_false, apply_ite Globals.kb,
    movecursor_kb, ite_self]

theorem and_low_of_make : ∀ code : BitVec 8, code &&& 0x80#8 = 0#8 → code &&& 0x7F#8 = code := by
  decide

theorem keyboardHandler_kb_make (hcode : code &&& 0x80#8 = 0#8) (hrow : 0 < s.console.screenY) :
    (keyboardHandler s code).kb =
      (typedBy (s.capsOn || s.capsLock) code).elim s.kb (kbBufferPush s.kb) := by
  have hE0 : code ≠ 0xE0#8 := by
    rintro rfl
    exact absurd hcode (by decide)
  have hchar : (s.character code).kb = kbBufferPush s.kb
      ((layoutEntry (s.capsOn || s.capsLock) code).setWidth 8) := by
    rw [Globals.character, layoutEntry]
    cases s.capsOn <;> cases s.capsLock <;> simp [hrow, Globals.push]
  simp only [keyboardHandler, hE0, hcode, and_low_of_make code hcode, ne_eq, not_true, not_false_eq_true,
    hrow, and_self, if_true, if_false, apply_ite Globals.kb, movecursor_kb, hchar, typedBy,
    List.contains_iff_mem]
  by_cases hback : code ∈ [1#8, 14#8]
  · rw [if_pos hback, if_pos hback]
    rfl
  by_cases henter : code = 28#8
  · rw [if_neg hback, if_neg hback, if_pos henter, if_pos henter]
    rfl
  rw [if_neg hback, if_neg hback, if_neg henter, if_neg henter]
  by_cases hsilent : code ∈ silent
  · rw [if_pos hsilent]
    simp only [silent, List.mem_cons, List.not_mem_nil, or_false] at hsilent
    rcases hsilent with rfl | rfl | rfl | rfl | rfl | rfl | rfl | rfl | rfl | rfl | rfl | rfl | rfl |
      rfl | rfl | rfl | rfl | rfl | rfl <;> rfl
  · rw [if_neg hsilent]
    simp only [silent, List.mem_cons, List.not_mem_nil, or_false, not_or] at hsilent
    simp [hsilent]

theorem pushed_of_kb {o : Option (BitVec 8)}
    (h : (keyboardHandler { s with kb := ⟨fun _ => 0#8, 0, 0⟩ } code).kb =
      o.elim ⟨fun _ => 0#8, 0, 0⟩ (kbBufferPush ⟨fun _ => 0#8, 0, 0⟩)) : s.pushed code = o := by
  rw [Globals.pushed, h]
  cases o with
  | none => rfl
  | some c => simp [kbBufferPush, keyboardHaschar, keyboardGetchar]

theorem pushed_eq (s : Globals) (code : BitVec 8) :
    s.pushed code =
      if code &&& 0x80#8 = 0#8 ∧ 0 < s.console.screenY then typedBy (s.capsOn || s.capsLock) code
      else none := by
  by_cases hcode : code &&& 0x80#8 = 0#8
  · by_cases hrow : 0 < s.console.screenY
    · rw [if_pos ⟨hcode, hrow⟩]
      exact pushed_of_kb (keyboardHandler_kb_make hcode hrow)
    · rw [if_neg fun hall => hrow hall.2]
      exact pushed_of_kb (keyboardHandler_kb_home hrow)
  · rw [if_neg fun hall => hcode hall.1]
    exact pushed_of_kb (keyboardHandler_kb_break hcode)

/-- Whatever the buffer holds, it receives what `pushed` says and nothing else. -/
theorem keyboardHandler_kb (s : Globals) (code : BitVec 8) :
    (keyboardHandler s code).kb = (s.pushed code).elim s.kb (kbBufferPush s.kb) := by
  rw [pushed_eq]
  by_cases hcode : code &&& 0x80#8 = 0#8
  · by_cases hrow : 0 < s.console.screenY
    · rw [if_pos ⟨hcode, hrow⟩]
      exact keyboardHandler_kb_make hcode hrow
    · rw [if_neg fun hall => hrow hall.2]
      exact keyboardHandler_kb_home hrow
  · rw [if_neg fun hall => hcode hall.1]
    exact keyboardHandler_kb_break hcode

theorem proper_of_none (extended : Bool) (code : BitVec 8) :
    ∀ c, (none : Option (BitVec 8)) = some c → Proper extended code c :=
  fun c hc => absurd hc (Option.some_ne_none c).symm

theorem entry_lt_iff : ∀ caps : Bool, ∀ i < 128, BitVec.ofNat 8 i ∉ silent → i ≠ 1 →
    (layoutEntry caps (BitVec.ofNat 8 i) < 0x80#32 ↔ ¬Stray (BitVec.ofNat 8 i)) := by
  decide +kernel

theorem entry_setWidth : ∀ caps : Bool, ∀ i < 128, layoutEntry caps (BitVec.ofNat 8 i) < 0x80#32 ∨
    0x80#8 ≤ (layoutEntry caps (BitVec.ofNat 8 i)).setWidth 8 := by
  decide +kernel

theorem Assigned.lt {c : BitVec 8} (h : Assigned code c) : c < 0x80#8 := by
  cases h with
  | inl hesc =>
    rw [hesc.2]
    decide
  | inr hentry =>
    obtain ⟨k, -, hk, rfl⟩ := hentry
    bv_omega

theorem assigned_entry {caps : Bool} (h : layoutEntry caps code < 0x80#32) :
    Assigned code ((layoutEntry caps code).setWidth 8) := by
  refine Or.inr ⟨layoutEntry caps code, ?_, h, rfl⟩
  cases caps <;> simp [layoutEntry]

theorem not_navigation : ∀ code ∈ navigation, Stray code ∨ code ∈ silent := by
  decide

theorem control_not_navigation : ∀ code ∈ [1#8, 14#8, 28#8], code ∉ navigation := by
  decide

theorem assigned_back (h : code ∈ [1#8, 14#8]) : Assigned code 0x08#8 := by
  simp only [List.mem_cons, List.not_mem_nil, or_false] at h
  cases h with
  | inl hesc => exact Or.inl ⟨hesc, rfl⟩
  | inr hback =>
    have hentry : layoutEntry false 14#8 < 0x80#32 := by decide +kernel
    subst hback
    exact assigned_entry hentry

theorem assigned_enter : Assigned 28#8 0x0A#8 := by
  have hentry : layoutEntry false 28#8 < 0x80#32 := by decide +kernel
  exact assigned_entry hentry

theorem stray_make : ∀ code : BitVec 8, Stray code → code &&& 0x80#8 = 0#8 := by
  decide

theorem control_not_stray : ∀ code ∈ [1#8, 14#8, 28#8] ++ silent, ¬Stray code := by
  decide

theorem lt_of_make (hcode : code &&& 0x80#8 = 0#8) : code.toNat < 128 := by
  have hlow := BitVec.toNat_and code 0x7F#8
  rw [and_low_of_make code hcode] at hlow
  have hle : code.toNat &&& 127 ≤ 127 := Nat.and_le_right
  exact Nat.lt_succ_of_le (hlow ▸ hle)

theorem typedBy_proper_iff (caps extended : Bool) (hcode : code &&& 0x80#8 = 0#8) :
    (∀ c, typedBy caps code = some c → Proper extended code c) ↔ ¬Stray code := by
  simp only [typedBy, List.contains_iff_mem]
  by_cases hb : code ∈ [1#8, 14#8]
  · have hmem : code ∈ [1#8, 14#8, 28#8] := List.mem_append_left [28#8] hb
    rw [if_pos hb]
    refine iff_of_true (fun c hc => ?_) (control_not_stray code (List.mem_append_left silent hmem))
    obtain rfl := Option.some.inj hc
    exact ⟨assigned_back hb, fun hall => control_not_navigation code hmem hall.2⟩
  by_cases he : code = 28#8
  · subst he
    rw [if_neg hb, if_pos rfl]
    refine iff_of_true (fun c hc => ?_) (control_not_stray 28#8 (by decide))
    obtain rfl := Option.some.inj hc
    exact ⟨assigned_enter, fun hall => control_not_navigation 28#8 (by decide) hall.2⟩
  rw [if_neg hb, if_neg he]
  by_cases hsilent : code ∈ silent
  · rw [if_pos hsilent]
    exact iff_of_true (proper_of_none extended code)
      (control_not_stray code (List.mem_append_right _ hsilent))
  have hlt := lt_of_make hcode
  have hne : code.toNat ≠ 1 := fun heq => hb (List.mem_cons.mpr (Or.inl (BitVec.eq_of_toNat_eq heq)))
  have hiff := entry_lt_iff caps code.toNat hlt
  have htrunc := entry_setWidth caps code.toNat hlt
  rw [BitVec.ofNat_toNat, BitVec.setWidth_eq] at hiff htrunc
  rw [if_neg hsilent]
  constructor
  · intro hall hstray
    have hsmall := (hall _ rfl).1.lt
    cases htrunc with
    | inl hentry => exact (hiff hsilent hne).mp hentry hstray
    | inr hlarge => exact absurd hsmall (BitVec.not_lt.mpr hlarge)
  · intro hstray c hc
    obtain rfl := Option.some.inj hc
    refine ⟨assigned_entry ((hiff hsilent hne).mpr hstray), fun hnav => ?_⟩
    cases not_navigation code hnav.2 with
    | inl h => exact hstray h
    | inr h => exact hsilent h

theorem pushed_proper_iff (s : Globals) (extended : Bool) (code : BitVec 8) :
    (∀ c, s.pushed code = some c → Proper extended code c) ↔
      ¬(0 < s.console.screenY ∧ Stray code) := by
  rw [pushed_eq]
  by_cases hrow : 0 < s.console.screenY
  · by_cases hcode : code &&& 0x80#8 = 0#8
    · rw [if_pos ⟨hcode, hrow⟩, typedBy_proper_iff _ _ hcode]
      exact ⟨fun hstray hall => hstray hall.2, fun hnot hstray => hnot ⟨hrow, hstray⟩⟩
    · rw [if_neg fun hall => hcode hall.1]
      exact iff_of_true (proper_of_none extended code) fun hall => hcode (stray_make code hall.2)
  · rw [if_neg fun hall => hrow hall.2]
    exact iff_of_true (proper_of_none extended code) fun hall => hrow hall.1

/-- Over any stream of scan codes, from any state and whatever the rest of the kernel does to the
console in between: only characters are queued, exactly when no stray make code comes while the
cursor is below row 0. -/
theorem stream_proper_iff (autorepeat : Bool) (t : Tracked) (es : List KeyEvent) :
    (∀ p ∈ t.interrupts autorepeat es, ∀ c, p.1.pushed p.2 = some c →
        Proper p.1.keys.extended p.2 c) ↔
      ∀ p ∈ t.interrupts autorepeat es, ¬(0 < p.1.console.screenY ∧ Stray p.2) := by
  constructor
  · intro hall p hp
    exact (pushed_proper_iff p.1.toGlobals p.1.keys.extended p.2).mp (hall p hp)
  · intro hall p hp
    exact (pushed_proper_iff p.1.toGlobals p.1.keys.extended p.2).mpr (hall p hp)

/-- Num lock, and the up arrow with its prefix, with the cursor in row 5. -/
theorem not_stream_proper :
    ¬(∀ p ∈ bootedKeys.interrupts true [.code 0x45#8], ∀ c, p.1.pushed p.2 = some c →
        Proper p.1.keys.extended p.2 c) ∧
      bootedKeys.pushed 0x45#8 = some 0xDF#8 ∧
      (bootedKeys.codes true [0xE0#8]).keys.extended = true ∧
      (bootedKeys.codes true [0xE0#8]).pushed 0x48#8 = some 0xEB#8 := by
  have hpushed : bootedKeys.pushed 0x45#8 = some 0xDF#8 := by decide
  refine ⟨fun hall => ?_, hpushed, rfl, by decide⟩
  have hproper := hall (bootedKeys, 0x45#8) List.mem_cons_self 0xDF#8 hpushed
  exact absurd hproper.1.lt (by decide)

end SplongleOS

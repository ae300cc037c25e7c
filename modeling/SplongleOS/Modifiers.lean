import Mathlib.Algebra.Group.Nat.Even
import SplongleOS.KeyboardHandler
set_option autoImplicit false

/-! The shift and caps lock flags against the keys that are held. -/

namespace SplongleOS
open Stdio

/-- What a stream of scan codes says about the keys. After 0xE0 a byte is another key's. -/
structure Keys where
  extended : Bool
  leftShift : Bool
  rightShift : Bool
  capsKey : Bool
  capsPresses : Nat

def Keys.none : Keys := ⟨false, false, false, false, 0⟩

def Keys.Shift (k : Keys) : Prop := k.leftShift = true ∨ k.rightShift = true

instance (k : Keys) : Decidable k.Shift := inferInstanceAs (Decidable (_ ∨ _))

/-- A key that is held repeats its make code; `autorepeat` says whether these are presses too. -/
def Keys.see (autorepeat : Bool) (k : Keys) (code : BitVec 8) : Keys :=
  if code = 0xE0#8 then { k with extended := true }
  else if k.extended then { k with extended := false }
  else if code = 0x2A#8 then { k with leftShift := true }
  else if code = 0xAA#8 then { k with leftShift := false }
  else if code = 0x36#8 then { k with rightShift := true }
  else if code = 0xB6#8 then { k with rightShift := false }
  else if code = 0x3A#8 then
    { k with
      capsKey := true
      capsPresses := if k.capsKey ∧ !autorepeat then k.capsPresses else k.capsPresses + 1 }
  else if code = 0xBA#8 then { k with capsKey := false }
  else k

structure Tracked extends Globals where
  keys : Keys

inductive KeyEvent where
  | code (b : BitVec 8)
  | between (kb : Kb) (console : Console)

def Tracked.step (autorepeat : Bool) (s : Tracked) : KeyEvent → Tracked
  | .code b => ⟨keyboardHandler s.toGlobals b, s.keys.see autorepeat b⟩
  | .between kb console => { s with kb := kb, console := console }

structure Tracked.Modifiers (s : Tracked) : Prop where
  capsOn : s.capsOn = true ↔ s.keys.Shift
  capsLock : s.capsLock = true ↔ Odd s.keys.capsPresses

/-- A control key agrees with the shift keys, so does what follows 0xE0 on the codes of a shift
key, and a shift key is released after the other one. -/
def Keys.KeepsShift (k : Keys) (code : BitVec 8) : Prop :=
  if code = 0x1D#8 then k.Shift
  else if code = 0x9D#8 then ¬k.Shift
  else if code = 0x2A#8 ∨ code = 0x36#8 then k.extended = true → k.Shift
  else if code = 0xAA#8 then ¬(k.extended = true ∧ k.leftShift = true ∨ k.rightShift = true)
  else if code = 0xB6#8 then ¬(k.leftShift = true ∨ k.extended = true ∧ k.rightShift = true)
  else True

/-- The code of caps lock does not follow 0xE0, and does not repeat where that is no press. -/
def Keys.KeepsLock (autorepeat : Bool) (k : Keys) (code : BitVec 8) : Prop :=
  code = 0x3A#8 → k.extended = false ∧ (autorepeat = true ∨ k.capsKey = false)

def Tracked.Keeps (autorepeat : Bool) (s : Tracked) : KeyEvent → Prop
  | .code b => s.keys.KeepsShift b ∧ s.keys.KeepsLock autorepeat b
  | .between _ _ => True

def Tracked.Booted (s : Tracked) : Prop :=
  s.capsOn = false ∧ s.capsLock = false ∧ s.keys = Keys.none

@[simp] theorem character_capsOn (s : Globals) (scancode : BitVec 8) :
    (s.character scancode).capsOn = s.capsOn := by
  simp only [Globals.character, Globals.push, apply_ite Globals.capsOn, ite_self]

@[simp] theorem character_capsLock (s : Globals) (scancode : BitVec 8) :
    (s.character scancode).capsLock = s.capsLock := by
  simp only [Globals.character, Globals.push, apply_ite Globals.capsLock, ite_self]

theorem keyboardHandler_capsOn (s : Globals) (code : BitVec 8) :
    (keyboardHandler s code).capsOn =
      if code ∈ [0x1D#8, 0x2A#8, 0x36#8] then true
      else if code ∈ [0x9D#8, 0xAA#8, 0xB6#8] then false
      else s.capsOn := by
  simp only [keyboardHandler, Globals.push, Globals.movecursor, apply_ite Globals.capsOn,
    character_capsOn, ite_self]
  generalize s.capsOn = on
  revert code on
  decide

theorem keyboardHandler_capsLock (s : Globals) (code : BitVec 8) :
    (keyboardHandler s code).capsLock = if code = 0x3A#8 then !s.capsLock else s.capsLock := by
  simp only [keyboardHandler, Globals.push, Globals.movecursor, apply_ite Globals.capsLock,
    character_capsLock, ite_self]
  generalize s.capsLock = lock
  revert code lock
  decide

variable {s : Globals} {k : Keys} (autorepeat : Bool)

theorem capsOn_iff (h : s.capsOn = true ↔ k.Shift) (code : BitVec 8) :
    ((keyboardHandler s code).capsOn = true ↔ (k.see autorepeat code).Shift) ↔ k.KeepsShift code := by
  rw [keyboardHandler_capsOn]
  generalize s.capsOn = on at h ⊢
  obtain ⟨extended, left, right, caps, presses⟩ := k
  by_cases hkey : code ∈ [0xE0#8, 0x1D#8, 0x9D#8, 0x2A#8, 0xAA#8, 0x36#8, 0xB6#8]
  · simp only [List.mem_cons, List.not_mem_nil, or_false] at hkey
    rcases hkey with rfl | rfl | rfl | rfl | rfl | rfl | rfl <;>
      cases extended <;> simp_all [Keys.see, Keys.KeepsShift, Keys.Shift]
  · simp only [List.mem_cons, List.not_mem_nil, or_false, not_or] at hkey
    have hsee : Keys.Shift (Keys.see autorepeat ⟨extended, left, right, caps, presses⟩ code) ↔
        left = true ∨ right = true := by
      simp only [Keys.see, Keys.Shift, hkey, if_false]
      split_ifs <;> rfl
    simp only [List.mem_cons, List.not_mem_nil, hkey, or_self, if_false, hsee, Keys.KeepsShift]
    exact iff_of_true h trivial

theorem see_capsPresses (k : Keys) (code : BitVec 8) :
    (k.see autorepeat code).capsPresses =
      if code = 0x3A#8 ∧ k.extended = false ∧ (autorepeat = true ∨ k.capsKey = false) then
        k.capsPresses + 1
      else k.capsPresses := by
  obtain ⟨extended, left, right, caps, presses⟩ := k
  by_cases hcaps : code = 0x3A#8
  · subst hcaps
    cases extended <;> cases caps <;> cases autorepeat <;> rfl
  · rw [if_neg fun hall => hcaps hall.1, Keys.see, if_neg hcaps]
    split_ifs <;> rfl

theorem capsLock_iff (h : s.capsLock = true ↔ Odd k.capsPresses) (code : BitVec 8) :
    ((keyboardHandler s code).capsLock = true ↔ Odd (k.see autorepeat code).capsPresses) ↔
      k.KeepsLock autorepeat code := by
  rw [keyboardHandler_capsLock, see_capsPresses, Keys.KeepsLock]
  by_cases hcaps : code = 0x3A#8
  · rw [if_pos hcaps]
    by_cases hpress : k.extended = false ∧ (autorepeat = true ∨ k.capsKey = false)
    · rw [if_pos ⟨hcaps, hpress⟩, Nat.odd_add_one, ← h, Bool.not_eq_true', Bool.not_eq_true]
      exact iff_of_true Iff.rfl fun _ => hpress
    · rw [if_neg fun hall => hpress hall.2, ← h, Bool.not_eq_true']
      refine iff_of_false (fun hsame => ?_) fun hall => hpress (hall hcaps)
      cases hlock : s.capsLock <;> simp [hlock] at hsame
  · rw [if_neg hcaps, if_neg fun hall => hcaps hall.1]
    exact iff_of_true h fun hcode => absurd hcode hcaps

variable {t : Tracked} {autorepeat}

theorem Tracked.Modifiers.step_iff (h : t.Modifiers) (e : KeyEvent) :
    (t.step autorepeat e).Modifiers ↔ t.Keeps autorepeat e := by
  cases e with
  | between kb console => exact iff_of_true ⟨h.capsOn, h.capsLock⟩ trivial
  | code b =>
    have hon := capsOn_iff autorepeat h.capsOn b
    have hlock := capsLock_iff autorepeat h.capsLock b
    exact ⟨fun hm => ⟨hon.mp hm.capsOn, hlock.mp hm.capsLock⟩,
      fun hk => ⟨hon.mpr hk.1, hlock.mpr hk.2⟩⟩

def Tracked.Run (autorepeat : Bool) (ok : Tracked → KeyEvent → Prop) : Tracked → Prop :=
  Runs.Reach (fun t e => some (t.step autorepeat e)) ok Tracked.Booted

theorem modifiers_booted (h : t.Booted) : t.Modifiers := by
  obtain ⟨hon, hlock, hkeys⟩ := h
  refine ⟨?_, ?_⟩
  · rw [hon, hkeys]
    decide
  · rw [hlock, hkeys]
    decide

def bootedKeys : Tracked := ⟨⟨⟨fun _ => 0#8, 0, 0⟩, false, false, blankConsole 0 5⟩, Keys.none⟩

def Tracked.codes (autorepeat : Bool) (t : Tracked) (codes : List (BitVec 8)) : Tracked :=
  codes.foldl (fun t b => t.step autorepeat (.code b)) t

theorem run_codes (autorepeat : Bool) (codes : List (BitVec 8)) :
    (bootedKeys.codes autorepeat codes).Run autorepeat fun _ _ => True := by
  induction codes using List.reverseRecOn with
  | nil => exact .start ⟨rfl, rfl, rfl⟩
  | append_singleton codes b ih =>
    rw [Tracked.codes, List.foldl_append]
    exact .next (.code b) ih trivial rfl

/-- As long as no scan code comes where `Keeps` forbids it, the flags say which keys are held
and how often caps lock was pressed; the first such code breaks that. -/
theorem modifiers_of_run (h : t.Run autorepeat (Tracked.Keeps autorepeat)) :
    t.Modifiers ∧ ∀ e, (t.step autorepeat e).Modifiers ↔ t.Keeps autorepeat e := by
  have hinv : t.Modifiers := by
    refine Runs.Reach.invariant_total (I := Tracked.Modifiers) (fun t ht => modifiers_booted ht)
      (fun t e hm hok => (hm.step_iff e).mpr hok) h
  exact ⟨hinv, hinv.step_iff⟩

theorem modifiers_of_run_shift : (bootedKeys.codes true [0x2A#8]).Modifiers ∧
    ∀ e, ((bootedKeys.codes true [0x2A#8]).step true e).Modifiers ↔
      (bootedKeys.codes true [0x2A#8]).Keeps true e :=
  modifiers_of_run (t := bootedKeys.codes true [0x2A#8])
    (.next (.code 0x2A#8) (.start ⟨rfl, rfl, rfl⟩) ⟨fun hext => absurd hext (by decide),
      fun hcode => absurd hcode (by decide)⟩ rfl)

/-- The control key alone, both shift keys and the left one released, and a shift code that
follows 0xE0. -/
theorem not_modifiers_codes :
    (bootedKeys.codes true [0x1D#8]).Run true (fun _ _ => True) ∧
      ¬(bootedKeys.codes true [0x1D#8]).Modifiers ∧
      (bootedKeys.codes true [0x2A#8, 0x36#8, 0xAA#8]).Run true (fun _ _ => True) ∧
      ¬(bootedKeys.codes true [0x2A#8, 0x36#8, 0xAA#8]).Modifiers ∧
      (bootedKeys.codes true [0xE0#8, 0x2A#8]).Run true (fun _ _ => True) ∧
      ¬(bootedKeys.codes true [0xE0#8, 0x2A#8]).Modifiers := by
  refine ⟨run_codes true _, fun hm => ?_, run_codes true _, fun hm => ?_, run_codes true _, fun hm => ?_⟩
  · exact absurd hm.capsOn (by decide)
  · exact absurd hm.capsOn (by decide)
  · exact absurd hm.capsOn (by decide)

end SplongleOS

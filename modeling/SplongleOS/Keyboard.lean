import SplongleOS.Base.RingQueue
import SplongleOS.Base.Runs
set_option autoImplicit false

/-! The keyboard buffer, keyboard.c. MAX_SIZE is 128. The interrupt handler pushes; the
shell polls and takes, one memory access at a time. -/

namespace SplongleOS
open RingQueue

structure Kb where
  kbBuffer : Int → BitVec 8
  kbHead : Int
  kbTail : Int

def kbBufferPush (s : Kb) (c : BitVec 8) : Kb :=
  let next := (s.kbHead + 1).tmod 128
  if next ≠ s.kbTail then
    { s with kbBuffer := Function.update s.kbBuffer s.kbHead c, kbHead := next }
  else s

inductive KbCall where
  | haschar
  | getchar
  deriving DecidableEq, Repr

/-- Where the caller of `keyboard_haschar` or `keyboard_getchar` stands. Both compare
`kb_head` with `kb_tail`, and C reads the operands in either order. -/
inductive Reader where
  | idle
  | headRead (call : KbCall) (head : Int)
  | tailRead (call : KbCall) (tail : Int)
  /-- The buffer was not empty: `kb_tail` is read for the index, then `kb_buffer`. -/
  | notEmpty
  | indexRead (tail : Int)
  /-- `c` is read: `kb_tail` is read again, then written. -/
  | charRead (c : BitVec 8)
  | nextRead (c : BitVec 8) (tail : Int)
  | haschar (r : Bool)
  | getchar (c : BitVec 8)
  | getcharEmpty
  deriving DecidableEq, Repr

/-- `accepted`, `taken` and `hadChar` are ghost: the characters pushes have stored, those
`keyboard_getchar` has returned from the buffer, and whether the buffer held a character
when the current call began. -/
structure Keyboard where
  kb : Kb
  reader : Reader
  accepted : List (BitVec 8)
  taken : List (BitVec 8)
  hadChar : Bool

def compared (call : KbCall) (head tail : Int) : Reader :=
  match call with
  | .haschar => .haschar (head ≠ tail)
  | .getchar => if head = tail then .getcharEmpty else .notEmpty

/-- What happens next: an interrupt pushes a character, a call begins and reads its first
operand, or the call that is under way makes its next access. -/
inductive KbEvent where
  | push (c : BitVec 8)
  | call (call : KbCall) (headFirst : Bool)
  | access

def Reader.returned : Reader → Bool
  | .idle | .haschar _ | .getchar _ | .getcharEmpty => true
  | _ => false

def Keyboard.access (s : Keyboard) : Option Keyboard :=
  match s.reader with
  | .headRead call head => some { s with reader := compared call head s.kb.kbTail }
  | .tailRead call tail => some { s with reader := compared call s.kb.kbHead tail }
  | .notEmpty => some { s with reader := .indexRead s.kb.kbTail }
  | .indexRead tail => some { s with reader := .charRead (s.kb.kbBuffer tail) }
  | .charRead c => some { s with reader := .nextRead c s.kb.kbTail }
  | .nextRead c tail =>
    some { s with
      kb := { s.kb with kbTail := (tail + 1).tmod 128 }
      reader := .getchar c
      taken := s.taken ++ [c] }
  | _ => none

def Keyboard.step (s : Keyboard) : KbEvent → Option Keyboard
  | .push c =>
    some { s with
      kb := kbBufferPush s.kb c
      accepted :=
        if (s.kb.kbHead + 1).tmod 128 ≠ s.kb.kbTail then s.accepted ++ [c] else s.accepted }
  | .call call headFirst =>
    if s.reader.returned then
      some { s with
        reader := if headFirst then .headRead call s.kb.kbHead else .tailRead call s.kb.kbTail
        hadChar := s.kb.kbHead ≠ s.kb.kbTail }
    else none
  | .access => s.access

def Keyboard.Initial (s : Keyboard) : Prop :=
  s.kb.kbHead = 0 ∧ s.kb.kbTail = 0 ∧ s.reader = .idle ∧ s.accepted = [] ∧ s.taken = [] ∧
    s.hadChar = false

def Keyboard.Run : Keyboard → Prop :=
  Runs.Reach Keyboard.step (fun _ _ => True) Keyboard.Initial

theorem next_natCast (n : Nat) : ((n : Int) + 1).tmod 128 = ((n + 1) % 128 : Nat) := by
  rw [Int.tmod_eq_emod_of_nonneg (by omega)]
  omega

structure Kb.Queues (s : Kb) (tail head : Nat) (queued : List (BitVec 8)) : Prop where
  tail_eq : s.kbTail = tail
  head_eq : s.kbHead = head
  holds : Holds 128 (fun i : Nat => s.kbBuffer i) tail head queued

variable {s : Kb} {tail head : Nat} {queued : List (BitVec 8)}

theorem Kb.Queues.empty_iff (h : s.Queues tail head queued) : s.kbHead = s.kbTail ↔ queued = [] := by
  rw [h.tail_eq, h.head_eq, ← h.holds.empty_iff]
  omega

theorem Kb.Queues.refuses_iff (h : s.Queues tail head queued) :
    (s.kbHead + 1).tmod 128 = s.kbTail ↔ queued.length = 127 := by
  have hfull := h.holds.full_iff
  rw [h.head_eq, h.tail_eq, next_natCast]
  omega

theorem Kb.Queues.push (h : s.Queues tail head queued) (c : BitVec 8)
    (hroom : (s.kbHead + 1).tmod 128 ≠ s.kbTail) :
    (kbBufferPush s c).Queues tail ((head + 1) % 128) (queued ++ [c]) := by
  have hlen : queued.length ≠ 127 := fun hlen => hroom (h.refuses_iff.mpr hlen)
  have hlt := h.holds.room
  rw [kbBufferPush, if_pos hroom]
  refine ⟨h.tail_eq, by rw [h.head_eq, next_natCast], ?_⟩
  have hpush := h.holds.push (x := c) (by omega)
  have hbuf : (fun i : Nat => Function.update s.kbBuffer s.kbHead c i) =
      Function.update (fun i : Nat => s.kbBuffer i) head c := by
    funext i
    rw [h.head_eq, Function.update_apply, Function.update_apply]
    exact if_congr Int.ofNat_inj rfl rfl
  rwa [← hbuf] at hpush

def Reader.Knows (tail : Nat) (queued taken : List (BitVec 8)) (hadChar : Bool) : Reader → Prop
  | .idle => True
  | .headRead _ head => ∃ k ≤ queued.length, head = ((tail + k) % 128 : Nat) ∧
      (hadChar = true → 0 < k)
  | .tailRead _ t => t = tail ∧ (hadChar = true → queued ≠ [])
  | .notEmpty => queued ≠ []
  | .indexRead t => t = tail ∧ queued ≠ []
  | .charRead c => queued.head? = some c
  | .nextRead c t => t = tail ∧ queued.head? = some c
  | .haschar r => (r = true → queued ≠ []) ∧ (hadChar = true → r = true)
  | .getchar c => taken.getLast? = some c
  | .getcharEmpty => hadChar = false

theorem Reader.Knows.push {taken : List (BitVec 8)} {hadChar : Bool} {r : Reader} {c : BitVec 8}
    (h : r.Knows tail queued taken hadChar) : r.Knows tail (queued ++ [c]) taken hadChar := by
  cases r with
  | idle => trivial
  | headRead call head =>
    obtain ⟨k, hk, hrest⟩ := h
    exact ⟨k, by simp; omega, hrest⟩
  | tailRead call t => exact ⟨h.1, fun _ => by simp⟩
  | notEmpty => simp [Reader.Knows]
  | indexRead t => exact ⟨h.1, by simp⟩
  | charRead d =>
    have hd : queued.head? = some d := h
    simp [Reader.Knows, List.head?_append, hd]
  | nextRead d t => exact ⟨h.1, by simp [List.head?_append, h.2]⟩
  | haschar b => exact ⟨fun _ => by simp, h.2⟩
  | getchar d => exact h
  | getcharEmpty => exact h

/-- The invariant of the interleaved runs. -/
structure Keyboard.Inv (s : Keyboard) (tail head : Nat) (queued : List (BitVec 8)) : Prop where
  queues : s.kb.Queues tail head queued
  accepted : s.accepted = s.taken ++ queued
  knows : s.reader.Knows tail queued s.taken s.hadChar

theorem Keyboard.Inv.push {s : Keyboard} (h : s.Inv tail head queued) (c : BitVec 8) :
    ∃ s' tail' head' queued', s.step (.push c) = some s' ∧ s'.Inv tail' head' queued' := by
  by_cases hroom : (s.kb.kbHead + 1).tmod 128 = s.kb.kbTail
  · refine ⟨_, tail, head, queued, rfl, ?_⟩
    have hkb : kbBufferPush s.kb c = s.kb := if_neg (not_not.mpr hroom)
    rw [hkb, if_neg (not_not.mpr hroom)]
    exact h
  · refine ⟨_, tail, (head + 1) % 128, queued ++ [c], rfl, h.queues.push c hroom, ?_, h.knows.push⟩
    rw [if_pos hroom, h.accepted, List.append_assoc]

theorem Keyboard.Inv.call {s s' : Keyboard} {call : KbCall} {headFirst : Bool}
    (h : s.Inv tail head queued) (hs : s.step (.call call headFirst) = some s') :
    s'.Inv tail head queued := by
  have hempty := h.queues.empty_iff
  by_cases hr : s.reader.returned = true
  · simp only [Keyboard.step, hr, ↓reduceIte, Option.some.injEq] at hs
    subst hs
    refine ⟨h.queues, h.accepted, ?_⟩
    cases headFirst with
    | true =>
      refine ⟨queued.length, Nat.le_refl _, ?_, fun hfull => ?_⟩
      · rw [h.queues.head_eq, h.queues.holds.head_eq]
      · have hne : queued ≠ [] := by simpa [hempty] using hfull
        exact List.length_pos_of_ne_nil hne
    | false => exact ⟨h.queues.tail_eq, fun hfull => by simpa [hempty] using hfull⟩
  · simp [Keyboard.step, hr] at hs

theorem compared_knows {call : KbCall} {x y : Int} {taken : List (BitVec 8)} {hadChar : Bool}
    (hne : x ≠ y → queued ≠ []) (hfull : hadChar = true → x ≠ y) :
    (compared call x y).Knows tail queued taken hadChar := by
  cases call with
  | haschar => exact ⟨fun h => hne (by simpa using h), fun h => by simpa using hfull h⟩
  | getchar =>
    unfold compared
    by_cases hxy : x = y
    · simp only [hxy, ↓reduceIte]
      cases hadChar with
      | true => exact absurd hxy (hfull rfl)
      | false => rfl
    · simp only [hxy, ↓reduceIte]
      exact hne hxy

theorem Keyboard.Inv.take {s : Keyboard} {c : BitVec 8} {t : Int} (h : s.Inv tail head queued)
    (hr : s.reader = .nextRead c t) :
    ∃ queued', Keyboard.Inv { s with
      kb := { s.kb with kbTail := (t + 1).tmod 128 }
      reader := .getchar c
      taken := s.taken ++ [c] } ((tail + 1) % 128) head queued' := by
  have hknows := h.knows
  rw [hr] at hknows
  obtain ⟨rfl, hhead⟩ := hknows
  cases queued with
  | nil => simp at hhead
  | cons x xs =>
    have hx : x = c := by simpa using hhead
    subst hx
    refine ⟨xs, ⟨next_natCast tail, h.queues.head_eq, h.queues.holds.pop⟩, ?_, ?_⟩
    · rw [h.accepted, List.append_assoc]
      rfl
    · simp [Reader.Knows]

theorem Keyboard.Inv.access {s s' : Keyboard} (h : s.Inv tail head queued)
    (hs : s.access = some s') : ∃ tail' queued', s'.Inv tail' head queued' := by
  have hempty := h.queues.empty_iff
  have hknows := h.knows
  unfold Keyboard.access at hs
  cases hr : s.reader with
  | headRead call x =>
    rw [hr] at hs hknows
    obtain ⟨k, hk, rfl, hpos⟩ := hknows
    simp only [Option.some.injEq] at hs
    subst hs
    have hzero := h.queues.holds.slot_eq_tail_iff hk
    refine ⟨tail, queued, h.queues, h.accepted, compared_knows ?_ ?_⟩
    · rintro hne rfl
      have hk0 : k = 0 := by simpa using hk
      exact hne (by rw [h.queues.tail_eq, hzero.mpr hk0])
    · intro hfull heq
      rw [h.queues.tail_eq] at heq
      have hk0 := hzero.mp (Int.ofNat_inj.mp heq)
      have hp := hpos hfull
      omega
  | tailRead call x =>
    rw [hr] at hs hknows
    obtain ⟨rfl, hfull⟩ := hknows
    simp only [Option.some.injEq] at hs
    subst hs
    rw [h.queues.tail_eq] at hempty
    exact ⟨tail, queued, h.queues, h.accepted,
      compared_knows (fun hne => hempty.not.mp hne) fun hc => hempty.not.mpr (hfull hc)⟩
  | notEmpty =>
    rw [hr] at hs hknows
    simp only [Option.some.injEq] at hs
    subst hs
    exact ⟨tail, queued, h.queues, h.accepted, h.queues.tail_eq, hknows⟩
  | indexRead x =>
    rw [hr] at hs hknows
    obtain ⟨rfl, hne⟩ := hknows
    simp only [Option.some.injEq] at hs
    subst hs
    refine ⟨tail, queued, h.queues, h.accepted, ?_⟩
    obtain ⟨c, cs, rfl⟩ := List.exists_cons_of_ne_nil hne
    have hpeek : s.kb.kbBuffer tail = c := h.queues.holds.peek
    simp [Reader.Knows, hpeek]
  | charRead c =>
    rw [hr] at hs hknows
    simp only [Option.some.injEq] at hs
    subst hs
    exact ⟨tail, queued, h.queues, h.accepted, h.queues.tail_eq, hknows⟩
  | nextRead c t =>
    obtain ⟨queued', htake⟩ := h.take hr
    rw [hr] at hs
    simp only [Option.some.injEq] at hs
    subst hs
    exact ⟨_, queued', htake⟩
  | idle => simp [hr] at hs
  | haschar r => simp [hr] at hs
  | getchar c => simp [hr] at hs
  | getcharEmpty => simp [hr] at hs

theorem Keyboard.Run.inv {s : Keyboard} (h : Keyboard.Run s) :
    ∃ tail head queued, s.Inv tail head queued := by
  refine Runs.Reach.invariant (I := fun s : Keyboard => ∃ tail head queued, s.Inv tail head queued)
    (fun s hs => ?_) (fun s e s' hi _ hs => ?_) h
  · obtain ⟨hhead, htail, hr, hacc, htaken, hchar⟩ := hs
    refine ⟨0, 0, [], ⟨htail, hhead, holds_nil (by decide)⟩, by simp [hacc, htaken], ?_⟩
    rw [hr]
    trivial
  · obtain ⟨tail, head, queued, hinv⟩ := hi
    cases e with
    | push c =>
      obtain ⟨t, tail', head', queued', ht, hinv'⟩ := hinv.push c
      obtain rfl : t = s' := Option.some.inj (ht.symm.trans hs)
      exact ⟨tail', head', queued', hinv'⟩
    | call call headFirst => exact ⟨tail, head, queued, hinv.call hs⟩
    | access =>
      obtain ⟨tail', queued', hinv'⟩ := hinv.access hs
      exact ⟨tail', head, queued', hinv'⟩

theorem Kb.Queues.push_eq_iff {s : Kb} (h : s.Queues tail head queued) (c : BitVec 8) :
    kbBufferPush s c = s ↔ queued.length = 127 := by
  rw [← h.refuses_iff]
  constructor
  · intro hsame
    by_contra hroom
    have hhead : (kbBufferPush s c).kbHead = (s.kbHead + 1).tmod 128 := by
      rw [kbBufferPush, if_pos hroom]
    rw [hsame, h.head_eq, next_natCast] at hhead
    omega
  · intro hfull
    exact if_neg (not_not.mpr hfull)

/-- However the interrupt falls between the accesses of the reader: what `keyboard_getchar`
has returned, followed by what the ring holds, is what pushes have stored, in order; a push
is refused when and only when 127 characters wait; a call that began on a non-empty buffer
finds a character; both indices stay in the array. -/
theorem keyboard_fifo {s : Keyboard} (h : Keyboard.Run s) :
    (∃ queued, s.accepted = s.taken ++ queued ∧
      Holds 128 (fun i : Nat => s.kb.kbBuffer i) s.kb.kbTail.toNat s.kb.kbHead.toNat queued) ∧
    (∀ c, kbBufferPush s.kb c = s.kb ↔ s.accepted.length = s.taken.length + 127) ∧
    (∀ c, s.reader = .getchar c → s.taken.getLast? = some c) ∧
    (s.hadChar = true → s.reader ≠ .getcharEmpty ∧ s.reader ≠ .haschar false) ∧
    (0 ≤ s.kb.kbHead ∧ s.kb.kbHead < 128) ∧ 0 ≤ s.kb.kbTail ∧ s.kb.kbTail < 128 := by
  obtain ⟨tail, head, queued, hinv⟩ := h.inv
  have htail := hinv.queues.tail_eq
  have hhead := hinv.queues.head_eq
  have htail_lt := hinv.queues.holds.tail_lt
  have hhead_lt := hinv.queues.holds.head_lt
  have hknows := hinv.knows
  refine ⟨⟨queued, hinv.accepted, ?_⟩, fun c => ?_, fun c hr => ?_, fun hchar => ⟨?_, ?_⟩,
    by omega, by omega⟩
  · rw [htail, hhead]
    exact hinv.queues.holds
  · rw [hinv.queues.push_eq_iff, hinv.accepted, List.length_append]
    omega
  · rwa [hr] at hknows
  · rintro hr
    rw [hr] at hknows
    exact Bool.noConfusion (hchar.symm.trans hknows)
  · rintro hr
    rw [hr] at hknows
    exact Bool.noConfusion (hknows.2 hchar)

def typedEvents : List KbEvent :=
  [.call .haschar true, .push 0x61#8, .access, .call .getchar false, .access, .access, .access,
    .push 0x62#8, .access, .access]

def keyboardStart : Keyboard := ⟨⟨fun _ => 0#8, 0, 0⟩, .idle, [], [], false⟩

def keyboardTyped : Keyboard where
  kb := ⟨Function.update (Function.update (fun _ => 0#8) 0 0x61#8) 1 0x62#8, 2, 1⟩
  reader := .getchar 0x61#8
  accepted := [0x61#8, 0x62#8]
  taken := [0x61#8]
  hadChar := true

theorem run_typedEvents : Runs.run Keyboard.step keyboardStart typedEvents = some keyboardTyped := rfl

theorem keyboard_fifo_typed :
    (∃ queued, [0x61#8, 0x62#8] = [0x61#8] ++ queued ∧
      Holds 128 (fun i : Nat => keyboardTyped.kb.kbBuffer i) 1 2 queued) ∧
    (∀ c, kbBufferPush keyboardTyped.kb c = keyboardTyped.kb ↔ 2 = 1 + 127) ∧
    (∀ c, keyboardTyped.reader = .getchar c → [0x61#8].getLast? = some c) ∧
    (keyboardTyped.hadChar = true →
      keyboardTyped.reader ≠ .getcharEmpty ∧ keyboardTyped.reader ≠ .haschar false) ∧
    (0 ≤ keyboardTyped.kb.kbHead ∧ keyboardTyped.kb.kbHead < 128) ∧
    0 ≤ keyboardTyped.kb.kbTail ∧ keyboardTyped.kb.kbTail < 128 :=
  keyboard_fifo (s := keyboardTyped)
    (Runs.Reach.of_run (s := keyboardStart) (.start ⟨rfl, rfl, rfl, rfl, rfl, rfl⟩) run_typedEvents)

end SplongleOS

import SplongleOS.Rtc
set_option autoImplicit false

/-! The two read passes of `RTC_Handler` while the clock runs, and the record it makes of
what they agree on. -/

namespace SplongleOS
open WordMemory

/-- A clock as the handler meets it: access `t` to the CMOS ports finds the date-time
`seq (index t)`, or, on a poll, `busy t` as the update-in-progress bit. -/
structure Clock where
  seq : Nat → RtcRegs
  index : Nat → Nat
  busy : Nat → Bool

/-- `while (cmos_update_in_progress()) ;` from access `t` on; the access after it. -/
def Clock.spin (c : Clock) : Nat → Nat → Option Nat
  | 0, _ => none
  | fuel + 1, t => if c.busy t then c.spin fuel (t + 1) else some (t + 1)

def Clock.pass (c : Clock) (t : Nat) : RtcRegs where
  second := (c.seq (c.index t)).second
  minute := (c.seq (c.index (t + 1))).minute
  hour := (c.seq (c.index (t + 2))).hour
  day := (c.seq (c.index (t + 3))).day
  month := (c.seq (c.index (t + 4))).month
  year := (c.seq (c.index (t + 5))).year

/-- The `do ... while` loop after a pass that began at access `t`: new_datetime at the end
and where the passes began. -/
def Clock.settle (c : Clock) : Nat → Nat → Option (RtcRegs × List Nat)
  | 0, _ => none
  | fuel + 1, t => do
    let u ← c.spin fuel (t + 6)
    if c.pass t = c.pass u then return (c.pass u, [u])
    let (r, us) ← c.settle fuel u
    return (r, u :: us)

def Clock.readTime (c : Clock) (fuel start : Nat) : Option (RtcRegs × List Nat) := do
  let t ← c.spin fuel start
  let (r, us) ← c.settle fuel t
  return (r, t :: us)

/-- From the first read of a pass to the last of the next the clock advances once at most. -/
def Clock.Slow (c : Clock) (starts : List Nat) : Prop :=
  starts.IsChain fun t u => c.index (u + 5) ≤ c.index t + 1

def Clock.Forward (c : Clock) : Prop := ∀ t u, t ≤ u → c.index t ≤ c.index u

variable {c : Clock} {fuel t u : Nat} {r : RtcRegs} {us : List Nat}

theorem Clock.spin_le (h : c.spin fuel t = some u) : t < u := by
  induction fuel generalizing t with
  | zero => cases h
  | succ fuel ih =>
    rw [spin] at h
    split at h
    · have := ih h
      omega
    · cases h
      omega

theorem Clock.pass_still {k : Nat} (h : ∀ i < 6, c.index (t + i) = k) : c.pass t = c.seq k := by
  have h0 := h 0 (by decide)
  rw [Nat.add_zero] at h0
  simp [pass, h0, h 1, h 2, h 3, h 4, h 5]

/-- An advance during the first pass is over when the second begins. -/
theorem Clock.pass_agrees (hfwd : c.Forward) (hnext : t + 6 ≤ u)
    (hslow : c.index (u + 5) ≤ c.index t + 1) (hsame : c.pass t = c.pass u) :
    ∃ a, t ≤ a ∧ a ≤ u ∧ c.pass u = c.seq (c.index a) := by
  by_cases hstill : c.index (t + 5) = c.index t
  · refine ⟨t, le_rfl, by omega, hsame.symm.trans (pass_still fun i hi => ?_)⟩
    have hlo := hfwd t (t + i) (by omega)
    have hhi := hfwd (t + i) (t + 5) (by omega)
    omega
  · refine ⟨u, by omega, le_rfl, pass_still fun i hi => ?_⟩
    have hfirst := hfwd t (t + 5) (by omega)
    have hgap := hfwd (t + 5) u (by omega)
    have hlo := hfwd u (u + i) (by omega)
    have hhi := hfwd (u + i) (u + 5) (by omega)
    omega

theorem Clock.settle_genuine (hfwd : c.Forward) (h : c.settle fuel t = some (r, us))
    (hslow : c.Slow (t :: us)) : ∃ a, t ≤ a ∧ r = c.seq (c.index a) := by
  induction fuel generalizing t us with
  | zero => cases h
  | succ fuel ih =>
    rw [settle, Option.bind_eq_bind, Option.bind_eq_some_iff] at h
    obtain ⟨u, hspin, h⟩ := h
    have hnext := spin_le hspin
    split at h
    · next hsame =>
      cases h
      have hpair := (List.isChain_cons_cons.mp hslow).1
      obtain ⟨a, hlo, _, ha⟩ := pass_agrees hfwd (by omega) hpair hsame
      exact ⟨a, hlo, ha⟩
    · obtain ⟨⟨r', vs⟩, hrest, h⟩ := Option.bind_eq_some_iff.mp h
      cases h
      obtain ⟨a, hlo, ha⟩ := ih hrest (List.isChain_cons_cons.mp hslow).2
      exact ⟨a, by omega, ha⟩

/-- What the loop ends with was on the clock at one moment of the call. -/
theorem Clock.readTime_genuine {start : Nat} (hfwd : c.Forward)
    (h : c.readTime fuel start = some (r, us)) (hslow : c.Slow us) :
    ∃ a, start < a ∧ r = c.seq (c.index a) := by
  rw [readTime, Option.bind_eq_bind, Option.bind_eq_some_iff] at h
  obtain ⟨t, hspin, h⟩ := h
  obtain ⟨⟨r', vs⟩, hloop, h⟩ := Option.bind_eq_some_iff.mp h
  cases h
  have hstart := spin_le hspin
  obtain ⟨a, hlo, ha⟩ := settle_genuine hfwd hloop hslow
  exact ⟨a, by omega, ha⟩

def midnightClock : Clock where
  seq k := if k = 0 then ⟨0x59#8, 0x59#8, 0x23#8, 0x31#8, 0x12#8, 0x24#8⟩
    else ⟨0#8, 0#8, 0#8, 1#8, 1#8, 0x25#8⟩
  index t := if t < 2 then 0 else 1
  busy _ := false

theorem readTime_genuine_midnight :
    ∃ a, 0 < a ∧ (⟨0#8, 0#8, 0#8, 1#8, 1#8, 0x25#8⟩ : RtcRegs)
      = midnightClock.seq (midnightClock.index a) := by
  have hfwd : midnightClock.Forward := by
    intro t u htu
    change (if t < 2 then 0 else 1) ≤ if u < 2 then 0 else 1
    split <;> split <;> omega
  have hread : midnightClock.readTime 4 0
      = some (⟨0#8, 0#8, 0#8, 1#8, 1#8, 0x25#8⟩, [1, 8, 15]) := by decide
  exact midnightClock.readTime_genuine hfwd hread (by simp [Clock.Slow, midnightClock])

theorem Clock.settle_settleTime (h : c.settle fuel t = some (r, us)) :
    settleTime (c.pass t) (us.map c.pass) = some r := by
  induction fuel generalizing t us with
  | zero => cases h
  | succ fuel ih =>
    rw [settle, Option.bind_eq_bind, Option.bind_eq_some_iff] at h
    obtain ⟨u, _, h⟩ := h
    split at h
    · next hsame =>
      cases h
      simp [settleTime, hsame]
    · next hdiffer =>
      obtain ⟨⟨r', vs⟩, hrest, h⟩ := Option.bind_eq_some_iff.mp h
      cases h
      simp [settleTime, hdiffer, ih hrest]

theorem storeBytes_byte_of_lt (bs : List (BitVec 8)) (m : Mem) {a b : Nat} (h : b < a) :
    (storeBytes a bs m).byte b = m.byte b := by
  induction bs generalizing a m with
  | nil => rfl
  | cons v bs ih => rw [storeBytes, ih _ (by omega), Mem.setByte_byte, if_neg (by omega)]

theorem storeBytes_byte (bs : List (BitVec 8)) (m : Mem) (a i : Nat) :
    (storeBytes a bs m).byte (a + i) = bs.getD i (m.byte (a + i)) := by
  induction bs generalizing a m i with
  | nil => rfl
  | cons v bs ih =>
    rw [storeBytes]
    cases i with
    | zero => simp [storeBytes_byte_of_lt, Mem.setByte_byte]
    | succ i =>
      have hnext : a + (i + 1) = a + 1 + i := by omega
      rw [hnext, ih, Mem.setByte_byte, if_neg (by omega)]
      rfl

def recordAt (m : Mem) : Datetime where
  second := m.byte 0x1610
  minute := m.byte 0x1611
  hour := m.byte 0x1612
  day := m.byte 0x1613
  month := m.byte 0x1614
  year := m.byte 0x1616 ++ m.byte 0x1615

theorem recordAt_storeBytes (m : Mem) (t : Datetime) :
    recordAt (storeBytes 0x1610 t.bytes m) = t := by
  have hbyte := storeBytes_byte t.bytes m 0x1610
  have hyear : (t.year >>> 8).setWidth 8 ++ t.year.setWidth 8 = t.year := by
    refine BitVec.eq_of_getLsbD_eq fun i hi => ?_
    rw [BitVec.getLsbD_append]
    by_cases hlow : i < 8
    · simp [hlow]
    · have hsum : 8 + (i - 8) = i := by omega
      simp [hlow, hsum]
      omega
  have h0 := hbyte 0
  have h1 := hbyte 1
  have h2 := hbyte 2
  have h3 := hbyte 3
  have h4 := hbyte 4
  have h5 := hbyte 5
  have h6 := hbyte 6
  simp only [Datetime.bytes, List.getD_cons_zero, List.getD_cons_succ, Nat.reduceAdd] at h0 h1 h2 h3 h4 h5 h6
  simp [recordAt, Datetime.bytes, h0, h1, h2, h3, h4, h5, h6, hyear]

theorem recordAt_rtcHandler {k k' : Kernel} {first : RtcRegs} {reads : List RtcRegs}
    {regB : BitVec 8} {r : RtcRegs} (hdue : (k.ticks + 1#16) % 1024#16 = 0#16)
    (hread : settleTime first reads = some r) (h : rtcHandler k first reads regB = some k') :
    recordAt k'.vm.pmm.mem = decodeTime r regB := by
  simp only [rtcHandler, hdue, hread, if_true, Option.map_some, Option.some.injEq] at h
  subst h
  exact recordAt_storeBytes _ _

def daysInMonth (month year : Nat) : Nat :=
  if month = 2 then if year % 4 = 0 ∧ (year % 100 ≠ 0 ∨ year % 400 = 0) then 29 else 28
  else if month = 4 ∨ month = 6 ∨ month = 9 ∨ month = 11 then 30
  else 31

structure Datetime.Valid (t : Datetime) : Prop where
  second : t.second.toNat < 60
  minute : t.minute.toNat < 60
  hour : t.hour.toNat < 24
  month : 1 ≤ t.month.toNat ∧ t.month.toNat ≤ 12
  day : 1 ≤ t.day.toNat ∧ t.day.toNat ≤ daysInMonth t.month.toNat t.year.toNat
  year : 2000 ≤ t.year.toNat ∧ t.year.toNat ≤ 2099

/-- A number below 100 in a register: binary if bit 2 of register B is set, else BCD. -/
def encodeNumber (regB : BitVec 8) (n : Nat) : BitVec 8 :=
  if regB &&& 0x04#8 = 0#8 then BitVec.ofNat 8 (n / 10 * 16 + n % 10) else BitVec.ofNat 8 n

/-- Bit 1 of register B set: 24 hours. Else 12, 1, ..., 11 with the top bit for PM. -/
def encodeHour (regB : BitVec 8) (h : Nat) : BitVec 8 :=
  if regB &&& 0x02#8 = 0#8 then
    encodeNumber regB (if h % 12 = 0 then 12 else h % 12) ||| if 12 ≤ h then 0x80#8 else 0#8
  else encodeNumber regB h

def encodeTime (t : Datetime) (regB : BitVec 8) : RtcRegs where
  second := encodeNumber regB t.second.toNat
  minute := encodeNumber regB t.minute.toNat
  hour := encodeHour regB t.hour.toNat
  day := encodeNumber regB t.day.toNat
  month := encodeNumber regB t.month.toNat
  year := encodeNumber regB (t.year.toNat - 2000)

/-- One number of the record, decoded. -/
def decodeNumber {w : Nat} (regB : BitVec 8) (x : BitVec w) : BitVec w :=
  if regB &&& 0x04#8 = 0#8 then fromBcd x else x

def decodeHour (regB : BitVec 8) (hour : BitVec 8) : BitVec 8 :=
  let hour :=
    if regB &&& 0x04#8 = 0#8 then
      (hour &&& 0x0F#8) + (hour &&& 0x70#8) / 16#8 * 10#8 ||| hour &&& 0x80#8
    else hour
  if regB &&& 0x02#8 = 0#8 ∧ hour &&& 0x80#8 ≠ 0#8 then ((hour &&& 0x7F#8) + 12#8) % 24#8
  else hour

theorem decodeTime_eq (r : RtcRegs) (regB : BitVec 8) : decodeTime r regB =
    ⟨decodeNumber regB r.second, decodeNumber regB r.minute, decodeHour regB r.hour,
      decodeNumber regB r.day, decodeNumber regB r.month,
      decodeNumber regB (r.year.setWidth 16) + 2000#16⟩ := by
  unfold decodeTime decodeNumber decodeHour
  split <;> simp only <;> split <;> rfl

theorem decodeNumber_encodeNumber (regB : BitVec 8) {n : Nat} (h : n < 100) :
    decodeNumber regB (encodeNumber regB n) = BitVec.ofNat 8 n := by
  have hbcd : ∀ n < 100, fromBcd (BitVec.ofNat 8 (n / 10 * 16 + n % 10)) = BitVec.ofNat 8 n := by
    decide
  unfold decodeNumber encodeNumber
  split
  · exact hbcd n h
  · rfl

theorem decodeNumber_encodeNumber_wide (regB : BitVec 8) {n : Nat} (h : n < 100) :
    decodeNumber regB ((encodeNumber regB n).setWidth 16) = BitVec.ofNat 16 n := by
  have hbcd : ∀ n < 100,
      fromBcd ((BitVec.ofNat 8 (n / 10 * 16 + n % 10)).setWidth 16) = BitVec.ofNat 16 n := by
    decide
  have hbin : ∀ n < 100, (BitVec.ofNat 8 n).setWidth 16 = BitVec.ofNat 16 n := by decide
  unfold decodeNumber encodeNumber
  split
  · exact hbcd n h
  · exact hbin n h

theorem decodeHour_encodeHour (regB : BitVec 8) {h : Nat} (hlt : h < 24) :
    decodeHour regB (encodeHour regB h) = BitVec.ofNat 8 h ↔
      regB &&& 0x02#8 ≠ 0#8 ∨ (h ≠ 0 ∧ h ≠ 12) := by
  unfold decodeHour encodeHour encodeNumber
  by_cases hbcd : regB &&& 0x04#8 = 0#8 <;> by_cases htwelve : regB &&& 0x02#8 = 0#8 <;>
    simp only [hbcd, htwelve, if_true, if_false, true_and, false_and, not_true, not_false_eq_true,
      ne_eq, false_or, true_or, iff_true] <;>
    revert h <;> decide

theorem daysInMonth_le (month year : Nat) : daysInMonth month year ≤ 31 := by
  unfold daysInMonth
  split_ifs <;> omega

theorem ofNat_toNat_year {y : BitVec 16} (h : 2000 ≤ y.toNat) :
    BitVec.ofNat 16 (y.toNat - 2000) + 2000#16 = y := by
  apply BitVec.eq_of_toNat_eq
  have hlt := y.isLt
  simp [BitVec.toNat_add]
  omega

theorem decodeTime_encodeTime {t : Datetime} (ht : t.Valid) (regB : BitVec 8) :
    decodeTime (encodeTime t regB) regB
      = { t with hour := decodeHour regB (encodeHour regB t.hour.toNat) } := by
  have hdays := daysInMonth_le t.month.toNat t.year.toNat
  have hsecond := ht.second
  have hminute := ht.minute
  have hmonth := ht.month
  have hday := ht.day
  have hyear := ht.year
  rw [decodeTime_eq]
  simp only [encodeTime]
  rw [decodeNumber_encodeNumber regB (by omega), decodeNumber_encodeNumber regB (by omega),
    decodeNumber_encodeNumber regB (by omega), decodeNumber_encodeNumber regB (by omega),
    decodeNumber_encodeNumber_wide regB (by omega), ofNat_toNat_year hyear.1]
  simp

/-- The handler's record is the date-time that was set, except on a 12-hour clock in the
hour after midnight and the hour after noon. -/
theorem recordAt_encodeTime_iff {k k' : Kernel} {first : RtcRegs} {reads : List RtcRegs}
    {regB : BitVec 8} {t : Datetime} (ht : t.Valid) (hdue : (k.ticks + 1#16) % 1024#16 = 0#16)
    (hread : settleTime first reads = some (encodeTime t regB))
    (h : rtcHandler k first reads regB = some k') :
    recordAt k'.vm.pmm.mem = t ↔ regB &&& 0x02#8 ≠ 0#8 ∨ (t.hour ≠ 0#8 ∧ t.hour ≠ 12#8) := by
  have hhour := decodeHour_encodeHour regB ht.hour
  have hzero : t.hour.toNat = 0 ↔ t.hour = 0#8 := BitVec.toNat_inj (y := 0#8)
  have htwelve : t.hour.toNat = 12 ↔ t.hour = 12#8 := BitVec.toNat_inj (y := 12#8)
  rw [recordAt_rtcHandler hdue hread h, decodeTime_encodeTime ht]
  rw [BitVec.ofNat_toNat, BitVec.setWidth_eq, ne_eq, ne_eq, ne_eq, hzero, htwelve] at hhour
  rw [← hhour]
  constructor
  · intro heq
    exact congrArg Datetime.hour heq
  · intro heq
    rw [heq]

def clockKernel : Kernel := ⟨⟨⟨fun _ => 0#32, 0x30000, 0, 0, []⟩, 0, []⟩, true, 1023#16⟩

def leapDay : Datetime := ⟨9#8, 5#8, 13#8, 29#8, 2#8, 2024#16⟩

def newYear : Datetime := ⟨0#8, 30#8, 0#8, 1#8, 1#8, 2024#16⟩

theorem clockKernel_handler (t : Datetime) : ∃ k',
    rtcHandler clockKernel (encodeTime t 0#8) [encodeTime t 0#8] 0#8 = some k' := by
  simp [rtcHandler, clockKernel, settleTime]

theorem recordAt_encodeTime_iff_leapDay : ∃ k',
    rtcHandler clockKernel (encodeTime leapDay 0#8) [encodeTime leapDay 0#8] 0#8 = some k' ∧
      (recordAt k'.vm.pmm.mem = leapDay ↔
        (0#8 : BitVec 8) &&& 0x02#8 ≠ 0#8 ∨ (leapDay.hour ≠ 0#8 ∧ leapDay.hour ≠ 12#8)) := by
  obtain ⟨k', hk⟩ := clockKernel_handler leapDay
  have hvalid : leapDay.Valid := by constructor <;> decide
  exact ⟨k', hk, recordAt_encodeTime_iff hvalid (by decide) (by simp [settleTime]) hk⟩

theorem recordAt_newYear : ¬∀ (k k' : Kernel) (first : RtcRegs) (reads : List RtcRegs)
    (regB : BitVec 8) (t : Datetime), t.Valid → (k.ticks + 1#16) % 1024#16 = 0#16 →
    settleTime first reads = some (encodeTime t regB) →
    rtcHandler k first reads regB = some k' → recordAt k'.vm.pmm.mem = t := by
  intro hall
  obtain ⟨k', hk⟩ := clockKernel_handler newYear
  have hread : settleTime (encodeTime newYear 0#8) [encodeTime newYear 0#8]
      = some (encodeTime newYear 0#8) := by simp [settleTime]
  have hvalid : newYear.Valid := by constructor <;> decide
  have hstored := hall _ _ _ _ _ _ hvalid (by decide) hread hk
  rw [recordAt_rtcHandler (by decide) hread hk] at hstored
  exact absurd hstored (by decide)

end SplongleOS

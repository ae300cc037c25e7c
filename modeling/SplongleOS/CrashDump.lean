import SplongleOS.InterruptFrame
import SplongleOS.MemmapWalk
import SplongleOS.NumberPrinting
import SplongleOS.PrintedText
set_option autoImplicit false

/-! What `i686_ISR_Handler` prints of an interrupt nobody handles, and what can be read back
from it. -/

namespace SplongleOS
open ByteMemory Stdio

def gExceptions : List String :=
  ["Divide by zero error",
   "Debug",
   "Non-maskable Interrupt",
   "Breakpoint",
   "Overflow",
   "Bound Range Exceeded",
   "Invalid Opcode",
   "Device Not Available",
   "Double Fault",
   "Coprocessor Segment Overrun",
   "Invalid TSS",
   "Segment Not Present",
   "Stack-Segment Fault",
   "General Protection Fault",
   "Page Fault",
   "",
   "x87 Floating-Point Exception",
   "Alignment Check",
   "Machine Check",
   "SIMD Floating-Point Exception",
   "Virtualization Exception",
   "Control Protection Exception ",
   "",
   "",
   "",
   "",
   "",
   "",
   "Hypervisor Injection Exception",
   "VMM Communication Exception",
   "Security Exception",
   ""]

/-- The strings of the table, a pointer into it being an index. -/
def exceptionString (p : BitVec 32) : List (BitVec 8) :=
  (gExceptions.getD p.toNat "").toList.map ch

def Stdio.Console.print (c : Console) (format : String) (args : List Arg) : Console :=
  c.printk (fun i => (args.flatMap Arg.words).getD i 0#32) exceptionString (format.toList.map ch)

/-- The registers, as `i686_ISR_Handler` and `dump_regs` print them. -/
def Stdio.Console.printRegisters (c : Console) (regs : Registers) : Console :=
  let c := c.print "  eax=%x  ebx=%x  ecx=%x  edx=%x  esi=%x  edi=%x\n"
    ([regs.eax, regs.ebx, regs.ecx, regs.edx, regs.esi, regs.edi].map unsignedArg)
  let c := c.print "  esp=%x  ebp=%x  eip=%x  eflags=%x  cs=%x  ds=%x  ss=%x\n"
    ([regs.esp, regs.ebp, regs.eip, regs.eflags, regs.cs, regs.ds, regs.ss].map unsignedArg)
  c.print "  interrupt=%x  errorcode=%x\n" ([regs.interrupt, regs.errorCode].map unsignedArg)

def dumpRegs (c : Console) (regs : Registers) : Console :=
  (c.print "Dumping regs:\n" []).printRegisters regs

/-- How `i686_ISR_Handler` ends: in a handler, with its return, or in `i686_panic`. -/
inductive IsrEnd (κ : Type) where
  | handler (h : κ)
  | returned (c : Console)
  | panic (c : Console)

def i686IsrHandler {κ : Type} (handlers : Nat → Option κ) (c : Console) (regs : Registers) : IsrEnd κ :=
  match handlers regs.interrupt.toNat with
  | some h => .handler h
  | none =>
    if 32 ≤ regs.interrupt.toNat then
      .returned (c.print "Unhandled interrupt %d\n" [.number .none true regs.interrupt])
    else
      let c := c.print "Unhandled exception %d %s\n"
        [.number .none true regs.interrupt, .pointer regs.interrupt]
      .panic ((c.printRegisters regs).print "KERNEL PANIC!\n" [])

def words (s : String) : List (BitVec 8) := s.toList.map ch

def registerLine (fields : List (String × BitVec 32)) : List (BitVec 8) :=
  fields.flatMap (fun f => words "  " ++ words f.1 ++ ch '=' :: hexadecimal f.2.toNat) ++ [ch '\n']

def Registers.general (r : Registers) : List (String × BitVec 32) :=
  [("eax", r.eax), ("ebx", r.ebx), ("ecx", r.ecx), ("edx", r.edx), ("esi", r.esi), ("edi", r.edi)]

def Registers.control (r : Registers) : List (String × BitVec 32) :=
  [("esp", r.esp), ("ebp", r.ebp), ("eip", r.eip), ("eflags", r.eflags), ("cs", r.cs), ("ds", r.ds),
    ("ss", r.ss)]

def Registers.cause (r : Registers) : List (String × BitVec 32) :=
  [("interrupt", r.interrupt), ("errorcode", r.errorCode)]

def Registers.text (r : Registers) : List (BitVec 8) :=
  registerLine r.general ++ registerLine r.control ++ registerLine r.cause

def interruptText (v : Nat) : List (BitVec 8) :=
  words "Unhandled interrupt " ++ decimal v ++ words "\n"

def exceptionText (v : Nat) : List (BitVec 8) :=
  words "Unhandled exception " ++ decimal v ++ words " " ++ words (gExceptions.getD v "") ++ words "\n"

def crashText (v : Nat) (r : Registers) : List (BitVec 8) :=
  exceptionText v ++ r.text ++ words "KERNEL PANIC!\n"

def Stdio.Console.emit (c : Console) (text : List (BitVec 8)) : Console := text.foldl Console.putc c

def hexDigit (c : BitVec 8) : Bool := (digitValue 16 c).isSome

/-- Reading it back: the numbers behind the equals signs. -/
def dumped : List (BitVec 8) → List Nat
  | [] => []
  | c :: rest =>
    if c = ch '=' then (parseUnsigned 16 (rest.takeWhile hexDigit)).toList ++ dumped rest
    else dumped rest

theorem Stdio.Console.emit_append (c : Console) (a b : List (BitVec 8)) :
    c.emit (a ++ b) = (c.emit a).emit b :=
  List.foldl_append

theorem cString_words {s : String} (h : Plain s) : cString (words s) = words s :=
  List.takeWhile_eq_self_iff.mpr fun _ hc => decide_eq_true fun hnul => h.2 (hnul ▸ hc)

theorem lineShown_registers (fields : List (String × BitVec 32)) :
    lineShown exceptionString (fields.map fun f => ("  " ++ f.1 ++ "=", .hex f.2)) "\n" =
      registerLine fields := by
  have hlast : "\n".toList.map ch = [ch '\n'] := by decide
  rw [lineShown, registerLine, hlast, List.flatMap_map]
  congr 1
  refine List.flatMap_congr fun f _ => ?_
  simp [words, Slot.shown]

theorem print_registers (c : Console) (format : String) (names : List String)
    (fields : List (String × BitVec 32)) (hnames : fields.map Prod.fst = names)
    (hformat : format.toList.map ch =
      lineFormat (names.map fun name => ("  " ++ name ++ "=", .hex 0#32)) "\n")
    (hplain : ∀ name ∈ names, Plain ("  " ++ name ++ "=")) :
    c.print format (fields.map fun f => unsignedArg f.2) = c.emit (registerLine fields) := by
  subst hnames
  have hletters : lineFormat (fields.map fun f => ("  " ++ f.1 ++ "=", Slot.hex f.2)) "\n" =
      format.toList.map ch := by
    rw [hformat]
    simp [lineFormat, List.flatMap_map, Slot.letter]
  have hline := c.printk_line exceptionString _ hletters.symm
    (by
      intro f hf
      obtain ⟨g, hg, rfl⟩ := List.mem_map.mp hf
      exact hplain g.1 (List.mem_map_of_mem hg))
    (by decide)
  rw [lineShown_registers, List.map_map] at hline
  exact hline

theorem printRegisters_text (c : Console) (r : Registers) : c.printRegisters r = c.emit r.text := by
  have hgeneral (c : Console) := print_registers c
    "  eax=%x  ebx=%x  ecx=%x  edx=%x  esi=%x  edi=%x\n" ["eax", "ebx", "ecx", "edx", "esi", "edi"]
    r.general rfl (by decide) (by decide)
  have hcontrol (c : Console) := print_registers c
    "  esp=%x  ebp=%x  eip=%x  eflags=%x  cs=%x  ds=%x  ss=%x\n"
    ["esp", "ebp", "eip", "eflags", "cs", "ds", "ss"] r.control rfl (by decide) (by decide)
  have hcause (c : Console) := print_registers c "  interrupt=%x  errorcode=%x\n"
    ["interrupt", "errorcode"] r.cause rfl (by decide) (by decide)
  rw [Registers.text, Console.emit_append, Console.emit_append, ← hgeneral, ← hcontrol, ← hcause]
  rfl

theorem toNat_small {v : Nat} (hv : v < 256) : (BitVec.ofNat 32 v).toNat = v := by
  rw [BitVec.toNat_ofNat, Nat.mod_eq_of_lt (by omega)]

theorem toInt_small {v : Nat} (hv : v < 256) : (BitVec.ofNat 32 v).toInt = v := by
  rw [BitVec.toInt_eq_toNat_of_lt, toNat_small hv]
  rw [toNat_small hv]
  omega

theorem print_interrupt (c : Console) {v : Nat} (hv : v < 256) :
    c.print "Unhandled interrupt %d\n" [.number .none true (BitVec.ofNat 32 v)] =
      c.emit (interruptText v) := by
  have hformat : "Unhandled interrupt %d\n".toList.map ch =
      lineFormat [("Unhandled interrupt ", .dec 0#32)] "\n" := by decide
  have hplain : Plain "Unhandled interrupt " := by decide
  have hline := c.printk_line exceptionString
    [("Unhandled interrupt ", .dec (BitVec.ofNat 32 v))] hformat (by simpa using hplain) (by decide)
  refine hline.trans (congrArg c.emit ?_)
  simp [lineShown, interruptText, Slot.shown, words, toInt_small hv, numeral_natCast]

theorem plain_exception {v : Nat} (hv : v < 32) :
    Plain (gExceptions.getD v "") ∧ ch '=' ∉ words (gExceptions.getD v "") := by
  have hnames : ∀ name ∈ gExceptions, Plain name ∧ ch '=' ∉ words name := by decide
  have hmem : gExceptions.getD v "" ∈ gExceptions := by
    rw [List.getD_eq_getElem _ _ hv]
    exact List.getElem_mem _
  exact hnames _ hmem

theorem print_exception (c : Console) {v : Nat} (hv : v < 32) :
    c.print "Unhandled exception %d %s\n"
      [.number .none true (BitVec.ofNat 32 v), .pointer (BitVec.ofNat 32 v)] =
        c.emit (exceptionText v) := by
  have hformat : "Unhandled exception %d %s\n".toList.map ch =
      lineFormat [("Unhandled exception ", .dec 0#32), (" ", .str 0#32)] "\n" := by decide
  have hplain : Plain "Unhandled exception " ∧ Plain " " := by decide
  have hline := c.printk_line exceptionString
    [("Unhandled exception ", .dec (BitVec.ofNat 32 v)), (" ", .str (BitVec.ofNat 32 v))] hformat
    (by simpa using hplain) (by decide)
  refine hline.trans (congrArg c.emit ?_)
  have hname : cString (exceptionString (BitVec.ofNat 32 v)) = words (gExceptions.getD v "") := by
    rw [exceptionString, toNat_small (by omega)]
    exact cString_words (plain_exception hv).1
  simp [lineShown, exceptionText, Slot.shown, words, toInt_small (by omega : v < 256),
    numeral_natCast, hname]

theorem print_words (c : Console) {text : String} (h : Plain text) :
    c.print text [] = c.emit (words text) := by
  have hformat : text.toList.map ch = lineFormat [] text := by simp [lineFormat]
  have hline := c.printk_line exceptionString [] hformat (by simp) h
  refine hline.trans (congrArg c.emit ?_)
  rw [lineShown, List.flatMap_nil, List.nil_append, words]

theorem dumpRegs_text (c : Console) (r : Registers) :
    dumpRegs c r = c.emit (words "Dumping regs:\n" ++ r.text) := by
  have hfirst : Plain "Dumping regs:\n" := by decide
  rw [dumpRegs, printRegisters_text, print_words c hfirst, Console.emit_append]

theorem dumped_behind {pre : List (BitVec 8)} (h : ch '=' ∉ pre) (rest : List (BitVec 8)) :
    dumped (pre ++ rest) = dumped rest := by
  induction pre with
  | nil => rfl
  | cons c pre ih =>
    rw [List.mem_cons, not_or] at h
    rw [List.cons_append, dumped, if_neg (Ne.symm h.1), ih h.2]

theorem digit_of_parseDigits {radix n : Nat} {str : List (BitVec 8)}
    (h : parseDigits radix str = some n) : ∀ c ∈ str, (digitValue radix c).isSome = true := by
  induction str using List.reverseRecOn generalizing n with
  | nil => simp
  | append_singleton str c ih =>
    rw [parseDigits_append] at h
    obtain ⟨m, hm, h⟩ := Option.bind_eq_some_iff.mp h
    obtain ⟨d, hd, -⟩ := Option.bind_eq_some_iff.mp h
    intro e he
    rcases List.mem_append.mp he with hmem | hmem
    · exact ih hm e hmem
    · rw [List.mem_singleton.mp hmem, hd]
      rfl

theorem hexDigit_hexadecimal (n : Nat) : ∀ c ∈ hexadecimal n, hexDigit c = true :=
  digit_of_parseDigits (parseDigits_toDigits (by decide) (by decide) n)

theorem equals_hexadecimal (n : Nat) : ch '=' ∉ hexadecimal n := fun h =>
  absurd (hexDigit_hexadecimal n _ h) (by decide)

theorem equals_decimal (n : Nat) : ch '=' ∉ decimal n := fun h =>
  absurd (digit_of_parseDigits (parseDigits_toDigits (by decide) (by decide) n) _ h) (by decide)

theorem equals_exceptionText {v : Nat} (hv : v < 32) : ch '=' ∉ exceptionText v := by
  have hlabels : ch '=' ∉ words "Unhandled exception " ∧ ch '=' ∉ words " " ∧ ch '=' ∉ words "\n" := by
    decide
  have hname := (plain_exception hv).2
  simp only [exceptionText, List.mem_append, not_or]
  exact ⟨⟨⟨⟨hlabels.1, equals_decimal v⟩, hlabels.2.1⟩, hname⟩, hlabels.2.2⟩

theorem dumped_number (n : Nat) {rest : List (BitVec 8)} (hrest : rest.takeWhile hexDigit = []) :
    dumped (ch '=' :: (hexadecimal n ++ rest)) = n :: dumped rest := by
  have hdigits : (hexadecimal n ++ rest).takeWhile hexDigit = hexadecimal n := by
    rw [List.takeWhile_append_of_pos (hexDigit_hexadecimal n), hrest, List.append_nil]
  have hvalue : parseUnsigned 16 (hexadecimal n) = some n :=
    parseUnsigned_toDigits (by decide) (by decide) n
  rw [dumped, if_pos rfl, hdigits, hvalue, dumped_behind (equals_hexadecimal n)]
  rfl

theorem registerLine_cons (f : String × BitVec 32) (fields : List (String × BitVec 32))
    (rest : List (BitVec 8)) :
    registerLine (f :: fields) ++ rest = words "  " ++ words f.1 ++
      ch '=' :: (hexadecimal f.2.toNat ++ (registerLine fields ++ rest)) := by
  simp [registerLine]

theorem registerLine_start (fields : List (String × BitVec 32)) (rest : List (BitVec 8)) :
    (registerLine fields ++ rest).takeWhile hexDigit = [] := by
  have hblank : words "  " = [ch ' ', ch ' '] := by decide
  have hnot : hexDigit (ch ' ') = false ∧ hexDigit (ch '\n') = false := by decide
  cases fields with
  | nil => simp [registerLine, hnot.2]
  | cons f fields =>
    rw [registerLine_cons, hblank]
    simp [hnot.1]

theorem dumped_registerLine {fields : List (String × BitVec 32)}
    (hnames : ∀ name ∈ fields.map Prod.fst, ch '=' ∉ words name) (rest : List (BitVec 8)) :
    dumped (registerLine fields ++ rest) = fields.map (·.2.toNat) ++ dumped rest := by
  induction fields with
  | nil => exact dumped_behind (by decide : ch '=' ∉ [ch '\n']) rest
  | cons f fields ih =>
    rw [List.map_cons, List.forall_mem_cons] at hnames
    have hpre : ch '=' ∉ words "  " ++ words f.1 := by
      rw [List.mem_append, not_or]
      exact ⟨by decide, hnames.1⟩
    rw [registerLine_cons, dumped_behind hpre, dumped_number _ (registerLine_start fields rest),
      ih hnames.2]
    rfl

def Registers.values (r : Registers) : List Nat :=
  (r.general ++ r.control ++ r.cause).map (·.2.toNat)

theorem dumped_crashText {v : Nat} (hv : v < 32) (r : Registers) :
    dumped (crashText v r) = r.values := by
  have hlast : dumped (words "KERNEL PANIC!\n") = [] := by decide
  have hgeneral : ∀ name ∈ r.general.map Prod.fst, ch '=' ∉ words name := by
    change ∀ name ∈ ["eax", "ebx", "ecx", "edx", "esi", "edi"], ch '=' ∉ words name
    decide
  have hcontrol : ∀ name ∈ r.control.map Prod.fst, ch '=' ∉ words name := by
    change ∀ name ∈ ["esp", "ebp", "eip", "eflags", "cs", "ds", "ss"], ch '=' ∉ words name
    decide
  have hcause : ∀ name ∈ r.cause.map Prod.fst, ch '=' ∉ words name := by
    change ∀ name ∈ ["interrupt", "errorcode"], ch '=' ∉ words name
    decide
  rw [crashText, Registers.text, List.append_assoc, List.append_assoc, List.append_assoc,
    dumped_behind (equals_exceptionText hv), dumped_registerLine hgeneral, dumped_registerLine hcontrol,
    dumped_registerLine hcause, hlast]
  simp [Registers.values]

theorem i686IsrHandler_interrupt {κ : Type} {handlers : Nat → Option κ} {v : Nat} {r : Registers}
    (hv : v < 256) (hinterrupt : r.interrupt = BitVec.ofNat 32 v) (hnone : handlers v = none)
    (hdevice : 32 ≤ v) (c : Console) :
    i686IsrHandler handlers c r = .returned (c.emit (interruptText v)) := by
  rw [i686IsrHandler, hinterrupt, toNat_small hv, hnone]
  dsimp only
  rw [if_pos hdevice, print_interrupt c hv]

theorem i686IsrHandler_exception {κ : Type} {handlers : Nat → Option κ} {v : Nat} {r : Registers}
    (hinterrupt : r.interrupt = BitVec.ofNat 32 v) (hnone : handlers v = none) (hv : v < 32)
    (c : Console) : i686IsrHandler handlers c r = .panic (c.emit (crashText v r)) := by
  rw [i686IsrHandler, hinterrupt, toNat_small (by omega), hnone]
  dsimp only
  have hlast : Plain "KERNEL PANIC!\n" := by decide
  rw [if_neg (by omega), print_exception c hv, printRegisters_text, print_words _ hlast, crashText,
    Console.emit_append, Console.emit_append]

/-- An interrupt without a handler, from the stub to the screen. The line of a device returns; after
that of an exception the kernel stops, with a text from which the registers of the interrupted code
can be read back. In the place of esp and ss it shows the two words on top of its stack. -/
theorem crash_dump {κ : Type} (C : IsrCode) (v : Fin 256) (error : Option (BitVec 32)) (s : Core)
    (handlers : Nat → Option κ) (c : Console) (hfits : Fits v error) (hroom : 64 ≤ s.esp.toNat)
    (hend : s.esp.toNat + 8 ≤ 2 ^ 32) (hnone : handlers v.val = none) :
    let e := s.enter C v error
    let regs := Registers.read e.mem (load32 e.mem (e.esp.toNat + 4)).toNat
    (32 ≤ v.val → i686IsrHandler handlers c regs = .returned (c.emit (interruptText v.val))) ∧
    (v.val < 32 →
      i686IsrHandler handlers c regs = .panic (c.emit (crashText v.val regs)) ∧
      dumped (crashText v.val regs) =
        [s.eax.toNat, s.ebx.toNat, s.ecx.toNat, s.edx.toNat, s.esi.toNat, s.edi.toNat,
          (load32 s.mem s.esp.toNat).toNat, s.ebp.toNat, s.eip.toNat, s.eflags.toNat, s.cs.toNat,
          s.ds.toNat, (load32 s.mem (s.esp.toNat + 4)).toNat, v.val, (error.getD 0#32).toNat]) := by
  intro e regs
  have hregs : regs = s.frame v error := read_enter C hfits hroom hend
  have hinterrupt : regs.interrupt = BitVec.ofNat 32 v.val := by rw [hregs]; rfl
  refine ⟨fun hdevice => i686IsrHandler_interrupt v.isLt hinterrupt hnone hdevice c, fun hv =>
    ⟨i686IsrHandler_exception hinterrupt hnone hv c, ?_⟩⟩
  have hselector (w : BitVec 16) : (w.setWidth 32).toNat = w.toNat := by
    rw [BitVec.toNat_setWidth, Nat.mod_eq_of_lt (by omega)]
  rw [dumped_crashText hv, hregs]
  simp [Registers.values, Registers.general, Registers.control, Registers.cause, Core.frame,
    hselector, toNat_small v.isLt]

theorem crash_dump_page_fault :
    let s : Core := ⟨1#32, 2#32, 3#32, 4#32, 5#32, 6#32, 7#32, 0x1800#32, 0x10100#32, 0x202#32,
      0x08#16, 0x10#16, 0x10#16, 0x10#16, 0x10#16, fun _ => 0#8⟩
    let e := s.enter spacedStubs 14 (some 2#32)
    let regs := Registers.read e.mem (load32 e.mem (e.esp.toNat + 4)).toNat
    i686IsrHandler (fun _ => (none : Option Unit)) (blankConsole 0 0) regs =
        .panic ((blankConsole 0 0).emit (crashText 14 regs)) ∧
      dumped (crashText 14 regs) =
        [s.eax.toNat, s.ebx.toNat, s.ecx.toNat, s.edx.toNat, s.esi.toNat, s.edi.toNat, 0,
          s.ebp.toNat, 0x10100, 0x202, 0x08, 0x10, 0, 14, 2] :=
  (crash_dump spacedStubs 14 (some 2#32) _ _ (blankConsole 0 0) (by decide) (by decide) (by decide)
    rfl).2 (by decide)

end SplongleOS

import Ts3100.Timer.Device

/-! # Latched counts

A latch command copies the count aside, and the two reads that follow take its bytes from the copy.

* `Latched` — what a channel keeps between the command and the reads.
* `reads_eq_snapshot_iff` — when the two bytes are those of the count at the command: a further
  Counter Latch command replaces the copy, also between the two reads. -/

namespace Ts3100

/-! ## Commands that latch -/

namespace TimerOperation

/-- A Counter Latch command for channel `i`. -/
def latchesCount (i : Fin 3) : TimerOperation → Bool
  | .writeCommand command =>
      (command.extractLsb' 6 2).toNat = i.val &&
        AccessMode.ofBits (command.extractLsb' 4 2) = .latchCountValue
  | _ => false

/-- A Read-Back command that latches the count of channel `i`; one that latches the status too is
left out, as the status is then read first. -/
def readsBackCount (i : Fin 3) : TimerOperation → Bool
  | .writeCommand command =>
      (command.extractLsb' 6 2).toNat = 3 && command.getLsbD (1 + i) &&
        command.getLsbD 4 && !command.getLsbD 5
  | _ => false

/-- Operations between a latch command for channel `i` and the reads: on other channels, count
writes, and further Counter Latch commands. -/
def sparesReads (i : Fin 3) : TimerOperation → Bool
  | .setPrescaler _ | .writeRegister _ _ => true
  | .readRegister timer => timer ≠ i
  | .writeCommand command =>
      if (command.extractLsb' 6 2).toNat = 3 then
        !command.getLsbD (1 + i)
      else
        (command.extractLsb' 6 2).toNat ≠ i.val ||
          AccessMode.ofBits (command.extractLsb' 4 2) = .latchCountValue

end TimerOperation

/-- A mask of the low byte. -/
theorem setWidth_and_eq_lowByte (count : BitVec 16) :
    (count &&& 0x00FF#16).setWidth 8 = lowByte count := by
  ext k hk
  interval_cases k <;> simp [lowByte]

/-- A shift to the high byte. -/
theorem setWidth_shift_eq_highByte (count : BitVec 16) :
    ((count >>> 8) &&& 0x00FF#16).setWidth 8 = highByte count := by
  ext k hk
  interval_cases k <;> simp [highByte]

namespace TimerChannel

/-- The channel holds a latched count, and reads the bytes of a binary count in turn. -/
structure Latched (c : TimerChannel) (next : ByteSelect) (count : BitVec 16) : Prop where
  accessMode : c.accessMode = .lowByteHighByte
  binary : c.binaryCodedDecimal = false
  latched : c.latched = true
  accessByte : c.accessByte = next
  latch : c.latch = count

variable {c : TimerChannel} {i : Fin 3} {next : ByteSelect} {count : BitVec 16}

/-- Time passing keeps what is latched. -/
theorem Latched.resolve (h : c.Latched next count) (prescaler : BitVec 16) (now : Nat) :
    (c.resolve prescaler now).Latched next count := by
  unfold TimerChannel.resolve
  split
  · exact h
  · exact ⟨h.accessMode, h.binary, h.latched, h.accessByte, h.latch⟩

/-- Count writes leave the latch alone. -/
theorem Latched.writeCount (h : c.Latched next count) (value : Byte) (now : Nat) :
    (c.writeCount value now).Latched next count := by
  have hfinish : ∀ c' : TimerChannel, c'.Latched next count →
      (c'.finishLoad now).Latched next count := by
    intro c' h'
    unfold finishLoad
    split
    · exact ⟨h'.accessMode, h'.binary, h'.latched, h'.accessByte, h'.latch⟩
    · exact h'
  have hmode := h.accessMode
  cases hbyte : c.writeByte with
  | lowByte =>
      simp only [TimerChannel.writeCount, hbyte, hmode, if_pos]
      exact ⟨rfl, h.binary, h.latched, h.accessByte, h.latch⟩
  | highByte =>
      simp only [TimerChannel.writeCount, hbyte, hmode, if_pos]
      exact hfinish _ ⟨rfl, h.binary, h.latched, h.accessByte, h.latch⟩
  | statusByte =>
      simp only [TimerChannel.writeCount, hbyte]
      exact ⟨hmode, h.binary, h.latched, h.accessByte, h.latch⟩

/-- After the low byte comes the high byte, and the count stays latched. -/
theorem Latched.nextByte (h : c.Latched .lowByte count) : c.nextByte.Latched .highByte count := by
  have hmode : c.accessMode ≠ .lowByteOnly := by simp [h.accessMode]
  simp only [TimerChannel.nextByte, h.accessByte]
  rw [if_neg hmode]
  exact ⟨h.accessMode, h.binary, h.latched, rfl, h.latch⟩

/-- Of the operations before the reads, a Counter Latch command replaces the latched count, and the
others keep it. -/
theorem Latched.perform (h : c.Latched next count) (prescaler : BitVec 16) (now : Nat)
    {op : TimerOperation} (hspares : op.sparesReads i = true) :
    (c.perform i prescaler now op).Latched next
      (if op.latchesCount i then (c.resolve prescaler now).value else count) := by
  have hresolve := h.resolve prescaler now
  cases op with
  | setPrescaler => exact hresolve
  | writeRegister timer value =>
      simp only [TimerChannel.perform]
      by_cases htimer : timer = i
      · rw [if_pos htimer]
        exact h.writeCount value now
      · rw [if_neg htimer]
        exact h
  | readRegister timer =>
      have htimer : timer ≠ i := by simpa [TimerOperation.sparesReads] using hspares
      simp only [TimerChannel.perform]
      rw [if_neg htimer]
      exact hresolve
  | writeCommand command =>
      simp only [TimerChannel.perform, TimerChannel.command]
      by_cases hreadBack : (command.extractLsb' 6 2).toNat = 3
      · -- a read-back command that spares the channel has its bit clear
        have hselected : command.getLsbD (1 + i) = false := by
          simpa [TimerOperation.sparesReads, hreadBack] using hspares
        have hother : (TimerOperation.writeCommand command).latchesCount i = false := by
          simp only [TimerOperation.latchesCount, Bool.and_eq_false_iff, decide_eq_false_iff_not]
          omega
        rw [if_pos hreadBack, hselected, hother]
        exact hresolve
      · rw [if_neg hreadBack]
        by_cases hchannel : (command.extractLsb' 6 2).toNat = i.val
        · -- the only other command to this channel that spares it is a latch command
          have hlatch : AccessMode.ofBits (command.extractLsb' 4 2) = .latchCountValue := by
            rw [TimerOperation.sparesReads, if_neg hreadBack] at hspares
            simpa [hchannel] using hspares
          have hlatches : (TimerOperation.writeCommand command).latchesCount i = true := by
            simp [TimerOperation.latchesCount, hchannel, hlatch]
          rw [if_pos hchannel, if_pos hlatch, if_pos hlatches]
          exact ⟨hresolve.accessMode, hresolve.binary, rfl, hresolve.accessByte, rfl⟩
        · have hother : (TimerOperation.writeCommand command).latchesCount i = false := by
            simp only [TimerOperation.latchesCount, hchannel, decide_false, Bool.false_and]
          rw [if_neg hchannel, hother]
          exact hresolve

/-- A latch command latches the count. -/
theorem latched_perform (hmode : c.accessMode = .lowByteHighByte)
    (hbinary : c.binaryCodedDecimal = false) (hnext : c.accessByte = .lowByte)
    (prescaler : BitVec 16) (now : Nat) {op : TimerOperation}
    (hlatches : op.latchesCount i ∨ op.readsBackCount i) :
    (c.perform i prescaler now op).Latched .lowByte (c.resolve prescaler now).value := by
  have hkept : ∀ c' : TimerChannel, c' = c.resolve prescaler now →
      c'.accessMode = .lowByteHighByte ∧ c'.binaryCodedDecimal = false ∧
        c'.accessByte = .lowByte := by
    rintro c' rfl
    unfold TimerChannel.resolve
    split <;> exact ⟨hmode, hbinary, hnext⟩
  obtain ⟨hmode', hbinary', hnext'⟩ := hkept _ rfl
  cases op with
  | setPrescaler | writeRegister | readRegister =>
      simp [TimerOperation.latchesCount, TimerOperation.readsBackCount] at hlatches
  | writeCommand command =>
      simp only [TimerChannel.perform, TimerChannel.command]
      rcases hlatches with hlatches | hlatches
      · obtain ⟨hchannel, hlatch⟩ : (command.extractLsb' 6 2).toNat = i.val ∧
            AccessMode.ofBits (command.extractLsb' 4 2) = .latchCountValue := by
          simpa [TimerOperation.latchesCount] using hlatches
        rw [if_neg (by omega), if_pos hchannel, if_pos hlatch]
        exact ⟨hmode', hbinary', rfl, hnext', rfl⟩
      · obtain ⟨⟨⟨hchannel, hselected⟩, hstatus⟩, hcount⟩ :
            (((command.extractLsb' 6 2).toNat = 3 ∧ command.getLsbD (1 + i) = true) ∧
              command.getLsbD 4 = true) ∧ command.getLsbD 5 = false := by
          simpa [TimerOperation.readsBackCount] using hlatches
        rw [if_pos hchannel, if_pos hselected, readBack, hstatus, hcount]
        exact ⟨hmode', hbinary', rfl, by simp [latchCount, hmode'], rfl⟩

end TimerChannel

/-! ## Reads -/

namespace ProgrammableIntervalTimer

variable {t : ProgrammableIntervalTimer} {i : Fin 3} {count : BitVec 16}

/-- The count taken by the last Counter Latch command for a channel in a run, `count` if there is
none. -/
def lastLatched (i : Fin 3) (count : BitVec 16) :
    ProgrammableIntervalTimer → List (Nat × TimerOperation) → BitVec 16
  | _, [] => count
  | t, (now, op) :: run =>
      lastLatched i (if op.latchesCount i then ((t.resolveTimers now).state i).value else count)
        (t.perform now op) run

/-- The last count latched over two runs. -/
theorem lastLatched_append (run run' : List (Nat × TimerOperation)) :
    lastLatched i count t (run ++ run') =
      lastLatched i (lastLatched i count t run) (t.after run) run' := by
  induction run generalizing t count with
  | nil => rfl
  | cons e run ih => exact ih

/-- The latch after operations that spare the reads. -/
theorem latched_after {next : ByteSelect} (run : List (Nat × TimerOperation))
    (hspares : ∀ e ∈ run, e.2.sparesReads i = true) (h : (t.state i).Latched next count) :
    ((t.after run).state i).Latched next (lastLatched i count t run) := by
  induction run generalizing t count with
  | nil => exact h
  | cons e run ih =>
      refine ih (fun e' he => hspares e' (List.mem_cons_of_mem _ he)) ?_
      rw [state_perform]
      exact h.perform t.timerPrescaler e.1 (hspares e List.mem_cons_self)

/-- The first of the two reads. -/
theorem readRegister_lowByte (now : Nat) (h : (t.state i).Latched .lowByte count) :
    (t.readRegister i now).1 = lowByte count ∧
      ((t.readRegister i now).2.state i).Latched .highByte count := by
  have hresolve := h.resolve t.timerPrescaler now
  constructor
  · have hbinary : ((t.resolveTimers now).state i).binaryCodedDecimal = false := hresolve.binary
    have hnext : ((t.resolveTimers now).state i).accessByte = .lowByte := hresolve.accessByte
    simp only [readRegister, h.latched, h.latch, if_pos, TimerChannel.readByte, hnext, hbinary]
    exact setWidth_and_eq_lowByte count
  · simp only [readRegister, state_update, if_pos]
    show ((t.state i).resolve t.timerPrescaler now).nextByte.Latched _ _
    exact hresolve.nextByte

/-- The second read. -/
theorem readRegister_highByte (now : Nat) (h : (t.state i).Latched .highByte count) :
    (t.readRegister i now).1 = highByte count := by
  have hresolve := h.resolve t.timerPrescaler now
  have hbinary : ((t.resolveTimers now).state i).binaryCodedDecimal = false := hresolve.binary
  have hnext : ((t.resolveTimers now).state i).accessByte = .highByte := hresolve.accessByte
  simp only [readRegister, h.latched, h.latch, if_pos, TimerChannel.readByte, hnext, hbinary]
  exact setWidth_shift_eq_highByte count

/-- **When a latched count is one snapshot.** A latch command for a binary two-byte channel with the
low byte next, then operations that spare the reads, the first read, more such operations, and the
second read: the bytes read are those of the count at the command iff the last further Counter Latch
command before the first read takes a count with the same low byte, and the last before the second
read one with the same high byte. -/
theorem reads_eq_snapshot_iff (t : ProgrammableIntervalTimer) (i : Fin 3)
    (hmode : (t.state i).accessMode = .lowByteHighByte)
    (hbinary : (t.state i).binaryCodedDecimal = false)
    (hnext : (t.state i).accessByte = .lowByte) (start first second : Nat) (op : TimerOperation)
    (hlatches : op.latchesCount i ∨ op.readsBackCount i)
    (before between : List (Nat × TimerOperation))
    (hbefore : ∀ e ∈ before, e.2.sparesReads i = true)
    (hbetween : ∀ e ∈ between, e.2.sparesReads i = true) :
    let count := ((t.resolveTimers start).state i).value
    let t₀ := t.perform start op
    let low := (t₀.after before).readRegister i first
    let high := (low.2.after between).readRegister i second
    (low.1 = lowByte count ∧ high.1 = highByte count) ↔
      lowByte (lastLatched i count t₀ before) = lowByte count ∧
        highByte (lastLatched i count t₀ (before ++ (first, .readRegister i) :: between)) =
          highByte count := by
  intro count t₀ low high
  have hstart : (t₀.state i).Latched .lowByte count := by
    rw [show t₀ = t.perform start op from rfl, state_perform]
    exact TimerChannel.latched_perform hmode hbinary hnext t.timerPrescaler start hlatches
  obtain ⟨hlow, hlatched⟩ := readRegister_lowByte first (latched_after before hbefore hstart)
  have hhigh := readRegister_highByte second (latched_after between hbetween hlatched)
  -- the read itself latches nothing
  have hwhole : lastLatched i count t₀ (before ++ (first, .readRegister i) :: between)
      = lastLatched i (lastLatched i count t₀ before) low.2 between :=
    lastLatched_append _ _
  rw [hwhole]
  exact and_congr (by rw [← hlow]) (by rw [← hhigh])

/-- A latch and two reads, with a count byte and another channel's read in between. -/
theorem reads_eq_snapshot_iff_loaded :
    let t := (init 0).after loadChannel0
    let low := ((t.perform 400 (.writeCommand 0x00#8)).after
      [(480, .writeRegister 0 0x05#8)]).readRegister 0 560
    let high := (low.2.after [(640, .readRegister 1)]).readRegister 0 720
    low.1 = lowByte 0x00FB#16 ∧ high.1 = highByte 0x00FB#16 :=
  (reads_eq_snapshot_iff ((init 0).after loadChannel0) 0 (by decide) (by decide) (by decide)
    400 560 720 (.writeCommand 0x00#8) (by decide) [(480, .writeRegister 0 0x05#8)]
    [(640, .readRegister 1)] (by decide) (by decide)).mpr (by decide)

/-- **A torn count.** A Counter Latch command at the count `0x0100`, the low byte read, one tick, a
second Counter Latch command, and the high byte read: the two bytes make zero. -/
theorem not_reads_eq_snapshot :
    ¬ ∀ (setup : List (Nat × TimerOperation)) (i : Fin 3) (start first second : Nat)
        (op : TimerOperation) (before between : List (Nat × TimerOperation)),
      let t := (init 0).after setup
      Timed 0 (setup ++ (start, op) :: before ++ (first, .readRegister i) :: between ++
        [(second, .readRegister i)]) →
      (t.state i).accessMode = .lowByteHighByte → (t.state i).binaryCodedDecimal = false →
      (t.state i).latched = false → (t.state i).accessByte = .lowByte →
      (op.latchesCount i ∨ op.readsBackCount i) →
      (∀ e ∈ before, e.2.sparesReads i = true) → (∀ e ∈ between, e.2.sparesReads i = true) →
      let count := ((t.resolveTimers start).state i).value
      let low := ((t.perform start op).after before).readRegister i first
      let high := (low.2.after between).readRegister i second
      low.1 = lowByte count ∧ high.1 = highByte count := by
  intro hclaim
  have htorn := hclaim loadChannel0 0 40 40 200 (.writeCommand 0x00#8) []
    [(160, .writeCommand 0x00#8)] (by decide) (by decide) (by decide) (by decide) (by decide)
    (by decide) (by decide) (by decide)
  exact absurd htorn (by decide)

end ProgrammableIntervalTimer

end Ts3100

import Ts3100.Timer.Reloads

/-! # Programming a channel

A configure command pauses a channel until the count bytes of its access mode are written; the last
of them loads the count from the reload register.

* `Programming` — a channel between the configure command and the last count byte.
* `programming_iff` — when the loaded count is the one the bytes stand for: the modes that write a
  single byte leave the other byte of the reload register as it was. -/

namespace Ts3100

namespace AccessMode

/-- How many count bytes a mode takes. -/
def byteCount : AccessMode → Nat
  | .latchCountValue => 0
  | .lowByteOnly => 1
  | .highByteOnly => 1
  | .lowByteHighByte => 2

/-- The count that the bytes of a mode stand for. -/
def count : AccessMode → List Byte → Nat
  | .lowByteOnly, [low] => low.toNat
  | .highByteOnly, [high] => 256 * high.toNat
  | .lowByteHighByte, [low, high] => low.toNat + 256 * high.toNat
  | _, _ => 0

/-- The byte of the reload register that a mode does not write is zero. -/
def NoStaleByte : AccessMode → BitVec 16 → Prop
  | .lowByteOnly, register => highByte register = 0#8
  | .highByteOnly, register => lowByte register = 0#8
  | _, _ => True

instance (mode : AccessMode) (register : BitVec 16) : Decidable (mode.NoStaleByte register) := by
  cases mode <;> unfold NoStaleByte <;> infer_instance

/-- The byte a mode is written first. -/
def firstByte : AccessMode → ByteSelect
  | .highByteOnly => .highByte
  | _ => .lowByte

end AccessMode

/-- Two bytes as a number. -/
theorem toNat_joinBytes (high low : Byte) :
    (joinBytes high low).toNat = low.toNat + 256 * high.toNat := by
  have hlow : low.toNat < 2 ^ 8 := low.isLt
  rw [joinBytes, BitVec.toNat_append, ← Nat.shiftLeft_add_eq_or_of_lt hlow, Nat.shiftLeft_eq]
  omega

/-! ## What loading depends on -/

namespace TimerChannel

/-- The channels agree on what a load depends on. -/
structure SameLoad (c c' : TimerChannel) : Prop where
  accessMode : c'.accessMode = c.accessMode
  binaryCodedDecimal : c'.binaryCodedDecimal = c.binaryCodedDecimal
  waitingForLoad : c'.waitingForLoad = c.waitingForLoad
  writeByte : c'.writeByte = c.writeByte
  reload : c'.reload = c.reload
  value : c'.value = c.value

variable {c c' : TimerChannel} {i : Fin 3}

/-- Selecting the next byte leaves what is loaded. -/
theorem sameLoad_nextByte (c : TimerChannel) : c.SameLoad c.nextByte := by
  unfold TimerChannel.nextByte
  split
  · split <;> exact ⟨rfl, rfl, rfl, rfl, rfl, rfl⟩
  · dsimp only
    split <;> exact ⟨rfl, rfl, rfl, rfl, rfl, rfl⟩
  · split <;> exact ⟨rfl, rfl, rfl, rfl, rfl, rfl⟩

/-- A command that does not configure the channel. -/
theorem sameLoad_command {command : Byte}
    (hconfigures : (TimerOperation.writeCommand command).configures i = false) :
    c.SameLoad (c.command i command) := by
  unfold TimerChannel.command
  split
  · split
    · unfold readBack latchCount
      dsimp only
      split <;> exact ⟨rfl, rfl, rfl, rfl, rfl, rfl⟩
    · exact ⟨rfl, rfl, rfl, rfl, rfl, rfl⟩
  · split
    · split
      · exact ⟨rfl, rfl, rfl, rfl, rfl, rfl⟩
      · rename_i hchannel hmode
        simp [TimerOperation.configures, hchannel, hmode] at hconfigures
    · exact ⟨rfl, rfl, rfl, rfl, rfl, rfl⟩

/-- A paused channel is not resolved. -/
theorem resolve_of_waiting (hwaiting : c.waitingForLoad = true) (prescaler : BitVec 16)
    (now : Nat) : c.resolve prescaler now = c := by
  rw [TimerChannel.resolve, if_pos hwaiting]

/-- An operation that neither configures a paused channel nor writes a count byte to it. -/
theorem sameLoad_perform (hwaiting : c.waitingForLoad = true) (prescaler : BitVec 16) (now : Nat)
    {op : TimerOperation} (hconfigures : op.configures i = false)
    (hbytes : countBytes i [(now, op)] = []) : c.SameLoad (c.perform i prescaler now op) := by
  have hresolve := resolve_of_waiting hwaiting prescaler now
  cases op with
  | setPrescaler =>
      simp only [TimerChannel.perform, hresolve]
      exact ⟨rfl, rfl, rfl, rfl, rfl, rfl⟩
  | writeCommand command =>
      simp only [TimerChannel.perform, hresolve]
      exact sameLoad_command hconfigures
  | writeRegister timer value =>
      have htimer : timer ≠ i := by
        rintro rfl
        simp [countBytes] at hbytes
      simp only [TimerChannel.perform, if_neg htimer]
      exact ⟨rfl, rfl, rfl, rfl, rfl, rfl⟩
  | readRegister timer =>
      simp only [TimerChannel.perform, hresolve]
      split
      · exact sameLoad_nextByte c
      · exact ⟨rfl, rfl, rfl, rfl, rfl, rfl⟩

/-! ## A channel being programmed -/

/-- A paused channel in binary format, which is written the byte `next` of its count next. -/
structure Programming (c : TimerChannel) (mode : AccessMode) (next : ByteSelect)
    (register count : BitVec 16) : Prop where
  accessMode : c.accessMode = mode
  binary : c.binaryCodedDecimal = false
  waiting : c.waitingForLoad = true
  writeByte : c.writeByte = next
  reload : c.reload = register
  value : c.value = count

variable {mode : AccessMode} {next : ByteSelect} {register count : BitVec 16}

/-- Being programmed depends on what is loaded. -/
theorem Programming.sameLoad (h : c.Programming mode next register count) (hsame : c.SameLoad c') :
    c'.Programming mode next register count where
  accessMode := hsame.accessMode.trans h.accessMode
  binary := hsame.binaryCodedDecimal.trans h.binary
  waiting := hsame.waitingForLoad.trans h.waiting
  writeByte := hsame.writeByte.trans h.writeByte
  reload := hsame.reload.trans h.reload
  value := hsame.value.trans h.value

/-- The configure command starts with the first byte of the mode. -/
theorem programming_configure (c : TimerChannel) (operatingMode : BitVec 3)
    (hmode : mode ≠ .latchCountValue) :
    (c.configure mode operatingMode false).Programming mode mode.firstByte c.reload c.value := by
  cases mode with
  | latchCountValue => exact absurd rfl hmode
  | lowByteOnly | highByteOnly | lowByteHighByte => exact ⟨rfl, rfl, rfl, rfl, rfl, rfl⟩

/-- The first of two bytes goes to the register, and the channel still waits. -/
theorem Programming.writeFirst (h : c.Programming .lowByteHighByte .lowByte register count)
    (low : Byte) (now : Nat) :
    (c.writeCount low now).Programming .lowByteHighByte .highByte
      (joinBytes (highByte register) low) count := by
  have hmode := h.accessMode
  have hbinary := h.binary
  have hbyte := h.writeByte
  have hreload := h.reload
  simp only [TimerChannel.writeCount, hbyte, hmode, hbinary, if_pos, hreload]
  refine ⟨rfl, rfl, h.waiting, rfl, ?_, h.value⟩
  exact and_or_low register low

/-- The last byte is a low byte where the mode takes no high byte. -/
theorem Programming.loadLow (h : c.Programming .lowByteOnly .lowByte register count) (low : Byte)
    (now : Nat) : (c.writeCount low now).value = joinBytes (highByte register) low := by
  have hmode := h.accessMode
  have hbinary := h.binary
  have hbyte := h.writeByte
  have hreload := h.reload
  have hwaiting := h.waiting
  rw [← and_or_low]
  simp [TimerChannel.writeCount, hbyte, hmode, hbinary, hreload, finishLoad, hwaiting]

/-- Otherwise it is a high byte. -/
theorem Programming.loadHigh (h : c.Programming mode .highByte register count) (high : Byte)
    (now : Nat) : (c.writeCount high now).value = joinBytes high (lowByte register) := by
  have hbinary := h.binary
  have hbyte := h.writeByte
  have hreload := h.reload
  have hwaiting := h.waiting
  rw [← and_or_high]
  by_cases hmode : c.accessMode = .lowByteHighByte
  · simp [TimerChannel.writeCount, hbyte, hmode, hbinary, hreload, finishLoad, hwaiting]
  · simp [TimerChannel.writeCount, hbyte, hmode, hbinary, hreload, finishLoad, hwaiting]

end TimerChannel

/-! ## Runs -/

namespace ProgrammableIntervalTimer

variable {t : ProgrammableIntervalTimer} {i : Fin 3} {mode : AccessMode} {next : ByteSelect}
  {register count : BitVec 16}

/-- The count bytes of the first operation come first. -/
theorem countBytes_cons (i : Fin 3) (e : Nat × TimerOperation) (run : List (Nat × TimerOperation)) :
    countBytes i (e :: run) = countBytes i [e] ++ countBytes i run := by
  rw [← List.singleton_append, countBytes, List.filterMap_append]
  rfl

/-- The count bytes of two runs. -/
theorem countBytes_append (i : Fin 3) (run run' : List (Nat × TimerOperation)) :
    countBytes i (run ++ run') = countBytes i run ++ countBytes i run' := by
  rw [countBytes, List.filterMap_append]
  rfl

/-- An operation with a count byte for the channel is the write of that byte. -/
theorem eq_writeRegister_of_countBytes {e : Nat × TimerOperation} {time : Nat} {value : Byte}
    {bytes : List (Nat × Byte)} (h : countBytes i [e] = (time, value) :: bytes) :
    e = (time, .writeRegister i value) ∧ bytes = [] := by
  obtain ⟨now, op⟩ := e
  cases op with
  | writeRegister timer value' =>
      by_cases htimer : timer = i
      · subst htimer
        simp only [countBytes, List.filterMap_cons, if_pos, List.filterMap_nil, List.cons.injEq,
          Prod.mk.injEq] at h
        obtain ⟨⟨rfl, rfl⟩, rfl⟩ := h
        exact ⟨rfl, rfl⟩
      · simp [countBytes, htimer] at h
  | setPrescaler | writeCommand | readRegister => simp [countBytes] at h

/-- Without count bytes the channel waits on. -/
theorem programming_after (run : List (Nat × TimerOperation))
    (hconfigures : ∀ e ∈ run, e.2.configures i = false) (hbytes : countBytes i run = [])
    (h : (t.state i).Programming mode next register count) :
    ((t.after run).state i).Programming mode next register count := by
  induction run generalizing t with
  | nil => exact h
  | cons e run ih =>
      rw [countBytes_cons, List.append_eq_nil_iff] at hbytes
      refine ih (fun e' he => hconfigures e' (List.mem_cons_of_mem _ he)) hbytes.2 ?_
      rw [state_perform]
      exact h.sameLoad (TimerChannel.sameLoad_perform h.waiting _ _
        (hconfigures e List.mem_cons_self) hbytes.1)

/-- After the first of two count bytes. -/
theorem programming_after_first (run : List (Nat × TimerOperation))
    (hconfigures : ∀ e ∈ run, e.2.configures i = false) {time : Nat} {low : Byte}
    (hbytes : countBytes i run = [(time, low)])
    (h : (t.state i).Programming .lowByteHighByte .lowByte register count) :
    ((t.after run).state i).Programming .lowByteHighByte .highByte
      (joinBytes (highByte register) low) count := by
  induction run generalizing t with
  | nil => simp [countBytes] at hbytes
  | cons e run ih =>
      have hrest : ∀ e' ∈ run, e'.2.configures i = false :=
        fun e' he => hconfigures e' (List.mem_cons_of_mem _ he)
      rw [countBytes_cons] at hbytes
      cases hfirst : countBytes i [e] with
      | nil =>
          rw [hfirst, List.nil_append] at hbytes
          refine ih hrest hbytes ?_
          rw [state_perform]
          exact h.sameLoad (TimerChannel.sameLoad_perform h.waiting _ _
            (hconfigures e List.mem_cons_self) hfirst)
      | cons byte bytes =>
          obtain ⟨rfl, rfl⟩ := eq_writeRegister_of_countBytes hfirst
          rw [hfirst, List.singleton_append, List.cons.injEq] at hbytes
          obtain ⟨rfl, hnone⟩ := hbytes
          refine programming_after run hrest hnone ?_
          rw [state_perform, TimerChannel.perform, if_pos rfl]
          exact h.writeFirst low time

/-- The channel after the configure command. -/
theorem programming_writeCommand (t : ProgrammableIntervalTimer) {command : Byte}
    (hchannel : (command.extractLsb' 6 2).toNat = i.val) (hbinary : command.getLsbD 0 = false)
    (hmode : AccessMode.ofBits (command.extractLsb' 4 2) = mode) (hlatch : mode ≠ .latchCountValue)
    (start : Nat) : ∃ count, ((t.perform start (.writeCommand command)).state i).Programming mode
      mode.firstByte (t.state i).reload count := by
  have hreload : ((t.state i).resolve t.timerPrescaler start).reload = (t.state i).reload := by
    unfold TimerChannel.resolve
    split <;> rfl
  refine ⟨((t.state i).resolve t.timerPrescaler start).value, ?_⟩
  rw [state_perform, TimerChannel.perform, TimerChannel.command, if_neg (by omega), if_pos hchannel,
    hmode, if_neg hlatch, hbinary, ← hreload]
  exact TimerChannel.programming_configure _ _ hlatch

/-- The last count byte, for each mode. -/
theorem value_writeRegister_last (run : List (Nat × TimerOperation))
    (hconfigures : ∀ e ∈ run, e.2.configures i = false)
    (hbytes : (countBytes i run).length + 1 = mode.byteCount)
    (h : (t.state i).Programming mode mode.firstByte register count) (now : Nat) (last : Byte) :
    (((t.after run).perform now (.writeRegister i last)).state i).value.toNat =
      mode.count ((countBytes i run).map Prod.snd ++ [last]) ↔ mode.NoStaleByte register := by
  have hperform : ((t.after run).perform now (.writeRegister i last)).state i =
      ((t.after run).state i).writeCount last now := by
    rw [state_perform, TimerChannel.perform, if_pos rfl]
  rw [hperform]
  cases mode with
  | latchCountValue => cases hbytes
  -- one byte: the other one stays as it was in the reload register
  | lowByteOnly =>
      have hnone : countBytes i run = [] :=
        List.eq_nil_of_length_eq_zero (by simpa [AccessMode.byteCount] using hbytes)
      rw [(programming_after run hconfigures hnone h).loadLow last now, toNat_joinBytes, hnone]
      show _ = last.toNat ↔ highByte register = 0#8
      rw [← BitVec.toNat_inj]
      simp
  | highByteOnly =>
      have hnone : countBytes i run = [] :=
        List.eq_nil_of_length_eq_zero (by simpa [AccessMode.byteCount] using hbytes)
      rw [(programming_after run hconfigures hnone h).loadHigh last now, toNat_joinBytes, hnone]
      show _ = 256 * last.toNat ↔ lowByte register = 0#8
      rw [← BitVec.toNat_inj]
      simp
  | lowByteHighByte =>
      -- two bytes replace the reload register whole
      obtain ⟨⟨time, low⟩, hone⟩ := List.length_eq_one_iff.mp (show (countBytes i run).length = 1 by
        simpa [AccessMode.byteCount] using hbytes)
      rw [(programming_after_first run hconfigures hone h).loadHigh last now, toNat_joinBytes,
        lowByte_joinBytes, hone]
      exact iff_of_true rfl trivial

/-- Up to the last count byte the count does not change. -/
theorem value_after_initial (run : List (Nat × TimerOperation))
    (hconfigures : ∀ e ∈ run, e.2.configures i = false)
    (hbytes : (countBytes i run).length + 1 ≤ mode.byteCount)
    (h : (t.state i).Programming mode mode.firstByte register count) :
    ((t.after run).state i).value = count := by
  cases hrun : countBytes i run with
  | nil => exact (programming_after run hconfigures hrun h).value
  | cons byte bytes =>
      rw [hrun, List.length_cons] at hbytes
      cases mode with
      | lowByteHighByte =>
          have hnone : bytes = [] :=
            List.eq_nil_of_length_eq_zero (by simpa [AccessMode.byteCount] using hbytes)
          exact (programming_after_first run hconfigures (hnone ▸ hrun) h).value
      | latchCountValue | lowByteOnly | highByteOnly => simp [AccessMode.byteCount] at hbytes

/-- **When programming a channel does not depend on its history.** From any state, a binary
configure command for a channel and then operations, of which the last is the last count byte of the
mode and none configures the channel again: the count stays as it is up to that byte, and then is
the one the bytes stand for, iff the byte of the reload register that the mode does not write was
zero. -/
theorem programming_iff (t : ProgrammableIntervalTimer) (i : Fin 3) (command : Byte)
    (hchannel : (command.extractLsb' 6 2).toNat = i.val) (hbinary : command.getLsbD 0 = false)
    (mode : AccessMode) (hmode : AccessMode.ofBits (command.extractLsb' 4 2) = mode)
    (start now : Nat) (last : Byte) (before : List (Nat × TimerOperation))
    (hconfigures : ∀ e ∈ before, e.2.configures i = false)
    (hbytes : (countBytes i before).length + 1 = mode.byteCount) :
    let t₀ := t.perform start (.writeCommand command)
    let run := before ++ [(now, .writeRegister i last)]
    ((∀ initial, initial <+: before →
        ((t₀.after initial).state i).value = (t₀.state i).value) ∧
      ((t₀.after run).state i).value.toNat = mode.count ((countBytes i run).map Prod.snd)) ↔
    mode.NoStaleByte (t.state i).reload := by
  intro t₀ run
  have hlatch : mode ≠ .latchCountValue := by
    rintro rfl
    cases hbytes
  obtain ⟨count, hprogramming⟩ := programming_writeCommand t hchannel hbinary hmode hlatch start
  have hlast := value_writeRegister_last before hconfigures hbytes hprogramming now last
  have hrun : (countBytes i run).map Prod.snd = (countBytes i before).map Prod.snd ++ [last] := by
    rw [show run = before ++ [(now, .writeRegister i last)] from rfl, countBytes_append,
      List.map_append]
    simp [countBytes]
  have hafter : t₀.after run = (t₀.after before).perform now (.writeRegister i last) :=
    after_append t₀ before _
  rw [hrun, hafter, hlast]
  refine and_iff_right fun initial hinitial => ?_
  -- a part of the run before the last byte has fewer bytes than the mode asks for
  have hlength : (countBytes i initial).length ≤ (countBytes i before).length :=
    (hinitial.filterMap _).length_le
  rw [value_after_initial initial (fun e he => hconfigures e (hinitial.subset he)) (by omega)
    hprogramming, hprogramming.value]

/-- A count of two bytes, with another channel read and the prescaler written in between. -/
theorem programming_iff_twoBytes :
    ((((init 0).perform 0 (.writeCommand 0x34#8)).after
      [(40, .writeRegister 0 0x05#8), (80, .readRegister 1), (120, .setPrescaler 7#16),
        (160, .writeRegister 0 0x01#8)]).state 0).value.toNat = 0x05 + 256 * 0x01 :=
  ((programming_iff (init 0) 0 0x34#8 (by decide) (by decide) .lowByteHighByte (by decide) 0 160
    0x01#8 [(40, .writeRegister 0 0x05#8), (80, .readRegister 1), (120, .setPrescaler 7#16)]
    (by decide) (by decide)).mpr trivial).2

/-- **A stale byte is loaded.** After `0x0100` has been loaded, a channel configured for low bytes
and written 5 counts from `0x0105`. -/
theorem not_programming :
    ¬ ∀ (setup before : List (Nat × TimerOperation)) (i : Fin 3) (command last : Byte)
        (mode : AccessMode) (start now : Nat),
      let t₀ := ((init 0).after setup).perform start (.writeCommand command)
      let run := before ++ [(now, .writeRegister i last)]
      Timed 0 (setup ++ (start, .writeCommand command) :: run) →
      (command.extractLsb' 6 2).toNat = i.val → command.getLsbD 0 = false →
      AccessMode.ofBits (command.extractLsb' 4 2) = mode →
      (∀ e ∈ before, e.2.configures i = false) →
      (countBytes i before).length + 1 = mode.byteCount →
      (∀ initial, initial <+: before →
        ((t₀.after initial).state i).value = (t₀.state i).value) ∧
      ((t₀.after run).state i).value.toNat = mode.count ((countBytes i run).map Prod.snd) := by
  intro hclaim
  have hstale := (hclaim loadChannel0 [] 0 0x14#8 0x05#8 .lowByteOnly 0 0 (by decide) (by decide)
    (by decide) (by decide) (by decide) (by decide)).2
  exact absurd hstale (by decide)

end ProgrammableIntervalTimer

end Ts3100

import Ts3100.Timer.Counting

/-! # Reload values

A reload value is written in two bytes, and takes effect when the count wraps. The channel keeps one
reload register: a byte is in it at once, and a wrap is found when the timers are next resolved.

* `reloadBefore`, `bytesSince` — the reload value complete before a time, and the bytes after it.
* `register_after` — the reload register holds the bytes written so far, complete or not.
* `wrapsReload_iff` — when every wrap restarts from the reload value complete before it. -/

namespace Ts3100

/-! ## Count bytes -/

/-- The count bytes written to channel `i` in a run, with their times. -/
def countBytes (i : Fin 3) (run : List (Nat × TimerOperation)) : List (Nat × Byte) :=
  run.filterMap fun e =>
    match e.2 with
    | .writeRegister timer value => if timer = i then some (e.1, value) else none
    | _ => none

/-- The reload register after bytes written low and high in turn, where `high` says that the next is
a high byte. -/
def registerAfter (high : Bool) (register : BitVec 16) : List (Nat × Byte) → BitVec 16
  | [] => register
  | (_, value) :: bytes =>
      registerAfter (!high)
        (if high then joinBytes value (lowByte register) else joinBytes (highByte register) value)
        bytes

/-- The last reload value of which both bytes were written before `time`; the bytes are in order of
time, the low byte first. -/
def reloadBefore (time : Nat) (reload : BitVec 16) : List (Nat × Byte) → BitVec 16
  | (_, low) :: (now, high) :: bytes =>
      if now < time then reloadBefore time (joinBytes high low) bytes else reload
  | _ => reload

/-- The bytes after the last reload value of which both bytes were written before `time`. -/
def bytesSince (time : Nat) : List (Nat × Byte) → List (Nat × Byte)
  | low :: (now, high) :: bytes =>
      if now < time then bytesSince time bytes else low :: (now, high) :: bytes
  | bytes => bytes

/-- Two bytes replace the whole register. -/
theorem registerAfter_pair (register : BitVec 16) (low high : Nat × Byte)
    (bytes : List (Nat × Byte)) :
    registerAfter false register (low :: high :: bytes) =
      registerAfter false (joinBytes high.2 low.2) bytes := by
  simp [registerAfter]

/-- The register is the last complete reload value, changed by the bytes since. -/
theorem registerAfter_eq_bytesSince (time : Nat) (reload : BitVec 16) (bytes : List (Nat × Byte)) :
    registerAfter false reload bytes =
      registerAfter false (reloadBefore time reload bytes) (bytesSince time bytes) := by
  induction bytes using bytesSince.induct time generalizing reload with
  | case1 low now high bytes hbefore ih =>
      rw [registerAfter_pair, ih, reloadBefore, if_pos hbefore, bytesSince, if_pos hbefore]
  | case2 low now high bytes hbefore =>
      rw [reloadBefore, if_neg hbefore, bytesSince, if_neg hbefore]
  | case3 bytes hshort =>
      cases bytes with
      | nil => rfl
      | cons low bytes =>
          cases bytes with
          | nil => rfl
          | cons high bytes => exact absurd rfl (hshort low high.1 high.2 bytes)

/-! ## The reload register -/

/-- A byte put into the low half of a register. -/
theorem and_or_low (register : BitVec 16) (value : Byte) :
    (register &&& 0xFF00#16) ||| value.setWidth 16 = joinBytes (highByte register) value := by
  refine BitVec.eq_of_getLsbD_eq fun k hk => ?_
  rw [getLsbD_joinBytes]
  interval_cases k <;> simp [highByte]

/-- A byte put into the high half. -/
theorem and_or_high (register : BitVec 16) (value : Byte) :
    (register &&& 0x00FF#16) ||| (value.setWidth 16 <<< 8) =
      joinBytes value (lowByte register) := by
  refine BitVec.eq_of_getLsbD_eq fun k hk => ?_
  rw [getLsbD_joinBytes]
  interval_cases k <;> simp [lowByte]

namespace TimerChannel

/-- A loaded channel that is written two binary bytes in turn. -/
structure WritesBytes (c : TimerChannel) (high : Bool) (register : BitVec 16) : Prop where
  accessMode : c.accessMode = .lowByteHighByte
  binary : c.binaryCodedDecimal = false
  loaded : c.waitingForLoad = false
  writeByte : c.writeByte = if high then .highByte else .lowByte
  reload : c.reload = register

variable {c : TimerChannel} {i : Fin 3} {high : Bool} {register : BitVec 16}

/-- Time passing does not touch the bytes written. -/
theorem WritesBytes.resolve (h : c.WritesBytes high register) (prescaler : BitVec 16) (now : Nat) :
    (c.resolve prescaler now).WritesBytes high register := by
  rw [TimerChannel.resolve, if_neg (by simp [h.loaded])]
  exact ⟨h.accessMode, h.binary, h.loaded, h.writeByte, h.reload⟩

/-- A byte is in the register at once. -/
theorem WritesBytes.writeCount (h : c.WritesBytes high register) (value : Byte) (now : Nat) :
    (c.writeCount value now).WritesBytes (!high)
      (if high then joinBytes value (lowByte register) else joinBytes (highByte register) value) := by
  have hmode := h.accessMode
  have hbinary := h.binary
  have hreload := h.reload
  have hloaded := h.loaded
  cases high with
  | false =>
      have hbyte : c.writeByte = .lowByte := h.writeByte
      simp only [TimerChannel.writeCount, hbyte, hmode, hbinary, if_pos, hreload]
      refine ⟨rfl, rfl, hloaded, rfl, ?_⟩
      exact and_or_low register value
  | true =>
      have hbyte : c.writeByte = .highByte := h.writeByte
      simp only [TimerChannel.writeCount, hbyte, hmode, hbinary, if_pos, hreload, finishLoad,
        hloaded]
      refine ⟨rfl, rfl, rfl, rfl, ?_⟩
      exact and_or_high register value

/-- Nor does a read. -/
theorem WritesBytes.nextByte (h : c.WritesBytes high register) :
    c.nextByte.WritesBytes high register := by
  have hsame : ∀ c' : TimerChannel, c'.accessMode = c.accessMode →
      c'.binaryCodedDecimal = c.binaryCodedDecimal → c'.waitingForLoad = c.waitingForLoad →
      c'.writeByte = c.writeByte → c'.reload = c.reload → c'.WritesBytes high register :=
    fun c' hmode hbinary hwaiting hbyte hreload =>
      ⟨hmode.trans h.accessMode, hbinary.trans h.binary, hwaiting.trans h.loaded,
        hbyte.trans h.writeByte, hreload.trans h.reload⟩
  unfold TimerChannel.nextByte
  split
  · split <;> exact hsame _ rfl rfl rfl rfl rfl
  · dsimp only
    split <;> exact hsame _ rfl rfl rfl rfl rfl
  · split <;> exact hsame _ rfl rfl rfl rfl rfl

/-- A command that does not configure the channel. -/
theorem WritesBytes.command (h : c.WritesBytes high register) {command : Byte}
    (hconfigures : (TimerOperation.writeCommand command).configures i = false) :
    (c.command i command).WritesBytes high register := by
  unfold TimerChannel.command
  split
  · split
    · unfold readBack latchCount
      dsimp only
      split <;> exact ⟨h.accessMode, h.binary, h.loaded, h.writeByte, h.reload⟩
    · exact h
  · split
    · split
      · exact ⟨h.accessMode, h.binary, h.loaded, h.writeByte, h.reload⟩
      · rename_i hchannel hmode
        simp [TimerOperation.configures, hchannel, hmode] at hconfigures
    · exact h

end TimerChannel

namespace ProgrammableIntervalTimer

variable {t : ProgrammableIntervalTimer} {i : Fin 3}

/-- One operation: a count byte goes to the register, and the others leave it alone. -/
theorem register_perform {e : Nat × TimerOperation} {high : Bool} {register : BitVec 16}
    (hconfigures : e.2.configures i = false) (h : (t.state i).WritesBytes high register) :
    ∃ high', ((t.perform e.1 e.2).state i).WritesBytes high'
        (registerAfter high register (countBytes i [e])) ∧
      ∀ bytes, registerAfter high register (countBytes i [e] ++ bytes) =
        registerAfter high' (registerAfter high register (countBytes i [e])) bytes := by
  obtain ⟨now, op⟩ := e
  rw [state_perform]
  cases op with
  | setPrescaler => exact ⟨high, h.resolve t.timerPrescaler now, fun bytes => rfl⟩
  | writeCommand command =>
      exact ⟨high, (h.resolve t.timerPrescaler now).command hconfigures, fun bytes => rfl⟩
  | readRegister timer =>
      refine ⟨high, ?_, fun bytes => rfl⟩
      simp only [TimerChannel.perform]
      split
      · exact (h.resolve t.timerPrescaler now).nextByte
      · exact h.resolve t.timerPrescaler now
  | writeRegister timer value =>
      simp only [TimerChannel.perform]
      by_cases htimer : timer = i
      · have hbytes : countBytes i [(now, .writeRegister timer value)] = [(now, value)] := by
          simp [countBytes, htimer]
        rw [if_pos htimer, hbytes]
        exact ⟨!high, h.writeCount value now, fun bytes => rfl⟩
      · have hbytes : countBytes i [(now, .writeRegister timer value)] = [] := by
          simp [countBytes, htimer]
        rw [if_neg htimer, hbytes]
        exact ⟨high, h, fun bytes => rfl⟩

/-- The reload register after a run holds the bytes written. -/
theorem register_after {high : Bool} {register : BitVec 16} (run : List (Nat × TimerOperation))
    (hconfigures : ∀ e ∈ run, e.2.configures i = false)
    (h : (t.state i).WritesBytes high register) :
    ((t.after run).state i).reload = registerAfter high register (countBytes i run) := by
  induction run generalizing t high register with
  | nil => exact h.reload
  | cons e run ih =>
      obtain ⟨high', h', hbytes⟩ := register_perform (hconfigures e List.mem_cons_self) h
      have hsplit : countBytes i (e :: run) = countBytes i [e] ++ countBytes i run := by
        rw [← List.singleton_append, countBytes, List.filterMap_append]
        rfl
      rw [hsplit, hbytes]
      exact ih (fun e' he => hconfigures e' (List.mem_cons_of_mem _ he)) h'

/-! ## Wraps -/

/-- The ticks at which a resolve at a time finds that the count wraps: it is zero the tick before. -/
def wraps (t : ProgrammableIntervalTimer) (i : Fin 3) (now : Nat) : List Nat :=
  (List.range' 1 ((t.state i).elapsedTicks t.timerPrescaler now)).filter fun n =>
    countAfter (t.state i).value (t.state i).reload (n - 1) = 0#16

/-- A property of all wraps of a channel in a run from `t`: it is given the operations before the
resolve that finds the wrap, and the time of the wrap. -/
def AllWraps (t : ProgrammableIntervalTimer) (i : Fin 3) (run : List (Nat × TimerOperation))
    (P : List (Nat × TimerOperation) → Nat → Prop) : Prop :=
  ∀ k (hk : k < run.length), run[k].2.resolves = true →
    ∀ n ∈ (t.after (run.take k)).wraps i run[k].1,
      P (run.take k) ((t.after (run.take k)).timeOfTick i n)

instance (t : ProgrammableIntervalTimer) (i : Fin 3) (run : List (Nat × TimerOperation))
    (P : List (Nat × TimerOperation) → Nat → Prop) [∀ before time, Decidable (P before time)] :
    Decidable (t.AllWraps i run P) :=
  inferInstanceAs (Decidable (∀ k (hk : k < run.length), run[k].2.resolves = true →
    ∀ n ∈ (t.after (run.take k)).wraps i run[k].1,
      P (run.take k) ((t.after (run.take k)).timeOfTick i n)))

/-- **When reloads are atomic and not retroactive.** From a state in which a channel has been loaded
with two binary bytes, over operations that do not configure it: the reload register that a resolve
restarts the count from is, for every wrap it finds, the last reload value complete before the wrap,
iff for every wrap the count bytes written from that value to the resolve leave the register as it
was. -/
theorem wrapsReload_iff (t : ProgrammableIntervalTimer) (i : Fin 3)
    (run : List (Nat × TimerOperation)) (hmode : (t.state i).accessMode = .lowByteHighByte)
    (hbinary : (t.state i).binaryCodedDecimal = false)
    (hloaded : (t.state i).waitingForLoad = false) (hbyte : (t.state i).writeByte = .lowByte)
    (hconfigures : ∀ e ∈ run, e.2.configures i = false) :
    t.AllWraps i run (fun before time =>
      ((t.after before).state i).reload =
        reloadBefore time (t.state i).reload (countBytes i before)) ↔
    t.AllWraps i run (fun before time =>
      let reload := reloadBefore time (t.state i).reload (countBytes i before)
      registerAfter false reload (bytesSince time (countBytes i before)) = reload) := by
  have hstart : (t.state i).WritesBytes false (t.state i).reload :=
    ⟨hmode, hbinary, hloaded, hbyte, rfl⟩
  unfold AllWraps
  refine forall₃_congr fun k hk hresolves => forall₂_congr fun n hwraps => ?_
  have hregister := register_after (run.take k)
    (fun e he => hconfigures e (List.mem_of_mem_take he)) hstart
  have hsince := registerAfter_eq_bytesSince ((t.after (run.take k)).timeOfTick i n)
    (t.state i).reload (countBytes i (run.take k))
  dsimp only
  rw [hregister, hsince]

/-- A run that configures channel 0 for two binary bytes and loads 2. -/
def loadTwo : List (Nat × TimerOperation) :=
  [(0, .writeCommand 0x34#8), (0, .writeRegister 0 0x02#8), (0, .writeRegister 0 0x00#8)]

/-- A reload is completed before the count wraps. -/
theorem wrapsReload_iff_loaded :
    ((init 0).after loadTwo).AllWraps 0
      [(40, .writeRegister 0 0x05#8), (80, .writeRegister 0 0x00#8), (400, .readRegister 1)]
      (fun before time =>
        ((((init 0).after loadTwo).after before).state 0).reload =
          reloadBefore time (((init 0).after loadTwo).state 0).reload (countBytes 0 before)) :=
  (wrapsReload_iff ((init 0).after loadTwo) 0
    [(40, .writeRegister 0 0x05#8), (80, .writeRegister 0 0x00#8), (400, .readRegister 1)]
    (by decide) (by decide) (by decide) (by decide) (by decide)).mpr (by decide)

/-- **A half-written reload is used.** From a count of 2, a low byte, and a read after the count has
wrapped: the wrap restarts from 5, and the count is 3 where it would be 0. -/
theorem not_wrapsReload :
    ¬ ∀ (setup run : List (Nat × TimerOperation)) (i : Fin 3),
      let t := (init 0).after setup
      Timed 0 (setup ++ run) → (t.state i).accessMode = .lowByteHighByte →
      (t.state i).binaryCodedDecimal = false → (t.state i).waitingForLoad = false →
      (t.state i).writeByte = .lowByte → (∀ e ∈ run, e.2.configures i = false) →
      t.AllWraps i run fun before time =>
        ((t.after before).state i).reload =
          reloadBefore time (t.state i).reload (countBytes i before) := by
  intro hclaim
  have hhalf := hclaim loadTwo [(40, .writeRegister 0 0x05#8), (320, .readRegister 0)] 0
    (by decide) (by decide) (by decide) (by decide) (by decide) (by decide)
  exact absurd hhalf (by decide)

end ProgrammableIntervalTimer

end Ts3100

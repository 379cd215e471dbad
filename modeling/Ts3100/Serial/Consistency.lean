import Ts3100.Serial.Interrupts

/-! # The registers tell one story

The interrupt flags, the readiness flags, the interrupt enables and the interrupt control register
are kept apart and say partly the same.

* `Registers.Consistent` — how they agree.
* `IdentifiesInterrupts` — what the guest reads of them: the interrupt status register names a
  condition only while the line status register shows it.
* `consistent_statesMeet` — both hold in every state of every run. -/

namespace Ts3100

/-- The registers agree with each other. -/
structure Registers.Consistent (r : Registers) : Prop where
  readInterruptFlag : r.readInterruptFlag = r.readable
  writeInterruptFlag : r.writeInterruptFlag = true → r.writable = true
  readInterruptEnabled : r.readInterruptEnabled = r.interruptControl.getLsbD 0
  writeInterruptEnabled : r.writeInterruptEnabled = r.interruptControl.getLsbD 1
  interruptControl_lt : r.interruptControl.toNat < 16
  modemControl_lt : r.modemControl.toNat < 32

namespace Serial16450

open Descriptors LabelledRuns

variable {s s' : Serial16450} {e : Event}

/-- The interrupt status register, read where the line status register could be read instead. -/
structure IdentifiesInterrupts (s : Serial16450) (status line : Byte) : Prop where
  receive : status = 0x04#8 → line.getLsbD 0 = true
  transmit : status = 0x02#8 → line.getLsbD 5 = true
  none : status = 0x01#8 ↔ s.registers.interruptPending = false

/-- The registers agree, and so do a read of the interrupt status register and one of the line status
register. -/
def OneStory (s : Serial16450) : Prop :=
  s.registers.Consistent ∧ ∀ address address',
    Register.ofAddress address = .interruptStatusFifoControl →
      Register.ofAddress address' = .lineStatus →
        s.IdentifiesInterrupts (s.ioread8 address).1 (s.ioread8 address').1

/-! ## What the guest reads -/

/-- Consistent registers identify their interrupts. -/
theorem identifiesInterrupts (hs : s.registers.Consistent) :
    s.IdentifiesInterrupts s.readInterruptStatus.1 s.lineStatus := by
  have hreadable := s.lineStatus_statusBit .read
  have hwritable := s.lineStatus_statusBit .write
  unfold readInterruptStatus
  split
  · rename_i hread
    rw [Bool.and_eq_true] at hread
    refine ⟨fun _ => ?_, by simp, by simp [Registers.interruptPending, hread]⟩
    exact hreadable.trans (hs.readInterruptFlag.symm.trans hread.2)
  · rename_i hread
    rw [Bool.not_eq_true] at hread
    split
    · rename_i hwrite
      have hwriteFlag := (Bool.and_eq_true _ _ ▸ hwrite).2
      refine ⟨by simp, fun _ => ?_, by simp [Registers.interruptPending, hwrite]⟩
      exact hwritable.trans (hs.writeInterruptFlag hwriteFlag)
    · rename_i hwrite
      rw [Bool.not_eq_true] at hwrite
      exact ⟨by simp, by simp, by simp [Registers.interruptPending, hread, hwrite]⟩

/-- A consistent port tells one story. -/
theorem OneStory.of_consistent (hs : s.registers.Consistent) : s.OneStory := by
  refine ⟨hs, fun address address' hstatus hline => ?_⟩
  have hread : (s.ioread8 address).1 = s.readInterruptStatus.1 := by
    rw [ioread8, hstatus]
  have hread' : (s.ioread8 address').1 = s.lineStatus := by
    rw [ioread8, hline]
  rw [hread, hread']
  exact identifiesInterrupts hs

/-! ## What a step changes -/

/-- A write to the interrupt enable register rewrites the enables and brings the flags up to date. -/
theorem consistent_enableInterrupts {r : Registers} (hr : r.Consistent) (data : Byte) :
    (r.enableInterrupts data).Consistent := by
  obtain ⟨hread, hwrite⟩ := enables_eq r data
  constructor
  · show (if (r.enableInterrupts data).readInterruptEnabled then r.readable
      else r.readInterruptFlag) = r.readable
    rw [hr.readInterruptFlag, ite_self]
  · show (if (r.enableInterrupts data).writeInterruptEnabled then r.writable
      else r.writeInterruptFlag) = true → r.writable = true
    split
    · exact id
    · exact hr.writeInterruptFlag
  · rw [hread]
    show data.getLsbD 0 = (data &&& 0x0f#8).getLsbD 0
    simp
  · rw [hwrite]
    show data.getLsbD 1 = (data &&& 0x0f#8).getLsbD 1
    simp
  · show (data &&& 0x0f#8).toNat < 16
    rw [BitVec.toNat_and]
    exact lt_of_le_of_lt Nat.and_le_right (by decide)
  · exact hr.modemControl_lt

/-- A write to the interrupt enable register keeps it consistent. -/
theorem consistent_writeInterruptControl (hs : s.registers.Consistent) (data : Byte) :
    (s.writeInterruptControl data).registers.Consistent := by
  unfold writeInterruptControl
  dsimp only
  split <;> exact consistent_enableInterrupts hs data

/-- A byte written takes both halves of the transmit condition back. -/
theorem consistent_writeData (hs : s.registers.Consistent) (data : Byte) :
    (s.writeData data).registers.Consistent := by
  rw [writeData, writeClients_eq]
  exact { hs with writeInterruptFlag := by rintro ⟨⟩ }

/-- A byte read takes both halves of the receive condition back. -/
theorem consistent_readData (hs : s.registers.Consistent) : s.readData.registers.Consistent := by
  rw [readData, readClients_eq]
  exact { hs with readInterruptFlag := rfl }

/-- Acknowledging the transmit interrupt takes its flag back alone. -/
theorem consistent_readInterruptStatus (hs : s.registers.Consistent) :
    s.readInterruptStatus.2.registers.Consistent := by
  unfold readInterruptStatus
  split
  · exact hs
  · split
    · exact { hs with writeInterruptFlag := by rintro ⟨⟩ }
    · exact hs

/-- A client's events set both halves of a condition. -/
theorem consistent_handleClientEvent (hs : s.registers.Consistent) (fd : Nat)
    (events : EpollEvents) : (s.handleClientEvent fd events).registers.Consistent := by
  rw [handleClientEvent_eq]
  refine { hs with readInterruptFlag := congrArg (· || _) hs.readInterruptFlag,
                   writeInterruptFlag := fun hflag => ?_ }
  rcases (Bool.or_eq_true _ _).mp hflag with hwas | hout
  · exact (Bool.or_eq_true _ _).mpr (Or.inl (hs.writeInterruptFlag hwas))
  · exact (Bool.or_eq_true _ _).mpr (Or.inr hout)

/-- A guest write, register by register. -/
theorem consistent_iowrite8 (hs : s.registers.Consistent) (address : BitVec 16) (data : Byte) :
    (s.iowrite8 address data).registers.Consistent := by
  unfold iowrite8
  cases Register.ofAddress address with
  | dataDivisorLowByte =>
      dsimp only
      split
      · exact consistent_writeData hs data
      · exact { hs with }
  | interruptControlDivisorHighByte =>
      dsimp only
      split
      · exact consistent_writeInterruptControl hs data
      · exact { hs with }
  | modemControl =>
      refine { hs with modemControl_lt := ?_ }
      rw [BitVec.toNat_and]
      exact lt_of_le_of_lt Nat.and_le_right (by decide)
  | lineControl | scratchpad => exact { hs with }
  | interruptStatusFifoControl | lineStatus | modemStatus => exact hs

/-- A guest read, register by register. -/
theorem consistent_ioread8 (hs : s.registers.Consistent) (address : BitVec 16) :
    (s.ioread8 address).2.registers.Consistent := by
  unfold ioread8
  cases Register.ofAddress address with
  | dataDivisorLowByte =>
      dsimp only
      split
      · exact consistent_readData hs
      · exact hs
  | interruptControlDivisorHighByte =>
      dsimp only
      split <;> exact hs
  | interruptStatusFifoControl => exact consistent_readInterruptStatus hs
  | lineControl | modemControl | lineStatus | modemStatus | scratchpad => exact hs

/-- **Step.** Every step keeps the registers consistent. -/
theorem consistent_step (s : Serial16450) (e : Event) (s' : Serial16450)
    (hs : s.registers.Consistent) (h : s.step e = some s') : s'.registers.Consistent := by
  cases e with
  | iowrite8 address data =>
      obtain rfl := Option.some.inj h
      exact consistent_iowrite8 hs address data
  | ioread8 address =>
      obtain rfl := Option.some.inj h
      exact consistent_ioread8 hs address
  | dispatch =>
      cases step_cases h with
      | readTimer => exact hs
      | listen =>
          rw [listenAgain, reloadEventLoop_eq]
          exact hs
      | @handle fd events => exact consistent_handleClientEvent hs fd events
  | accept connection =>
      -- whether or not a client is taken, the registers stay
      cases step_cases h <;> exact hs
  | wait | timerExpires | peerSends | peerHangsUp | peerDrains =>
      cases step_cases h
      exact hs

/-- The registers as constructed agree. -/
theorem consistent_init : Registers.Consistent {} where
  readInterruptFlag := rfl
  writeInterruptFlag := by rintro ⟨⟩
  readInterruptEnabled := rfl
  writeInterruptEnabled := rfl
  interruptControl_lt := by decide
  modemControl_lt := by decide

/-- **The registers tell one story.** In every state of every run the registers agree with each
other, and a read of the interrupt status register agrees with one of the line status register. -/
theorem consistent_statesMeet (events : List Event) : StatesMeet step OneStory {} events := by
  have hconsistent : StatesMeet step (fun s => s.registers.Consistent) {} events :=
    statesMeet_of_invariant consistent_step consistent_init events
  intro pre hpre s hrun
  exact OneStory.of_consistent (hconsistent pre hpre s hrun)

end Serial16450

end Ts3100

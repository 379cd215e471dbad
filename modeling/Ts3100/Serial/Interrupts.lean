import Ts3100.Serial.Pace

/-! # Every rising interrupt condition is triggered

The interrupt is pending while an enabled flag is set. It is edge-triggered, so a step in which it
becomes pending has to trigger it. `raisesTriggered_iff` settles which runs do: all that never
rewrite the interrupt enable register over an acknowledged transmit interrupt. There
`writeInterruptControl` combines the old enable with the flag it has just set. -/

namespace Ts3100

namespace Serial16450

open Descriptors LabelledRuns

variable {s s' : Serial16450} {e : Event}

/-- If the step makes the interrupt pending, it triggers it. -/
def RaisesTriggered (s : Serial16450) (e : Event) : Prop :=
  ∀ s' ∈ s.step e, s.registers.interruptPending = false → s'.registers.interruptPending = true →
    s.irq < s'.irq

/-- The transmit interrupt, enabled and its condition met, has been acknowledged, and no other is
pending. -/
def Acknowledged (r : Registers) : Prop :=
  r.writeInterruptEnabled = true ∧ r.writable = true ∧ r.interruptPending = false

/-- The guest rewrites the interrupt enable register, with the transmit interrupt enabled, over an
acknowledged transmit interrupt. -/
def RewritesAcknowledged (s : Serial16450) : Event → Prop
  | .iowrite8 address data =>
      s.WritesInterruptControl address ∧ data.getLsbD 1 = true ∧ Acknowledged s.registers
  | _ => False

instance (r : Registers) : Decidable (Acknowledged r) := inferInstanceAs (Decidable (_ ∧ _))

instance (s : Serial16450) (e : Event) : Decidable (s.RaisesTriggered e) :=
  match h : s.step e with
  | none => isTrue fun s' hs' => by rw [h] at hs'; cases hs'
  | some s' =>
      decidable_of_iff (s.registers.interruptPending = false →
        s'.registers.interruptPending = true → s.irq < s'.irq) (by simp [RaisesTriggered, h])

instance (s : Serial16450) (e : Event) : Decidable (s.RewritesAcknowledged e) := by
  cases e <;> unfold RewritesAcknowledged <;> infer_instance

/-! ## The receive flag -/

/-- The receive interrupt flag is the flag `readable`. -/
def ReadFlagExact (s : Serial16450) : Prop := s.registers.readInterruptFlag = s.registers.readable

/-- Every step keeps the receive interrupt flag equal to `readable`. -/
theorem readFlagExact_step (s : Serial16450) (e : Event) (s' : Serial16450)
    (hexact : ReadFlagExact s) (h : s.step e = some s') : ReadFlagExact s' := by
  unfold ReadFlagExact at hexact ⊢
  cases step_cases h with
  | writeData =>
      rw [writeData, writeClients_eq]
      exact hexact
  | writeInterruptControl =>
      -- the flag is set to `readable` where the interrupt is enabled, and stays equal to it elsewhere
      have hregisters : ∀ data, (s.registers.enableInterrupts data).readInterruptFlag
          = (s.registers.enableInterrupts data).readable := by
        intro data
        simp [Registers.enableInterrupts, hexact]
      unfold writeInterruptControl
      dsimp only
      split <;> exact hregisters _
  | setup _ _ hsame => exact hsame.readInterruptFlag.trans (hexact.trans hsame.readable.symm)
  | readData =>
      rw [readData, readClients_eq]
      rfl
  | readInterruptStatus =>
      unfold readInterruptStatus
      split
      · exact hexact
      · split <;> exact hexact
  | listen =>
      rw [listenAgain, reloadEventLoop_eq]
      exact hexact
  | handle =>
      rw [handleClientEvent_eq]
      exact congrArg (· || _) hexact
  | readOther | wait | acceptFails | accept | readTimer | expires | sends | hangsUp | drains =>
      exact hexact

/-! ## Steps that make the interrupt pending -/

/-- A client's events trigger the interrupt they make pending. -/
theorem irq_lt_handleClientEvent (fd : Nat) (events : EpollEvents)
    (hbefore : s.registers.interruptPending = false)
    (hafter : (s.handleClientEvent fd events).registers.interruptPending = true) :
    s.irq < (s.handleClientEvent fd events).irq := by
  unfold handleClientEvent at hafter ⊢
  unfold Registers.interruptPending at hbefore hafter
  cases hin : events.epollIn <;> cases hout : events.epollOut <;>
    simp [hin, hout, handleReadable_eq, handleWritable_eq, modifyEvent] at hbefore hafter ⊢ <;>
    grind

/-- Apart from a client's events and a write to the interrupt enable register, no step makes the
interrupt pending. -/
theorem interruptPending_writeData (data : Byte)
    (hbefore : s.registers.interruptPending = false) :
    (s.writeData data).registers.interruptPending = false := by
  rw [writeData, writeClients_eq]
  simp only [Registers.interruptPending, Bool.or_eq_false_iff, Bool.and_eq_false_iff] at hbefore ⊢
  exact ⟨hbefore.1, Or.inr rfl⟩

/-- Reading data raises no interrupt. -/
theorem interruptPending_readData (hbefore : s.registers.interruptPending = false) :
    s.readData.registers.interruptPending = false := by
  rw [readData, readClients_eq]
  simp only [Registers.interruptPending, Bool.or_eq_false_iff, Bool.and_eq_false_iff] at hbefore ⊢
  exact ⟨Or.inr rfl, hbefore.2⟩

/-- Nor does reading the interrupt status. -/
theorem interruptPending_readInterruptStatus (hbefore : s.registers.interruptPending = false) :
    s.readInterruptStatus.2.registers.interruptPending = false := by
  simp only [Registers.interruptPending, Bool.or_eq_false_iff] at hbefore
  unfold readInterruptStatus
  simp [hbefore, Registers.interruptPending]

/-! ## The interrupt enable register -/

/-- Bits 0 and 1 of the value written are the enables. -/
theorem enables_eq (r : Registers) (data : Byte) :
    (r.enableInterrupts data).readInterruptEnabled = data.getLsbD 0 ∧
      (r.enableInterrupts data).writeInterruptEnabled = data.getLsbD 1 := by
  constructor
  · show (data &&& 0x0f#8 &&& 0x01#8 != 0#8) = data.getLsbD 0
    decide +revert
  · show (data &&& 0x0f#8 &&& 0x02#8 != 0#8) = data.getLsbD 1
    decide +revert

/-- Where no interrupt is pending, the write triggers the interrupt unless the transmit interrupt was
enabled already, its condition met, and stays enabled. -/
theorem writeInterruptControl_eq (data : Byte) (hexact : ReadFlagExact s)
    (hbefore : s.registers.interruptPending = false) : s.writeInterruptControl data =
      if !(data.getLsbD 1 && s.registers.writeInterruptEnabled && s.registers.writable) &&
          (s.registers.enableInterrupts data).interruptPending then
        Serial16450.triggerInterrupt { s with registers := s.registers.enableInterrupts data }
      else
        { s with registers := s.registers.enableInterrupts data } := by
  obtain ⟨hread, hwrite⟩ := Bool.or_eq_false_iff.mp hbefore
  have hreadFlag : (s.registers.enableInterrupts data).readInterruptFlag
      = s.registers.readInterruptFlag := by
    simp only [Registers.enableInterrupts, ReadFlagExact] at hexact ⊢
    rw [hexact, ite_self]
  have hwriteFlag : (s.registers.enableInterrupts data).writeInterruptFlag =
      if data.getLsbD 1 then s.registers.writable else s.registers.writeInterruptFlag := by
    rw [← (enables_eq s.registers data).2]
    rfl
  -- as no interrupt was pending, the read half of the guard is met
  have hreadIdle : (!s.registers.readInterruptEnabled ||
      !(s.registers.enableInterrupts data).readInterruptFlag) = true := by
    rw [hreadFlag, ← Bool.not_and, hread]
    rfl
  -- and the write half looks at the new flag
  have hwriteIdle : (!s.registers.writeInterruptEnabled ||
      !(s.registers.enableInterrupts data).writeInterruptFlag) =
        !(data.getLsbD 1 && s.registers.writeInterruptEnabled && s.registers.writable) := by
    rw [hwriteFlag, ← Bool.not_and]
    cases data.getLsbD 1
    · simp [hwrite]
    · simp
  simp only [writeInterruptControl, hreadIdle, hwriteIdle, Bool.true_and]

/-- The enables and flags after the write decide whether an interrupt is pending. -/
theorem interruptPending_writeInterruptControl (s : Serial16450) (data : Byte) :
    (s.writeInterruptControl data).registers.interruptPending =
      (s.registers.enableInterrupts data).interruptPending := by
  unfold writeInterruptControl
  dsimp only
  split <;> rfl

/-- A transmit interrupt that is enabled with its condition met is pending. -/
theorem interruptPending_enableInterrupts {r : Registers} {data : Byte}
    (hdata : data.getLsbD 1 = true) (hwritable : r.writable = true) :
    (r.enableInterrupts data).interruptPending = true := by
  have henabled : (r.enableInterrupts data).writeInterruptEnabled = true :=
    (enables_eq r data).2.trans hdata
  have hflag : (r.enableInterrupts data).writeInterruptFlag = true := by
    show (if (r.enableInterrupts data).writeInterruptEnabled then r.writable else _) = true
    rw [henabled, if_pos rfl, hwritable]
  rw [Registers.interruptPending, henabled, hflag]
  simp

/-- A write to the interrupt enable register, where no interrupt is pending. -/
theorem irq_writeInterruptControl (data : Byte) (hexact : ReadFlagExact s)
    (hbefore : s.registers.interruptPending = false) :
    ((s.writeInterruptControl data).registers.interruptPending = true →
      s.irq < (s.writeInterruptControl data).irq) ↔
      ¬ (data.getLsbD 1 = true ∧ s.registers.writeInterruptEnabled = true ∧
        s.registers.writable = true) := by
  rw [interruptPending_writeInterruptControl, writeInterruptControl_eq data hexact hbefore]
  constructor
  · rintro hraises ⟨hdata, henabled, hwritable⟩
    have hlt := hraises (interruptPending_enableInterrupts hdata hwritable)
    rw [hdata, henabled, hwritable, if_neg (by simp)] at hlt
    exact lt_irrefl _ hlt
  · intro hnot hpending
    have hidle : (data.getLsbD 1 && s.registers.writeInterruptEnabled && s.registers.writable)
        = false := by
      by_contra htrue
      exact hnot (by simpa [and_assoc] using htrue)
    rw [hidle, hpending, if_pos (by simp)]
    exact Nat.lt_succ_self _

/-- The step of a write to the interrupt enable register. -/
theorem step_writeInterruptControl {address : BitVec 16} (hier : s.WritesInterruptControl address)
    (data : Byte) : s.step (.iowrite8 address data) = some (s.writeInterruptControl data) := by
  obtain ⟨s', hs'⟩ : ∃ s', s.step (.iowrite8 address data) = some s' := ⟨_, rfl⟩
  cases step_cases hs' with
  | writeData hd =>
      have hnone : s.accesses (.iowrite8 address data) = none := if_neg (by rw [hier.1]; simp)
      rw [hnone] at hd
      cases hd
  | writeInterruptControl => exact hs'
  | setup _ hnot => exact absurd hier hnot

/-- **One step.** The interrupt a step makes pending is triggered iff the step does not rewrite the
enable over an acknowledged transmit interrupt. -/
theorem raisesTriggered_step (hexact : ReadFlagExact s) :
    s.RaisesTriggered e ↔ ¬ s.RewritesAcknowledged e := by
  constructor
  · intro hraises hrewrites
    cases e with
    | iowrite8 address data =>
        obtain ⟨hier, hdata, henabled, hwritable, hbefore⟩ := hrewrites
        refine (irq_writeInterruptControl data hexact hbefore).mp ?_ ⟨hdata, henabled, hwritable⟩
        exact hraises _ (step_writeInterruptControl hier data) hbefore
    | _ => exact hrewrites
  · -- of the other steps only a client event can make the interrupt pending, and it triggers it
    intro hnot s' hs' hbefore hafter
    cases step_cases hs' with
    | @handle fd events => exact irq_lt_handleClientEvent fd events hbefore hafter
    | writeInterruptControl hnone hier =>
        refine (irq_writeInterruptControl _ hexact hbefore).mpr ?_ hafter
        rintro ⟨hdata, henabled, hwritable⟩
        exact hnot ⟨hier, hdata, henabled, hwritable, hbefore⟩
    | setup _ _ hsame =>
        rw [Registers.interruptPending, hsame.readInterruptEnabled, hsame.readInterruptFlag,
          hsame.writeInterruptEnabled, hsame.writeInterruptFlag] at hafter
        exact absurd (hbefore.symm.trans hafter) (by simp)
    | writeData =>
        exact absurd ((interruptPending_writeData _ hbefore).symm.trans hafter) (by simp)
    | readData => exact absurd ((interruptPending_readData hbefore).symm.trans hafter) (by simp)
    | readInterruptStatus =>
        exact absurd ((interruptPending_readInterruptStatus hbefore).symm.trans hafter) (by simp)
    | listen =>
        rw [listenAgain, reloadEventLoop_eq] at hafter
        exact absurd (hbefore.symm.trans hafter) (by simp)
    | readOther | wait | acceptFails | accept | readTimer | expires | sends | hangsUp | drains =>
        exact absurd (hbefore.symm.trans hafter) (by simp)

/-! ## Runs -/

/-- **When no interrupt is lost.** Over every run, each step that makes the interrupt pending
triggers it iff the guest never rewrites the interrupt enable register, with the transmit interrupt
enabled, over an acknowledged transmit interrupt. -/
theorem raisesTriggered_iff (events : List Event) :
    StepsMeet step RaisesTriggered {} events ↔
      StepsMeet step (fun s e => ¬ s.RewritesAcknowledged e) {} events :=
  stepsMeet_iff readFlagExact_step (fun _ _ hexact => raisesTriggered_step hexact)
    (show ReadFlagExact {} from rfl) events

/-- A client connects with room, and its `EPOLLOUT` sets the transmit flag; the guest enables the
transmit interrupt, and acknowledges it by reading the interrupt status register. -/
def acknowledgeRun : List Event :=
  [.wait .server, .accept (some { fd := 5, capacity := 1 }),
    .wait (.client 5 { epollOut := true }), .dispatch, .iowrite8 1#16 0x02#8, .ioread8 2#16]

/-- **A lost interrupt.** Writing the enable again makes the acknowledged transmit interrupt
pending, and nothing triggers it. -/
theorem not_raisesTriggered :
    ¬ ∀ events, StepsMeet step RaisesTriggered {} events := by
  intro hclaim
  have hlost : ¬ StepsMeet step RaisesTriggered {} (acknowledgeRun ++ [.iowrite8 1#16 0x02#8]) := by
    decide
  exact hlost (hclaim _)

end Serial16450

end Ts3100

import Ts3100.Timer.Device

/-! # The byte-select state machines

Each channel of the timer keeps which byte of the count is written next and which is read next, the
second through the status byte. `byteSelect_after` says that they always fit the access mode of the
channel, and that an operation on one channel leaves those of the others alone. -/

namespace Ts3100

namespace TimerChannel

variable {c c' : TimerChannel}

/-- The byte-select state fits the access mode. -/
structure Consistent (c : TimerChannel) : Prop where
  accessMode : c.accessMode ≠ .latchCountValue
  writeByte : c.writeByte ≠ .statusByte
  lowByteOnly : c.accessMode = .lowByteOnly →
    c.writeByte = .lowByte ∧ (c.accessByte = .lowByte ∨ c.accessByte = .statusByte)
  highByteOnly : c.accessMode = .highByteOnly →
    c.writeByte = .highByte ∧ (c.accessByte = .highByte ∨ c.accessByte = .statusByte)

/-- The byte-select, mode, latch and reload fields are the same. -/
structure SameSelection (c c' : TimerChannel) : Prop where
  writeByte : c'.writeByte = c.writeByte
  accessByte : c'.accessByte = c.accessByte
  accessMode : c'.accessMode = c.accessMode
  operatingMode : c'.operatingMode = c.operatingMode
  binaryCodedDecimal : c'.binaryCodedDecimal = c.binaryCodedDecimal
  latch : c'.latch = c.latch
  latched : c'.latched = c.latched
  reload : c'.reload = c.reload

/-- A channel selects the same byte as itself. -/
theorem SameSelection.refl (c : TimerChannel) : c.SameSelection c :=
  ⟨rfl, rfl, rfl, rfl, rfl, rfl, rfl, rfl⟩

/-- Counting changes none of these fields. -/
theorem sameSelection_resolve (c : TimerChannel) (prescaler : BitVec 16) (now : Nat) :
    c.SameSelection (c.resolve prescaler now) := by
  unfold resolve
  split
  · exact .refl c
  · exact ⟨rfl, rfl, rfl, rfl, rfl, rfl, rfl, rfl⟩

/-- Consistency is about the byte-select fields and the access mode. -/
theorem Consistent.of_fields (h : c.Consistent) (hmode : c'.accessMode = c.accessMode)
    (hwrite : c'.writeByte = c.writeByte) (haccess : c'.accessByte = c.accessByte) :
    c'.Consistent := by
  constructor
  · rw [hmode]
    exact h.accessMode
  · rw [hwrite]
    exact h.writeByte
  · rw [hmode, hwrite, haccess]
    exact h.lowByteOnly
  · rw [hmode, hwrite, haccess]
    exact h.highByteOnly

/-- The byte read next may be any that fits the mode. -/
theorem Consistent.select (h : c.Consistent) (hbyte : c'.accessMode = c.accessMode)
    (hwrite : c'.writeByte = c.writeByte)
    (hlow : c.accessMode = .lowByteOnly →
      c'.accessByte = .lowByte ∨ c'.accessByte = .statusByte)
    (hhigh : c.accessMode = .highByteOnly →
      c'.accessByte = .highByte ∨ c'.accessByte = .statusByte) : c'.Consistent := by
  constructor
  · rw [hbyte]
    exact h.accessMode
  · rw [hwrite]
    exact h.writeByte
  · rw [hbyte, hwrite]
    exact fun hmode => ⟨(h.lowByteOnly hmode).1, hlow hmode⟩
  · rw [hbyte, hwrite]
    exact fun hmode => ⟨(h.highByteOnly hmode).1, hhigh hmode⟩

/-! ## The operations on a channel -/

/-- A read goes on to the other byte where the mode has two, and from the status byte to the first
byte of the mode. -/
theorem Consistent.nextByte (h : c.Consistent) : c.nextByte.Consistent := by
  unfold TimerChannel.nextByte
  cases hbyte : c.accessByte with
  | lowByte =>
      dsimp only
      split
      · exact h.of_fields rfl rfl hbyte.symm
      · rename_i hmode
        exact h.select rfl rfl (fun hlow => absurd hlow hmode) fun _ => Or.inl rfl
  | highByte =>
      dsimp only
      split
      · rename_i hmode
        exact h.select rfl rfl (fun _ => Or.inl rfl) fun hhigh => absurd hhigh hmode
      · exact h.of_fields rfl rfl hbyte.symm
  | statusByte =>
      dsimp only
      split
      · rename_i hmode
        exact h.select rfl rfl (fun hlow => absurd (hmode.symm.trans hlow) (by simp)) fun _ => Or.inl rfl
      · rename_i hmode
        exact h.select rfl rfl (fun _ => Or.inl rfl) fun hhigh => absurd hhigh hmode

/-- The last byte of a reload leaves the selection. -/
theorem Consistent.finishLoad (h : c.Consistent) (now : Nat) : (c.finishLoad now).Consistent := by
  unfold TimerChannel.finishLoad
  split
  · exact h.of_fields rfl rfl rfl
  · exact h

/-- A byte written goes on to the other byte where the mode has two. -/
theorem Consistent.writeCount (h : c.Consistent) (value : Byte) (now : Nat) :
    (c.writeCount value now).Consistent := by
  -- a mode of two bytes constrains neither
  have htwo (hmode : c.accessMode = .lowByteHighByte) {c' : TimerChannel}
      (hmode' : c'.accessMode = c.accessMode) (hwrite : c'.writeByte ≠ .statusByte) :
      c'.Consistent := by
    rw [hmode] at hmode'
    exact ⟨by simp [hmode'], hwrite, by simp [hmode'], by simp [hmode']⟩
  unfold TimerChannel.writeCount
  dsimp only
  cases hbyte : c.writeByte with
  | lowByte =>
      dsimp only
      split
      · rename_i hmode
        exact htwo hmode rfl (by simp)
      · refine Consistent.finishLoad ?_ now
        exact h.of_fields rfl hbyte.symm rfl
  | highByte =>
      dsimp only
      split
      · rename_i hmode
        refine Consistent.finishLoad ?_ now
        exact htwo hmode rfl (by simp)
      · refine Consistent.finishLoad ?_ now
        exact h.of_fields rfl hbyte.symm rfl
  | statusByte => exact absurd hbyte h.writeByte

/-- The read-back command selects the status byte, or the first byte of the mode. -/
theorem Consistent.readBack (h : c.Consistent) (latchStatus latchCount : Bool) :
    (c.readBack latchStatus latchCount).Consistent := by
  have hselected : ∀ c' : TimerChannel, c'.accessMode = c.accessMode → c'.writeByte = c.writeByte →
      c'.accessByte = (if !latchStatus then .statusByte
        else if c.accessMode = .highByteOnly then .highByte else .lowByte) → c'.Consistent := by
    intro c' hmode hwrite haccess
    refine h.select hmode hwrite (fun hlow => ?_) fun hhigh => ?_
    · rw [haccess, hlow]
      cases latchStatus <;> simp
    · rw [haccess, hhigh]
      cases latchStatus <;> simp
  unfold TimerChannel.readBack
  dsimp only
  split <;> exact hselected _ rfl rfl rfl

/-- The configure command selects the first byte of the mode for both. -/
theorem consistent_configure (c : TimerChannel) {mode : AccessMode} (hmode : mode ≠ .latchCountValue)
    (operatingMode : BitVec 3) (bcd : Bool) : (c.configure mode operatingMode bcd).Consistent := by
  cases mode with
  | latchCountValue => exact absurd rfl hmode
  | lowByteOnly | highByteOnly | lowByteHighByte =>
      constructor <;> simp [configure]

/-- A command reads the channel back, latches it or configures it. -/
theorem Consistent.command (h : c.Consistent) (i : Fin 3) (command : Byte) :
    (c.command i command).Consistent := by
  unfold TimerChannel.command
  split
  · split
    · exact h.readBack _ _
    · exact h
  · split
    · split
      · exact h.of_fields rfl rfl rfl
      · rename_i hmode
        exact c.consistent_configure hmode _ _
    · exact h

/-- **Step.** Every operation keeps every channel consistent. -/
theorem Consistent.perform (h : c.Consistent) (i : Fin 3) (prescaler : BitVec 16) (now : Nat)
    (op : TimerOperation) : (c.perform i prescaler now op).Consistent := by
  have hresolved : (c.resolve prescaler now).Consistent := by
    have hsame := c.sameSelection_resolve prescaler now
    exact h.of_fields hsame.accessMode hsame.writeByte hsame.accessByte
  cases op with
  | setPrescaler _ => exact hresolved
  | writeCommand command => exact hresolved.command i command
  | writeRegister timer value =>
      show (if timer = i then c.writeCount value now else c).Consistent
      split
      · exact h.writeCount value now
      · exact h
  | readRegister timer =>
      show (if timer = i then (c.resolve prescaler now).nextByte
        else c.resolve prescaler now).Consistent
      split
      · exact hresolved.nextByte
      · exact hresolved

end TimerChannel

/-- The channel that an operation addresses: a read, a count write, or a command but the read-back. -/
def TimerOperation.channel : TimerOperation → Option Nat
  | .setPrescaler _ => none
  | .writeCommand command =>
      if (command.extractLsb' 6 2).toNat = 3 then none else some (command.extractLsb' 6 2).toNat
  | .writeRegister timer _ => some timer
  | .readRegister timer => some timer

namespace ProgrammableIntervalTimer

/-- An operation on one channel leaves the selection of the others alone. -/
theorem sameSelection_perform (t : ProgrammableIntervalTimer) (now : Nat) {op : TimerOperation}
    {k : Nat} (hop : op.channel = some k) {i : Fin 3} (hne : k ≠ i) :
    (t.state i).SameSelection ((t.perform now op).state i) := by
  rw [state_perform]
  have hresolved := (t.state i).sameSelection_resolve t.timerPrescaler now
  cases op with
  | setPrescaler prescaler => cases hop
  | writeCommand command =>
      rw [TimerOperation.channel, Option.ite_none_left_eq_some] at hop
      obtain ⟨hstandard, hk⟩ := hop
      have hother : (command.extractLsb' 6 2).toNat ≠ i := by
        rw [Option.some.inj hk]
        exact hne
      show (t.state i).SameSelection (((t.state i).resolve t.timerPrescaler now).command i command)
      rw [TimerChannel.command, if_neg hstandard, if_neg hother]
      exact hresolved
  | writeRegister timer value =>
      have hother : timer ≠ i := fun heq => hne (heq ▸ (Option.some.inj hop).symm)
      show (t.state i).SameSelection (if timer = i then _ else t.state i)
      rw [if_neg hother]
      exact .refl _
  | readRegister timer =>
      have hother : timer ≠ i := fun heq => hne (heq ▸ (Option.some.inj hop).symm)
      show (t.state i).SameSelection (if timer = i then _ else _)
      rw [if_neg hother]
      exact hresolved

/-- **The byte-select machines are consistent.** In every state that operations lead to, each channel
is consistent, and the next operation, if it addresses one channel, leaves the others alone. -/
theorem byteSelect_after (start : Nat) (run : List (Nat × TimerOperation)) :
    (∀ i, (((init start).after run).state i).Consistent) ∧
      ∀ now op (k : Nat), TimerOperation.channel op = some k → ∀ i : Fin 3, k ≠ i →
        (((init start).after run).state i).SameSelection
          ((((init start).after run).perform now op).state i) := by
  refine ⟨fun i => ?_, fun now op k hop i hne => sameSelection_perform _ now hop hne⟩
  induction run using List.reverseRecOn with
  | nil =>
      exact ⟨by simp [init], by simp [init], by simp [init], by simp [init]⟩
  | append_singleton run e ih =>
      rw [after_append, after_cons, after_nil, state_perform]
      exact ih.perform i _ e.1 e.2

end ProgrammableIntervalTimer

end Ts3100

import Ts3100.Timer.Device

/-! # Counting in closed form

`resolveTimers` computes the count after any number of ticks in one go. Two laws say that it does not
matter when it is called.

* `resolveTimers_add_iff` — when resolving `a` ticks and then `b` is resolving `a + b`, and when
  single ticks add up: a count that has wrapped is one too low, as the tick that leaves zero is not
  counted as one.
* `ticksAccounted_eq_iff` — when a channel that is resolved again and again accounts for all the
  time that passes: each call drops the part of a tick that is left over. -/

namespace Ts3100

/-! ## The closed form -/

section countAfter

variable {value reload : BitVec 16}

/-- The count after some ticks as a number. -/
theorem toNat_countAfter (value reload : BitVec 16) (ticks : Nat) :
    (countAfter value reload ticks).toNat =
      if value.toNat < ticks then
        reload.toNat - (ticks - value.toNat) % (reload.toNat + 1)
      else
        value.toNat - ticks := by
  have hvalue := value.isLt
  have hreload := reload.isLt
  unfold countAfter
  split
  · rw [BitVec.toNat_ofNat, Nat.mod_eq_of_lt (by omega)]
  · rw [BitVec.toNat_ofNat, Nat.mod_eq_of_lt (by omega)]

/-- Before the count has wrapped. -/
theorem toNat_countAfter_of_le {ticks : Nat} (h : ticks ≤ value.toNat) :
    (countAfter value reload ticks).toNat = value.toNat - ticks := by
  rw [toNat_countAfter, if_neg (by omega)]

/-- Once the count has wrapped. -/
theorem toNat_countAfter_of_lt {ticks : Nat} (h : value.toNat < ticks) :
    (countAfter value reload ticks).toNat =
      reload.toNat - (ticks - value.toNat) % (reload.toNat + 1) := by
  rw [toNat_countAfter, if_pos h]

/-- The remainders of two successive numbers differ, except by one. -/
theorem add_one_mod_eq_mod_iff {n r : Nat} : (n + 1) % (r + 1) = n % (r + 1) ↔ r = 0 := by
  constructor
  · intro h
    have hone : 1 ≡ 0 [MOD r + 1] := Nat.ModEq.add_left_cancel' n h
    have hle := Nat.le_of_dvd one_pos (Nat.modEq_zero_iff_dvd.mp hone)
    omega
  · rintro rfl
    simp [Nat.mod_one]

/-- `a` and `b` ticks apart from `a + b` at once: the two agree unless the second part wraps a count
that the first part has wrapped before. -/
theorem countAfter_add_iff (value reload : BitVec 16) (a b : Nat) :
    countAfter (countAfter value reload a) reload b = countAfter value reload (a + b) ↔
      a ≤ value.toNat ∨ reload = 0#16 ∨
        (a - value.toNat) % (reload.toNat + 1) + b ≤ reload.toNat := by
  rw [← BitVec.toNat_inj, ← BitVec.toNat_inj (x := reload), BitVec.toNat_zero]
  by_cases ha : a ≤ value.toNat
  · -- the first part does not wrap
    refine iff_of_true ?_ (Or.inl ha)
    have hfirst : (countAfter value reload a).toNat = _ := toNat_countAfter_of_le ha
    rw [toNat_countAfter (countAfter value reload a), toNat_countAfter value reload (a + b), hfirst]
    by_cases hb : value.toNat < a + b
    · rw [if_pos (by omega), if_pos hb, show b - (value.toNat - a) = a + b - value.toNat by omega]
    · rw [if_neg (by omega), if_neg hb]
      omega
  · have hwrapped : value.toNat < a := by omega
    have hfirst : (countAfter value reload a).toNat = _ := toNat_countAfter_of_lt hwrapped
    have hsum : (countAfter value reload (a + b)).toNat = _ :=
      toNat_countAfter_of_lt (by omega)
    have hmod : (a + b - value.toNat) % (reload.toNat + 1)
        = ((a - value.toNat) % (reload.toNat + 1) + b) % (reload.toNat + 1) := by
      rw [Nat.mod_add_mod]
      congr 1
      omega
    rw [toNat_countAfter (countAfter value reload a), hfirst, hsum, hmod]
    generalize hm : (a - value.toNat) % (reload.toNat + 1) = m
    have hlt : m < reload.toNat + 1 := hm ▸ Nat.mod_lt _ (by omega)
    by_cases hb : m + b ≤ reload.toNat
    · rw [if_neg (by omega), Nat.mod_eq_of_lt (by omega)]
      exact iff_of_true (by omega) (Or.inr (Or.inr hb))
    · -- the second wrap is counted from zero, which is one tick short
      rw [if_pos (by omega)]
      have hshort : (b - (reload.toNat - m)) % (reload.toNat + 1)
          = (m + b + 1) % (reload.toNat + 1) := by
        rw [show m + b + 1 = b - (reload.toNat - m) + (reload.toNat + 1) by omega,
          Nat.add_mod_right]
      have hl := Nat.mod_lt (m + b + 1) (show 0 < reload.toNat + 1 by omega)
      have hr := Nat.mod_lt (m + b) (show 0 < reload.toNat + 1 by omega)
      rw [hshort]
      constructor
      · intro heq
        have hsame : (m + b + 1) % (reload.toNat + 1) = (m + b) % (reload.toNat + 1) := by omega
        exact Or.inr (Or.inl (add_one_mod_eq_mod_iff.mp hsame))
      · rintro (h | h | h)
        · exact absurd h ha
        · rw [h]
          simp [Nat.mod_one]
        · exact absurd h hb

/-- The count after single ticks: a count that has wrapped has period `reload`, not `reload + 1`. -/
theorem toNat_iterate_countAfter_one (value reload : BitVec 16) (n : Nat) :
    ((fun v => countAfter v reload 1)^[n] value).toNat =
      if value.toNat < n then reload.toNat - 1 - (n - value.toNat - 1) % reload.toNat
      else value.toNat - n := by
  induction n with
  | zero => simp
  | succ n ih =>
      rw [Function.iterate_succ_apply', toNat_countAfter, ih]
      by_cases hn : value.toNat < n
      · rw [if_pos hn, if_pos (show value.toNat < n + 1 by omega)]
        by_cases hzero : reload.toNat = 0
        · rw [hzero]
          split <;> omega
        · have hs := Nat.mod_lt (n - value.toNat - 1) (show 0 < reload.toNat by omega)
          rw [show n + 1 - value.toNat - 1 = n - value.toNat - 1 + 1 by omega, Nat.add_mod]
          generalize (n - value.toNat - 1) % reload.toNat = s at hs ⊢
          by_cases hlast : s = reload.toNat - 1
          · -- the count stands at zero, and wraps
            rw [if_pos (by omega), Nat.mod_eq_of_lt (show 1 - _ < _ by omega)]
            by_cases hone : reload.toNat = 1
            · rw [hlast, hone]
            · rw [Nat.mod_eq_of_lt (show 1 < reload.toNat by omega), hlast,
                show reload.toNat - 1 + 1 = reload.toNat by omega, Nat.mod_self]
              omega
          · rw [if_neg (by omega), Nat.mod_eq_of_lt (show 1 < reload.toNat by omega),
              Nat.mod_eq_of_lt (show s + 1 < reload.toNat by omega)]
            omega
      · rw [if_neg hn]
        by_cases heq : value.toNat = n
        · rw [if_pos (by omega), if_pos (by omega), heq, Nat.sub_self, Nat.sub_zero,
            show n + 1 - n - 1 = 0 by omega, Nat.zero_mod]
          by_cases hzero : reload.toNat = 0
          · omega
          · rw [Nat.mod_eq_of_lt (show 1 < reload.toNat + 1 by omega)]
            omega
        · rw [if_neg (by omega), if_neg (by omega)]
          omega

/-- Single ticks add up to the closed form unless the count has wrapped as often as makes the two
periods differ. -/
theorem iterate_countAfter_one_iff (value reload : BitVec 16) (n : Nat) :
    (fun v => countAfter v reload 1)^[n] value = countAfter value reload n ↔
      n ≤ value.toNat ∨ reload = 0#16 ∨
        (reload.toNat + 1) ∣ (n - value.toNat - 1) / reload.toNat := by
  rw [← BitVec.toNat_inj, ← BitVec.toNat_inj (x := reload), BitVec.toNat_zero,
    toNat_iterate_countAfter_one]
  by_cases hn : n ≤ value.toNat
  · rw [if_neg (by omega), toNat_countAfter_of_le hn]
    exact iff_of_true rfl (Or.inl hn)
  · rw [if_pos (by omega), toNat_countAfter_of_lt (by omega)]
    by_cases hzero : reload.toNat = 0
    · rw [hzero]
      exact iff_of_true (by omega) (Or.inr (Or.inl rfl))
    · -- `k` ticks after the first wrap: period `reload` against `reload + 1`
      obtain ⟨k, hk⟩ : ∃ k, n - value.toNat = k + 1 := ⟨n - value.toNat - 1, by omega⟩
      rw [hk, Nat.add_sub_cancel]
      have hs := Nat.mod_lt k (show 0 < reload.toNat by omega)
      have hdiv := Nat.div_add_mod k reload.toNat
      generalize k % reload.toNat = s at hs hdiv ⊢
      generalize k / reload.toNat = q at hdiv ⊢
      have hl := Nat.mod_lt (k + 1) (show 0 < reload.toNat + 1 by omega)
      -- neighbours are coprime, so the quotient alone decides
      have hcop : Nat.Coprime (reload.toNat + 1) reload.toNat := by simp
      have hiff : (reload.toNat + 1) ∣ q ↔ (k + 1) % (reload.toNat + 1) = s + 1 := by
        rw [← hcop.dvd_mul_left, ← Nat.modEq_zero_iff_dvd]
        have hmod : (k + 1) % (reload.toNat + 1) = s + 1 ↔ k + 1 ≡ s + 1 [MOD reload.toNat + 1] := by
          unfold Nat.ModEq
          rw [Nat.mod_eq_of_lt (show s + 1 < reload.toNat + 1 by omega)]
        rw [hmod, ← hdiv, add_assoc]
        constructor
        · intro h
          simpa using h.add_right (s + 1)
        · intro h
          exact Nat.ModEq.add_right_cancel' (s + 1) (by simpa using h)
      rw [hiff]
      omega

end countAfter

namespace ProgrammableIntervalTimer

variable {t : ProgrammableIntervalTimer} {i : Fin 3}

/-! ## Splitting an interval -/

/-- The time at which a channel has counted `n` ticks since it was last brought up to date. -/
def timeOfTick (t : ProgrammableIntervalTimer) (i : Fin 3) (n : Nat) : Nat :=
  (t.state i).lastRecord + n * tickPeriod t.timerPrescaler

/-- `resolveTimers` at each of the first `n` ticks of a channel. -/
def resolveEachTick (t : ProgrammableIntervalTimer) (i : Fin 3) (n : Nat) :
    ProgrammableIntervalTimer :=
  (List.range n).foldl (fun t' k => t'.resolveTimers (t.timeOfTick i (k + 1))) t

/-- With a prescaler, ticks take time. -/
theorem tickPeriod_pos {prescaler : BitVec 16} (hp : 0 < prescaler.toNat) :
    0 < tickPeriod prescaler :=
  Nat.mul_pos (by decide) hp

/-- A channel that counts, brought up to the time of a tick. -/
theorem resolve_timeOfTick {c : TimerChannel} {prescaler : BitVec 16}
    (hloaded : c.waitingForLoad = false) (hp : 0 < prescaler.toNat) {start m n : Nat}
    (hstart : c.lastRecord = start + m * tickPeriod prescaler) :
    let c' := c.resolve prescaler (start + (m + n) * tickPeriod prescaler)
    c'.value = countAfter c.value c.reload n ∧ c'.reload = c.reload ∧
      c'.lastRecord = start + (m + n) * tickPeriod prescaler ∧ c'.waitingForLoad = false := by
  have hticks : c.elapsedTicks prescaler (start + (m + n) * tickPeriod prescaler) = n := by
    have hdiff : start + (m + n) * tickPeriod prescaler - c.lastRecord
        = n * tickPeriod prescaler := by
      rw [hstart, Nat.add_mul]
      omega
    rw [TimerChannel.elapsedTicks, hdiff, Nat.mul_div_cancel _ (tickPeriod_pos hp)]
  simp [TimerChannel.resolve, hloaded, hticks]

/-- After a resolve at every tick, the count is that of single ticks. -/
theorem resolveEachTick_eq (hp : 0 < t.timerPrescaler.toNat)
    (hloaded : (t.state i).waitingForLoad = false) (n : Nat) :
    let t' := t.resolveEachTick i n
    (t'.state i).value
        = (fun v => countAfter v (t.state i).reload 1)^[n] (t.state i).value ∧
      (t'.state i).reload = (t.state i).reload ∧
      (t'.state i).lastRecord = t.timeOfTick i n ∧ (t'.state i).waitingForLoad = false ∧
      t'.timerPrescaler = t.timerPrescaler := by
  induction n with
  | zero => simpa [resolveEachTick, timeOfTick] using hloaded
  | succ n ih =>
      obtain ⟨hvalue, hreload, hrecord, hwaiting, hprescaler⟩ := ih
      have hnext : t.resolveEachTick i (n + 1)
          = (t.resolveEachTick i n).resolveTimers (t.timeOfTick i (n + 1)) := by
        simp [resolveEachTick, List.range_succ]
      -- one more resolve, at the next whole tick: no fraction is lost
      obtain ⟨hvalue', hreload', hrecord', hwaiting'⟩ :=
        resolve_timeOfTick (n := 1) hwaiting hp hrecord
      rw [hnext]
      refine ⟨?_, ?_, ?_, ?_, hprescaler⟩
      · rw [Function.iterate_succ_apply', ← hvalue, ← hreload]
        show ((t.resolveEachTick i n).state i |>.resolve _ _).value = _
        rw [hprescaler]
        exact hvalue'
      · show ((t.resolveEachTick i n).state i |>.resolve _ _).reload = _
        rw [hprescaler]
        exact hreload'.trans hreload
      · show ((t.resolveEachTick i n).state i |>.resolve _ _).lastRecord = _
        rw [hprescaler]
        exact hrecord'
      · show ((t.resolveEachTick i n).state i |>.resolve _ _).waitingForLoad = _
        rw [hprescaler]
        exact hwaiting'

/-- **When the closed form agrees with single stepping.** For a channel that counts, resolving `a`
ticks and then `b` leaves the count of resolving `a + b` at once iff the first part does not wrap,
the reload value is zero, or the second part does not wrap again; and `n` single ticks leave the
count of `n` at once iff they do not wrap, the reload value is zero, or the two periods agree. -/
theorem resolveTimers_add_iff (t : ProgrammableIntervalTimer) (i : Fin 3)
    (hp : 0 < t.timerPrescaler.toNat) (hloaded : (t.state i).waitingForLoad = false) :
    (∀ a b,
      (((t.resolveTimers (t.timeOfTick i a)).resolveTimers (t.timeOfTick i (a + b))).state i).value
          = ((t.resolveTimers (t.timeOfTick i (a + b))).state i).value ↔
        a ≤ (t.state i).value.toNat ∨ (t.state i).reload = 0#16 ∨
          (a - (t.state i).value.toNat) % ((t.state i).reload.toNat + 1) + b
            ≤ (t.state i).reload.toNat) ∧
    (∀ n,
      ((t.resolveEachTick i n).state i).value
          = ((t.resolveTimers (t.timeOfTick i n)).state i).value ↔
        n ≤ (t.state i).value.toNat ∨ (t.state i).reload = 0#16 ∨
          ((t.state i).reload.toNat + 1) ∣
            (n - (t.state i).value.toNat - 1) / (t.state i).reload.toNat) := by
  have hstart : (t.state i).lastRecord
      = (t.state i).lastRecord + 0 * tickPeriod t.timerPrescaler := by simp
  have honce : ∀ n, ((t.resolveTimers (t.timeOfTick i n)).state i).value
      = countAfter (t.state i).value (t.state i).reload n := by
    intro n
    obtain ⟨hvalue, -⟩ := resolve_timeOfTick (n := n) hloaded hp hstart
    rw [Nat.zero_add] at hvalue
    exact hvalue
  refine ⟨fun a b => ?_, fun n => ?_⟩
  · obtain ⟨hvalue, hreload, hrecord, hwaiting⟩ := resolve_timeOfTick (n := a) hloaded hp hstart
    rw [Nat.zero_add] at hvalue hreload hrecord hwaiting
    obtain ⟨hvalue', -⟩ := resolve_timeOfTick (n := b) hwaiting hp hrecord
    rw [honce, ← countAfter_add_iff, ← hvalue, ← hreload]
    exact Eq.congr hvalue' (by rw [hreload])
  · rw [honce, (resolveEachTick_eq hp hloaded n).1]
    exact iterate_countAfter_one_iff _ _ _

/-- A timer whose channels count from `value`, with prescaler 2. -/
def counting (value reload : BitVec 16) : ProgrammableIntervalTimer where
  state := fun _ => { lastRecord := 0, value, reload, waitingForLoad := false }

/-- A count of 5 wraps in seven ticks, and is resolved again three ticks later. -/
theorem resolveTimers_add_iff_counting :
    ((((counting 5#16 9#16).resolveTimers ((counting 5#16 9#16).timeOfTick 0 7)).resolveTimers
      ((counting 5#16 9#16).timeOfTick 0 (7 + 3))).state 0).value
        = (((counting 5#16 9#16).resolveTimers
          ((counting 5#16 9#16).timeOfTick 0 (7 + 3))).state 0).value :=
  ((resolveTimers_add_iff (counting 5#16 9#16) 0 (by decide) rfl).1 7 3).mpr (by decide)

/-- **A tick short.** From a count of zero with reload value 1, two ticks at once leave 1, and two
single ticks leave 0. -/
theorem not_resolveTimers_add :
    ¬ ∀ (t : ProgrammableIntervalTimer) (i : Fin 3), 0 < t.timerPrescaler.toNat →
      (t.state i).waitingForLoad = false → ∀ a b,
      (((t.resolveTimers (t.timeOfTick i a)).resolveTimers (t.timeOfTick i (a + b))).state i).value
        = ((t.resolveTimers (t.timeOfTick i (a + b))).state i).value := by
  intro hclaim
  exact absurd (hclaim (counting 0#16 1#16) 0 (by decide) rfl 1 1) (by decide)

end ProgrammableIntervalTimer

/-! ## Polling -/

/-- The operations that resolve the timers: all but the writes of count bytes. -/
def TimerOperation.resolves : TimerOperation → Bool
  | .writeRegister _ _ => false
  | _ => true

/-- The operation configures a channel. -/
def TimerOperation.configures (i : Fin 3) : TimerOperation → Bool
  | .writeCommand command =>
      (command.extractLsb' 6 2).toNat = i.val &&
        AccessMode.ofBits (command.extractLsb' 4 2) ≠ .latchCountValue
  | _ => false

/-- The operation leaves a channel counting at the same prescaler. -/
def TimerOperation.KeepsCounting (i : Fin 3) (prescaler : BitVec 16) (op : TimerOperation) : Prop :=
  op.configures i = false ∧ ∀ p, op = .setPrescaler p → p = prescaler

/-- The times at which a run resolves the timers. -/
def resolveTimes (run : List (Nat × TimerOperation)) : List Nat :=
  (run.filter (·.2.resolves)).map Prod.fst

/-- The intervals between successive times from a start. -/
def intervals : Nat → List Nat → List Nat
  | _, [] => []
  | start, now :: times => (now - start) :: intervals now times

/-- The last of some times from a start. -/
def lastTime (start : Nat) (times : List Nat) : Nat := times.getLast?.getD start

/-- The intervals add up to the whole. -/
theorem sum_intervals {start : Nat} {times : List Nat}
    (h : (start :: times).Pairwise (· ≤ ·)) :
    (intervals start times).sum + start = lastTime start times := by
  induction times generalizing start with
  | nil => simp [intervals, lastTime]
  | cons now times ih =>
      obtain ⟨hstart, htimes⟩ := List.pairwise_cons.mp h
      have hle := hstart now List.mem_cons_self
      have hrest := ih htimes
      have hlast : lastTime start (now :: times) = lastTime now times := by
        cases times <;> simp [lastTime, List.getLast?_cons]
      rw [hlast, ← hrest, intervals, List.sum_cons]
      omega

/-- Whole periods of parts add up to those of the sum iff the remainders stay below one period. -/
theorem sum_div_eq_iff {period : Nat} (hperiod : 0 < period) (parts : List Nat) :
    (parts.map (· / period)).sum = parts.sum / period ↔
      (parts.map (· % period)).sum < period := by
  have hsum : parts.sum = (parts.map (· % period)).sum + period * (parts.map (· / period)).sum := by
    induction parts with
    | nil => simp
    | cons a parts ih =>
        have ha := Nat.mod_add_div a period
        rw [List.sum_cons, List.map_cons, List.sum_cons, List.map_cons, List.sum_cons, Nat.mul_add,
          ih]
        omega
  rw [hsum, Nat.add_mul_div_left _ _ hperiod, ← Nat.div_eq_zero_iff_lt hperiod]
  omega

namespace TimerChannel

variable {c : TimerChannel} {i : Fin 3}

/-- A command that does not configure the channel leaves it counting, and its record. -/
theorem command_counting (command : Byte)
    (hconfigures : (TimerOperation.writeCommand command).configures i = false)
    (hloaded : c.waitingForLoad = false) :
    (c.command i command).waitingForLoad = false ∧
      (c.command i command).lastRecord = c.lastRecord := by
  unfold TimerChannel.command
  split
  · split
    · unfold readBack latchCount
      dsimp only
      split <;> exact ⟨hloaded, rfl⟩
    · exact ⟨hloaded, rfl⟩
  · split
    · split
      · exact ⟨hloaded, rfl⟩
      · rename_i hchannel hmode
        simp [TimerOperation.configures, hchannel, hmode] at hconfigures
    · exact ⟨hloaded, rfl⟩

/-- A count byte leaves a counting channel counting, and its record. -/
theorem writeCount_counting (value : Byte) (now : Nat) (hloaded : c.waitingForLoad = false) :
    (c.writeCount value now).waitingForLoad = false ∧
      (c.writeCount value now).lastRecord = c.lastRecord := by
  have hfinish : ∀ c' : TimerChannel, c'.waitingForLoad = false → c'.lastRecord = c.lastRecord →
      (c'.finishLoad now).waitingForLoad = false ∧
        (c'.finishLoad now).lastRecord = c.lastRecord := by
    intro c' hwaiting hrecord
    rw [finishLoad, if_neg (by rw [hwaiting]; simp)]
    exact ⟨hwaiting, hrecord⟩
  unfold writeCount
  dsimp only
  split
  · split
    · exact ⟨hloaded, rfl⟩
    · exact hfinish _ hloaded rfl
  · split
    · exact hfinish _ hloaded rfl
    · exact hfinish _ hloaded rfl
  · exact ⟨hloaded, rfl⟩

/-- Selecting the next byte does not touch the count. -/
theorem nextByte_counting (c : TimerChannel) :
    c.nextByte.waitingForLoad = c.waitingForLoad ∧ c.nextByte.lastRecord = c.lastRecord := by
  unfold nextByte
  split
  · split <;> exact ⟨rfl, rfl⟩
  · dsimp only
    split <;> exact ⟨rfl, rfl⟩
  · split <;> exact ⟨rfl, rfl⟩

end TimerChannel

namespace ProgrammableIntervalTimer

/-- The ticks that a channel accounts over a run. -/
def ticksAccounted (i : Fin 3) : ProgrammableIntervalTimer → List (Nat × TimerOperation) → Nat
  | _, [] => 0
  | t, (now, op) :: run =>
      (if op.resolves && !(t.state i).waitingForLoad then
        (t.state i).elapsedTicks t.timerPrescaler now
      else
        0) + ticksAccounted i (t.perform now op) run

variable {t : ProgrammableIntervalTimer} {i : Fin 3}

/-- An operation that leaves a channel counting brings it up to date if it resolves the timers. -/
theorem perform_keepsCounting {op : TimerOperation} (now : Nat)
    (hloaded : (t.state i).waitingForLoad = false) (hkeeps : op.KeepsCounting i t.timerPrescaler) :
    ((t.perform now op).state i).waitingForLoad = false ∧
      (t.perform now op).timerPrescaler = t.timerPrescaler ∧
      ((t.perform now op).state i).lastRecord =
        if op.resolves then now else (t.state i).lastRecord := by
  have hperiod : (t.perform now op).timerPrescaler = t.timerPrescaler := by
    rw [timerPrescaler_perform]
    cases op with
    | setPrescaler p => exact hkeeps.2 p rfl
    | _ => rfl
  rw [state_perform]
  -- a channel that is loaded is brought up to now whenever the timers are resolved
  have hresolve : ((t.state i).resolve t.timerPrescaler now).waitingForLoad = false ∧
      ((t.state i).resolve t.timerPrescaler now).lastRecord = now := by
    simp [TimerChannel.resolve, hloaded]
  cases op with
  | setPrescaler p => exact ⟨hresolve.1, hperiod, hresolve.2⟩
  | writeCommand command =>
      obtain ⟨hwaiting, hrecord⟩ := TimerChannel.command_counting command hkeeps.1 hresolve.1
      exact ⟨hwaiting, hperiod, hrecord.trans hresolve.2⟩
  | writeRegister timer value =>
      simp only [TimerChannel.perform]
      by_cases h : timer = i
      · subst h
        simp only [if_pos]
        obtain ⟨hwaiting, hrecord⟩ := TimerChannel.writeCount_counting value now hloaded
        exact ⟨hwaiting, hperiod, hrecord⟩
      · simp only [if_neg h]
        exact ⟨hloaded, hperiod, rfl⟩
  | readRegister timer =>
      simp only [TimerChannel.perform]
      by_cases h : timer = i
      · subst h
        simp only [if_pos]
        obtain ⟨hwaiting, hrecord⟩ := TimerChannel.nextByte_counting
          ((t.state timer).resolve t.timerPrescaler now)
        exact ⟨hwaiting.trans hresolve.1, hperiod, hrecord.trans hresolve.2⟩
      · simp only [if_neg h]
        exact ⟨hresolve.1, hperiod, hresolve.2⟩

/-- The ticks accounted are the whole ticks of the intervals between the resolves. -/
theorem ticksAccounted_eq (run : List (Nat × TimerOperation))
    (hloaded : (t.state i).waitingForLoad = false)
    (hkeeps : ∀ e ∈ run, e.2.KeepsCounting i t.timerPrescaler) :
    ticksAccounted i t run =
      ((intervals (t.state i).lastRecord (resolveTimes run)).map
        (· / tickPeriod t.timerPrescaler)).sum := by
  induction run generalizing t with
  | nil => rfl
  | cons e run ih =>
      obtain ⟨now, op⟩ := e
      obtain ⟨hwaiting, hprescaler, hrecord⟩ :=
        perform_keepsCounting now hloaded (hkeeps (now, op) List.mem_cons_self)
      have hrest := ih hwaiting fun e he => hprescaler ▸ hkeeps e (List.mem_cons_of_mem _ he)
      rw [hprescaler, hrecord] at hrest
      rw [ticksAccounted, hrest]
      cases hresolves : op.resolves with
      | false => simp [resolveTimes, hresolves]
      | true => simp [resolveTimes, hresolves, hloaded, intervals, TimerChannel.elapsedTicks]

/-- **When polling loses no time.** For a channel that counts at a constant prescaler, over
operations on any channel at times that do not run backwards, the ticks accounted are those of the
whole interval iff the parts of a tick left over at the resolves stay below one tick together. -/
theorem ticksAccounted_eq_iff (t : ProgrammableIntervalTimer) (i : Fin 3)
    (run : List (Nat × TimerOperation)) (hp : 0 < t.timerPrescaler.toNat)
    (hloaded : (t.state i).waitingForLoad = false)
    (htimed : Timed (t.state i).lastRecord run)
    (hkeeps : ∀ e ∈ run, e.2.KeepsCounting i t.timerPrescaler) :
    ticksAccounted i t run =
        (lastTime (t.state i).lastRecord (resolveTimes run) - (t.state i).lastRecord)
          / tickPeriod t.timerPrescaler ↔
      ((intervals (t.state i).lastRecord (resolveTimes run)).map
        (· % tickPeriod t.timerPrescaler)).sum < tickPeriod t.timerPrescaler := by
  have hsorted : ((t.state i).lastRecord :: resolveTimes run).Pairwise (· ≤ ·) := by
    refine htimed.sublist (List.Sublist.cons_cons _ ?_)
    exact (List.filter_sublist (p := fun e : Nat × TimerOperation => e.2.resolves)).map Prod.fst
  have hsum := sum_intervals hsorted
  rw [ticksAccounted_eq run hloaded hkeeps, ← sum_div_eq_iff (tickPeriod_pos hp), ← hsum,
    Nat.add_sub_cancel]

/-- Two reads, the second in the middle of a tick. -/
theorem ticksAccounted_eq_iff_reads :
    ticksAccounted 0 (counting 100#16 9#16) [(80, .readRegister 0), (250, .readRegister 1)] =
      (lastTime 0 [80, 250] - 0) / tickPeriod 2#16 :=
  (ticksAccounted_eq_iff (counting 100#16 9#16) 0 [(80, .readRegister 0), (250, .readRegister 1)]
    (by decide) rfl (by decide) (by simp [TimerOperation.KeepsCounting,
      TimerOperation.configures])).mpr (by decide)

/-- **A frozen clock.** Two reads, each one nanosecond short of a tick after the last, account for
no tick. -/
theorem not_ticksAccounted :
    ¬ ∀ (t : ProgrammableIntervalTimer) (i : Fin 3) (run : List (Nat × TimerOperation)),
      0 < t.timerPrescaler.toNat → (t.state i).waitingForLoad = false →
      Timed (t.state i).lastRecord run →
      (∀ e ∈ run, e.2.KeepsCounting i t.timerPrescaler) →
      ticksAccounted i t run =
        (lastTime (t.state i).lastRecord (resolveTimes run) - (t.state i).lastRecord)
          / tickPeriod t.timerPrescaler := by
  intro hclaim
  have hfrozen := hclaim (counting 100#16 9#16) 0 [(79, .readRegister 0), (158, .readRegister 0)]
    (by decide) rfl (by decide) (by simp [TimerOperation.KeepsCounting,
      TimerOperation.configures])
  exact absurd hfrozen (by decide)

end ProgrammableIntervalTimer

end Ts3100

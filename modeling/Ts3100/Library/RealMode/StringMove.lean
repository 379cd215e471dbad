import Ts3100.Library.RealMode.Machine

/-! # Block copies by `rep movsw`

What a forward `rep movsw` does to the machine:

* `movswTimes_eq` — every register but `si` and `di` is kept, and these advance by two a word.
* `movswTimes_add` — a copy is a copy of its first words and then of the others.
* `repMovsw_eq` — between disjoint ranges that do not wrap, the destination is written with the
  bytes of the source (`writeBytes`).
* `read_movswTimes_of_ne`, `read_movswTimes_word`, `movswTimes_bus_induction` — what holds of
  any copy, overlapping or not: nothing outside the destination changes, each word is what the
  source held when it was copied, and what every write keeps is kept. -/

namespace RealMode

open Bus LawfulBus

universe u

variable {β : Type u} [Bus β]

namespace Machine

/-- No `movsw` changes nothing. -/
@[simp] theorem movswTimes_zero (m : Machine β) : movswTimes 0 m = m := rfl

/-- The last word of a copy. -/
theorem movswTimes_succ (n : Nat) (m : Machine β) :
    movswTimes (n + 1) m = (movswTimes n m).movsw := by
  induction n generalizing m with
  | zero => rfl
  | succ n ih => exact ih m.movsw

/-- A copy splits at any word. -/
theorem movswTimes_add (a b : Nat) (m : Machine β) :
    movswTimes (a + b) m = movswTimes b (movswTimes a m) := by
  induction b with
  | zero => rfl
  | succ b ih => rw [← Nat.add_assoc, movswTimes_succ, ih, movswTimes_succ]

/-- What every write keeps, a copy keeps. -/
theorem movswTimes_bus_induction {P : β → Prop} {n : Nat} {m : Machine β}
    (hwrite : ∀ b a v, P b → P (write b a v)) (hm : P m.bus) : P (movswTimes n m).bus := by
  induction n with
  | zero => exact hm
  | succ n ih =>
      rw [movswTimes_succ]
      exact hwrite _ _ _ (hwrite _ _ _ ih)

/-- A forward copy changes only the bus, `si` and `di`. -/
theorem movswTimes_eq (n : Nat) {m : Machine β} (hdir : m.direction = false) :
    movswTimes n m = { m with
      bus := (movswTimes n m).bus
      si := m.si + BitVec.ofNat 16 (2 * n)
      di := m.di + BitVec.ofNat 16 (2 * n) } := by
  induction n with
  | zero => simp
  | succ n ih =>
      have hstep (w : Word) : w + BitVec.ofNat 16 (2 * n) + 2#16 =
          w + BitVec.ofNat 16 (2 * (n + 1)) := by
        bv_omega
      rw [movswTimes_succ, ih]
      simp only [movsw, hdir, Bool.false_eq_true, if_false, hstep]

/-- A forward `rep movsw` changes only the bus, `si`, `di` and `cx`. -/
theorem repMovsw_registers {m : Machine β} (hdir : m.direction = false) :
    m.repMovsw = { m with
      bus := (movswTimes m.cx.toNat m).bus
      si := m.si + BitVec.ofNat 16 (2 * m.cx.toNat)
      di := m.di + BitVec.ofNat 16 (2 * m.cx.toNat)
      cx := 0#16 } := by
  rw [repMovsw, movswTimes_eq _ hdir]

section Lawful

variable [LawfulBus β]

/-- A forward copy changes nothing but the bytes it writes to. -/
theorem read_movswTimes_of_ne {n : Nat} {m : Machine β} {x : Nat} (hdir : m.direction = false)
    (hx : ∀ i < 2 * n, linear m.es (m.di + BitVec.ofNat 16 i) ≠ x) :
    read (movswTimes n m).bus x = read m.bus x := by
  induction n with
  | zero => rfl
  | succ n ih =>
      have hlow := hx (2 * n) (by omega)
      have hhigh := hx (2 * n + 1) (by omega)
      rw [BitVec.ofNat_add, ← BitVec.add_assoc] at hhigh
      rw [movswTimes_succ, movswTimes_eq n hdir]
      simp only [movsw]
      rw [read_writeWord_of_ne hlow.symm hhigh.symm]
      exact ih fun i hi => hx i (by omega)

/-- A forward copy whose destination does not wrap changes nothing outside it. -/
theorem read_movswTimes_of_notMem {n : Nat} {m : Machine β} {x : Nat}
    (hdir : m.direction = false) (hdst : m.di.toNat + 2 * n ≤ 65536)
    (hx : ¬ (linear m.es m.di ≤ x ∧ x < linear m.es m.di + 2 * n)) :
    read (movswTimes n m).bus x = read m.bus x := by
  apply read_movswTimes_of_ne hdir
  intro i hi
  rw [linear_add (by omega)]
  omega

/-- A forward copy whose destination does not wrap leaves in place of its `k`-th word what the source
held when that word was copied (the low byte). -/
theorem read_movswTimes_word {n k : Nat} {m : Machine β} (hdir : m.direction = false)
    (hdst : m.di.toNat + 2 * n ≤ 65536) (hk : k < n) :
    read (movswTimes n m).bus (linear m.es m.di + 2 * k) =
      read (movswTimes k m).bus (linear m.ds (m.si + BitVec.ofNat 16 (2 * k))) := by
  obtain ⟨rest, rfl⟩ : ∃ rest, n = k + 1 + rest := ⟨n - (k + 1), by omega⟩
  have hlinear := linear_add (s := m.es) (o := m.di) (n := 2 * k) (by omega)
  have hregisters := movswTimes_eq (k + 1) hdir
  have hdi : (movswTimes (k + 1) m).di = m.di + BitVec.ofNat 16 (2 * (k + 1)) := by
    rw [hregisters]
  have hes : (movswTimes (k + 1) m).es = m.es := by rw [hregisters]
  have hdir' : (movswTimes (k + 1) m).direction = false := by rw [hregisters]; exact hdir
  have hpast : ¬ (linear m.es (m.di + BitVec.ofNat 16 (2 * (k + 1))) ≤ linear m.es m.di + 2 * k ∧
      linear m.es m.di + 2 * k <
        linear m.es (m.di + BitVec.ofNat 16 (2 * (k + 1))) + 2 * rest) := by
    rcases Nat.eq_zero_or_pos rest with rfl | hrest
    · omega
    · rw [linear_add (by omega)]
      omega
  -- the later words are written past this one
  rw [movswTimes_add, read_movswTimes_of_notMem hdir' ?_ (by rw [hes, hdi]; exact hpast)]
  · rw [movswTimes_succ, movswTimes_eq k hdir, ← hlinear]
    simp only [movsw, writeWord, readWord, lo_word, hi_word]
    rw [read_write, if_neg, read_write, if_pos rfl]
    rw [linear_inj]
    intro heq
    bv_omega
  · rw [hdi, BitVec.toNat_add, BitVec.toNat_ofNat]
    omega

/-- **A forward copy between disjoint ranges** writes the source's bytes to the destination. -/
theorem movswTimes_bus {n : Nat} {m : Machine β} (hdir : m.direction = false)
    (hsrc : m.si.toNat + 2 * n ≤ 65536) (hdst : m.di.toNat + 2 * n ≤ 65536)
    (hdisjoint : linear m.ds m.si + 2 * n ≤ linear m.es m.di ∨
      linear m.es m.di + 2 * n ≤ linear m.ds m.si) :
    (movswTimes n m).bus =
      writeBytes m.bus (linear m.es m.di) (2 * n) fun i => read m.bus (linear m.ds m.si + i) := by
  induction n with
  | zero => rfl
  | succ n ih =>
      have hdst₀ := linear_add (s := m.es) (o := m.di) (n := 2 * n) (by omega)
      have hdst₁ := linear_add (s := m.es) (o := m.di) (n := 2 * n + 1) (by omega)
      have hsrc₀ := linear_add (s := m.ds) (o := m.si) (n := 2 * n) (by omega)
      have hsrc₁ := linear_add (s := m.ds) (o := m.si) (n := 2 * n + 1) (by omega)
      rw [BitVec.ofNat_add, ← BitVec.add_assoc] at hdst₁ hsrc₁
      -- the source word is read past the bytes written so far
      rw [movswTimes_succ, movswTimes_eq n hdir, ih (by omega) (by omega) (by omega)]
      simp only [movsw, writeWord, readWord, lo_word, hi_word, hdst₀, hdst₁, hsrc₀, hsrc₁]
      rw [read_writeBytes, fill_of_notMem (by omega), read_writeBytes, fill_of_notMem (by omega)]
      rfl

/-- `rep movsw` between disjoint ranges. -/
theorem repMovsw_eq {n : Nat} {m : Machine β} (hcx : m.cx.toNat = n) (hdir : m.direction = false)
    (hsrc : m.si.toNat + 2 * n ≤ 65536) (hdst : m.di.toNat + 2 * n ≤ 65536)
    (hdisjoint : linear m.ds m.si + 2 * n ≤ linear m.es m.di ∨
      linear m.es m.di + 2 * n ≤ linear m.ds m.si) :
    m.repMovsw = { m with
      bus := writeBytes m.bus (linear m.es m.di) (2 * n) fun i =>
        read m.bus (linear m.ds m.si + i)
      si := m.si + BitVec.ofNat 16 (2 * n)
      di := m.di + BitVec.ofNat 16 (2 * n)
      cx := 0#16 } := by
  rw [repMovsw, hcx, movswTimes_eq n hdir, movswTimes_bus hdir hsrc hdst hdisjoint]

end Lawful

end Machine

end RealMode

import Mathlib

/-! # The bus of a real-mode processor

A processor in real mode sees byte-addressed memory and 16-bit ports. What is behind them (RAM,
ROM, a device window) is the bus's affair:

* `Bus` — the four operations a processor asks of its bus, and `LawfulBus`, the one law of its
  memory: a read returns the byte last written to that address.
* `linear` — the address of a `segment:offset` pair; `readWord` and `writeWord` are little-endian
  and wrap the offset at 64 KiB.
* `writeBytes` — a block of bytes written at ascending addresses; `read_writeBytes` says what is
  read after it in terms of `fill`. -/

namespace RealMode

universe u

/-- A 16-bit machine word. -/
abbrev Word := BitVec 16

/-! ## Bytes of a word -/

/-- The low byte of a word. -/
def lo (w : Word) : BitVec 8 := w.extractLsb' 0 8

/-- The high byte of a word. -/
def hi (w : Word) : BitVec 8 := w.extractLsb' 8 8

/-- The word with high byte `h` and low byte `l`. -/
def word (h l : BitVec 8) : Word := h ++ l

/-- The low byte of a word of two bytes. -/
@[simp] theorem lo_word (h l : BitVec 8) : lo (word h l) = l := by
  unfold lo word
  exact BitVec.extractLsb'_append_eq_right

/-- Its high byte. -/
@[simp] theorem hi_word (h l : BitVec 8) : hi (word h l) = h := by
  unfold hi word
  exact BitVec.extractLsb'_append_eq_left

/-- The value of a word in terms of its bytes. -/
theorem toNat_word (h l : BitVec 8) : (word h l).toNat = h.toNat * 256 + l.toNat := by
  have hl : l.toNat < 2 ^ 8 := l.isLt
  rw [word, BitVec.toNat_append, ← Nat.shiftLeft_add_eq_or_of_lt hl, Nat.shiftLeft_eq]

/-- The low byte is the remainder by 256. -/
theorem toNat_lo (w : Word) : (lo w).toNat = w.toNat % 256 := by
  simp [lo]

/-- The high byte is the quotient. -/
theorem toNat_hi (w : Word) : (hi w).toNat = w.toNat / 256 := by
  have hw : w.toNat < 65536 := w.isLt
  have hdiv : w.toNat / 256 < 256 := by omega
  simp [hi, Nat.shiftRight_eq_div_pow, Nat.mod_eq_of_lt hdiv]

/-- A word is the word of its bytes. -/
@[simp] theorem word_hi_lo (w : Word) : word (hi w) (lo w) = w := by
  apply BitVec.eq_of_toNat_eq
  rw [toNat_word, toNat_hi, toNat_lo]
  omega

/-! ## Addresses -/

/-- The linear address of `s:o`. -/
def linear (s o : Word) : Nat := s.toNat * 16 + o.toNat

/-- In one segment, offsets have addresses of their own. -/
@[simp] theorem linear_inj {s o o' : Word} : linear s o = linear s o' ↔ o = o' := by
  unfold linear
  constructor
  · intro h
    exact BitVec.eq_of_toNat_eq (by omega)
  · rintro rfl
    rfl

/-- An offset that stays below 64 KiB adds to the linear address. -/
theorem linear_add {s o : Word} {n : Nat} (h : o.toNat + n < 65536) :
    linear s (o + BitVec.ofNat 16 n) = linear s o + n := by
  have hn : n < 65536 := by omega
  simp only [linear, BitVec.toNat_add, BitVec.toNat_ofNat, Nat.reducePow, Nat.mod_eq_of_lt hn,
    Nat.mod_eq_of_lt h]
  omega

/-! ## Blocks of bytes -/

/-- The bytes `g` with `f 0, …, f (n - 1)` in place of those at `a, …, a + n - 1`. -/
def fill (g : Nat → BitVec 8) (a n : Nat) (f : Nat → BitVec 8) : Nat → BitVec 8 :=
  fun x => if a ≤ x ∧ x < a + n then f (x - a) else g x

section fill

variable {g f : Nat → BitVec 8} {a n x : Nat}

/-- Where it is filled. -/
theorem fill_of_mem (hlow : a ≤ x) (hhigh : x < a + n) : fill g a n f x = f (x - a) :=
  if_pos ⟨hlow, hhigh⟩

/-- Elsewhere it is as before. -/
theorem fill_of_notMem (hx : ¬ (a ≤ x ∧ x < a + n)) : fill g a n f x = g x := if_neg hx

/-- The byte at an offset of what is filled. -/
theorem fill_add (hx : x < n) : fill g a n f (a + x) = f x := by
  rw [fill_of_mem (by omega) (by omega), Nat.add_sub_cancel_left]

/-- Filling no bytes changes nothing. -/
@[simp] theorem fill_zero : fill g a 0 f = g := by
  funext x
  exact fill_of_notMem (by omega)

/-- One more byte. -/
theorem update_fill : Function.update (fill g a n f) (a + n) (f n) = fill g a (n + 1) f := by
  funext x
  rw [Function.update_apply]
  by_cases hx : x = a + n
  · rw [if_pos hx, hx, fill_add (by omega)]
  · rw [if_neg hx]
    by_cases hin : a ≤ x ∧ x < a + n
    · rw [fill_of_mem hin.1 hin.2, fill_of_mem hin.1 (by omega)]
    · rw [fill_of_notMem hin, fill_of_notMem (by omega)]

end fill

/-! ## The bus -/

/-- The operations of a bus: byte reads and writes of memory, and 16-bit port accesses, which may
fail and may change the bus. -/
class Bus (β : Type u) where
  read : β → Nat → BitVec 8
  write : β → Nat → BitVec 8 → β
  inWord : β → Word → Option (Word × β)
  outWord : β → Word → Word → Option β

/-- A bus whose memory returns what was last written. -/
class LawfulBus (β : Type u) [Bus β] : Prop where
  read_write : ∀ (b : β) (a : Nat) (v : BitVec 8) (a' : Nat),
    Bus.read (Bus.write b a v) a' = if a' = a then v else Bus.read b a'

open Bus LawfulBus

variable {β : Type u} [Bus β]

/-- The word at `s:o`. -/
def readWord (b : β) (s o : Word) : Word := word (read b (linear s (o + 1#16))) (read b (linear s o))

/-- The bus after a word is written at `s:o`. -/
def writeWord (b : β) (s o w : Word) : β :=
  write (write b (linear s o) (lo w)) (linear s (o + 1#16)) (hi w)

/-- The bus after `f 0, …, f (n - 1)` are written at `a, …, a + n - 1`, in that order. -/
def writeBytes (b : β) (a : Nat) : Nat → (Nat → BitVec 8) → β
  | 0, _ => b
  | n + 1, f => write (writeBytes b a n f) (a + n) (f n)

/-- Writing no bytes changes nothing. -/
@[simp] theorem writeBytes_zero (b : β) (a : Nat) (f : Nat → BitVec 8) : writeBytes b a 0 f = b :=
  rfl

/-- The last byte is written last. -/
theorem writeBytes_succ (b : β) (a n : Nat) (f : Nat → BitVec 8) :
    writeBytes b a (n + 1) f = write (writeBytes b a n f) (a + n) (f n) := rfl

/-- A block written from the same bytes. -/
theorem writeBytes_congr {b : β} {a n : Nat} {f g : Nat → BitVec 8} (h : ∀ i < n, f i = g i) :
    writeBytes b a n f = writeBytes b a n g := by
  induction n with
  | zero => rfl
  | succ n ih =>
      rw [writeBytes_succ, writeBytes_succ, ih fun i hi => h i (by omega), h n (by omega)]

section Lawful

variable [LawfulBus β]

/-- **What is read after a block is written**: the block's byte inside it, the old byte outside. -/
theorem read_writeBytes (b : β) (a n : Nat) (f : Nat → BitVec 8) (x : Nat) :
    read (writeBytes b a n f) x = fill (read b) a n f x := by
  induction n with
  | zero => rw [writeBytes_zero, fill_zero]
  | succ n ih =>
      rw [writeBytes_succ, read_write, ih, ← update_fill, Function.update_apply]

/-- A byte at neither address of a written word is unchanged. -/
theorem read_writeWord_of_ne {b : β} {s o w : Word} {x : Nat} (h₀ : x ≠ linear s o)
    (h₁ : x ≠ linear s (o + 1#16)) : read (writeWord b s o w) x = read b x := by
  rw [writeWord, read_write, if_neg h₁, read_write, if_neg h₀]

/-- A word reads back as written. -/
@[simp] theorem readWord_writeWord_self (b : β) (s o w : Word) :
    readWord (writeWord b s o w) s o = w := by
  have hne : o ≠ o + 1#16 := by
    intro h
    bv_omega
  rw [readWord, writeWord, read_write, if_pos rfl, read_write, if_neg, read_write, if_pos rfl,
    word_hi_lo]
  rwa [linear_inj]

/-- A word with no byte in common with a written word is unchanged. -/
theorem readWord_writeWord_of_ne {b : β} {s o o' w : Word} (h : o' ≠ o) (hnext : o' ≠ o + 1#16)
    (hprev : o' + 1#16 ≠ o) : readWord (writeWord b s o w) s o' = readWord b s o' := by
  have hnext' : o' + 1#16 ≠ o + 1#16 := by
    intro heq
    exact h (by bv_omega)
  rw [readWord, read_writeWord_of_ne, read_writeWord_of_ne, readWord] <;>
    simpa only [ne_eq, linear_inj]

/-- Words at literal distances below one offset: the stack frame's variables are independent. -/
theorem readWord_writeWord_sub {b : β} {s o i j w : Word} (h : i ≠ j) (hnext : i ≠ j + 1#16)
    (hprev : j ≠ i + 1#16) :
    readWord (writeWord b s (o - i) w) s (o - j) = readWord b s (o - j) := by
  refine readWord_writeWord_of_ne ?_ ?_ ?_
  · exact fun heq => h (by bv_omega)
  · exact fun heq => hnext (by bv_omega)
  · exact fun heq => hprev (by bv_omega)

end Lawful

end RealMode

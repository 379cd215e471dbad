import Ts3100.Disk.Blocks
import Ts3100.Library.RealMode.CodeInMemory

/-! # The rounds of a transfer

From `.HandleAH0x_SkipLBA` on a transfer function copies what it needs of the first window, then whole
windows, then the head of the last one, and calls `IncrementLBA` between two copies. What it copies
does not matter for that.

* `TransferRules` — the properties of the machine before and after a copy that the copies and
  `IncrementLBA` turn into each other, and a property of the bus that they imply.
* `TransferRules.ensures_skipLBA` — with such properties a transfer of at most 127 sectors, or from an
  aligned sector on, arrives at `.HandleAH0x_FinishCopy`, with that property of the bus at every label
  on the way, and what `bx` holds there. -/

namespace Ts3100

open RealMode

variable {t : Transfer} {m : Machine Host} {off n k : Nat} {K : Host → Prop}
  {I J : Nat → Machine Host → Prop} {Q : Word → Machine Host → Prop}

/-- For a transfer of `n` sectors from offset `off` in a window on: a machine with `k` sectors done
satisfies `I k` where the window shows the next sector, and `J k` after a copy. Its bus has `K` in both
cases, and once the return address of a call is pushed. -/
structure TransferRules (t : Transfer) (off n : Nat) (K : Host → Prop)
    (I J : Nat → Machine Host → Prop) : Prop where
  bus : ∀ {k m}, I k m → K m.bus
  push : ∀ {k m}, J k m → ∀ w, K (m.push w).bus
  update : ∀ {k m}, I k m → ∀ ax bx cx dx w f,
    I k { m.set t.window w with ax := ax, bx := bx, cx := cx, dx := dx, flags := f }
  updateDone : ∀ {k m}, J k m → ∀ bx f, J k { m with bx := bx, flags := f }
  copy : ∀ {k c m}, I k m → m.cx.toNat = 256 * c →
    (m.get t.window).toNat = 0x1000 + 512 * ((off + k) % 8) → 1 ≤ c → (off + k) % 8 + c ≤ 8 →
      k + c ≤ n → J (k + c) m.repMovsw ∧ m.repMovsw.bx = m.bx
  increment : ∀ {k m l}, J k m → (off + k) % 8 = 0 → optionRom.labelAt l.offset = some l →
    ∃ m', optionRom.step .incrementLBA (m.push l.offset) = .goto l m' ∧ I k m' ∧ m'.bx = m.bx

/-! ## Bytes -/

/-- The return address after the first copy. -/
theorem labelAt_skipAlignment (t : Transfer) :
    optionRom.labelAt (Label.transfer t .skipAlignment).offset = some (.transfer t .skipAlignment) := by
  cases t <;> rfl

/-- The return address after a block. -/
theorem labelAt_nextBlock (t : Transfer) :
    optionRom.labelAt (Label.transfer t .nextBlock).offset = some (.transfer t .nextBlock) := by
  cases t <;> rfl

/-- `test bl, 0xF8` finds fewer than eight sectors. -/
theorem and_F8_eq_zero (b : Byte) : b &&& 0xF8#8 = 0#8 ↔ b.toNat < 8 := by
  decide +revert

/-- `shl ah, 1` doubles an offset below 8, and the word it is the high byte of is its 512-fold. -/
theorem toNat_shl_word {off : Byte} (hoff : off.toNat < 8) :
    (word (off <<< 1) 0#8).toNat = 512 * off.toNat := by
  rw [toNat_word, BitVec.toNat_shiftLeft, Nat.shiftLeft_eq]
  simp only [BitVec.toNat_ofNat, Nat.reducePow]
  omega

/-- The low three bits are the remainder by 8. -/
theorem toNat_and_7 (w : Word) : (w &&& 0x0007#16).toNat = w.toNat % 8 := by
  rw [BitVec.toNat_and]
  exact Nat.and_two_pow_sub_one_eq_mod w.toNat 3

/-- With at most 127 sectors the signed comparison is the intended one: the first window is copied
to its end, or to the last sector. -/
theorem toNat_headCount {off n : Byte} (hoff : 1 ≤ off.toNat ∧ off.toNat < 8) (hn : n.toNat ≤ 127) :
    (headCount off n).toNat = min (8 - off.toNat) n.toNat := by
  have hsub : (8#8 - off).toNat = 8 - off.toNat := by bv_omega
  have hle : (8#8 - off).sle n = true ↔ 8 - off.toNat ≤ n.toNat := by
    rw [BitVec.sle_iff_toInt_le, BitVec.toInt_eq_toNat_of_lt (by omega),
      BitVec.toInt_eq_toNat_of_lt (by omega), hsub]
    omega
  unfold headCount
  by_cases hfits : 8 - off.toNat ≤ n.toNat
  · rw [if_pos (hle.mpr hfits), hsub, Nat.min_eq_left hfits]
  · rw [if_neg (hle.not.mpr hfits), Nat.min_eq_right (by omega)]

/-- A word from its high byte and the number in its low byte. -/
theorem word_hi_ofNat {w : Word} {n : Nat} (hlo : (lo w).toNat = n) :
    w = word (hi w) (BitVec.ofNat 8 n) := by
  have hbyte : BitVec.ofNat 8 n = lo w := by
    apply BitVec.eq_of_toNat_eq
    rw [BitVec.toNat_ofNat]
    omega
  rw [hbyte, word_hi_lo]

/-! ## Whole windows and the last one -/

/-- One round of the loop copies a whole window. -/
theorem TransferRules.round (rules : TransferRules t off n K I J) (hm : I k m)
    (haligned : (off + k) % 8 = 0) (hbl : 8 ≤ (lo m.bx).toNat) (hkn : k + 8 ≤ n) :
    ∃ M, J (k + 8) M ∧ M.bx = word (hi m.bx) (lo m.bx - 8#8) ∧
      optionRom.step (.transfer t .skipAlignment) m =
        if lo m.bx = 8#8 then .goto (.transfer t .finishCopy) M
        else .goto .incrementLBA (M.push (Label.transfer t .nextBlock).offset) := by
  have hlarge : lo m.bx &&& 0xF8#8 ≠ 0#8 := fun hzero => by
    have := (and_F8_eq_zero (lo m.bx)).mp hzero
    omega
  have hcx : (windowMachine t m).cx.toNat = 256 * 8 := by
    rw [windowMachine, BitVec.toNat_ofNat]
  obtain ⟨hdone, hbx⟩ := rules.copy (c := 8) (m := windowMachine t m) (rules.update hm _ _ _ _ _ _)
    hcx (by rw [haligned]; cases t <;> rfl) (by omega) (by omega) hkn
  have hbx' : (windowMachine t m).repMovsw.bx = m.bx := by
    rw [hbx]
    cases t <;> rfl
  obtain ⟨M, hM⟩ : ∃ M, (windowMachine t m).repMovsw = M := ⟨_, rfl⟩
  rw [hM] at hdone hbx'
  have hstep := step_skipAlignment hlarge hM
  rw [hbx'] at hstep
  exact ⟨_, rules.updateDone hdone (word (hi m.bx) (lo m.bx - 8#8)) (subb (lo m.bx) 8#8).2, rfl,
    hstep⟩

/-- **The loop.** At `.HandleAH0x_SkipAlignment`, with `left` sectors left and the window at the next
one, the handler arrives at `.HandleAH0x_FinishCopy` with the sectors of the last copy in `bl`. -/
theorem TransferRules.ensures_skipAlignment (rules : TransferRules t off n K I J) (left : Nat)
    (hm : I k m) (haligned : (off + k) % 8 = 0) (hbl : (lo m.bx).toNat = left)
    (hleft : k + left = n) (hpos : 1 ≤ left)
    (hfinish : ∀ m', J n m' → m'.bx = word (hi m.bx) (BitVec.ofNat 8 (left % 8)) →
      optionRom.EnsuresIn K Q (.transfer t .finishCopy) m') :
    optionRom.EnsuresIn K Q (.transfer t .skipAlignment) m := by
  -- by the number of sectors left; a round of the loop takes eight
  induction left using Nat.strong_induction_on generalizing k m with
  | _ left ih =>
  by_cases hlast : left < 8
  · have hsmall := (and_F8_eq_zero (lo m.bx)).mpr (by omega)
    obtain ⟨M, hM⟩ : ∃ M, (tailMachine t { m with
        flags := (logic (lo m.bx &&& 0xF8#8)).2 }).repMovsw = M := ⟨_, rfl⟩
    obtain ⟨hdone, hbx⟩ := rules.copy (c := left)
      (m := tailMachine t { m with flags := (logic (lo m.bx &&& 0xF8#8)).2 })
      (by cases t <;> exact rules.update hm _ _ _ _ _ _)
      (by simp [tailMachine, toNat_word, hbl]; omega) (by rw [haligned]; cases t <;> rfl) hpos
      (by omega) (by omega)
    rw [hM] at hdone hbx
    rw [hleft] at hdone
    have hbus : K m.bus := rules.bus hm
    refine .goto hbus (step_skipAlignment_last hsmall)
      (.goto hbus (step_lastCopy hM) (hfinish M hdone ?_))
    have hsame : (tailMachine t { m with flags := (logic (lo m.bx &&& 0xF8#8)).2 }).bx = m.bx := by
      cases t <;> rfl
    rw [hbx, hsame, Nat.mod_eq_of_lt hlast]
    exact word_hi_ofNat hbl
  · obtain ⟨M, hM, hbx, hstep⟩ := rules.round hm haligned (by omega) (by omega)
    by_cases hend : left = 8
    · rw [if_pos (by bv_omega)] at hstep
      rw [show k + 8 = n by omega] at hM
      refine .goto (rules.bus hm) hstep (hfinish M hM ?_)
      rw [hbx, hend, show lo m.bx - 8#8 = 0#8 by bv_omega]
    · rw [if_neg (by bv_omega)] at hstep
      obtain ⟨m', hincrement, hnext, hbx'⟩ := rules.increment hM (by omega) (labelAt_nextBlock t)
      have hrest := ih (left - 8) (by omega) hnext (by omega)
        (by rw [hbx', hbx, lo_word]; bv_omega) (by omega) (by omega) (by
          intro m'' hm'' hbx''
          apply hfinish m'' hm''
          rw [hbx'', hbx', hbx, hi_word, show (left - 8) % 8 = left % 8 by omega])
      exact .goto (rules.bus hm) hstep (.goto (rules.push hM _) hincrement
        (.goto (rules.bus hnext) step_nextBlock hrest))

/-! ## The first window -/

/-- From `.HandleAH0x_StartCopy` on, with `c` sectors to copy from the first window. -/
theorem TransferRules.ensures_startCopy (rules : TransferRules t off n K I J) {c : Nat} {count : Byte}
    (hm : I 0 m) (hoff : (lo m.ax).toNat = off) (hlt : off < 8) (hcx : m.cx = word count 0#8)
    (hcount : count.toNat = c) (hbl : (lo m.bx).toNat = n) (hpos : 1 ≤ c)
    (hfit : off + c = 8 ∨ off + c ≤ 8 ∧ c = n) (hle : c ≤ n)
    (hfinish : ∀ m', J n m' → m'.bx = word (hi m.bx) (BitVec.ofNat 8 ((n - c) % 8)) →
      optionRom.EnsuresIn K Q (.transfer t .finishCopy) m') :
    optionRom.EnsuresIn K Q (.transfer t .startCopy) m := by
  have hwindow : ((headMachine t m).get t.window).toNat = 0x1000 + 512 * ((off + 0) % 8) := by
    have hword := toNat_shl_word (show (lo m.ax).toNat < 8 by omega)
    have hget : (headMachine t m).get t.window = 0x1000#16 + word (lo m.ax <<< 1) 0#8 := by
      cases t <;> rfl
    rw [hget, BitVec.toNat_add, hword, BitVec.toNat_ofNat]
    omega
  have hcx' : (headMachine t m).cx.toNat = 256 * c := by
    have hsame : (headMachine t m).cx = m.cx := by cases t <;> rfl
    rw [hsame, hcx, toNat_word, hcount, BitVec.toNat_ofNat]
    omega
  obtain ⟨hdone, hbx⟩ := rules.copy (c := c) (m := headMachine t m) (rules.update hm _ _ _ _ _ _)
    hcx' hwindow hpos (by omega) (by omega)
  obtain ⟨M, hM⟩ : ∃ M, (headMachine t m).repMovsw = M := ⟨_, rfl⟩
  have hbx' : M.bx = word (hi m.bx) (lo m.bx - count) := by
    have hsame : (headMachine t m).bx = word (hi m.bx) (lo m.bx - hi m.cx) := by cases t <;> rfl
    rw [← hM, hbx, hsame, hcx, hi_word]
  have hstep := step_startCopy (t := t) hM
  rw [hM, Nat.zero_add] at hdone
  have hnext := rules.updateDone hdone M.bx (logic (lo M.bx)).2
  have hlo : (lo M.bx).toNat = n - c := by
    rw [hbx', lo_word]
    bv_omega
  have hhi : hi M.bx = hi m.bx := by rw [hbx', hi_word]
  by_cases hend : c = n
  · -- all sectors lie in the first window
    rw [if_pos (by bv_omega)] at hstep
    rw [hend] at hnext
    refine .goto (rules.bus hm) hstep (hfinish _ hnext ?_)
    show M.bx = _
    rw [← hhi, hend, Nat.sub_self]
    exact word_hi_ofNat (by omega)
  · -- the window is used up, and the rest goes on at the start of the next one
    rw [if_neg (by bv_omega)] at hstep
    obtain ⟨m', hincrement, hrest, hbx''⟩ := rules.increment hnext (by omega)
      (labelAt_skipAlignment t)
    refine .goto (rules.bus hm) hstep (.goto (rules.push hnext _) hincrement
      (rules.ensures_skipAlignment (n - c) hrest (by omega)
        (by rw [hbx'']; exact hlo) (by omega) (by omega) ?_))
    rw [hbx'']
    show ∀ m', J n m' → m'.bx = word (hi M.bx) _ → _
    rw [hhi]
    exact hfinish

/-- The sectors of the last copy, if it is not the first one. -/
def leftover (off n : Nat) : Nat := if 0 < off ∧ off + n < 8 then 0 else (off + n) % 8

/-- From `.HandleAH0x_SkipLBA` on, with the low word of the LBA on the stack and the request in the
frame. -/
theorem TransferRules.ensures_skipLBA (rules : TransferRules t off n K I J)
    (hstart : ∀ cx f, I 0 { offsetMachine t m with cx := cx, flags := f })
    (hoff : (m.top &&& 0x0007#16).toNat = off)
    (hcount : (lo (readWord m.bus m.ss (m.bp - 2#16))).toNat = n) (hpos : 1 ≤ n)
    (hok : n ≤ 127 ∨ off = 0)
    (hfinish : ∀ m', J n m' →
      m'.bx = word (hi (readWord m.bus m.ss (m.bp - 2#16))) (BitVec.ofNat 8 (leftover off n)) →
        optionRom.EnsuresIn K Q (.transfer t .finishCopy) m') :
    optionRom.EnsuresIn K Q (.transfer t .skipLBA) m := by
  have hlt : off < 8 := by
    rw [toNat_and_7] at hoff
    omega
  have hbus : K m.bus := by
    have hset := rules.bus (hstart 0#16 {})
    cases t <;> exact hset
  by_cases haligned : off = 0
  · -- whole windows from the start
    have hzero : m.top &&& 0x0007#16 = 0#16 := by
      apply BitVec.eq_of_toNat_eq
      rw [hoff, haligned]
      rfl
    refine .goto hbus (step_skipLBA_aligned hzero)
      (rules.ensures_skipAlignment n (hstart _ _) (by omega) hcount (by omega) hpos ?_)
    have hleft : leftover off n = n % 8 := by
      rw [leftover, if_neg (by omega), haligned, Nat.zero_add]
    rwa [hleft] at hfinish
  · have hnonzero : m.top &&& 0x0007#16 ≠ 0#16 := by
      intro hzero
      rw [hzero] at hoff
      exact haligned hoff.symm
    have hlo : (lo (m.top &&& 0x0007#16)).toNat = off := by
      rw [toNat_lo, hoff]
      omega
    -- the head of the transfer: what is left of the first window, or the whole request
    have hhead := toNat_headCount (n := lo (readWord m.bus m.ss (m.bp - 2#16)))
      (show 1 ≤ (lo (m.top &&& 0x0007#16)).toNat ∧ (lo (m.top &&& 0x0007#16)).toNat < 8 by omega)
      (by omega)
    rw [hlo, hcount] at hhead
    refine .goto hbus (step_skipLBA_unaligned (t := t) hnonzero)
      (rules.ensures_startCopy (hstart _ _) hlo hlt rfl hhead hcount (by omega) (by omega) (by omega)
        ?_)
    have hleft : leftover off n = (n - min (8 - off) n) % 8 := by
      unfold leftover
      split <;> omega
    rwa [hleft] at hfinish

end Ts3100

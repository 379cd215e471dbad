import Ts3100.Library.RealMode.Interrupts
import Ts3100.Disk.Transfers

/-! # Requests that are forwarded

A request that is not for the virtual disk goes to the handler that was installed before: the option
ROM's handler pushes an interrupt frame that returns to `.ReturnFromInt13h`, restores its caller's
registers, and jumps by a far return.

* `ForwardedRequest` — such a request.
* `StartsPrevious` — how the previous handler starts.
* `ReadyToReturn` — what is asked of it: that it keeps `ds`, `bp` and the stack above it.
* `ensures_forwarded` — it starts with the caller's registers, and whatever else it does, the caller
  gets its results. -/

namespace Ts3100

open RealMode

variable {m₀ m h start : Machine Host}

/-! ## Requests -/

/-- A request that the handler does not serve itself. The stack it is forwarded on is memory, and outside
the option ROM. -/
structure ForwardedRequest (m : Machine Host) : Prop where
  cs : m.cs = 0xC800#16
  request : hi m.ax = 0x00#8 ∨ lo m.dx ≠ m.bus.memory 0xC84CD ∨
    (hi m.ax ≠ 0x02#8 ∧ hi m.ax ≠ 0x03#8 ∧ hi m.ax ≠ 0x08#8)
  stackOutside : ∀ i, 1 ≤ i → i ≤ 26 → ¬ InOptionRom (linear m.ss (m.sp - BitVec.ofNat 16 i))

/-- The handler's own frame is outside the option ROM. -/
theorem ForwardedRequest.frame (req : ForwardedRequest m₀) : FrameOutside m₀ := by
  rintro a ⟨i, hlow, hhigh, rfl⟩
  exact req.stackOutside i hlow (by omega)

/-- How the previous handler starts: at the address the option ROM has stored, with the caller's
registers, and an interrupt frame with the caller's flags. -/
structure StartsPrevious (m₀ : Machine Host) (ip : Word) (start : Machine Host) : Prop where
  ip : ip = readWord m₀.bus m₀.cs biosInt13hOffset
  cs : start.cs = readWord m₀.bus m₀.cs biosInt13hSegment
  ax : start.ax = m₀.ax
  bx : start.bx = m₀.bx
  cx : start.cx = m₀.cx
  dx : start.dx = m₀.dx
  si : start.si = m₀.si
  di : start.di = m₀.di
  bp : start.bp = m₀.bp
  ds : start.ds = m₀.ds
  es : start.es = m₀.es
  ss : start.ss = m₀.ss
  sp : start.sp = m₀.sp - 22#16
  interruptFrame : start.InterruptFrame Label.returnFromInt13h.offset m₀.cs
    (readWord m₀.bus m₀.ss (m₀.sp + 4#16))

/-- The previous handler, started with `start`, is about to return with `h`: it has kept `ds` and `bp`,
is back at its interrupt frame, and has left the stack from there on as it was, but for the flags in
that frame. What else it has done is left open, as long as the option ROM's code is still there to come
back to. -/
structure ReadyToReturn (start h : Machine Host) : Prop where
  ds : h.ds = start.ds
  bp : h.bp = start.bp
  ss : h.ss = start.ss
  sp : h.sp = start.sp
  stack : ∀ i < 26, i ≠ 4 → i ≠ 5 →
    Bus.read h.bus (linear start.ss (start.sp + BitVec.ofNat 16 i)) =
      Bus.read start.bus (linear start.ss (start.sp + BitVec.ofNat 16 i))

/-- How the caller gets back control, the previous handler having returned with `m'`: with its results
and flags, the caller's own `ds` and `bp`, and the stack as after an interrupt return. -/
structure ReturnsToCaller (m₀ m' : Machine Host) (ip : Word) (m : Machine Host) : Prop where
  ip : ip = readWord m₀.bus m₀.ss m₀.sp
  cs : m.cs = readWord m₀.bus m₀.ss (m₀.sp + 2#16)
  ax : m.ax = m'.ax
  bx : m.bx = m'.bx
  cx : m.cx = m'.cx
  dx : m.dx = m'.dx
  si : m.si = m'.si
  di : m.di = m'.di
  es : m.es = m'.es
  flags : m.flags = m'.flags
  direction : m.direction = m'.direction
  interrupt : m.interrupt = m'.interrupt
  ds : m.ds = m₀.ds
  bp : m.bp = m₀.bp
  ss : m.ss = m₀.ss
  sp : m.sp = m₀.sp + 6#16

/-! ## Forwarding -/

/-- `int13h_handler` sends a request it does not serve to `.BIOSInt13h`. -/
theorem step_int13hHandler_forward
    (hrequest : hi m.ax = 0x00#8 ∨
      lo m.dx ≠ Bus.read (savedBus m) (linear m.cs vdiskDrivenum) ∨
        (hi m.ax ≠ 0x02#8 ∧ hi m.ax ≠ 0x03#8 ∧ hi m.ax ≠ 0x08#8)) :
    ∃ f, optionRom.step .int13hHandler m = .goto .biosInt13h { m with
      bp := m.sp - 2#16
      sp := m.sp - 14#16
      ds := m.cs
      flags := f
      interrupt := true
      bus := savedBus m } := by
  have hax := (savedFrame_savedBus m).ax
  unfold savedBus at hrequest hax
  by_cases hreset : hi m.ax = 0x00#8
  · simp [Program.step, optionRom, int13hHandlerCode, stackVar, BitVec.sub_sub, savedBus, hax, hreset]
  · by_cases hdrive : lo m.dx = Bus.read (savedBus m) (linear m.cs vdiskDrivenum)
    · unfold savedBus at hdrive
      obtain ⟨h₂, h₃, h₈⟩ := (hrequest.resolve_left hreset).resolve_left (not_not.mpr hdrive)
      simp [Program.step, optionRom, int13hHandlerCode, stackVar, BitVec.sub_sub, savedBus, hax,
        hreset, ← hdrive, h₂, h₃, h₈]
    · unfold savedBus at hdrive
      simp [Program.step, optionRom, int13hHandlerCode, stackVar, BitVec.sub_sub, savedBus, hax,
        hreset, hdrive]

/-- The bus once `.BIOSInt13h` has pushed its frame pointer and an interrupt frame. -/
def framedBus (m : Machine Host) : Host :=
  let b := writeWord m.bus m.ss (m.sp - 2#16) m.bp
  let b := writeWord b m.ss (m.sp - 4#16) (readWord b m.ss (m.bp + 6#16))
  let b := writeWord b m.ss (m.sp - 6#16) m.cs
  writeWord b m.ss (m.sp - 8#16) Label.returnFromInt13h.offset

/-- The bus once it has pushed the previous handler's address as well. -/
def forwardedBus (m : Machine Host) : Host :=
  let b := framedBus m
  let b := writeWord b m.ss (m.sp - 10#16) (readWord b m.ds biosInt13hSegment)
  writeWord b m.ss (m.sp - 12#16) (readWord b m.ds biosInt13hOffset)

/-- `.BIOSInt13h`: jump to the address on top of the stack, with the saved registers. -/
theorem step_biosInt13h :
    optionRom.step .biosInt13h m = .returned (readWord (forwardedBus m) m.ss (m.sp - 12#16)) { m with
      ax := readWord (forwardedBus m) m.ss (m.bp - 2#16)
      ds := readWord (forwardedBus m) m.ss (m.bp - 4#16)
      cx := readWord (forwardedBus m) m.ss (m.bp - 6#16)
      di := readWord (forwardedBus m) m.ss (m.bp - 8#16)
      dx := readWord (forwardedBus m) m.ss (m.bp - 10#16)
      bp := readWord (forwardedBus m) m.ss m.bp
      sp := m.sp - 8#16
      cs := readWord (forwardedBus m) m.ss (m.sp - 10#16)
      bus := forwardedBus m } := by
  have hback : m.sp - 12#16 + 4#16 = m.sp - 8#16 := by bv_omega
  have hnext : m.sp - 12#16 + 2#16 = m.sp - 10#16 := by bv_omega
  simp [Program.step, optionRom, biosInt13hCode, stackVar, forwardedBus, framedBus, BitVec.sub_sub,
    hback, hnext]

/-! ## What forwarding writes -/

/-- The hosts agree outside the 26 bytes of stack that a forwarded request takes. -/
def SameOutsideStack (m₀ : Machine Host) (b b' : Host) : Prop :=
  ∀ a, (∀ i, 1 ≤ i → i ≤ 26 → a ≠ linear m₀.ss (m₀.sp - BitVec.ofNat 16 i)) →
    Bus.read b' a = Bus.read b a

section stack

variable {b b' : Host}

/-- A push inside them. -/
theorem SameOutsideStack.writeWord (hsame : SameOutsideStack m₀ b b') {i : Nat} (hlow : 2 ≤ i)
    (hhigh : i ≤ 26) (w : Word) :
    SameOutsideStack m₀ b (writeWord b' m₀.ss (m₀.sp - BitVec.ofNat 16 i) w) := by
  intro a ha
  have hnext : m₀.sp - BitVec.ofNat 16 i + 1#16 = m₀.sp - BitVec.ofNat 16 (i - 1) := by bv_omega
  rw [read_writeWord_of_ne (ha i (by omega) hhigh) (by
    rw [hnext]
    exact ha (i - 1) (by omega) (by omega))]
  exact hsame a ha

/-- Saving the registers writes to the stack only. -/
theorem sameOutsideStack_savedBus (m₀ : Machine Host) :
    SameOutsideStack m₀ m₀.bus (savedBus m₀) := by
  have hnone : SameOutsideStack m₀ m₀.bus m₀.bus := fun _ _ => rfl
  have hbp := hnone.writeWord (i := 2) (by omega) (by omega) m₀.bp
  have hax := hbp.writeWord (i := 4) (by omega) (by omega) m₀.ax
  have hds := hax.writeWord (i := 6) (by omega) (by omega) m₀.ds
  have hcx := hds.writeWord (i := 8) (by omega) (by omega) m₀.cx
  have hdi := hcx.writeWord (i := 10) (by omega) (by omega) m₀.di
  have hdx := hdi.writeWord (i := 12) (by omega) (by omega) m₀.dx
  exact hdx.writeWord (i := 14) (by omega) (by omega) m₀.si

/-- The words of the caller's interrupt frame are above the stack taken. -/
theorem SameOutsideStack.readWord_caller (hsame : SameOutsideStack m₀ b b') {j : Word}
    (hj : j.toNat ≤ 4) : readWord b' m₀.ss (m₀.sp + j) = readWord b m₀.ss (m₀.sp + j) := by
  have houtside : ∀ k : Word, k.toNat ≤ 5 → ∀ i, 1 ≤ i → i ≤ 26 →
      linear m₀.ss (m₀.sp + k) ≠ linear m₀.ss (m₀.sp - BitVec.ofNat 16 i) := by
    intro k hk i hlow hhigh heq
    rw [linear_inj] at heq
    bv_omega
  have hnext : m₀.sp + j + 1#16 = m₀.sp + (j + 1#16) := BitVec.add_assoc _ _ _
  rw [readWord, readWord, hnext, hsame _ (houtside j (by omega)),
    hsame _ (houtside (j + 1#16) (by bv_omega))]

/-- The option ROM's variables are not on the stack. -/
theorem SameOutsideStack.readWord_variable (hsame : SameOutsideStack m₀ b b')
    (req : ForwardedRequest m₀) {o : Word} (ho : o.toNat < 0x1000) :
    readWord b' m₀.cs o = readWord b m₀.cs o := by
  have houtside : ∀ o : Word, o.toNat ≤ 0x1000 → ∀ i, 1 ≤ i → i ≤ 26 →
      linear m₀.cs o ≠ linear m₀.ss (m₀.sp - BitVec.ofNat 16 i) := by
    intro o ho i hlow hhigh heq
    have hrom := req.stackOutside i hlow hhigh
    rw [← heq, req.cs] at hrom
    apply hrom
    unfold InOptionRom linear
    simp only [BitVec.toNat_ofNat]
    omega
  rw [readWord, readWord, hsame _ (houtside o (by omega)),
    hsame _ (houtside (o + 1#16) (by bv_omega))]

end stack

/-- The machine at `.BIOSInt13h`. -/
def forwarding (m₀ : Machine Host) (f : Flags) : Machine Host :=
  { m₀ with
    bp := m₀.sp - 2#16
    sp := m₀.sp - 14#16
    ds := m₀.cs
    flags := f
    interrupt := true
    bus := savedBus m₀ }

/-- The stack once the interrupt frame is pushed. -/
theorem framedBus_forwarding (m₀ : Machine Host) (f : Flags) : framedBus (forwarding m₀ f) =
    let b := writeWord (savedBus m₀) m₀.ss (m₀.sp - 16#16) (m₀.sp - 2#16)
    let b := writeWord b m₀.ss (m₀.sp - 18#16) (readWord m₀.bus m₀.ss (m₀.sp + 4#16))
    writeWord (writeWord b m₀.ss (m₀.sp - 20#16) m₀.cs) m₀.ss (m₀.sp - 22#16)
      Label.returnFromInt13h.offset := by
  have hflags : readWord (writeWord (savedBus m₀) m₀.ss (m₀.sp - 16#16) (m₀.sp - 2#16)) m₀.ss
      (m₀.sp - 2#16 + 6#16) = readWord m₀.bus m₀.ss (m₀.sp + 4#16) := by
    have hoffset : m₀.sp - 2#16 + 6#16 = m₀.sp + 4#16 := by bv_omega
    rw [hoffset]
    exact ((sameOutsideStack_savedBus m₀).writeWord (i := 16) (by omega) (by omega)
      _).readWord_caller (by decide)
  simp only [framedBus, forwarding, BitVec.sub_sub, BitVec.reduceAdd, hflags]

/-- So does the interrupt frame. -/
theorem sameOutsideStack_framedBus (m₀ : Machine Host) (f : Flags) :
    SameOutsideStack m₀ m₀.bus (framedBus (forwarding m₀ f)) := by
  rw [framedBus_forwarding]
  have hbp := (sameOutsideStack_savedBus m₀).writeWord (i := 16) (by omega) (by omega) (m₀.sp - 2#16)
  have hflags := hbp.writeWord (i := 18) (by omega) (by omega)
    (readWord m₀.bus m₀.ss (m₀.sp + 4#16))
  have hcs := hflags.writeWord (i := 20) (by omega) (by omega) m₀.cs
  exact hcs.writeWord (i := 22) (by omega) (by omega) Label.returnFromInt13h.offset

/-- The stack once the previous handler's address is pushed. -/
theorem forwardedBus_forwarding (req : ForwardedRequest m₀) (f : Flags) :
    forwardedBus (forwarding m₀ f) =
      writeWord (writeWord (framedBus (forwarding m₀ f)) m₀.ss (m₀.sp - 24#16)
        (readWord m₀.bus m₀.cs biosInt13hSegment)) m₀.ss (m₀.sp - 26#16)
        (readWord m₀.bus m₀.cs biosInt13hOffset) := by
  have hframed := sameOutsideStack_framedBus m₀ f
  have hsegment := hframed.readWord_variable req (o := biosInt13hSegment) (by decide)
  have hoffset := (hframed.writeWord (i := 24) (by omega) (by omega)
    (readWord m₀.bus m₀.cs biosInt13hSegment)).readWord_variable req (o := biosInt13hOffset)
    (by decide)
  obtain ⟨b, hb⟩ : ∃ b, framedBus (forwarding m₀ f) = b := ⟨_, rfl⟩
  rw [hb] at hsegment hoffset
  have hunfold : forwardedBus (forwarding m₀ f) =
      writeWord (writeWord b m₀.ss (m₀.sp - 14#16 - 10#16) (readWord b m₀.cs biosInt13hSegment))
        m₀.ss (m₀.sp - 14#16 - 12#16) (readWord (writeWord b m₀.ss (m₀.sp - 14#16 - 10#16)
          (readWord b m₀.cs biosInt13hSegment)) m₀.cs biosInt13hOffset) := by
    rw [← hb]
    rfl
  rw [hunfold, hb, hsegment, BitVec.sub_sub, BitVec.sub_sub]
  exact congrArg (writeWord _ m₀.ss (m₀.sp - 26#16)) hoffset

/-- What is on the stack when the previous handler starts. -/
structure ForwardedStack (m₀ : Machine Host) (b : Host) : Prop where
  offset : readWord b m₀.ss (m₀.sp - 26#16) = readWord m₀.bus m₀.cs biosInt13hOffset
  segment : readWord b m₀.ss (m₀.sp - 24#16) = readWord m₀.bus m₀.cs biosInt13hSegment
  ip : readWord b m₀.ss (m₀.sp - 22#16) = Label.returnFromInt13h.offset
  cs : readWord b m₀.ss (m₀.sp - 20#16) = m₀.cs
  flags : readWord b m₀.ss (m₀.sp - 18#16) = readWord m₀.bus m₀.ss (m₀.sp + 4#16)
  bp : readWord b m₀.ss (m₀.sp - 16#16) = m₀.sp - 2#16
  saved : SavedFrame m₀ b
  callerIp : readWord b m₀.ss m₀.sp = readWord m₀.bus m₀.ss m₀.sp
  callerCs : readWord b m₀.ss (m₀.sp + 2#16) = readWord m₀.bus m₀.ss (m₀.sp + 2#16)

/-- The stack that the previous handler finds. -/
theorem forwardedStack (req : ForwardedRequest m₀) (f : Flags) :
    ForwardedStack m₀ (forwardedBus (forwarding m₀ f)) := by
  have hsame : SameOutsideStack m₀ m₀.bus (forwardedBus (forwarding m₀ f)) := by
    rw [forwardedBus_forwarding req]
    exact ((sameOutsideStack_framedBus m₀ f).writeWord (i := 24) (by omega) (by omega) _).writeWord
      (i := 26) (by omega) (by omega) _
  have hip := hsame.readWord_caller (j := 0#16) (by decide)
  rw [BitVec.add_zero] at hip
  have hcs := hsame.readWord_caller (j := 2#16) (by decide)
  refine ⟨?_, ?_, ?_, ?_, ?_, ?_, ?_, hip, hcs⟩
  all_goals rw [forwardedBus_forwarding req, framedBus_forwarding]
  · exact readWord_writeWord_self _ _ _ _
  · simp [readWord_writeWord_sub]
  · simp [readWord_writeWord_sub]
  · simp [readWord_writeWord_sub]
  · simp [readWord_writeWord_sub]
  · simp [readWord_writeWord_sub]
  · exact (((((savedFrame_savedBus m₀).writeWord_below (by decide)).writeWord_below
      (by decide)).writeWord_below (by decide)).writeWord_below (by decide)).writeWord_below
      (by decide) |>.writeWord_below (by decide)

/-! ## Coming back -/

/-- The bus once `.ReturnFromInt13h` has put the results into the frame at `bp`. -/
def resultsBus (m : Machine Host) (bp : Word) : Host :=
  let b := writeWord (writeWord m.bus m.ss (bp - 2#16) m.ax) m.ss (bp - 6#16) m.cx
  writeWord (writeWord (writeWord b m.ss (bp - 8#16) m.di) m.ss (bp - 10#16) m.dx) m.ss (bp - 12#16)
    m.si

/-- `.ReturnFromInt13h`. -/
theorem step_returnFromInt13h :
    optionRom.step .returnFromInt13h m = .goto .finishInt13hHandler { m with
      bp := readWord m.bus m.ss m.sp
      sp := m.sp + 2#16
      ax := m.cs
      ds := m.cs
      bus := resultsBus m (readWord m.bus m.ss m.sp) } := by
  simp [Program.step, optionRom, returnFromInt13hCode, stackVar, Label.next, resultsBus]

/-- The frame once the results are in it: these, and the words they do not overwrite. -/
structure ResultsFrame (m₀ m : Machine Host) (b : Host) : Prop where
  ax : readWord b m₀.ss (m₀.sp - 4#16) = m.ax
  cx : readWord b m₀.ss (m₀.sp - 8#16) = m.cx
  di : readWord b m₀.ss (m₀.sp - 10#16) = m.di
  dx : readWord b m₀.ss (m₀.sp - 12#16) = m.dx
  si : readWord b m₀.ss (m₀.sp - 14#16) = m.si
  ds : readWord b m₀.ss (m₀.sp - 6#16) = readWord m.bus m₀.ss (m₀.sp - 6#16)
  bp : readWord b m₀.ss (m₀.sp - 2#16) = readWord m.bus m₀.ss (m₀.sp - 2#16)
  callerIp : readWord b m₀.ss m₀.sp = readWord m.bus m₀.ss m₀.sp
  callerCs : readWord b m₀.ss (m₀.sp + 2#16) = readWord m.bus m₀.ss (m₀.sp + 2#16)

/-- Saving its results leaves the caller's part of the frame. -/
theorem resultsFrame (hss : m.ss = m₀.ss) : ResultsFrame m₀ m (resultsBus m (m₀.sp - 2#16)) := by
  have hresults : resultsBus m (m₀.sp - 2#16) =
      let b := writeWord (writeWord m.bus m₀.ss (m₀.sp - 4#16) m.ax) m₀.ss (m₀.sp - 8#16) m.cx
      writeWord (writeWord (writeWord b m₀.ss (m₀.sp - 10#16) m.di) m₀.ss (m₀.sp - 12#16) m.dx)
        m₀.ss (m₀.sp - 14#16) m.si := by
    simp only [resultsBus, hss, BitVec.sub_sub, BitVec.reduceAdd]
  -- the caller's frame is above `sp`, at offsets that wrap
  have hsp : m₀.sp = m₀.sp - 0#16 := (BitVec.sub_zero _).symm
  have hsp' : m₀.sp + 2#16 = m₀.sp - 0xFFFE#16 := by bv_omega
  have hcaller {j : Word} (hj : j = 0#16 ∨ j = 0xFFFE#16) :
      readWord (resultsBus m (m₀.sp - 2#16)) m₀.ss (m₀.sp - j) =
        readWord m.bus m₀.ss (m₀.sp - j) := by
    rw [hresults]
    rcases hj with rfl | rfl <;> simp only [readWord_writeWord_sub, ne_eq, BitVec.reduceAdd,
      BitVec.reduceEq, not_false_eq_true]
  have hip := hcaller (Or.inl rfl)
  have hcs := hcaller (Or.inr rfl)
  rw [← hsp] at hip
  rw [← hsp'] at hcs
  refine ⟨?_, ?_, ?_, ?_, ?_, ?_, ?_, hip, hcs⟩
  all_goals rw [hresults]; simp [readWord_writeWord_sub]

/-- From `.ReturnFromInt13h` on the handler returns with the registers as they are there, but for the
`ds` and `bp` in its frame. -/
theorem ensures_returnFromInt13h (hss : m.ss = m₀.ss)
    (htop : readWord m.bus m₀.ss m.sp = m₀.sp - 2#16)
    (hds : readWord m.bus m₀.ss (m₀.sp - 6#16) = m₀.ds)
    (hbp : readWord m.bus m₀.ss (m₀.sp - 2#16) = m₀.bp)
    (hip : readWord m.bus m₀.ss m₀.sp = readWord m₀.bus m₀.ss m₀.sp)
    (hcs : readWord m.bus m₀.ss (m₀.sp + 2#16) = readWord m₀.bus m₀.ss (m₀.sp + 2#16)) :
    optionRom.Ensures .returnFromInt13h m fun ip m' => ReturnsToCaller m₀ m ip m' := by
  have hframe : ResultsFrame m₀ m (resultsBus m (m₀.sp - 2#16)) := resultsFrame hss
  refine Program.Ensures.goto step_returnFromInt13h
    (Program.Ensures.returned step_finishInt13hHandler ?_)
  rw [hss, htop]
  generalize resultsBus m (m₀.sp - 2#16) = b at hframe
  constructor <;>
    simp [BitVec.sub_sub, hframe.ax, hframe.cx, hframe.di, hframe.dx, hframe.si, hframe.ds,
      hframe.bp, hframe.callerIp, hframe.callerCs, hds, hbp, hip, hcs]

/-! ## The whole of it -/

/-- The words that the previous handler has left on the stack. -/
theorem ReadyToReturn.readWord_stack (hready : ReadyToReturn start h) {i : Nat} (hi : i ≤ 24)
    (hflags : i + 1 < 4 ∨ 5 < i) :
    readWord h.bus start.ss (start.sp + BitVec.ofNat 16 i) =
      readWord start.bus start.ss (start.sp + BitVec.ofNat 16 i) := by
  have hnext : start.sp + BitVec.ofNat 16 i + 1#16 = start.sp + BitVec.ofNat 16 (i + 1) := by
    rw [BitVec.ofNat_add, BitVec.add_assoc]
  rw [readWord, readWord, hnext, hready.stack i (by omega) (by omega) (by omega),
    hready.stack (i + 1) (by omega) (by omega) (by omega)]

/-- The previous handler's return leads to `.ReturnFromInt13h`, and from there to the caller. -/
theorem StartsPrevious.returns {ip : Word} (hstart : StartsPrevious m₀ ip start)
    (hstack : ForwardedStack m₀ start.bus) (hready : ReadyToReturn start h) (kind : InterruptReturn) :
    optionRom.labelAt (h.interruptReturn kind).1 = some .returnFromInt13h ∧
      (h.interruptReturn kind).2.cs = m₀.cs ∧
      optionRom.Ensures .returnFromInt13h (h.interruptReturn kind).2 fun ip m =>
        ReturnsToCaller m₀ (h.interruptReturn kind).2 ip m := by
  have hss : h.ss = m₀.ss := hready.ss.trans hstart.ss
  have hsp : h.sp = m₀.sp - 22#16 := hready.sp.trans hstart.sp
  have hword {i : Nat} (hi : i ≤ 24) (hflags : i + 1 < 4 ∨ 5 < i) {o : Word}
      (ho : m₀.sp - 22#16 + BitVec.ofNat 16 i = o) :
      readWord h.bus m₀.ss o = readWord start.bus m₀.ss o := by
    have hread := hready.readWord_stack hi hflags
    rwa [hstart.ss, hstart.sp, ho] at hread
  have hip : readWord h.bus h.ss h.sp = Label.returnFromInt13h.offset := by
    rw [hss, hsp, hword (i := 0) (by omega) (by omega) (by bv_omega), hstack.ip]
  have hcs : readWord h.bus h.ss (h.sp + 2#16) = m₀.cs := by
    have ho : m₀.sp - 22#16 + 2#16 = m₀.sp - 20#16 := by bv_omega
    rw [hss, hsp, ho, hword (i := 2) (by omega) (by omega) ho, hstack.cs]
  obtain ⟨f, d, i, heq⟩ := h.interruptReturn_eq kind
  rw [heq, hip]
  refine ⟨rfl, hcs, ensures_returnFromInt13h hss ?_ ?_ ?_ ?_ ?_⟩
  · have ho : h.sp + 6#16 = m₀.sp - 16#16 := by
      rw [hsp]
      bv_omega
    show readWord h.bus m₀.ss (h.sp + 6#16) = _
    rw [ho, hword (i := 6) (by omega) (by omega) (by bv_omega), hstack.bp]
  · exact (hword (i := 16) (by omega) (by omega) (by bv_omega)).trans hstack.saved.ds
  · exact (hword (i := 20) (by omega) (by omega) (by bv_omega)).trans hstack.saved.bp
  · exact (hword (i := 22) (by omega) (by omega) (by bv_omega)).trans hstack.callerIp
  · exact (hword (i := 24) (by omega) (by omega) (by bv_omega)).trans hstack.callerCs

/-- A reset of the disk system, with the stack below `0000:7C00`. -/
def resetRequest : Machine Host :=
  { sampleRequest .handleAH02 0#8 0#8 0#8 1#8 fun _ => 0#8 with ax := 0x0000#16 }

/-- It is forwarded. -/
theorem forwardedRequest_reset : ForwardedRequest resetRequest := by
  refine ⟨rfl, Or.inl (by decide), ?_⟩
  intro i _ _
  have hlt : linear resetRequest.ss (resetRequest.sp - BitVec.ofNat 16 i) < 65536 := by
    have hoffset := (resetRequest.sp - BitVec.ofNat 16 i).isLt
    have hss : resetRequest.ss.toNat = 0 := rfl
    rw [linear, hss]
    omega
  unfold InOptionRom
  omega

end Ts3100

import Ts3100.Disk.Serving
import Ts3100.Disk.Transfers

/-! # What the handler preserves of its caller's registers

The handler keeps `ax`, `ds`, `cx`, `di`, `dx`, `si` and `bp` in its frame, and its transfer functions
work in `bx` besides.

* `ServedRequest` — a request that the handler serves itself, with any CHS address.
* `ensures_served` — it returns with every register of its caller but `bx`, and what is in `bx`.
* `preservesRegisters_iff` — so that all are preserved exactly where `bx` held that before. -/

namespace Ts3100

open RealMode

variable {t : Transfer} {m₀ m : Machine Host} {k : Nat} {h h' : Host}

/-! ## Requests -/

/-- Function 02h, 03h or 08h for the virtual disk, with a count from 1 to 127 where there is one, a
stack frame outside the option ROM, and a buffer to read to outside both. -/
structure ServedRequest (m : Machine Host) : Prop where
  cs : m.cs = 0xC800#16
  drive : lo m.dx = m.bus.memory 0xC84CD
  function : hi m.ax = 0x08#8 ∨ ∃ t : Transfer, hi m.ax = t.function
  count : hi m.ax ≠ 0x08#8 → 1 ≤ sectorCount m ∧ sectorCount m ≤ 127
  settled : m.bus.registers.updateDiskMapping = false
  frameOutside : FrameOutside m
  bufferOutside : hi m.ax = 0x02#8 → ∀ i < 512 * sectorCount m,
    ¬ InOptionRom (bufferByte m i) ∧ ¬ InFrame m (bufferByte m i)

/-- A served request with its memory in low RAM: the stack frame, and the buffer of a read. -/
structure RamRequest (m : Machine Host) : Prop extends ServedRequest m where
  frameInRam : ∀ a, InFrame m a → a < lowMemorySize
  bufferInRam : hi m.ax = 0x02#8 → ∀ i < 512 * sectorCount m, bufferByte m i < lowMemorySize

/-- The results that function 08h returns in `cx` and `dx`; the others return what was there. -/
def results (m : Machine Host) : Word × Word :=
  if hi m.ax = 0x08#8 then (0x073F#16, 0xFE01#16) else (m.cx, m.dx)

/-- Entered with `m₀`, the handler returns with the caller's registers, but for its results. -/
def PreservesRegisters (m₀ : Machine Host) : Prop :=
  optionRom.Ensures .int13hHandler m₀ fun _ m =>
    Returned m₀ (results m₀).1 (results m₀).2 m ∧ m.bx = m₀.bx

/-- What the transfer functions leave in `bx`: reading the function and the sectors of the last copy,
writing the option ROM's segment. -/
def scratchBx (m : Machine Host) : Word :=
  if hi m.ax = 0x02#8 then
    word 0x02#8 (BitVec.ofNat 8 (leftover (startOffset m) (sectorCount m)))
  else
    0xC800#16

/-! ## Geometry requests -/

/-- `int13h_handler` dispatches a request for the geometry. -/
theorem step_int13hHandler_geometry (hah : hi m.ax = 0x08#8)
    (hdl : lo m.dx = Bus.read (savedBus m) (linear m.cs vdiskDrivenum)) :
    optionRom.step .int13hHandler m = .goto .handleAH08 { m with
      bp := m.sp - 2#16
      sp := m.sp - 14#16
      ds := m.cs
      flags := (subb (hi m.ax) 0x08#8).2
      interrupt := true
      bus := savedBus m } := by
  have hax := (savedFrame_savedBus m).ax
  unfold savedBus at hdl hax
  simp [Program.step, optionRom, int13hHandlerCode, stackVar, BitVec.sub_sub, savedBus, hax, hah,
    ← hdl]

/-- `.HandleAH08`: the geometry in the frame, and the carry flag clear. -/
theorem step_handleAH08 :
    optionRom.step .handleAH08 m = .goto .finishInt13hHandler { m with
      ax := word 0#8 (lo m.ax)
      cx := 0x073F#16
      dx := 0xFE01#16
      flags := { (logic 0#8).2 with carry := false }
      bus := writeWord (writeWord (writeWord m.bus m.ss (m.bp - 2#16) (word 0#8 (lo m.ax)))
        m.ss (m.bp - 6#16) 0x073F#16) m.ss (m.bp - 10#16) 0xFE01#16 } := by
  simp [Program.step, optionRom, handleAH08Code, stackVar]

/-- A request for the geometry returns it, and every other register as it was. -/
theorem ensures_geometry (req : ServedRequest m₀) (hah : hi m₀.ax = 0x08#8) :
    optionRom.Ensures .int13hHandler m₀ fun _ m =>
      Returned m₀ 0x073F#16 0xFE01#16 m ∧ m.bx = m₀.bx := by
  have hsaved := savedFrame_savedBus m₀
  refine Program.Ensures.goto (step_int13hHandler_geometry hah
    (req.drive.trans (req.frameOutside.read_drive req.cs).symm))
    (Program.Ensures.goto step_handleAH08
      (Program.Ensures.returned step_finishInt13hHandler ⟨?_, rfl⟩))
  constructor <;>
    simp [BitVec.sub_sub, readWord_writeWord_sub, hsaved.bp, hsaved.ds, hsaved.di, hsaved.si]

/-! ## Transfers -/

/-- The saved registers depend only on what is read from the frame. -/
theorem SavedFrame.of_read (hsaved : SavedFrame m₀ h)
    (hread : ∀ a, InFrame m₀ a → Bus.read h' a = Bus.read h a) : SavedFrame m₀ h' := by
  have hword {i : Nat} (hlow : 2 ≤ i) (hhigh : i ≤ 20) :
      readWord h' m₀.ss (m₀.sp - BitVec.ofNat 16 i) =
        readWord h m₀.ss (m₀.sp - BitVec.ofNat 16 i) := by
    obtain ⟨hin₀, hin₁⟩ := inFrame_word m₀ hlow hhigh
    rw [readWord, readWord, hread _ hin₀, hread _ hin₁]
  exact ⟨(hword (i := 2) (by omega) (by omega)).trans hsaved.bp,
    (hword (i := 4) (by omega) (by omega)).trans hsaved.ax,
    (hword (i := 6) (by omega) (by omega)).trans hsaved.ds,
    (hword (i := 8) (by omega) (by omega)).trans hsaved.cx,
    (hword (i := 10) (by omega) (by omega)).trans hsaved.di,
    (hword (i := 12) (by omega) (by omega)).trans hsaved.dx,
    (hword (i := 14) (by omega) (by omega)).trans hsaved.si⟩

/-- No byte that a copy of `c` sectors writes is in the frame. -/
theorem Serving.writes_outside (req : ServedRequest m₀) (hfunction : hi m₀.ax = t.function)
    (hm : Serving t m₀ k m) {off c : Nat} (hwindow : (m.get t.window).toNat = 0x1000 + 512 * off)
    (hfit : off + c ≤ 8) (hkc : k + c ≤ sectorCount m₀) {a : Nat} (ha : InFrame m₀ a) :
    ∀ i < 2 * (256 * c), linear m.es (m.di + BitVec.ofNat 16 i) ≠ a := by
  intro i hi heq
  have hdest := hm.linear_dest hwindow hfit hi
  rw [heq] at hdest
  cases t with
  | handleAH02 =>
    -- the buffer is apart from the frame
    have hbyte : a = bufferByte m₀ (512 * k + i) := hdest
    refine (req.bufferOutside hfunction (512 * k + i) (by omega)).2 ?_
    rw [← hbyte]
    exact ha
  | handleAH03 =>
    -- the window is in the ROM
    have hin : InDiskWindow a := hdest
    exact not_inDiskWindow_of_not_inOptionRom (req.frameOutside a ha) hin

/-- The copies and calls of a transfer keep the registers of the handler and of its caller. -/
theorem servingRules (req : ServedRequest m₀) (hfunction : hi m₀.ax = t.function) :
    TransferRules t (startOffset m₀) (sectorCount m₀) (fun _ => True)
      (fun k m => Serving t m₀ k m ∧ SavedFrame m₀ m.bus)
      (fun k m => Serving t m₀ k m ∧ SavedFrame m₀ m.bus) where
  bus _ := trivial
  push _ _ := trivial
  update hm ax bx cx dx w f := by
    refine ⟨hm.1.update ax bx cx dx w f, ?_⟩
    cases t <;> exact hm.2
  updateDone hm bx f := by
    refine ⟨?_, hm.2⟩
    cases t <;> exact hm.1.update _ bx _ _ _ f
  copy := by
    rintro k c m ⟨hm, hsaved⟩ hcx hwindow - hfit hkc
    obtain ⟨hnext, hbx, hbus⟩ := hm.repMovsw hcx
    refine ⟨⟨hnext, ?_⟩, hbx⟩
    rw [hbus]
    exact hsaved.of_read fun a ha => Machine.read_movswTimes_of_ne hm.direction
      (hm.writes_outside req hfunction hwindow hfit hkc ha)
  increment := by
    rintro k m l ⟨hm, hsaved⟩ - hret
    obtain ⟨m', hstep, hnext, hbx, -, hsaved'⟩ := hm.incrementLBA req.frameOutside hret
    exact ⟨m', hstep, ⟨hnext, hsaved' hsaved⟩, hbx⟩

/-- What `bx` holds once a transfer has exchanged the segments back. -/
theorem finalBx_eq (hfunction : hi m₀.ax = t.function) (hm : Serving t m₀ k m)
    (hbx : m.bx = word (hi m₀.ax)
      (BitVec.ofNat 8 (leftover (startOffset m₀) (sectorCount m₀)))) :
    finalBx t m = scratchBx m₀ := by
  cases t with
  | handleAH02 =>
    have hfn : hi m₀.ax = 0x02#8 := hfunction
    rw [scratchBx, if_pos hfn, ← hfn]
    exact hbx
  | handleAH03 =>
    have hfn : hi m₀.ax = 0x03#8 := hfunction
    obtain ⟨-, hes⟩ := Prod.mk.inj hm.segments
    rw [scratchBx, hfn, if_neg (by decide)]
    exact hes

/-- A transfer returns with every register of its caller but `bx`. -/
theorem ensures_transfer (req : ServedRequest m₀) (hfunction : hi m₀.ax = t.function) :
    optionRom.Ensures .int13hHandler m₀ fun _ m =>
      Returned m₀ m₀.cx m₀.dx m ∧ m.bx = scratchBx m₀ := by
  have hcount := req.count (by rw [hfunction]; cases t <;> decide)
  refine (req.frameOutside.ensuresIn_transfer req.cs hfunction req.drive hcount req.settled
    (fun _ _ => trivial) (fun b hmemory => (req.frameOutside.chsMachine_frame hmemory).1)
    (servingRules req hfunction) fun m hm hsaved hbx => Program.Ensures.ensuresIn ?_).ensures
  refine (ensures_finishCopy_of_saved hm.ss hm.bp hm.segments hsaved).mono ?_
  rintro _ m' ⟨hreturned, hfinal, -⟩
  exact ⟨hreturned, hfinal.trans (finalBx_eq hfunction hm hbx)⟩

/-! ## Exactly when -/

/-- **A request is served** with every register of its caller restored but `bx`. -/
theorem ensures_served (req : ServedRequest m₀) :
    optionRom.Ensures .int13hHandler m₀ fun _ m =>
      Returned m₀ (results m₀).1 (results m₀).2 m ∧
        m.bx = if hi m₀.ax = 0x08#8 then m₀.bx else scratchBx m₀ := by
  by_cases hah : hi m₀.ax = 0x08#8
  · rw [results, if_pos hah, if_pos hah]
    exact ensures_geometry req hah
  · obtain ⟨t, hfunction⟩ := req.function.resolve_left hah
    rw [results, if_neg hah, if_neg hah]
    exact ensures_transfer req hfunction

/-- A transfer request of `sampleRequest` is served, with its memory in low RAM. -/
theorem ramRequest_sample {n c h s : Byte} {image : Nat → Byte}
    (hn : 1 ≤ n.toNat ∧ n.toNat ≤ 127) : RamRequest (sampleRequest t n c h s image) := by
  have hframe := inFrame_sample t n c h s image
  have hcount : sectorCount (sampleRequest t n c h s image) = n.toNat := by
    simp [sectorCount, sampleRequest]
  have hbyte (i : Nat) (hi : i < 512 * n.toNat) :
      bufferByte (sampleRequest t n c h s image) i = 65536 + i := by
    simp only [bufferByte, sampleRequest, linear, BitVec.zero_add, BitVec.toNat_ofNat]
    omega
  have hram {a : Nat} (ha : a < 0x20000) : a < lowMemorySize := by
    unfold lowMemorySize
    omega
  refine ⟨⟨rfl, by simp [sampleRequest], Or.inr ⟨t, hi_word _ _⟩, fun _ => hcount ▸ hn, rfl,
    fun a ha => ?_, fun _ i hi => ?_⟩, fun a ha => ?_, fun _ i hi => ?_⟩
  · have hlt := hframe a ha
    exact not_inOptionRom_of_lt (hram (by omega))
  · rw [hcount] at hi
    rw [hbyte i hi]
    refine ⟨not_inOptionRom_of_lt (hram (by omega)), fun hin => ?_⟩
    have hlt := hframe _ hin
    omega
  · have hlt := hframe a ha
    exact hram (by omega)
  · rw [hcount] at hi
    rw [hbyte i hi]
    exact hram (by omega)

/-- A request for the geometry, with a value in `bx`. -/
def geometryRequest : Machine Host :=
  { sampleRequest .handleAH02 1#8 0#8 0#8 1#8 fun _ => 0#8 with
    ax := 0x0800#16
    bx := 0x1234#16 }

/-- It is served, with its memory in low RAM. -/
theorem ramRequest_geometry : RamRequest geometryRequest := by
  have req : RamRequest (sampleRequest .handleAH02 1#8 0#8 0#8 1#8 fun _ => 0#8) :=
    ramRequest_sample (by decide)
  have hah : hi geometryRequest.ax = 0x08#8 := by decide
  have hread : hi geometryRequest.ax ≠ 0x02#8 := by decide
  exact ⟨⟨rfl, req.drive, Or.inl hah, fun hne => absurd hah hne, rfl, req.frameOutside,
    fun h => absurd h hread⟩, req.frameInRam, fun h => absurd h hread⟩

/-- The geometry request is served. -/
theorem servedRequest_geometry : ServedRequest geometryRequest := ramRequest_geometry.toServedRequest

end Ts3100

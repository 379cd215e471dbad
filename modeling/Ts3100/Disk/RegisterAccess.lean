import Ts3100.Disk.Host
import Ts3100.Library.WriteLog

/-! # Accesses to the disk registers

`handlerDiskRegisters` copies as many bytes as the guest asks for, into or out of `selectedDiskLBA`
from the byte that the port selects. `faithful_iff` says for which sequences of accesses the register
is a store of four bytes: those whose copies all end inside it. -/

namespace Ts3100

open LabelledRuns WriteLog RealMode

/-- An access to the ports of `handlerDiskRegisters`; `data` is the buffer of the exit. -/
structure DiskAccess where
  isWrite : Bool
  port : Word
  data : List Byte
  port_mem : 0xD000 ≤ port.toNat ∧ port.toNat < 0xD008
  size_mem : data.length = 1 ∨ data.length = 2 ∨ data.length = 4

namespace DiskAccess

/-- The byte of the LBA register that a copy starts at. -/
def offset (a : DiskAccess) : Nat := (a.port &&& 0x03#16).toNat

/-- A write to the update mapping register. -/
def RequestsUpdate (a : DiskAccess) : Prop := a.isWrite = true ∧ 0xD004 ≤ a.port.toNat

instance (a : DiskAccess) : Decidable a.RequestsUpdate := inferInstanceAs (Decidable (_ ∧ _))

/-- All bytes that the access copies are bytes of the LBA register. -/
def StaysInside (a : DiskAccess) : Prop := a.RequestsUpdate ∨ a.offset + a.data.length ≤ 4

instance (a : DiskAccess) : Decidable a.StaysInside := inferInstanceAs (Decidable (_ ∨ _))

/-- Bytes written at ascending positions. -/
def bytesFrom (i : Nat) : List Byte → List (Nat × Byte)
  | [] => []
  | b :: bs => (i, b) :: bytesFrom (i + 1) bs

/-- The bytes that an access writes to the LBA register, with their positions. -/
def lbaWrites (a : DiskAccess) : List (Nat × Byte) :=
  if a.isWrite = true ∧ ¬ a.RequestsUpdate then bytesFrom a.offset a.data else []

end DiskAccess

namespace DiskRegisters

variable {r r' : DiskRegisters} {a : DiskAccess}

/-- The registers after an access; none if a copy leaves the LBA register. -/
def step (r : DiskRegisters) (a : DiskAccess) : Option DiskRegisters :=
  ((handlerDiskRegisters a.isWrite a.port a.data 1 r).map Prod.fst).toOption

/-- The registers are a faithful store along a sequence of accesses: no copy leaves the LBA register,
which always holds the bytes last written to its four positions, and the update is requested by writes
to the update mapping register only. -/
def Faithful (r : DiskRegisters) (accesses : List DiskAccess) : Prop :=
  (∃ r', run step r accesses = some r') ∧
    ∀ pre, pre <+: accesses → ∀ r', run step r pre = some r' →
      r'.selectedDiskLBA =
          lbaOfBytes (contents r.lbaByte (logOf step (fun _ a => a.lbaWrites) r pre)) ∧
        (r'.updateDiskMapping = true ↔
          r.updateDiskMapping = true ∨ ∃ a ∈ pre, a.RequestsUpdate)

/-! ## One access -/

/-- Bits 0 to 2 of a port in the range are its distance from the first. -/
theorem port_and_seven (a : DiskAccess) : (a.port &&& 0x07#16).toNat = a.port.toNat - 0xD000 := by
  have hmem := a.port_mem
  generalize a.port = port at hmem
  obtain ⟨k, hk, rfl⟩ : ∃ k < 8, port = 0xD000#16 + BitVec.ofNat 16 k :=
    ⟨port.toNat - 0xD000, by omega, by bv_omega⟩
  interval_cases k <;> rfl

/-- A word of bytes depends on its four bytes. -/
theorem lbaOfBytes_congr {f g : Nat → Byte} (h : ∀ i < 4, f i = g i) : lbaOfBytes f = lbaOfBytes g := by
  rw [lbaOfBytes, lbaOfBytes, h 0 (by omega), h 1 (by omega), h 2 (by omega), h 3 (by omega)]

/-- The bytes of a word of bytes. -/
theorem lbaByte_lbaOfBytes (f : Nat → Byte) (u : Bool) {i : Nat} (hi : i < 4) :
    DiskRegisters.lbaByte ⟨lbaOfBytes f, u⟩ i = f i := by
  have h₀ := (f 0).isLt
  have h₁ := (f 1).isLt
  have h₂ := (f 2).isLt
  have h₃ := (f 3).isLt
  apply BitVec.eq_of_toNat_eq
  rw [lbaByte_toNat, lbaOfBytes_toNat]
  interval_cases i <;> omega

/-- The LBA register is the word of its bytes. -/
theorem lbaOfBytes_lbaByte (r : DiskRegisters) : lbaOfBytes r.lbaByte = r.selectedDiskLBA := by
  have hlt := r.selectedDiskLBA.isLt
  apply BitVec.eq_of_toNat_eq
  rw [lbaOfBytes_toNat]
  simp only [lbaByte_toNat]
  omega

/-- The bytes that a `memcpy` leaves, as the values last written. -/
theorem contents_bytesFrom (cells : Nat → Byte) (data : List Byte) (o i : Nat) :
    contents cells (DiskAccess.bytesFrom o data) i =
      if o ≤ i then data.getD (i - o) (cells i) else cells i := by
  induction data generalizing cells o with
  | nil => simp [DiskAccess.bytesFrom]
  | cons b bs ih =>
      rw [DiskAccess.bytesFrom, contents_cons, ih]
      rcases lt_trichotomy i o with hlt | rfl | hgt
      · rw [if_neg (by omega), if_neg (by omega), Function.update_of_ne (by omega)]
      · rw [if_neg (by omega), if_pos le_rfl, Function.update_self, Nat.sub_self]
        rfl
      · obtain ⟨k, rfl⟩ : ∃ k, i = o + 1 + k := ⟨i - (o + 1), by omega⟩
        rw [if_pos (by omega), if_pos (by omega), Function.update_of_ne (by omega),
          Nat.add_sub_cancel_left, show o + 1 + k - o = k + 1 by omega]
        rfl

/-- **One access.** It completes iff its copy stays inside, and then writes its bytes, or requests the
update, or changes nothing. -/
theorem step_eq (r : DiskRegisters) (a : DiskAccess) : r.step a =
    if a.StaysInside then
      some ⟨lbaOfBytes (contents r.lbaByte a.lbaWrites),
        r.updateDiskMapping || decide a.RequestsUpdate⟩
    else none := by
  obtain ⟨hlow, hhigh⟩ := a.port_mem
  have hseven := port_and_seven a
  have hoffset : (a.port &&& 0x03#16).toNat = a.offset := rfl
  cases hisWrite : a.isWrite with
  | true =>
      -- ports from D004 on request the update and copy nothing
      by_cases hport : 0xD004 ≤ a.port.toNat
      · have hrequests : a.RequestsUpdate := ⟨hisWrite, hport⟩
        have hinside : a.StaysInside := Or.inl hrequests
        rw [if_pos hinside, DiskAccess.lbaWrites, if_neg (by simp [hrequests]), contents_nil,
          lbaOfBytes_lbaByte, decide_eq_true hrequests, Bool.or_true]
        simp only [step, handlerDiskRegisters, hisWrite, hoffset]
        rw [if_neg (by simp), if_pos trivial, if_neg (by omega)]
        rfl
      · have hcopies : ¬ a.RequestsUpdate := fun h => hport h.2
        have hinside : a.StaysInside ↔ a.offset + a.data.length ≤ 4 := or_iff_right hcopies
        have hbytes : contents r.lbaByte a.lbaWrites = fun i =>
            if a.offset ≤ i then a.data.getD (i - a.offset) (r.lbaByte i) else r.lbaByte i := by
          rw [DiskAccess.lbaWrites, if_pos ⟨hisWrite, hcopies⟩]
          funext i
          exact contents_bytesFrom _ _ _ _
        rw [hbytes, decide_eq_false hcopies, Bool.or_false]
        simp only [step, handlerDiskRegisters, hisWrite, hoffset]
        rw [if_neg (by simp), if_pos trivial, if_pos (by omega)]
        -- the copy has the access's length, so it stays inside the four bytes or leaves them
        by_cases hcopy : a.offset + a.data.length ≤ 4
        · rw [if_pos (hinside.mpr hcopy), if_pos hcopy]
          rfl
        · rw [if_neg (mt hinside.mp hcopy), if_neg hcopy]
          rfl
  | false =>
      have hcopies : ¬ a.RequestsUpdate := fun h => absurd (hisWrite.symm.trans h.1) (by simp)
      have hinside : a.StaysInside ↔ a.offset + a.data.length ≤ 4 := or_iff_right hcopies
      have hreads : a.lbaWrites = [] := if_neg fun h => absurd (hisWrite.symm.trans h.1) (by simp)
      rw [hreads, contents_nil, lbaOfBytes_lbaByte,
        decide_eq_false hcopies, Bool.or_false]
      simp only [step, handlerDiskRegisters, hisWrite, hoffset]
      rw [if_neg (by simp), if_neg (by simp)]
      by_cases hcopy : a.offset + a.data.length ≤ 4
      · rw [if_pos (hinside.mpr hcopy), if_pos hcopy]
        rfl
      · rw [if_neg (mt hinside.mp hcopy), if_neg hcopy]
        rfl

/-- An access completes iff it stays inside the register. -/
theorem step_isSome_iff : (∃ r', r.step a = some r') ↔ a.StaysInside := by
  rw [step_eq]
  split <;> simp [*]

/-! ## Sequences -/

/-- A sequence completes iff all its copies stay inside. -/
theorem run_isSome_iff (r : DiskRegisters) (accesses : List DiskAccess) :
    (∃ r', run step r accesses = some r') ↔ ∀ a ∈ accesses, a.StaysInside := by
  induction accesses generalizing r with
  | nil => simp
  | cons a accesses ih =>
      rw [List.forall_mem_cons, ← step_isSome_iff (r := r)]
      constructor
      · rintro ⟨r', hrun⟩
        rw [run_cons, Option.bind_eq_some_iff] at hrun
        obtain ⟨r₁, hr₁, hrun⟩ := hrun
        exact ⟨⟨r₁, hr₁⟩, (ih r₁).mp ⟨r', hrun⟩⟩
      · rintro ⟨⟨r₁, hr₁⟩, hall⟩
        obtain ⟨r', hrun⟩ := (ih r₁).mpr hall
        exact ⟨r', by rw [run_cons, hr₁]; exact hrun⟩

/-- Every access keeps the bytes of the LBA register those last written. -/
theorem lbaByte_step (r : DiskRegisters) (a : DiskAccess) (r' : DiskRegisters) (cells : Nat → Byte)
    (hcells : ∀ i < 4, r.lbaByte i = cells i) (hstep : r.step a = some r') :
    ∀ i < 4, r'.lbaByte i = contents cells a.lbaWrites i := by
  intro i hi
  rw [step_eq, Option.ite_none_right_eq_some] at hstep
  obtain ⟨-, ⟨⟩⟩ := hstep
  rw [lbaByte_lbaOfBytes _ _ hi, DiskAccess.lbaWrites]
  split
  · rw [contents_bytesFrom, contents_bytesFrom, hcells i hi]
  · exact hcells i hi

/-- The update is requested where it was before or the access requests it. -/
theorem updateDiskMapping_run {accesses : List DiskAccess} (hrun : run step r accesses = some r') :
    r'.updateDiskMapping = true ↔
      r.updateDiskMapping = true ∨ ∃ a ∈ accesses, a.RequestsUpdate := by
  induction accesses generalizing r with
  | nil =>
      obtain rfl : r = r' := by simpa using hrun
      simp
  | cons a accesses ih =>
      rw [run_cons, Option.bind_eq_some_iff] at hrun
      obtain ⟨r₁, hr₁, hrun⟩ := hrun
      rw [step_eq, Option.ite_none_right_eq_some] at hr₁
      obtain ⟨-, ⟨⟩⟩ := hr₁
      rw [ih hrun]
      simp [or_assoc]

/-- **When the disk registers are a faithful store.** They are along exactly the sequences of accesses
whose copies all end inside the LBA register. -/
theorem faithful_iff (r : DiskRegisters) (accesses : List DiskAccess) :
    r.Faithful accesses ↔ ∀ a ∈ accesses, a.StaysInside := by
  constructor
  · intro h
    exact (run_isSome_iff r accesses).mp h.1
  · intro hinside
    refine ⟨(run_isSome_iff r accesses).mpr hinside, fun pre _ r' hrun => ⟨?_, ?_⟩⟩
    · have hbytes := rel_of_run lbaByte_step (fun _ _ => rfl) hrun
      rw [← lbaOfBytes_lbaByte]
      exact lbaOfBytes_congr hbytes
    · exact updateDiskMapping_run hrun

/-- A read of two bytes from the last byte of the LBA register. -/
def readPastEnd : DiskAccess :=
  ⟨false, 0xD003#16, [0#8, 0#8], by decide, by decide⟩

/-- **Reading past the register.** The copy takes a byte of host memory after it. -/
theorem not_faithful : ¬ ∀ (r : DiskRegisters) (accesses : List DiskAccess), r.Faithful accesses := by
  intro hclaim
  obtain ⟨r', hrun⟩ := (hclaim {} [readPastEnd]).1
  have hnone : run step {} [readPastEnd] = none := by decide
  rw [hnone] at hrun
  cases hrun

end DiskRegisters

end Ts3100

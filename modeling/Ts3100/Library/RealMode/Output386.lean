import Ts3100.Library.RealMode.Machine386

/-! # Byte strings of a 386

What string instructions do to a run of bytes: `emit` stores a list of bytes at `es:edi`, one
`stosb` after another; `repne scasb` stops behind the first byte it looks for, or at the end of its
count. -/

namespace I386

open RealMode (fill subb Flags)

universe u

/-! ## Bytes in memory -/

/-- A memory with a list of bytes stored at `a`. -/
def storeBytes (mem : Nat → BitVec 8) (a : Nat) (bs : List (BitVec 8)) : Nat → BitVec 8 :=
  fill mem a bs.length fun i => bs.getD i 0#8

/-- The list of bytes `bs` is at `a`. -/
def BytesAt (mem : Nat → BitVec 8) (a : Nat) (bs : List (BitVec 8)) : Prop :=
  ∀ i (hi : i < bs.length), mem (a + i) = bs[i]

/-- The `n` bytes at `a` and the `k` bytes at `b` have no byte in common. -/
def Apart (a n b k : Nat) : Prop := a + n ≤ b ∨ b + k ≤ a

instance (a n b k : Nat) : Decidable (Apart a n b k) := inferInstanceAs (Decidable (_ ∨ _))

/-- The offsets of `n` bytes from `o`. -/
def offsets (o : Dword) (n : Nat) : List Dword := (List.range n).map fun i => o + BitVec.ofNat 32 i

section bytes

variable {mem : Nat → BitVec 8} {a x : Nat} {bs cs : List (BitVec 8)}

/-- Storing no bytes changes nothing. -/
@[simp] theorem storeBytes_nil (mem : Nat → BitVec 8) (a : Nat) : storeBytes mem a [] = mem :=
  RealMode.fill_zero

/-- Elsewhere memory is as before. -/
theorem storeBytes_of_notMem (h : ¬ (a ≤ x ∧ x < a + bs.length)) : storeBytes mem a bs x = mem x :=
  RealMode.fill_of_notMem h

/-- The bytes that are stored are there. -/
theorem bytesAt_storeBytes (mem : Nat → BitVec 8) (a : Nat) (bs : List (BitVec 8)) :
    BytesAt (storeBytes mem a bs) a bs := by
  intro i hi
  rw [storeBytes, RealMode.fill_add hi, List.getD_eq_getElem _ _ hi]

/-- One more byte. -/
theorem storeBytes_concat (mem : Nat → BitVec 8) (a : Nat) (bs : List (BitVec 8)) (b : BitVec 8) :
    storeBytes mem a (bs ++ [b]) = Function.update (storeBytes mem a bs) (a + bs.length) b := by
  funext x
  rw [Function.update_apply, storeBytes, storeBytes, List.length_append, List.length_singleton]
  by_cases hx : x = a + bs.length
  · rw [if_pos hx, hx, RealMode.fill_add (by omega)]
    simp
  · rw [if_neg hx]
    by_cases hin : a ≤ x ∧ x < a + bs.length
    · rw [RealMode.fill_of_mem hin.1 (by omega), RealMode.fill_of_mem hin.1 hin.2,
        List.getD_append _ _ _ _ (by omega)]
    · rw [RealMode.fill_of_notMem hin, RealMode.fill_of_notMem (by omega)]

/-- Two stores one behind the other are one. -/
theorem storeBytes_append (mem : Nat → BitVec 8) (a : Nat) (bs cs : List (BitVec 8)) :
    storeBytes (storeBytes mem a bs) (a + bs.length) cs = storeBytes mem a (bs ++ cs) := by
  induction cs using List.reverseRecOn with
  | nil => simp
  | append_singleton cs c ih =>
      rw [storeBytes_concat, ih, ← List.append_assoc, storeBytes_concat, List.length_append,
        Nat.add_assoc]

/-- A list is at an address if its first part is, and the rest behind it. -/
theorem bytesAt_append : BytesAt mem a (bs ++ cs) ↔
    BytesAt mem a bs ∧ BytesAt mem (a + bs.length) cs := by
  constructor
  · intro h
    constructor
    · intro i hi
      rw [h i (by rw [List.length_append]; omega), List.getElem_append_left hi]
    · intro i hi
      rw [Nat.add_assoc, h (bs.length + i) (by rw [List.length_append]; omega),
        List.getElem_append_right (by omega)]
      simp
  · rintro ⟨hbs, hcs⟩ i hi
    rw [List.length_append] at hi
    by_cases hlt : i < bs.length
    · rw [hbs i hlt, List.getElem_append_left hlt]
    · rw [List.getElem_append_right (by omega), ← hcs (i - bs.length) (by omega), Nat.add_assoc]
      congr 1
      omega

/-- So for its first byte. -/
theorem bytesAt_cons {b : BitVec 8} :
    BytesAt mem a (b :: bs) ↔ mem a = b ∧ BytesAt mem (a + 1) bs := by
  rw [show b :: bs = [b] ++ bs from rfl, bytesAt_append]
  refine and_congr_left fun _ => ⟨fun h => h 0 (by simp), fun h i hi => ?_⟩
  obtain rfl : i = 0 := by simpa using hi
  exact h

/-- Where the bytes are depends on these bytes of memory. -/
theorem BytesAt.congr {mem' : Nat → BitVec 8} (h : BytesAt mem a bs)
    (hsame : ∀ i < bs.length, mem' (a + i) = mem (a + i)) : BytesAt mem' a bs :=
  fun i hi => (hsame i hi).trans (h i hi)

/-- No offsets. -/
@[simp] theorem offsets_zero (o : Dword) : offsets o 0 = [] := rfl

/-- One offset. -/
@[simp] theorem offsets_one (o : Dword) : offsets o 1 = [o] := by simp [offsets]

/-- The offsets of two runs of bytes. -/
theorem offsets_add (o : Dword) (n k : Nat) :
    offsets o (n + k) = offsets o n ++ offsets (o + BitVec.ofNat 32 n) k := by
  simp [offsets, List.range_add, Function.comp_def, BitVec.ofNat_add, BitVec.add_assoc]

end bytes

/-! ## Storing a string -/

namespace Machine

variable {σ : Type u} {m : Machine σ} {bs cs : List (BitVec 8)}

/-- The machine after a list of bytes is stored at `es:edi`. -/
def emit (bs : List (BitVec 8)) (m : Machine σ) : Machine σ :=
  { m with
    memory := storeBytes m.memory (m.es.toNat * 16 + m.edi.toNat) bs
    stored := m.stored ++ offsets m.edi bs.length
    edi := m.edi + BitVec.ofNat 32 bs.length }

/-- Nothing is emitted. -/
@[simp] theorem emit_nil (m : Machine σ) : m.emit [] = m := by
  simp [emit]

/-- One string after another. -/
theorem emit_append (h : m.edi.toNat + bs.length < 2 ^ 32) (cs : List (BitVec 8)) :
    (m.emit bs).emit cs = m.emit (bs ++ cs) := by
  have hedi : (m.edi + BitVec.ofNat 32 bs.length).toNat = m.edi.toNat + bs.length := by
    rw [BitVec.toNat_add, BitVec.toNat_ofNat]
    omega
  simp [emit, hedi, ← storeBytes_append, offsets_add, BitVec.ofNat_add, BitVec.add_assoc,
    Nat.add_assoc]

/-- The memory after one more byte. -/
theorem emit_concat_memory (h : m.edi.toNat + bs.length < 2 ^ 32) (b : BitVec 8) :
    storeBytes (m.emit bs).memory (m.es.toNat * 16 + (m.edi + BitVec.ofNat 32 bs.length).toNat) [b] =
      storeBytes m.memory (m.es.toNat * 16 + m.edi.toNat) (bs ++ [b]) :=
  congrArg Machine.memory (emit_append h [b])

/-- A string and one more byte leave alone what is apart from them. -/
theorem emit_concat_memory_of_apart {a n x : Nat} {b : BitVec 8}
    (h : m.edi.toNat + bs.length < 2 ^ 32)
    (hapart : Apart (m.es.toNat * 16 + m.edi.toNat) (bs.length + 1) a n) (hx : a ≤ x)
    (hx' : x < a + n) :
    storeBytes (m.emit bs).memory (m.es.toNat * 16 + (m.edi + BitVec.ofNat 32 bs.length).toNat) [b] x =
      m.memory x := by
  unfold Apart at hapart
  rw [emit_concat_memory h]
  refine storeBytes_of_notMem ?_
  rw [List.length_append, List.length_singleton]
  omega

/-- A byte stored at `es:edi`. -/
theorem storeEs_eq (h : m.edi.toNat < 65536) (b : BitVec 8) :
    m.storeEs m.edi b = some { m.emit [b] with edi := m.edi } := by
  have hbyte : storeBytes m.memory (m.linear .es m.edi) [b] =
      Function.update m.memory (m.linear .es m.edi) b := by
    rw [show [b] = [] ++ [b] from rfl, storeBytes_concat, storeBytes_nil]
    rfl
  rw [storeEs, address_eq (by omega), Option.map_some, ← hbyte]
  simp [emit]

/-- `stosb` stores the low byte of `eax`. -/
theorem stosb_eq (h : m.edi.toNat < 65536) (hdir : m.direction = false) :
    m.stosb = some (m.emit [byteOf m.eax 0]) := by
  rw [stosb, storeEs_eq h]
  simp [emit, stride, hdir]

end Machine

/-! ## Looking for a byte -/

namespace Machine

variable {σ : Type u} {m : Machine σ}

/-- `scasb` at a byte of the segment. -/
theorem scasb_eq (h : m.edi.toNat < 65536) (hdir : m.direction = false) :
    m.scasb = some { m with
      flags := (subb (byteOf m.eax 0) (m.memory (m.linear .es m.edi))).2
      edi := m.edi + 1#32
      ecx := m.ecx - 1#32 } := by
  rw [scasb, load8, get, address_eq (by omega)]
  simp [stride, hdir]

/-- `repne scasb` passes bytes that are not the one in `al`. -/
theorem scasbTimes_of_notMem {bs : List (BitVec 8)}
    (hbs : BytesAt m.memory (m.linear .es m.edi) bs) (hc : byteOf m.eax 0 ∉ bs)
    (hroom : m.edi.toNat + bs.length ≤ 65536) (hdir : m.direction = false) (n : Nat) :
    ∃ f : Flags, (f.zero = true → bs = [] ∧ m.flags.zero = true) ∧
      m.scasbTimes (bs.length + n) = { m with
        flags := f
        edi := m.edi + BitVec.ofNat 32 bs.length
        ecx := m.ecx - BitVec.ofNat 32 bs.length }.scasbTimes n := by
  induction bs generalizing m with
  | nil => exact ⟨m.flags, fun h => ⟨rfl, h⟩, by simp⟩
  | cons b bs ih =>
      obtain ⟨hb, hbs⟩ := bytesAt_cons.mp hbs
      rw [List.mem_cons, not_or] at hc
      rw [List.length_cons] at hroom
      have hnext : (m.edi + 1#32).toNat = m.edi.toNat + 1 := by bv_omega
      have hscasb := scasb_eq (m := m) (by omega) hdir
      rw [hb] at hscasb
      obtain ⟨f, hf, hrest⟩ := ih
        (m := { m with
          flags := (subb (byteOf m.eax 0) b).2
          edi := m.edi + 1#32
          ecx := m.ecx - 1#32 })
        (by simpa [hnext, Nat.add_assoc] using hbs) hc.2 (by simp only [hnext]; omega) hdir
      refine ⟨f, fun hz => ?_, ?_⟩
      · have hzero := (hf hz).2
        exact absurd (of_decide_eq_true hzero) hc.1
      · rw [List.length_cons, Nat.add_right_comm, scasbTimes, hscasb, Option.bind_some, if_neg,
          hrest]
        · simp only [BitVec.ofNat_add, BitVec.add_assoc, BitVec.sub_sub, BitVec.add_comm 1#32]
        · simpa using hc.1

/-- `repne scasb` stops behind the byte in `al`. -/
theorem scasbTimes_of_eq (hb : m.memory (m.linear .es m.edi) = byteOf m.eax 0)
    (hroom : m.edi.toNat < 65536) (hdir : m.direction = false) (n : Nat) :
    ∃ f : Flags, f.zero = true ∧ m.scasbTimes (n + 1) = some { m with
      flags := f
      edi := m.edi + 1#32
      ecx := m.ecx - 1#32 } := by
  have hzero : (subb (byteOf m.eax 0) (m.memory (m.linear .es m.edi))).2.zero = true :=
    decide_eq_true hb.symm
  refine ⟨_, hzero, ?_⟩
  rw [scasbTimes, scasb_eq hroom hdir, Option.bind_some, if_pos hzero]

end Machine

end I386

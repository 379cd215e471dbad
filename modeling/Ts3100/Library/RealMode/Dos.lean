import Ts3100.Library.RealMode.Unreal

/-! # Programs and DOS

The functions of interrupt 21h that create, write and close files and end a program. DOS is behind the
interrupt: it decides what it answers. What a program does is the list of its requests.

* `DosRequest` — a request, with the bytes that it designates in the program's memory.
* `Dos` — the answers, with what DOS keeps: the registers but `ax` and the flags, the segments with
  their descriptors, the program's stack, and the memory of a range `rom`.
* `asciiz_eq`, `take_asciiz` — the name that a request designates. -/

namespace Unreal

open I386 (byteOf setLow)
open RealMode (Word Flags)

universe v

/-- The requests to DOS. -/
inductive DosRequest
  | create (name : List (BitVec 8)) (attributes : Word)
  | close (handle : Word)
  | write (handle : Word) (bytes : List (BitVec 8))
  | exit (code : BitVec 8)
  deriving DecidableEq, Repr

/-- A request ends the program. -/
def DosRequest.ends : DosRequest → Bool
  | .exit _ => true
  | _ => false

/-- The bytes that a request writes to a file. -/
def DosRequest.bytesTo (handle : Word) : DosRequest → List (BitVec 8)
  | .write h bytes => if h = handle then bytes else []
  | _ => []

/-- The bytes at `a` up to a zero, of at most `n`. -/
def asciiz (mem : Nat → BitVec 8) : Nat → Nat → List (BitVec 8)
  | 0, _ => []
  | n + 1, a => if mem a = 0#8 then [] else mem a :: asciiz mem n (a + 1)

/-- The request that the registers make. -/
def Machine.dosRequest (m : Machine) : Option DosRequest :=
  let dx := (m.get16 .edx).toNat
  match (m.get8 .ah).toNat with
  | 0x3C => some (.create (asciiz m.memory (0x10000 - dx) (m.ds.base + dx)) (m.get16 .ecx))
  | 0x3E => some (.close (m.get16 .ebx))
  | 0x40 => some (.write (m.get16 .ebx)
      ((List.range (m.get16 .ecx).toNat).map fun i => m.memory (m.ds.base + dx + i)))
  | 0x4C => some (.exit (m.get8 .al))
  | _ => none

section requests

variable {m : Machine}

/-- Function 3Ch creates a file. -/
theorem dosRequest_create (h : m.get8 .ah = 0x3C#8) : m.dosRequest =
    some (.create (asciiz m.memory (0x10000 - (m.get16 .edx).toNat)
      (m.ds.base + (m.get16 .edx).toNat)) (m.get16 .ecx)) := by
  rw [Machine.dosRequest, h]
  rfl

/-- Function 40h writes to a handle. -/
theorem dosRequest_write (h : m.get8 .ah = 0x40#8) : m.dosRequest =
    some (.write (m.get16 .ebx) ((List.range (m.get16 .ecx).toNat).map fun i =>
      m.memory (m.ds.base + (m.get16 .edx).toNat + i))) := by
  rw [Machine.dosRequest, h]
  rfl

/-- Function 4Ch ends the program. -/
theorem dosRequest_exit (h : m.get8 .ah = 0x4C#8) :
    m.dosRequest = some (.exit (m.get8 .al)) := by
  rw [Machine.dosRequest, h]
  rfl

end requests

/-- What DOS does with each request, given the requests up to it: its answer in `ax`, and the flags and
the memory that it leaves. -/
structure Dos (rom : Nat → Prop) where
  answer : List DosRequest → Word
  flags : List DosRequest → Flags
  memory : List DosRequest → Machine → Nat → BitVec 8
  keeps : ∀ log m a, rom a ∨ (m.ss.base + (m.get16 .esp).toNat ≤ a ∧ a < m.ss.base + 0x10000) →
    memory log m a = m.memory a

namespace Dos

variable {rom : Nat → Prop} (dos : Dos rom)

/-- The machine to which DOS returns. -/
def back (log : List DosRequest) (m : Machine) : Machine :=
  { m with
    eax := setLow m.eax (dos.answer log)
    flags := dos.flags log
    memory := dos.memory log m }

/-- Interrupt 21h. -/
def services : Services (List DosRequest) := fun n m log =>
  if n = 0x21#8 then
    m.dosRequest.map fun r =>
      if r.ends then .ended (log ++ [r]) else .back (dos.back (log ++ [r]) m) (log ++ [r])
  else none

variable {dos} {m : Machine} {log : List DosRequest} {r : DosRequest} {L : Type v}

/-- A request from which DOS returns. -/
theorem exec_int (hreal : m.protectedMode = false) (hr : m.dosRequest = some r)
    (hends : r.ends = false) : (Instr.int 0x21#8 : Instr L).exec dos.services m log =
      .next (dos.back (log ++ [r]) m) (log ++ [r]) := by
  simp [hreal, services, hr, hends]

/-- A request that ends the program. -/
theorem exec_int_ends (hreal : m.protectedMode = false) (hr : m.dosRequest = some r)
    (hends : r.ends = true) : (Instr.int 0x21#8 : Instr L).exec dos.services m log =
      .ended (log ++ [r]) := by
  simp [hreal, services, hr, hends]

variable {p : Program L} {l : L} {is js : List (Instr L)} {m' : Machine}

/-- A block goes on after a request. -/
theorem execBlock_request (h : execAll dos.services is m log = some (m', log))
    (hreal : m'.protectedMode = false) (hr : m'.dosRequest = some r) (hends : r.ends = false) :
    p.execBlock dos.services l (is ++ .int 0x21#8 :: js) m log =
      p.execBlock dos.services l js (dos.back (log ++ [r]) m') (log ++ [r]) := by
  rw [Program.execBlock_append h, Program.execBlock, exec_int hreal hr hends]

/-- A block ends with the request that ends the program. -/
theorem execBlock_end (h : execAll dos.services is m log = some (m', log))
    (hreal : m'.protectedMode = false) (hr : m'.dosRequest = some r) (hends : r.ends = true) :
    p.execBlock dos.services l (is ++ .int 0x21#8 :: js) m log = .ended (log ++ [r]) := by
  rw [Program.execBlock_append h, Program.execBlock, exec_int_ends hreal hr hends]

end Dos

/-! ## Names -/

section names

variable {mem : Nat → BitVec 8}

/-- A text that is followed by a zero. -/
theorem asciiz_eq {text : List (BitVec 8)} {n a : Nat} (hlen : text.length < n)
    (htext : ∀ i (hi : i < text.length), mem (a + i) = text[i]) (hend : mem (a + text.length) = 0#8)
    (hnonzero : 0#8 ∉ text) : asciiz mem n a = text := by
  induction text generalizing n a with
  | nil =>
      obtain ⟨k, rfl⟩ : ∃ k, n = k + 1 := ⟨n - 1, by simp at hlen; omega⟩
      exact if_pos hend
  | cons b text ih =>
      obtain ⟨k, rfl⟩ : ∃ k, n = k + 1 := ⟨n - 1, by simp at hlen; omega⟩
      have hb : mem a = b := htext 0 (by simp)
      have hb0 : b ≠ 0#8 := fun h => hnonzero (h ▸ List.mem_cons_self)
      rw [List.length_cons] at hlen hend
      have htail : asciiz mem k (a + 1) = text := by
        refine ih (by omega) (fun i hi => ?_) ?_ fun h => hnonzero (List.mem_cons_of_mem b h)
        · have h := htext (i + 1) (by rw [List.length_cons]; omega)
          rw [List.getElem_cons_succ] at h
          rw [← h]
          congr 1
          omega
        · rw [← hend]
          congr 1
          omega
      rw [asciiz, if_neg (hb ▸ hb0), hb, htail]

/-- The first `k` bytes decide where a name ends within them. -/
theorem take_asciiz {k n : Nat} (hk : k ≤ n) (a : Nat) :
    (asciiz mem n a).take k = ((List.range k).map fun i => mem (a + i)).takeWhile (· != 0#8) := by
  induction k generalizing n a with
  | zero => simp
  | succ k ih =>
      obtain ⟨j, rfl⟩ : ∃ j, n = j + 1 := ⟨n - 1, by omega⟩
      have htail := ih (n := j) (by omega) (a + 1)
      simp only [Nat.add_right_comm a 1] at htail
      rw [asciiz, List.range_succ_eq_map, List.map_cons, List.map_map, Nat.add_zero]
      by_cases hzero : mem a = 0#8
      · simp [hzero]
      · rw [if_neg hzero, List.take_succ_cons, htail, List.takeWhile_cons_of_pos (by simpa using hzero)]
        rfl

end names

end Unreal

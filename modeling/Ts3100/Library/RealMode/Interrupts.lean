import Ts3100.Library.RealMode.Machine

/-! # Interrupt frames

An interrupt pushes the flags, `cs` and `ip`. A handler returns with the flags of that frame (`iret`),
or drops them and returns with its own (`retf 2`).

* `Machine.InterruptFrame` — what is on top of the stack of a handler that starts.
* `Machine.interruptReturn` — the machine a handler returns with; it differs from the one before only
  in `sp`, `cs` and the flags (`interruptReturn_eq`). -/

namespace RealMode

open Bus

universe u

variable {β : Type u}

/-- How a handler returns from an interrupt. -/
inductive InterruptReturn
  | iret
  | retf2
  deriving DecidableEq, Repr

namespace Machine

/-- The machine with its flags as in a word pushed by an interrupt. -/
def withFlags (m : Machine β) (w : Word) : Machine β :=
  { m with
    flags := ⟨w.getLsbD 0, w.getLsbD 6, w.getLsbD 7, w.getLsbD 11⟩
    direction := w.getLsbD 10
    interrupt := w.getLsbD 9 }

variable [Bus β]

/-- The three words an interrupt leaves on top of the stack. -/
structure InterruptFrame (m : Machine β) (ip cs flags : Word) : Prop where
  ip : readWord m.bus m.ss m.sp = ip
  cs : readWord m.bus m.ss (m.sp + 2#16) = cs
  flags : readWord m.bus m.ss (m.sp + 4#16) = flags

/-- The return from an interrupt: where it leads, and the machine there. -/
def interruptReturn (m : Machine β) : InterruptReturn → Word × Machine β
  | .iret => (m.top, { m.drop 6#16 with
      cs := readWord m.bus m.ss (m.sp + 2#16) }.withFlags (readWord m.bus m.ss (m.sp + 4#16)))
  | .retf2 => (m.top, { m.drop 6#16 with cs := readWord m.bus m.ss (m.sp + 2#16) })

/-- Either return drops the frame and goes where it says. -/
theorem interruptReturn_eq (m : Machine β) (kind : InterruptReturn) :
    ∃ f d i, m.interruptReturn kind = (readWord m.bus m.ss m.sp, { m with
      sp := m.sp + 6#16
      cs := readWord m.bus m.ss (m.sp + 2#16)
      flags := f
      direction := d
      interrupt := i }) := by
  cases kind with
  | iret => exact ⟨_, _, _, rfl⟩
  | retf2 => exact ⟨_, _, _, rfl⟩

end Machine

end RealMode

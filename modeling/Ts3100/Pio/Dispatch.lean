import Ts3100.Disk.Host
import Ts3100.Kvm.MemorySlots
import Ts3100.Pio.AddressRange
import Ts3100.Pio.Devices

/-! # Dispatching port exits

A `KVM_EXIT_IO` goes to the device in `pioDeviceTable` whose range contains the port, else to the
handler in `ioHandlerTable`, else to `handlerUnhandled`. `handleIo` is that part of the main loop.

* `find?_eq_lookup` — however a table's map is balanced, it finds what a search of the list of its
  entries finds; so the maps that `main` builds give the target of the two lists
  (`DispatchMaps.ofMaps_eq`). -/

namespace Ts3100

/-- What the guest reaches through I/O ports; the hex display keeps no state. -/
structure PioSystem where
  prescaler : ClockPrescaler := {}
  com : Fin 4 → Serial16450 := fun _ => {}
  csus : Fin 8 → ChipSelectUnit
  rtc : DS12887
  /-- the `register_` of `handlerTimerConfiguration` -/
  timerConfiguration : Byte := 0#8
  a20register : Byte := 2#8
  disk : DiskRegisters := {}

/-- The system when the emulator starts, with the contents of the clock's memory. -/
def PioSystem.init (ram : Fin 114 → Byte) : PioSystem where
  csus i :=
    if i = 7 then
      -- the constructor's order is address high and low, then mask high and low
      { addressHighRegister := 0xFFFF#16, addressLowRegister := 0xFF6F#16,
        addressMaskHighRegister := 0xFFFF#16, addressMaskLowRegister := 0xFFFF#16 }
    else
      {}
  rtc := { ram }

/-! ## Devices -/

/-- The devices of `pioDeviceTable`. -/
inductive PioDevice where
  | prescaler
  | com (i : Fin 4)
  | hexDisplay
  | csu (i : Fin 8)
  | rtc
  deriving DecidableEq, Repr

/-- The accessors of a device on the whole system, at the time `tm`. -/
def PioDevice.pio (tm : CalendarTime) : PioDevice → DevicePio PioSystem
  | .prescaler => ClockPrescaler.pio.lift (·.prescaler) fun s d => { s with prescaler := d }
  | .com i => Serial16450.pio.lift (·.com i) fun s d =>
      { s with com := Function.update s.com i d }
  | .hexDisplay => HexDisplay.pio.lift (fun _ => ()) fun s _ => s
  | .csu i => ChipSelectUnit.pio.lift (·.csus i) fun s d =>
      { s with csus := Function.update s.csus i d }
  | .rtc => (DS12887.pio tm).lift (·.rtc) fun s d => { s with rtc := d }

/-! ## Handlers -/

/-- The handlers of `ioHandlerTable`, and `handlerUnhandled`. -/
inductive IoHandler where
  | keyboard
  | lcd
  | productCode
  | optionCode
  | jumperRegister
  | postCode
  | a20Gate
  | manufacturerSpecific
  | diskRegisters
  | timerConfiguration
  | port1Pin
  | port3Pin
  | unhandled
  deriving DecidableEq, Repr

section handlers

variable (s : PioSystem) (isWrite : Bool) (addr : BitVec 16) (data : List Byte)
  (length count : Nat)

/-- A handler of single bytes: `assert(length == 1); assert(count == 1)`, and on a read the byte
`value`, if there is one, is put in the buffer. -/
def oneByteHandler (value : Option Byte) (written : PioSystem) :
    Except PioFault (PioSystem × List Byte) :=
  if length = 1 ∧ count = 1 then
    .ok (if isWrite then (written, data) else (s, (value.map (data.set 0)).getD data))
  else
    .error .assertionFailed

/-- `handlerTimerConfiguration`. -/
def handlerTimerConfiguration : Except PioFault (PioSystem × List Byte) :=
  oneByteHandler s isWrite data length count (some s.timerConfiguration)
    { s with timerConfiguration := data.getD 0 0#8 }

/-- `handlerPOSTCode`; a read leaves the buffer as it is. -/
def handlerPOSTCode : Except PioFault (PioSystem × List Byte) :=
  oneByteHandler s isWrite data length count none s

/-- `handlerKeyboard`. -/
def handlerKeyboard : Except PioFault (PioSystem × List Byte) :=
  .ok (s, if isWrite then data else data.set 0 0#8)

/-- `handlerUnhandled`. -/
def handlerUnhandled : Except PioFault (PioSystem × List Byte) :=
  if isWrite ∧ count = 1 then
    .ok (s, data)
  else
    -- memset(data, 0, length)
    .ok (s, List.replicate length 0#8 ++ data.drop length)

/-- `handlerLCD`. -/
def handlerLCD : Except PioFault (PioSystem × List Byte) := .ok (s, data)

/-- `handlerProductCode`. -/
def handlerProductCode : Except PioFault (PioSystem × List Byte) :=
  oneByteHandler s isWrite data length count (some 0x01#8) s

/-- `handlerOptionCode`. -/
def handlerOptionCode : Except PioFault (PioSystem × List Byte) :=
  oneByteHandler s isWrite data length count (some 0x00#8) s

/-- `handlerJumperRegister`. -/
def handlerJumperRegister : Except PioFault (PioSystem × List Byte) :=
  oneByteHandler s isWrite data length count (some 0x02#8) s

/-- `handlerManufacturerSpecific`. -/
def handlerManufacturerSpecific : Except PioFault (PioSystem × List Byte) :=
  oneByteHandler s isWrite data length count (some 0x00#8) s

/-- `handlerA20Gate`. -/
def handlerA20Gate : Except PioFault (PioSystem × List Byte) :=
  oneByteHandler s isWrite data length count (some s.a20register)
    { s with a20register := data.getD 0 0#8 }

/-- `handlerPort1Pin`. -/
def handlerPort1Pin : Except PioFault (PioSystem × List Byte) :=
  oneByteHandler s isWrite data length count (some 0x80#8) s

/-- `handlerPort3Pin`. -/
def handlerPort3Pin : Except PioFault (PioSystem × List Byte) :=
  oneByteHandler s isWrite data length count (some 0x04#8) s

/-- `handlerDiskRegisters` on the system. -/
def handleDiskRegisters : Except PioFault (PioSystem × List Byte) :=
  match handlerDiskRegisters isWrite addr data count s.disk with
  | .ok (disk, data) => .ok ({ s with disk }, data)
  | .error .assertionFailed => .error .assertionFailed
  | .error .copyOutOfBounds => .error .copyOutOfBounds

/-- The handler called. -/
def IoHandler.handle (h : IoHandler) : Except PioFault (PioSystem × List Byte) :=
  match h with
  | .keyboard => handlerKeyboard s isWrite data
  | .lcd => handlerLCD s data
  | .productCode => handlerProductCode s isWrite data length count
  | .optionCode => handlerOptionCode s isWrite data length count
  | .jumperRegister => handlerJumperRegister s isWrite data length count
  | .postCode => handlerPOSTCode s isWrite data length count
  | .a20Gate => handlerA20Gate s isWrite data length count
  | .manufacturerSpecific => handlerManufacturerSpecific s isWrite data length count
  | .diskRegisters => handleDiskRegisters s isWrite addr data count
  | .timerConfiguration => handlerTimerConfiguration s isWrite data length count
  | .port1Pin => handlerPort1Pin s isWrite data length count
  | .port3Pin => handlerPort3Pin s isWrite data length count
  | .unhandled => handlerUnhandled s isWrite data length count

end handlers

/-! ## The two tables -/

/-- A range of up to eight ports. -/
def PortRange.ofPorts (start : BitVec 16) (length : Nat) (hpos : 1 ≤ length) (hle : length ≤ 8) :
    PortRange where
  start := start.setWidth 64
  length := BitVec.ofNat 64 length
  length_pos := by
    rw [BitVec.toNat_ofNat, Nat.mod_eq_of_lt (by omega)]
    exact hpos
  last_lt := by
    have hstart := start.isLt
    rw [BitVec.toNat_setWidth, BitVec.toNat_ofNat, Nat.mod_eq_of_lt (by omega),
      Nat.mod_eq_of_lt (by omega)]
    omega

/-- `pioDeviceTable`, in the order of the calls of `emplace`. -/
def pioDeviceTable : List (PortRange × PioDevice) :=
  [(.ofPorts 0xF804#16 2 (by decide) (by decide), .prescaler),
    (.ofPorts 0x03f8#16 8 (by decide) (by decide), .com 0),
    (.ofPorts 0x02f8#16 8 (by decide) (by decide), .com 1),
    (.ofPorts 0x03e8#16 8 (by decide) (by decide), .com 2),
    (.ofPorts 0x02e8#16 8 (by decide) (by decide), .com 3),
    (.ofPorts 0xe000#16 8 (by decide) (by decide), .hexDisplay)] ++
  (List.finRange 8).map (fun i =>
    (.ofPorts (0xF400#16 + 8#16 * BitVec.ofNat 16 i) 8 (by decide) (by decide), .csu i)) ++
  [(.ofPorts 0x70#16 2 (by decide) (by decide), .rtc)]

/-- `ioHandlerTable` (`VIRTUAL_DISK` build), in the order of its initializer. -/
def ioHandlerTable : List (PortRange × IoHandler) :=
  [(.ofPorts 0x60#16 5 (by decide) (by decide), .keyboard),
    (.ofPorts 0x72#16 2 (by decide) (by decide), .lcd),
    (.ofPorts 0x74#16 1 (by decide) (by decide), .productCode),
    (.ofPorts 0x75#16 1 (by decide) (by decide), .optionCode),
    (.ofPorts 0x77#16 1 (by decide) (by decide), .jumperRegister),
    (.ofPorts 0x80#16 1 (by decide) (by decide), .postCode),
    (.ofPorts 0x92#16 1 (by decide) (by decide), .a20Gate),
    (.ofPorts 0x198#16 8 (by decide) (by decide), .manufacturerSpecific),
    (.ofPorts 0xD000#16 8 (by decide) (by decide), .diskRegisters),
    (.ofPorts 0xF834#16 1 (by decide) (by decide), .timerConfiguration),
    (.ofPorts 0xF860#16 1 (by decide) (by decide), .port1Pin),
    (.ofPorts 0xF870#16 1 (by decide) (by decide), .port3Pin)]

/-- The entry of a table whose range contains a port. -/
def lookup {V : Type} (table : List (PortRange × V)) (port : BitVec 16) : Option V :=
  (table.find? fun e => e.1.Contains port.toNat).map Prod.snd

/-- The ranges of a table are disjoint. -/
def DisjointRanges {V : Type} (table : List (PortRange × V)) : Prop :=
  table.Pairwise fun a b => PortRange.Less a.1 b.1 ∨ PortRange.Less b.1 a.1

instance {V : Type} (table : List (PortRange × V)) : Decidable (DisjointRanges table) :=
  inferInstanceAs (Decidable (List.Pairwise _ _))

/-- The devices' ranges are disjoint. -/
theorem disjointRanges_pioDeviceTable : DisjointRanges pioDeviceTable := by decide

/-- The handlers' ranges are disjoint. -/
theorem disjointRanges_ioHandlerTable : DisjointRanges ioHandlerTable := by decide

section lookup

open SearchTree (Built)

variable {V : Type} {table : List (PortRange × V)} {tree : SearchTree PortRange V}
  {history : List ((PortRange × V) × Bool)}

/-- Disjoint ranges are all accepted. -/
theorem accepted_of_disjointRanges (hbuilt : Built PortRange.Less history tree)
    (hdisjoint : DisjointRanges (history.map Prod.fst)) : ∀ e ∈ history, e.2 = true := by
  induction hbuilt with
  | empty => simp
  | accepted _ _ _ ih =>
      rw [List.map_cons, DisjointRanges, List.pairwise_cons] at hdisjoint
      exact List.forall_mem_cons.mpr ⟨rfl, ih hdisjoint.2⟩
  | @refused history t k v before refused ih =>
      rw [List.map_cons, DisjointRanges, List.pairwise_cons] at hdisjoint
      obtain ⟨e, he, hshares⟩ := (emplace_eq_none_iff_shares before k v).mp refused
      have hmem := List.mem_map_of_mem (f := Prod.fst) ((before.mem_toList e).mp he)
      have hnone := PortRange.shares_iff.mp hshares
      rcases hdisjoint.1 e hmem with h | h
      · exact absurd h hnone.2
      · exact absurd h hnone.1

/-- **The map of a table finds what the list of its entries holds**, however it is balanced. -/
theorem find?_eq_lookup (hbuilt : Built PortRange.Less history tree)
    (hentries : history.map Prod.fst = table.reverse) (hdisjoint : DisjointRanges table)
    (port : BitVec 16) :
    (tree.find? PortRange.Less (.ofAddress (port.setWidth 64))).map Prod.snd =
      lookup table port := by
  -- ranges apart from one another are all accepted, whatever their order
  have hreverse : DisjointRanges (history.map Prod.fst) := by
    rw [hentries, DisjointRanges, List.pairwise_reverse]
    exact hdisjoint.imp Or.symm
  have hmem : ∀ e, e ∈ tree.toList ↔ e ∈ table := by
    intro e
    rw [hbuilt.mem_toList, ← @List.mem_reverse _ e table, ← hentries, List.mem_map]
    constructor
    · exact fun he => ⟨_, he, rfl⟩
    · rintro ⟨⟨e', accepted⟩, he, rfl⟩
      have haccepted := accepted_of_disjointRanges hbuilt hreverse _ he
      exact (show accepted = true from haccepted) ▸ he
  have hport : (port.setWidth 64).toNat = port.toNat := by
    rw [BitVec.toNat_setWidth, Nat.mod_eq_of_lt (by omega)]
  unfold lookup
  congr 1
  cases hfind : table.find? fun e => e.1.Contains port.toNat with
  | some e =>
      have hcontains := List.find?_some hfind
      rw [find?_eq_some_iff_contains hbuilt, hport]
      exact ⟨(hmem e).mpr (List.mem_of_find?_eq_some hfind), by simpa using hcontains⟩
  | none =>
      rw [List.find?_eq_none] at hfind
      cases htree : tree.find? PortRange.Less (.ofAddress (port.setWidth 64)) with
      | none => rfl
      | some e =>
          rw [find?_eq_some_iff_contains hbuilt, hport] at htree
          exact absurd (by simpa using htree.2) (hfind e ((hmem e).mp htree.1))

end lookup

/-! ## Dispatch -/

/-- What a port selects. -/
inductive PioTarget where
  | device (d : PioDevice)
  | handler (h : IoHandler)
  deriving DecidableEq, Repr

/-- The target of a port: devices come before handlers. -/
def PioTarget.ofPort (port : BitVec 16) : PioTarget :=
  match lookup pioDeviceTable port with
  | some d => .device d
  | none => .handler ((lookup ioHandlerTable port).getD .unhandled)

/-- `pioDeviceTable` and `ioHandlerTable` as maps: what the insertions of their entries build. -/
structure DispatchMaps (devices : SearchTree PortRange PioDevice)
    (handlers : SearchTree PortRange IoHandler) : Prop where
  devices : ∃ history, SearchTree.Built PortRange.Less history devices ∧
    history.map Prod.fst = pioDeviceTable.reverse
  handlers : ∃ history, SearchTree.Built PortRange.Less history handlers ∧
    history.map Prod.fst = ioHandlerTable.reverse

/-- The target of a port in the maps. -/
def PioTarget.ofMaps (devices : SearchTree PortRange PioDevice)
    (handlers : SearchTree PortRange IoHandler) (port : BitVec 16) : PioTarget :=
  match (devices.find? PortRange.Less (.ofAddress (port.setWidth 64))).map Prod.snd with
  | some d => .device d
  | none => .handler (((handlers.find? PortRange.Less (.ofAddress (port.setWidth 64))).map
      Prod.snd).getD .unhandled)

/-- The maps find the targets of the tables. -/
theorem DispatchMaps.ofMaps_eq {devices : SearchTree PortRange PioDevice}
    {handlers : SearchTree PortRange IoHandler} (hmaps : DispatchMaps devices handlers)
    (port : BitVec 16) : PioTarget.ofMaps devices handlers port = PioTarget.ofPort port := by
  obtain ⟨⟨_, hdevices, hdeviceTable⟩, _, hhandlers, hhandlerTable⟩ := hmaps
  rw [PioTarget.ofMaps, PioTarget.ofPort,
    find?_eq_lookup hdevices hdeviceTable disjointRanges_pioDeviceTable,
    find?_eq_lookup hhandlers hhandlerTable disjointRanges_ioHandlerTable]

/-- There are such maps. -/
theorem exists_dispatchMaps : ∃ devices handlers, DispatchMaps devices handlers := by
  obtain ⟨_, devices, hdevices, hdeviceTable⟩ :=
    SearchTree.exists_built PortRange.Less pioDeviceTable.reverse
  obtain ⟨_, handlers, hhandlers, hhandlerTable⟩ :=
    SearchTree.exists_built PortRange.Less ioHandlerTable.reverse
  exact ⟨devices, handlers, ⟨_, hdevices, hdeviceTable⟩, _, hhandlers, hhandlerTable⟩

/-- The dispatch of a `KVM_EXIT_IO`: the system after it and the bytes left in the exit's buffer. -/
def handleIo (tm : CalendarTime) (s : PioSystem) (isWrite : Bool) (port : BitVec 16)
    (data : List Byte) (size count : Nat) : Except PioFault (PioSystem × List Byte) :=
  match PioTarget.ofPort port with
  | .device d =>
      -- assert(vcpuRun->io.count == 1)
      if count = 1 then
        (d.pio tm).performKVMExitOperation s isWrite port data size
      else
        .error .assertionFailed
  | .handler h => h.handle s isWrite port data size count

/-- A `KVM_EXIT_IO`: `count` elements of 1, 2 or 4 bytes. -/
structure IoExit where
  isWrite : Bool
  port : BitVec 16
  size : Nat
  count : Nat
  data : List Byte
  size_mem : size = 1 ∨ size = 2 ∨ size = 4
  count_pos : 1 ≤ count
  length_data : data.length = size * count

/-- An access of one byte. -/
def IoExit.byte (isWrite : Bool) (port : BitVec 16) (value : Byte) : IoExit :=
  ⟨isWrite, port, 1, 1, [value], Or.inl rfl, le_rfl, rfl⟩

/-- An access of a word. -/
def IoExit.word (isWrite : Bool) (port : BitVec 16) (data : List Byte) (hdata : data.length = 2) :
    IoExit :=
  ⟨isWrite, port, 2, 1, data, Or.inr (Or.inl rfl), le_rfl, hdata⟩

/-- The dispatch of an exit. -/
def IoExit.dispatch (exit : IoExit) (tm : CalendarTime) (s : PioSystem) :
    Except PioFault (PioSystem × List Byte) :=
  handleIo tm s exit.isWrite exit.port exit.data exit.size exit.count

end Ts3100

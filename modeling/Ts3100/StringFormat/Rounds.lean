import Ts3100.StringFormat.Conversions

/-! # Rounds of fprintf

What one round of the loop of `fprintf` preserves. `InRound` holds wherever a round is; `AtNext`,
`AtEos`, `AtToken` and `AtPrint` hold at the blocks of a round, and each is carried to the next. -/

namespace Ts3100

namespace StringFormat

open I386
open RealMode (Word Flags fill word)

variable {m₀ m : Machine Files} {format rest literal : List (Byte × Byte)} {done : List Piece} {k : Nat}

/-! ## Calls -/

/-- `fprintf` is called with a format: `es` is the stack's segment, there are 28 bytes of stack, which
hold neither the format nor an argument nor a table, and the return address is not `.print`. -/
structure Call (m : Machine Files) (format : List (Byte × Byte)) : Prop where
  es_ss : m.es = m.ss
  stack : 28 ≤ m.esp.toNat ∧ m.esp.toNat + 2 ≤ 65536
  length : m.ecx.toNat = format.length
  room : m.edi.toNat + format.length ≤ 65536
  found : BytesAt m.memory (m.es.toNat * 16 + m.edi.toNat) (format.map Prod.fst)
  read : BytesAt m.memory (m.ds.toNat * 16 + m.edi.toNat) (format.map Prod.snd)
  arguments : consumed (parse format) ≤ m.ebp.toNat ∧ m.ebp.toNat ≤ 65536
  divisors : HasDivisors m.memory (m.ds.toNat * 16)
  hexDigits : HasHexDigits m.memory (m.ds.toNat * 16)
  returns : read16 m.memory (m.ss.toNat * 16 + m.esp.toNat) ≠ printOffset
  found_stack : Apart (m.es.toNat * 16 + m.edi.toNat) format.length
    (m.ss.toNat * 16 + m.esp.toNat - 28) 28
  read_stack : Apart (m.ds.toNat * 16 + m.edi.toNat) format.length
    (m.ss.toNat * 16 + m.esp.toNat - 28) 28
  arguments_stack : Apart (m.ss.toNat * 16 + m.ebp.toNat - consumed (parse format))
    (consumed (parse format)) (m.ss.toNat * 16 + m.esp.toNat - 28) 28
  tables_stack : Apart (m.ds.toNat * 16 + 0x194) 52 (m.ss.toNat * 16 + m.esp.toNat - 28) 28

/-- The argument of a width at a distance from the end of the argument block. -/
def argumentAt (m : Machine Files) (k : Nat) (w : Width) : Dword :=
  argument m.memory (m.ss.toNat * 16 + m.ebp.toNat - k) w

/-- The window of a call. -/
def windowOf (m : Machine Files) : Dword := m.esp - 14#32

/-- A piece fits the window. -/
def Piece.Fits (p : Piece) : Prop := p.bytes.length ≤ 10

/-- What is written comes from where it is: `ds` is `es`, and no unknown token is dropped with `ebp` at
zero, which would set the zero flag before the next search. -/
def Clean (m : Machine Files) (ps : List Piece) : Prop :=
  m.ds = m.es ∧ ∀ k, Piece.skipped k ∈ ps → k ≠ m.ebp.toNat

/-- The files after the bytes of pieces are appended. -/
def written (m : Machine Files) (ps : List Piece) : Files :=
  m.world.append (m.ebx.setWidth 16) (ps.flatMap Piece.bytes)

/-! ## Inside a round -/

/-- What holds of the machine `m` wherever a round is, with `rest` of the format left to read, `done`
done, and `k` bytes of the argument block used. -/
structure InRound (m₀ : Machine Files) (format rest : List (Byte × Byte)) (done : List Piece) (k : Nat)
    (m : Machine Files) : Prop where
  direction : m.direction = false
  ds : m.ds = m₀.ds
  es : m.es = m₀.es
  ss : m.ss = m₀.ss
  ebx : m.ebx = m₀.ebx
  ebp : m.ebp = m₀.ebp - BitVec.ofNat 32 k
  start : m₀.edi.toNat ≤ m.esi.toNat
  position : m.esi.toNat + rest.length = m₀.edi.toNat + format.length
  found : BytesAt m₀.memory (m₀.es.toNat * 16 + m.esi.toNat) (rest.map Prod.fst)
  read : BytesAt m₀.memory (m₀.ds.toNat * 16 + m.esi.toNat) (rest.map Prod.snd)
  frame : ∀ x, ¬ (m₀.ss.toNat * 16 + m₀.esp.toNat - 28 ≤ x ∧ x < m₀.ss.toNat * 16 + m₀.esp.toNat) →
    m.memory x = m₀.memory x
  saved : (∀ p ∈ done, p.Fits) → read32 m.memory (m₀.ss.toNat * 16 + m₀.esp.toNat - 4) = m₀.ebp
  stored : m.stored = m₀.stored ++ done.flatMap (Piece.stores (windowOf m₀))

/-- The machine at `.next`. -/
structure AtNext (m₀ : Machine Files) (format rest : List (Byte × Byte)) (done : List Piece) (k : Nat)
    (m : Machine Files) : Prop extends InRound m₀ format rest done k m where
  used : k + consumed (parse rest) = consumed (parse format)
  esp : m.esp = windowOf m₀
  ecx : m.ecx.toNat = rest.length
  world : Clean m₀ done → m.world = written m₀ done ∧ m.flags.zero = false

/-- The machine where the code decides on the token `t`: the window is at `edx` and `edi`. -/
structure AtToken (m₀ : Machine Files) (format rest : List (Byte × Byte)) (done : List Piece) (k : Nat)
    (t : Word) (m : Machine Files) : Prop extends InRound m₀ format rest done k m where
  used : k + (Item.token t).slot + consumed (parse rest) = consumed (parse format)
  eax : m.eax.setWidth 16 = t
  edx : m.edx = windowOf m₀
  edi : m.edi = windowOf m₀
  esp : m.esp = windowOf m₀
  ecx : m.ecx.toNat = rest.length
  world : Clean m₀ done → m.world = written m₀ done

/-- The machine at `.print`, with a text in the window that is not yet written. -/
structure AtPrint (m₀ : Machine Files) (format rest : List (Byte × Byte)) (done : List Piece)
    (text : List Byte) (k : Nat) (m : Machine Files) : Prop
    extends InRound m₀ format rest (done ++ [.converted text]) k m where
  used : k + consumed (parse rest) = consumed (parse format)
  length : 0 < text.length ∧ text.length ≤ 11
  window : BytesAt m.memory (m₀.ss.toNat * 16 + (windowOf m₀).toNat) text
  edx : m.edx = windowOf m₀
  edi : m.edi = windowOf m₀ + BitVec.ofNat 32 text.length
  esp : m.esp = windowOf m₀ - 4#32
  pushed : (read32 m.memory (m₀.ss.toNat * 16 + m₀.esp.toNat - 18)).toNat = rest.length
  world : Clean m₀ done → m.world = written m₀ done

/-- The machine that a call returns with. -/
structure Finished (m₀ : Machine Files) (ps : List Piece) (ip : Word) (m : Machine Files) : Prop where
  ip : ip = read16 m₀.memory (m₀.ss.toNat * 16 + m₀.esp.toNat)
  esp : m.esp = addSp m₀.esp 2#16
  ebp : (∀ p ∈ ps, p.Fits) → m.ebp = m₀.ebp
  stored : m.stored = m₀.stored ++ ps.flatMap (Piece.stores (windowOf m₀))
  world : Clean m₀ ps → m.world = written m₀ ps

/-- Where the window is. -/
theorem toNat_windowOf (h : 28 ≤ m₀.esp.toNat) : (windowOf m₀).toNat = m₀.esp.toNat - 14 := by
  unfold windowOf
  bv_omega

/-- What comes before clean pieces' end is clean. -/
theorem Clean.of_append {ps qs : List Piece} (h : Clean m₀ (ps ++ qs)) : Clean m₀ ps :=
  ⟨h.1, fun k hk => h.2 k (List.mem_append_left _ hk)⟩

/-- Pieces are printed one after the other. -/
theorem written_append (ps qs : List Piece) :
    written m₀ (ps ++ qs) =
      (written m₀ ps).append (m₀.ebx.setWidth 16) (qs.flatMap Piece.bytes) := by
  rw [written, written, Files.append_append, List.flatMap_append]

namespace InRound

/-- What is left of the format is not in the stack. -/
theorem found_memory (h : InRound m₀ format rest done k m) (hcall : Call m₀ format) :
    BytesAt m.memory (m.es.toNat * 16 + m.esi.toNat) (rest.map Prod.fst) := by
  have hapart := hcall.found_stack
  have hstart := h.start
  have hposition := h.position
  unfold Apart at hapart
  rw [h.es]
  refine h.found.congr fun i hi => h.frame _ ?_
  rw [List.length_map] at hi
  omega

/-- The rest of the format is at `si`. -/
theorem read_memory (h : InRound m₀ format rest done k m) (hcall : Call m₀ format) :
    BytesAt m.memory (m.ds.toNat * 16 + m.esi.toNat) (rest.map Prod.snd) := by
  have hapart := hcall.read_stack
  have hstart := h.start
  have hposition := h.position
  unfold Apart at hapart
  rw [h.ds]
  refine h.read.congr fun i hi => h.frame _ ?_
  rw [List.length_map] at hi
  omega

/-- What is stored in the stack below the saved `ebp` changes nothing else. -/
theorem fill (h : InRound m₀ format rest done k m) {a n : Nat} (f : Nat → Byte)
    (hlow : m₀.ss.toNat * 16 + m₀.esp.toNat - 28 ≤ a)
    (hhigh : a + n ≤ m₀.ss.toNat * 16 + m₀.esp.toNat - 4) :
    InRound m₀ format rest done k { m with memory := fill m.memory a n f } :=
  { h with
    frame := fun x hx => (RealMode.fill_of_notMem (by omega)).trans (h.frame x hx)
    saved := fun hfits =>
      (read32_congr fun i hi => RealMode.fill_of_notMem (by omega)).trans (h.saved hfits) }

/-- A text stored in the window, with what is pushed below it. -/
theorem converted {m' : Machine Files} (h : InRound m₀ format rest done k m)
    (hcall : Call m₀ format) (text : List Byte) (hlength : text.length ≤ 11)
    (hdirection : m'.direction = m.direction)
    (hds : m'.ds = m.ds) (hes : m'.es = m.es) (hss : m'.ss = m.ss) (hebx : m'.ebx = m.ebx)
    (hebp : m'.ebp = m.ebp) (hesi : m'.esi = m.esi)
    (hstored : m'.stored = m.stored ++ offsets (windowOf m₀) text.length)
    (hframe : ∀ x, ¬ (m₀.ss.toNat * 16 + m₀.esp.toNat - 28 ≤ x ∧
      x < m₀.ss.toNat * 16 + m₀.esp.toNat - 14 + text.length) → m'.memory x = m.memory x) :
    InRound m₀ format rest (done ++ [.converted text]) k m' := by
  obtain ⟨hlow, hhigh⟩ := hcall.stack
  constructor
  case direction => exact hdirection.trans h.direction
  case ds => exact hds.trans h.ds
  case es => exact hes.trans h.es
  case ss => exact hss.trans h.ss
  case ebx => exact hebx.trans h.ebx
  case ebp => exact hebp.trans h.ebp
  case start => rw [hesi]; exact h.start
  case position => rw [hesi]; exact h.position
  case found => rw [hesi]; exact h.found
  case read => rw [hesi]; exact h.read
  case frame => exact fun x hx => (hframe x (by omega)).trans (h.frame x hx)
  case saved =>
    intro hfits
    rw [List.forall_mem_append, List.forall_mem_singleton] at hfits
    -- ten bytes end where the saved `ebp` begins; an eleventh is its lowest byte
    have hten : text.length ≤ 10 := hfits.2
    exact (read32_congr fun i hi => hframe _ (by omega)).trans (h.saved hfits.1)
  case stored =>
    rw [hstored, h.stored, List.flatMap_append, List.append_assoc]
    simp [Piece.stores]

/-- A piece that stores nothing. -/
theorem silent (h : InRound m₀ format rest done k m) (ps : List Piece)
    (hps : ps.flatMap (Piece.stores (windowOf m₀)) = []) :
    InRound m₀ format rest (done ++ ps) k m :=
  { h with
    saved := fun hfits => h.saved fun p hp => hfits p (List.mem_append_left _ hp)
    stored := by rw [List.flatMap_append, hps, List.append_nil, h.stored] }

end InRound


/-! ## Writing a text -/

variable {text : List Byte} {t : Word} {Q : Word → Machine Files → Prop}

/-- `.print` writes the window's text to the file, and goes on with the format. -/
theorem ensures_print (hcall : Call m₀ format) (h : AtPrint m₀ format rest done text k m)
    (hthen : ∀ m', AtNext m₀ format rest (done ++ [.converted text]) k m' →
      stringFormat.Ensures .next m' Q) :
    stringFormat.Ensures .print m Q := by
  obtain ⟨hlow, hhigh⟩ := hcall.stack
  have hwindow := toNat_windowOf hlow
  have hesp : m.esp.toNat = m₀.esp.toNat - 18 := by
    rw [h.esp]
    bv_omega
  obtain ⟨hpos, hlength⟩ := h.length
  have hread : m.ss.toNat * 16 + m.esp.toNat = m₀.ss.toNat * 16 + m₀.esp.toNat - 18 := by
    rw [h.ss, hesp]
    omega
  have hsub : m.edi - m.edx = BitVec.ofNat 32 text.length := by
    rw [h.edi, h.edx, BitVec.add_comm, BitVec.add_sub_cancel]
  have hcount : ((m.edi - m.edx).setWidth 16 : Word).toNat = text.length := by
    rw [hsub, BitVec.toNat_setWidth, BitVec.toNat_ofNat]
    omega
  refine Program.Ensures.goto (step_print (by omega)) (hthen _ ?_)
  refine { h.toInRound with
    used := h.used
    esp := ?_
    ecx := ?_
    world := fun hclean => ⟨?_, ?_⟩ }
  · change m.esp + 4#32 = _
    rw [h.esp, BitVec.sub_add_cancel]
  · change (read32 m.memory (m.ss.toNat * 16 + m.esp.toNat)).toNat = _
    rw [hread]
    exact h.pushed
  · change m.world.append (m.ebx.setWidth 16) (bytesFrom m.memory m.ds (m.edx.setWidth 16) _) = _
    -- DOS reads through `ds` what the conversion stored through `es`
    have hds : m.ds = m₀.ss := by rw [h.ds, hclean.1, hcall.es_ss]
    have hbytes : bytesFrom m.memory m.ds (m.edx.setWidth 16) text.length = text :=
      bytesFrom_eq (by rw [hds, h.edx]; exact h.window) (by rw [h.edx]; omega)
    rw [hcount, hbytes, h.world hclean.of_append, h.ebx, written_append]
    simp [Piece.bytes]
  · -- a text has a byte, so `sub edi, edx` leaves the zero flag clear
    refine decide_eq_false fun hzero => ?_
    rw [hzero, BitVec.sub_self] at hsub
    have hzero' := congrArg BitVec.toNat hsub
    rw [BitVec.toNat_ofNat, BitVec.toNat_ofNat] at hzero'
    omega

/-- The stack pointer at a token. -/
theorem AtToken.toNat_esp (h : AtToken m₀ format rest done k t m) (hcall : Call m₀ format) :
    m.esp.toNat = m₀.esp.toNat - 14 := by
  rw [h.esp, toNat_windowOf hcall.stack.1]

/-- The length that is pushed, read back. -/
theorem AtToken.pushed (h : AtToken m₀ format rest done k t m) (hcall : Call m₀ format) :
    (read32 (RealMode.fill m.memory (m.ss.toNat * 16 + m.esp.toNat - 4) 4 (byteOf m.ecx))
      (m₀.ss.toNat * 16 + m₀.esp.toNat - 18)).toNat = rest.length := by
  obtain ⟨hlow, hhigh⟩ := hcall.stack
  have haddress : m.ss.toNat * 16 + m.esp.toNat - 4 = m₀.ss.toNat * 16 + m₀.esp.toNat - 18 := by
    rw [h.ss, h.esp, toNat_windowOf hlow]
    omega
  rw [haddress, read32_fill, h.ecx]

/-- `%%%` writes a `%`. -/
theorem ensures_escape (hcall : Call m₀ format) (h : AtToken m₀ format rest done k t m)
    (htoken : conversionOf t = some .escape)
    (hthen : ∀ m', AtNext m₀ format rest (done ++ [.converted [percent]]) k m' →
      stringFormat.Ensures .next m' Q)
    {l : Label} {m₁ : Machine Files}
    (hstep : stringFormat.step l m₁ = stringFormat.execBlock .eos tokenCode m) :
    stringFormat.Ensures l m₁ Q := by
  obtain ⟨hlow, hhigh⟩ := hcall.stack
  have hwindow := toNat_windowOf hlow
  have hesp := h.toNat_esp hcall
  have hedi : m.edi.toNat = m₀.esp.toNat - 14 := by rw [h.edi, hwindow]
  have haddress : m.ss.toNat * 16 + m.esp.toNat - 4 = m₀.ss.toNat * 16 + m₀.esp.toNat - 18 := by
    rw [h.ss, hesp]
    omega
  have hout : m.es.toNat * 16 + m.edi.toNat = m₀.ss.toNat * 16 + m₀.esp.toNat - 14 := by
    rw [h.es, hcall.es_ss, hedi]
    omega
  have hused := h.used
  rw [Item.slot, htoken] at hused
  obtain ⟨f, hf⟩ := execBlock_escape (m := m) (by rw [h.eax]; exact htoken) (by omega) (by omega)
  refine Program.Ensures.goto (hstep.trans hf) ?_
  refine Program.Ensures.goto (step_formatEscape h.direction (by simp only [hedi]; omega)) ?_
  have hround := h.fill (n := 4) (byteOf m.ecx) (a := m.ss.toNat * 16 + m.esp.toNat - 4) (by omega)
    (by omega)
  -- the one byte of output is above all that the stack keeps, so every saved value is read back
  have hkept (x : Nat) (hx : ¬ x = m₀.ss.toNat * 16 + m₀.esp.toNat - 14) :
      storeBytes (RealMode.fill m.memory (m.ss.toNat * 16 + m.esp.toNat - 4) 4 (byteOf m.ecx))
        (m.es.toNat * 16 + m.edi.toNat) [percent] x =
      RealMode.fill m.memory (m.ss.toNat * 16 + m.esp.toNat - 4) 4 (byteOf m.ecx) x :=
    storeBytes_of_notMem (by rw [hout, List.length_singleton]; omega)
  refine ensures_print hcall {
    toInRound := hround.converted hcall [percent] ?_ rfl rfl rfl rfl rfl rfl rfl ?_ ?_
    used := hused
    length := ?_
    window := ?_
    edx := h.edx
    edi := ?_
    esp := ?_
    pushed := ?_
    world := h.world } hthen
  · rw [List.length_singleton]
    omega
  · rw [← h.edi]
    rfl
  · intro x hx
    rw [List.length_singleton] at hx
    exact hkept x (by omega)
  · rw [List.length_singleton]
    omega
  · have hbytes := bytesAt_storeBytes
      (RealMode.fill m.memory (m.ss.toNat * 16 + m.esp.toNat - 4) 4 (byteOf m.ecx))
      (m.es.toNat * 16 + m.edi.toNat) [percent]
    rw [hwindow, show m₀.ss.toNat * 16 + (m₀.esp.toNat - 14) = m.es.toNat * 16 + m.edi.toNat by omega]
    exact hbytes
  · change m.edi + BitVec.ofNat 32 1 = _
    rw [h.edi]
    rfl
  · change m.esp - 4#32 = _
    rw [h.esp]
  · refine (congrArg BitVec.toNat (read32_congr fun i hi => hkept _ ?_)).trans (h.pushed hcall)
    omega


/-- No token of the code is binary. -/
theorem ne_binary {r : Radix} {w : Width} (h : conversionOf t = some (.number r w)) : r ≠ .binary := by
  rintro rfl
  have hmem := mem_tokens h
  simp [tokens] at hmem

/-- An argument depends on its bytes. -/
theorem argument_congr {mem mem' : Nat → Byte} {a : Nat} {w : Width}
    (h : ∀ i < w.slot, mem' (a + i) = mem (a + i)) : argument mem' a w = argument mem a w := by
  cases w with
  | byte => exact congrArg (BitVec.setWidth 32) (h 0 (by decide))
  | word => exact congrArg (BitVec.setWidth 32) (read16_congr h)
  | dword => exact read32_congr h

/-- A conversion is ready to be entered behind a token. -/
theorem AtToken.readyToConvert (h : AtToken m₀ format rest done k t m) (hcall : Call m₀ format)
    {e c : Dword} {f : Flags} :
    ReadyToConvert { m with
      esp := m.esp - 6#32
      memory := pushedPrint m
      ebp := e
      ecx := c
      flags := f } := by
  obtain ⟨hlow, hhigh⟩ := hcall.stack
  have htables := hcall.tables_stack
  have hwindow := toNat_windowOf hlow
  have hesp := h.toNat_esp hcall
  have hedi : m.edi.toNat = m₀.esp.toNat - 14 := by rw [h.edi, hwindow]
  have hsub : (m.esp - 6#32).toNat = m₀.esp.toNat - 20 := by bv_omega
  have hss : m.ss.toNat = m₀.ss.toNat := by rw [h.ss]
  have hes : m.es.toNat = m₀.ss.toNat := by rw [h.es, hcall.es_ss]
  have hds : m.ds.toNat = m₀.ds.toNat := by rw [h.ds]
  obtain ⟨-, -, hpushed⟩ := pushedPrint_memory (m := m) (by omega)
  unfold Apart at htables
  -- the tables are apart from the stack, so neither this round nor the pushes changed them
  have hkept (x : Nat) (hx : m₀.ds.toNat * 16 + 0x194 ≤ x) (hx' : x < m₀.ds.toNat * 16 + 0x1C8) :
      pushedPrint m x = m₀.memory x :=
    (hpushed x (by omega)).trans (h.frame x (by omega))
  constructor
  case direction => exact h.direction
  case stack => simp only [hsub]; omega
  case room => simp only [hedi]; omega
  case divisors =>
    simp only [hds]
    exact hcall.divisors.congr fun x hx hx' => hkept x hx (by omega)
  case hexDigits =>
    simp only [hds]
    exact hcall.hexDigits.congr fun x hx hx' => hkept x (by omega) hx'
  case output_stack => simp only [hes, hss, hedi, hsub]; unfold Apart; omega
  case output_tables => simp only [hes, hds, hedi]; unfold Apart; omega
  case stack_tables => simp only [hss, hds, hsub]; unfold Apart; omega

/-- The pushes behind a token are in the stack. -/
theorem AtToken.pushedPrint (h : AtToken m₀ format rest done k t m) (hcall : Call m₀ format) :
    InRound m₀ format rest done k { m with memory := pushedPrint m } := by
  obtain ⟨hlow, hhigh⟩ := hcall.stack
  have hesp := h.toNat_esp hcall
  have hss : m.ss.toNat = m₀.ss.toNat := by rw [h.ss]
  have hlength := h.fill (n := 4) (byteOf m.ecx) (a := m.ss.toNat * 16 + m.esp.toNat - 4) (by omega)
    (by omega)
  exact hlength.fill (n := 2) (byteOf printOffset) (a := m.ss.toNat * 16 + m.esp.toNat - 6) (by omega)
    (by omega)

/-- A token of a number writes the text of its argument. -/
theorem ensures_number (hcall : Call m₀ format) (h : AtToken m₀ format rest done k t m)
    {r : Radix} {w : Width} (htoken : conversionOf t = some (.number r w))
    (hthen : ∀ m', AtNext m₀ format rest
      (done ++ [.converted (r.text w (argumentAt m₀ (k + w.slot) w))]) (k + w.slot) m' →
        stringFormat.Ensures .next m' Q)
    {l : Label} {m₁ : Machine Files}
    (hstep : stringFormat.step l m₁ = stringFormat.execBlock .eos tokenCode m) :
    stringFormat.Ensures l m₁ Q := by
  obtain ⟨hlow, hhigh⟩ := hcall.stack
  obtain ⟨hargs, hebp₀⟩ := hcall.arguments
  have happart := hcall.arguments_stack
  have hwindow := toNat_windowOf hlow
  have hesp := h.toNat_esp hcall
  have hss : m.ss.toNat = m₀.ss.toNat := by rw [h.ss]
  have hused := h.used
  rw [Item.slot, htoken] at hused
  simp only at hused
  have hr := ne_binary htoken
  obtain ⟨hreturn, hlength, hpushed⟩ := pushedPrint_memory (m := m) (by omega)
  -- `ebp` designates the argument, which is not in the stack
  have hebp : m.ebp - BitVec.ofNat 32 w.slot = m₀.ebp - BitVec.ofNat 32 (k + w.slot) := by
    rw [h.ebp, BitVec.sub_sub, ← BitVec.ofNat_add]
  have hoffset : (m₀.ebp - BitVec.ofNat 32 (k + w.slot)).toNat = m₀.ebp.toNat - (k + w.slot) := by
    rw [BitVec.toNat_sub, BitVec.toNat_ofNat]
    omega
  unfold Apart at happart
  have hargument : argument (pushedPrint m)
      (m.ss.toNat * 16 + (m.ebp - BitVec.ofNat 32 w.slot).toNat) w = argumentAt m₀ (k + w.slot) w := by
    rw [hebp, hoffset, hss, argumentAt, Nat.add_sub_assoc (by omega)]
    exact argument_congr fun i hi => (hpushed _ (by omega)).trans (h.frame _ (by omega))
  obtain ⟨f, hf⟩ := execBlock_number (m := m) (by rw [h.eax]; exact htoken) (by omega) (by omega)
  refine Program.Ensures.goto (hstep.trans hf) ?_
  have hconvert := ensures_format (m := { m with
    esp := m.esp - 6#32
    memory := pushedPrint m
    ebp := m.ebp - BitVec.ofNat 32 w.slot
    ecx := BitVec.ofNat 32 w.bits
    flags := f }) hr (h.readyToConvert hcall) rfl (by rw [hebp, hoffset]; omega)
  rw [hargument] at hconvert
  have hround : InRound m₀ format rest done (k + w.slot) { m with
      esp := m.esp - 6#32
      memory := pushedPrint m
      ebp := m.ebp - BitVec.ofNat 32 w.slot
      ecx := BitVec.ofNat 32 w.bits
      flags := f } :=
    { h.pushedPrint hcall with ebp := hebp }
  have hsub : (m.esp - 6#32).toNat = m₀.esp.toNat - 20 := by bv_omega
  have hbottom : m.ss.toNat * 16 + (m.esp - 6#32).toNat = m.ss.toNat * 16 + m.esp.toNat - 6 := by
    omega
  have hout : m.es.toNat * 16 + m.edi.toNat = m₀.ss.toNat * 16 + (windowOf m₀).toNat := by
    rw [h.es, hcall.es_ss, h.edi]
  have htext := length_text_le hr w (argumentAt m₀ (k + w.slot) w)
  refine hconvert.follow fun ip m' hputs => ⟨.print, ?_, ensures_print hcall ?_ hthen⟩
  · -- the conversion returns to the address that was pushed
    have hip : ip = printOffset := by
      rw [hputs.ip]
      simp only [hbottom]
      exact hreturn
    rw [hip]
    rfl
  · have hframe := hputs.frame
    simp only [hbottom, hout] at hframe
    refine {
      toInRound := hround.converted hcall _ htext hputs.direction hputs.ds hputs.es hputs.ss hputs.ebx
        hputs.ebp hputs.esi ?_ ?_
      used := by omega
      length := ⟨?_, htext⟩
      window := ?_
      edx := hputs.edx.trans h.edx
      edi := ?_
      esp := ?_
      pushed := ?_
      world := ?_ }
    · rw [hputs.stored, ← h.edi]
    · exact fun x hx => hframe x (by omega) (by omega)
    · exact length_text_pos hr w _
    · rw [← hout]
      exact hputs.output
    · rw [hputs.edi, ← h.edi]
    · rw [hputs.esp, ← h.esp, show (2#16 : Word) = BitVec.ofNat 16 2 from rfl, addSp_add]
      · simp only
        bv_omega
      · simp only [hsub]
        omega
    · -- the remaining length is above the conversion's scratch and below its text
      have hkept : read32 m'.memory (m₀.ss.toNat * 16 + m₀.esp.toNat - 18) =
          read32 (pushedPrint m) (m₀.ss.toNat * 16 + m₀.esp.toNat - 18) :=
        read32_congr fun i hi => hframe _ (by omega) (by omega)
      rw [hkept, ← h.ecx, ← hlength]
      congr 2
      omega
    · exact fun hclean => hputs.world.trans (h.world hclean)

/-- Any other token is dropped. -/
theorem ensures_unknown (hcall : Call m₀ format) (h : AtToken m₀ format rest done k t m)
    (htoken : conversionOf t = none)
    (hthen : ∀ m', AtNext m₀ format rest (done ++ [.skipped k]) k m' →
      stringFormat.Ensures .next m' Q)
    {l : Label} {m₁ : Machine Files}
    (hstep : stringFormat.step l m₁ = stringFormat.execBlock .eos tokenCode m) :
    stringFormat.Ensures l m₁ Q := by
  obtain ⟨hlow, hhigh⟩ := hcall.stack
  have hesp := h.toNat_esp hcall
  have hused := h.used
  rw [Item.slot, htoken] at hused
  have hargs := hcall.arguments
  obtain ⟨f, hzero, hf⟩ := execBlock_unknown (m := m) (by rw [h.eax]; exact htoken) (by omega)
    (by omega)
  refine Program.Ensures.goto (hstep.trans hf) (hthen _ ?_)
  have hround := (h.pushedPrint hcall).silent [.skipped k] rfl
  refine { hround with
    used := hused
    esp := h.esp
    ecx := h.ecx
    world := fun hclean => ⟨?_, ?_⟩ }
  · refine (h.world hclean.of_append).trans ?_
    rw [written_append]
    simp [Piece.bytes, Files.append]
  · -- `add ebp, 4` sets the zero flag only where the block ends at its segment's start
    refine Bool.eq_false_iff.mpr fun hz => ?_
    have hebp := hzero hz
    rw [h.ebp] at hebp
    have hsub := congrArg BitVec.toNat hebp
    rw [BitVec.toNat_sub, BitVec.toNat_ofNat, BitVec.toNat_ofNat] at hsub
    have hk := hclean.2 k (by simp)
    omega

/-! ## Before a token -/

/-- The pieces of a run of bytes. -/
def literals (literal : List (Byte × Byte)) : List Piece := literal.map fun c => .literal c.2

/-- The machine at `.eos`, behind the bytes `literal` and in front of `rest`, a `%` or the end. -/
structure AtEos (m₀ : Machine Files) (format literal rest : List (Byte × Byte)) (done : List Piece)
    (k : Nat) (m : Machine Files) : Prop
    extends InRound m₀ format (literal ++ rest) done k m where
  used : k + consumed (parse rest) = consumed (parse format)
  edi : m.edi = m.esi + BitVec.ofNat 32 (literal.length + min 1 rest.length)
  esp : m.esp = windowOf m₀ - 4#32
  pushed : read32 m.memory (m₀.ss.toNat * 16 + m₀.esp.toNat - 18) = BitVec.ofNat 32 (rest.length - 1)
  world : Clean m₀ done → literalWritten m = written m₀ (done ++ literals literal)

/-- `.next` comes to the next `%`, or to the end. -/
theorem AtNext.eos (hcall : Call m₀ format) (h : AtNext m₀ format (literal ++ rest) done k m)
    (hliteral : ∀ c ∈ literal, c.1 ≠ percent)
    (hrest : rest = [] ∨ ∃ read rest', rest = (percent, read) :: rest') :
    ∃ m', stringFormat.step .next m = .goto .eos m' ∧ AtEos m₀ format literal rest done k m' := by
  obtain ⟨hlow, hhigh⟩ := hcall.stack
  have hwindow := toNat_windowOf hlow
  have hesp : m.esp.toNat = m₀.esp.toNat - 14 := by rw [h.esp, hwindow]
  have hss : m.ss.toNat = m₀.ss.toNat := by rw [h.ss]
  have hused := h.used
  rw [parse_append hliteral, consumed_literal] at hused
  have hposition := h.position
  have hroom := hcall.room
  have hapart := hcall.found_stack
  unfold Apart at hapart
  rw [hcall.es_ss] at hapart
  have hstart := h.start
  -- the scan of the found bytes ends where `literal` does, behind the `%` if there is one
  obtain ⟨c, f, hc, hstep⟩ := step_next h.direction (h.found_memory hcall) hliteral hrest h.ecx
    (by omega) (by omega) (by omega)
  refine ⟨_, hstep, ?_⟩
  have hround := h.fill (n := 4) (byteOf (BitVec.ofNat 32 (rest.length - 1)))
    (a := m.ss.toNat * 16 + m.esp.toNat - 4) (by omega) (by omega)
  have haddress : m₀.ss.toNat * 16 + m₀.esp.toNat - 18 = m.ss.toNat * 16 + m.esp.toNat - 4 := by
    omega
  refine { hround with
    used := hused
    edi := rfl
    esp := ?_
    pushed := ?_
    world := fun hclean => ?_ }
  · change m.esp - 4#32 = _
    rw [h.esp]
  · rw [haddress]
    exact read32_fill _
  · -- with the zero flag clear, `ecx` is behind the bytes also where the format is empty
    obtain ⟨hworld, hzero⟩ := h.world hclean
    have hread := hround.read_memory hcall
    rw [List.map_append, bytesAt_append] at hread
    rw [List.length_append] at hposition
    have hcount : ((c - m.esi).setWidth 16 : Word).toNat = (literal.map Prod.snd).length := by
      rw [hc hzero, BitVec.add_comm, BitVec.add_sub_cancel, BitVec.toNat_setWidth, BitVec.toNat_ofNat,
        List.length_map]
      omega
    have hbytes := bytesFrom_eq hread.1 (by rw [List.length_map]; simp only; omega)
    rw [← hcount] at hbytes
    change m.world.append (m.ebx.setWidth 16) _ = _
    rw [hworld, h.ebx, written_append, literals, bytes_literal]
    exact congrArg _ hbytes

/-- The stack pointer at the end of a literal. -/
theorem AtEos.toNat_esp (h : AtEos m₀ format literal rest done k m) (hcall : Call m₀ format) :
    m.esp.toNat = m₀.esp.toNat - 18 := by
  have hlow := hcall.stack.1
  have hwindow := toNat_windowOf hlow
  rw [h.esp]
  bv_omega

/-- Fewer than two bytes behind the `%` are the end. -/
theorem ensures_end (hcall : Call m₀ format) (h : AtEos m₀ format literal rest done k m)
    (hend : rest.length ≤ 2) :
    stringFormat.Ensures .eos m (Finished m₀ (done ++ literals literal)) := by
  obtain ⟨hlow, hhigh⟩ := hcall.stack
  have hesp := h.toNat_esp hcall
  -- the length is popped, then the frame; above it are the saved `ebp` and the return address
  have hpop : (m.esp + 4#32).toNat = m₀.esp.toNat - 14 := by bv_omega
  have hss : m.ss.toNat = m₀.ss.toNat := by rw [h.ss]
  have haddress : m.ss.toNat * 16 + m.esp.toNat = m₀.ss.toNat * 16 + m₀.esp.toNat - 18 := by
    omega
  obtain ⟨f, hf⟩ := step_eos_finish (m := m) (r := BitVec.ofNat 32 (rest.length - 1))
    (by rw [haddress]; exact h.pushed) (by omega) (by rw [BitVec.toNat_ofNat]; omega)
  obtain ⟨f', hf'⟩ := step_finish (m := { m with
    eax := setByte1 m.eax 0x40#8
    edx := m.esi
    ecx := BitVec.ofNat 32 (rest.length - 1)
    esp := m.esp + 4#32
    world := literalWritten m
    flags := f }) (by simp only [hpop]; omega)
  have hip : m.ss.toNat * 16 + (m.esp + 4#32).toNat + 14 = m₀.ss.toNat * 16 + m₀.esp.toNat := by
    omega
  have hsaved : m.ss.toNat * 16 + (m.esp + 4#32).toNat + 10 =
      m₀.ss.toNat * 16 + m₀.esp.toNat - 4 := by
    omega
  have hreturn : read16 m.memory (m₀.ss.toNat * 16 + m₀.esp.toNat) =
      read16 m₀.memory (m₀.ss.toNat * 16 + m₀.esp.toNat) :=
    read16_congr fun i hi => h.frame _ (by omega)
  simp only [hip, hsaved, hreturn] at hf'
  refine Program.Ensures.goto hf (Program.Ensures.returned hf' (if_neg hcall.returns) ?_)
  have hround := h.silent (literals literal) (stores_literal _ literal)
  constructor
  case ip => rfl
  case esp =>
    change addSp (m.esp + 4#32 + 14#32) 2#16 = _
    rw [h.esp, BitVec.sub_add_cancel, windowOf, BitVec.sub_add_cancel]
  case ebp => exact hround.saved
  case stored => exact hround.stored
  case world => exact fun hclean => h.world hclean.of_append

/-- The low word that is set is there. -/
theorem setWidth_setLow (v : Dword) (w : Word) : (setLow v w).setWidth 16 = w := by
  have hlt := w.isLt
  apply BitVec.eq_of_toNat_eq
  rw [BitVec.toNat_setWidth, toNat_setLow]
  omega

/-- What is behind a token. -/
theorem bytesAt_behind {mem : Nat → Byte} {a : Nat} {c t₀ t₁ : Byte × Byte} (g : Byte × Byte → Byte)
    (h : BytesAt mem a ((literal ++ c :: t₀ :: t₁ :: rest).map g)) :
    BytesAt mem (a + (literal.length + 3)) (rest.map g) := by
  rw [List.map_append, bytesAt_append, List.length_map, List.map_cons, List.map_cons, List.map_cons,
    bytesAt_cons, bytesAt_cons, bytesAt_cons] at h
  exact h.2.2.2.2

/-- `%` and two bytes are a token. -/
theorem AtEos.token {read : Byte} {t₀ t₁ : Byte × Byte} (hcall : Call m₀ format)
    (h : AtEos m₀ format literal ((percent, read) :: t₀ :: t₁ :: rest) done k m) :
    ∃ m', stringFormat.step .eos m = stringFormat.execBlock .eos tokenCode m' ∧
      AtToken m₀ format rest (done ++ literals literal) k (word t₁.2 t₀.2) m' := by
  obtain ⟨hlow, hhigh⟩ := hcall.stack
  have hesp := h.toNat_esp hcall
  have hss : m.ss.toNat = m₀.ss.toNat := by rw [h.ss]
  have haddress : m.ss.toNat * 16 + m.esp.toNat = m₀.ss.toNat * 16 + m₀.esp.toNat - 18 := by
    omega
  have hroom := hcall.room
  have hstart := h.start
  have hposition := h.position
  simp only [List.length_append, List.length_cons] at hposition
  have hedi : m.edi.toNat = m.esi.toNat + literal.length + 1 := by
    rw [h.edi, List.length_cons, Nat.min_eq_left (by omega), BitVec.toNat_add, BitVec.toNat_ofNat]
    omega
  have hesi : (m.edi + 2#32).toNat = m.esi.toNat + (literal.length + 3) := by bv_omega
  obtain ⟨f, hf⟩ := step_eos_token (m := m) h.direction (r := BitVec.ofNat 32 (rest.length + 2))
    (by rw [haddress]; exact h.pushed) (by omega) (by rw [BitVec.toNat_ofNat]; omega) (by omega)
  refine ⟨_, hf, ?_⟩
  have htop : m.esp + 4#32 = windowOf m₀ := by rw [h.esp, BitVec.sub_add_cancel]
  -- the two bytes behind the `%`
  have hread := h.read_memory hcall
  rw [List.map_append, bytesAt_append, List.length_map, List.map_cons, List.map_cons, List.map_cons,
    bytesAt_cons, bytesAt_cons, bytesAt_cons] at hread
  obtain ⟨-, -, ht₀, ht₁, -⟩ := hread
  have htoken : read16 m.memory (m.ds.toNat * 16 + m.edi.toNat) = word t₁.2 t₀.2 := by
    rw [read16, hedi, ← Nat.add_assoc, ← Nat.add_assoc, ht₀, ht₁]
  have hused := h.used
  have hround := h.silent (literals literal) (stores_literal _ literal)
  constructor
  case toInRound =>
    refine { hround with start := ?_, position := ?_, found := ?_, read := ?_ }
    · simp only [hesi]
      omega
    · simp only [hesi]
      omega
    · simp only [hesi, ← Nat.add_assoc]
      exact bytesAt_behind Prod.fst h.found
    · simp only [hesi, ← Nat.add_assoc]
      exact bytesAt_behind Prod.snd h.read
  case used =>
    rw [parse_token, consumed, List.map_cons, List.sum_cons, ← Nat.add_assoc] at hused
    exact hused
  case eax => exact (setWidth_setLow _ _).trans htoken
  case edx => exact htop
  case edi => exact htop
  case esp => exact htop
  case ecx =>
    simp only
    rw [BitVec.ofNat_add, BitVec.add_sub_cancel, BitVec.toNat_ofNat]
    omega
  case world => exact fun hclean => h.world hclean.of_append

end StringFormat

end Ts3100

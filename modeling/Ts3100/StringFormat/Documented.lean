import Ts3100.StringFormat.Runs

/-! # Documented formats

The formats that the documentation of `fprintf` describes, what they are to print for a list of
arguments, and when they do: `%xb` to `%xd` and `%bb` to `%bd` are not tokens of the code. -/

namespace Ts3100

namespace StringFormat

open I386
open RealMode (word fill)

variable {m : Machine Files} {segments : List Segment} {args : List Dword}
  {value : Nat → Width → Dword} {k : Nat}

/-! ## Formats as documented -/

/-- A segment of a documented format: a byte that is not `%`, `%%%`, or the token of a number. -/
inductive Segment where
  | literal (c : { b : Byte // b ≠ percent })
  | escape
  | convert (r : Radix) (w : Width)

/-- The letter of a radix. -/
def Radix.letter : Radix → Byte
  | .unsigned => ascii 'u'
  | .signed => ascii 's'
  | .hex => ascii 'x'
  | .binary => ascii 'b'

/-- The letter of a width. -/
def Width.letter : Width → Byte
  | .byte => ascii 'b'
  | .word => ascii 'w'
  | .dword => ascii 'd'

/-- The bytes of a segment. -/
def Segment.format : Segment → List Byte
  | .literal c => [c.1]
  | .escape => [percent, percent, percent]
  | .convert r w => [percent, r.letter, w.letter]

/-- The bytes of a format. -/
def formatOf (segments : List Segment) : List Byte := segments.flatMap Segment.format

/-- The widths of the arguments of a format. -/
def widths : List Segment → List Width
  | [] => []
  | .convert _ w :: segments => w :: widths segments
  | _ :: segments => widths segments

/-- What a format is to print. -/
def documented : List Segment → List Dword → List Byte
  | [], _ => []
  | .literal c :: segments, args => c.1 :: documented segments args
  | .escape :: segments, args => percent :: documented segments args
  | .convert r w :: segments, v :: args => r.text w v ++ documented segments args
  | .convert _ _ :: _, [] => []

/-- The arguments of given widths are in the block from `k` bytes below its end on, the earlier ones
higher; `value` reads the block. -/
def ArgumentsAt (value : Nat → Width → Dword) : Nat → List Width → List Dword → Prop
  | _, [], [] => True
  | k, w :: widths, v :: args =>
      value (k + w.slot) w = (v.setWidth w.bits).setWidth 32 ∧ ArgumentsAt value (k + w.slot) widths args
  | _, _, _ => False

/-- The length of the argument block of a format. -/
def blockLength (segments : List Segment) : Nat := ((widths segments).map Width.slot).sum

/-- The code knows the token of a radix. -/
def Radix.IsDecimal (r : Radix) : Prop := r = .unsigned ∨ r = .signed

instance (r : Radix) : Decidable r.IsDecimal := inferInstanceAs (Decidable (_ ∨ _))

/-- A segment is not a hexadecimal or binary token. -/
def Segment.IsDecimal : Segment → Prop
  | .convert r _ => r.IsDecimal
  | _ => True

instance : (s : Segment) → Decidable s.IsDecimal
  | .literal _ => inferInstanceAs (Decidable True)
  | .escape => inferInstanceAs (Decidable True)
  | .convert r _ => inferInstanceAs (Decidable r.IsDecimal)

/-- A call as documented: with `ds` and `es` the stack's segment and the arguments in a block that ends
at `ebp` and is apart from the stack, the format and the tables. -/
structure DocumentedCall (m : Machine Files) (segments : List Segment) (args : List Dword) : Prop where
  call : Call m (sameSegment (formatOf segments))
  ds_es : m.ds = m.es
  arguments : ArgumentsAt (argumentAt m) 0 (widths segments) args
  block : blockLength segments ≤ m.ebp.toNat
  block_stack : Apart (m.ss.toNat * 16 + m.ebp.toNat - blockLength segments) (blockLength segments)
    (m.ss.toNat * 16 + m.esp.toNat - 28) 30
  block_format : Apart (m.ss.toNat * 16 + m.ebp.toNat - blockLength segments) (blockLength segments)
    (m.es.toNat * 16 + m.edi.toNat) (formatOf segments).length
  block_tables : Apart (m.ss.toNat * 16 + m.ebp.toNat - blockLength segments) (blockLength segments)
    (m.ds.toNat * 16 + 0x194) 52

/-- A call appended a text to its file. -/
def Prints (m : Machine Files) (text : List Byte) (_ : RealMode.Word) (m' : Machine Files) : Prop :=
  m'.world = m.world.append (m.ebx.setWidth 16) text

/-! ## What the code takes from them -/

/-- The item of a segment. -/
def Segment.item : Segment → Item
  | .literal c => .char c.1
  | .escape => .token (word percent percent)
  | .convert r w => .token (word w.letter r.letter)

/-- The code parses a documented format into its segments. -/
theorem parse_formatOf (segments : List Segment) :
    parse (sameSegment (formatOf segments)) = segments.map Segment.item := by
  induction segments with
  | nil => rfl
  | cons s segments ih =>
      rw [formatOf, List.flatMap_cons, ← formatOf, List.map_cons, ← ih]
      cases s with
      | literal c => exact parse_char c.2 _
      | escape => exact parse_token percent (percent, percent) (percent, percent) _
      | convert r w => exact parse_token percent (r.letter, r.letter) (w.letter, w.letter) _

/-- Of the documented tokens it knows the decimal ones. -/
theorem conversionOf_letters (r : Radix) (w : Width) :
    conversionOf (word w.letter r.letter) = if r.IsDecimal then some (.number r w) else none := by
  cases r <;> cases w <;> rfl

/-- The pieces of a format that begins with the token of a number. -/
theorem pieces_convert (value : Nat → Width → Dword) (k : Nat) (r : Radix) (w : Width)
    (items : List Item) :
    pieces value k ((Segment.convert r w).item :: items) =
      if r.IsDecimal then
        .converted (r.text w (value (k + w.slot) w)) :: pieces value (k + w.slot) items
      else .skipped k :: pieces value k items := by
  rw [Segment.item, pieces, conversionOf_letters]
  by_cases hr : r.IsDecimal
  · rw [if_pos hr, if_pos hr]
  · rw [if_neg hr, if_neg hr]

/-- A text depends on the bits of its argument's width. -/
theorem text_setWidth (r : Radix) (w : Width) (v : Dword) :
    r.text w ((v.setWidth w.bits).setWidth 32) = r.text w v := by
  have hbits : ((v.setWidth w.bits).setWidth 32).setWidth w.bits = v.setWidth w.bits := by
    cases w <;> simp [Width.bits]
  cases r <;> simp only [Radix.text, hbits]

/-- **The code prints a decimal format as documented.** -/
theorem bytes_pieces (hdecimal : ∀ s ∈ segments, s.IsDecimal)
    (hargs : ArgumentsAt value k (widths segments) args) :
    (pieces value k (segments.map Segment.item)).flatMap Piece.bytes = documented segments args := by
  induction segments generalizing k args with
  | nil => rfl
  | cons s segments ih =>
      rw [List.forall_mem_cons] at hdecimal
      rw [List.map_cons]
      cases s with
      | literal c => exact congrArg _ (ih hdecimal.2 hargs)
      | escape => exact congrArg _ (ih hdecimal.2 hargs)
      | convert r w =>
          cases args with
          | nil => cases hargs
          | cons v args =>
              have hr : r.IsDecimal := hdecimal.1
              rw [pieces_convert, if_pos hr, List.flatMap_cons, ih hdecimal.2 hargs.2, hargs.1,
                text_setWidth, Piece.bytes, documented]

/-! ## What the code leaves out -/

/-- A dropped token is dropped before the argument block is used up. -/
theorem lt_of_mem_pieces {j : Nat} (hmem : Piece.skipped j ∈ pieces value k (segments.map Segment.item)) :
    j < k + blockLength segments := by
  induction segments generalizing k with
  | nil => cases hmem
  | cons s segments ih =>
      rw [List.map_cons] at hmem
      cases s with
      | literal c => exact ih (List.mem_of_ne_of_mem (by simp) hmem)
      | escape => exact ih (List.mem_of_ne_of_mem (by simp) hmem)
      | convert r w =>
          have hslot : 0 < w.slot := by cases w <;> decide
          have hlength : blockLength (.convert r w :: segments) = w.slot + blockLength segments := rfl
          rw [pieces_convert] at hmem
          split at hmem
          · have hlt := ih (List.mem_of_ne_of_mem (by simp) hmem)
            omega
          · rcases List.mem_cons.mp hmem with heq | hmem
            · cases heq
              omega
            · have hlt := ih hmem
              omega

/-- The arguments that are all zero. -/
def zeros (segments : List Segment) : List Dword := List.replicate (widths segments).length 0#32

/-- The number of tokens that the code does not know. -/
def unknown : List Segment → Nat
  | [] => 0
  | .convert r _ :: segments => if r.IsDecimal then unknown segments else unknown segments + 1
  | _ :: segments => unknown segments

/-- It knows all tokens of a format exactly if all are decimal. -/
theorem unknown_eq_zero_iff (segments : List Segment) :
    unknown segments = 0 ↔ ∀ s ∈ segments, s.IsDecimal := by
  induction segments with
  | nil => simp [unknown]
  | cons s segments ih =>
      rw [List.forall_mem_cons, ← ih]
      cases s with
      | literal c => exact (and_iff_right trivial).symm
      | escape => exact (and_iff_right trivial).symm
      | convert r w =>
          change (if r.IsDecimal then unknown segments else unknown segments + 1) = 0 ↔ r.IsDecimal ∧ _
          split <;> simp_all

/-- Zero is a digit in decimal, and at least one otherwise. -/
theorem length_text_zero {r : Radix} (w : Width) :
    (r.IsDecimal → (r.text w 0#32).length = 1) ∧ (¬ r.IsDecimal → 1 ≤ (r.text w 0#32).length) := by
  cases r <;> cases w <;> decide

/-- **With arguments of zero, every unknown token is missing from what is printed.** -/
theorem length_bytes_add_unknown {j : Nat} (hjk : j ≤ k)
    (hvalue : ∀ i w, w.slot ≤ i → i ≤ k + blockLength segments → value i w = 0#32) :
    ((pieces value j (segments.map Segment.item)).flatMap Piece.bytes).length + unknown segments ≤
      (documented segments (zeros segments)).length := by
  -- the code reads its arguments at `j`, the documentation at `k`: an unknown token moves only
  -- the latter
  induction segments generalizing j k with
  | nil => exact Nat.le_refl 0
  | cons s segments ih =>
      rw [List.map_cons]
      cases s with
      | literal c =>
          have hle := ih hjk hvalue
          change (c.1 :: (pieces value j (segments.map Segment.item)).flatMap Piece.bytes).length +
            unknown segments ≤ (c.1 :: documented segments (zeros segments)).length
          rw [List.length_cons, List.length_cons]
          omega
      | escape =>
          have hle := ih hjk hvalue
          change (percent :: (pieces value j (segments.map Segment.item)).flatMap Piece.bytes).length +
            unknown segments ≤ (percent :: documented segments (zeros segments)).length
          rw [List.length_cons, List.length_cons]
          omega
      | convert r w =>
          have hlength : blockLength (.convert r w :: segments) = w.slot + blockLength segments := rfl
          rw [hlength] at hvalue
          have hrest (i : Nat) (w' : Width) (hlow : w'.slot ≤ i)
              (hhigh : i ≤ k + w.slot + blockLength segments) : value i w' = 0#32 :=
            hvalue i w' hlow (by omega)
          have hzeros : zeros (.convert r w :: segments) = 0#32 :: zeros segments := rfl
          obtain ⟨hdecimal, hother⟩ := length_text_zero (r := r) w
          rw [pieces_convert, hzeros, documented, List.length_append, unknown]
          by_cases hr : r.IsDecimal
          · -- both take the argument, and both print one digit
            have hle := ih (j := j + w.slot) (k := k + w.slot) (by omega) hrest
            rw [if_pos hr, if_pos hr, hvalue (j + w.slot) w (by omega) (by omega), List.flatMap_cons,
              List.length_append, Piece.bytes, hdecimal hr]
            omega
          · -- only the documentation takes the argument and prints it
            have hle := ih (j := j) (k := k + w.slot) (by omega) hrest
            have hpos := hother hr
            rw [if_neg hr, if_neg hr, List.flatMap_cons, Piece.bytes, List.nil_append]
            omega

/-- In a block of zeros all arguments are zero. -/
theorem argumentsAt_zeros (hvalue : ∀ i w, w.slot ≤ i → i ≤ k + blockLength segments → value i w = 0#32) :
    ArgumentsAt value k (widths segments) (zeros segments) := by
  induction segments generalizing k with
  | nil => trivial
  | cons s segments ih =>
      cases s with
      | literal c => exact ih hvalue
      | escape => exact ih hvalue
      | convert r w =>
          have hlength : blockLength (.convert r w :: segments) = w.slot + blockLength segments := rfl
          rw [hlength] at hvalue
          refine ⟨?_, ih fun i w' hlow hhigh => hvalue i w' hlow (by omega)⟩
          rw [hvalue (k + w.slot) w (by omega) (by omega)]
          cases w <;> rfl

/-- The code takes no more of the block than is documented. -/
theorem consumed_le (segments : List Segment) :
    consumed (segments.map Segment.item) ≤ blockLength segments := by
  induction segments with
  | nil => exact Nat.le_refl 0
  | cons s segments ih =>
      cases s with
      | literal c => exact (Nat.zero_add _).trans_le ih
      | escape => exact (Nat.zero_add _).trans_le ih
      | convert r w =>
          have hlength : blockLength (.convert r w :: segments) = w.slot + blockLength segments := rfl
          have hslot : (Segment.convert r w).item.slot ≤ w.slot := by
            rw [Segment.item, Item.slot, conversionOf_letters]
            by_cases hr : r.IsDecimal
            · rw [if_pos hr]
            · rw [if_neg hr]
              exact Nat.zero_le _
          rw [List.map_cons, consumed, List.map_cons, List.sum_cons, hlength]
          exact Nat.add_le_add hslot ih

/-! ## Calls with arguments of zero -/

/-- The machine with its argument block cleared. -/
def cleared (m : Machine Files) (n : Nat) : Machine Files :=
  { m with memory := fill m.memory (m.ss.toNat * 16 + m.ebp.toNat - n) n fun _ => 0#8 }

/-- The block is zero. -/
theorem cleared_of_mem {n x : Nat} (hlow : m.ss.toNat * 16 + m.ebp.toNat - n ≤ x)
    (hhigh : x < m.ss.toNat * 16 + m.ebp.toNat - n + n) : (cleared m n).memory x = 0#8 := by
  change fill m.memory _ n (fun _ => 0#8) x = _
  exact RealMode.fill_of_mem hlow hhigh

/-- Elsewhere memory is as it was. -/
theorem cleared_of_notMem {n x : Nat} (hx : ¬ (m.ss.toNat * 16 + m.ebp.toNat - n ≤ x ∧
    x < m.ss.toNat * 16 + m.ebp.toNat - n + n)) : (cleared m n).memory x = m.memory x := by
  change fill m.memory _ n (fun _ => 0#8) x = _
  exact RealMode.fill_of_notMem hx

/-- In a cleared block every argument is zero. -/
theorem argumentAt_cleared {n : Nat} (hn : n ≤ m.ebp.toNat) {i : Nat} {w : Width} (hlow : w.slot ≤ i)
    (hhigh : i ≤ n) : argumentAt (cleared m n) i w = 0#32 := by
  have hzero : argument (fun _ => 0#8) (m.ss.toNat * 16 + m.ebp.toNat - i) w = 0#32 := by
    cases w <;> simp [argument, read16, read32, word]
  rw [← hzero]
  change argument (cleared m n).memory (m.ss.toNat * 16 + m.ebp.toNat - i) w = _
  exact argument_congr fun x hx => cleared_of_mem (by omega) (by omega)

/-- The call with arguments of zero in the place of the given ones. -/
theorem DocumentedCall.zeros (h : DocumentedCall m segments args) :
    DocumentedCall (cleared m (blockLength segments)) segments (zeros segments) := by
  have hstack := h.block_stack
  have hformat := h.block_format
  have htables := h.block_tables
  have hblock := h.block
  have hbytes : (sameSegment (formatOf segments)).map Prod.fst = formatOf segments ∧
      (sameSegment (formatOf segments)).map Prod.snd = formatOf segments := by
    simp [sameSegment, Function.comp_def]
  obtain ⟨hlow, hhigh⟩ := h.call.stack
  unfold Apart at hstack hformat htables
  have hfound := h.call.found
  have hread := h.call.read
  rw [hbytes.1] at hfound
  rw [hbytes.2] at hread
  -- only the argument block is cleared, and what the call rests on lies elsewhere
  have hcall : Call (cleared m (blockLength segments)) (sameSegment (formatOf segments)) := { h.call with
    found := ?_
    read := ?_
    divisors := ?_
    hexDigits := ?_
    returns := ?_ }
  · exact { h with call := hcall, arguments := argumentsAt_zeros fun i w hlow hhigh =>
      argumentAt_cleared hblock hlow (by omega) }
  · rw [hbytes.1]
    exact hfound.congr fun i hi => cleared_of_notMem (by omega)
  · rw [hbytes.2]
    refine hread.congr fun i hi => cleared_of_notMem ?_
    rw [h.ds_es]
    omega
  · exact h.call.divisors.congr fun x hx hx' => cleared_of_notMem (by omega)
  · exact h.call.hexDigits.congr fun x hx hx' => cleared_of_notMem (by omega)
  · change read16 (cleared m (blockLength segments)).memory (m.ss.toNat * 16 + m.esp.toNat) ≠ printOffset
    rw [read16_congr fun i hi => cleared_of_notMem (by omega)]
    exact h.call.returns

/-- A documented call with all in one segment. -/
theorem documentedCall_callOf {block : List Byte} (hformat : (formatOf segments).length ≤ 0x100)
    (hlength : block.length ≤ 12) (hblock : blockLength segments ≤ block.length)
    (hargs : ArgumentsAt (argumentAt (callOf (formatOf segments) block)) 0 (widths segments) args) :
    DocumentedCall (callOf (formatOf segments) block) segments args := by
  have hconsumed := consumed_le segments
  have hsegment : (callOf (formatOf segments) block).ss.toNat = 0 ∧
      (callOf (formatOf segments) block).es.toNat = 0 ∧
        (callOf (formatOf segments) block).ds.toNat = 0 := ⟨rfl, rfl, rfl⟩
  have hesp : (callOf (formatOf segments) block).esp.toNat = 0x1000 := rfl
  have hedi : (callOf (formatOf segments) block).edi.toNat = 0x300 := rfl
  have hebp : (callOf (formatOf segments) block).ebp.toNat = 0x1010 := rfl
  constructor
  case call => exact call_callOf hformat hlength (by rw [parse_formatOf]; omega)
  case ds_es => rfl
  case arguments => exact hargs
  case block => omega
  all_goals
    unfold Apart
    omega

/-! ## Formats that are printed as documented -/

/-- Appending to a file determines what is appended. -/
theorem Files.append_cancel {files : Files} {handle : RealMode.Word} {bs cs : List Byte}
    (h : files.append handle bs = files.append handle cs) : bs = cs := by
  have hfile := congrFun h handle
  rw [Files.append, Files.append, Function.update_self, Function.update_self] at hfile
  exact List.append_cancel_left hfile

/-- What a documented call prints. -/
theorem DocumentedCall.ensures (h : DocumentedCall m segments args) :
    stringFormat.Ensures .fprintf m
      (Prints m ((pieces (argumentAt m) 0 (segments.map Segment.item)).flatMap Piece.bytes)) := by
  refine (ensures_fprintf h.call).mono fun ip m' hfinished => ?_
  rw [parse_formatOf] at hfinished
  refine hfinished.world ⟨h.ds_es, fun k hmem => ?_⟩
  have hlt := lt_of_mem_pieces hmem
  have hblock := h.block
  omega

/-- **A format is printed as documented for all arguments exactly if it has no hexadecimal or binary
token.** -/
theorem fprintf_documented_iff (h : DocumentedCall m segments args) :
    (∀ m args, DocumentedCall m segments args →
      stringFormat.Ensures .fprintf m (Prints m (documented segments args))) ↔
      ∀ s ∈ segments, s.IsDecimal := by
  constructor
  · intro hprints
    -- a call with arguments of zero: every unknown token makes the output shorter
    have hzeros := h.zeros
    obtain ⟨-, ip, m', -, hcode, hdocumented⟩ := hzeros.ensures.and (hprints _ _ hzeros)
    have htext := Files.append_cancel (hcode.symm.trans hdocumented)
    have hle : ((pieces (argumentAt (cleared m (blockLength segments))) 0
        (segments.map Segment.item)).flatMap Piece.bytes).length + unknown segments ≤
          (documented segments (zeros segments)).length :=
      length_bytes_add_unknown (Nat.le_refl 0) fun i w hlow hhigh =>
        argumentAt_cleared h.block hlow (by omega)
    rw [htext] at hle
    exact (unknown_eq_zero_iff segments).mp (by omega)
  · intro hdecimal m args h
    have hprints := h.ensures
    rwa [bytes_pieces hdecimal h.arguments] at hprints

/-- The segments of `n=%ub %sw%%%`. -/
def countAndOffset : List Segment :=
  [.literal ⟨ascii 'n', by decide⟩, .literal ⟨ascii '=', by decide⟩, .convert .unsigned .byte,
    .literal ⟨ascii ' ', by decide⟩, .convert .signed .word, .escape]

/-- `n=%ub %sw%%%` of 42 and -7 is printed as `n=42 -7%`. -/
theorem fprintf_documented_iff_decimal :
    stringFormat.Ensures .fprintf
      (callOf (formatOf countAndOffset) [0xF9#8, 0xFF#8, 0x2A#8, 0x00#8])
      (Prints (callOf (formatOf countAndOffset) [0xF9#8, 0xFF#8, 0x2A#8, 0x00#8])
        ("n=42 -7%".toList.map ascii)) := by
  have hcall : DocumentedCall (callOf (formatOf countAndOffset) [0xF9#8, 0xFF#8, 0x2A#8, 0x00#8])
      countAndOffset [42#32, 0xFFF9#32] :=
    documentedCall_callOf (by decide) (by decide) (by decide) ⟨by decide, by decide, trivial⟩
  have htext : documented countAndOffset [42#32, 0xFFF9#32] = "n=42 -7%".toList.map ascii := by decide
  rw [← htext]
  exact (fprintf_documented_iff hcall).mpr (by decide) _ _ hcall
/-- `%xb` of 42 prints nothing. -/
theorem not_fprintf_documented :
    ¬ ∀ m segments args, DocumentedCall m segments args →
      stringFormat.Ensures .fprintf m (Prints m (documented segments args)) := by
  intro h
  have hcall : DocumentedCall (callOf (formatOf [.convert .hex .byte]) [0x2A#8, 0x00#8])
      [.convert .hex .byte] [42#32] :=
    documentedCall_callOf (by decide) (by decide) (by decide) ⟨by decide, trivial⟩
  obtain ⟨-, ip, m', -, hcode, hdocumented⟩ := hcall.ensures.and (h _ _ _ hcall)
  have htext := Files.append_cancel (hcode.symm.trans hdocumented)
  exact absurd htext (by decide)

end StringFormat

end Ts3100

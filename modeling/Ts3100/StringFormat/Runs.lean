import Ts3100.StringFormat.Rounds

/-! # Runs of fprintf

Every call of `fprintf` returns and does what its format says, by induction on the format. What it
stores is within the ten bytes of its window exactly if no `%sd` writes eleven. -/

namespace Ts3100

namespace StringFormat

open I386
open RealMode (word)

variable {m₀ m : Machine Files} {format rest : List (Byte × Byte)} {done : List Piece} {k : Nat}

/-! ## Whole runs -/

/-- **Every run from `.next` does what the format says**, by induction on what is left of it. -/
theorem ensures_next (hcall : Call m₀ format) (h : AtNext m₀ format rest done k m) :
    stringFormat.Ensures .next m
      (Finished m₀ (done ++ pieces (argumentAt m₀) k (parse rest))) := by
  induction hn : rest.length using Nat.strong_induction_on generalizing rest done k m with
  | _ n ih =>
      obtain ⟨literal, rest', rfl, hliteral, hrest⟩ := exists_literal rest
      obtain ⟨m₁, hstep, heos⟩ := h.eos hcall hliteral hrest
      refine Program.Ensures.goto hstep ?_
      rw [parse_append hliteral, pieces_literal, ← literals, ← List.append_assoc]
      -- behind the bytes: the end, also of a token that is cut off, or a token
      by_cases hend : rest'.length ≤ 2
      · have hparse : parse rest' = [] := by
          rcases hrest with rfl | ⟨read, tail, rfl⟩
          · rfl
          · exact parse_end read (by simpa using hend)
        rw [hparse, pieces, List.append_nil]
        exact ensures_end hcall heos hend
      · obtain ⟨read, t₀, t₁, tail, rfl⟩ := exists_token hrest (by omega)
        obtain ⟨m₂, hstep', htoken⟩ := heos.token hcall
        have hlt : tail.length < n := by
          rw [← hn]
          simp only [List.length_append, List.length_cons]
          omega
        rw [parse_token]
        -- each outcome of the comparisons ends at `.next` with less of the format left
        cases hconversion : conversionOf (word t₁.2 t₀.2) with
        | none =>
            refine ensures_unknown hcall htoken hconversion (fun m' hnext => ?_) hstep'
            rw [pieces, hconversion]
            simpa using ih _ hlt hnext rfl
        | some c =>
            cases c with
            | escape =>
                refine ensures_escape hcall htoken hconversion (fun m' hnext => ?_) hstep'
                rw [pieces, hconversion]
                simpa using ih _ hlt hnext rfl
            | number r w =>
                refine ensures_number hcall htoken hconversion (fun m' hnext => ?_) hstep'
                rw [pieces, hconversion]
                simpa using ih _ hlt hnext rfl

/-- **Every call of `fprintf` returns**, and does what the format says. -/
theorem ensures_fprintf (hcall : Call m₀ format) :
    stringFormat.Ensures .fprintf m₀ (Finished m₀ (pieces (argumentAt m₀) 0 (parse format))) := by
  obtain ⟨hlow, hhigh⟩ := hcall.stack
  obtain ⟨f, hzero, hf⟩ := step_fprintf (m := m₀) (by omega) (by omega)
  refine Program.Ensures.goto hf ?_
  rw [← List.nil_append (pieces _ _ _)]
  have hsaved : read32 (RealMode.fill m₀.memory (m₀.ss.toNat * 16 + m₀.esp.toNat - 4) 4 (byteOf m₀.ebp))
      (m₀.ss.toNat * 16 + m₀.esp.toNat - 4) = m₀.ebp := read32_fill _
  refine ensures_next hcall {
    direction := rfl
    ds := rfl
    es := rfl
    ss := rfl
    ebx := rfl
    ebp := by simp
    used := Nat.zero_add _
    start := Nat.le_refl _
    position := rfl
    found := hcall.found
    read := hcall.read
    frame := fun x hx => RealMode.fill_of_notMem (by omega)
    saved := fun _ => hsaved
    stored := by simp
    esp := rfl
    ecx := hcall.length
    world := fun _ => ⟨by simp [written, Files.append], hzero (by omega)⟩ }


/-! ## Calls in one segment -/

/-- A format that is found and read in the same segment. -/
def sameSegment (bs : List Byte) : List (Byte × Byte) := bs.map fun b => (b, b)

/-- A call with all in one segment: the tables, the format at `0x300`, the stack below `0x1000`, and an
argument block that ends at `0x1010`. -/
def callOf (bs args : List Byte) : Machine Files where
  eax := 0#32
  ebx := 1#32
  ecx := BitVec.ofNat 32 bs.length
  edx := 0#32
  esi := 0#32
  edi := 0x300#32
  ebp := 0x1010#32
  esp := 0x1000#32
  ds := 0#16
  es := 0#16
  ss := 0#16
  flags := {}
  direction := false
  memory := storeBytes (storeBytes tableMemory 0x300 bs) (0x1010 - args.length) args
  stored := []
  world := fun _ => []

/-- What is in the memory of a sample call. -/
theorem callOf_memory {bs args : List Byte} (hbs : bs.length ≤ 0x100) (hargs : args.length ≤ 12) :
    (∀ x, x < 0x300 → (callOf bs args).memory x = tableMemory x) ∧
      BytesAt (callOf bs args).memory 0x300 bs ∧
      BytesAt (callOf bs args).memory (0x1010 - args.length) args ∧
      (∀ x, 0x400 ≤ x → x < 0x1010 - args.length → (callOf bs args).memory x = tableMemory x) := by
  refine ⟨fun x hx => ?_, ?_, bytesAt_storeBytes _ _ _, fun x hlow hhigh => ?_⟩
  · exact (storeBytes_of_notMem (by omega)).trans (storeBytes_of_notMem (by omega))
  · refine (bytesAt_storeBytes tableMemory 0x300 bs).congr fun i hi => ?_
    exact storeBytes_of_notMem (by omega)
  · exact (storeBytes_of_notMem (by omega)).trans (storeBytes_of_notMem (by omega))

/-- It is a call. -/
theorem call_callOf {bs args : List Byte} (hbs : bs.length ≤ 0x100) (hargs : args.length ≤ 12)
    (hconsumed : consumed (parse (sameSegment bs)) ≤ args.length) :
    Call (callOf bs args) (sameSegment bs) := by
  obtain ⟨htables, hformat, -, hstack⟩ := callOf_memory hbs hargs
  have hbytes : (sameSegment bs).map Prod.fst = bs ∧ (sameSegment bs).map Prod.snd = bs := by
    simp [sameSegment, Function.comp_def]
  have hlength : (sameSegment bs).length = bs.length := List.length_map _
  have hsegment : (callOf bs args).ss.toNat = 0 ∧ (callOf bs args).es.toNat = 0 ∧
      (callOf bs args).ds.toNat = 0 := ⟨rfl, rfl, rfl⟩
  have hesp : (callOf bs args).esp.toNat = 0x1000 := rfl
  have hedi : (callOf bs args).edi.toNat = 0x300 := rfl
  have hebp : (callOf bs args).ebp.toNat = 0x1010 := rfl
  -- the tables lie below the format, so the two stores leave them
  have hdivisors : HasDivisors tableMemory 0 := by
    unfold HasDivisors
    decide
  have hdigits : HasHexDigits tableMemory 0 := by
    unfold HasHexDigits BytesAt
    decide
  constructor
  case es_ss => rfl
  case stack => omega
  case length =>
    change (BitVec.ofNat 32 bs.length).toNat = _
    rw [BitVec.toNat_ofNat, hlength]
    omega
  case room => omega
  case found => rw [hbytes.1]; exact hformat
  case read => rw [hbytes.2]; exact hformat
  case arguments => omega
  case divisors => exact hdivisors.congr fun x _ hx => htables x (by omega)
  case hexDigits => exact hdigits.congr fun x _ hx => htables x (by omega)
  case returns =>
    have hreturn : read16 (callOf bs args).memory 0x1000 = read16 tableMemory 0x1000 :=
      read16_congr fun i hi => hstack _ (by omega) (by omega)
    change read16 (callOf bs args).memory 0x1000 ≠ printOffset
    rw [hreturn]
    decide
  all_goals
    unfold Apart
    omega

/-! ## The window -/

/-- The arguments that `%sd` writes, for a format of which `k` bytes of the argument block are used. -/
def signedDwords (value : Nat → Width → Dword) : Nat → List Item → List Int
  | _, [] => []
  | k, .char _ :: items => signedDwords value k items
  | k, .token t :: items =>
      (if conversionOf t = some (.number .signed .dword) then [(value (k + 4) .dword).toInt] else []) ++
        signedDwords value (k + (Item.token t).slot) items

/-- `fprintf` returned with its window respected: it stored nothing outside the ten bytes above it, it
returned to its caller, and `ebp` and `esp` are restored. -/
structure KeepsWindow (m₀ : Machine Files) (ip : RealMode.Word) (m : Machine Files) : Prop where
  stores : ∃ os, m.stored = m₀.stored ++ os ∧
    ∀ o ∈ os, m₀.esp.toNat - 14 ≤ o.toNat ∧ o.toNat < m₀.esp.toNat - 4
  ip : ip = read16 m₀.memory (m₀.ss.toNat * 16 + m₀.esp.toNat)
  ebp : m.ebp = m₀.ebp
  esp : m.esp = addSp m₀.esp 2#16

/-- The texts that are not a `%sd` fit. -/
theorem fits_text {r : Radix} {w : Width} (hr : r ≠ .binary) (v : Dword)
    (hsd : ¬ (r = .signed ∧ w = .dword)) : (Piece.converted (r.text w v)).Fits := by
  change (r.text w v).length ≤ 10
  have hpow : 2 ^ w.bits ≤ 2 ^ 32 := by cases w <;> decide
  cases r with
  | unsigned =>
      have hlt := (v.setWidth w.bits).isLt
      exact (length_decimalText_le (by omega)).mpr (by omega)
  | signed =>
      cases w with
      | byte =>
          change (signedText (v.setWidth 8).toInt).length ≤ 10
          have hlow := BitVec.le_toInt (v.setWidth 8)
          have hhigh := BitVec.toInt_lt (x := v.setWidth 8)
          exact (length_signedText_le (by omega) (by omega)).2.mpr (by omega)
      | word =>
          change (signedText (v.setWidth 16).toInt).length ≤ 10
          have hlow := BitVec.le_toInt (v.setWidth 16)
          have hhigh := BitVec.toInt_lt (x := v.setWidth 16)
          exact (length_signedText_le (by omega) (by omega)).2.mpr (by omega)
      | dword => exact absurd ⟨rfl, rfl⟩ hsd
  | hex =>
      rw [Radix.text, length_hexBytes]
      cases w <;> decide
  | binary => exact absurd rfl hr

/-- A `%sd` fits if its argument has at most nine digits or no sign. -/
theorem fits_signedDword (v : Dword) :
    (Piece.converted (Radix.signed.text .dword v)).Fits ↔ -1000000000 < v.toInt := by
  have hlow := BitVec.le_toInt v
  have hhigh := BitVec.toInt_lt (x := v)
  change (Radix.signed.text .dword v).length ≤ 10 ↔ _
  rw [Radix.text, Width.bits, BitVec.setWidth_eq]
  exact (length_signedText_le (by omega) (by omega)).2

/-- The pieces fit if the arguments of `%sd` do. -/
theorem forall_fits_iff (value : Nat → Width → Dword) (k : Nat) (items : List Item) :
    (∀ p ∈ pieces value k items, p.Fits) ↔ ∀ v ∈ signedDwords value k items, -1000000000 < v := by
  induction items generalizing k with
  | nil => simp [pieces, signedDwords]
  | cons item items ih =>
      cases item with
      | char c =>
          rw [pieces, signedDwords, List.forall_mem_cons, ih]
          exact and_iff_right (Nat.le_of_ble_eq_true rfl)
      | token t =>
          rw [pieces, signedDwords, List.forall_mem_append, ← ih, Item.slot]
          cases hconversion : conversionOf t with
          | none =>
              simp only [List.forall_mem_cons, reduceCtorEq, if_false, List.not_mem_nil, false_implies,
                implies_true, Nat.add_zero, true_and]
              exact and_iff_right (Nat.zero_le 10)
          | some c =>
              cases c with
              | escape =>
                  simp only [List.forall_mem_cons, Option.some.injEq, reduceCtorEq, if_false,
                    List.not_mem_nil, false_implies, implies_true, Nat.add_zero, true_and]
                  exact and_iff_right (Nat.le_of_ble_eq_true rfl)
              | number r w =>
                  simp only [List.forall_mem_cons, Option.some.injEq, Conversion.number.injEq]
                  refine and_congr_left fun _ => ?_
                  -- the signed doubleword is the only text that can be longer than the window
                  by_cases hsd : r = .signed ∧ w = .dword
                  · obtain ⟨rfl, rfl⟩ := hsd
                    simp [fits_signedDword, Width.slot]
                  · rw [if_neg hsd]
                    exact iff_of_true (fits_text (ne_binary hconversion) _ hsd) (by simp)

/-- The stores of a piece that fits are within the window. -/
theorem mem_stores (hlow : 28 ≤ m₀.esp.toNat) {p : Piece} {o : Dword} (hfits : p.Fits)
    (ho : o ∈ p.stores (windowOf m₀)) :
    m₀.esp.toNat - 14 ≤ o.toNat ∧ o.toNat < m₀.esp.toNat - 4 := by
  have hwindow := toNat_windowOf hlow
  cases p with
  | converted text =>
      obtain ⟨i, hi, rfl⟩ := List.mem_map.mp ho
      have hten : text.length ≤ 10 := hfits
      rw [List.mem_range] at hi
      rw [BitVec.toNat_add, BitVec.toNat_ofNat]
      omega
  | literal c => cases ho
  | skipped k => cases ho

/-- A piece that does not fit stores behind the window. -/
theorem exists_mem_stores (m₀ : Machine Files) {p : Piece} (hfits : ¬ p.Fits) :
    windowOf m₀ + 10#32 ∈ p.stores (windowOf m₀) := by
  cases p with
  | converted text =>
      have hten : 10 < text.length := Nat.lt_of_not_le hfits
      exact List.mem_map.mpr ⟨10, List.mem_range.mpr hten, rfl⟩
  | literal c => exact absurd (Nat.le_of_ble_eq_true rfl) hfits
  | skipped k => exact absurd (Nat.zero_le 10) hfits

/-- A call whose pieces all fit keeps its window. -/
theorem Finished.keepsWindow {ps : List Piece} {ip : RealMode.Word} (h : Finished m₀ ps ip m)
    (hlow : 28 ≤ m₀.esp.toNat) (hfits : ∀ p ∈ ps, p.Fits) : KeepsWindow m₀ ip m := by
  refine ⟨⟨_, h.stored, fun o ho => ?_⟩, h.ip, h.ebp hfits, h.esp⟩
  obtain ⟨p, hp, ho⟩ := List.mem_flatMap.mp ho
  exact mem_stores hlow (hfits p hp) ho

/-- A call that keeps its window has only pieces that fit. -/
theorem Finished.forall_fits {ps : List Piece} {ip : RealMode.Word} (h : Finished m₀ ps ip m)
    (hlow : 28 ≤ m₀.esp.toNat) (hkeeps : KeepsWindow m₀ ip m) : ∀ p ∈ ps, p.Fits := by
  obtain ⟨os, hstored, hos⟩ := hkeeps.stores
  rw [h.stored, List.append_cancel_left_eq] at hstored
  intro p hp
  by_contra hfits
  have hmem := List.mem_flatMap.mpr ⟨p, hp, exists_mem_stores m₀ hfits⟩
  rw [hstored] at hmem
  have hoffset : (windowOf m₀ + 10#32).toNat = m₀.esp.toNat - 4 := by
    have hwindow := toNat_windowOf hlow
    bv_omega
  exact absurd (hos _ hmem).2 (by omega)

/-- A call keeps its window if all its pieces fit, and only then. -/
theorem ensures_keepsWindow_iff (hcall : Call m₀ format) :
    stringFormat.Ensures .fprintf m₀ (KeepsWindow m₀) ↔
      ∀ p ∈ pieces (argumentAt m₀) 0 (parse format), p.Fits := by
  have hrun := ensures_fprintf hcall
  constructor
  · intro hkeeps
    obtain ⟨-, ip, m', -, hfinished, hwindow⟩ := hrun.and hkeeps
    exact hfinished.forall_fits hcall.stack.1 hwindow
  · exact fun hfits => hrun.mono fun ip m' hfinished => hfinished.keepsWindow hcall.stack.1 hfits

/-- **A call of `fprintf` keeps its window exactly if every argument of a `%sd` is greater than
-1000000000.** -/
theorem fprintf_window_iff (hcall : Call m format) :
    stringFormat.Ensures .fprintf m (KeepsWindow m) ↔
      ∀ v ∈ signedDwords (argumentAt m) 0 (parse format), -1000000000 < v := by
  rw [ensures_keepsWindow_iff hcall, forall_fits_iff]

/-- The format `%sd`. -/
def formatSd : List Byte := "%sd".toList.map ascii

/-- `%sd` of -999999999 fits. -/
theorem fprintf_window_iff_nine_digits :
    stringFormat.Ensures .fprintf (callOf formatSd [0x01#8, 0x36#8, 0x65#8, 0xC4#8])
      (KeepsWindow (callOf formatSd [0x01#8, 0x36#8, 0x65#8, 0xC4#8])) :=
  (fprintf_window_iff (call_callOf (by decide) (by decide) (by decide))).mpr (by decide)

/-- `%sd` of -2147483648 stores on the saved `ebp`. -/
theorem not_fprintf_window :
    ¬ ∀ m format, Call m format → stringFormat.Ensures .fprintf m (KeepsWindow m) := by
  intro h
  have hcall : Call (callOf formatSd [0x00#8, 0x00#8, 0x00#8, 0x80#8]) (sameSegment formatSd) :=
    call_callOf (by decide) (by decide) (by decide)
  have hfits := (ensures_keepsWindow_iff hcall).mp (h _ _ hcall)
  rw [forall_fits_iff] at hfits
  exact absurd (hfits (-2147483648) (by decide)) (by decide)

end StringFormat

end Ts3100

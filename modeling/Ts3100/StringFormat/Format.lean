import Ts3100.StringFormat.Hexadecimal

/-! # Format strings

How `fprintf` reads a format. It looks for `%` with `scasb`, through `es`; the two bytes behind it are
the token, read by `lodsw`, and the bytes before it are written, through `ds`. A byte of the format is
therefore a pair: what is found through `es` and what is read through `ds`.

* `parse` — the bytes and tokens that `fprintf` takes from a format.
* `pieces` — what it does with them, given the arguments. -/

namespace Ts3100

namespace StringFormat

open I386 Digits
open RealMode (Word word)

/-! ## Conversions -/

/-- The width of an argument. -/
inductive Width where
  | byte
  | word
  | dword
  deriving DecidableEq, Repr

/-- The number of bits of an argument. -/
def Width.bits : Width → Nat
  | .byte => 8
  | .word => 16
  | .dword => 32

/-- The number of bytes that an argument takes of the argument block. -/
def Width.slot : Width → Nat
  | .byte | .word => 2
  | .dword => 4

/-- How a number is written. -/
inductive Radix where
  | unsigned
  | signed
  | hex
  | binary
  deriving DecidableEq, Repr

/-- The text of an argument whose lowest bits are those of `v`. -/
def Radix.text (r : Radix) (w : Width) (v : Dword) : List Byte :=
  match r with
  | .unsigned => decimalText (v.setWidth w.bits).toNat
  | .signed => signedText (v.setWidth w.bits).toInt
  | .hex => hexBytes (w.bits / 4) (v.setWidth w.bits).toNat
  | .binary => (fixed 2 w.bits (v.setWidth w.bits).toNat).map digitByte

/-- What a token asks for. -/
inductive Conversion where
  | escape
  | number (r : Radix) (w : Width)
  deriving DecidableEq, Repr

/-- The tokens that the code compares with, as words of two characters. -/
def tokens : List (Word × Conversion) :=
  [(0x2525#16, .escape),
    (0x6268#16, .number .hex .byte),
    (0x6273#16, .number .signed .byte),
    (0x6275#16, .number .unsigned .byte),
    (0x7768#16, .number .hex .word),
    (0x7773#16, .number .signed .word),
    (0x7775#16, .number .unsigned .word),
    (0x6468#16, .number .hex .dword),
    (0x6473#16, .number .signed .dword),
    (0x6475#16, .number .unsigned .dword)]

/-- The conversion of a token. -/
def conversionOf (token : Word) : Option Conversion := tokens.lookup token

/-! ## Parsing -/

/-- `%`. -/
def percent : Byte := 0x25#8

/-- What `fprintf` takes from a format. -/
inductive Item where
  | char (c : Byte)
  | token (t : Word)
  deriving DecidableEq, Repr

/-- The items of a format. A `%` with fewer than two bytes behind it ends the format. -/
def parse : List (Byte × Byte) → List Item
  | [] => []
  | (found, read) :: rest =>
      if found = percent then
        match rest with
        | (_, t₀) :: (_, t₁) :: rest => .token (word t₁ t₀) :: parse rest
        | _ => []
      else .char read :: parse rest

/-- What `fprintf` does with an item: write a byte of the format, write a text, or drop an unknown token
with `consumed` bytes of the argument block used. -/
inductive Piece where
  | literal (c : Byte)
  | converted (text : List Byte)
  | skipped (consumed : Nat)
  deriving DecidableEq, Repr

/-- The bytes that a piece writes. -/
def Piece.bytes : Piece → List Byte
  | .literal c => [c]
  | .converted text => text
  | .skipped _ => []

/-- The offsets that a piece stores to, for a window at `o`. -/
def Piece.stores (o : Dword) : Piece → List Dword
  | .converted text => offsets o text.length
  | _ => []

/-- What `fprintf` does with the items of a format when `k` bytes of the argument block are used;
`value` is the argument at a distance from the end of the block. -/
def pieces (value : Nat → Width → Dword) : Nat → List Item → List Piece
  | _, [] => []
  | k, .char c :: items => .literal c :: pieces value k items
  | k, .token t :: items =>
      match conversionOf t with
      | some .escape => .converted [percent] :: pieces value k items
      | some (.number r w) =>
          .converted (r.text w (value (k + w.slot) w)) :: pieces value (k + w.slot) items
      | none => .skipped k :: pieces value k items

/-- How many bytes of the argument block an item uses. -/
def Item.slot : Item → Nat
  | .char _ => 0
  | .token t =>
      match conversionOf t with
      | some (.number _ w) => w.slot
      | _ => 0

/-- How many bytes of the argument block a format uses. -/
def consumed (items : List Item) : Nat := (items.map Item.slot).sum

/-! ## Pieces of a format -/

/-- A byte that is not `%` is taken as it is. -/
theorem parse_char {c : Byte × Byte} (h : c.1 ≠ percent) (rest : List (Byte × Byte)) :
    parse (c :: rest) = .char c.2 :: parse rest := by
  obtain ⟨found, read⟩ := c
  conv_lhs => unfold parse
  exact if_neg h

/-- `%` and two bytes are a token. -/
theorem parse_token (read : Byte) (t₀ t₁ : Byte × Byte) (rest : List (Byte × Byte)) :
    parse ((percent, read) :: t₀ :: t₁ :: rest) = .token (word t₁.2 t₀.2) :: parse rest := by
  rw [parse, if_pos rfl]

/-- `%` and fewer bytes are the end. -/
theorem parse_end (read : Byte) {rest : List (Byte × Byte)} (h : rest.length < 2) :
    parse ((percent, read) :: rest) = [] := by
  match rest with
  | [] => rfl
  | [_] => rfl
  | _ :: _ :: _ =>
      simp only [List.length_cons] at h
      omega

/-- Bytes before a `%` are taken one by one. -/
theorem parse_append {literal rest : List (Byte × Byte)} (h : ∀ c ∈ literal, c.1 ≠ percent) :
    parse (literal ++ rest) = literal.map (fun c => .char c.2) ++ parse rest := by
  induction literal with
  | nil => rfl
  | cons c literal ih =>
      rw [List.forall_mem_cons] at h
      rw [List.cons_append, parse_char h.1, ih h.2, List.map_cons, List.cons_append]

/-- Literal characters are pieces of their own. -/
theorem pieces_literal (value : Nat → Width → Dword) (k : Nat) (literal : List (Byte × Byte))
    (items : List Item) :
    pieces value k (literal.map (fun c => .char c.2) ++ items) =
      literal.map (fun c => .literal c.2) ++ pieces value k items := by
  induction literal with
  | nil => rfl
  | cons c literal ih => rw [List.map_cons, List.cons_append, pieces, ih, List.map_cons, List.cons_append]

/-- They take no arguments. -/
theorem consumed_literal (literal : List (Byte × Byte)) (items : List Item) :
    consumed (literal.map (fun c => .char c.2) ++ items) = consumed items := by
  induction literal with
  | nil => rfl
  | cons c literal ih =>
      rw [List.map_cons, List.cons_append, consumed, List.map_cons, List.sum_cons]
      exact (Nat.zero_add _).trans ih

/-- They are printed as they are. -/
theorem bytes_literal (literal : List (Byte × Byte)) :
    (literal.map fun c => Piece.literal c.2).flatMap Piece.bytes = literal.map Prod.snd := by
  induction literal with
  | nil => rfl
  | cons c literal ih => rw [List.map_cons, List.flatMap_cons, ih]; rfl

/-- Nothing is stored in the window for them. -/
theorem stores_literal (o : Dword) (literal : List (Byte × Byte)) :
    (literal.map fun c => Piece.literal c.2).flatMap (Piece.stores o) = [] := by
  induction literal with
  | nil => rfl
  | cons c literal ih => rw [List.map_cons, List.flatMap_cons, ih]; rfl

/-- A format is bytes without `%`, and then the end, or `%` and what follows it. -/
theorem exists_literal (format : List (Byte × Byte)) :
    ∃ literal rest, format = literal ++ rest ∧ (∀ c ∈ literal, c.1 ≠ percent) ∧
      (rest = [] ∨ ∃ read rest', rest = (percent, read) :: rest') := by
  induction format with
  | nil => exact ⟨[], [], rfl, by simp, Or.inl rfl⟩
  | cons c format ih =>
      by_cases hc : c.1 = percent
      · exact ⟨[], c :: format, rfl, by simp, Or.inr ⟨c.2, format, by rw [← hc]⟩⟩
      · obtain ⟨literal, rest, rfl, hliteral, hrest⟩ := ih
        refine ⟨c :: literal, rest, rfl, ?_, hrest⟩
        rw [List.forall_mem_cons]
        exact ⟨hc, hliteral⟩

/-- `%` and more bytes than one are `%`, a token and the rest. -/
theorem exists_token {rest : List (Byte × Byte)}
    (hrest : rest = [] ∨ ∃ read rest', rest = (percent, read) :: rest') (hlength : 2 < rest.length) :
    ∃ read t₀ t₁ tail, rest = (percent, read) :: t₀ :: t₁ :: tail := by
  rcases hrest with rfl | ⟨read, rest', rfl⟩
  · cases hlength
  · obtain ⟨t₀, rest', rfl⟩ := List.exists_cons_of_length_pos (l := rest') (by
      rw [List.length_cons] at hlength
      omega)
    obtain ⟨t₁, tail, rfl⟩ := List.exists_cons_of_length_pos (l := rest') (by
      rw [List.length_cons, List.length_cons] at hlength
      omega)
    exact ⟨read, t₀, t₁, tail, rfl⟩

end StringFormat

end Ts3100

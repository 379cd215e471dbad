import Ts3100.Library.SearchTree
import Mathlib.Data.BitVec

/-! # Address ranges as keys

The dispatch tables are maps keyed by address ranges, where a range is less than another iff it ends
before the other starts. Two keys count as equal iff their ranges overlap, which is not transitive.

* `PortRange.shares_iff` — neither of two ranges is less iff they share an address.
* `routing_exact` — the ranges of a table stay disjoint and in order, a range is refused iff it
  shares an address with a stored one, and a port is found in the range that contains it. -/

namespace Ts3100

/-- `AddressRange`; `size_type` is 64 bits wide. -/
structure AddressRange where
  start : BitVec 64
  length : BitVec 64
  deriving DecidableEq, Repr

namespace AddressRange

/-- `operator<`. -/
instance : LT AddressRange where
  lt lhs rhs := lhs.start + lhs.length - 1#64 < rhs.start

instance (lhs rhs : AddressRange) : Decidable (lhs < rhs) :=
  inferInstanceAs (Decidable (lhs.start + lhs.length - 1#64 < rhs.start))

/-- The range contains an address. -/
def Contains (r : AddressRange) (address : Nat) : Prop :=
  r.start.toNat ≤ address ∧ address < r.start.toNat + r.length.toNat

instance (r : AddressRange) (address : Nat) : Decidable (r.Contains address) :=
  inferInstanceAs (Decidable (_ ∧ _))

/-- Two ranges share an address. -/
def Shares (r s : AddressRange) : Prop := ∃ address, r.Contains address ∧ s.Contains address

end AddressRange

/-- A range of at least one address whose last address is a `size_type`. -/
structure PortRange extends AddressRange where
  length_pos : 1 ≤ length.toNat
  last_lt : start.toNat + length.toNat - 1 < 2 ^ 64
  deriving DecidableEq

namespace PortRange

/-- The order of the tables. -/
def Less (r s : PortRange) : Prop := r.toAddressRange < s.toAddressRange

instance : DecidableRel Less := fun r s =>
  inferInstanceAs (Decidable (r.toAddressRange < s.toAddressRange))

/-- The key for an address, a range of length one. -/
def ofAddress (address : BitVec 64) : PortRange where
  start := address
  length := 1#64
  length_pos := by decide
  last_lt := by
    have hlt := address.isLt
    simpa using hlt

variable {r s : PortRange}

/-- The range ends before the other starts. -/
theorem less_iff : Less r s ↔ r.start.toNat + r.length.toNat ≤ s.start.toNat := by
  have hpos := r.length_pos
  have hlast := r.last_lt
  have hlength := r.length.isLt
  unfold Less
  show r.start + r.length - 1#64 < s.start ↔ _
  rw [BitVec.lt_def]
  have hend : (r.start + r.length - 1#64).toNat = r.start.toNat + r.length.toNat - 1 := by
    bv_omega
  omega

instance : IsTrans PortRange Less where
  trans r s q hrs hsq := by
    rw [less_iff] at hrs hsq ⊢
    omega

/-- Two ranges are equal as keys iff they share an address. -/
theorem shares_iff : r.Shares s.toAddressRange ↔ ¬ Less r s ∧ ¬ Less s r := by
  have hr := r.length_pos
  have hs := s.length_pos
  rw [less_iff, less_iff]
  constructor
  · rintro ⟨address, ⟨hr1, hr2⟩, hs1, hs2⟩
    omega
  · intro h
    by_cases hle : r.start.toNat ≤ s.start.toNat
    · exact ⟨s.start.toNat, ⟨hle, by omega⟩, le_rfl, by omega⟩
    · exact ⟨r.start.toNat, ⟨le_rfl, by omega⟩, by omega, by omega⟩

/-- The key for an address shares an address with a range iff the range contains it. -/
theorem ofAddress_shares_iff {address : BitVec 64} :
    r.Shares (ofAddress address).toAddressRange ↔ r.Contains address.toNat := by
  constructor
  · rintro ⟨a, hr, ha1, ha2⟩
    have haddress : (ofAddress address).start = address := rfl
    have hlength : (ofAddress address).length = 1#64 := rfl
    rw [haddress] at ha1 ha2
    rw [hlength, BitVec.toNat_ofNat] at ha2
    have heq : a = address.toNat := by omega
    exact heq ▸ hr
  · exact fun hr => ⟨address.toNat, hr, le_rfl, by
      show address.toNat < address.toNat + (1#64).toNat
      simp⟩

end PortRange

open SearchTree (Built)

variable {V : Type*} {table : SearchTree PortRange V} {history : List ((PortRange × V) × Bool)}

/-- An entry is refused iff its range shares an address with a stored one. -/
theorem emplace_eq_none_iff_shares (hbuilt : Built PortRange.Less history table) (r : PortRange)
    (v : V) :
    table.emplace PortRange.Less r v = none ↔ ∃ e ∈ table.toList, e.1.Shares r.toAddressRange := by
  rw [SearchTree.emplace_eq_none_iff, Ne, SearchTree.find?_eq_none_iff hbuilt.ordered]
  push Not
  refine exists_congr fun e => and_congr_right fun _ => ?_
  rw [PortRange.shares_iff, and_comm]

/-- Ranges in order do not overlap, so an address is in one of them at most. -/
theorem eq_of_contains (hbuilt : Built PortRange.Less history table) {a b : PortRange × V}
    (ha : a ∈ table.toList) (hb : b ∈ table.toList) {address : Nat} (hac : a.1.Contains address)
    (hbc : b.1.Contains address) : a = b := by
  by_contra hne
  have hless := hbuilt.ordered.comparable ha hb hne
  have hshares : a.1.Shares b.1.toAddressRange := ⟨address, hac, hbc⟩
  rw [PortRange.shares_iff] at hshares
  exact hless.elim hshares.1 hshares.2

/-- A search for an address finds the entry whose range contains it. -/
theorem find?_eq_some_iff_contains (hbuilt : Built PortRange.Less history table)
    (address : BitVec 64) (e : PortRange × V) :
    table.find? PortRange.Less (PortRange.ofAddress address) = some e ↔
      e ∈ table.toList ∧ e.1.Contains address.toNat := by
  constructor
  · intro h
    obtain ⟨hmem, hbelow, habove⟩ := SearchTree.mem_of_find?_eq_some h
    exact ⟨hmem, PortRange.ofAddress_shares_iff.mp (PortRange.shares_iff.mpr ⟨habove, hbelow⟩)⟩
  · rintro ⟨hmem, hcontains⟩
    cases hfind : table.find? PortRange.Less (PortRange.ofAddress address) with
    | none =>
        rw [SearchTree.find?_eq_none_iff hbuilt.ordered] at hfind
        have hshares := PortRange.shares_iff.mp (PortRange.ofAddress_shares_iff.mpr hcontains)
        rcases hfind e hmem with h | h
        · exact absurd h hshares.2
        · exact absurd h hshares.1
    | some e' =>
        obtain ⟨hmem', hbelow, habove⟩ := SearchTree.mem_of_find?_eq_some hfind
        have hcontains' :=
          PortRange.ofAddress_shares_iff.mp (PortRange.shares_iff.mpr ⟨habove, hbelow⟩)
        rw [eq_of_contains hbuilt hmem' hmem hcontains' hcontains]

/-- **Routing by ranges is exact.** After any sequence of insertions, at any shape of the tree: the
stored ranges are disjoint and in order of their starts, the entries are those that were not
refused, an insertion is refused iff its range shares an address with a stored one, and a search for
a port finds the entry whose range contains it, if there is one. -/
theorem routing_exact (history : List ((PortRange × V) × Bool)) (table : SearchTree PortRange V)
    (hbuilt : Built PortRange.Less history table) :
    (table.toList.Pairwise fun a b =>
      a.1.start < b.1.start ∧ ¬ a.1.Shares b.1.toAddressRange) ∧
    (∀ e, e ∈ table.toList ↔ (e, true) ∈ history) ∧
    (∀ (r : PortRange) (v : V), table.emplace PortRange.Less r v = none ↔
      ∃ e ∈ table.toList, e.1.Shares r.toAddressRange) ∧
    ∀ port : BitVec 64,
      (∀ e, table.find? PortRange.Less (PortRange.ofAddress port) = some e ↔
        e ∈ table.toList ∧ e.1.Contains port.toNat) ∧
      (table.find? PortRange.Less (PortRange.ofAddress port) = none ↔
        ∀ e ∈ table.toList, ¬ e.1.Contains port.toNat) := by
  refine ⟨?_, hbuilt.mem_toList, emplace_eq_none_iff_shares hbuilt, fun port =>
    ⟨find?_eq_some_iff_contains hbuilt port, ?_⟩⟩
  · refine hbuilt.ordered.imp fun {a b} hless => ⟨?_, fun hshares => ?_⟩
    · have hpos := a.1.length_pos
      rw [PortRange.less_iff] at hless
      rw [BitVec.lt_def]
      omega
    · exact (PortRange.shares_iff.mp hshares).1 hless
  · rw [SearchTree.find?_eq_none_iff hbuilt.ordered]
    refine forall₂_congr fun e _ => ?_
    rw [← PortRange.ofAddress_shares_iff, PortRange.shares_iff]
    tauto

/-- The addresses of two serial ports. -/
def serialPorts : SearchTree PortRange Nat :=
  .node .leaf ⟨⟨0x2f8#64, 8#64⟩, by decide, by decide⟩ 2
    (.node .leaf ⟨⟨0x3f8#64, 8#64⟩, by decide, by decide⟩ 1 .leaf)

/-- A port of one of them is found, and a range over both is refused. -/
theorem routing_exact_serialPorts :
    (serialPorts.find? PortRange.Less (PortRange.ofAddress 0x3fa#64)).isSome ∧
      serialPorts.emplace PortRange.Less ⟨⟨0x3f0#64, 9#64⟩, by decide, by decide⟩ 3 = none := by
  -- the tree has been rotated after the second insertion
  have hbuilt : Built PortRange.Less
      [((⟨⟨0x2f8#64, 8#64⟩, by decide, by decide⟩, 2), true),
        ((⟨⟨0x3f8#64, 8#64⟩, by decide, by decide⟩, 1), true)] serialPorts :=
    .accepted (.accepted .empty rfl rfl) rfl rfl
  obtain ⟨-, -, hrefused, hfind⟩ := routing_exact _ serialPorts hbuilt
  constructor
  · have hcom1 := ((hfind 0x3fa#64).1 (⟨⟨0x3f8#64, 8#64⟩, by decide, by decide⟩, 1)).mpr
      (by decide)
    rw [hcom1]
    rfl
  · exact (hrefused _ 3).mpr ⟨(⟨⟨0x3f8#64, 8#64⟩, by decide, by decide⟩, 1), by decide,
      0x3f8, by decide, by decide⟩

end Ts3100

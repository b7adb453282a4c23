import MasqueServer.CapsuleEncoder

/-!
# Route advertisements are ordered as a whole

The decoder compares each range of a ROUTE_ADVERTISEMENT with the one before it only. Because
the ends of every range are in order, that is enough: any two ranges of an accepted value are in
order, and those of one version and protocol are disjoint.
-/
namespace MasqueServer

open List

namespace IpAddressRange

/-- A range may stand before another one, next to it or not. -/
structure Before (earlier later : IpAddressRange) : Prop where
  sorted : earlier.version < later.version ∨
    earlier.version = later.version ∧ earlier.ipProtocol ≤ later.ipProtocol
  disjoint : earlier.version = later.version → earlier.ipProtocol = later.ipProtocol →
    addressValue earlier.endAddr < addressValue later.startAddr

variable {first second third : IpAddressRange}

lemma precedes_iff_before : first.Precedes second ↔ first.Before second := by
  have hcases : first.Precedes second ↔
      (first.version < second.version ∨
        first.version = second.version ∧ first.ipProtocol ≤ second.ipProtocol) ∧
      (first.version = second.version → first.ipProtocol = second.ipProtocol →
        addressValue first.endAddr < addressValue second.startAddr) := by
    simp only [Precedes, UInt8.lt_iff_toNat_lt, UInt8.le_iff_toNat_le, ← UInt8.toNat_inj]
    omega
  exact hcases.trans ⟨fun h => ⟨h.1, h.2⟩, fun h => ⟨h.sorted, h.disjoint⟩⟩

lemma Precedes.trans (h : first.Precedes second) (hsecond : second.WellFormed)
    (h' : second.Precedes third) : first.Precedes third := by
  have hends := hsecond.ordered
  simp only [Precedes, UInt8.lt_iff_toNat_lt, ← UInt8.toNat_inj] at h h' ⊢
  omega

lemma pairwise_of_isChain {ranges : List IpAddressRange}
    (hranges : ∀ range ∈ ranges, range.WellFormed) (hchain : ranges.IsChain Precedes) :
    ranges.Pairwise Precedes := by
  induction ranges with
  | nil => exact .nil
  | cons first rest ih =>
    have hrest := ih (fun range hrange => hranges range (mem_cons_of_mem first hrange))
      hchain.tail
    refine pairwise_cons.mpr ⟨fun range hrange => ?_, hrest⟩
    cases rest with
    | nil => cases hrange
    | cons second rest =>
      have hfirst := (isChain_cons_cons.mp hchain).1
      obtain rfl | hlater := mem_cons.mp hrange
      · exact hfirst
      · refine hfirst.trans (hranges second (by simp)) ?_
        exact (pairwise_cons.mp hrest).1 range hlater

end IpAddressRange

/-- A value is accepted exactly when it consists of whole entries, the ends of each are of one
family and in order, and any two of them are in order and disjoint; they are returned as they
stand on the wire. -/
theorem parseAddressRanges_iff (value : Bytes) (ranges : List IpAddressRange) :
    parseAddressRanges value = .ok ranges ↔
      value = ranges.flatMap IpAddressRange.octets ∧
      (∀ range ∈ ranges, range.WellFormed) ∧ ranges.Pairwise IpAddressRange.Before := by
  have hpairs : ranges.Pairwise IpAddressRange.Before ↔ ranges.Pairwise IpAddressRange.Precedes :=
    List.Pairwise.iff fun _ _ => IpAddressRange.precedes_iff_before.symm
  rw [hpairs]
  constructor
  · intro h
    obtain ⟨hordered, hvalue⟩ := rangesOrdered_of_parse h
    obtain ⟨hranges, hchain⟩ := rangesOrdered_iff.mp hordered
    exact ⟨hvalue.symm, hranges, IpAddressRange.pairwise_of_isChain hranges hchain⟩
  · rintro ⟨rfl, hranges, hpairwise⟩
    exact parseAddressRanges_octets (rangesOrdered_iff.mpr ⟨hranges, hpairwise.isChain⟩)

end MasqueServer

import Mathlib

/-!
# 32-bit words in network byte order

A word goes out as four bytes, the most significant first, and the two
directions are inverse to each other.
-/

namespace NetworkOrder

/-- The four bytes of a word, most significant first. -/
def hostToNetworkLong (x : UInt32) : List UInt8 :=
  [UInt8.ofNat (x.toNat / 2 ^ 24), UInt8.ofNat (x.toNat / 2 ^ 16), UInt8.ofNat (x.toNat / 2 ^ 8),
    UInt8.ofNat x.toNat]

/-- The word whose bytes, most significant first, are these. -/
def networkToHostLong (b0 b1 b2 b3 : UInt8) : UInt32 :=
  UInt32.ofNat (b0.toNat * 2 ^ 24 + b1.toNat * 2 ^ 16 + b2.toNat * 2 ^ 8 + b3.toNat)

/-- **What goes out comes back.** -/
theorem networkToHostLong_hostToNetworkLong (x : UInt32) :
    networkToHostLong (UInt8.ofNat (x.toNat / 2 ^ 24)) (UInt8.ofNat (x.toNat / 2 ^ 16))
      (UInt8.ofNat (x.toNat / 2 ^ 8)) (UInt8.ofNat x.toNat) = x := by
  have hx : x.toNat < 2 ^ 32 := x.toNat_lt
  apply UInt32.toNat_inj.mp
  simp only [networkToHostLong, UInt32.toNat_ofNat', UInt8.toNat_ofNat']
  omega

/-- **What comes in goes out again.** -/
theorem hostToNetworkLong_networkToHostLong (b0 b1 b2 b3 : UInt8) :
    hostToNetworkLong (networkToHostLong b0 b1 b2 b3) = [b0, b1, b2, b3] := by
  have h0 : b0.toNat < 2 ^ 8 := b0.toNat_lt
  have h1 : b1.toNat < 2 ^ 8 := b1.toNat_lt
  have h2 : b2.toNat < 2 ^ 8 := b2.toNat_lt
  have h3 : b3.toNat < 2 ^ 8 := b3.toNat_lt
  simp only [hostToNetworkLong, networkToHostLong, List.cons.injEq, and_true]
  refine ⟨?_, ?_, ?_, ?_⟩ <;>
    · apply UInt8.toNat_inj.mp
      simp only [UInt32.toNat_ofNat', UInt8.toNat_ofNat']
      omega

end NetworkOrder

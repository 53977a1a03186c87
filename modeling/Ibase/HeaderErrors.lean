import Ibase.Lib.ParityCheck
import Ibase.Codec

/-!
# Bit errors in a header

`calc_crc8` walks a table of 256 bytes.  The table is linear over single bits
(`crc8At_eq`), so the CRC is the register of a linear code, and a header passes
its check when the sum of the columns of its set bits has one fixed value.  There
are 120 columns, all different and all odd, and so an error of one, two or three
bits never leads from one such header to another.
-/

namespace Ibase

open ParityCheck Finset

/-- A byte as a vector of bits. -/
def bits (b : UInt8) : Fin 8 → ZMod 2 := fun j => if b.toBitVec.getLsbD j then 1 else 0

/-- `crc8_table[b]`. -/
def crc8At (b : UInt8) : UInt8 := crc8Table.getD b.toNat 0

theorem bits_zero : bits 0 = 0 := by
  funext j
  simp [bits]

theorem bits_xor (a b : UInt8) : bits (a ^^^ b) = bits a + bits b := by
  funext j
  simp only [bits, Pi.add_apply, UInt8.toBitVec_xor, BitVec.getLsbD_xor]
  cases a.toBitVec.getLsbD j <;> cases b.toBitVec.getLsbD j <;> decide

theorem bits_shiftLeft (j : Fin 8) : bits (1 <<< UInt8.ofNat j) = Pi.single j 1 := by
  revert j
  decide +kernel

/-! ### The table is linear -/

/-- Every entry of the table is the sum of the entries of its single bits. -/
theorem crc8At_eq (b : UInt8) :
    crc8At b = (List.finRange 8).foldl
      (fun v (j : Fin 8) => if b.toBitVec.getLsbD j then v ^^^ crc8At (1 <<< UInt8.ofNat j) else v) 0 := by
  have hall : ∀ n : Fin 256, crc8At (UInt8.ofFin n) = (List.finRange 8).foldl
      (fun v (j : Fin 8) => if n.val.testBit j then v ^^^ crc8At (1 <<< UInt8.ofNat j) else v) 0 := by
    decide +kernel
  exact hall b.toFin

theorem bits_foldl (js : List (Fin 8)) (q : Fin 8 → Bool) (w : Fin 8 → UInt8) (v : UInt8) :
    bits (js.foldl (fun v j => if q j then v ^^^ w j else v) v) =
      bits v + (js.map fun j => (if q j then (1 : ZMod 2) else 0) • bits (w j)).sum := by
  induction js generalizing v with
  | nil => simp
  | cons j js ih =>
    rw [List.foldl_cons, ih, List.map_cons, List.sum_cons, ← add_assoc]
    congr 1
    cases q j with
    | true => rw [if_pos rfl, if_pos rfl, one_smul, bits_xor]
    | false => rw [if_neg (by decide), if_neg (by decide), zero_smul, add_zero]

/-- The linear map whose values on bytes are the table. -/
def tableMap : (Fin 8 → ZMod 2) →ₗ[ZMod 2] (Fin 8 → ZMod 2) :=
  Fintype.linearCombination (ZMod 2) fun j => bits (crc8At (1 <<< UInt8.ofNat j))

theorem bits_crc8At (b : UInt8) : bits (crc8At b) = tableMap (bits b) := by
  conv_lhs => rw [crc8At_eq, bits_foldl, bits_zero, zero_add]
  rw [tableMap, Fintype.linearCombination_apply, Fin.sum_univ_def]
  rfl

theorem tableMap_pow (k : Nat) (b : UInt8) : (tableMap ^ k) (bits b) = bits (crc8At^[k] b) := by
  induction k with
  | zero => rfl
  | succ k ih =>
    rw [pow_succ', Module.End.mul_apply, ih, Function.iterate_succ_apply', bits_crc8At]

/-- The CRC is the register of the bytes. -/
theorem bits_calcCrc8 (s : List UInt8) (n : Nat) :
    bits (calcCrc8 s n) = register tableMap (bits 0x77) ((s.take n).map bits) := by
  rw [calcCrc8, register]
  generalize (0x77 : UInt8) = v
  induction s.take n generalizing v with
  | nil => rfl
  | cons b s ih =>
    rw [List.foldl_cons, List.map_cons, List.foldl_cons, ← bits_xor, ← bits_crc8At]
    exact ih _

/-! ### The columns -/

/-- What a set bit of a header adds to the difference of the CRC and the last byte. -/
def column (p : Fin 15 × Fin 8) : UInt8 := crc8At^[14 - p.1] (1 <<< UInt8.ofNat p.2)

theorem column_last (j : Fin 8) : column (Fin.last 14, j) = 1 <<< UInt8.ofNat j := rfl

theorem bits_injective : Function.Injective bits := by
  intro a b h
  apply UInt8.toBitVec_inj.mp
  apply BitVec.eq_of_getLsbD_eq
  intro j hj
  have hbit := congrFun h ⟨j, hj⟩
  simp only [bits] at hbit
  revert hbit
  cases a.toBitVec.getLsbD j <;> cases b.toBitVec.getLsbD j <;> decide

theorem column_injective : Function.Injective column := by
  have hnodup : (List.ofFn fun n : Fin (15 * 8) => column (finProdFinEquiv.symm n)).Nodup := by
    decide +kernel
  have hinj := List.nodup_ofFn.mp hnodup
  intro p q h
  have heq : finProdFinEquiv p = finProdFinEquiv q := by
    apply hinj
    simpa only [Equiv.symm_apply_apply] using h
  exact finProdFinEquiv.injective heq

theorem column_odd : ∀ p, ∑ j, bits (column p) j = 1 := by decide +kernel

/-- The number of set bits of a byte, modulo two. -/
def parity : (Fin 8 → ZMod 2) →+ ZMod 2 where
  toFun v := ∑ j, v j
  map_zero' := Finset.sum_const_zero
  map_add' _ _ := Finset.sum_add_distrib

/-! ### Headers -/

/-- The difference of the CRC of a header and its last byte. -/
def syndrome (s : List UInt8) : Fin 8 → ZMod 2 := bits (calcCrc8 s 14) + bits (s.getD 14 0)

/-- A bit of a header. -/
def bitAt (s : List UInt8) (p : Fin 15 × Fin 8) : Bool := (s.getD p.1 0).toBitVec.getLsbD p.2

/-- The bits in which two headers differ. -/
def changedBits (s t : List UInt8) : Finset (Fin 15 × Fin 8) :=
  Finset.univ.filter fun p => bitAt s p ≠ bitAt t p

theorem syndrome_eq {s : List UInt8} (h : 15 ≤ s.length) :
    syndrome s = (tableMap ^ 14) (bits 0x77) +
      ∑ p, (if bitAt s p then (1 : ZMod 2) else 0) • bits (column p) := by
  have hlen : ((s.take 14).map bits).length = 14 := by
    rw [List.length_map, List.length_take]
    omega
  have hword : ∀ i < 14, ((s.take 14).map bits).getD i 0 = bits (s.getD i 0) := by
    intro i hi
    rw [List.getD_eq_getElem?_getD, List.getD_eq_getElem?_getD, List.getElem?_map,
      List.getElem?_take_of_lt hi, List.getElem?_eq_getElem (show i < s.length by omega)]
    rfl
  have hlast : bits (s.getD 14 0) =
      ∑ j, bits (s.getD 14 0) j • bits (column (Fin.last 14, j)) := by
    simp only [column_last, bits_shiftLeft, ← Pi.single_smul, smul_eq_mul, mul_one]
    exact (univ_sum_single _).symm
  have hterm : ∀ i < 14, ∀ j : Fin 8,
      ((s.take 14).map bits).getD i 0 j • (tableMap ^ (14 - i)) (Pi.single j 1) =
        bits (s.getD i 0) j • bits (crc8At^[14 - i] (1 <<< UInt8.ofNat j)) := by
    intro i hi j
    rw [hword i hi, ← bits_shiftLeft, tableMap_pow]
  have hsplit : ∑ p : Fin 15 × Fin 8, bits (s.getD p.1 0) p.2 • bits (column p) =
      (∑ i ∈ range 14, ∑ j, ((s.take 14).map bits).getD i 0 j •
        (tableMap ^ (14 - i)) (Pi.single j 1)) + bits (s.getD 14 0) := by
    rw [Fintype.sum_prod_type, Fin.sum_univ_castSucc, Finset.sum_range]
    refine congrArg₂ (· + ·) (Finset.sum_congr rfl fun i _ => ?_) hlast.symm
    exact Finset.sum_congr rfl fun j _ => (hterm i i.isLt j).symm
  rw [syndrome, bits_calcCrc8, register_eq_sum, hlen, add_assoc, ← hsplit]
  rfl

/-- Two headers have syndromes that differ by the columns of the bits in which
they differ. -/
theorem syndrome_add_syndrome {s t : List UInt8} (hs : 15 ≤ s.length) (ht : 15 ≤ t.length) :
    syndrome s + syndrome t = ∑ p ∈ changedBits s t, bits (column p) := by
  rw [syndrome_eq hs, syndrome_eq ht, add_add_add_comm, ZModModule.add_self, zero_add,
    ← Finset.sum_add_distrib, changedBits, Finset.sum_filter]
  refine Finset.sum_congr rfl fun p _ => ?_
  rw [← add_smul]
  cases bitAt s p <;> cases bitAt t p <;> simp [CharTwo.add_self_eq_zero]

theorem syndrome_of_crc {s : List UInt8} (h : calcCrc8 s 14 = (PacketHeader.ofBytes s).crc) :
    syndrome s = 0 := by
  have hlast : (PacketHeader.ofBytes s).crc = s.getD 14 0 := rfl
  rw [syndrome, h, hlast, ZModModule.add_self]

/-- The header that `build_packet` makes passes the CRC. -/
theorem syndrome_buildPacket {cmd seq : UInt32} {isPush : Bool} {bodyBuf : Option (List UInt8)}
    {bodyLen : UInt32} {p : Packet} (hp : buildPacket cmd seq isPush bodyBuf bodyLen = some p) :
    15 ≤ p.data.length ∧ syndrome p.data = 0 := by
  rw [buildPacket] at hp
  split at hp
  · exact absurd hp (by simp)
  rw [← Option.some.inj hp]
  simp only [Packet.new]
  constructor
  · rw [List.length_append, PacketHeader.length_bytes]
    exact Nat.le_add_right ..
  · apply syndrome_of_crc
    rw [PacketHeader.ofBytes_bytes, calcCrc8_append _ (by simp)]
    rfl

/-- **A header with one, two or three wrong bits is not taken for a frame**: where
`build_packet` put a header and it arrives so changed, no packet starts. -/
theorem changed_header_not_parsed {cmd seq : UInt32} {isPush : Bool}
    {bodyBuf : Option (List UInt8)} {bodyLen : UInt32} {p : Packet}
    (hp : buildPacket cmd seq isPush bodyBuf bodyLen = some p) {header : List UInt8}
    (hlen : header.length = 15) (hne : 1 ≤ (changedBits p.data header).card)
    (hle : (changedBits p.data header).card ≤ 3) (before after : List UInt8) {bufLen : UInt32}
    (hbuf : (before ++ header ++ after).length = bufLen.toNat) {q : Packet} {c : UInt32}
    (hparse : parsePacket (before ++ header ++ after) bufLen = (some q, c)) :
    c.toNat ≠ before.length + q.length.toNat := by
  obtain ⟨off, hstart, hq, hc, -, -⟩ := parsePacket_some (Nat.le_of_eq hbuf.symm) hparse
  rw [← hbuf, List.take_length] at hstart hq
  intro heq
  have hqlen : q.length.toNat = 15 + q.bodyLength.toNat := by
    have hbody : q.bodyLength.toNat ≤ 16369 := by
      rw [hq]
      exact UInt32.le_iff_toNat_le.mp hstart.2
    rw [Packet.length, UInt32.toNat_add, headerLength_toNat]
    omega
  have hoff : off = before.length := by omega
  rw [hoff, List.append_assoc, List.drop_left] at hstart
  -- the changed header would pass the CRC as the header that was sent does
  obtain ⟨⟨-, -, hcrc⟩, -⟩ := hstart
  rw [calcCrc8_append _ (by omega), ofBytes_append _ (by omega)] at hcrc
  obtain ⟨hlong, hsent⟩ := syndrome_buildPacket hp
  have hsum := syndrome_add_syndrome hlong (Nat.le_of_eq hlen.symm)
  rw [hsent, syndrome_of_crc hcrc, add_zero] at hsum
  exact sum_ne_zero (bits_injective.comp column_injective) parity column_odd hne hle hsum.symm

/-- The header of `emptyFrame` with three wrong bits. -/
def wrongHeader : List UInt8 := (emptyFrame.set 4 0x06).set 13 0x81

theorem changed_header_not_parsed_three :
    ∃ p q, buildPacket 7 1 false none 0 = some p ∧ (changedBits p.data wrongHeader).card = 3 ∧
      parsePacket (wrongHeader ++ emptyFrame) 30 = (some q, 30) ∧
      (30 : UInt32).toNat ≠ ([] : List UInt8).length + q.length.toNat := by
  have hp : buildPacket 7 1 false none 0 = some (packetAt emptyFrame) := by decide +kernel
  have hq : parsePacket ([] ++ wrongHeader ++ emptyFrame) 30 = (some (packetAt emptyFrame), 30) := by
    decide +kernel
  have hcard : (changedBits (packetAt emptyFrame).data wrongHeader).card = 3 := by decide +kernel
  exact ⟨_, _, hp, hcard, hq, changed_header_not_parsed hp (by decide) (by omega)
    (Nat.le_of_eq hcard) [] emptyFrame (by decide) hq⟩

end Ibase

import Mathlib.Data.Nat.ModEq
import SyNetsim.Netutil

/-!
# The checksum of a header

`calc_ip_checksum` of `netutil.c` starts its accumulator at `0xffff` and subtracts `0xffff` when a
sum is greater, so that the accumulator stays between 1 and `0xffff`, and is the sum of the words
modulo `0xffff`. The checksum is its complement. When it is stored in a field that was zero
before, the sum of all words is zero modulo `0xffff` (`calcIpChecksum_verifies`).
-/

/-! ### Words -/

/-- The words of a string of bytes, in network order. A byte at the end that has no second one is
padded with zero. -/
def words : List Byte → List (BitVec 16)
  | hi :: lo :: data => ofBe16 hi lo :: words data
  | [hi] => [ofBe16 hi 0]
  | [] => []

/-- The sum of the words of a string of bytes. -/
def wordSum (data : List Byte) : ℕ := ((words data).map BitVec.toNat).sum

/-- The values of the accumulator, from the first one on. -/
def accumulators (data : List Byte) : List ℕ := (words data).scanl addWord 0xffff

/-- The words of two strings one after the other, if the first one has no half word. -/
theorem words_append {front : List Byte} (hfront : Even front.length) (data : List Byte) :
  words (front ++ data) = words front ++ words data
  := by
  induction front using words.induct with
  | case1 hi lo front ih =>
      have heven : Even front.length := by
        rw [List.length_cons, List.length_cons, Nat.even_add_one, Nat.not_even_iff_odd,
          Nat.odd_add_one, Nat.not_odd_iff_even] at hfront
        apply hfront
      rw [List.cons_append, List.cons_append, words, words, ih heven, List.cons_append]
  | case2 hi => simp at hfront
  | case3 => rfl

@[simp]
theorem words_be16 (v : BitVec 16) (data : List Byte) :
  words (be16 v ++ data) = v :: words data
  := by
  rw [be16, List.cons_append, List.cons_append, List.nil_append, words, ofBe16_extract]

/-- The word of a field is one of the words that are summed. -/
theorem wordSum_field {front : List Byte} (hfront : Even front.length) (v : BitVec 16)
    (back : List Byte) :
  wordSum (front ++ (be16 v ++ back)) = wordSum front + (v.toNat + wordSum back)
  := by
  rw [wordSum, words_append hfront, words_be16, List.map_append, List.sum_append, List.map_cons,
    List.sum_cons]
  rfl

/-! ### The accumulator -/

/-- The loop of `calc_ip_checksum` adds the words one after the other. -/
theorem sumWords_eq_foldl (acc : ℕ) (data : List Byte) :
  sumWords acc data = (words data).foldl addWord acc
  := by
  induction data using words.induct generalizing acc with
  | case1 hi lo data ih => rw [sumWords, ih, words, List.foldl_cons]
  | case2 hi => rfl
  | case3 => rfl

/-- The last value of the accumulator is the sum that the checksum is made of. -/
theorem getLast_accumulators (data : List Byte) :
  (accumulators data).getLast? = some (sumWords 0xffff data)
  := by
  rw [accumulators, List.getLast?_scanl, sumWords_eq_foldl]

/-- Adding a word keeps the accumulator between 1 and `0xffff`. -/
theorem addWord_bounds {acc : ℕ} (hpos : 1 ≤ acc) (hle : acc ≤ 0xffff) (word : BitVec 16) :
  1 ≤ addWord acc word ∧ addWord acc word ≤ 0xffff
  := by
  have hword := word.isLt
  rw [addWord]
  split_ifs with hcarry
  · omega
  · omega

/-- Adding a word adds it modulo `0xffff`. -/
theorem addWord_modEq (acc : ℕ) (word : BitVec 16) :
  addWord acc word ≡ acc + word.toNat [MOD 0xffff]
  := by
  rw [addWord]
  split_ifs with hcarry
  · rw [Nat.ModEq]
    omega
  · rfl

/-- The accumulator stays between 1 and `0xffff`. -/
theorem scanl_addWord_bounds {acc : ℕ} (hpos : 1 ≤ acc) (hle : acc ≤ 0xffff)
    (l : List (BitVec 16)) :
  ∀ a ∈ l.scanl addWord acc, 1 ≤ a ∧ a ≤ 0xffff
  := by
  induction l generalizing acc with
  | nil =>
      intro a ha
      rw [List.scanl_nil, List.mem_singleton] at ha
      rw [ha]
      exact ⟨hpos, hle⟩
  | cons word l ih =>
      intro a ha
      rw [List.scanl_cons, List.mem_cons] at ha
      rcases ha with rfl | ha
      · exact ⟨hpos, hle⟩
      · obtain ⟨hpos', hle'⟩ := addWord_bounds hpos hle word
        apply ih hpos' hle' a ha

/-- The accumulator is the sum of the words modulo `0xffff`. -/
theorem foldl_addWord_modEq (acc : ℕ) (l : List (BitVec 16)) :
  l.foldl addWord acc ≡ acc + (l.map BitVec.toNat).sum [MOD 0xffff]
  := by
  induction l generalizing acc with
  | nil => rfl
  | cons word l ih =>
      rw [List.foldl_cons, List.map_cons, List.sum_cons, ← Nat.add_assoc]
      apply (ih _).trans
      apply (addWord_modEq acc word).add_right

/-- The sum that the checksum is made of is between 1 and `0xffff`, and it is the sum of the words
modulo `0xffff`. -/
theorem sumWords_spec (data : List Byte) :
  1 ≤ sumWords 0xffff data ∧ sumWords 0xffff data ≤ 0xffff ∧
    sumWords 0xffff data ≡ wordSum data [MOD 0xffff]
  := by
  obtain ⟨hpos, hle⟩ := scanl_addWord_bounds (by decide) (by decide) (words data) _
    (List.mem_of_getLast? (getLast_accumulators data))
  refine ⟨hpos, hle, ?_⟩
  rw [sumWords_eq_foldl]
  apply (foldl_addWord_modEq 0xffff (words data)).trans
  apply Nat.add_modEq_left.trans
  rfl

/-- The checksum is the complement of the sum. -/
theorem toNat_calcIpChecksum (data : List Byte) :
  (calcIpChecksum data).toNat = 0xffff - sumWords 0xffff data
  := by
  obtain ⟨-, hle, -⟩ := sumWords_spec data
  rw [calcIpChecksum, BitVec.toNat_not, BitVec.toNat_ofNat, Nat.mod_eq_of_lt (by omega)]

/-! ### The checksum in its field -/

/-- The checksum of a string whose field is zero makes the sum of the words zero modulo `0xffff`,
when it is stored in the field. -/
theorem wordSum_calcIpChecksum {front : List Byte} (hfront : Even front.length)
    (back : List Byte) :
  wordSum (front ++ (be16 (calcIpChecksum (front ++ (be16 0 ++ back))) ++ back)) ≡
    0 [MOD 0xffff]
  := by
  obtain ⟨-, hle, hsum⟩ := sumWords_spec (front ++ (be16 0 ++ back))
  rw [wordSum_field hfront] at hsum ⊢
  rw [toNat_calcIpChecksum]
  generalize sumWords 0xffff (front ++ (be16 0 ++ back)) = acc at hle hsum
  have hzero : (0 : BitVec 16).toNat = 0 := rfl
  rw [hzero, Nat.zero_add] at hsum
  calc wordSum front + (0xffff - acc + wordSum back)
    _ = 0xffff - acc + (wordSum front + wordSum back) := Nat.add_left_comm _ _ _
    _ ≡ 0xffff - acc + acc [MOD 0xffff] := hsum.symm.add_left _
    _ = 0xffff := Nat.sub_add_cancel hle
    _ ≡ 0 [MOD 0xffff] := rfl

/-- Strings with the same words, in whatever order, have the same checksum. -/
theorem calcIpChecksum_of_perm {data data' : List Byte} (h : (words data').Perm (words data)) :
  calcIpChecksum data' = calcIpChecksum data
  := by
  obtain ⟨hpos, hle, hsum⟩ := sumWords_spec data
  obtain ⟨hpos', hle', hsum'⟩ := sumWords_spec data'
  have hwords : wordSum data' = wordSum data := (h.map BitVec.toNat).sum_nat
  have hmod : sumWords 0xffff data' % 0xffff = sumWords 0xffff data % 0xffff := by
    rw [hwords] at hsum'
    apply hsum'.trans hsum.symm
  have heq : sumWords 0xffff data' = sumWords 0xffff data := by omega
  rw [calcIpChecksum, calcIpChecksum, heq]

/-- The header that `build_ip_hdr` makes verifies. -/
theorem wordSum_buildIpHdr (len : ℕ) (ttl : Byte) (srcaddr dstaddr : InAddr) (ipproto : Byte) :
  wordSum (buildIpHdr len ttl srcaddr dstaddr ipproto).toBytes ≡ 0 [MOD 0xffff]
  := by
  let hdr : IpHdr :=
    { version := 4, ihl := 5, tos := 0, totLen := BitVec.ofNat 16 len, id := 0, fragOff := 0,
      ttl := ttl, protocol := ipproto, check := 0, saddr := srcaddr, daddr := dstaddr }
  let front : List Byte := [hdr.version ++ hdr.ihl, hdr.tos] ++ be16 hdr.totLen ++ be16 hdr.id ++
    be16 hdr.fragOff ++ [hdr.ttl, hdr.protocol]
  have hbytes : ∀ check : BitVec 16, { hdr with check := check }.toBytes =
      front ++ (be16 check ++ (le32 hdr.saddr ++ le32 hdr.daddr)) := by
    intro check
    simp only [IpHdr.toBytes, front, List.append_assoc]
  have hhdr : hdr.toBytes = front ++ (be16 0 ++ (le32 hdr.saddr ++ le32 hdr.daddr)) := hbytes 0
  have hbuild : buildIpHdr len ttl srcaddr dstaddr ipproto =
      { hdr with check := calcIpChecksum hdr.toBytes } := rfl
  rw [hbuild, hbytes, hhdr]
  apply wordSum_calcIpChecksum
  have hlength : front.length = 10 := rfl
  rw [hlength]
  decide

/-- For every string of bytes: stored in a field at an even offset that was zero before, the
checksum makes the sum of the words zero modulo `0xffff`; the accumulator, which ends with the sum
that the checksum is the complement of, is always between 1 and `0xffff`; and the order of the words
does not matter. -/
theorem calcIpChecksum_verifies (data : List Byte) :
  (∀ off, Even off → off + 2 ≤ data.length →
    ∃ zeroed stored, Memory.store data off (be16 0) = some zeroed ∧
      Memory.store zeroed off (be16 (calcIpChecksum zeroed)) = some stored ∧
      wordSum stored ≡ 0 [MOD 65535]) ∧
  ((accumulators data).getLast? = some (sumWords 0xffff data) ∧
    ∀ acc ∈ accumulators data, 1 ≤ acc ∧ acc ≤ 0xffff) ∧
  ∀ data', (words data').Perm (words data) → calcIpChecksum data' = calcIpChecksum data
  := by
  refine ⟨?_, ⟨getLast_accumulators data, ?_⟩, ?_⟩
  · intro off heven hfield
    obtain ⟨front, field, back, rfl, rfl, hlength⟩ := Memory.exists_cut₂ hfield
    have hzeroed : Memory.store (front ++ (field ++ back)) front.length (be16 0) =
        some (front ++ (be16 0 ++ back)) := Memory.store_append hlength
    refine ⟨_, _, hzeroed, Memory.store_append rfl, ?_⟩
    apply wordSum_calcIpChecksum heven
  · apply scanl_addWord_bounds (by decide) (by decide)
  · intro data' h
    apply calcIpChecksum_of_perm h

/-- Five bytes with the checksum in the middle. -/
theorem calcIpChecksum_verifies_five :
  ∃ zeroed stored, Memory.store [0x12, 0x34, 0xab, 0xcd, 0x56] 2 (be16 0) = some zeroed ∧
    Memory.store zeroed 2 (be16 (calcIpChecksum zeroed)) = some stored ∧
    wordSum stored ≡ 0 [MOD 65535]
  := (calcIpChecksum_verifies [0x12, 0x34, 0xab, 0xcd, 0x56]).1 2 (by decide) (by decide)

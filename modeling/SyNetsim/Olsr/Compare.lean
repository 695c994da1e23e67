import Mathlib.Data.Set.Finite.Basic
import Mathlib.Data.BitVec
import SyNetsim.Olsr.Context
import SyNetsim.Rbtree

/-!
# The comparison of table keys

`rbtree_compare_by_inetaddr` and `rbtree_compare_by_dupkey` of `olsr_context.c`, which order the
tables of a node. The difference of two addresses is taken for a signed number, so that the
addresses lie on a circle and each is before those of the half circle that follows it.

The comparison is a total order on some addresses exactly when they lie in one half circle
(`Window`), and then the trees do what they should (`compare_iff_window`).
-/

/-- `rbtree_compare_by_inetaddr`. -/
def rbtreeCompareByInetaddr (n1 n2 : InAddr) : ℤ := (n1 - n2).toInt

/-- `rbtree_compare_by_dupkey`. -/
def rbtreeCompareByDupkey (dk1 dk2 : DuplicateSetKey) : ℤ :=
  let addrdiff := dk1.orig - dk2.orig
  if addrdiff ≠ 0 then addrdiff.toInt else dk1.seq.toNat - dk2.seq.toNat

/-- The addresses lie among `2 ^ 31` consecutive ones, `0` following the greatest one. -/
def Window (A : Set InAddr) : Prop :=
  ∃ b : InAddr, ∀ a ∈ A, (a - b).toNat < 2 ^ 31

/-! ### Orders -/

namespace OrderOn

variable {κ : Type*} {cmp : κ → κ → ℤ} {K : Set κ}

/-- A comparison function that goes by the values of a function is a total order. -/
theorem of_values (f : κ → ℕ) (heq : ∀ a ∈ K, ∀ b ∈ K, cmp a b = 0 ↔ a = b)
    (hlt : ∀ a ∈ K, ∀ b ∈ K, cmp a b < 0 ↔ f a < f b)
    (hgt : ∀ a ∈ K, ∀ b ∈ K, 0 < cmp a b ↔ f b < f a) :
  OrderOn cmp K
  := by
  constructor
  · apply heq
  · intro a ha b hb
    rw [hlt a ha b hb, hgt b hb a ha]
  · intro a ha b hb c hc hab hbc
    rw [hlt a ha b hb] at hab
    rw [hlt b hb c hc] at hbc
    rw [hlt a ha c hc]
    apply hab.trans hbc

/-- Among finitely many keys there is a least one. -/
theorem exists_least (h : OrderOn cmp K) {l : List κ} (hl : l ≠ []) (hmem : ∀ k ∈ l, k ∈ K) :
  ∃ m ∈ l, ∀ k ∈ l, k = m ∨ cmp m k < 0
  := by
  induction l with
  | nil => contradiction
  | cons a l ih =>
      rw [List.forall_mem_cons] at hmem
      by_cases hnil : l = []
      · refine ⟨a, List.mem_cons_self, ?_⟩
        simp [hnil]
      · obtain ⟨m, hm, hleast⟩ := ih hnil hmem.2
        have hmK := hmem.2 m hm
        by_cases hlt : cmp a m < 0
        · refine ⟨a, List.mem_cons_self, ?_⟩
          rw [List.forall_mem_cons]
          refine ⟨Or.inl rfl, ?_⟩
          intro k hk
          right
          rcases hleast k hk with rfl | hmk
          · apply hlt
          · apply h.trans a hmem.1 m hmK k (hmem.2 k hk) hlt hmk
        · refine ⟨m, List.mem_cons_of_mem a hm, ?_⟩
          rw [List.forall_mem_cons]
          refine ⟨?_, hleast⟩
          by_cases hzero : cmp a m = 0
          · left
            apply (h.eq_zero a hmem.1 m hmK).mp hzero
          · right
            apply h.lt_or_gt hmem.1 hmK hzero hlt

end OrderOn

/-! ### Addresses -/

theorem rbtreeCompareByInetaddr_eq_zero (a b : InAddr) :
  rbtreeCompareByInetaddr a b = 0 ↔ a = b
  := by
  have hzero : (0 : InAddr).toInt = 0 := rfl
  rw [rbtreeCompareByInetaddr, ← hzero, BitVec.toInt_inj]
  apply sub_eq_zero

/-- In a window addresses are compared by their distances from its start. -/
theorem rbtreeCompareByInetaddr_eq {a b c : InAddr} (ha : (a - b).toNat < 2 ^ 31)
    (hc : (c - b).toNat < 2 ^ 31) :
  rbtreeCompareByInetaddr a c = (a - b).toNat - (c - b).toNat
  := by
  rw [rbtreeCompareByInetaddr, ← sub_sub_sub_cancel_right a c b]
  generalize a - b = x at ha
  generalize c - b = y at hc
  rw [BitVec.toInt_eq_toNat_cond, BitVec.toNat_sub]
  omega

/-- The distance from an address to a greater one is less than `2 ^ 31`. -/
theorem toNat_sub_lt {a b : InAddr} (h : 0 < rbtreeCompareByInetaddr a b) :
  (a - b).toNat < 2 ^ 31
  := by
  rw [rbtreeCompareByInetaddr, BitVec.toInt_eq_toNat_cond] at h
  omega

/-- Addresses that are totally ordered lie in the window that starts at the least one. -/
theorem OrderOn.window {A : Set InAddr} (h : OrderOn rbtreeCompareByInetaddr A) :
  Window A
  := by
  have hfinite : Finite InAddr := Finite.of_injective BitVec.toFin BitVec.toFin_injective
  rcases A.eq_empty_or_nonempty with rfl | hne
  · use 0
    simp
  · have hmem : ∀ a ∈ A.toFinite.toFinset.toList, a ∈ A := by simp
    have hnil : A.toFinite.toFinset.toList ≠ [] := by
      obtain ⟨a, ha⟩ := hne
      apply List.ne_nil_of_mem (a := a)
      simpa using ha
    obtain ⟨m, hm, hleast⟩ := h.exists_least hnil hmem
    use m
    intro a ha
    rcases hleast a (by simpa using ha) with rfl | hlt
    · simp
    · apply toNat_sub_lt
      apply (h.swap m (hmem m hm) a ha).mp hlt

/-- The comparison of addresses is a total order exactly in a window. -/
theorem orderOn_inetaddr_iff (A : Set InAddr) :
  OrderOn rbtreeCompareByInetaddr A ↔ Window A
  := by
  constructor
  · apply OrderOn.window
  · rintro ⟨b, hb⟩
    apply OrderOn.of_values (fun a => (a - b).toNat)
    · intro a _ c _
      apply rbtreeCompareByInetaddr_eq_zero
    · intro a ha c hc
      rw [rbtreeCompareByInetaddr_eq (hb a ha) (hb c hc)]
      omega
    · intro a ha c hc
      rw [rbtreeCompareByInetaddr_eq (hb a ha) (hb c hc)]
      omega

/-! ### Keys of the duplicate set -/

/-- Keys with different originators are compared by their originators. -/
theorem rbtreeCompareByDupkey_of_ne {k k' : DuplicateSetKey} (h : k.orig ≠ k'.orig) :
  rbtreeCompareByDupkey k k' = rbtreeCompareByInetaddr k.orig k'.orig
  := by
  rw [rbtreeCompareByDupkey, if_pos (sub_ne_zero.mpr h)]
  rfl

/-- Keys with one originator are compared by their sequence numbers. -/
theorem rbtreeCompareByDupkey_of_eq {k k' : DuplicateSetKey} (h : k.orig = k'.orig) :
  rbtreeCompareByDupkey k k' = k.seq.toNat - k'.seq.toNat
  := by
  have hzero : ¬ k.orig - k'.orig ≠ 0 := not_not.mpr (sub_eq_zero.mpr h)
  rw [rbtreeCompareByDupkey, if_neg hzero]

theorem rbtreeCompareByDupkey_eq_zero (k k' : DuplicateSetKey) :
  rbtreeCompareByDupkey k k' = 0 ↔ k = k'
  := by
  by_cases h : k.orig = k'.orig
  · rw [rbtreeCompareByDupkey_of_eq h, DuplicateSetKey.ext_iff, sub_eq_zero, Nat.cast_inj,
      BitVec.toNat_inj]
    simp [h]
  · rw [rbtreeCompareByDupkey_of_ne h, rbtreeCompareByInetaddr_eq_zero]
    simp [DuplicateSetKey.ext_iff, h]

/-- The originators of keys that are totally ordered are totally ordered. -/
theorem OrderOn.orig {K : Set DuplicateSetKey} (h : OrderOn rbtreeCompareByDupkey K) :
  OrderOn rbtreeCompareByInetaddr (DuplicateSetKey.orig '' K)
  := by
  -- The order of different originators is that of any keys with them.
  have hne : ∀ a b, rbtreeCompareByInetaddr a b < 0 → a ≠ b := by
    rintro a b hlt rfl
    rw [(rbtreeCompareByInetaddr_eq_zero a a).mpr rfl] at hlt
    apply lt_irrefl 0 hlt
  have hswap : ∀ k ∈ K, ∀ k' ∈ K, rbtreeCompareByInetaddr k.orig k'.orig < 0 →
      0 < rbtreeCompareByInetaddr k'.orig k.orig := by
    intro k hk k' hk' hlt
    have hdiff := hne _ _ hlt
    rw [← rbtreeCompareByDupkey_of_ne hdiff] at hlt
    rw [← rbtreeCompareByDupkey_of_ne hdiff.symm]
    apply (h.swap k hk k' hk').mp hlt
  constructor
  · intro a _ b _
    apply rbtreeCompareByInetaddr_eq_zero
  · rintro _ ⟨k, hk, rfl⟩ _ ⟨k', hk', rfl⟩
    constructor
    · apply hswap k hk k' hk'
    · intro hlt
      have hdiff : k.orig ≠ k'.orig := by
        intro heq
        rw [heq, (rbtreeCompareByInetaddr_eq_zero _ _).mpr rfl] at hlt
        apply lt_irrefl 0 hlt
      rw [← rbtreeCompareByDupkey_of_ne hdiff.symm] at hlt
      rw [← rbtreeCompareByDupkey_of_ne hdiff]
      apply (h.swap k hk k' hk').mpr hlt
  · rintro _ ⟨k₁, hk₁, rfl⟩ _ ⟨k₂, hk₂, rfl⟩ _ ⟨k₃, hk₃, rfl⟩ h₁₂ h₂₃
    have hdiff : k₁.orig ≠ k₃.orig := by
      intro heq
      have hgt := hswap k₁ hk₁ k₂ hk₂ h₁₂
      rw [heq] at hgt
      apply absurd h₂₃ hgt.le.not_gt
    rw [← rbtreeCompareByDupkey_of_ne (hne _ _ h₁₂)] at h₁₂
    rw [← rbtreeCompareByDupkey_of_ne (hne _ _ h₂₃)] at h₂₃
    rw [← rbtreeCompareByDupkey_of_ne hdiff]
    apply h.trans k₁ hk₁ k₂ hk₂ k₃ hk₃ h₁₂ h₂₃

/-- The comparison of keys of the duplicate set is a total order exactly when their originators lie
in a window. -/
theorem orderOn_dupkey_iff (K : Set DuplicateSetKey) :
  OrderOn rbtreeCompareByDupkey K ↔ Window (DuplicateSetKey.orig '' K)
  := by
  constructor
  · intro h
    apply h.orig.window
  · rintro ⟨b, hb⟩
    have hlt : ∀ k ∈ K, (k.orig - b).toNat < 2 ^ 31 := by
      intro k hk
      apply hb k.orig ⟨k, hk, rfl⟩
    -- Keys are compared by the distance of the originator, then by the sequence number.
    have hvalues : ∀ k ∈ K, ∀ k' ∈ K, k.orig = k'.orig ∧ rbtreeCompareByDupkey k k' =
          k.seq.toNat - k'.seq.toNat ∨
        (k.orig - b).toNat ≠ (k'.orig - b).toNat ∧ rbtreeCompareByDupkey k k' =
          (k.orig - b).toNat - (k'.orig - b).toNat := by
      intro k hk k' hk'
      by_cases h : k.orig = k'.orig
      · left
        exact ⟨h, rbtreeCompareByDupkey_of_eq h⟩
      · right
        rw [rbtreeCompareByDupkey_of_ne h, rbtreeCompareByInetaddr_eq (hlt k hk) (hlt k' hk')]
        refine ⟨?_, rfl⟩
        intro heq
        apply h
        apply sub_left_injective (BitVec.eq_of_toNat_eq heq)
    apply OrderOn.of_values (fun k => (k.orig - b).toNat * 2 ^ 16 + k.seq.toNat)
    · intro k _ k' _
      apply rbtreeCompareByDupkey_eq_zero
    · intro k hk k' hk'
      have hseq := k.seq.isLt
      have hseq' := k'.seq.isLt
      rcases hvalues k hk k' hk' with ⟨heq, hcmp⟩ | ⟨hne, hcmp⟩
      · rw [hcmp, heq]
        omega
      · rw [hcmp]
        omega
    · intro k hk k' hk'
      have hseq := k.seq.isLt
      have hseq' := k'.seq.isLt
      rcases hvalues k hk k' hk' with ⟨heq, hcmp⟩ | ⟨hne, hcmp⟩
      · rw [hcmp, heq]
        omega
      · rw [hcmp]
        omega

/-! ### Tables -/

/-- The comparison of addresses is a total order, and a table finds what was inserted and not
deleted since, exactly when the addresses lie in a window; and so for keys of the duplicate set
with their originators. -/
theorem compare_iff_window (A : Set InAddr) (K : Set DuplicateSetKey) :
  (OrderOn rbtreeCompareByInetaddr A ∧ FindsLive rbtreeCompareByInetaddr A ↔ Window A) ∧
  (OrderOn rbtreeCompareByDupkey K ∧ FindsLive rbtreeCompareByDupkey K ↔
    Window (DuplicateSetKey.orig '' K))
  := by
  constructor
  · rw [← orderOn_inetaddr_iff]
    constructor
    · intro h
      apply h.1
    · intro h
      exact ⟨h, h.finds⟩
  · rw [← orderOn_dupkey_iff]
    constructor
    · intro h
      apply h.1
    · intro h
      exact ⟨h, h.finds⟩

/-- The addresses `10.0.0.0`, `10.0.0.200` and `10.0.0.100` are inserted, and the first one is
deleted. -/
def threeAddrs : List (RbOp InAddr) :=
  [.insert (makeBe32Ip 10 0 0 0), .insert (makeBe32Ip 10 0 0 200),
    .insert (makeBe32Ip 10 0 0 100), .delete (makeBe32Ip 10 0 0 0)]

/-- Addresses are not ordered in general: `10.0.0.0` and `10.0.0.128` are less than each other.
After three insertions and a deletion, an address that was inserted is not found. -/
theorem addresses_not_ordered :
  ¬ OrderOn rbtreeCompareByInetaddr Set.univ ∧ ¬ FindsLive rbtreeCompareByInetaddr Set.univ
  := by
  constructor
  · intro h
    have hlt : rbtreeCompareByInetaddr (makeBe32Ip 10 0 0 0) (makeBe32Ip 10 0 0 128) < 0 := by
      decide
    have hnot : ¬ 0 < rbtreeCompareByInetaddr (makeBe32Ip 10 0 0 128) (makeBe32Ip 10 0 0 0) := by
      decide
    apply hnot
    apply (h.swap _ trivial _ trivial).mp hlt
  · intro h
    obtain ⟨t, ht, hfinds⟩ := h threeAddrs (fun _ _ => trivial)
    have hlost : (threeAddrs.foldlM (RbOp.run rbtreeCompareByInetaddr) RbTree.null).map
        (fun t => t.rbtreeSearch rbtreeCompareByInetaddr (makeBe32Ip 10 0 0 200)) = some none := by
      decide +kernel
    rw [ht, Option.map_some, Option.some.injEq] at hlost
    have hlive : RbOp.Live threeAddrs (makeBe32Ip 10 0 0 200) := by
      refine ⟨[.insert (makeBe32Ip 10 0 0 0)], _, rfl, ?_⟩
      decide
    have hfound := (hfinds (makeBe32Ip 10 0 0 200) trivial).mpr hlive
    rw [hlost] at hfound
    contradiction

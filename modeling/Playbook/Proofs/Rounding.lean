import Mathlib.Algebra.Order.Floor.Semifield
import Mathlib.Data.Int.Log
import Mathlib.Data.Rat.Floor
import Mathlib.Tactic.FieldSimp
import Mathlib.Tactic.Positivity
import Mathlib.Tactic.Ring
import Playbook.Number.Shortest

/-!
# Rounding quotients

What a quotient rounds to depends only on its value (`ofRatio_congr`), and the quotient that a
finite number is rounds to it (`ofRatio_exact`). The binade of a quotient is its logarithm.
-/

namespace Playbook.Binary64

section Quotient

variable {num den : Nat}

theorem two_zpow (e : Int) : (2 : ℚ) ^ e = 2 ^ e.toNat / 2 ^ (-e).toNat := by
  obtain ⟨n, rfl | rfl⟩ := e.eq_nat_or_neg <;> simp

theorem scaleDown_snd_pos (hd : 0 < den) (e : Int) : 0 < (scaleDown num den e).2 :=
  Nat.mul_pos hd (Nat.pow_pos (by decide))

theorem scaleDown_ratio (num den : Nat) (e : Int) :
    ((scaleDown num den e).1 : ℚ) / (scaleDown num den e).2 = num / den / 2 ^ e := by
  simp only [scaleDown, Nat.pow_eq, Nat.cast_mul, Nat.cast_pow, Nat.cast_ofNat, two_zpow e]
  field_simp

theorem scaleDown_mul (num den k : Nat) (e : Int) :
    scaleDown (num * k) (den * k) e =
      ((scaleDown num den e).1 * k, (scaleDown num den e).2 * k) := by
  simp only [scaleDown, Nat.mul_right_comm]

theorem scaleDown_lt_iff (hd : 0 < den) (e : Int) :
    (scaleDown num den e).1 < (scaleDown num den e).2 ↔ (num : ℚ) / den < 2 ^ e := by
  have hp : (0 : ℚ) < (scaleDown num den e).2 := by exact_mod_cast scaleDown_snd_pos hd e
  rw [← div_lt_one (zpow_pos (by norm_num : (0 : ℚ) < 2) e), ← scaleDown_ratio, div_lt_one hp,
    Nat.cast_lt]

theorem log_eq_of_bounds {q : ℚ} (hq : 0 < q) {k : Int} (h : (2 : ℚ) ^ k ≤ q)
    (h' : q < (2 : ℚ) ^ (k + 1)) : Int.log 2 q = k := by
  have hl : k ≤ Int.log 2 q :=
    (Int.zpow_le_iff_le_log (by norm_num) hq).1 (by exact_mod_cast h)
  have hu : Int.log 2 q < k + 1 :=
    (Int.lt_zpow_iff_log_lt (by norm_num) hq).1 (by exact_mod_cast h')
  omega

/-- The first guess at the binade of a quotient is at most one too large. -/
theorem ratio_bounds (hn : num ≠ 0) (hd : den ≠ 0) :
    (2 : ℚ) ^ ((num.log2 : Int) - den.log2 - 1) ≤ num / den ∧
      (num : ℚ) / den < 2 ^ ((num.log2 : Int) - den.log2 + 1) := by
  have hn1 : (2 : ℚ) ^ num.log2 ≤ num := by exact_mod_cast Nat.log2_self_le hn
  have hn2 : (num : ℚ) < 2 ^ (num.log2 + 1) := by exact_mod_cast Nat.lt_log2_self
  have hd1 : (2 : ℚ) ^ den.log2 ≤ den := by exact_mod_cast Nat.log2_self_le hd
  have hd2 : (den : ℚ) < 2 ^ (den.log2 + 1) := by exact_mod_cast Nat.lt_log2_self
  have hdpos : (0 : ℚ) < den := by exact_mod_cast Nat.pos_of_ne_zero hd
  constructor
  · calc (2 : ℚ) ^ ((num.log2 : Int) - den.log2 - 1)
        = 2 ^ num.log2 / 2 ^ (den.log2 + 1) := by
          rw [sub_sub, zpow_sub₀ (by norm_num), zpow_natCast]
          norm_cast
      _ ≤ num / den := by gcongr
  · calc (num : ℚ) / den < 2 ^ (num.log2 + 1) / 2 ^ den.log2 := by
          gcongr
      _ = 2 ^ ((num.log2 : Int) - den.log2 + 1) := by
          rw [sub_add_eq_add_sub, zpow_sub₀ (by norm_num), zpow_natCast]
          norm_cast

theorem binade_eq_log (hn : num ≠ 0) (hd : den ≠ 0) :
    binade num den = Int.log 2 ((num : ℚ) / den) := by
  have hq : (0 : ℚ) < num / den := by positivity
  obtain ⟨hl, hu⟩ := ratio_bounds hn hd
  unfold binade
  simp only [scaleDown_lt_iff (Nat.pos_of_ne_zero hd)]
  split_ifs with h
  · refine (log_eq_of_bounds hq hl ?_).symm
    rwa [sub_add_cancel]
  · exact (log_eq_of_bounds hq (not_lt.1 h) hu).symm

end Quotient

theorem roundQuotient_mul_right (n d : Nat) {k : Nat} (hk : 0 < k) :
    roundQuotient (n * k) (d * k) = roundQuotient n d := by
  unfold roundQuotient
  simp only [Nat.mul_div_mul_right n d hk, Nat.mul_mod_mul_right, ← Nat.mul_assoc,
    Nat.mul_lt_mul_right hk]

theorem roundQuotient_exact (m : Nat) {d : Nat} (hd : 0 < d) : roundQuotient (m * d) d = m := by
  unfold roundQuotient
  simp [Nat.mul_div_cancel m hd, hd]

section OfRatio

variable (negative : Bool)

theorem ofRatio_mul_right (num den : Nat) {k : Nat} (hk : 0 < k) :
    ofRatio negative (num * k) (den * k) = ofRatio negative num den := by
  have hz : num * k = 0 ∨ den * k = 0 ↔ num = 0 ∨ den = 0 := by
    simp [hk.ne']
  unfold ofRatio
  by_cases h : num = 0 ∨ den = 0
  · rw [if_pos h, if_pos (hz.2 h)]
  · have hb : binade (num * k) (den * k) = binade num den := by
      rw [not_or] at h
      rw [binade_eq_log (Nat.mul_ne_zero h.1 hk.ne') (Nat.mul_ne_zero h.2 hk.ne'),
        binade_eq_log h.1 h.2, Nat.cast_mul, Nat.cast_mul,
        mul_div_mul_right _ _ (by exact_mod_cast hk.ne')]
    rw [if_neg h, if_neg fun h' => h (hz.1 h'), hb]
    simp only [scaleDown_mul, roundQuotient_mul_right _ _ hk]

/-- Equal quotients round to the same number. -/
theorem ofRatio_congr {num den num' den' : Nat} (hd : 0 < den) (hd' : 0 < den')
    (h : num * den' = num' * den) : ofRatio negative num den = ofRatio negative num' den' := by
  rw [← ofRatio_mul_right negative num den hd', h, Nat.mul_comm den den',
    ofRatio_mul_right negative num' den' hd]

variable {m : Nat} {e : Int}

theorem log_of_canonical (h : Canonical m e) (hm : m ≠ 0) :
    max (Int.log 2 ((m : ℚ) * 2 ^ e) - 52) (-1074) = e := by
  obtain ⟨hlt, hlow, -, hcanon⟩ := h
  rw [Nat.pow_eq] at hlt hcanon
  have he : (0 : ℚ) < 2 ^ e := zpow_pos (by norm_num) e
  have hpos : (0 : ℚ) < m * 2 ^ e := mul_pos (by exact_mod_cast Nat.pos_of_ne_zero hm) he
  have hu : Int.log 2 ((m : ℚ) * 2 ^ e) < e + 53 := by
    refine (Int.lt_zpow_iff_log_lt (by norm_num) hpos).1 ?_
    rw [Nat.cast_ofNat, add_comm, zpow_add₀ (by norm_num)]
    exact mul_lt_mul_of_pos_right (by exact_mod_cast hlt) he
  rcases hcanon with hge | rfl
  · have hl : e + 52 ≤ Int.log 2 ((m : ℚ) * 2 ^ e) := by
      refine (Int.zpow_le_iff_le_log (by norm_num) hpos).1 ?_
      rw [Nat.cast_ofNat, add_comm, zpow_add₀ (by norm_num)]
      exact mul_le_mul_of_nonneg_right (by exact_mod_cast hge) he.le
    omega
  · omega

/-- The quotient that a finite number is rounds to the number itself. -/
theorem ofRatio_exact (h : Canonical m e) (hm : m ≠ 0) {num den : Nat} (hd : 0 < den)
    (hr : num * Nat.pow 2 (-e).toNat = m * Nat.pow 2 e.toNat * den) :
    ofRatio negative num den = .finite negative m e h := by
  have hpow (n : Nat) : 0 < Nat.pow 2 n := Nat.pow_pos (by decide)
  rw [ofRatio_congr negative hd (hpow (-e).toNat) hr]
  have hn : m * Nat.pow 2 e.toNat ≠ 0 := Nat.mul_ne_zero hm (hpow _).ne'
  have hratio : ((m * Nat.pow 2 e.toNat : Nat) : ℚ) / (Nat.pow 2 (-e).toNat : Nat) =
      m * 2 ^ e := by
    rw [two_zpow e, Nat.pow_eq, Nat.pow_eq]
    push_cast
    ring
  unfold ofRatio
  rw [if_neg (not_or.2 ⟨hn, (hpow _).ne'⟩), binade_eq_log hn (hpow _).ne', hratio,
    log_of_canonical h hm]
  have hs : scaleDown (m * Nat.pow 2 e.toNat) (Nat.pow 2 (-e).toNat) e =
      (m * (Nat.pow 2 (-e).toNat * Nat.pow 2 e.toNat),
        Nat.pow 2 (-e).toNat * Nat.pow 2 e.toNat) := by
    simp only [scaleDown, Nat.mul_assoc, Nat.mul_comm]
  simp only [hs, roundQuotient_exact m (Nat.mul_pos (hpow _) (hpow _)), ofParts, dif_pos h]

end OfRatio

end Playbook.Binary64

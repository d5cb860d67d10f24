import Mathlib.Algebra.Order.Group.Defs
import Mathlib.Order.RelClasses
import Playbook.Number.Binary64
import Playbook.Proofs.Rounding

/-!
# Rounding keeps order

Numbers that are not `nan` are ordered by their places, and the exact result of an operation that is
not smaller than another does not round to a smaller number (`rounded_mono`). So less time has
passed since a moment at an earlier reading of a clock than at a later one (`Elapses`), also where
times are floating-point numbers.
-/

namespace Playbook

namespace Binary64

/-- Where a number that is not `nan` stands: below, among or above the finite ones, and there at
which place. -/
def extent : Binary64 → Int × Int
  | nan => (0, 0)
  | infinite negative => (if negative then -1 else 1, 0)
  | finite negative m e _ => (0, units negative m e)

theorem le_iff_extent {x y : Binary64} :
    x ≤ y ↔ x ≠ nan ∧ y ≠ nan ∧ ((extent x).1 < (extent y).1 ∨
      (extent x).1 = (extent y).1 ∧ (extent x).2 ≤ (extent y).2) := by
  change (lt x y || eq x y) = true ↔ _
  cases x with
  | nan => simp [lt, eq]
  | infinite negative =>
    cases y with
    | nan => simp [lt, eq]
    | infinite other => cases negative <;> cases other <;> simp [lt, eq, extent]
    | finite => cases negative <;> simp [lt, eq, extent]
  | finite =>
    cases y with
    | nan => simp [lt, eq]
    | infinite negative => cases negative <;> simp [lt, eq, extent]
    | finite => simp [lt, eq, extent, Int.le_iff_lt_or_eq]

theorem lt_iff_extent {x y : Binary64} :
    x < y ↔ x ≠ nan ∧ y ≠ nan ∧ ((extent x).1 < (extent y).1 ∨
      (extent x).1 = (extent y).1 ∧ (extent x).2 < (extent y).2) := by
  change lt x y = true ↔ _
  cases x with
  | nan => simp [lt]
  | infinite negative =>
    cases y with
    | nan => simp [lt]
    | infinite other => cases negative <;> cases other <;> simp [lt, extent]
    | finite => cases negative <;> simp [lt, extent]
  | finite =>
    cases y with
    | nan => simp [lt]
    | infinite negative => cases negative <;> simp [lt, extent]
    | finite => simp [lt, extent]

/-- Order is transitive, although `nan` is not at most itself. -/
instance : IsTrans Binary64 (· ≤ ·) where
  trans x y z hxy hyz := by
    rw [le_iff_extent] at hxy hyz ⊢
    exact ⟨hxy.1, hyz.2.1, by omega⟩

theorem lt_of_le_of_lt {x y z : Binary64} (hxy : x ≤ y) (hyz : y < z) : x < z := by
  rw [le_iff_extent] at hxy
  rw [lt_iff_extent] at hyz ⊢
  exact ⟨hxy.1, hyz.2.1, by omega⟩

theorem roundQuotient_mono {n m d : Nat} (hd : 0 < d) (h : n ≤ m) :
    roundQuotient n d ≤ roundQuotient m d := by
  have hn : d * (n / d) + n % d = n := Nat.div_add_mod n d
  have hm : d * (m / d) + m % d = m := Nat.div_add_mod m d
  have hmd : m % d < d := Nat.mod_lt m hd
  simp only [roundQuotient]
  rcases (Nat.div_le_div_right h : n / d ≤ m / d).eq_or_lt with hq | hq
  · -- the same integer part: the one with the larger rest is not rounded down further
    have hr : n % d ≤ m % d := by
      rw [hq] at hn
      omega
    rw [hq]
    split_ifs <;> omega
  · split_ifs <;> omega

section Units

variable {n m : Nat}

/-- By which power of two the units of the numbers around `n` units are scaled. -/
def grid (n : Nat) : Nat := n.log2 - 52

/-- What a number of units is rounded to, in units. -/
def rounded (n : Nat) : Nat :=
  roundQuotient n (2 ^ grid n) * 2 ^ grid n

theorem lt_two_pow_grid (n : Nat) : n < 2 ^ (53 + grid n) :=
  Nat.lt_of_lt_of_le Nat.lt_log2_self (Nat.pow_le_pow_right (by decide) (by unfold grid; omega))

theorem two_pow_grid_le (hg : grid n ≠ 0) : 2 ^ (52 + grid n) ≤ n := by
  have hn : n ≠ 0 := by
    rintro rfl
    exact hg (by decide)
  have he : 52 + grid n = n.log2 := by
    unfold grid at hg ⊢
    omega
  rw [he]
  exact Nat.log2_self_le hn

theorem roundQuotient_two_pow (j k : Nat) : roundQuotient (2 ^ (j + k)) (2 ^ k) = 2 ^ j := by
  rw [Nat.pow_add, roundQuotient_exact _ (Nat.two_pow_pos k)]

theorem roundQuotient_grid_le (n : Nat) : roundQuotient n (2 ^ grid n) ≤ 2 ^ 53 := by
  rw [← roundQuotient_two_pow 53 (grid n)]
  exact roundQuotient_mono (Nat.two_pow_pos _) (lt_two_pow_grid n).le

theorem le_roundQuotient_grid (hg : grid n ≠ 0) : 2 ^ 52 ≤ roundQuotient n (2 ^ grid n) := by
  rw [← roundQuotient_two_pow 52 (grid n)]
  exact roundQuotient_mono (Nat.two_pow_pos _) (two_pow_grid_le hg)

theorem rounded_mono (h : n ≤ m) : rounded n ≤ rounded m := by
  by_cases hg : grid n = grid m
  · unfold rounded
    rw [hg]
    exact Nat.mul_le_mul_right _ (roundQuotient_mono (Nat.two_pow_pos _) h)
  · -- the next power of two lies between the two, on both grids
    have hlt : grid n < grid m := by
      by_contra hge
      have hp : 2 ^ (52 + grid n) < 2 ^ (53 + grid m) :=
        Nat.lt_of_le_of_lt (two_pow_grid_le (by omega)) (Nat.lt_of_le_of_lt h (lt_two_pow_grid m))
      have hk : 52 + grid n < 53 + grid m := (Nat.pow_lt_pow_iff_right (by decide)).1 hp
      omega
    calc rounded n ≤ 2 ^ 53 * 2 ^ grid n := Nat.mul_le_mul_right _ (roundQuotient_grid_le n)
      _ ≤ 2 ^ 52 * 2 ^ grid m := by
        rw [← Nat.pow_add, ← Nat.pow_add]
        exact Nat.pow_le_pow_right (by decide) (by omega)
      _ ≤ rounded m := Nat.mul_le_mul_right _ (le_roundQuotient_grid (by omega))

theorem two_pow_ne_zero (u : Nat) : Nat.pow 2 u ≠ 0 := (Nat.two_pow_pos u).ne'

theorem binade_two_pow (hn : n ≠ 0) (u : Nat) :
    binade n (Nat.pow 2 u) = (n.log2 : Int) - u := by
  have hp : (0 : ℚ) < (Nat.pow 2 u : Nat) := by exact_mod_cast Nat.two_pow_pos u
  have hq : (0 : ℚ) < n / (Nat.pow 2 u : Nat) := div_pos (by positivity) hp
  have hu : ((Nat.pow 2 u : Nat) : ℚ) = 2 ^ (u : Int) := by simp
  rw [binade_eq_log hn (two_pow_ne_zero u)]
  refine log_eq_of_bounds hq ?_ ?_
  · rw [zpow_sub₀ (by norm_num), zpow_natCast, ← hu]
    exact div_le_div_of_nonneg_right (by exact_mod_cast Nat.log2_self_le hn) hp.le
  · rw [sub_add_eq_add_sub, zpow_sub₀ (by norm_num), ← hu]
    exact div_lt_div_of_pos_right (by exact_mod_cast Nat.lt_log2_self) hp

theorem scaleDown_two_pow (n k u : Nat) :
    scaleDown n (Nat.pow 2 u) ((k : Int) - u) = (n * 2 ^ (u - k), 2 ^ k * 2 ^ (u - k)) := by
  have h1 : (-((k : Int) - u)).toNat = u - k := by omega
  have h2 : ((k : Int) - u).toNat = k - u := by omega
  have h3 : u + (k - u) = k + (u - k) := by omega
  rw [scaleDown, h1, h2, Nat.pow_eq, Nat.pow_eq, Nat.pow_eq, ← Nat.pow_add, ← Nat.pow_add, h3]

theorem ofRatio_units (negative : Bool) (hn : n ≠ 0) :
    ofRatio negative n (Nat.pow 2 1074) =
      ofParts negative (roundQuotient n (2 ^ grid n)) ((grid n : Int) - 1074) := by
  -- by another name, the power of two is not written out
  obtain ⟨u, hu⟩ : ∃ u, u = 1074 := ⟨1074, rfl⟩
  have hk : (grid n : Int) - 1074 = grid n - u := by omega
  have he : max (binade n (Nat.pow 2 u) - 52) (-1074) = (grid n : Int) - u := by
    rw [binade_two_pow hn]
    unfold grid
    omega
  rw [← hu, hk]
  simp only [ofRatio, if_neg (not_or.2 ⟨hn, two_pow_ne_zero u⟩), he, scaleDown_two_pow,
    roundQuotient_mul_right _ _ (Nat.two_pow_pos (u - grid n))]

end Units

section Extent

variable {q k : Nat}

/-- The number of units that is past all finite numbers. -/
def overflow : Nat := 2 ^ 2098

theorem overflow_pos : 0 < overflow := by
  unfold overflow
  positivity

theorem lt_two_pow_of_mul {i j : Nat} (hq : q < 2 ^ i) (hj : i + k ≤ j) : q * 2 ^ k < 2 ^ j :=
  calc q * 2 ^ k < 2 ^ i * 2 ^ k := Nat.mul_lt_mul_of_pos_right hq (Nat.two_pow_pos k)
    _ = 2 ^ (i + k) := (Nat.pow_add 2 i k).symm
    _ ≤ 2 ^ j := Nat.pow_le_pow_right (by decide) hj

theorem two_pow_le_mul {i j : Nat} (hq : 2 ^ i ≤ q) (hj : j ≤ i + k) : 2 ^ j ≤ q * 2 ^ k :=
  calc 2 ^ j ≤ 2 ^ (i + k) := Nat.pow_le_pow_right (by decide) hj
    _ = 2 ^ i * 2 ^ k := Nat.pow_add 2 i k
    _ ≤ q * 2 ^ k := Nat.mul_le_mul_right _ hq

/-- A number of units with a sign. -/
def signed (negative : Bool) (n : Nat) : Int := if negative then -n else n

@[simp]
theorem natAbs_signed (negative : Bool) (n : Nat) : (signed negative n).natAbs = n := by
  cases negative <;> simp [signed]

/-- The extent of a number of units, taken for infinite where it is past all finite numbers. -/
def extentOf (u : Int) : Int × Int :=
  if u.natAbs < overflow then (0, u) else (if u < 0 then -1 else 1, 0)

theorem extentOf_mono {u v : Int} (h : u ≤ v) :
    (extentOf u).1 < (extentOf v).1 ∨
      (extentOf u).1 = (extentOf v).1 ∧ (extentOf u).2 ≤ (extentOf v).2 := by
  unfold extentOf
  split_ifs <;> simp <;> omega

variable (negative : Bool)

theorem extent_finite {e : Int} (h : Canonical q e) (he : e + 1074 = k)
    (hlt : q * 2 ^ k < overflow) :
    extent (finite negative q e h) = extentOf (signed negative (q * 2 ^ k)) := by
  have hk : (e + 1074).toNat = k := by omega
  rw [extentOf, natAbs_signed, if_pos hlt, extent, units, hk, signed]
  simp

theorem extent_infinite {n : Nat} (hlt : overflow ≤ n) :
    extent (infinite negative) = extentOf (signed negative n) := by
  have hn : 0 < n := Nat.lt_of_lt_of_le overflow_pos hlt
  rw [extentOf, natAbs_signed, if_neg (Nat.not_lt.2 hlt), extent, signed]
  cases negative
  · simp
  · simp [hn]

theorem extent_ofParts (hle : q ≤ 2 ^ 53) (hge : k ≠ 0 → 2 ^ 52 ≤ q) :
    extent (ofParts negative q ((k : Int) - 1074)) = extentOf (signed negative (q * 2 ^ k)) := by
  have hcanon (h : q < 2 ^ 53) (hk : k ≤ 2045) : Canonical q ((k : Int) - 1074) := by
    refine ⟨h, by omega, by omega, ?_⟩
    by_cases h0 : k = 0
    · exact .inr (by omega)
    · exact .inl (hge h0)
  have hnext (hk : k ≤ 2044) : Canonical (Nat.pow 2 52) ((k : Int) - 1074 + 1) :=
    ⟨by decide, by omega, by omega, .inl Nat.le.refl⟩
  unfold ofParts
  by_cases hc : Canonical q ((k : Int) - 1074)
  · have hk : 53 + k ≤ 2098 := by
      have := hc.2.2.1
      omega
    rw [dif_pos hc]
    exact extent_finite negative hc (by omega) (lt_two_pow_of_mul hc.1 hk)
  rw [dif_neg hc]
  by_cases hc' : q = Nat.pow 2 53 ∧ Canonical (Nat.pow 2 52) ((k : Int) - 1074 + 1)
  · have hk : 52 + (k + 1) < 2098 := by
      have := hc'.2.2.2.1
      omega
    have hq : q * 2 ^ k = 2 ^ 52 * 2 ^ (k + 1) := by
      rw [hc'.1, Nat.pow_eq, ← Nat.pow_add, ← Nat.pow_add]
      congr 1
      omega
    have hlt : 2 ^ 52 * 2 ^ (k + 1) < overflow :=
      lt_two_pow_of_mul (i := 53) (by decide) (by omega)
    rw [dif_pos hc', hq]
    exact extent_finite negative hc'.2 (by omega) hlt
  · rw [dif_neg hc']
    refine extent_infinite negative ?_
    rcases hle.lt_or_eq with hq | rfl
    · have hk : 2045 < k := by
        by_contra hk
        exact hc (hcanon hq (by omega))
      exact two_pow_le_mul (hge (by omega)) (by omega)
    · have hk : 2044 < k := by
        by_contra hk
        exact hc' ⟨rfl, hnext (by omega)⟩
      exact two_pow_le_mul Nat.le.refl (by omega)

theorem ofParts_ne_nan (e : Int) : ofParts negative q e ≠ nan := by
  unfold ofParts
  split_ifs <;> simp

end Extent

section Sub

/-- What an exact sum is rounded to, in units. -/
def roundedSum (u : Int) : Int :=
  signed (u < 0) (rounded u.natAbs)

theorem roundedSum_mono {u v : Int} (h : u ≤ v) : roundedSum u ≤ roundedSum v := by
  unfold roundedSum signed
  by_cases hu : u < 0
  · by_cases hv : v < 0
    · have hr : rounded v.natAbs ≤ rounded u.natAbs := rounded_mono (by omega)
      simp only [hu, hv, decide_true, if_true]
      omega
    · simp only [hu, hv, decide_true, decide_false, if_true, Bool.false_eq_true, if_false]
      omega
  · have hv : ¬v < 0 := by omega
    have hr : rounded u.natAbs ≤ rounded v.natAbs := rounded_mono (by omega)
    simp only [hu, hv, decide_false, Bool.false_eq_true, if_false]
    omega

variable {n m : Bool} {a b : Nat} {e f : Int} {h : Canonical a e} {h' : Canonical b f}

theorem extent_add_finite :
    extent (add (finite n a e h) (finite m b f h')) =
      extentOf (roundedSum (units n a e + units m b f)) := by
  simp only [add]
  generalize units n a e + units m b f = u
  by_cases hu : u = 0
  · subst hu
    have hr : roundedSum 0 = 0 := by decide
    have he : extent (signedZero (n && m)) = (0, 0) := by cases n <;> cases m <;> rfl
    rw [if_pos rfl, hr, he, extentOf, Int.natAbs_zero, if_pos overflow_pos]
  · have hn : u.natAbs ≠ 0 := by omega
    rw [if_neg hu, ofRatio_units _ hn]
    exact extent_ofParts _ (roundQuotient_grid_le _) le_roundQuotient_grid

theorem add_finite_ne_nan : add (finite n a e h) (finite m b f h') ≠ nan := by
  simp only [add]
  by_cases hu : units n a e + units m b f = 0
  · rw [if_pos hu]
    simp [signedZero]
  · rw [if_neg hu, ofRatio_units _ (by omega)]
    exact ofParts_ne_nan _ _

theorem infinite_true_le {x : Binary64} (hx : x ≠ nan) : infinite true ≤ x := by
  rw [le_iff_extent]
  refine ⟨by simp, hx, ?_⟩
  cases x with
  | nan => exact absurd rfl hx
  | infinite negative => cases negative <;> simp [extent]
  | finite => simp [extent]

theorem le_infinite_true {x : Binary64} (hx : x ≤ infinite true) : x = infinite true := by
  rw [le_iff_extent] at hx
  cases x with
  | nan => exact absurd rfl hx.1
  | infinite negative => cases negative <;> simp [extent] at hx ⊢
  | finite => simp [extent] at hx

theorem add_le_add_right {x y w : Binary64} (hxy : x ≤ y) (hn : add y w ≠ nan)
    (hi : add y w ≠ infinite false) : add x w ≤ add y w := by
  have hw : w ≠ nan := by
    rintro rfl
    cases y <;> exact hn rfl
  have hx : x ≠ nan ∧ y ≠ nan := ⟨(le_iff_extent.1 hxy).1, (le_iff_extent.1 hxy).2.1⟩
  cases y with
  | nan => exact absurd rfl hx.2
  | infinite negative =>
    cases negative with
    | true => rw [le_infinite_true hxy, le_iff_extent]; exact ⟨hn, hn, .inr ⟨rfl, le_rfl⟩⟩
    | false =>
      cases w with
      | nan => exact absurd rfl hw
      | infinite other => cases other <;> simp [add] at hn hi
      | finite => exact absurd rfl hi
  | finite m b f h' =>
    cases x with
    | nan => exact absurd rfl hx.1
    | infinite negative =>
      cases negative with
      | false => simp [le_iff_extent, extent] at hxy
      | true =>
        cases w with
        | nan => exact absurd rfl hw
        | infinite other => cases other <;> simp [add] at hi ⊢; exact infinite_true_le (by simp)
        | finite => exact infinite_true_le hn
    | finite n a e h =>
      cases w with
      | nan => exact absurd rfl hw
      | infinite other => rw [le_iff_extent]; exact ⟨hn, hn, .inr ⟨rfl, le_rfl⟩⟩
      | finite o c g h'' =>
        have hle : units n a e ≤ units m b f := by
          simpa [le_iff_extent, extent] using hxy
        rw [le_iff_extent, extent_add_finite, extent_add_finite]
        exact ⟨add_finite_ne_nan, hn, extentOf_mono (roundedSum_mono (by omega))⟩

theorem sub_lt_of_le {x y z l : Binary64} (hxy : x ≤ y) (h : y - z < l) : x - z < l := by
  have hn : add y (negate z) ≠ nan := (lt_iff_extent.1 h).1
  have hi : add y (negate z) ≠ infinite false := by
    intro he
    change add y (negate z) < l at h
    rw [he] at h
    cases l with
    | nan => cases h
    | infinite => cases h
    | finite => cases h
  exact lt_of_le_of_lt (add_le_add_right hxy hn hi) h

end Sub

end Binary64

/-- On a clock less time has passed since a moment at an earlier reading than at a later one. -/
class Elapses (θ : Type) [Sub θ] [LT θ] [LE θ] : Prop where
  sub_lt_of_le {earlier later since lifetime : θ} (h : earlier ≤ later)
    (hl : later - since < lifetime) : earlier - since < lifetime

instance : Elapses Binary64 := ⟨Binary64.sub_lt_of_le⟩

instance {θ : Type} [AddCommGroup θ] [PartialOrder θ] [IsOrderedAddMonoid θ] : Elapses θ :=
  ⟨fun h hl => (sub_le_sub_right h _).trans_lt hl⟩

end Playbook

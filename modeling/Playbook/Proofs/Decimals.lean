import Mathlib.Data.List.DropRight
import Mathlib.Data.Nat.Factorization.Basic
import Playbook.Number.FloatText
import Playbook.Proofs.Rounding
import Playbook.Text.Integer

/-!
# Decimals of finite numbers

The decimal with which a finite number is written reads back as the number (`shortest_reads`): one
found on a grid was tried, and an exact one is the number. Zeros at the end of the digits change
neither the number (`ofDecimal_mul_pow`) nor its text (`writeForm_mul_pow`), so that a decimal may
be taken to have none.
-/

namespace Playbook

namespace Text

section Digits

variable {n : Nat}

/-- The values of decimal digits. -/
def digitValues (digits : List Char) : List Nat :=
  digits.map fun c => c.toNat - 48

theorem length_digitValues (digits : List Char) : (digitValues digits).length = digits.length :=
  List.length_map _

theorem ofDigits_append (base : Nat) (left right : List Nat) :
    ofDigits base (left ++ right) =
      ofDigits base left * base ^ right.length + ofDigits base right := by
  unfold ofDigits
  rw [List.foldl_append]
  generalize left.foldl _ 0 = a
  induction right generalizing a with
  | nil => simp
  | cons d right ih =>
    rw [List.foldl_cons, List.foldl_cons, ih, ih (base * 0 + d), List.length_cons, Nat.pow_succ']
    ring

@[simp]
theorem ofDigits_zeros (base k : Nat) : ofDigits base (List.replicate k 0) = 0 := by
  induction k with
  | zero => rfl
  | succ k ih => rw [List.replicate_succ', ofDigits_append, ih]; simp [ofDigits]

theorem ofDigits_toDigits (n : Nat) : ofDigits 10 (digitValues (Nat.toDigits 10 n)) = n := by
  rw [ofDigits, digitValues, List.foldl_map]
  exact Nat.ofDigitChars_toDigits (by decide) (by decide)

theorem toDigits_mul_pow (hn : n ≠ 0) (k : Nat) :
    Nat.toDigits 10 (n * 10 ^ k) = Nat.toDigits 10 n ++ List.replicate k '0' := by
  induction k with
  | zero => simp
  | succ k ih =>
    have hp : 0 < n * 10 ^ k := Nat.mul_pos (Nat.pos_of_ne_zero hn) (Nat.pow_pos (by decide))
    have hz : Nat.toDigits 10 0 = ['0'] := rfl
    rw [List.replicate_succ', ← List.append_assoc, ← ih, ← hz,
      Nat.toDigits_append_toDigits (by decide) hp (by decide), Nat.add_zero, Nat.pow_succ]
    congr 1
    ring

@[simp]
theorem digitValues_append (left right : List Char) :
    digitValues (left ++ right) = digitValues left ++ digitValues right := List.map_append

@[simp]
theorem digitValues_zeros (k : Nat) : digitValues (List.replicate k '0') = List.replicate k 0 :=
  List.map_replicate

/-- The text has nothing but decimal digits. -/
def AllDigits (text : List Char) : Prop :=
  ∀ c ∈ text, c.isDigit = true

@[simp]
theorem allDigits_append_iff {left right : List Char} :
    AllDigits (left ++ right) ↔ AllDigits left ∧ AllDigits right := List.forall_mem_append

theorem allDigits_toDigits (n : Nat) : AllDigits (Nat.toDigits 10 n) :=
  fun _ hc => Nat.isDigit_of_mem_toDigits (by decide) (by decide) hc

theorem allDigits_zeros (k : Nat) : AllDigits (List.replicate k '0') := fun c hc => by
  rw [List.eq_of_mem_replicate hc]
  decide

theorem asciiDigitRun_append {digits rest : List Char} (hd : AllDigits digits)
    (hr : ∀ c ∈ rest.head?, c.isDigit = false) :
    asciiDigitRun (digits ++ rest) = (digitValues digits, rest) := by
  induction digits with
  | nil =>
    rcases rest with _ | ⟨c, rest⟩
    · rfl
    · simp [asciiDigitRun, asciiDigit?, hr c rfl, digitValues]
  | cons c digits ih =>
    have hc := hd c List.mem_cons_self
    have hi := ih fun d h => hd d (List.mem_cons_of_mem _ h)
    simp [asciiDigitRun, asciiDigit?, hc, hi, digitValues]

theorem digitChar_ne_zero : ∀ d < 10, d ≠ 0 → Nat.digitChar d ≠ '0' := by decide

theorem head?_toDigits_ne (hn : n ≠ 0) : (Nat.toDigits 10 n).head? ≠ some '0' := by
  induction n using Nat.strongRecOn with
  | ind n ih =>
    rw [Nat.toDigits_eq_if (by decide)]
    split_ifs with h
    · simpa using digitChar_ne_zero n h hn
    · rw [List.head?_append_of_ne_nil _ Nat.toDigits_ne_nil]
      exact ih _ (by omega) (by omega)

theorem getLast?_toDigits_ne (hn : ¬10 ∣ n) : (Nat.toDigits 10 n).getLast? ≠ some '0' := by
  have hd : n % 10 ≠ 0 := fun h => hn (Nat.dvd_of_mod_eq_zero h)
  rw [Nat.toDigits_eq_if (by decide)]
  split_ifs with h
  · simpa using digitChar_ne_zero n h (by omega)
  · simpa using digitChar_ne_zero _ (Nat.mod_lt n (by decide)) hd

theorem length_toDigits_le {k : Nat} (hk : 0 < k) (h : n < 10 ^ k) :
    (Nat.toDigits 10 n).length ≤ k :=
  (Nat.length_toDigits_le_iff (by decide) hk).2 h

theorem length_toDigits_le_limit (h : n < Nat.pow 10 digitLimit) :
    (Nat.toDigits 10 n).length ≤ digitLimit := by
  have hk : 0 < digitLimit := by decide
  -- a limit that is no number yet is not raised to its power
  revert h hk
  generalize digitLimit = limit
  exact fun h hk => length_toDigits_le hk h

end Digits

end Text

namespace Binary64

section Sign

variable (negative : Bool)

/-- The number with the same magnitude and a given sign. -/
def withSign : Binary64 → Binary64
  | .nan => .nan
  | .infinite _ => .infinite negative
  | .finite _ m e h => .finite negative m e h

theorem ofParts_sign (m : Nat) (e : Int) :
    ofParts negative m e = withSign negative (ofParts false m e) := by
  unfold ofParts
  split_ifs <;> rfl

theorem ofRatio_sign (num den : Nat) :
    ofRatio negative num den = withSign negative (ofRatio false num den) := by
  unfold ofRatio
  split_ifs
  · rfl
  · exact ofParts_sign negative _ _

theorem ofDecimal_sign (c : Nat) (x : Int) :
    ofDecimal negative c x = withSign negative (ofDecimal false c x) := by
  unfold ofDecimal
  dsimp only
  split_ifs
  · rfl
  · rfl
  · rfl
  · exact ofRatio_sign negative _ _

end Sign

section Scale

variable {c : Nat} (hc : c ≠ 0) (k : Nat) (x : Int)
include hc

/-- A decimal may be written with more zeros at the end. -/
theorem ofDecimal_mul_pow (negative : Bool) :
    ofDecimal negative (c * 10 ^ k) (x - k) = ofDecimal negative c x := by
  have hpow (n : Nat) : 0 < Nat.pow 10 n := Nat.pow_pos (by decide)
  have hl : ((Nat.toDigits 10 (c * 10 ^ k)).length : Int) + (x - k) =
      (Nat.toDigits 10 c).length + x := by
    rw [Text.toDigits_mul_pow hc, List.length_append, List.length_replicate]
    omega
  have hr : c * 10 ^ k * Nat.pow 10 (x - k).toNat * Nat.pow 10 (-x).toNat =
      c * Nat.pow 10 x.toNat * Nat.pow 10 (-(x - k)).toNat := by
    have he : k + (x - k).toNat + (-x).toNat = x.toNat + (-(x - k)).toNat := by omega
    simp only [Nat.pow_eq, Nat.mul_assoc, ← Nat.pow_add]
    rw [← he]
  have h0 : c * 10 ^ k ≠ 0 := Nat.mul_ne_zero hc (hpow k).ne'
  unfold ofDecimal
  rw [if_neg h0, if_neg hc,
    ofRatio_congr negative (hpow _) (hpow _) hr]
  simp only [hl]

theorem writeForm_mul_pow : writeForm ⟨c * 10 ^ k, x - k⟩ = writeForm ⟨c, x⟩ := by
  unfold writeForm
  have hl : x - k + (Nat.toDigits 10 (c * 10 ^ k)).length - 1 =
      x + (Nat.toDigits 10 c).length - 1 := by
    rw [Text.toDigits_mul_pow hc, List.length_append, List.length_replicate]
    omega
  have hz : (Nat.toDigits 10 (c * 10 ^ k)).reverse.dropWhile (· = '0') =
      (Nat.toDigits 10 c).reverse.dropWhile (· = '0') := by
    rw [Text.toDigits_mul_pow hc, List.reverse_append, List.reverse_replicate,
      List.dropWhile_append_of_pos fun d hd => by simp [List.eq_of_mem_replicate hd]]
  simp only [hl, hz]

end Scale

/-- A decimal that is not zero may be taken to have no zero at its end. -/
theorem exists_of_digits_ne {d : DecimalForm} (hd : d.digits ≠ 0) :
    ∃ c x, ¬10 ∣ c ∧ writeForm d = writeForm ⟨c, x⟩ ∧
      ∀ negative, ofDecimal negative d.digits d.exponent = ofDecimal negative c x := by
  obtain ⟨k, c, hc, hk⟩ := Nat.exists_eq_pow_mul_and_not_dvd hd 10 (by decide)
  have h0 : c ≠ 0 := fun h => hc (h ▸ Nat.dvd_zero 10)
  obtain ⟨digits, x⟩ := d
  obtain rfl : digits = c * 10 ^ k := hk.trans (Nat.mul_comm ..)
  refine ⟨c, x + k, hc, ?_, fun negative => ?_⟩
  · rw [← writeForm_mul_pow h0 k, Int.add_sub_cancel]
  · rw [← ofDecimal_mul_pow h0 k, Int.add_sub_cancel]

theorem writeForm_of_not_dvd {c : Nat} (hc : ¬10 ∣ c) (x : Int) :
    writeForm ⟨c, x⟩ =
      let digits := Nat.toDigits 10 c
      let power : Int := x + digits.length - 1
      if -4 ≤ power ∧ power < 16 then positional digits (power + 1)
      else exponential digits power := by
  have hz : ((Nat.toDigits 10 c).reverse.dropWhile (· = '0')).reverse = Nat.toDigits 10 c := by
    refine List.rdropWhile_eq_self_iff.2 fun hne => ?_
    have hl := Text.getLast?_toDigits_ne hc
    rw [List.getLast?_eq_getLast_of_ne_nil hne] at hl
    simpa using hl
  simp only [writeForm, hz]

section Shortest

variable {m : Nat} {e : Int}

theorem two_pow_lt {k r s n t : Nat} (h : 2 ^ r < 10 ^ s) (hn : n ≤ 93 * k + r)
    (ht : 28 * k + s ≤ t) : 2 ^ n < 10 ^ t :=
  calc 2 ^ n ≤ 2 ^ (93 * k + r) := Nat.pow_le_pow_right (by decide) hn
    _ = (2 ^ 93) ^ k * 2 ^ r := by rw [Nat.pow_add, Nat.pow_mul]
    _ < (10 ^ 28) ^ k * 10 ^ s :=
      Nat.mul_lt_mul_of_le_of_lt (Nat.pow_le_pow_left (by norm_num) k) h
        (Nat.pow_pos (by decide))
    _ = 10 ^ (28 * k + s) := by rw [Nat.pow_add, Nat.pow_mul]
    _ ≤ 10 ^ t := Nat.pow_le_pow_right (by decide) ht

theorem length_whole_le (hm : m < 2 ^ 53) {n : Nat} (hn : n ≤ 971) :
    (Nat.toDigits 10 (m * 2 ^ n)).length ≤ 310 := by
  refine Text.length_toDigits_le (by decide) ?_
  calc m * 2 ^ n < 2 ^ 53 * 2 ^ n := Nat.mul_lt_mul_of_pos_right hm (Nat.pow_pos (by decide))
    _ = 2 ^ (53 + n) := (Nat.pow_add ..).symm
    _ < 10 ^ 310 := two_pow_lt (k := 11) (r := 1) (s := 1) (by decide) (by omega) (by decide)

theorem length_fraction_le (hm : m < 2 ^ 53) (n : Nat) :
    (Nat.toDigits 10 (m * 5 ^ n)).length ≤ 16 + n := by
  refine Text.length_toDigits_le (by omega) ?_
  calc m * 5 ^ n < 10 ^ 16 * 10 ^ n :=
        Nat.mul_lt_mul_of_lt_of_le (hm.trans (by norm_num))
          (Nat.pow_le_pow_left (by decide) n) (Nat.pow_pos (by decide))
    _ = 10 ^ (16 + n) := (Nat.pow_add ..).symm

theorem lt_length_fraction (hm : m ≠ 0) {n : Nat} (hn : n ≤ 1074) :
    n < (Nat.toDigits 10 (m * 5 ^ n)).length + 327 := by
  by_contra hlen
  obtain ⟨k, rfl⟩ : ∃ k, n = k + 327 := ⟨n - 327, by omega⟩
  have hpos := Nat.length_toDigits_pos (b := 10) (n := m * 5 ^ (k + 327))
  have hlt : m * 5 ^ (k + 327) < 10 ^ k :=
    (Nat.length_toDigits_le_iff (by decide) (by omega)).1 (by omega)
  have h : 10 ^ (k + 327) < 10 ^ (k + 327) :=
    calc 10 ^ (k + 327) = 5 ^ (k + 327) * 2 ^ (k + 327) := by rw [← Nat.mul_pow]
      _ ≤ m * 5 ^ (k + 327) * 2 ^ (k + 327) :=
          Nat.mul_le_mul_right _ (Nat.le_mul_of_pos_left _ (Nat.pos_of_ne_zero hm))
      _ < 10 ^ k * 10 ^ 327 :=
          Nat.mul_lt_mul_of_lt_of_le hlt
            (two_pow_lt (k := 11) (r := 51) (s := 16) (by decide) hn (by decide)).le
            (Nat.pow_pos (by decide))
      _ = 10 ^ (k + 327) := by rw [Nat.pow_add]
  exact Nat.lt_irrefl _ h

/-- A number written exactly is neither too large nor too small to be read. -/
theorem exactForm_reads (h : Canonical m e) (hm : m ≠ 0) :
    ofDecimal false (exactForm m e).digits (exactForm m e).exponent = .finite false m e h := by
  obtain ⟨hlt, hlow, hhigh, -⟩ := id h
  rw [Nat.pow_eq] at hlt
  unfold exactForm
  split_ifs with he
  · obtain ⟨n, rfl⟩ := Int.eq_ofNat_of_zero_le he
    have hd := length_whole_le hlt (n := n) (by omega)
    have h0 : m * 2 ^ n ≠ 0 := Nat.mul_ne_zero hm (Nat.pow_pos (by decide)).ne'
    simp only [ofDecimal, Int.toNat_natCast, Nat.pow_eq]
    rw [if_neg h0, if_neg (by omega), if_neg (by omega)]
    refine ofRatio_exact false h hm (by decide) ?_
    simp
  · obtain ⟨n, rfl⟩ : ∃ n : Nat, e = -n := ⟨(-e).toNat, by omega⟩
    have hd := length_fraction_le hlt n
    have hd' := lt_length_fraction hm (n := n) (by omega)
    have h0 : m * 5 ^ n ≠ 0 := Nat.mul_ne_zero hm (Nat.pow_pos (by decide)).ne'
    simp only [ofDecimal, Nat.pow_eq, neg_neg, Int.toNat_natCast, Int.toNat_neg_natCast]
    rw [if_neg h0, if_neg (by omega), if_neg (by omega)]
    refine ofRatio_exact false h hm (Nat.pow_pos (by decide)) ?_
    simp [Nat.mul_assoc, ← Nat.mul_pow]

theorem firstGrid_reads {leading : Int} {num den grids count : Nat} {d : DecimalForm}
    (h : firstGrid m e leading num den grids count = some d) : readsBack m e d = true := by
  induction grids generalizing count with
  | zero => exact absurd h (by simp [firstGrid])
  | succ grids ih =>
    rw [firstGrid] at h
    split at h
    · rename_i hg
      cases h
      exact List.find?_some hg
    · exact ih h

theorem readsBack_iff (h : Canonical m e) {d : DecimalForm} :
    readsBack m e d = true ↔ ∃ s, ofDecimal false d.digits d.exponent = .finite s m e h := by
  unfold readsBack
  split
  · rename_i hf
    simp only [hf, Bool.and_eq_true, decide_eq_true_eq, finite.injEq]
    simp
  · rename_i hf
    simp only [Bool.false_eq_true, false_iff, not_exists]
    exact fun s hs => hf _ _ _ _ hs

/-- The decimal of a finite number reads back as the number. -/
theorem shortest_reads (negative : Bool) (h : Canonical m e) (hm : m ≠ 0) :
    ofDecimal negative (shortest m e).digits (shortest m e).exponent = .finite negative m e h := by
  obtain ⟨s, hs⟩ : ∃ s, ofDecimal false (shortest m e).digits (shortest m e).exponent =
      .finite s m e h := by
    unfold shortest
    dsimp only
    rcases hg : firstGrid .. with _ | d
    · exact ⟨false, exactForm_reads h hm⟩
    · exact (readsBack_iff h).1 (firstGrid_reads hg)
  rw [ofDecimal_sign, hs]
  rfl

theorem shortest_digits_ne (h : Canonical m e) (hm : m ≠ 0) : (shortest m e).digits ≠ 0 := by
  intro h0
  have hr := shortest_reads false h hm
  rw [ofDecimal, if_pos h0] at hr
  cases hr
  exact hm rfl

end Shortest

end Binary64

end Playbook

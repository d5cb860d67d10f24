import Playbook.JsonText.Reader
import Playbook.Proofs.Decimals

/-!
# Numbers read back

A number is read up to a character that ends a value. What stands before it is taken apart into a
whole part, the digits after a point and an exponent (`readMagnitude_point`,
`readMagnitude_exponent`); however a decimal is laid out, they make up the decimal
(`readMagnitude_writeForm`).
-/

namespace Playbook.JsonText

open Text

/-- What may stand after a value of a context. -/
def Delimiter (c : Char) : Prop :=
  c = ',' ∨ c = '\n' ∨ c = '}'

/-- Digits that are read together: one zero, or no leading zero. -/
def Numeral (digits : List Char) : Prop :=
  digits = ['0'] ∨ digits ≠ [] ∧ digits.head? ≠ some '0' ∧ AllDigits digits

theorem numeral_toDigits (n : Nat) : Numeral (Nat.toDigits 10 n) := by
  rcases eq_or_ne n 0 with rfl | hn
  · exact .inl rfl
  · exact .inr ⟨Nat.toDigits_ne_nil, head?_toDigits_ne hn, allDigits_toDigits n⟩

theorem Delimiter.ne {c : Char} (hc : Delimiter c) :
    c.isDigit = false ∧ c ≠ '.' ∧ c ≠ 'e' ∧ c ≠ 'E' := by
  rcases hc with rfl | rfl | rfl <;> decide

section Numbers

variable (negative : Bool) (start : List Char)

theorem readMagnitude_eq {whole after : List Char} (hw : Numeral whole)
    (ha : ∀ c ∈ after.head?, c.isDigit = false) :
    readMagnitude negative start (whole ++ after) =
      let (fraction, rest) := readFraction after
      if fraction.isNone && !hasExponent rest then
        if whole.length ≤ digitLimit then
          let n : Int := ofDigits 10 (digitValues whole)
          .ok (.int (if negative then -n else n), rest)
        else .error (.integerTooLong whole.length)
      else
        let (exponent, rest) := exponentRun asciiDigitRun rest
        .ok (.plain (.float (decimalNumber negative (digitValues whole) (fraction.getD [])
          exponent)), rest) := by
  rcases hw with rfl | ⟨hne, hz, hd⟩
  · rfl
  · obtain ⟨c, digits, rfl⟩ := List.exists_cons_of_ne_nil hne
    have hc : c ≠ '0' := by simpa using hz
    have hl : (digitValues (c :: digits)).length = (c :: digits).length := length_digitValues _
    have hrun := asciiDigitRun_append hd ha
    rw [List.cons_append] at hrun ⊢
    unfold readMagnitude
    split
    rename_i ds rest hm
    split at hm
    · rename_i h
      cases h
      exact absurd rfl hc
    · rw [hrun] at hm
      cases hm
      rw [← hl]
      rfl

theorem readFraction_of_ne {c : Char} (hc : c ≠ '.') (rest : List Char) :
    readFraction (c :: rest) = (none, c :: rest) := by
  unfold readFraction
  split
  · rename_i h
    cases h
    exact absurd rfl hc
  · rfl

theorem readFraction_point {fraction : List Char} (hne : fraction ≠ []) (hf : AllDigits fraction)
    {rest : List Char} (hr : ∀ c ∈ rest.head?, c.isDigit = false) :
    readFraction ('.' :: (fraction ++ rest)) = (some (digitValues fraction), rest) := by
  obtain ⟨d, fraction, rfl⟩ := List.exists_cons_of_ne_nil hne
  simp only [readFraction, asciiDigitRun_append hf hr]
  rfl

theorem signed_mark (minus : Bool) (rest : List Char) :
    signed ((if minus then '-' else '+') :: rest) = (minus, rest) := by
  cases minus <;> rfl

/-- An exponent as it is written: a sign and digits. -/
theorem exponentRun_mark {size : List Char} (hne : size ≠ []) (hs : AllDigits size) (minus : Bool)
    {rest : List Char} (hr : ∀ c ∈ rest.head?, c.isDigit = false) :
    exponentRun asciiDigitRun ('e' :: (if minus then '-' else '+') :: (size ++ rest)) =
      (if minus then -(ofDigits 10 (digitValues size) : Int) else ofDigits 10 (digitValues size),
        rest) := by
  obtain ⟨d, size, rfl⟩ := List.exists_cons_of_ne_nil hne
  simp only [exponentRun, signed_mark, asciiDigitRun_append hs hr]
  rfl

theorem hasExponent_mark {size : List Char} (hne : size ≠ []) (hs : AllDigits size) (minus : Bool)
    {rest : List Char} (hr : ∀ c ∈ rest.head?, c.isDigit = false) :
    hasExponent ('e' :: (if minus then '-' else '+') :: (size ++ rest)) = true := by
  have hv : digitValues size ≠ [] := by simpa [digitValues] using hne
  simp [hasExponent, signed_mark, asciiDigitRun_append hs hr, hv]

section Delimited

variable {c : Char} (hc : Delimiter c) (rest : List Char)
include hc

theorem hasExponent_delimiter : hasExponent (c :: rest) = false := by
  simp [hasExponent, hc.ne]

theorem exponentRun_delimiter : exponentRun asciiDigitRun (c :: rest) = (0, c :: rest) := by
  simp [exponentRun, hc.ne]

theorem readMagnitude_int {n : Nat} (hn : n < Nat.pow 10 digitLimit) :
    readMagnitude negative start (Nat.toDigits 10 n ++ c :: rest) =
      .ok (.int (if negative then -(n : Int) else n), c :: rest) := by
  have hl := length_toDigits_le_limit hn
  rw [readMagnitude_eq negative start (numeral_toDigits n) (by simpa using hc.ne.1),
    readFraction_of_ne hc.ne.2.1]
  simp [hasExponent_delimiter hc, hl, ofDigits_toDigits]

/-- Digits with a point between them. -/
theorem readMagnitude_point {whole fraction : List Char} (hw : Numeral whole)
    (hne : fraction ≠ []) (hf : AllDigits fraction) :
    readMagnitude negative start (whole ++ '.' :: fraction ++ c :: rest) =
      .ok (.plain (.float (.ofDecimal negative (ofDigits 10 (digitValues (whole ++ fraction)))
        (-fraction.length))), c :: rest) := by
  rw [List.append_assoc, List.cons_append, readMagnitude_eq negative start hw (by simp),
    readFraction_point hne hf (by simpa using hc.ne.1)]
  simp [exponentRun_delimiter hc, decimalNumber, length_digitValues]

/-- Digits, perhaps with a point between them, and an exponent. -/
theorem readMagnitude_exponent {whole fraction size : List Char} (hw : Numeral whole)
    (hf : AllDigits fraction) (hne : size ≠ []) (hs : AllDigits size) (minus : Bool) :
    readMagnitude negative start (whole ++ (if fraction.isEmpty then [] else '.' :: fraction) ++
        'e' :: (if minus then '-' else '+') :: size ++ c :: rest) =
      .ok (.plain (.float (.ofDecimal negative (ofDigits 10 (digitValues (whole ++ fraction)))
        ((if minus then -(ofDigits 10 (digitValues size) : Int)
          else ofDigits 10 (digitValues size)) - fraction.length))), c :: rest) := by
  have hd : ∀ d ∈ (c :: rest).head?, d.isDigit = false := by simpa using hc.ne.1
  have hx := hasExponent_mark hne hs minus hd
  have hr := exponentRun_mark hne hs minus hd
  rcases fraction with _ | ⟨d, fraction⟩
  · simp only [List.isEmpty_nil, if_true, List.append_assoc, List.append_nil, List.cons_append]
    rw [readMagnitude_eq negative start hw (by simp), readFraction_of_ne (by decide)]
    simp [hx, hr, decimalNumber]
  · simp only [List.isEmpty_cons, List.append_assoc, List.cons_append]
    rw [if_neg (by decide), List.cons_append,
      readMagnitude_eq negative start hw (by simp),
      readFraction_point (by simp) hf (by simp)]
    simp [hr, decimalNumber, length_digitValues]

end Delimited

section Forms

open Binary64

variable {n : Nat}

theorem ofDigits_leading (n k : Nat) :
    ofDigits 10 (digitValues ('0' :: (List.replicate k '0' ++ Nat.toDigits 10 n))) = n := by
  rw [← List.cons_append, ← List.replicate_succ, digitValues_append, digitValues_zeros,
    ofDigits_append, ofDigits_zeros, ofDigits_toDigits, Nat.zero_mul, Nat.zero_add]

variable (hn : n ≠ 0)
include hn

theorem ofDigits_trailing (k : Nat) :
    ofDigits 10 (digitValues (Nat.toDigits 10 n ++ List.replicate k '0')) = n * 10 ^ k := by
  rw [← toDigits_mul_pow hn, ofDigits_toDigits]

theorem numeral_of_take {k : Nat} (hk : k ≠ 0) (j : Nat) :
    Numeral ((Nat.toDigits 10 n).take k ++ List.replicate j '0') := by
  have hne : (Nat.toDigits 10 n).take k ≠ [] := by simp [hk, Nat.toDigits_ne_nil]
  refine .inr ⟨by simp [hne], ?_, ?_⟩
  · rw [List.head?_append_of_ne_nil _ hne, List.head?_take, if_neg hk]
    exact head?_toDigits_ne hn
  · exact allDigits_append_iff.2
      ⟨fun c hc => allDigits_toDigits n c (List.mem_of_mem_take hc), allDigits_zeros j⟩

/-- What is written with a point in its place has digits on both sides of it that are the number. -/
theorem positional_parts (place : Int) :
    ∃ whole fraction, positional (Nat.toDigits 10 n) place = whole ++ '.' :: fraction ∧
      Numeral whole ∧ fraction ≠ [] ∧ AllDigits fraction ∧
      ofDecimal negative (ofDigits 10 (digitValues (whole ++ fraction))) (-fraction.length) =
        ofDecimal negative n (place - (Nat.toDigits 10 n).length) := by
  have hd := allDigits_toDigits n
  unfold positional
  by_cases hp : place ≤ 0
  · -- the whole part is a zero
    obtain ⟨k, rfl⟩ : ∃ k : Nat, place = -k := ⟨(-place).toNat, by omega⟩
    refine ⟨['0'], List.replicate k '0' ++ Nat.toDigits 10 n, by simp [hp], .inl rfl, ?_,
      allDigits_append_iff.2 ⟨allDigits_zeros k, hd⟩, ?_⟩
    · exact fun h => Nat.toDigits_ne_nil (List.append_eq_nil_iff.1 h).2
    · rw [List.singleton_append, ofDigits_leading, List.length_append, List.length_replicate]
      congr 1
      omega
  · obtain ⟨k, rfl⟩ : ∃ k : Nat, place = k := ⟨place.toNat, by omega⟩
    have hk : k ≠ 0 := by omega
    have hw := numeral_of_take hn hk (k - (Nat.toDigits 10 n).length)
    rcases Nat.lt_or_ge k (Nat.toDigits 10 n).length with hl | hl
    · -- the point stands between the digits
      refine ⟨_, (Nat.toDigits 10 n).drop k, ?_, hw, ?_,
        fun c hc => hd c (List.mem_of_mem_drop hc), ?_⟩
      · simp [hk, Nat.not_le.2 hl]
      · simpa using hl
      · rw [Nat.sub_eq_zero_of_le hl.le, List.replicate_zero, List.append_nil,
          List.take_append_drop, ofDigits_toDigits, List.length_drop]
        congr 1
        omega
    · -- the fraction is a zero
      have he : (k : Int) - (Nat.toDigits 10 n).length =
          (k - (Nat.toDigits 10 n).length : Nat) := by
        omega
      refine ⟨_, ['0'], by simp [hk, hl], hw, by simp, by simp [AllDigits], ?_⟩
      rw [List.take_of_length_le hl, List.append_assoc, ← List.replicate_succ',
        ofDigits_trailing hn, he, ← ofDecimal_mul_pow hn (k - (Nat.toDigits 10 n).length + 1)]
      congr 1
      simp

omit hn in
/-- The digits of an exponent, with a zero before one alone, are the exponent. -/
theorem padded_parts (n : Nat) :
    ∃ size, (if (Nat.toDigits 10 n).length < 2 then '0' :: Nat.toDigits 10 n
        else Nat.toDigits 10 n) = size ∧
      size ≠ [] ∧ AllDigits size ∧ ofDigits 10 (digitValues size) = n := by
  have hd := allDigits_toDigits n
  split_ifs
  · exact ⟨_, rfl, List.cons_ne_nil _ _, List.forall_mem_cons.2 ⟨by decide, hd⟩,
      ofDigits_leading n 0⟩
  · exact ⟨_, rfl, Nat.toDigits_ne_nil, hd, ofDigits_toDigits n⟩

/-- What is written with an exponent has digits that are the number. -/
theorem exponential_parts (power : Int) :
    ∃ whole fraction size, ∃ minus : Bool, exponential (Nat.toDigits 10 n) power =
        whole ++ (if fraction.isEmpty then [] else '.' :: fraction) ++
          'e' :: (if minus then '-' else '+') :: size ∧
      Numeral whole ∧ AllDigits fraction ∧ size ≠ [] ∧ AllDigits size ∧
      (if minus then -(ofDigits 10 (digitValues size) : Int)
        else ofDigits 10 (digitValues size)) - (fraction.length : Int) =
          power + 1 - (Nat.toDigits 10 n).length ∧
      ofDigits 10 (digitValues (whole ++ fraction)) = n := by
  obtain ⟨size, hsize, hne, hs, hv⟩ := padded_parts power.natAbs
  have hlen : 0 < (Nat.toDigits 10 n).length := Nat.length_toDigits_pos
  have hw := numeral_of_take hn one_ne_zero 0
  rw [List.replicate_zero, List.append_nil] at hw
  have hf : AllDigits ((Nat.toDigits 10 n).drop 1) :=
    fun c hc => allDigits_toDigits n c (List.mem_of_mem_drop hc)
  refine ⟨_, _, size, decide (power < 0), ?_, hw, hf, hne, hs, ?_, ?_⟩
  · simp [exponential, ← hsize]
  · rw [hv, List.length_drop]
    split_ifs with hp <;> simp at hp <;> omega
  · rw [List.take_append_drop, ofDigits_toDigits]

variable {c : Char} (hc : Delimiter c) (rest : List Char)
include hc

theorem readMagnitude_positional (place : Int) :
    readMagnitude negative start (positional (Nat.toDigits 10 n) place ++ c :: rest) =
      .ok (.plain (.float (.ofDecimal negative n (place - (Nat.toDigits 10 n).length))),
        c :: rest) := by
  obtain ⟨whole, fraction, ht, hw, hne, hf, hv⟩ := positional_parts negative hn place
  rw [ht, readMagnitude_point negative start hc rest hw hne hf, hv]

theorem readMagnitude_exponential (power : Int) :
    readMagnitude negative start (exponential (Nat.toDigits 10 n) power ++ c :: rest) =
      .ok (.plain (.float (.ofDecimal negative n (power + 1 - (Nat.toDigits 10 n).length))),
        c :: rest) := by
  obtain ⟨whole, fraction, size, minus, ht, hw, hf, hne, hs, hx, hv⟩ := exponential_parts hn power
  rw [ht, readMagnitude_exponent negative start hc rest hw hf hne hs, hv, hx]

omit hn in
theorem readMagnitude_writeForm {d : DecimalForm} (hd : d.digits ≠ 0) :
    readMagnitude negative start (writeForm d ++ c :: rest) =
      .ok (.plain (.float (.ofDecimal negative d.digits d.exponent)), c :: rest) := by
  obtain ⟨k, x, hk, hw, hr⟩ := exists_of_digits_ne hd
  have h0 : k ≠ 0 := fun h => hk (h ▸ Nat.dvd_zero 10)
  rw [hw, hr, writeForm_of_not_dvd hk]
  dsimp only
  split_ifs
  · rw [readMagnitude_positional negative start h0 hc rest]
    congr 6
    omega
  · rw [readMagnitude_exponential negative start h0 hc rest]
    congr 6
    omega

end Forms

theorem isDigit_of_readMagnitude {text : List Char} {r : Datum × List Char}
    (h : readMagnitude negative start text = .ok r) :
    ∃ c rest, text = c :: rest ∧ c.isDigit = true := by
  rcases text with _ | ⟨c, rest⟩
  · simp [readMagnitude, asciiDigitRun] at h
  · refine ⟨c, rest, rfl, ?_⟩
    by_contra hc
    have hz : c ≠ '0' := by
      rintro rfl
      exact hc (by decide)
    have hr : asciiDigitRun (c :: rest) = ([], c :: rest) := by
      simp [asciiDigitRun, asciiDigit?, hc]
    simp [readMagnitude, hz, hr] at h

/-- A number with a minus before it if it is negative. -/
def withMinus (text : List Char) : List Char :=
  if negative then '-' :: text else text

theorem withMinus_append (text rest : List Char) :
    withMinus negative text ++ rest = withMinus negative (text ++ rest) := by
  cases negative <;> rfl

theorem readScalar_of_readMagnitude {text : List Char} {r : Datum × List Char}
    (h : readMagnitude negative (withMinus negative text) text = .ok r) :
    readScalar (withMinus negative text) = .ok r := by
  obtain ⟨c, rest, rfl, hc⟩ := isDigit_of_readMagnitude negative _ h
  have hne : 'n' ≠ c ∧ 't' ≠ c ∧ 'f' ≠ c ∧ 'N' ≠ c ∧ 'I' ≠ c ∧ c ≠ '-' := by
    refine ⟨?_, ?_, ?_, ?_, ?_, ?_⟩ <;>
      (rintro rfl; exact absurd hc (by decide))
  rw [← h]
  cases negative
  · simp [readScalar, withMinus, words, afterWord?, hne, Ne.symm hne.2.2.2.2.2]
  · simp [readScalar, withMinus, words, afterWord?, hne]

end Numbers

theorem eq_of_printInteger? {i : Int} {s : String} (h : printInteger? i = some s) :
    i.natAbs < Nat.pow 10 digitLimit ∧ s = integerText i := by
  unfold printInteger? at h
  split_ifs at h with hi
  exact ⟨hi, (Option.some.inj h).symm⟩

theorem toList_integerText (i : Int) :
    (integerText i).toList = withMinus (decide (i < 0)) (Nat.toDigits 10 i.natAbs) := by
  unfold integerText
  split
  · simp [withMinus, Nat.repr]
  · simp [withMinus, Nat.repr, Int.negSucc_lt_zero]

end Playbook.JsonText

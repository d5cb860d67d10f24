import Mathlib.Data.String.Basic
import Playbook.Graph.ProblemId
import Playbook.Proofs.Decimals
import Playbook.Proofs.Printed

/-!
# Numbers in problem ids

The type and the number that a problem id was written with are read back from it (`write_keeps`),
whatever hyphens the type has. Among ids of one type the order of the texts is the order of the
numbers as long as these are written with the same number of digits (`numbered_lt`), and not beyond:
`t-1000` stands before `t-999`.
-/

namespace Playbook

namespace Text

variable {digits : List Char}

theorem digit?_of_isDigit {c : Char} (hc : c.isDigit = true) : digit? c = some (c.toNat - 48) := by
  obtain ⟨hl, hu⟩ := toNat_of_isDigit hc
  have hu : c.toNat < 0x30 + 10 := by omega
  simp [digit?, zeroDigits, hl, hu]

theorem digitRun_of_allDigits (hd : AllDigits digits) (inside : Bool) :
    digitRun inside digits = (digitValues digits, []) := by
  induction digits generalizing inside with
  | nil => rfl
  | cons c digits ih =>
    have hi := ih (fun d h => hd d (List.mem_cons_of_mem _ h)) true
    simp only [digitRun, digit?_of_isDigit (hd c List.mem_cons_self), hi]
    rfl

theorem signed_of_allDigits (hd : AllDigits digits) : signed digits = (false, digits) := by
  unfold signed
  split
  · exact absurd (hd '-' List.mem_cons_self) (by decide)
  · exact absurd (hd '+' List.mem_cons_self) (by decide)
  · rfl

theorem bareInteger?_of_allDigits (hd : AllDigits digits) (hne : digits ≠ [])
    (hl : digits.length ≤ digitLimit) :
    bareInteger? digits = some (ofDigits 10 (digitValues digits) : Int) := by
  have hv : digitValues digits ≠ [] := fun h => hne (List.map_eq_nil_iff.1 h)
  obtain ⟨v, rest, hv⟩ := List.exists_cons_of_ne_nil hv
  have hvl : (v :: rest).length ≤ digitLimit := by
    rw [← hv, length_digitValues]
    exact hl
  simp only [bareInteger?, signed_of_allDigits hd, digitRun_of_allDigits hd, hv, if_pos hvl]
  rfl

theorem stripBy_isPadding_of_allDigits (hd : AllDigits digits) :
    stripBy isPadding digits = digits :=
  stripBy_of_forall fun c hc => (Bool.or_eq_false_iff.1 (isBlank_of_isDigit (hd c hc))).1

theorem readInteger?_of_allDigits (hd : AllDigits digits) (hne : digits ≠ [])
    (hl : digits.length ≤ digitLimit) :
    readInteger? (String.ofList digits) = some (ofDigits 10 (digitValues digits) : Int) := by
  rw [readInteger?, String.toList_ofList, stripBy_isPadding_of_allDigits hd,
    bareInteger?_of_allDigits hd hne hl]

theorem afterLast_append {c : Char} {right : List Char} (hc : c ∉ right) (left : List Char) :
    afterLast c (left ++ c :: right) = right := by
  have hp : ∀ d ∈ right.reverse, decide (d ≠ c) = true := fun d hd => by
    rw [decide_eq_true_eq]
    rintro rfl
    exact hc (List.mem_reverse.1 hd)
  rw [afterLast, List.reverse_append, List.reverse_cons, List.append_assoc,
    List.takeWhile_append_of_pos hp, List.singleton_append,
    List.takeWhile_cons_of_neg (by simp), List.append_nil, List.reverse_reverse]

section Order

theorem ofDigits_cons (d : Nat) (rest : List Nat) :
    ofDigits 10 (d :: rest) = d * 10 ^ rest.length + ofDigits 10 rest := by
  rw [← List.singleton_append, ofDigits_append]
  simp [ofDigits]

theorem ofDigits_lt_pow {values : List Nat} (h : ∀ d ∈ values, d < 10) :
    ofDigits 10 values < 10 ^ values.length := by
  induction values with
  | nil => decide
  | cons d rest ih =>
    obtain ⟨hd, hrest⟩ := List.forall_mem_cons.1 h
    have hi := ih hrest
    have hm : d * 10 ^ rest.length ≤ 9 * 10 ^ rest.length := Nat.mul_le_mul_right _ (by omega)
    rw [ofDigits_cons, List.length_cons, Nat.pow_succ]
    omega

theorem digitValues_lt (hd : AllDigits digits) : ∀ d ∈ digitValues digits, d < 10 := by
  intro d hm
  obtain ⟨c, hc, rfl⟩ := List.mem_map.1 hm
  have hu := (toNat_of_isDigit (hd c hc)).2
  omega

/-- Of two runs of as many digits, the lesser number is the lesser text. -/
theorem lt_of_ofDigits_lt {left right : List Char} (hl : AllDigits left) (hr : AllDigits right)
    (hlen : left.length = right.length)
    (h : ofDigits 10 (digitValues left) < ofDigits 10 (digitValues right)) : left < right := by
  induction left generalizing right with
  | nil =>
    rw [List.eq_nil_of_length_eq_zero hlen.symm] at h
    exact absurd h (Nat.lt_irrefl _)
  | cons c left ih =>
    cases right with
    | nil => cases hlen
    | cons d right =>
      have hlen : left.length = right.length := Nat.succ.inj hlen
      have hl' : AllDigits left := fun e he => hl e (List.mem_cons_of_mem _ he)
      have hr' : AllDigits right := fun e he => hr e (List.mem_cons_of_mem _ he)
      change ofDigits 10 ((c.toNat - 48) :: digitValues left) <
        ofDigits 10 ((d.toNat - 48) :: digitValues right) at h
      rw [ofDigits_cons, ofDigits_cons, length_digitValues, length_digitValues, hlen] at h
      rcases Nat.lt_trichotomy c.toNat d.toNat with hcd | hcd | hcd
      · exact List.cons_lt_cons_iff.2 (.inl (UInt32.lt_iff_toNat_lt.2 hcd))
      · rw [hcd] at h
        have hi : left < right := ih hl' hr' hlen (by omega)
        exact List.cons_lt_cons_iff.2 (.inr ⟨Char.toNat_inj.1 hcd, hi⟩)
      · -- what follows the lesser digit adds up to less than the other digit is worth more
        have hd := (toNat_of_isDigit (hr d List.mem_cons_self)).1
        have hm : (d.toNat - 48 + 1) * 10 ^ right.length ≤ (c.toNat - 48) * 10 ^ right.length :=
          Nat.mul_le_mul_right _ (by omega)
        have hb := ofDigits_lt_pow (digitValues_lt hr')
        rw [length_digitValues] at hb
        rw [Nat.succ_mul] at hm
        omega

end Order

end Text

namespace ProblemId

open Text

variable {type type' : String} {k l : Nat}

/-- The id of a problem of a type under a number. -/
def numbered (type : String) (k : Nat) : String :=
  s!"{type}-{numberText k}"

/-- The characters of a number in an id. -/
def numberDigits (k : Nat) : List Char :=
  List.replicate (3 - (Nat.toDigits 10 k).length) '0' ++ Nat.toDigits 10 k

theorem toList_numbered (type : String) (k : Nat) :
    (numbered type k).toList = type.toList ++ '-' :: numberDigits k := by
  have hn : ¬((k : Int) < 0) := by omega
  rw [numbered, numberText, if_neg hn, padded, Int.natAbs_natCast, Nat.repr]
  simp [numberDigits, ToString.toString]

theorem allDigits_numberDigits (k : Nat) : AllDigits (numberDigits k) :=
  allDigits_append_iff.2 ⟨allDigits_zeros _, allDigits_toDigits k⟩

theorem ofDigits_numberDigits (k : Nat) : ofDigits 10 (digitValues (numberDigits k)) = k := by
  rw [numberDigits, digitValues_append, digitValues_zeros, ofDigits_append, ofDigits_zeros,
    Nat.zero_mul, Nat.zero_add, ofDigits_toDigits]

theorem numberDigits_ne_nil (k : Nat) : numberDigits k ≠ [] :=
  List.append_ne_nil_of_right_ne_nil _ Nat.toDigits_ne_nil

theorem hyphen_notMem_numberDigits (k : Nat) : '-' ∉ numberDigits k := fun h =>
  absurd (allDigits_numberDigits k '-' h) (by decide)

theorem length_numberDigits_le (hk : k < Nat.pow 10 digitLimit) :
    (numberDigits k).length ≤ digitLimit := by
  have hd := length_toDigits_le_limit hk
  have hl : 3 ≤ digitLimit := by decide
  rw [numberDigits, List.length_append, List.length_replicate]
  omega

theorem length_numbered (type : String) (k : Nat) :
    (numbered type k).length = type.length + 1 + (numberDigits k).length := by
  rw [← String.length_toList, toList_numbered, List.length_append, List.length_cons,
    String.length_toList]
  omega

theorem length_numbered_mono (type : String) (h : k ≤ l) :
    (numbered type k).length ≤ (numbered type l).length := by
  have hp : 0 < (Nat.toDigits 10 l).length := Nat.length_toDigits_pos
  have hl : l < 10 ^ (Nat.toDigits 10 l).length :=
    (Nat.length_toDigits_le_iff (by decide) hp).1 (Nat.le_refl _)
  have hd := length_toDigits_le hp (lt_of_le_of_lt h hl)
  rw [length_numbered, length_numbered, numberDigits, numberDigits, List.length_append,
    List.length_append, List.length_replicate, List.length_replicate]
  omega

theorem write_natCast (type : String) (hk : k < Nat.pow 10 digitLimit) :
    write type k = .ok (numbered type k) := by
  have hp : (printInteger? k).isSome = true := by
    rw [printInteger?, if_pos (by rwa [Int.natAbs_natCast])]
    rfl
  rw [write, if_pos hp]
  rfl

theorem number?_numbered (type : String) (hk : k < Nat.pow 10 digitLimit) :
    number? (numbered type k) = some (k : Int) := by
  have hne : numbered type k ≠ "" := fun h => by
    have ht := toList_numbered type k
    rw [h] at ht
    exact absurd ht.symm (List.append_ne_nil_of_right_ne_nil _ (List.cons_ne_nil _ _))
  rw [number?, if_neg hne, toList_numbered, afterLast_append (hyphen_notMem_numberDigits k),
    readInteger?_of_allDigits (allDigits_numberDigits k) (numberDigits_ne_nil k)
      (length_numberDigits_le hk), ofDigits_numberDigits]

/-- The digits hold no hyphen, so that the last one of an id parts its type from its number,
whatever hyphens the type has. -/
theorem numbered_eq_iff : numbered type k = numbered type' l ↔ type = type' ∧ k = l := by
  refine ⟨fun h => ?_, fun ⟨ht, hk⟩ => by rw [ht, hk]⟩
  have hl : type.toList ++ '-' :: numberDigits k = type'.toList ++ '-' :: numberDigits l := by
    rw [← toList_numbered, ← toList_numbered, h]
  have hd : numberDigits k = numberDigits l := by
    rw [← afterLast_append (hyphen_notMem_numberDigits k) type.toList, hl,
      afterLast_append (hyphen_notMem_numberDigits l)]
  rw [hd] at hl
  refine ⟨String.toList_injective (List.append_cancel_right hl), ?_⟩
  rw [← ofDigits_numberDigits k, ← ofDigits_numberDigits l, hd]

theorem numbered_inj (h : numbered type k = numbered type l) : k = l :=
  (numbered_eq_iff.1 h).2

theorem numbered_lt (hlen : (numbered type k).length = (numbered type l).length) (h : k < l) :
    numbered type k < numbered type l := by
  have hd : (numberDigits k).length = (numberDigits l).length := by
    rw [length_numbered, length_numbered] at hlen
    omega
  have hlt : numberDigits k < numberDigits l := by
    refine lt_of_ofDigits_lt (allDigits_numberDigits k) (allDigits_numberDigits l) hd ?_
    rwa [ofDigits_numberDigits, ofDigits_numberDigits]
  rw [String.lt_iff_toList_lt, toList_numbered, toList_numbered]
  exact List.append_left_lt (List.cons_lt_cons_iff.2 (.inr ⟨rfl, hlt⟩))

/-- Only numbers of no more than `digitLimit` digits have an id. -/
theorem write_eq_ok_iff {id : String} :
    write type k = .ok id ↔ k < Nat.pow 10 digitLimit ∧ id = numbered type k := by
  by_cases hk : k < Nat.pow 10 digitLimit
  · rw [write_natCast type hk]
    exact ⟨fun h => ⟨hk, (Except.ok.inj h).symm⟩, fun h => by rw [h.2]⟩
  · have hp : ¬(printInteger? k).isSome = true := by
      rw [printInteger?, Int.natAbs_natCast, if_neg hk]
      decide
    rw [write, if_neg hp]
    exact iff_of_false (by simp) fun h => hk h.1

/-- An id keeps the type and the number that it is written from: the number is read back from it,
and nothing else has the same id. -/
theorem write_keeps (type : String) (hk : k < Nat.pow 10 digitLimit) :
    ∃ id, write type k = .ok id ∧ number? id = some (k : Int) ∧
      ∀ (other : String) (n : Nat), write other n = .ok id → other = type ∧ n = k := by
  refine ⟨numbered type k, write_natCast type hk, number?_numbered type hk, fun other n h => ?_⟩
  obtain ⟨-, h⟩ := write_eq_ok_iff.1 h
  exact (numbered_eq_iff.1 h).imp Eq.symm Eq.symm

/-- A type that ends in a hyphen and a number, under a number of four digits. -/
theorem write_keeps_refund :
    1000 < Nat.pow 10 digitLimit ∧
    ∃ id, write "refund--7" (1000 : Nat) = .ok id ∧ number? id = some ((1000 : Nat) : Int) ∧
      ∀ (other : String) (n : Nat),
        write other n = .ok id → other = "refund--7" ∧ n = 1000 := by
  have hk : 1000 < Nat.pow 10 digitLimit := lt_pow_digitLimit (by decide)
  exact ⟨hk, write_keeps "refund--7" hk⟩

end ProblemId

end Playbook

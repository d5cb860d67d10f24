import Mathlib.Data.Rat.Cast.CharZero
import Mathlib.Tactic.NormNum
import Playbook.Context

/-!
# The values that data become

Data become values or are refused for their type, decimals that cannot be tested for a fraction
apart (`Datum.toValue_exact`). A finite decimal becomes the integer that it is equal to, whatever
its exponent and its zeros, and a floating-point number if it has a fraction. What a mapping becomes
stays as it is when it is turned into a context again.
-/

namespace Playbook

namespace Decimal

variable {negative : Bool} {coefficient : Nat} {exponent i : Int}

/-- The number that a finite decimal is. -/
def toRat (negative : Bool) (coefficient : Nat) (exponent : Int) : ℚ :=
  withSign negative coefficient * 10 ^ exponent

theorem withSign_mul (negative : Bool) (n k : Nat) :
    withSign negative (n * k) = withSign negative n * k := by
  cases negative <;> simp [withSign]

theorem natAbs_withSign (negative : Bool) (n : Nat) : (withSign negative n).natAbs = n := by
  cases negative <;> simp [withSign]

/-- A number is a multiple of a unit just when its magnitude is. -/
theorem withSign_eq_mul_iff {unit : Nat} (hu : 0 < unit) :
    withSign negative coefficient = i * unit ↔
      coefficient % unit = 0 ∧ withSign negative (coefficient / unit) = i := by
  have hu' : (unit : Int) ≠ 0 := by omega
  constructor
  · intro h
    have hc : coefficient = i.natAbs * unit := by
      rw [← natAbs_withSign negative coefficient, h, Int.natAbs_mul, Int.natAbs_natCast]
    have hd : coefficient / unit = i.natAbs := by rw [hc, Nat.mul_div_cancel _ hu]
    refine ⟨by rw [hc, Nat.mul_mod_left], Int.eq_of_mul_eq_mul_right hu' ?_⟩
    rw [hd, ← withSign_mul, ← hc, h]
  · rintro ⟨hm, rfl⟩
    rw [← withSign_mul, Nat.div_mul_cancel (Nat.dvd_of_mod_eq_zero hm)]

theorem toInt?_eq_some_iff :
    toInt? negative coefficient exponent = some i ↔ toRat negative coefficient exponent = i := by
  by_cases h : 0 ≤ exponent
  · obtain ⟨n, rfl⟩ := Int.eq_ofNat_of_zero_le h
    rw [toInt?, if_pos h, Option.some.injEq, withSign_mul, toRat, Int.toNat_natCast, Nat.pow_eq,
      zpow_natCast]
    norm_cast
  · obtain ⟨n, hn⟩ := Int.eq_ofNat_of_zero_le (Int.neg_nonneg_of_nonpos (Int.le_of_not_le h))
    obtain rfl : exponent = -(n : Int) := by omega
    -- over the power of ten this is an equation of integers
    have hp : (10 : ℚ) ^ n ≠ 0 := pow_ne_zero n (by norm_num)
    have hr : toRat negative coefficient (-(n : Int)) = i ↔
        withSign negative coefficient = i * (10 ^ n : Nat) := by
      rw [toRat, zpow_neg, zpow_natCast, ← div_eq_mul_inv, div_eq_iff hp]
      norm_cast
    rw [hr, withSign_eq_mul_iff (Nat.pow_pos (by decide)), toInt?, if_neg h, Int.neg_neg,
      Int.toNat_natCast, Nat.pow_eq]
    simp only [Option.ite_none_right_eq_some, Option.some.injEq]

end Decimal

namespace Datum

variable {d : Datum}

/-- What is made of other data, or is no data at all. -/
def IsCompound : Datum → Prop
  | list _ | tuple _ | dict _ | other _ => True
  | _ => False

/-- A decimal that cannot be tested for a fraction: it is infinite, which passes for an integer, or
refuses to be calculated with. -/
def IsUntestable : Datum → Prop
  | decimal (.infinite _) | decimal (.signalling _) => True
  | _ => False

theorem toValue_of_compound (h : d.IsCompound) :
    d.toValue = .error (.unsupportedValue d.typeName) := by
  unfold IsCompound at h
  split at h
  · rfl
  · rfl
  · rfl
  · rfl
  · exact h.elim

theorem toValue_of_untestable (h : d.IsUntestable) :
    ∃ f, d.toValue = .error f ∧ f.kind ≠ .invalidValue := by
  unfold IsUntestable at h
  split at h
  · exact ⟨_, rfl, nofun⟩
  · exact ⟨_, rfl, nofun⟩
  · exact h.elim

theorem toValue_cases (d : Datum) :
    d.IsCompound ∨ d.IsUntestable ∨ ∃ v, d.toValue = .ok v := by
  cases d with
  | plain _ | date _ | dateTime _ | bytes _ => exact .inr (.inr ⟨_, rfl⟩)
  | list _ | tuple _ | dict _ | other _ => exact .inl trivial
  | decimal d =>
    refine .inr ?_
    cases d with
    | infinite _ | signalling _ => exact .inl trivial
    | nan _ => exact .inr ⟨_, rfl⟩
    | finite negative coefficient exponent =>
      simp only [toValue, ofDecimal]
      rcases Decimal.toInt? negative coefficient exponent with _ | i
      · exact .inr ⟨_, rfl⟩
      · exact .inr ⟨_, rfl⟩

theorem refused_iff : (∃ f, d.toValue = .error f ∧ f.kind = .invalidValue) ↔ d.IsCompound := by
  refine ⟨fun ⟨f, hf, hk⟩ => ?_, fun h => ⟨_, toValue_of_compound h, rfl⟩⟩
  rcases d.toValue_cases with h | h | ⟨v, hv⟩
  · exact h
  · obtain ⟨f', hf', hk'⟩ := toValue_of_untestable h
    cases hf.symm.trans hf'
    exact absurd hk hk'
  · cases hf.symm.trans hv

theorem failed_iff : (∃ f, d.toValue = .error f ∧ f.kind ≠ .invalidValue) ↔ d.IsUntestable := by
  refine ⟨fun ⟨f, hf, hk⟩ => ?_, toValue_of_untestable⟩
  rcases d.toValue_cases with h | h | ⟨v, hv⟩
  · cases hf.symm.trans (toValue_of_compound h)
    exact absurd rfl hk
  · exact h
  · cases hf.symm.trans hv

section Finite

variable {negative : Bool} {coefficient : Nat} {exponent : Int}

theorem toValue_finite_eq_int_iff {i : Int} :
    (decimal (.finite negative coefficient exponent)).toValue = .ok (.int i) ↔
      Decimal.toRat negative coefficient exponent = i := by
  rw [← Decimal.toInt?_eq_some_iff, toValue, ofDecimal]
  rcases Decimal.toInt? negative coefficient exponent with _ | j <;> simp

theorem toValue_finite_of_fraction
    (h : ∀ i : Int, Decimal.toRat negative coefficient exponent ≠ i) :
    (decimal (.finite negative coefficient exponent)).toValue =
      .ok (.float (.ofDecimal negative coefficient exponent)) := by
  have hn : Decimal.toInt? negative coefficient exponent = none :=
    Option.eq_none_iff_forall_ne_some.2 fun i hi => h i (Decimal.toInt?_eq_some_iff.1 hi)
  rw [toValue, ofDecimal, hn]

end Finite

end Datum

namespace Context

/-- A mapping with its names as scalar keys. -/
def keyed (entries : List (String × Datum)) : List (Value × Datum) :=
  entries.map fun e => (.text e.1, e.2)

theorem same_text (s t : String) : (Value.text s).same (.text t) = decide (s = t) := by
  simp [Value.same, Value.integral?]

theorem putKey_keyed {name : String} {d : Datum} {entries : List (String × Datum)}
    (h : name ∉ entries.map Prod.fst) :
    putKey (.text name) d (keyed entries) = keyed (entries ++ [(name, d)]) := by
  induction entries with
  | nil => rfl
  | cons e rest ih =>
    rw [List.map_cons, List.mem_cons, not_or] at h
    -- a text counts as equal to itself only, so no key gives way to the new one
    have hs : ¬(Value.text e.1).same (.text name) = true := by
      rw [same_text, decide_eq_true_eq]
      exact fun he => h.1 he.symm
    have hi := ih h.2
    simp only [keyed, List.map_cons, List.cons_append] at hi ⊢
    rw [putKey, if_neg hs, hi]

theorem foldl_putKey {done entries : List (String × Datum)}
    (h : ((done ++ entries).map Prod.fst).Nodup) :
    (keyed entries).foldl (fun done e => putKey e.1 e.2 done) (keyed done) =
      keyed (done ++ entries) := by
  induction entries generalizing done with
  | nil => simp [keyed]
  | cons e rest ih =>
    have hn : e.1 ∉ done.map Prod.fst := by
      rw [List.map_append, List.map_cons] at h
      exact fun hm => (List.nodup_append.1 h).2.2 e.1 hm e.1 List.mem_cons_self rfl
    rw [List.append_cons] at h ⊢
    rw [← ih h, ← putKey_keyed hn]
    rfl

theorem convertKeyed_keyed (entries : List (String × Datum)) :
    convertKeyed (keyed entries) = convert entries := by
  induction entries with
  | nil => rfl
  | cons e rest ih =>
    have hn : (Value.text e.1).asName = .ok e.1 := rfl
    simp only [keyed, List.map_cons] at ih ⊢
    rw [convertKeyed, convert, hn, ih]
    rfl

/-- Names may be told as scalar keys. -/
theorem ofKeyed_keyed (data : OrderedMap String Datum) :
    ofKeyed (keyed data.entries) = ofData data := by
  have hf : (keyed data.entries).foldl (fun done e => putKey e.1 e.2 done) [] =
      keyed data.entries := @foldl_putKey [] data.entries data.distinct
  rw [ofKeyed, ofData, hf, convertKeyed_keyed]

/-- The names of scalar keys, for each key once, where it is first. -/
def keyNames (entries : List (Value × Datum)) : Except Fault (List String) :=
  ((entries.foldl (fun done e => putKey e.1 e.2 done) []).map Prod.fst).mapM Value.asName

theorem mapM_asName_of_convertKeyed {entries : List (Value × Datum)}
    {values : List (String × Value)} (h : convertKeyed entries = .ok values) :
    (entries.map Prod.fst).mapM Value.asName = .ok (values.map Prod.fst) := by
  induction entries generalizing values with
  | nil =>
    cases h
    rfl
  | cons e rest ih =>
    simp only [convertKeyed, bind, Except.bind] at h
    split at h
    · cases h
    rename_i name hname
    split at h
    · cases h
    split at h
    · cases h
    rename_i others hothers
    cases h
    rw [List.map_cons, List.mapM_cons, hname, ih hothers]
    rfl

theorem keys_of_ofKeyed {entries : List (Value × Datum)} {context : Context}
    (h : ofKeyed entries = .ok context) :
    ∃ written, keyNames entries = .ok written ∧ context.keys = written.eraseDups := by
  simp only [ofKeyed, bind, Except.bind] at h
  split at h
  · cases h
  rename_i values hv
  cases h
  refine ⟨_, mapM_asName_of_convertKeyed hv, ?_⟩
  rw [OrderedMap.ofEntries, OrderedMap.keys_insertAll]
  rfl

end Context

/-- A datum is refused for its type just when it is compound, and fails otherwise only if it cannot
be tested for a fraction; any other becomes a value that stays as it is. A finite decimal becomes
the integer that it is equal to, or a floating-point number if there is none. The context that a
mapping becomes has its keys in their order, and becomes itself. -/
theorem Datum.toValue_exact (d : Datum) (entries : List (Value × Datum))
    (data : OrderedMap String Datum) :
    ((∃ f, d.toValue = .error f ∧ f.kind = .invalidValue) ↔ d.IsCompound) ∧
    ((∃ f, d.toValue = .error f ∧ f.kind ≠ .invalidValue) ↔ d.IsUntestable) ∧
    (¬d.IsCompound → ¬d.IsUntestable → ∃ v, d.toValue = .ok v ∧ (plain v).toValue = .ok v) ∧
    (∀ negative coefficient exponent, d = decimal (.finite negative coefficient exponent) →
      let x := Decimal.toRat negative coefficient exponent
      (∀ i : Int, d.toValue = .ok (.int i) ↔ x = i) ∧
      ((∀ i : Int, x ≠ i) →
        d.toValue = .ok (.float (.ofDecimal negative coefficient exponent)))) ∧
    (∀ context, Context.ofKeyed entries = .ok context →
      Context.ofKeyed (Context.keyed context.toData.entries) = .ok context ∧
      ∃ names, Context.keyNames entries = .ok names ∧ context.keys = names.eraseDups) ∧
    ∀ context, Context.ofData data = .ok context →
      Context.ofData context.toData = .ok context ∧ context.keys = data.keys := by
  refine ⟨refused_iff, failed_iff, fun hc hu => ?_, ?_, fun context h => ⟨?_, ?_⟩,
    fun context h => ⟨Context.ofData_toData context, Context.keys_of_ofData h⟩⟩
  · rcases d.toValue_cases with h | h | ⟨v, hv⟩
    · exact absurd h hc
    · exact absurd h hu
    · exact ⟨v, hv, rfl⟩
  · rintro negative coefficient exponent rfl
    exact ⟨fun i => toValue_finite_eq_int_iff, toValue_finite_of_fraction⟩
  · rw [Context.ofKeyed_keyed, Context.ofData_toData]
  · exact Context.keys_of_ofKeyed h

/-- A decimal with zeros; keys that count as equal and a key that is written like another one. -/
theorem Datum.toValue_exact_keys :
    let d : Datum := decimal (.finite true 1200 (-2))
    let entries : List (Value × Datum) :=
      [(.int 1, decimal (.finite false 1250 (-2))), (.bool true, bytes [0xFF]),
        (.null, decimal (.nan false)), (.text "1", d)]
    let context : Context := .ofEntries [("1", .int (-12)), ("None", .float .nan)]
    (∃ v, d.toValue = .ok v ∧ (plain v).toValue = .ok v) ∧ d.toValue = .ok (.int (-12)) ∧
    Context.ofKeyed entries = .ok context ∧
    Context.ofKeyed (Context.keyed context.toData.entries) = .ok context ∧
    ∃ names, Context.keyNames entries = .ok names ∧ context.keys = names.eraseDups := by
  intro d entries context
  have h : Context.ofKeyed entries = .ok context := by decide +kernel
  obtain ⟨-, -, hvalue, hfinite, hkeyed, -⟩ := toValue_exact d entries .empty
  have hx : Decimal.toRat true 1200 (-2) = ((-12 : Int) : ℚ) := by
    norm_num [Decimal.toRat, Decimal.withSign]
  exact ⟨hvalue id id, ((hfinite true 1200 (-2) rfl).1 (-12)).2 hx, h, hkeyed context h⟩

/-- An infinite decimal is neither turned into a floating-point number nor refused for its type. -/
theorem Datum.toValue_infinite :
    let d : Datum := decimal (.infinite false)
    d.toValue = .error (.overflow "cannot convert Infinity to integer") ∧ ¬d.IsCompound ∧
      ¬((∃ v, d.toValue = .ok v) ∨ ∃ f, d.toValue = .error f ∧ f.kind = .invalidValue) := by
  intro d
  have hd : d.toValue = .error (.overflow "cannot convert Infinity to integer") := rfl
  refine ⟨hd, id, ?_⟩
  rintro (⟨v, hv⟩ | ⟨f, hf, hk⟩)
  · cases hd.symm.trans hv
  · cases hd.symm.trans hf
    cases hk

end Playbook

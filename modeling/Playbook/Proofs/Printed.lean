import Mathlib.Tactic.Common
import Playbook.Context
import Playbook.Number.FloatText
import Playbook.Proofs.Replacement

/-!
# The texts of values

A value stands in a condition as a text that trimming leaves as it is (`Value.trim_literal`): one
in single quotes, or one without blanks. A text in single quotes is no number.
-/

namespace Playbook

namespace Text

/-- No character of the text is blank. -/
def Solid (text : List Char) : Prop :=
  ∀ c ∈ text, isBlank c = false

instance (text : List Char) : Decidable (Solid text) :=
  decidable_of_iff (text.all fun c => isBlank c = false) (by simp [Solid])

theorem Solid.trim_eq {text : List Char} (h : Solid text) : trim text = text :=
  stripBy_of_forall h

/-- A digit, or one of the marks and letters that numbers are written with. -/
def isFigure (c : Char) : Bool :=
  c.isDigit || c ∈ ['+', '-', '.', 'a', 'e', 'f', 'i', 'n']

/-- The text has nothing in it but what numbers are written with. -/
def Figures (text : List Char) : Prop :=
  ∀ c ∈ text, isFigure c = true

instance (text : List Char) : Decidable (Figures text) :=
  decidable_of_iff (text.all isFigure) List.all_eq_true

section Figures

variable {left right text : List Char} {c : Char}

@[simp]
theorem figures_nil : Figures [] := by simp [Figures]

@[simp]
theorem figures_cons_iff : Figures (c :: text) ↔ isFigure c = true ∧ Figures text :=
  List.forall_mem_cons

@[simp]
theorem figures_append_iff : Figures (left ++ right) ↔ Figures left ∧ Figures right :=
  List.forall_mem_append

@[simp]
theorem isFigure_mark : isFigure '.' = true ∧ isFigure 'e' = true ∧ isFigure '-' = true ∧
    isFigure '+' = true ∧ isFigure '0' = true := by decide

theorem Figures.subset (h : Figures right) (hs : left ⊆ right) : Figures left :=
  fun c hc => h c (hs hc)

theorem Figures.not_mem (h : Figures text) (hc : isFigure c = false) : c ∉ text := fun hm =>
  Bool.false_ne_true (hc.symm.trans (h c hm))

theorem toNat_of_isDigit (hc : c.isDigit = true) : 48 ≤ c.toNat ∧ c.toNat ≤ 57 := by
  simp only [Char.isDigit, Bool.and_eq_true, decide_eq_true_eq] at hc
  exact ⟨UInt32.le_iff_toNat_le.1 hc.1, UInt32.le_iff_toNat_le.1 hc.2⟩

theorem isBlank_of_isDigit (h : c.isDigit = true) : isBlank c = false := by
  have hc := toNat_of_isDigit h
  have hne : c ≠ ' ' := by
    rintro rfl
    exact absurd hc.1 (by decide)
  simp only [isBlank, isPadding, isAsciiBlank, isWideBlank, hne, decide_false, Bool.false_or,
    Bool.or_eq_false_iff, Bool.and_eq_false_iff, decide_eq_false_iff_not]
  omega

theorem Figures.solid (h : Figures text) : Solid text := fun c hc => by
  have hmarks : ['+', '-', '.', 'a', 'e', 'f', 'i', 'n'].all (!isBlank ·) = true := by decide
  rcases Bool.or_eq_true_iff.1 (h c hc) with hd | hm
  · exact isBlank_of_isDigit hd
  · simpa using List.all_eq_true.1 hmarks c (of_decide_eq_true hm)

theorem figures_toDigits (n : Nat) : Figures (Nat.toDigits 10 n) := fun _ hc =>
  Bool.or_eq_true_iff.2 (.inl (Nat.isDigit_of_mem_toDigits (by decide) (by decide) hc))

theorem figures_zeros (n : Nat) : Figures (List.replicate n '0') := fun c hc => by
  rw [List.eq_of_mem_replicate hc]
  decide

theorem figures_integerText (i : Int) : Figures (integerText i).toList := by
  unfold integerText
  split
  · simp [Nat.repr, figures_toDigits]
  · simp [Nat.repr, figures_toDigits]

end Figures

section Quotes

variable (s : String)

theorem toList_quote : s!"'{s}'".toList = '\'' :: (s.toList ++ ['\'']) := by
  change ("'" ++ s ++ "'").toList = _
  simp

theorem quote_inj {t : String} : s!"'{s}'" = s!"'{t}'" ↔ s = t := by
  constructor
  · intro h
    have hl := congrArg String.toList h
    rw [toList_quote, toList_quote] at hl
    exact String.toList_injective (List.append_cancel_right (List.cons.inj hl).2)
  · rintro rfl
    rfl

theorem stripBy_quote {p : Char → Bool} (hp : p '\'' = false) :
    stripBy p s!"'{s}'".toList = s!"'{s}'".toList := by
  rw [toList_quote]
  refine stripBy_of_ends (fun c hc => ?_) (fun c hc => ?_)
  · cases hc
    exact hp
  · rw [← List.cons_append, List.getLast?_concat] at hc
    cases hc
    exact hp

/-- A text in single quotes is no number. -/
theorem readFloat?_quote : readFloat? s!"'{s}'" = none := by
  unfold readFloat?
  rw [stripBy_quote s (by decide), toList_quote]
  have hd : digit? '\'' = none := by decide
  have hl : '\''.toLower = '\'' := by decide
  simp [bareFloat?, signed, unsignedFloat?, digitRun, hd, hl]

end Quotes

end Text

open Text

namespace Binary64

theorem figures_positional {digits : List Char} (h : Figures digits) (place : Int) :
    Figures (positional digits place) := by
  have ht : Figures (digits.take place.toNat) := h.subset (List.take_subset _ _)
  have hd : Figures (digits.drop place.toNat) := h.subset (List.drop_subset _ _)
  unfold positional
  dsimp only
  split_ifs <;> simp [h, ht, hd, figures_zeros]

theorem figures_exponential {digits : List Char} (h : Figures digits) (power : Int) :
    Figures (exponential digits power) := by
  have ht : Figures (digits.take 1) := h.subset (List.take_subset _ _)
  have hd : Figures digits.tail := h.subset (List.tail_sublist _).subset
  have hp : Figures (Nat.toDigits 10 power.natAbs) := figures_toDigits _
  unfold exponential
  dsimp only
  split_ifs <;> simp [ht, hd, hp]

theorem figures_writeForm (d : DecimalForm) : Figures (writeForm d) := by
  have hd : Figures ((Nat.toDigits 10 d.digits).reverse.dropWhile (· = '0')).reverse :=
    (figures_toDigits d.digits).subset fun c hc => by
      simpa using (List.dropWhile_sublist _).subset (List.mem_reverse.1 hc)
  unfold writeForm
  dsimp only
  split_ifs
  · exact figures_positional hd _
  · exact figures_exponential hd _

theorem figures_text (x : Binary64) : Figures x.text.toList := by
  cases x with
  | nan => decide
  | infinite negative => cases negative <;> decide
  | finite negative m e =>
    unfold text
    dsimp only
    split_ifs <;> simp [figures_writeForm]

end Binary64

namespace Value

/-- An integer has no more digits than can be written. -/
def Short : Value → Prop
  | int i => i.natAbs < Nat.pow 10 digitLimit
  | _ => True

theorem short_int {i : Int} {n : Nat} (hn : n ≤ digitLimit) (h : i.natAbs < Nat.pow 10 n) :
    (int i).Short := by
  have hp : Nat.pow 10 n ≤ Nat.pow 10 digitLimit := by
    rw [Nat.pow_eq, Nat.pow_eq]
    exact Nat.pow_le_pow_right (by decide) hn
  exact Nat.lt_of_lt_of_le h hp

theorem not_short_int {n : Nat} (h : Nat.pow 10 digitLimit ≤ n) : ¬ (int n).Short :=
  Nat.not_lt.2 h

theorem Short.exists_format {v : Value} (h : v.Short) : ∃ r, v.format = .ok r := by
  unfold format printInteger?
  cases v with
  | int i =>
    unfold Short at h
    simp only
    rw [if_pos h]
    exact ⟨_, rfl⟩
  | _ => exact ⟨_, rfl⟩

theorem Short.exists_literal {v : Value} (h : v.Short) : ∃ r, v.literal = .ok r := by
  unfold literal
  split
  · exact ⟨_, rfl⟩
  · exact h.exists_format

theorem literal_of_not_short {i : Int} (h : ¬ (int i).Short) :
    (int i).literal = .error .integerTooLong := by
  unfold literal format printInteger?
  unfold Short at h
  simp only
  rw [if_neg h]

theorem figures_format_int {i : Int} {r : String} (h : (int i).format = .ok r) :
    Figures r.toList := by
  unfold format printInteger? at h
  simp only at h
  split at h
  · rename_i hi
    split_ifs at hi
    cases hi
    cases h
    exact figures_integerText i
  · cases h

theorem figures_format_float {x : Binary64} {r : String} (h : (float x).format = .ok r) :
    Figures r.toList := by
  cases h
  exact x.figures_text

theorem solid_format {v : Value} {r : String} (h : v.format = .ok r) (hv : ∀ s, v ≠ text s) :
    Solid r.toList := by
  cases v with
  | null =>
    cases h
    decide
  | bool b =>
    cases h
    cases b <;> decide
  | int i => exact (figures_format_int h).solid
  | float x => exact (figures_format_float h).solid
  | text s => exact absurd rfl (hv s)

/-- A value stands in a condition without blanks around it. -/
theorem trim_literal {v : Value} {r : String} (h : v.literal = .ok r) :
    trim r.toList = r.toList := by
  unfold literal at h
  split at h
  · cases h
    exact stripBy_quote _ (by decide)
  · rename_i hv
    exact (solid_format h fun s hs => hv s hs).trim_eq

end Value

namespace Context

/-- Every value of the context has a text. -/
def Short (context : Context) : Prop :=
  context.Every fun _ v => v.Short

theorem Short.valueOf {context : Context} (h : context.Short) (name : String) :
    (context.valueOf name).Short := by
  unfold Context.valueOf
  rcases hg : context.get? name with _ | v
  · trivial
  · exact h.get? hg

end Context

end Playbook

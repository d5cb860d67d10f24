import Playbook.Proofs.Comparison

/-!
# Checks for null

A check is a name with `IS NULL` or `IS NOT NULL` behind it. Where no other name of the context
stands in it (`Alone`), the name gives way to its value, and the check becomes a comparison of that
with `null` (`holds_literal`). Null is the only value that is written so; a text is compared
piecewise when there is a comparison in it, but its quotes keep it from ever being `null`
(`halves_ne`). So a check tells whether the name has a value (`evaluate_null_iff`), apart from a
text that is split at an equality of its own (`null_checks_mislead`).
-/

namespace Playbook

open Text

theorem Comparison.solid_symbol (c : Comparison) : Solid c.symbol.toList := by
  cases c <;> decide

theorem Comparison.not_figures (c : Comparison) :
    ∃ ch ∈ c.symbol.toList, isFigure ch = false := by
  cases c with
  | equal => exact ⟨'=', by decide, by decide⟩
  | different => exact ⟨'=', by decide, by decide⟩
  | greater => exact ⟨'>', by decide, by decide⟩
  | less => exact ⟨'<', by decide, by decide⟩

namespace Condition

inductive NullCheck where
  | isNull
  | isNotNull

namespace NullCheck

def words : NullCheck → String
  | isNull => "IS NULL"
  | isNotNull => "IS NOT NULL"

/-- What stands behind the name. -/
def text : NullCheck → String
  | isNull => " IS NULL"
  | isNotNull => " IS NOT NULL"

def comparison : NullCheck → Comparison
  | isNull => .equal
  | isNotNull => .different

def Means : NullCheck → Value → Prop
  | isNull, v => v = .null
  | isNotNull, v => v ≠ .null

theorem text_eq (check : NullCheck) : check.text = " " ++ check.words := by
  cases check <;> rfl

end NullCheck

/-- No other name of the context stands in a check, neither as it is written nor with the value in
the place of the name. -/
def Alone (context : Context) (key check : String) : Prop :=
  ∀ name ∈ context.names, name ≠ key →
    ¬ name.toList <:+: (key ++ check).toList ∧
      ∀ v r, context.get? key = some v → v.literal = .ok r →
        ¬ name.toList <:+: (r ++ check).toList

theorem alone_of_literal {context : Context} {key check r : String} {v : Value}
    (hv : context.get? key = some v) (hr : v.literal = .ok r)
    (h : ∀ name ∈ context.names, name ≠ key →
      ¬ name.toList <:+: (key ++ check).toList ∧ ¬ name.toList <:+: (r ++ check).toList) :
    Alone context key check := fun name hm hne => by
  refine ⟨(h name hm hne).1, fun w r' hw hr' => ?_⟩
  obtain rfl : v = w := Option.some.inj (hv.symm.trans hw)
  obtain rfl : r = r' := Except.ok.inj (hr.symm.trans hr')
  exact (h name hm hne).2

section Normalising

variable {left right s : String} {check : NullCheck}

theorem replace_append_of_head {needle new : String} (hn : needle ≠ "")
    (h : ∀ c ∈ left.toList, needle.toList.head? ≠ some c) :
    replace needle new (left ++ right) = left ++ replace needle new right := by
  apply String.toList_injective
  simp [replace, replaceAll_append_of_head h (by simpa using hn)]

theorem replace_quote {needle new : String} (hn : needle ≠ "") (hq : '\'' ∉ needle.toList) :
    replace needle new (s!"'{s}'" ++ right) =
      s!"'{replace needle new s}'" ++ replace needle new right := by
  have hn' : needle.toList ≠ [] := by simpa using hn
  have hl : (s!"'{s}'" ++ right).toList = [] ++ '\'' :: (s.toList ++ '\'' :: right.toList) := by
    rw [String.toList_append, toList_quote]
    simp
  apply String.toList_injective
  rw [replace, hl, replaceAll_append_cons hn' hq, replaceAll_append_cons hn' hq,
    String.toList_append, toList_quote]
  simp [replace, replaceAll, replaceFrom]

theorem normalise_append_of_figures (h : Figures left.toList) :
    normalise (left ++ right) = left ++ normalise right := by
  have hh : ∀ word ∈ keywords, ∀ c ∈ left.toList, word.toList.head? ≠ some c := by
    have hk : keywords.all (fun word => word.toList.head?.all (!isFigure ·)) = true := by decide
    intro word hw c hc he
    have hhead := List.all_eq_true.1 hk word hw
    rw [he] at hhead
    exact h.not_mem (by simpa using hhead) hc
  rw [normalise, replace_append_of_head (by decide) (hh "IS NULL" (by decide)),
    replace_append_of_head (by decide) (hh "IS NOT NULL" (by decide)),
    replace_append_of_head (by decide) (hh "where" (by decide)), normalise]

theorem normalise_quote :
    normalise (s!"'{s}'" ++ right) = s!"'{normalise s}'" ++ normalise right := by
  rw [normalise, replace_quote (by decide) (by decide), replace_quote (by decide) (by decide),
    replace_quote (by decide) (by decide), normalise, normalise]

theorem append_normalise_text (left : String) (check : NullCheck) :
    left ++ normalise check.text = comparing left check.comparison "null" := by
  have hc : normalise check.text = " " ++ check.comparison.symbol ++ " " ++ "null" := by
    cases check <;> decide
  rw [hc]
  apply String.toList_injective
  simp [comparing]

end Normalising

section Halves

variable {s : String} {c : Comparison}

theorem quote_ne_null : s!"'{s}'" ≠ "null" := fun h => by
  have hl := congrArg String.toList h
  rw [toList_quote] at hl
  exact absurd (List.cons.inj hl).1 (by decide)

/-- A quoted text is never cut into two equal halves by the comparison behind it or one that stands
in it: the half after that has a comparison of the kind, unless it is `null`. -/
theorem halves_ne {before after : List Char}
    (h : splitFirst c.symbol.toList (comparing s!"'{s}'" c "null").toList = some (before, after)) :
    trim before ≠ trim after := by
  have hn := c.symbol_ne_nil
  by_cases hi : c.symbol.toList <:+: s!"'{s}'".toList
  · obtain ⟨⟨b, a⟩, hb⟩ := Option.isSome_iff_exists.1
      ((splitFirst_isSome _ _ hn).trans (occurs_iff.2 hi))
    rw [toList_comparing, splitFirst_append_of_some hb] at h
    cases h
    -- The text is cut at its own comparison, so that of the check stands in the second half.
    intro he
    have ha : c.symbol.toList <:+: a ++ ' ' :: (c.symbol.toList ++ ' ' :: "null".toList) :=
      ⟨a ++ [' '], ' ' :: "null".toList, by simp⟩
    have ht := infix_stripBy c.solid_symbol ha
    rw [← trim, ← he] at ht
    exact not_infix_of_splitFirst hn hb (ht.trans stripBy_infix)
  · rw [toList_comparing, splitFirst_append_cons hn c.space_not_mem_symbol hi] at h
    cases h
    have hb : isBlank ' ' = true := rfl
    rw [trim, trim, stripBy_concat hb, stripBy_cons hb, stripBy_quote s (by decide)]
    intro he
    exact quote_ne_null (String.toList_injective (he.trans (by decide)))

end Halves

section Holding

variable {check : NullCheck} {c : Comparison} {s r : String} {v : Value}

theorem has_symbol_comparing (left : String) (c : Comparison) (right : String) :
    has c.symbol (comparing left c right) = true := by
  rw [has_iff, toList_comparing]
  exact ⟨left.toList ++ [' '], ' ' :: right.toList, by simp⟩

theorem infix_of_quote (h : c.symbol.toList <:+: s!"'{s}'".toList) :
    c.symbol.toList <:+: s.toList := by
  have hq : '\'' ∉ c.symbol.toList := by cases c <;> decide
  rw [toList_quote] at h
  exact infix_concat_of_last (fun h => hq (List.mem_of_mem_getLast? h))
    (infix_cons_of_head (fun h => hq (List.mem_of_mem_head? h)) h)

/-- The comparison of a check comes before any that stands in a text, but for an equality. -/
theorem find?_nullCheck (hs : check = .isNotNull → ¬ "==".toList <:+: s.toList) :
    (Comparison.all.find? fun d => has d.symbol (comparing s!"'{s}'" check.comparison "null")) =
      some check.comparison := by
  cases check with
  | isNull => simp only [Comparison.all, NullCheck.comparison, List.find?, has_symbol_comparing]
  | isNotNull =>
    have hq : ¬ Comparison.equal.symbol.toList <:+: s!"'{s}'".toList := fun h =>
      hs rfl (infix_of_quote h)
    have hne : has Comparison.equal.symbol (comparing s!"'{s}'" .different "null") = false := by
      rw [← Bool.not_eq_true, has_symbol_iff hq (by decide)]
      exact Comparison.noConfusion
    simp only [Comparison.all, NullCheck.comparison, List.find?, has_symbol_comparing, hne]

theorem holds_quote (hs : check = .isNotNull → ¬ "==".toList <:+: s.toList) :
    Condition.holds (comparing s!"'{s}'" check.comparison "null") = true ↔
      check.Means (.text s) := by
  have hfind := find?_nullCheck hs
  obtain ⟨⟨before, after⟩, hsplit⟩ := Option.isSome_iff_exists.1
    ((splitFirst_isSome _ _ check.comparison.symbol_ne_nil).trans (occurs_iff.2
      (has_iff.1 (has_symbol_comparing s!"'{s}'" check.comparison "null"))))
  have hne : String.ofList (trim before) ≠ String.ofList (trim after) := fun he =>
    halves_ne hsplit (String.ofList_injective he)
  simp only [Condition.holds, hfind, hsplit]
  rw [Comparison.holds_iff]
  cases check with
  | isNull => simp [NullCheck.comparison, NullCheck.Means, Comparison.Means, hne]
  | isNotNull => simp [NullCheck.comparison, NullCheck.Means, Comparison.Means, hne]

/-- What is written as a number is not null. -/
theorem holds_figures (h : Figures r.toList) :
    Condition.holds (comparing r check.comparison "null") = true ↔ check = .isNotNull := by
  have hl : ∀ d : Comparison, ¬ d.symbol.toList <:+: r.toList := fun d hd => by
    obtain ⟨ch, hm, hf⟩ := d.not_figures
    exact h.not_mem hf (hd.subset hm)
  have hr : ∀ d : Comparison, ¬ d.symbol.toList <:+: "null".toList := by
    intro d
    cases d <;> decide
  have hne : r ≠ "null" := by
    rintro rfl
    exact absurd h (by decide)
  rw [holds_comparing hl hr h.solid.trim_eq (by decide), Comparison.holds_iff]
  cases check <;> simp [NullCheck.comparison, Comparison.Means, hne]

theorem holds_normalise_figures (h : Figures r.toList) :
    Condition.holds (normalise (r ++ check.text)) = true ↔ check = .isNotNull := by
  rw [normalise_append_of_figures h, append_normalise_text, holds_figures h]

/-- A check of a literal tells whether it is the one of null. -/
theorem holds_literal (hr : v.literal = .ok r)
    (hs : check = .isNotNull → ∀ s, v = .text s → ¬ "==".toList <:+: (normalise s).toList) :
    Condition.holds (normalise (r ++ check.text)) = true ↔ check.Means v := by
  cases v with
  | null =>
    cases hr
    cases check <;> simp [NullCheck.Means] <;> decide
  | bool b =>
    cases hr
    cases check <;> cases b <;> simp [NullCheck.Means] <;> decide
  | int i =>
    simp only [Value.literal] at hr
    rw [holds_normalise_figures (Value.figures_format_int hr)]
    cases check <;> simp [NullCheck.Means]
  | float x =>
    simp only [Value.literal] at hr
    rw [holds_normalise_figures (Value.figures_format_float hr)]
    cases check <;> simp [NullCheck.Means]
  | text s =>
    cases hr
    rw [normalise_quote, append_normalise_text, holds_quote fun hc => hs hc s rfl]
    cases check <;> simp [NullCheck.Means]

end Holding

section Evaluation

variable {context : Context} {key r : String} {v : Value} {check : NullCheck}

theorem ne_empty_of_not_infix {text : String} (h : ¬ key.toList <:+: text.toList) : key ≠ "" := by
  rintro rfl
  exact h List.nil_infix

theorem not_infix_words (hn : key ≠ "") (hs : ' ' ∉ key.toList)
    (hk : ¬ key.toList <:+: "IS NOT NULL".toList) (check : NullCheck) :
    ¬ key.toList <:+: check.words.toList := by
  cases check with
  | isNull =>
    have hleft : "IS".toList <:+: "IS NOT NULL".toList := by decide
    have hright : "NULL".toList <:+: "IS NOT NULL".toList := by decide
    have hw : NullCheck.isNull.words.toList = "IS".toList ++ ' ' :: "NULL".toList := rfl
    rw [hw, infix_append_cons_iff (by simpa using hn) hs]
    exact fun h => h.elim (fun h => hk (h.trans hleft)) fun h => hk (h.trans hright)
  | isNotNull => exact hk

theorem replace_key (hs : ' ' ∉ key.toList) (hk : ¬ key.toList <:+: "IS NOT NULL".toList) :
    replace key r (key ++ check.text) = r ++ check.text := by
  have hn := ne_empty_of_not_infix hk
  rw [check.text_eq, ← String.append_assoc, replace_space hn hs, replace_self hn,
    replace_of_not_infix (not_infix_words hn hs hk check), String.append_assoc]

theorem substitute_nullCheck (hs : context.Short) (hv : context.get? key = some v)
    (hspace : ' ' ∉ key.toList) (hk : ¬ key.toList <:+: "IS NOT NULL".toList)
    (ha : Alone context key check.text) (hr : v.literal = .ok r) :
    substitute (key ++ check.text) context = .ok (normalise (r ++ check.text)) := by
  have hn := ne_empty_of_not_infix hk
  have hname : ∀ e ∈ context.entries, e.1 ≠ "" → e.1 ∈ context.names := fun e he hne =>
    Context.mem_names (List.Perm.refl _) he hne
  have hsub := substituteEntries_once (fun e he => (hs e he).exists_literal) context.distinct hn
    (OrderedMap.get?_eq_some_iff.1 hv) hr
    (fun e he hne hk => (ha e.1 (hname e he hne) hk).1) (replace_key hspace hk)
    fun e he hne hk => (ha e.1 (hname e he hne) hk).2 v r hv hr
  rw [substitute, hsub]
  rfl

theorem evaluate_nullCheck (check : NullCheck) (hs : context.Short) (hv : context.get? key = some v)
    (hspace : ' ' ∉ key.toList) (hk : ¬ key.toList <:+: "IS NOT NULL".toList)
    (ha : Alone context key check.text)
    (ht : check = .isNotNull → ∀ s, v = .text s → ¬ "==".toList <:+: (normalise s).toList) :
    evaluate? (some (key ++ check.text)) context = true ↔ check.Means v := by
  obtain ⟨r, hr⟩ := (hs.get? hv).exists_literal
  have hne : key ++ check.text ≠ "" := fun h => by
    have hl := congrArg String.toList h
    cases check <;> simp [NullCheck.text] at hl
  simp only [evaluate?, evaluate, substitute_nullCheck hs hv hspace hk ha hr]
  simpa [hne] using holds_literal hr ht

end Evaluation

/-- An integer without a text fails every condition, wherever its name stands. -/
theorem evaluate?_of_not_short {context : Context} {name : String} {i : Int} (hn : name ≠ "")
    (hv : context.get? name = some (.int i)) (hi : ¬ (Value.int i).Short)
    (condition : Option String) : evaluate? condition context = false := by
  rcases condition with _ | condition
  · rfl
  obtain ⟨f, hf⟩ := substituteEntries_of_error hn (OrderedMap.get?_eq_some_iff.1 hv)
    (Value.literal_of_not_short hi) condition
  simp only [evaluate?, evaluate, substitute, hf, Except.map, Bool.and_false]

/-- Where a name has a value that can be written, `IS NULL` behind it holds just when the value is
null, and `IS NOT NULL` just when it is not; a text that is split at an equality is left open. -/
theorem evaluate_null_iff {context : Context} {key : String} {v : Value} (hs : context.Short)
    (hv : context.get? key = some v) (hspace : ' ' ∉ key.toList)
    (hk : ¬ key.toList <:+: "IS NOT NULL".toList) :
    (Alone context key " IS NULL" →
      (evaluate? (some (key ++ " IS NULL")) context = true ↔ v = .null)) ∧
    (Alone context key " IS NOT NULL" →
      (∀ s, v = .text s → ¬ "==".toList <:+: (normalise s).toList) →
      (evaluate? (some (key ++ " IS NOT NULL")) context = true ↔ v ≠ .null)) := by
  refine ⟨fun ha => ?_, fun ha ht => ?_⟩
  · exact evaluate_nullCheck .isNull hs hv hspace hk ha fun h => nomatch h
  · exact evaluate_nullCheck .isNotNull hs hv hspace hk ha fun _ => ht

/-- Both checks of a status that reads like one, among names that do not stand in them. -/
theorem evaluate_null_iff_status :
    let context : Context := .ofEntries
      [("limit", .null), ("status", .text "vip IS NOT NULL"), ("", .bool true)]
    evaluate? (some "status IS NULL") context = false ∧
      evaluate? (some "status IS NOT NULL") context = true := by
  intro context
  have hv : context.get? "status" = some (.text "vip IS NOT NULL") := by decide
  have hs : context.Short := by
    have he : context.entries =
      [("limit", .null), ("status", .text "vip IS NOT NULL"), ("", .bool true)] := rfl
    unfold Context.Short OrderedMap.Every
    rw [he]
    simp [Value.Short]
  obtain ⟨hnull, hvalue⟩ := evaluate_null_iff hs hv (by decide) (by decide)
  have hr : (Value.text "vip IS NOT NULL").literal = .ok "'vip IS NOT NULL'" := rfl
  refine ⟨?_, ?_⟩
  · rw [← Bool.not_eq_true]
    exact fun h => nomatch (hnull (alone_of_literal hv hr (by decide))).1 h
  · refine (hvalue (alone_of_literal hv hr (by decide)) fun s hs => ?_).2 (by decide)
    obtain rfl := Value.text.inj hs
    decide

/-- An unset name is a text like any other; a text is split at its own equality; another name can
begin in the value and end in the check; and nothing holds beside an integer without a text. -/
theorem null_checks_mislead :
    (evaluate? (some "status IS NULL") (.ofEntries []) = false ∧
      evaluate? (some "status IS NOT NULL") (.ofEntries []) = true) ∧
    evaluate? (some "note IS NOT NULL") (.ofEntries [("note", .text "a == b")]) = false ∧
    (¬ "null IS".toList <:+: "paid IS NULL".toList ∧ ¬ "null IS".toList <:+: "null".toList ∧
      evaluate? (some "paid IS NULL") (.ofEntries [("paid", .null), ("null IS", .bool true)]) =
        false) ∧
    evaluate? (some "a IS NOT NULL") (.ofEntries [("a", .int (Nat.pow 10 digitLimit : Nat))]) =
      false := by
  refine ⟨by decide, by decide, by decide, ?_⟩
  have hlong : ¬ (Value.int (Nat.pow 10 digitLimit : Nat)).Short :=
    Value.not_short_int Nat.le.refl
  have hv : OrderedMap.get? (.ofEntries [("a", Value.int (Nat.pow 10 digitLimit : Nat))]) "a" =
    some (.int (Nat.pow 10 digitLimit : Nat)) := rfl
  exact evaluate?_of_not_short (by decide) hv hlong _

end Condition

end Playbook

import Mathlib.Data.List.Infix
import Mathlib.Tactic.Tauto
import Playbook.Condition
import Playbook.Proofs.Printed

/-!
# Conditions that compare two operands

A condition of two operands around a comparison is read in a context whose names stand nowhere but
where they are meant (`Apart`). As no name has a space in it, each operand is substituted on its own
(`substituteEntries_space`), and a name becomes its value and stays it (`substituteEntries_once`).
So the condition compares the values of the operands, whatever the order of the context
(`evaluate_comparing`).
-/

namespace Playbook

open Text

/-- What a comparison says of two texts: numbers are compared by order. -/
def Comparison.Means : Comparison → String → String → Prop
  | equal, left, right => left = right
  | different, left, right => left ≠ right
  | greater, left, right =>
    ∃ x y, readFloat? left = some x ∧ readFloat? right = some y ∧ y < x
  | less, left, right =>
    ∃ x y, readFloat? left = some x ∧ readFloat? right = some y ∧ x < y

theorem Comparison.holds_iff (c : Comparison) (left right : String) :
    c.holds left right = true ↔ c.Means left right := by
  cases c with
  | equal => simp [holds, Means]
  | different => simp [holds, Means]
  | greater =>
    rcases hl : readFloat? left with _ | x <;> rcases hr : readFloat? right with _ | y <;>
      simp [holds, Means, hl, hr, LT.lt]
  | less =>
    rcases hl : readFloat? left with _ | x <;> rcases hr : readFloat? right with _ | y <;>
      simp [holds, Means, hl, hr, LT.lt]

theorem Comparison.symbol_ne_nil (c : Comparison) : c.symbol.toList ≠ [] := by
  cases c <;> decide

theorem Comparison.space_not_mem_symbol (c : Comparison) : ' ' ∉ c.symbol.toList := by
  cases c <;> decide

theorem Comparison.symbol_infix_iff {c d : Comparison} :
    d.symbol.toList <:+: c.symbol.toList ↔ d = c := by
  cases d <;> cases c <;> decide

/-- The names of a context that a condition can mention. -/
def Context.names (context : Context) : List String :=
  context.keys.filter (· ≠ "")

theorem Context.mem_names {context context' : Context} {name : String} {v : Value}
    (hp : context'.entries.Perm context.entries) (hm : (name, v) ∈ context'.entries)
    (hn : name ≠ "") : name ∈ context.names :=
  List.mem_filter.2 ⟨List.mem_map_of_mem (hp.mem_iff.1 hm), decide_eq_true hn⟩

namespace Condition

/-- One side of a comparison: a name of the context or a literal. -/
inductive Operand where
  | name (key : String)
  | quoted (s : String)
  | number (s : String)
  | bool (b : Bool)
  | null

namespace Operand

variable {context : Context} {o : Operand}

def text : Operand → String
  | name key => key
  | quoted s => s!"'{s}'"
  | number s => s
  | bool b => if b then "true" else "false"
  | null => "null"

/-- The context has the name, and a number is one without blanks around it. -/
def Formed (context : Context) : Operand → Prop
  | name key => key ≠ "" ∧ ∃ v, context.get? key = some v
  | number s => (readFloat? s).isSome ∧ trimmed s = s
  | _ => True

/-- What the operand stands for in a comparison: the value of a name, a literal for itself. -/
def Renders (context : Context) : Operand → String → Prop
  | name key, r => ∃ v, context.get? key = some v ∧ v.literal = .ok r
  | o, r => r = o.text

/-- The operand is a text between quotes, or the name of a text. -/
def Quotes (context : Context) : Operand → String → Prop
  | name key, s => context.get? key = some (.text s)
  | quoted t, s => t = s
  | _, _ => False

theorem Renders.quoted {r s : String} (h : o.Renders context r) (hq : o.Quotes context s) :
    r = s!"'{s}'" := by
  cases o with
  | name key =>
    obtain ⟨v, hv, hl⟩ := h
    obtain rfl : v = .text s := Option.some.inj (hv.symm.trans hq)
    exact (Except.ok.inj hl).symm
  | quoted t =>
    obtain rfl : t = s := hq
    exact h
  | _ => exact absurd hq id

theorem exists_renders (hs : context.Every fun _ v => v.Short) (ho : o.Formed context) :
    ∃ r, o.Renders context r := by
  cases o with
  | name key =>
    obtain ⟨-, v, hv⟩ := ho
    obtain ⟨r, hr⟩ := Value.Short.exists_literal (hs.get? hv)
    exact ⟨r, v, hv, hr⟩
  | _ => exact ⟨_, rfl⟩

theorem Renders.trim_eq {r : String} (h : o.Renders context r) (ho : o.Formed context) :
    trim r.toList = r.toList := by
  cases o with
  | name key =>
    obtain ⟨v, -, hv⟩ := h
    exact Value.trim_literal hv
  | quoted s =>
    obtain rfl := h
    exact stripBy_quote s (by decide)
  | number s =>
    obtain rfl := h
    have ht := congrArg String.toList ho.2
    rwa [trimmed, String.toList_ofList] at ht
  | bool b =>
    obtain rfl := h
    cases b <;> decide
  | null =>
    obtain rfl := h
    decide

end Operand

theorem not_means_of_quoted {context : Context} {c : Comparison} {left right : Operand}
    {l r s : String} (hl : left.Renders context l) (hr : right.Renders context r)
    (hq : left.Quotes context s ∨ right.Quotes context s) (hc : c = .greater ∨ c = .less) :
    ¬ c.Means l r := by
  have hnone : readFloat? l = none ∨ readFloat? r = none := by
    rcases hq with hq | hq
    · exact .inl (hl.quoted hq ▸ readFloat?_quote s)
    · exact .inr (hr.quoted hq ▸ readFloat?_quote s)
  rcases hc with rfl | rfl <;> rintro ⟨x, y, hx, hy, -⟩ <;> rcases hnone with h | h <;>
    simp_all

section Substitution

variable {entries rest : List (String × Value)} {name text : String} {v : Value}

theorem substituteEntries_empty :
    substituteEntries (("", v) :: rest) text = substituteEntries rest text := by
  rw [substituteEntries, if_pos rfl]

theorem substituteEntries_cons {r : String} (hn : name ≠ "") (hr : v.literal = .ok r) :
    substituteEntries ((name, v) :: rest) text =
      substituteEntries rest (replace name r text) := by
  rw [substituteEntries, if_neg hn, hr]
  rfl

/-- A value without a text fails the substitution. -/
theorem substituteEntries_of_error {f : Fault} (hn : name ≠ "") (hm : (name, v) ∈ entries)
    (hv : v.literal = .error f) (text : String) :
    ∃ f', substituteEntries entries text = .error f' := by
  induction entries generalizing text with
  | nil => exact absurd hm List.not_mem_nil
  | cons e rest ih =>
    obtain ⟨other, w⟩ := e
    by_cases he : other = ""
    · obtain rfl := he
      rw [substituteEntries_empty]
      exact ih ((List.mem_cons.1 hm).resolve_left fun h => hn (Prod.mk.inj h).1) text
    · rcases hw : w.literal with f' | r
      · rw [substituteEntries, if_neg he, hw]
        exact ⟨f', rfl⟩
      · have hne : (name, v) ≠ (other, w) := fun h => by
          obtain ⟨-, rfl⟩ := Prod.mk.inj h
          exact nomatch hv.symm.trans hw
        rw [substituteEntries_cons he hw]
        exact ih ((List.mem_cons.1 hm).resolve_left hne) _

variable (hv : ∀ e ∈ entries, ∃ r, e.2.literal = .ok r)
include hv

/-- Where no name has a space in it, what stands before a space and what stands after it are
substituted on their own. -/
theorem substituteEntries_space (hs : ∀ e ∈ entries, ' ' ∉ e.1.toList)
    {left left' right right' : String} (hl : substituteEntries entries left = .ok left')
    (hr : substituteEntries entries right = .ok right') :
    substituteEntries entries (left ++ " " ++ right) = .ok (left' ++ " " ++ right') := by
  induction entries generalizing left right with
  | nil =>
    cases hl
    cases hr
    rfl
  | cons e rest ih =>
    obtain ⟨name, v⟩ := e
    rw [List.forall_mem_cons] at hv hs
    by_cases hn : name = ""
    · obtain rfl := hn
      rw [substituteEntries_empty] at hl hr ⊢
      exact ih hv.2 hs.2 hl hr
    · obtain ⟨r, hlit⟩ := hv.1
      rw [substituteEntries_cons hn hlit] at hl hr ⊢
      rw [replace_space hn hs.1]
      exact ih hv.2 hs.2 hl hr

/-- A text that no name stands in is left as it is. -/
theorem substituteEntries_of_absent
    (ha : ∀ e ∈ entries, e.1 ≠ "" → ¬ e.1.toList <:+: text.toList) :
    substituteEntries entries text = .ok text := by
  induction entries with
  | nil => rfl
  | cons e rest ih =>
    obtain ⟨name, v⟩ := e
    rw [List.forall_mem_cons] at hv ha
    by_cases hn : name = ""
    · obtain rfl := hn
      rw [substituteEntries_empty]
      exact ih hv.2 ha.2
    · obtain ⟨r, hlit⟩ := hv.1
      rw [substituteEntries_cons hn hlit, replace_of_not_infix (ha.1 hn)]
      exact ih hv.2 ha.2

/-- Where a name is the only one that stands in a text, the text becomes what it is with the value
in the place of the name, if no other name stands in that. -/
theorem substituteEntries_once {text' r : String} (hd : (entries.map Prod.fst).Nodup)
    (hn : name ≠ "") (hm : (name, v) ∈ entries) (hr : v.literal = .ok r)
    (ho : ∀ e ∈ entries, e.1 ≠ "" → e.1 ≠ name → ¬ e.1.toList <:+: text.toList)
    (ht : replace name r text = text')
    (ha : ∀ e ∈ entries, e.1 ≠ "" → e.1 ≠ name → ¬ e.1.toList <:+: text'.toList) :
    substituteEntries entries text = .ok text' := by
  induction entries with
  | nil => exact absurd hm List.not_mem_nil
  | cons e rest ih =>
    obtain ⟨other, w⟩ := e
    rw [List.map_cons, List.nodup_cons] at hd
    rw [List.forall_mem_cons] at hv ho ha
    rcases List.mem_cons.1 hm with h | hm
    · obtain ⟨rfl, rfl⟩ := Prod.mk.inj h
      have hne : ∀ e ∈ rest, e.1 ≠ name := fun e he h => hd.1 (List.mem_map.2 ⟨e, he, h⟩)
      rw [substituteEntries_cons hn hr, ht]
      exact substituteEntries_of_absent hv.2 fun e he hn => ha.2 e he hn (hne e he)
    · have hrest := ih hv.2 hd.2 hm ho.2 ha.2
      have he : other ≠ name := fun h => hd.1 (List.mem_map.2 ⟨_, hm, h.symm⟩)
      by_cases hne : other = ""
      · obtain rfl := hne
        rwa [substituteEntries_empty]
      · obtain ⟨r', hlit⟩ := hv.1
        rwa [substituteEntries_cons hne hlit, replace_of_not_infix (ho.1 hne he)]

end Substitution

/-- A condition of two texts around a comparison. -/
def comparing (left : String) (c : Comparison) (right : String) : String :=
  left ++ " " ++ c.symbol ++ " " ++ right

/-- The keywords that a condition is normalised by. -/
def keywords : List String :=
  ["IS NULL", "IS NOT NULL", "where"]

section Reading

variable {left right : String} {c : Comparison}

theorem toList_comparing : (comparing left c right).toList =
    left.toList ++ ' ' :: (c.symbol.toList ++ ' ' :: right.toList) := by
  simp [comparing]

/-- Where neither side has a comparison in it, there is just the one between them. -/
theorem has_symbol_iff {d : Comparison} (hl : ¬ d.symbol.toList <:+: left.toList)
    (hr : ¬ d.symbol.toList <:+: right.toList) :
    has d.symbol (comparing left c right) = true ↔ d = c := by
  have hn := d.symbol_ne_nil
  have hs := d.space_not_mem_symbol
  rw [has_iff, toList_comparing, infix_append_cons_iff hn hs, infix_append_cons_iff hn hs,
    Comparison.symbol_infix_iff]
  tauto

theorem find?_symbol (hl : ∀ d : Comparison, ¬ d.symbol.toList <:+: left.toList)
    (hr : ∀ d : Comparison, ¬ d.symbol.toList <:+: right.toList) :
    (Comparison.all.find? fun d => has d.symbol (comparing left c right)) = some c := by
  have he : (fun d : Comparison => has d.symbol (comparing left c right)) =
      fun d => decide (d = c) := by
    funext d
    rw [Bool.eq_iff_iff, has_symbol_iff (hl d) (hr d), decide_eq_true_iff]
  rw [he]
  cases c <;> rfl

theorem holds_comparing (hl : ∀ d : Comparison, ¬ d.symbol.toList <:+: left.toList)
    (hr : ∀ d : Comparison, ¬ d.symbol.toList <:+: right.toList)
    (htl : trim left.toList = left.toList) (htr : trim right.toList = right.toList) :
    Condition.holds (comparing left c right) = c.holds left right := by
  have hfind := find?_symbol (c := c) hl hr
  have hsplit : splitFirst c.symbol.toList (comparing left c right).toList =
      some (left.toList ++ [' '], ' ' :: right.toList) := by
    rw [toList_comparing]
    exact splitFirst_append_cons c.symbol_ne_nil c.space_not_mem_symbol (hl c)
  have hb : isBlank ' ' = true := rfl
  simp only [Condition.holds, hfind, hsplit]
  rw [trim, stripBy_concat hb, trim, stripBy_cons hb]
  rw [trim] at htl htr
  rw [htl, htr, String.ofList_toList, String.ofList_toList]

/-- No keyword stands across a comparison. -/
theorem infix_of_keyword {word : String} (hw : word ∈ keywords)
    (h : word.toList <:+: (comparing left c right).toList) :
    word.toList <:+: left.toList ∨ word.toList <:+: right.toList := by
  have hk : ∀ word ∈ keywords, word.toList ≠ [] ∧ word.toList.head? ≠ some ' ' ∧
      word.toList.getLast? ≠ some ' ' ∧ c.symbol.toList.all (· ∉ word.toList) = true := by
    cases c <;> decide
  obtain ⟨hn, hhead, hlast, hall⟩ := hk word hw
  have hsym : ∀ ch ∈ c.symbol.toList, ch ∉ word.toList := fun ch hch =>
    of_decide_eq_true (List.all_eq_true.1 hall ch hch)
  have he : (comparing left c right).toList =
      left.toList ++ [' '] ++ (c.symbol.toList ++ ' ' :: right.toList) := by simp [comparing]
  rw [he] at h
  exact (infix_append_append hn c.symbol_ne_nil hsym h).imp (infix_concat_of_last hlast)
    (infix_cons_of_head hhead)

theorem normalise_comparing (hl : ∀ word ∈ keywords, ¬ word.toList <:+: left.toList)
    (hr : ∀ word ∈ keywords, ¬ word.toList <:+: right.toList) :
    normalise (comparing left c right) = comparing left c right := by
  have h : ∀ word ∈ keywords, ¬ word.toList <:+: (comparing left c right).toList :=
    fun word hw hi => (infix_of_keyword hw hi).elim (hl word hw) (hr word hw)
  rw [normalise, replace_of_not_infix (h "IS NULL" (by decide)),
    replace_of_not_infix (h "IS NOT NULL" (by decide)),
    replace_of_not_infix (h "where" (by decide))]

end Reading

/-- The texts that may stand in no operand. -/
def reserved : List String :=
  keywords ++ Comparison.all.map Comparison.symbol

/-- The names of the context stand in a comparison only as its operands, and the operands have
nothing in them that a condition is read by. -/
structure Apart (context : Context) (left : Operand) (c : Comparison) (right : Operand) : Prop where
  short : context.Every fun _ v => v.Short
  formed : ∀ o ∈ [left, right], o.Formed context
  unspaced : ∀ name ∈ context.names, ' ' ∉ name.toList
  separate : ∀ name ∈ context.names, ∀ other ∈ context.names, name ≠ other →
    ¬ name.toList <:+: other.toList
  symbol : ∀ name ∈ context.names, ¬ name.toList <:+: c.symbol.toList
  operands : ∀ o ∈ [left, right], ∀ r, o.Renders context r →
    (∀ name ∈ context.names, ¬ name.toList <:+: r.toList) ∧
      ∀ word ∈ reserved, ¬ word.toList <:+: r.toList

section Evaluation

variable {context context' : Context} {left right : Operand} {c : Comparison}

theorem Apart.exists_literal (h : Apart context left c right)
    (hp : context'.entries.Perm context.entries) :
    ∀ e ∈ context'.entries, ∃ r, e.2.literal = .ok r := fun e he =>
  (h.short e (hp.mem_iff.1 he)).exists_literal

theorem Apart.not_infix_of_keyword (h : Apart context left c right) {o : Operand}
    (ho : o ∈ [left, right]) {r : String} (hr : o.Renders context r) :
    ∀ word ∈ keywords, ¬ word.toList <:+: r.toList := fun word hw =>
  (h.operands o ho r hr).2 word (List.mem_append_left _ hw)

theorem Apart.not_infix_of_symbol (h : Apart context left c right) {o : Operand}
    (ho : o ∈ [left, right]) {r : String} (hr : o.Renders context r) (d : Comparison) :
    ¬ d.symbol.toList <:+: r.toList :=
  (h.operands o ho r hr).2 d.symbol
    (List.mem_append_right _ (List.mem_map_of_mem (by cases d <;> decide)))

theorem Apart.substituteEntries_operand (h : Apart context left c right)
    (hp : context'.entries.Perm context.entries) {o : Operand} (ho : o ∈ [left, right])
    {r : String} (hr : o.Renders context r) :
    substituteEntries context'.entries o.text = .ok r := by
  have hv := h.exists_literal hp
  have ha : ∀ e ∈ context'.entries, e.1 ≠ "" → ¬ e.1.toList <:+: r.toList := fun e he hn =>
    (h.operands o ho r hr).1 e.1 (Context.mem_names hp he hn)
  cases o with
  | name key =>
    obtain ⟨v, hg, hl⟩ := hr
    have hn := (h.formed _ ho).1
    have hm := hp.mem_iff.2 (OrderedMap.get?_eq_some_iff.1 hg)
    refine substituteEntries_once hv context'.distinct hn hm hl (fun e he hne hk => ?_)
      (replace_self hn) fun e he hne _ => ha e he hne
    exact h.separate e.1 (Context.mem_names hp he hne) key (Context.mem_names hp hm hn) hk
  | _ =>
    obtain rfl := hr
    exact substituteEntries_of_absent hv ha

theorem Apart.substitute_comparing (h : Apart context left c right)
    (hp : context'.entries.Perm context.entries) {l r : String} (hl : left.Renders context l)
    (hr : right.Renders context r) :
    substitute (comparing left.text c right.text) context' = .ok (comparing l c r) := by
  have hs : ∀ e ∈ context'.entries, ' ' ∉ e.1.toList := fun e he => by
    by_cases hn : e.1 = ""
    · simp [hn]
    · exact h.unspaced e.1 (Context.mem_names hp he hn)
  have hv := h.exists_literal hp
  have hc : substituteEntries context'.entries c.symbol = .ok c.symbol :=
    substituteEntries_of_absent hv fun e he hn => h.symbol e.1 (Context.mem_names hp he hn)
  have hsub := substituteEntries_space hv hs (substituteEntries_space hv hs
    (h.substituteEntries_operand hp (by simp) hl) hc) (h.substituteEntries_operand hp (by simp) hr)
  unfold substitute
  rw [comparing, hsub]
  exact congrArg Except.ok (normalise_comparing (h.not_infix_of_keyword (by simp) hl)
    (h.not_infix_of_keyword (by simp) hr))

theorem Apart.evaluate_iff (h : Apart context left c right)
    (hp : context'.entries.Perm context.entries) {l r : String} (hl : left.Renders context l)
    (hr : right.Renders context r) :
    evaluate (comparing left.text c right.text) context' = true ↔ c.Means l r := by
  have hholds := holds_comparing (c := c) (h.not_infix_of_symbol (by simp) hl)
    (h.not_infix_of_symbol (by simp) hr) (hl.trim_eq (h.formed left (by simp)))
    (hr.trim_eq (h.formed right (by simp)))
  rw [evaluate, h.substitute_comparing hp hl hr]
  simp only
  rw [hholds]
  exact c.holds_iff l r

end Evaluation

theorem evaluate?_comparing (left : String) (c : Comparison) (right : String)
    (context : Context) : evaluate? (some (comparing left c right)) context =
      evaluate (comparing left c right) context := by
  have hn : comparing left c right ≠ "" := fun h => by
    simpa [toList_comparing] using congrArg String.toList h
  simp [evaluate?, hn]

/-- A comparison of two operands that stand apart from the names of the context holds just when the
texts that they stand for compare so, in whatever order the context has its entries. Hence a text
is equal to a quoted one just when they are the same, and is never above or below anything. -/
theorem evaluate_comparing {context : Context} {left right : Operand} {c : Comparison}
    (h : Apart context left c right) :
    ∃ l r, left.Renders context l ∧ right.Renders context r ∧
      ∀ context' : Context, context'.entries.Perm context.entries →
        let holds := evaluate? (some (comparing left.text c right.text)) context'
        (holds = true ↔ c.Means l r) ∧
        (∀ s t, left.Quotes context s → right.Quotes context t → c = .equal →
          (holds = true ↔ s = t)) ∧
        (∀ s, left.Quotes context s ∨ right.Quotes context s → c = .greater ∨ c = .less →
          holds = false) := by
  obtain ⟨l, hl⟩ := Operand.exists_renders h.short (h.formed left (by simp))
  obtain ⟨r, hr⟩ := Operand.exists_renders h.short (h.formed right (by simp))
  refine ⟨l, r, hl, hr, fun context' hp => ?_⟩
  intro holds
  have hm : holds = true ↔ c.Means l r := by
    simp only [holds, evaluate?_comparing]
    exact h.evaluate_iff hp hl hr
  refine ⟨hm, fun s t hs ht hc => ?_, fun s hs hc => ?_⟩
  · obtain rfl := hc
    rw [hm, hl.quoted hs, hr.quoted ht]
    exact quote_inj s
  · rw [← Bool.not_eq_true, hm]
    exact not_means_of_quoted hl hr hs hc

/-- A status that a quoted text is compared with, among other entries in any order. -/
theorem evaluate_comparing_status :
    let context : Context := .ofEntries
      [("amount", .int 120), ("status", .text "open"), ("", .null), ("vip", .bool true)]
    Apart context (.name "status") .equal (.quoted "open") ∧
      ∀ context' : Context, context'.entries.Perm context.entries →
        evaluate? (some "status == 'open'") context' = true := by
  intro context
  have h : Apart context (.name "status") .equal (.quoted "open") := by
    refine ⟨?_, ?_, by decide, by decide, by decide, fun o ho r hr => ?_⟩
    · have hi : (Value.int 120).Short := Value.short_int (n := 3) (by decide) (by decide)
      have he : context.entries = [("amount", .int 120), ("status", .text "open"), ("", .null),
        ("vip", .bool true)] := rfl
      unfold OrderedMap.Every
      rw [he]
      simp only [List.forall_mem_cons]
      exact ⟨hi, trivial, trivial, trivial, fun _ h => absurd h List.not_mem_nil⟩
    · exact List.forall_mem_cons.2 ⟨⟨by decide, .text "open", rfl⟩, by simp [Operand.Formed]⟩
    · have hq : o.Quotes context "open" := by
        rcases List.mem_pair.1 ho with rfl | rfl <;> rfl
      obtain rfl : r = "'open'" := hr.quoted hq
      decide
  obtain ⟨l, r, -, -, he⟩ := evaluate_comparing h
  exact ⟨h, fun context' hp => ((he context' hp).2.1 "open" "open" rfl rfl rfl).2 rfl⟩

end Condition

end Playbook

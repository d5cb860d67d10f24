import Playbook.Text.Blank
import Playbook.Text.Search

/-!
# Replacing, splitting and trimming

A needle without a certain character is found on either side of that character, never across it:
so a replacement works on the two sides on their own (`replaceAll_append_cons`), and a separator
that does not stand before the character splits behind it (`splitFirst_append_cons`).
-/

namespace Playbook.Text

variable {needle new text left right : List Char} {s : Char}

section Occurrences

theorem occurs_iff : occurs needle text = true ↔ needle <:+: text := by
  induction text with
  | nil => simp [occurs]
  | cons c rest ih =>
    rw [occurs, Bool.or_eq_true, List.isPrefixOf_iff_prefix, ih, List.infix_cons_iff]

theorem has_iff {part whole : String} : has part whole = true ↔ part.toList <:+: whole.toList :=
  occurs_iff

theorem not_prefix_cons (hn : needle ≠ []) (hs : s ∉ needle) : ¬ needle <+: s :: right := by
  intro h
  obtain ⟨c, rest, rfl⟩ := List.exists_cons_of_ne_nil hn
  obtain ⟨rfl, -⟩ := List.cons_prefix_cons.1 h
  exact hs List.mem_cons_self

theorem prefix_of_append_cons (hs : s ∉ needle) (h : needle <+: left ++ s :: right) :
    needle <+: left := by
  have hl : left ++ [s] <+: left ++ s :: right := ⟨right, by simp⟩
  rcases List.prefix_or_prefix_of_prefix h hl with h | h
  · rcases List.prefix_concat_iff.1 h with rfl | h
    · exact absurd (List.mem_append_right _ List.mem_cons_self) hs
    · exact h
  · exact absurd (h.subset (List.mem_append_right _ List.mem_cons_self)) hs

/-- A needle without a character stands on one side of it. -/
theorem infix_append_cons_iff (hn : needle ≠ []) (hs : s ∉ needle) :
    needle <:+: left ++ s :: right ↔ needle <:+: left ∨ needle <:+: right := by
  rw [List.infix_append_iff, List.infix_cons_iff]
  constructor
  · rintro (h | (h | h) | ⟨front, back, rfl, hf, hb⟩)
    · exact .inl h
    · exact absurd h (not_prefix_cons hn hs)
    · exact .inr h
    · -- What of the needle is not on the left would begin with the character.
      by_cases hne : back = []
      · obtain rfl := hne
        rw [List.append_nil]
        exact .inl hf.isInfix
      · have hs' : s ∉ back := fun hm => hs (List.mem_append_right _ hm)
        exact absurd hb (not_prefix_cons hne hs')
  · rintro (h | h)
    · exact .inl h
    · exact .inr (.inl (.inr h))

/-- A needle that shares no character with what is in the middle stands on one side of it. -/
theorem infix_append_append (hn : needle ≠ []) {middle : List Char} (hm : middle ≠ [])
    (hd : ∀ c ∈ middle, c ∉ needle) (h : needle <:+: left ++ (middle ++ right)) :
    needle <:+: left ∨ needle <:+: right := by
  induction middle generalizing left with
  | nil => exact absurd rfl hm
  | cons c middle ih =>
    rw [List.forall_mem_cons] at hd
    rcases (infix_append_cons_iff hn hd.1).1 h with h | h
    · exact .inl h
    · rcases middle with _ | ⟨d, middle⟩
      · exact .inr h
      · have h' : needle <:+: [] ++ (d :: middle ++ right) := h
        rcases ih (List.cons_ne_nil _ _) hd.2 h' with h | h
        · exact absurd (List.infix_nil.1 h) hn
        · exact .inr h

theorem infix_cons_of_head (hh : needle.head? ≠ some s) (h : needle <:+: s :: right) :
    needle <:+: right := by
  rcases List.infix_cons_iff.1 h with h | h
  · cases needle with
    | nil => exact List.nil_infix
    | cons c rest =>
      obtain ⟨rfl, -⟩ := List.cons_prefix_cons.1 h
      exact absurd rfl hh
  · exact h

theorem infix_concat_of_last (hl : needle.getLast? ≠ some s) (h : needle <:+: left ++ [s]) :
    needle <:+: left := by
  rw [← List.reverse_infix, List.reverse_concat] at h
  exact List.reverse_infix.1 (infix_cons_of_head (by simpa using hl) h)

end Occurrences

section Replacements

theorem replaceFrom_cons_of_pos (h : needle <+: s :: text) :
    replaceFrom needle new 0 (s :: text) =
      new ++ replaceFrom needle new (needle.length - 1) text := by
  rw [replaceFrom, if_pos (List.isPrefixOf_iff_prefix.2 h)]

theorem replaceFrom_cons_of_neg (h : ¬ needle <+: s :: text) :
    replaceFrom needle new 0 (s :: text) = s :: replaceFrom needle new 0 text := by
  rw [replaceFrom, if_neg (by rwa [List.isPrefixOf_iff_prefix])]

theorem replaceAll_of_not_infix (h : ¬ needle <:+: text) : replaceAll needle new text = text := by
  unfold replaceAll
  induction text with
  | nil => rfl
  | cons c rest ih =>
    rw [List.infix_cons_iff, not_or] at h
    rw [replaceFrom_cons_of_neg h.1, ih h.2]

theorem replaceFrom_length : replaceFrom needle new text.length text = [] := by
  induction text with
  | nil => rfl
  | cons c rest ih => exact ih

theorem replaceAll_self (hn : needle ≠ []) : replaceAll needle new needle = new := by
  obtain ⟨c, rest, rfl⟩ := List.exists_cons_of_ne_nil hn
  rw [replaceAll, replaceFrom_cons_of_pos List.prefix_rfl, List.length_cons, Nat.add_sub_cancel,
    replaceFrom_length, List.append_nil]

theorem replaceFrom_append_cons (hn : needle ≠ []) (hs : s ∉ needle) :
    ∀ {left : List Char} {skip : Nat}, skip ≤ left.length →
      replaceFrom needle new skip (left ++ s :: right) =
        replaceFrom needle new skip left ++ s :: replaceAll needle new right
  | [], skip, h => by
    obtain rfl : skip = 0 := Nat.le_zero.1 h
    exact replaceFrom_cons_of_neg (not_prefix_cons hn hs)
  | c :: left, skip + 1, h => by
    rw [List.cons_append, replaceFrom, replaceFrom]
    exact replaceFrom_append_cons hn hs (Nat.le_of_succ_le_succ h)
  | c :: left, 0, _ => by
    rw [List.cons_append]
    by_cases hp : needle <+: c :: left
    · have hp' : needle <+: c :: (left ++ s :: right) := hp.trans (List.prefix_append ..)
      have hle : needle.length - 1 ≤ left.length := by
        have := hp.length_le
        rw [List.length_cons] at this
        omega
      rw [replaceFrom_cons_of_pos hp', replaceFrom_cons_of_pos hp,
        replaceFrom_append_cons hn hs hle, List.append_assoc]
    · have hp' : ¬ needle <+: c :: (left ++ s :: right) := fun h =>
        hp (prefix_of_append_cons hs h)
      rw [replaceFrom_cons_of_neg hp', replaceFrom_cons_of_neg hp,
        replaceFrom_append_cons hn hs (Nat.zero_le _), List.cons_append]

/-- A needle without a character is replaced on either side of it on its own. -/
theorem replaceAll_append_cons (hn : needle ≠ []) (hs : s ∉ needle) :
    replaceAll needle new (left ++ s :: right) =
      replaceAll needle new left ++ s :: replaceAll needle new right :=
  replaceFrom_append_cons hn hs (Nat.zero_le _)

/-- A text in which the needle cannot begin is left as it is. -/
theorem replaceAll_append_of_head (h : ∀ c ∈ left, needle.head? ≠ some c) (hn : needle ≠ []) :
    replaceAll needle new (left ++ right) = left ++ replaceAll needle new right := by
  unfold replaceAll
  induction left with
  | nil => rfl
  | cons c left ih =>
    rw [List.forall_mem_cons] at h
    have hp : ¬ needle <+: c :: (left ++ right) := fun hp => by
      obtain ⟨d, rest, rfl⟩ := List.exists_cons_of_ne_nil hn
      exact h.1 (congrArg some (List.cons_prefix_cons.1 hp).1)
    rw [List.cons_append, replaceFrom_cons_of_neg hp, ih h.2, List.cons_append]

theorem replace_of_not_infix {needle new text : String} (h : ¬ needle.toList <:+: text.toList) :
    replace needle new text = text := by
  rw [replace, replaceAll_of_not_infix h, String.ofList_toList]

theorem replace_self {needle new : String} (hn : needle ≠ "") :
    replace needle new needle = new := by
  rw [replace, replaceAll_self (by simpa using hn), String.ofList_toList]

theorem replace_space {needle new left right : String} (hn : needle ≠ "")
    (hs : ' ' ∉ needle.toList) :
    replace needle new (left ++ " " ++ right) =
      replace needle new left ++ " " ++ replace needle new right := by
  have hl : (left ++ " " ++ right).toList = left.toList ++ ' ' :: right.toList := by simp
  rw [replace, hl, replaceAll_append_cons (by simpa using hn) hs]
  apply String.toList_injective
  simp [replace]

end Replacements

section Splits

theorem splitFirst_cons_of_neg (h : ¬ needle <+: s :: text) :
    splitFirst needle (s :: text) =
      (splitFirst needle text).map fun (before, after) => (s :: before, after) := by
  rw [splitFirst, if_neg (by rwa [List.isPrefixOf_iff_prefix])]

theorem splitFirst_append (hn : needle ≠ []) :
    splitFirst needle (needle ++ right) = some ([], right) := by
  obtain ⟨c, rest, rfl⟩ := List.exists_cons_of_ne_nil hn
  rw [List.cons_append, splitFirst, if_pos (by simp [List.isPrefixOf_iff_prefix])]
  simp

/-- A separator that does not stand before a character it has not, but right behind it. -/
theorem splitFirst_append_cons (hn : needle ≠ []) (hs : s ∉ needle) (h : ¬ needle <:+: left) :
    splitFirst needle (left ++ s :: (needle ++ right)) = some (left ++ [s], right) := by
  induction left with
  | nil =>
    rw [List.nil_append, splitFirst_cons_of_neg (not_prefix_cons hn hs), splitFirst_append hn]
    rfl
  | cons c left ih =>
    rw [List.infix_cons_iff, not_or] at h
    have hp : ¬ needle <+: c :: (left ++ s :: (needle ++ right)) := fun hp =>
      h.1 (prefix_of_append_cons hs hp)
    rw [List.cons_append, splitFirst_cons_of_neg hp, ih h.2]
    rfl

theorem splitFirst_append_of_some {before after : List Char}
    (h : splitFirst needle left = some (before, after)) :
    splitFirst needle (left ++ right) = some (before, after ++ right) := by
  induction left generalizing before with
  | nil => cases h
  | cons c left ih =>
    by_cases hp : needle <+: c :: left
    · have hp' : needle <+: c :: (left ++ right) := hp.trans (List.prefix_append ..)
      rw [splitFirst, if_pos (List.isPrefixOf_iff_prefix.2 hp)] at h
      cases h
      rw [List.cons_append, splitFirst, if_pos (List.isPrefixOf_iff_prefix.2 hp'),
        ← List.cons_append, List.drop_append_of_le_length hp.length_le]
    · -- The match lies in the left part, so the needle is no longer than that.
      rw [splitFirst_cons_of_neg hp] at h
      obtain ⟨⟨b, a⟩, hb, he⟩ := Option.map_eq_some_iff.1 h
      cases he
      have hlen : needle.length ≤ (c :: left).length := by
        rw [append_of_splitFirst hb]
        simp only [List.length_cons, List.length_append]
        omega
      have hp' : ¬ needle <+: c :: (left ++ right) := fun h =>
        hp (List.prefix_of_prefix_length_le h (List.prefix_append (c :: left) right) hlen)
      rw [List.cons_append, splitFirst_cons_of_neg hp', ih hb]
      rfl

/-- The separator does not stand before its first match. -/
theorem not_infix_of_splitFirst (hn : needle ≠ []) {before after : List Char}
    (h : splitFirst needle text = some (before, after)) : ¬ needle <:+: before := by
  induction text generalizing before with
  | nil => cases h
  | cons c text ih =>
    by_cases hp : needle <+: c :: text
    · rw [splitFirst, if_pos (List.isPrefixOf_iff_prefix.2 hp)] at h
      cases h
      exact fun hi => hn (List.infix_nil.1 hi)
    · rw [splitFirst_cons_of_neg hp] at h
      obtain ⟨⟨b, a⟩, hb, he⟩ := Option.map_eq_some_iff.1 h
      cases he
      have hpre : c :: b <+: c :: text := ⟨needle ++ after, by simp [append_of_splitFirst hb]⟩
      rw [List.infix_cons_iff, not_or]
      exact ⟨fun h => hp (h.trans hpre), ih hb⟩

end Splits

section Trimming

variable {p : Char → Bool}

theorem stripBy_cons (hs : p s = true) : stripBy p (s :: text) = stripBy p text := by
  rw [stripBy, stripBy, List.dropWhile_cons_of_pos hs]

theorem stripBy_concat (hs : p s = true) : stripBy p (text ++ [s]) = stripBy p text := by
  unfold stripBy
  rw [List.dropWhile_append]
  split
  · rename_i he
    rw [List.isEmpty_iff.1 he, List.dropWhile_cons_of_pos hs]
    rfl
  · rw [List.reverse_append, List.reverse_singleton, List.singleton_append,
      List.dropWhile_cons_of_pos hs]

/-- Nothing is stripped off a text whose ends are not of the class. -/
theorem stripBy_of_ends (hh : ∀ c ∈ text.head?, p c = false)
    (hl : ∀ c ∈ text.getLast?, p c = false) : stripBy p text = text := by
  have hd : ∀ t : List Char, (∀ c ∈ t.head?, p c = false) → t.dropWhile p = t := by
    intro t ht
    cases t with
    | nil => rfl
    | cons c rest => exact List.dropWhile_cons_of_neg (by simp [ht c rfl])
  rw [stripBy, hd text hh, hd text.reverse (by simpa using hl), List.reverse_reverse]

theorem stripBy_of_forall (h : ∀ c ∈ text, p c = false) : stripBy p text = text :=
  stripBy_of_ends (fun c hc => h c (List.mem_of_mem_head? hc))
    fun c hc => h c (List.mem_of_mem_getLast? hc)

theorem infix_dropWhile (hp : ∀ c ∈ needle, p c = false) (h : needle <:+: text) :
    needle <:+: text.dropWhile p := by
  induction text with
  | nil => exact h
  | cons c text ih =>
    by_cases hc : p c = true
    · have hh : needle.head? ≠ some c := fun hh => by
        rw [hp c (List.mem_of_mem_head? hh)] at hc
        exact Bool.false_ne_true hc
      rw [List.dropWhile_cons_of_pos hc]
      exact ih (infix_cons_of_head hh h)
    · rwa [List.dropWhile_cons_of_neg hc]

/-- What has no character of a class stands in a text that is stripped of it. -/
theorem infix_stripBy (hp : ∀ c ∈ needle, p c = false) (h : needle <:+: text) :
    needle <:+: stripBy p text := by
  have hr : ∀ c ∈ needle.reverse, p c = false := fun c hc => hp c (List.mem_reverse.1 hc)
  rw [stripBy, ← List.reverse_infix, List.reverse_reverse]
  exact infix_dropWhile hr (List.reverse_infix.2 (infix_dropWhile hp h))

theorem stripBy_infix : stripBy p text <:+: text := by
  rw [stripBy, ← List.reverse_infix, List.reverse_reverse]
  exact (List.dropWhile_suffix p).isInfix.trans
    (List.reverse_infix.2 (List.dropWhile_suffix p).isInfix)

end Trimming

end Playbook.Text

import Mathlib.Data.List.Basic
import Mathlib.Data.List.Induction
import Mathlib.Tactic.Common
import Playbook.Datum

/-!
# Operations that revise or add

Keys are compared by what they count as, which is an equivalence (`Datum.same_trans`). An operation
revises in its place what it holds, and otherwise adds something new (`Upsert`). After a run of
operations that go by keys everything is what some entry has become, and every key is there; so a
second run revises what is there, and where revising twice is revising once it changes nothing
(`Upsert.Keyed.run_run`). Operations that hold nothing and not one another only add
(`Upsert.run_of_fresh`), and those that spare one another may come in any order
(`Upsert.run_perm`).
-/

namespace Playbook

namespace Datum

variable {d d' d'' : Datum}

theorem number?_pos {q : Int × Nat} (h : d.number? = some q) : 0 < q.2 := by
  have hpow (k n : Nat) (hk : 0 < k) : 0 < Nat.pow k n := Nat.pow_pos hk
  unfold number? at h
  split at h
  · rw [← Option.some.inj h]
    exact Nat.one_pos
  · rw [← Option.some.inj h]
    exact Nat.one_pos
  · rw [← Option.some.inj h]
    dsimp only
    apply hpow
    decide
  · rw [← Option.some.inj h]
    exact hpow 10 _ (by decide)
  · cases h

/-- Equal scalars are the same number or the same datum. -/
theorem same_cases (h : d.same d' = true) :
    (∃ q q', d.number? = some q ∧ d'.number? = some q' ∧ q.1 * q'.2 = q'.1 * q.2) ∨ d = d' := by
  unfold same at h
  split at h
  · rename_i hn hn'
    exact .inl ⟨_, _, hn, hn', of_decide_eq_true h⟩
  · right
    split at h
    · rw [of_decide_eq_true h]
    · rw [of_decide_eq_true h]
    · rw [of_decide_eq_true h]
    · rw [of_decide_eq_true h]
    · cases h
  · cases h

theorem same_of_number {q q' : Int × Nat} (hq : d.number? = some q) (hq' : d'.number? = some q')
    (h : q.1 * q'.2 = q'.1 * q.2) : d.same d' = true := by
  simp only [same, hq, hq', h, decide_true]

theorem same_symm (h : d.same d' = true) : d'.same d = true := by
  rcases same_cases h with ⟨q, q', hq, hq', he⟩ | rfl
  · exact same_of_number hq' hq he.symm
  · exact h

theorem same_comm (d d' : Datum) : d.same d' = d'.same d :=
  Bool.eq_iff_iff.2 ⟨same_symm, same_symm⟩

theorem same_trans (h : d.same d' = true) (h' : d'.same d'' = true) : d.same d'' = true := by
  rcases same_cases h with ⟨q, q', hq, hq', he⟩ | rfl
  · rcases same_cases h' with ⟨p, p', hp, hp', he'⟩ | rfl
    · obtain rfl : q' = p := Option.some.inj (hq'.symm.trans hp)
      have hpos : (q'.2 : Int) ≠ 0 := by
        have := number?_pos hq'
        omega
      refine same_of_number hq hp' (Int.eq_of_mul_eq_mul_right hpos ?_)
      calc q.1 * p'.2 * q'.2 = q.1 * q'.2 * p'.2 := Int.mul_right_comm ..
        _ = q'.1 * q.2 * p'.2 := by rw [he]
        _ = q'.1 * p'.2 * q.2 := Int.mul_right_comm ..
        _ = p'.1 * q'.2 * q.2 := by rw [he']
        _ = p'.1 * q.2 * q'.2 := Int.mul_right_comm ..
    · exact h
  · exact h'

theorem same_left_eq (h : d.same d' = true) (other : Datum) : d.same other = d'.same other :=
  Bool.eq_iff_iff.2 ⟨fun ho => same_trans (same_symm h) ho, fun ho => same_trans h ho⟩

end Datum

/-- An operation on a list: what it holds is revised, and else a blank is revised and added. -/
structure Upsert (ω β : Type) where
  holds : ω → β → Bool
  revise : ω → β → β
  blank : ω → β

namespace Upsert

variable {ω β : Type} (u : Upsert ω β) {op : ω} {ops : List ω} {x y : β} {items : List β}

def step (op : ω) (x : β) : β :=
  if u.holds op x then u.revise op x else x

def put (op : ω) (items : List β) : List β :=
  if items.any (u.holds op) then items.map (u.step op) else items ++ [u.revise op (u.blank op)]

def run (ops : List ω) (items : List β) : List β :=
  ops.foldl (fun items op => u.put op items) items

def apply (ops : List ω) (x : β) : β :=
  ops.foldl (fun x op => u.step op x) x

/-- The operations hold their own blanks, two that hold one blank hold the same, and a revision
does not change which ones hold an entry. -/
structure Keyed (ops : List ω) : Prop where
  blank : ∀ op ∈ ops, u.holds op (u.blank op) = true
  shared : ∀ op ∈ ops, ∀ op' ∈ ops, u.holds op' (u.blank op) = true → ∀ x,
    u.holds op' x = true → u.holds op x = true
  revise : ∀ op ∈ ops, ∀ op' ∈ ops, ∀ x, u.holds op x = true →
    u.holds op' (u.revise op x) = u.holds op' x

variable {u}

theorem Keyed.mono {more : List ω} (h : u.Keyed more) (hs : ∀ op ∈ ops, op ∈ more) :
    u.Keyed ops where
  blank op ho := h.blank op (hs op ho)
  shared op ho op' ho' := h.shared op (hs op ho) op' (hs op' ho')
  revise op ho op' ho' := h.revise op (hs op ho) op' (hs op' ho')

theorem Keyed.holds_step (h : u.Keyed ops) {op' : ω} (ho : op ∈ ops) (ho' : op' ∈ ops) (x : β) :
    u.holds op' (u.step op x) = u.holds op' x := by
  unfold step
  split_ifs with hx
  · exact h.revise op ho op' ho' x hx
  · rfl

theorem apply_of_not_holds (h : ∀ op ∈ ops, u.holds op x = false) : u.apply ops x = x := by
  induction ops with
  | nil => rfl
  | cons op rest ih =>
    rw [List.forall_mem_cons] at h
    have hstep : u.step op x = x := by simp [step, h.1]
    change u.apply rest (u.step op x) = x
    rw [hstep, ih h.2]

theorem apply_append_singleton : u.apply (ops ++ [op]) x = u.step op (u.apply ops x) := by
  simp [apply]

theorem run_append_singleton : u.run (ops ++ [op]) items = u.put op (u.run ops items) := by
  simp [run]

/-- Something is there for every operation, and stays there. -/
theorem Keyed.exists_put (h : u.Keyed ops) {op' : ω} (ho : op ∈ ops) (ho' : op' ∈ ops)
    (hx : op' = op ∨ ∃ x ∈ items, u.holds op' x = true) :
    ∃ x ∈ u.put op items, u.holds op' x = true := by
  unfold put
  split_ifs with hany
  · have hheld : ∃ x ∈ items, u.holds op' x = true := by
      rcases hx with rfl | hx
      · exact List.any_eq_true.1 hany
      · exact hx
    obtain ⟨x, hx, hh⟩ := hheld
    exact ⟨u.step op x, List.mem_map_of_mem hx, (h.holds_step ho ho' x).trans hh⟩
  · rcases hx with rfl | ⟨x, hx, hh⟩
    · have hnew := (h.revise op' ho op' ho _ (h.blank op' ho)).trans (h.blank op' ho)
      exact ⟨_, List.mem_append_right _ (List.mem_singleton_self _), hnew⟩
    · exact ⟨x, List.mem_append_left _ hx, hh⟩

theorem Keyed.exists_run (h : u.Keyed ops) (ho : op ∈ ops) :
    ∃ x ∈ u.run ops items, u.holds op x = true := by
  induction ops using List.reverseRecOn with
  | nil => exact absurd ho List.not_mem_nil
  | append_singleton ops last ih =>
    have hlast : last ∈ ops ++ [last] := List.mem_append_right _ (List.mem_singleton_self last)
    rw [run_append_singleton]
    refine h.exists_put hlast ho ?_
    rcases List.mem_append.1 ho with ho | ho
    · exact .inr (ih (h.mono fun op ho => List.mem_append_left _ ho) ho)
    · exact .inl (List.mem_singleton.1 ho)

/-- Everything that a run leaves is what some entry has become. -/
theorem Keyed.exists_apply_eq (h : u.Keyed ops) (hx : x ∈ u.run ops items) :
    ∃ y, x = u.apply ops y := by
  induction ops using List.reverseRecOn generalizing x with
  | nil => exact ⟨x, rfl⟩
  | append_singleton ops last ih =>
    have hlast : last ∈ ops ++ [last] := List.mem_append_right _ (List.mem_singleton_self last)
    have hearlier : ∀ op ∈ ops, op ∈ ops ++ [last] := fun op ho => List.mem_append_left _ ho
    have hops : u.Keyed ops := h.mono hearlier
    simp only [apply_append_singleton]
    rw [run_append_singleton, put] at hx
    split_ifs at hx with hany
    · obtain ⟨z, hz, rfl⟩ := List.mem_map.1 hx
      obtain ⟨y, rfl⟩ := ih hops hz
      exact ⟨y, rfl⟩
    · have hnone : ∀ z ∈ u.run ops items, u.holds last z = false := by simpa using hany
      rcases List.mem_append.1 hx with hx | hx
      · obtain ⟨y, rfl⟩ := ih hops hx
        exact ⟨y, by simp [step, hnone _ hx]⟩
      · -- No earlier operation holds the blank, or the last one would have found an entry.
        have hblank : u.apply ops (u.blank last) = u.blank last := by
          refine apply_of_not_holds fun op ho => ?_
          by_contra hheld
          obtain ⟨z, hz, hh⟩ : ∃ z ∈ u.run ops items, u.holds op z = true := hops.exists_run ho
          have hl := h.shared last hlast op (hearlier op ho) (by simpa using hheld) z hh
          simp [hnone z hz] at hl
        refine ⟨u.blank last, ?_⟩
        rw [hblank, List.mem_singleton.1 hx, step, if_pos (h.blank last hlast)]

theorem Keyed.run_eq_map (h : u.Keyed ops)
    (hx : ∀ op ∈ ops, ∃ x ∈ items, u.holds op x = true) :
    u.run ops items = items.map (u.apply ops) := by
  induction ops generalizing items with
  | nil => exact (List.map_id' items).symm
  | cons op rest ih =>
    have hput : u.put op items = items.map (u.step op) := by
      rw [put, if_pos (List.any_eq_true.2 (hx op List.mem_cons_self))]
    change u.run rest (u.put op items) = _
    rw [hput, ih (h.mono fun op ho => List.mem_cons_of_mem _ ho), List.map_map]
    · rfl
    · intro op' ho
      obtain ⟨x, hm, hh⟩ := hx op' (List.mem_cons_of_mem _ ho)
      exact ⟨u.step op x, List.mem_map_of_mem hm,
        (h.holds_step List.mem_cons_self (List.mem_cons_of_mem _ ho) x).trans hh⟩

/-- A run that revises everything as often as it is made changes nothing the second time. -/
theorem Keyed.run_run (h : u.Keyed ops)
    (ha : ∀ x, u.apply ops (u.apply ops x) = u.apply ops x) (items : List β) :
    u.run ops (u.run ops items) = u.run ops items := by
  rw [h.run_eq_map fun op ho => h.exists_run ho]
  refine (List.map_congr_left fun x hx => ?_).trans (List.map_id _)
  obtain ⟨y, rfl⟩ := h.exists_apply_eq hx
  exact ha y

/-- What no operation holds, not even one before it, is all added. -/
theorem run_of_fresh (hn : ∀ op ∈ ops, ∀ x ∈ items, u.holds op x = false)
    (hd : ops.Pairwise fun op op' => u.holds op' (u.revise op (u.blank op)) = false) :
    u.run ops items = items ++ ops.map fun op => u.revise op (u.blank op) := by
  induction ops generalizing items with
  | nil => exact (List.append_nil items).symm
  | cons op rest ih =>
    rw [List.forall_mem_cons] at hn
    rw [List.pairwise_cons] at hd
    have hput : u.put op items = items ++ [u.revise op (u.blank op)] := by
      have hnone : ¬items.any (u.holds op) = true := by simpa using hn.1
      rw [put, if_neg hnone]
    change u.run rest (u.put op items) = _
    rw [hput, ih, List.append_assoc, List.singleton_append, List.map_cons]
    · intro op' ho x hx
      rcases List.mem_append.1 hx with hx | hx
      · exact hn.2 op' ho x hx
      · rw [List.mem_singleton.1 hx]
        exact hd.1 op' ho
    · exact hd.2

theorem Keyed.holds_apply {more : List ω} (h : u.Keyed more) (hs : ∀ op ∈ ops, op ∈ more)
    {op' : ω} (ho' : op' ∈ more) (x : β) : u.holds op' (u.apply ops x) = u.holds op' x := by
  induction ops generalizing x with
  | nil => rfl
  | cons op rest ih =>
    rw [List.forall_mem_cons] at hs
    exact (ih hs.2 (u.step op x)).trans (h.holds_step hs.1 ho' x)

/-- Where a revision replaces what is there, entries that are held by the same operations become
the same, if any holds them. -/
theorem apply_congr (hc : ∀ op x y, u.revise op x = u.revise op y)
    (hxy : ∀ op ∈ ops, u.holds op x = u.holds op y) (he : ∃ op ∈ ops, u.holds op x = true) :
    u.apply ops x = u.apply ops y := by
  induction ops with
  | nil =>
    obtain ⟨_, ho, -⟩ := he
    exact absurd ho List.not_mem_nil
  | cons op rest ih =>
    rw [List.forall_mem_cons] at hxy
    change u.apply rest (u.step op x) = u.apply rest (u.step op y)
    by_cases hx : u.holds op x = true
    · rw [step, step, if_pos hx, if_pos (hxy.1 ▸ hx), hc op x y]
    · rw [step, step, if_neg hx, if_neg (hxy.1 ▸ hx)]
      refine ih hxy.2 ?_
      obtain ⟨op', ho', hh⟩ := he
      rcases List.mem_cons.1 ho' with rfl | ho'
      · exact absurd hh hx
      · exact ⟨op', ho', hh⟩

theorem Keyed.apply_apply (h : u.Keyed ops) (hc : ∀ op x y, u.revise op x = u.revise op y)
    (x : β) : u.apply ops (u.apply ops x) = u.apply ops x := by
  have hheld : ∀ op ∈ ops, u.holds op (u.apply ops x) = u.holds op x := fun op ho =>
    h.holds_apply (fun _ ho => ho) ho x
  by_cases he : ∃ op ∈ ops, u.holds op x = true
  · obtain ⟨op, ho, hh⟩ := he
    exact apply_congr hc hheld ⟨op, ho, (hheld op ho).trans hh⟩
  · have hnone : ∀ op ∈ ops, u.holds op x = false := by simpa using he
    rw [apply_of_not_holds hnone, apply_of_not_holds hnone]

section Order

/-- An operation neither holds what another holds nor makes anything that the other holds. -/
structure Spares (u : Upsert ω β) (op op' : ω) : Prop where
  held : ∀ x, u.holds op x = true → u.holds op' x = false
  revised : ∀ x, u.holds op x = true → u.holds op' (u.revise op x) = false
  added : u.holds op' (u.revise op (u.blank op)) = false

variable {op' : ω} (h : u.Spares op op')
include h

theorem Spares.holds_step (x : β) : u.holds op' (u.step op x) = u.holds op' x := by
  unfold step
  split_ifs with hx
  · rw [h.held x hx, h.revised x hx]
  · rfl

theorem Spares.any_put (items : List β) :
    (u.put op items).any (u.holds op') = items.any (u.holds op') := by
  unfold put
  split_ifs
  · rw [List.any_map]
    exact congrArg items.any (funext h.holds_step)
  · simp [h.added]

variable (h' : u.Spares op' op)
include h'

theorem Spares.step_step (x : β) : u.step op (u.step op' x) = u.step op' (u.step op x) := by
  by_cases hx : u.holds op x = true
  · have hx' := h.held x hx
    simp [step, hx, hx', h.revised x hx]
  · by_cases hx' : u.holds op' x = true
    · simp [step, hx, hx', h'.revised x hx']
    · simp [step, hx, hx']

/-- Operations that spare each other may change places. -/
theorem Spares.put_put (items : List β) :
    (u.put op (u.put op' items)).Perm (u.put op' (u.put op items)) := by
  have hany := h'.any_put items
  have hany' := h.any_put items
  have hadd : u.step op (u.revise op' (u.blank op')) = u.revise op' (u.blank op') := by
    simp [step, h'.added]
  have hadd' : u.step op' (u.revise op (u.blank op)) = u.revise op (u.blank op) := by
    simp [step, h.added]
  rw [put, hany, put.eq_1 u op' (u.put op items), hany']
  unfold put
  split_ifs
  · rw [List.map_map, List.map_map]
    exact .of_eq (List.map_congr_left fun x _ => h.step_step h' x)
  · rw [List.map_append, List.map_singleton, hadd]
  · rw [List.map_append, List.map_singleton, hadd']
  · rw [List.append_assoc, List.append_assoc]
    exact List.perm_append_comm.append_left items

omit h h'

theorem put_perm {items' : List β} (hp : items.Perm items') :
    (u.put op items).Perm (u.put op items') := by
  unfold put
  rw [hp.any_eq]
  split_ifs
  · exact hp.map _
  · exact hp.append_right _

theorem run_perm_of_perm {items' : List β} (hp : items.Perm items') (ops : List ω) :
    (u.run ops items).Perm (u.run ops items') := by
  induction ops generalizing items items' with
  | nil => exact hp
  | cons op rest ih => exact ih (put_perm hp)

/-- Operations that spare one another leave the same in any order. -/
theorem run_perm {ops' : List ω} (hp : ops.Perm ops')
    (h : ops.Pairwise fun op op' => u.Spares op op' ∧ u.Spares op' op) (items : List β) :
    (u.run ops items).Perm (u.run ops' items) := by
  induction hp generalizing items with
  | nil => exact .refl _
  | cons op _ ih => exact ih (List.pairwise_cons.1 h).2 (u.put op items)
  | swap op op' rest =>
    obtain ⟨hs, hs'⟩ := (List.pairwise_cons.1 h).1 op List.mem_cons_self
    exact run_perm_of_perm (hs'.put_put hs items) rest
  | trans hp _ ih ih' =>
    exact (ih h items).trans (ih' ((hp.pairwise_iff fun hs => ⟨hs.2, hs.1⟩).1 h) items)

end Order

end Upsert

end Playbook

import Playbook.Intent.Recogniser
import Playbook.Proofs.RoundingOrder

/-!
# How certain an intent is

A confidence is brought between zero and one unless it is `nan`, which has no order with these
(`Intent.clamp_bounds`). So the gate of a threshold holds for all replies but those whose confidence
is written as `nan` (`Recogniser.recognise_gated`): these state an intent that no threshold stops
(`Recogniser.recognise_nan`).
-/

namespace Playbook

namespace Binary64

theorem le_of_not_lt {x y : Binary64} (hx : x ≠ nan) (hy : y ≠ nan) (h : ¬y < x) : x ≤ y := by
  rw [lt_iff_extent] at h
  rw [le_iff_extent]
  refine ⟨hx, hy, ?_⟩
  simp only [hx, hy, ne_eq, not_false_eq_true, true_and] at h
  omega

theorem ofRatio_ne_nan (negative : Bool) (num den : Nat) : ofRatio negative num den ≠ nan := by
  unfold ofRatio
  split
  · nofun
  · exact ofParts_ne_nan _ _

theorem ofInt?_ne_nan (i : Int) : ofInt? i ≠ some nan := by
  unfold ofInt?
  have h := ofRatio_ne_nan (i < 0) i.natAbs 1
  split
  · nofun
  · simpa using h

end Binary64

namespace Intent

open Binary64 (nan signedZero)

section Clamp

theorem certain_ne_nan : certain ≠ nan := Binary64.ofRatio_ne_nan false 1 1

theorem zero_le_certain : signedZero false ≤ certain := by decide +kernel

/-- A confidence that is brought between zero and one lies there, unless it has no order. -/
theorem clamp_bounds {x : Binary64} (hx : x ≠ nan) :
    signedZero false ≤ clamp x ∧ clamp x ≤ certain := by
  unfold clamp
  by_cases hlow : x.lt (signedZero false) = true
  · have hone : certain.lt (signedZero false) = false := by decide +kernel
    simp only [hlow, if_true, hone, Bool.false_eq_true, if_false]
    exact ⟨by decide, zero_le_certain⟩
  · simp only [hlow, Bool.false_eq_true, if_false]
    have hzero : signedZero false ≤ x := Binary64.le_of_not_lt nofun hx hlow
    split_ifs with hhigh
    · exact ⟨zero_le_certain, by decide +kernel⟩
    · exact ⟨hzero, Binary64.le_of_not_lt hx certain_ne_nan hhigh⟩

theorem clamp_nan : clamp nan = nan := rfl

end Clamp

/-- Whether a datum writes the confidence `nan`. -/
def WritesNan : Datum → Prop
  | .plain (.float x) => x = nan
  | .plain (.text s) => Text.readFloat? s = some nan
  | _ => False

theorem readConfidence_nan_iff {d? : Option Datum} :
    readConfidence d? = .ok nan ↔ ∃ d ∈ d?, WritesNan d := by
  unfold readConfidence
  split
  · simp [signedZero]
  · simp [WritesNan, Binary64.ofInt, Binary64.ofRatio_ne_nan]
  · rename_i i
    have hi : Binary64.ofInt? i ≠ some nan := Binary64.ofInt?_ne_nan i
    rcases hx : Binary64.ofInt? i with _ | x
    · simp [WritesNan]
    · simpa [WritesNan, hx] using hi
  · simp [WritesNan]
  · rename_i s
    rcases hs : Text.readFloat? s with _ | x
    · simp [WritesNan, hs, signedZero]
    · simp [WritesNan, hs]
  · rename_i d _ _ _ _
    unfold WritesNan
    simp [signedZero]

theorem mem_scalars {fields : List (String × Datum)} {name : String} {v : Value}
    (h : (name, v) ∈ scalars fields) : ∃ d, (name, d) ∈ fields ∧ d.toValue = .ok v := by
  induction fields with
  | nil => cases h
  | cons e rest ih =>
    obtain ⟨other, d⟩ := e
    unfold scalars at h
    rcases hd : d.toValue with f | w <;> simp only [hd] at h
    · obtain ⟨d', hm, hv⟩ := ih h
      exact ⟨d', List.mem_cons_of_mem _ hm, hv⟩
    · rcases List.mem_cons.1 h with he | hm
      · cases he
        exact ⟨d, List.mem_cons_self, hd⟩
      · obtain ⟨d', hm, hv⟩ := ih hm
        exact ⟨d', List.mem_cons_of_mem _ hm, hv⟩

theorem ofFields_eq_ok_iff {fields : Record} {intent : Intent} :
    ofFields fields = .ok intent ↔ ∃ entities confidence,
      readEntities (fields.column "entities") = .ok entities ∧
      readConfidence (fields.get? "confidence") = .ok confidence ∧
      intent = ⟨((fields.column "intent").orElse (.text unknownName)).asText, entities,
        clamp confidence⟩ := by
  simp only [ofFields, bind, Except.bind, pure, Except.pure]
  rcases readEntities (fields.column "entities") with f | entities
  · simp
  · rcases readConfidence (fields.get? "confidence") with f | confidence
    · simp
    · simp [eq_comm]

theorem mem_of_readEntities {d : Datum} {entities : Context} (h : readEntities d = .ok entities) :
    ∀ e ∈ entities.entries, ∃ fields, d = .dict fields ∧
      ∃ d', (e.1, d') ∈ fields ∧ d'.toValue = .ok e.2 := by
  unfold readEntities at h
  split_ifs at h with ht
  · cases h
    exact fun _ he => absurd he List.not_mem_nil
  · split at h
    · rename_i fields
      cases h
      rintro ⟨name, v⟩ he
      have hg : (OrderedMap.ofEntries (scalars fields)).get? name = some v :=
        OrderedMap.get?_eq_some_iff.2 he
      rw [OrderedMap.ofEntries, OrderedMap.get?_insertAll, OrderedMap.get?_empty,
        Option.or_none] at hg
      obtain ⟨later, earlier, hl, -⟩ := List.lookup_eq_some_iff.1 hg
      have hm : (name, v) ∈ scalars fields :=
        List.mem_reverse.1 (hl ▸ List.mem_append_right _ List.mem_cons_self)
      exact ⟨fields, rfl, mem_scalars hm⟩
    · cases h

end Intent

/-- The object that a reply states. -/
def ChatReply.object? : ChatReply → Option Record
  | .content (some text) =>
    match JsonText.read (Intent.cutObject text) with
    | .ok (.dict fields) => some (.ofEntries fields)
    | _ => none
  | _ => none

/-- A reply that states an intent with the confidence `nan`. -/
def ChatReply.StatesNan (reply : ChatReply) : Prop :=
  ∃ fields, reply.object? = some fields ∧
    (∃ entities, Intent.readEntities (fields.column "entities") = .ok entities) ∧
    ∃ d ∈ fields.get? "confidence", Intent.WritesNan d

namespace Recogniser

open Binary64 (nan signedZero)
open Intent (certain)

theorem readReply_of_none {reply : ChatReply} (h : reply.object? = none) :
    readReply reply = .unknown := by
  unfold readReply
  split
  · rename_i text
    split_ifs
    · rfl
    · unfold readContent
      unfold ChatReply.object? at h
      dsimp only at h
      rcases hr : JsonText.read (Intent.cutObject text) with f | d
      · rfl
      · rw [hr] at h
        cases d <;> first | rfl | cases h
  · rfl

theorem readReply_of_some {reply : ChatReply} {fields : Record} (h : reply.object? = some fields) :
    readReply reply = (Intent.ofFields fields).toOption.getD .unknown := by
  unfold ChatReply.object? at h
  split at h
  · rename_i text
    split at h
    · rename_i entries hr
      cases h
      have hne : text ≠ "" := by
        rintro rfl
        cases hr
      unfold readReply readContent
      simp only [hne, if_false, hr, bind, Except.bind]
      rcases Intent.ofFields (.ofEntries entries) with f | intent <;> rfl
    · cases h
  · cases h

/-- What is read of a reply: nothing, or the fields of its object. -/
theorem readReply_cases (reply : ChatReply) :
    readReply reply = .unknown ∧ ¬reply.StatesNan ∨
      ∃ fields entities confidence, reply.object? = some fields ∧
        Intent.readEntities (fields.column "entities") = .ok entities ∧
        Intent.readConfidence (fields.get? "confidence") = .ok confidence ∧
        (readReply reply).entities = entities ∧
        (readReply reply).confidence = Intent.clamp confidence := by
  rcases ho : reply.object? with _ | fields
  · refine .inl ⟨readReply_of_none ho, ?_⟩
    rintro ⟨fields, hf, -⟩
    rw [ho] at hf
    cases hf
  rcases hi : Intent.ofFields fields with f | intent
  · refine .inl ⟨by rw [readReply_of_some ho, hi]; rfl, ?_⟩
    rintro ⟨fields', hf, ⟨entities, he⟩, hc⟩
    rw [ho] at hf
    cases hf
    rw [Intent.ofFields_eq_ok_iff.2 ⟨entities, nan, he, Intent.readConfidence_nan_iff.2 hc, rfl⟩]
      at hi
    cases hi
  · obtain ⟨entities, confidence, he, hc, rfl⟩ := Intent.ofFields_eq_ok_iff.1 hi
    have hr := readReply_of_some ho
    rw [hi] at hr
    exact .inr ⟨fields, entities, confidence, rfl, he, hc, by rw [hr]; rfl, by rw [hr]; rfl⟩

/-- A confidence lies between zero and one unless the reply states it as `nan`. -/
theorem confidence_bounds_iff (reply : ChatReply) :
    signedZero false ≤ (readReply reply).confidence ∧ (readReply reply).confidence ≤ certain ↔
      ¬reply.StatesNan := by
  rcases readReply_cases reply with ⟨hr, hn⟩ | ⟨fields, entities, confidence, ho, he, hc, -, hr⟩
  · rw [hr]
    exact ⟨fun _ => hn, fun _ => ⟨by decide, Intent.zero_le_certain⟩⟩
  · rw [hr]
    constructor
    · rintro ⟨hz, -⟩ ⟨fields', hf, -, hw⟩
      rw [ho] at hf
      cases hf
      rw [Intent.readConfidence_nan_iff.2 hw] at hc
      cases hc
      rw [Intent.clamp_nan] at hz
      cases hz
    · intro hn
      refine Intent.clamp_bounds ?_
      rintro rfl
      exact hn ⟨fields, ho, ⟨entities, he⟩, Intent.readConfidence_nan_iff.1 hc⟩

/-- Whatever is answered to a question, an intent is recognised: the unknown one if no object is
stated, with entities that are those of the object that convert to values. Its confidence lies
between zero and one, and passes a threshold only from there on, unless it is stated as `nan`. -/
theorem recognise_gated (r : Recogniser) (query : String) (chat : Chat) :
    let reply := (chat.send (r.request query)).1
    let intent := (r.recognise query chat).1
    (reply.object? = none → intent = .unknown) ∧
    (∀ e ∈ intent.entities.entries, ∃ fields entities, reply.object? = some fields ∧
      fields.column "entities" = .dict entities ∧
      ∃ d, (e.1, d) ∈ entities ∧ d.toValue = .ok e.2) ∧
    (signedZero false ≤ intent.confidence ∧ intent.confidence ≤ certain ↔ ¬reply.StatesNan) ∧
    ∀ threshold ≠ nan, ¬reply.StatesNan → intent.needsClarification threshold = false →
      intent.isUnknown = false ∧ threshold ≤ intent.confidence := by
  intro reply intent
  have hbounds := confidence_bounds_iff reply
  refine ⟨readReply_of_none, fun e he => ?_, hbounds, fun threshold ht hn hc => ?_⟩
  · rcases readReply_cases reply with ⟨hr, -⟩ | ⟨fields, entities, _, ho, hent, -, hr, -⟩
    · have hnone : e ∈ (readReply reply).entities.entries := he
      rw [hr] at hnone
      exact absurd hnone List.not_mem_nil
    · have hm : e ∈ (readReply reply).entities.entries := he
      rw [hr] at hm
      obtain ⟨data, hd, hv⟩ := Intent.mem_of_readEntities hent e hm
      exact ⟨fields, data, ho, hd, hv⟩
  · rw [Intent.needsClarification, Bool.or_eq_false_iff] at hc
    have hcn : intent.confidence ≠ nan := fun h => by
      have hz := (hbounds.2 hn).1
      rw [show (readReply reply).confidence = nan from h] at hz
      cases hz
    exact ⟨hc.1, Binary64.le_of_not_lt ht hcn (Bool.eq_false_iff.1 hc.2)⟩

/-- A confidence of `nan` has no order with zero and passes the threshold of one. -/
theorem recognise_nan :
    let reply : ChatReply :=
      .content (some "\x7b\"intent\": \"balance_inquiry\", \"confidence\": NaN\x7d")
    let intent := (standard.recognise "?" (.ofReplies [reply])).1
    intent.confidence = nan ∧ ¬signedZero false ≤ intent.confidence ∧
      intent.needsClarification certain = false ∧ ¬certain ≤ intent.confidence := by
  decide +kernel

end Recogniser

end Playbook

import PostCall.Model.Pii

/-!
# Redaction

Two values agree if they differ only in what stands under the keys of the PII fields. Redaction takes
two values to the same one exactly if they agree, and a value agrees with its redaction: what it hides
is all that stands under those keys, and nothing else.
-/

namespace PostCall.Properties
open PostCall.Python PostCall.Model

/-- The key equals a PII field, without regard to case. -/
def PiiKey (text : Text) (fields : List String) (key : String) : Prop :=
  ∃ field ∈ fields, text.lower key = text.lower field

/-- An entry of an object, at any depth of a value. -/
inductive Entry (key : String) (x : Json) : Json → Prop where
  | here {d} :
    (key, x) ∈ d →
    Entry key x (.dict d)
  | item {xs y} :
    y ∈ xs →
    Entry key x y →
    Entry key x (.list xs)
  | value {d k y} :
    (k, y) ∈ d →
    Entry key x y →
    Entry key x (.dict d)

mutual

/-- The values have the same shape, keys, order and scalars, but for what stands under hidden keys. -/
inductive AgreeJson (hidden : String → Prop) : Json → Json → Prop where
  | refl {x} :
    AgreeJson hidden x x
  | list {xs ys} :
    AgreeItems hidden xs ys →
    AgreeJson hidden (.list xs) (.list ys)
  | dict {d d'} :
    AgreeEntries hidden d d' →
    AgreeJson hidden (.dict d) (.dict d')

inductive AgreeItems (hidden : String → Prop) : List Json → List Json → Prop where
  | nil :
    AgreeItems hidden [] []
  | cons {x y xs ys} :
    AgreeJson hidden x y →
    AgreeItems hidden xs ys →
    AgreeItems hidden (x :: xs) (y :: ys)

inductive AgreeEntries (hidden : String → Prop) :
    List (String × Json) → List (String × Json) → Prop where
  | nil :
    AgreeEntries hidden [] []
  | hidden {key x y d d'} :
    hidden key →
    AgreeEntries hidden d d' →
    AgreeEntries hidden ((key, x) :: d) ((key, y) :: d')
  | shown {key x y d d'} :
    AgreeJson hidden x y →
    AgreeEntries hidden d d' →
    AgreeEntries hidden ((key, x) :: d) ((key, y) :: d')

end

variable {text : Text} {fields : List String} {key : String} {x y v v' : Json}
  {xs ys : List Json} {d d' : List (String × Json)}

/-- The key of personal data is found by the code. -/
lemma isPii_iff : isPii text fields key ↔ PiiKey text fields key := by
  rw [isPii, List.contains_iff_mem, List.mem_map]
  exact exists_congr fun _ => and_congr_right fun _ => eq_comm

lemma mem_redactItems (h : y ∈ redactItems text fields xs) :
    ∃ x ∈ xs, y = redactPii text fields x := by
  induction xs with
  | nil => cases h
  | cons x xs ih =>
    rcases List.mem_cons.1 h with rfl | h
    · exact ⟨x, List.mem_cons_self, rfl⟩
    · obtain ⟨x, mem, e⟩ := ih h
      exact ⟨x, List.mem_cons_of_mem _ mem, e⟩

/-- An entry of a redacted object has its key in the object, and stands for the mark or for what the
redaction made of a value. -/
lemma mem_redactEntries (h : (key, y) ∈ redactEntries text fields d) :
    ∃ x, (key, x) ∈ d ∧
      y = if isPii text fields key then .str REDACTED else redactPii text fields x := by
  induction d with
  | nil => cases h
  | cons e d ih =>
    obtain ⟨k, x⟩ := e
    rcases List.mem_cons.1 h with h | h
    · cases h
      exact ⟨x, List.mem_cons_self, rfl⟩
    · obtain ⟨x, mem, e⟩ := ih h
      exact ⟨x, List.mem_cons_of_mem _ mem, e⟩

/-- Under the key of a PII field a redacted value has the mark, at any depth. -/
lemma redacted_of_entry (h : Entry key x (redactPii text fields v)) (pii : isPii text fields key) :
    x = .str REDACTED := by
  generalize e : redactPii text fields v = r at h
  induction h generalizing v with
  | here mem =>
    cases v with
    | dict d =>
      cases e
      obtain ⟨_, _, rfl⟩ := mem_redactEntries mem
      exact if_pos pii
    | _ => cases e
  | item mem _ ih =>
    cases v with
    | list xs =>
      cases e
      obtain ⟨_, _, rfl⟩ := mem_redactItems mem
      exact ih rfl
    | _ => cases e
  | @value _ k _ mem inner ih =>
    cases v with
    | dict d =>
      cases e
      obtain ⟨_, _, rfl⟩ := mem_redactEntries mem
      by_cases hidden : isPii text fields k
      · rw [if_pos hidden] at inner
        cases inner
      · rw [if_neg hidden] at ih
        exact ih rfl
    | _ => cases e

mutual

/-- Values that agree are redacted alike. -/
theorem redactPii_congr : ∀ {v v'}, AgreeJson (PiiKey text fields) v v' →
    redactPii text fields v = redactPii text fields v'
  | _, _, .refl => rfl
  | _, _, .list h => by rw [redactPii, redactPii, redactItems_congr h]
  | _, _, .dict h => by rw [redactPii, redactPii, redactEntries_congr h]

/-- Lists that agree are redacted to the same. -/
theorem redactItems_congr : ∀ {xs ys}, AgreeItems (PiiKey text fields) xs ys →
    redactItems text fields xs = redactItems text fields ys
  | _, _, .nil => rfl
  | _, _, .cons h hs => by rw [redactItems, redactItems, redactPii_congr h, redactItems_congr hs]

theorem redactEntries_congr : ∀ {d d'}, AgreeEntries (PiiKey text fields) d d' →
    redactEntries text fields d = redactEntries text fields d'
  | _, _, .nil => rfl
  | _, _, .hidden pii hs => by
    have pii := isPii_iff.2 pii
    rw [redactEntries, redactEntries, if_pos pii, if_pos pii, redactEntries_congr hs]
  | _, _, .shown h hs => by
    rw [redactEntries, redactEntries, redactPii_congr h, redactEntries_congr hs]

end

mutual

/-- Values that are redacted alike agree. -/
theorem agree_of_redactPii : ∀ v v', redactPii text fields v = redactPii text fields v' →
    AgreeJson (PiiKey text fields) v v'
  | .dict d, v', h => by
    cases v' with
    | dict d' => exact .dict (agreeEntries_of_redactEntries d d' (Json.dict.inj h))
    | _ => cases h
  | .list xs, v', h => by
    cases v' with
    | list ys => exact .list (agreeItems_of_redactItems xs ys (Json.list.inj h))
    | _ => cases h
  | .null, v', h => by cases v' <;> cases h; exact .refl
  | .bool b, v', h => by cases v' <;> cases h; exact .refl
  | .int n, v', h => by cases v' <;> cases h; exact .refl
  | .float q, v', h => by cases v' <;> cases h; exact .refl
  | .nonFinite x, v', h => by cases v' <;> cases h; exact .refl
  | .str s, v', h => by cases v' <;> cases h; exact .refl

/-- Lists that are redacted to the same agree. -/
theorem agreeItems_of_redactItems : ∀ xs ys,
    redactItems text fields xs = redactItems text fields ys →
    AgreeItems (PiiKey text fields) xs ys
  | [], [], _ => .nil
  | [], _ :: _, h => nomatch h
  | _ :: _, [], h => nomatch h
  | x :: xs, y :: ys, h =>
    .cons (agree_of_redactPii x y (List.cons.inj h).1)
      (agreeItems_of_redactItems xs ys (List.cons.inj h).2)

theorem agreeEntries_of_redactEntries : ∀ d d',
    redactEntries text fields d = redactEntries text fields d' →
    AgreeEntries (PiiKey text fields) d d'
  | [], [], _ => .nil
  | [], _ :: _, h => nomatch h
  | _ :: _, [], h => nomatch h
  | (k, x) :: d, (k', y) :: d', h => by
    obtain ⟨head, tail⟩ := List.cons.inj h
    obtain ⟨rfl, value⟩ := Prod.mk.inj head
    have rest := agreeEntries_of_redactEntries d d' tail
    by_cases pii : isPii text fields k
    · exact .hidden (isPii_iff.1 pii) rest
    · rw [if_neg pii, if_neg pii] at value
      exact .shown (agree_of_redactPii x y value) rest

end

mutual

/-- A value agrees with its redaction. -/
theorem agree_redactPii : ∀ v, AgreeJson (PiiKey text fields) v (redactPii text fields v)
  | .dict d => .dict (agreeEntries_redactEntries d)
  | .list xs => .list (agreeItems_redactItems xs)
  | .null | .bool _ | .int _ | .float _ | .nonFinite _ | .str _ => .refl

theorem agreeItems_redactItems : ∀ xs,
    AgreeItems (PiiKey text fields) xs (redactItems text fields xs)
  | [] => .nil
  | x :: xs => .cons (agree_redactPii x) (agreeItems_redactItems xs)

theorem agreeEntries_redactEntries : ∀ d,
    AgreeEntries (PiiKey text fields) d (redactEntries text fields d)
  | [] => .nil
  | (k, x) :: d => by
    rw [redactEntries]
    by_cases pii : isPii text fields k
    · rw [if_pos pii]
      exact .hidden (isPii_iff.1 pii) (agreeEntries_redactEntries d)
    · rw [if_neg pii]
      exact .shown (agree_redactPii x) (agreeEntries_redactEntries d)

end

/-- Redaction puts the mark under every key of a PII field, takes exactly those values to the same one
that differ only in what stands under such keys, changes nothing else, and leaves a redacted value as
it is. -/
theorem redaction_complete (text : Text) (fields : List String) (v : Json) :
    (∀ key x, Entry key x (redactPii text fields v) → PiiKey text fields key → x = .str REDACTED) ∧
      (∀ v', redactPii text fields v = redactPii text fields v' ↔ AgreeJson (PiiKey text fields) v v') ∧
      AgreeJson (PiiKey text fields) v (redactPii text fields v) ∧
      redactPii text fields (redactPii text fields v) = redactPii text fields v :=
  ⟨fun _ _ h pii => redacted_of_entry h (isPii_iff.2 pii),
    fun v' => ⟨agree_of_redactPii v v', redactPii_congr⟩,
    agree_redactPii v, (redactPii_congr (agree_redactPii v)).symm⟩

example : redactPii .plain piiLogFields (.dict [("interaction_id", .str "i1"),
    ("calls", .list [.dict [("phone", .str "+919876543210"), ("turns", .int 4)]])]) =
    .dict [("interaction_id", .str "i1"),
      ("calls", .list [.dict [("phone", .str REDACTED), ("turns", .int 4)]])] := by rfl

end PostCall.Properties

import PostCall.Library.Occurrence
import PostCall.Model.Classifier

/-!
# Phrases and the words in them

The classifier looks for the keywords of high value first, as substrings. One phrase of low value,
"already booked", has a word of high value in it, and a call with that phrase is taken for one of high
value. No other phrase of low value has a keyword in it.
-/

namespace PostCall.Properties
open PostCall.Library PostCall.Python PostCall.Model

variable {text : Text} {turns : List Json} {transcriptText : Json} {additionalData : Dict}
  {combined keyword : String}

/-- The text that the classifier looks at. -/
def combinedText (text : Text) (transcriptText : Json) (additionalData : Dict) : String :=
  text.lower (text.str transcriptText ++ " " ++
    text.lower (text.str (orElse (additionalData.get? "disposition") (.str ""))))

/-- A keyword stands in a text at a position. -/
abbrev StandsAt (keyword combined : String) (i : ℕ) : Prop :=
  OccursAt keyword.toList combined.toList i

/-- Every occurrence of a keyword of high or medium value lies inside one of low value. -/
def Enclosed (combined : String) : Prop :=
  ∀ keyword ∈ highKeywords ++ mediumKeywords, ∀ i, StandsAt keyword combined i →
    ∃ phrase ∈ lowKeywords, ∃ j, StandsAt phrase combined j ∧
      Inside keyword.toList i phrase.toList j

/-- A keyword is contained where its characters stand in a row. -/
lemma contains_iff : contains combined keyword ↔ keyword.toList <:+: combined.toList := by
  simp only [contains, List.any_eq_true, List.mem_tails, List.isPrefixOf_iff_prefix,
    List.infix_iff_prefix_suffix]
  exact exists_congr fun _ => and_comm

/-- Any is contained where one of them is. -/
lemma containsAny_iff {keywords : List String} :
    containsAny combined keywords ↔ ∃ keyword ∈ keywords, contains combined keyword := by
  rw [containsAny, List.any_eq_true]

/-- Only one phrase of low value has a keyword of high or medium value in it. -/
lemma eq_alreadyBooked {phrase : String} (high : keyword ∈ highKeywords ++ mediumKeywords)
    (low : phrase ∈ lowKeywords) (part : keyword.toList <:+: phrase.toList) :
    phrase = "already booked" := by
  have all : ∀ keyword ∈ highKeywords ++ mediumKeywords, ∀ phrase ∈ lowKeywords,
      contains phrase keyword → phrase = "already booked" := by decide +kernel
  exact all keyword high phrase low (contains_iff.2 part)

/-- Where every keyword of high or medium value is enclosed, there is one only if the phrase with one in
it is there. -/
lemma containsAny_iff_alreadyBooked (enclosed : Enclosed combined) :
    containsAny combined (highKeywords ++ mediumKeywords) ↔ contains combined "already booked" := by
  rw [containsAny_iff]
  constructor
  · rintro ⟨keyword, high, there⟩
    obtain ⟨i, stands⟩ := infix_iff_occursAt.1 (contains_iff.1 there)
    obtain ⟨phrase, low, j, stands', inside⟩ := enclosed keyword high i stands
    rw [← eq_alreadyBooked high low (infix_of_inside stands stands' inside), contains_iff]
    exact infix_iff_occursAt.2 ⟨j, stands'⟩
  · intro there
    refine ⟨"booked", by decide, contains_iff.2 ?_⟩
    have part : contains "already booked" "booked" := by decide +kernel
    exact (contains_iff.1 part).trans (contains_iff.1 there)

/-- When the classifier gives a call of four turns or more a low priority. -/
lemma low_of_long (long : 4 ≤ turns.length) :
    ∃ c, classify text turns transcriptText (.dict additionalData) = .ok c ∧
      (c.priority = .low ↔
        ¬ containsAny (combinedText text transcriptText additionalData) highKeywords ∧
        ¬ containsAny (combinedText text transcriptText additionalData) mediumKeywords ∧
        containsAny (combinedText text transcriptText additionalData) lowKeywords) := by
  unfold classify
  rw [if_neg (Nat.not_lt.2 long)]
  simp only [Json.asDict, bind, Except.bind]
  rw [← combinedText]
  split
  case isTrue high => exact ⟨_, rfl, by simp [high]⟩
  case isFalse high =>
    split
    case isTrue medium => exact ⟨_, rfl, by simp [medium]⟩
    case isFalse medium =>
      split
      case isTrue low => exact ⟨_, rfl, by simp [high, medium, low]⟩
      case isFalse low => exact ⟨_, rfl, by simp [low]⟩

/-- Of two lists, where it is one of either. -/
lemma containsAny_append {keywords keywords' : List String} :
    containsAny combined (keywords ++ keywords') ↔
      containsAny combined keywords ∨ containsAny combined keywords' := by
  rw [containsAny, List.any_append, Bool.or_eq_true]
  rfl

/-- In a call of four turns or more with a phrase of low value, in which every keyword of high or medium
value lies inside such a phrase, the priority is low exactly if the phrase "already booked" is not
there. -/
theorem low_iff_not_alreadyBooked (long : 4 ≤ turns.length)
    (low : containsAny (combinedText text transcriptText additionalData) lowKeywords)
    (enclosed : Enclosed (combinedText text transcriptText additionalData)) :
    ∃ c, classify text turns transcriptText (.dict additionalData) = .ok c ∧
      (c.priority = .low ↔
        ¬ contains (combinedText text transcriptText additionalData) "already booked") := by
  obtain ⟨c, classified, priority⟩ := @low_of_long text turns transcriptText additionalData long
  refine ⟨c, classified, priority.trans ?_⟩
  rw [← containsAny_iff_alreadyBooked enclosed, containsAny_append, not_or]
  exact and_congr_right fun _ => and_iff_left low

/-- Four turns of a call. -/
def turnsOf (contents : List String) : List Json :=
  contents.map fun content => .dict [("role", .str "customer"), ("content", .str content)]

/-- A text in which no keyword of high or medium value stands but inside a phrase that it begins with. -/
lemma enclosed_of_phrase (phrase : String) (low : phrase ∈ lowKeywords)
    (first : phrase.toList <+: combined.toList)
    (inside : ∀ keyword ∈ highKeywords ++ mediumKeywords, ∀ i < combined.toList.length,
      StandsAt keyword combined i → i + keyword.toList.length ≤ phrase.toList.length) :
    Enclosed combined := by
  intro keyword high i stands
  have nonempty : ∀ keyword ∈ highKeywords ++ mediumKeywords, keyword.toList ≠ [] := by decide +kernel
  have fits := inside keyword high i (stands.lt_length (nonempty keyword high)) stands
  exact ⟨phrase, low, 0, first, Nat.zero_le i, by rwa [Nat.zero_add]⟩

theorem low_iff_not_alreadyBooked_plain :
    ∃ c, classify .plain (turnsOf ["", "", "", ""]) (.str "wrong number, sorry") (.dict []) = .ok c ∧
      c.priority = .low := by
  have combined : combinedText .plain (.str "wrong number, sorry") [] = "wrong number, sorry " := by
    decide +kernel
  have enclosed : Enclosed "wrong number, sorry " :=
    enclosed_of_phrase "wrong number" (by decide) (by decide +kernel) (by decide +kernel)
  obtain ⟨c, classified, priority⟩ := @low_iff_not_alreadyBooked .plain (turnsOf ["", "", "", ""])
    (.str "wrong number, sorry") [] (by decide) (combined ▸ by decide +kernel) (combined ▸ enclosed)
  exact ⟨c, classified, priority.2 (combined ▸ by decide +kernel)⟩

/-- The phrase "already booked" is of low value, and its call gets a high priority. -/
theorem not_low : ¬ ∀ (text : Text) (turns : List Json) (transcriptText : String)
    (additionalData : Dict) (c : Classification), 4 ≤ turns.length →
    containsAny (combinedText text (.str transcriptText) additionalData) lowKeywords →
    Enclosed (combinedText text (.str transcriptText) additionalData) →
    classify text turns (.str transcriptText) (.dict additionalData) = .ok c → c.priority = .low := by
  intro h
  have combined : combinedText .plain (.str "already booked it") [] = "already booked it " := by
    decide +kernel
  have enclosed : Enclosed "already booked it " :=
    enclosed_of_phrase "already booked" (by decide) (by decide +kernel) (by decide +kernel)
  have low := h .plain (turnsOf ["", "", "", ""]) "already booked it" []
    ⟨false, .high, "needs_analysis", "high_value_keyword"⟩ (by decide) (combined ▸ by decide +kernel)
    (combined ▸ enclosed) (by rfl)
  cases low

end PostCall.Properties

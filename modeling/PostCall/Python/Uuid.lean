import PostCall.Python.Json

/-!
# UUIDs

`uuid.UUID`: a 128-bit value, its canonical text, and the texts its constructor reads. The canonical
text has fixed length, no colon, and determines the value; a text the constructor reads holds only
the characters of hexadecimal digits, separators and prefixes.
-/

namespace PostCall.Python

/-- A 128-bit identifier. -/
structure UUID where
  val : Fin (2 ^ 128)
  deriving DecidableEq

namespace UUID

instance (n : ℕ) : OfNat UUID n := ⟨⟨Fin.ofNat _ n⟩⟩

instance : Inhabited UUID := ⟨0⟩

/-- The lower-case hexadecimal digit of a value below sixteen. -/
def hexDigit (n : ℕ) : Char := if n < 10 then Char.ofNat (48 + n) else Char.ofNat (87 + n)

/-- The last `w` hexadecimal digits of a number. -/
def hexDigits : ℕ → ℕ → List Char
  | 0, _ => []
  | w + 1, n => hexDigits w (n / 16) ++ [hexDigit (n % 16)]

/-- `uuid.hex`. -/
def hex (id : UUID) : List Char := hexDigits 32 id.val

/-- The characters of `str(uuid)`. -/
def chars (id : UUID) : List Char :=
  id.hex.take 8 ++ '-' :: ((id.hex.drop 8).take 4 ++ '-' :: ((id.hex.drop 12).take 4 ++
    '-' :: ((id.hex.drop 16).take 4 ++ '-' :: id.hex.drop 20)))

/-- `str(uuid)`. -/
def str (id : UUID) : String := String.ofList id.chars

/-- `text.replace(pat, "")`, where `skip` characters of an occurrence are still to be dropped. -/
def removeAll (pat : List Char) : ℕ → List Char → List Char
  | _, [] => []
  | skip + 1, _ :: l => removeAll pat skip l
  | 0, c :: l =>
    if pat.isPrefixOf (c :: l) then removeAll pat (pat.length - 1) l
    else c :: removeAll pat 0 l

/-- The digits the constructor looks for: the text without prefixes, braces and dashes. -/
def bareHex (s : String) : List Char :=
  let hex := removeAll "uuid:".toList 0 (removeAll "urn:".toList 0 s.toList)
  (strip (fun c => c = '{' || c = '}') hex).filter (· ≠ '-')

/-- `UUID(text)`. -/
def ofString (s : String) : Except PyError UUID :=
  if (bareHex s).length ≠ 32 then .error (.valueError "badly formed hexadecimal UUID string")
  else
    match parseInt? 16 (bareHex s) with
    | none => .error (.valueError "invalid literal for int() with base 16")
    | some n =>
      if n < 0 ∨ 2 ^ 128 ≤ n then .error (.valueError "int is out of range (need a 128-bit value)")
      else .ok ⟨Fin.ofNat _ n.toNat⟩

example : ofString "urn:uuid:00000000-0000-0000-0000-00000000002A" = .ok 42 := by decide

/-! ### The canonical text -/

lemma hexDigit_ne : ∀ n < 16, hexDigit n ≠ '-' ∧ hexDigit n ≠ ':' := by decide

lemma hexDigit_ne_zero : ∀ n < 16, hexDigit n ≠ Char.ofNat 0 := by decide

lemma hexDigit_inj : ∀ m < 16, ∀ n < 16, hexDigit m = hexDigit n → m = n := by decide

/-- No separator is among the digits of a number. -/
lemma mem_hexDigits {w n : ℕ} {c : Char} (h : c ∈ hexDigits w n) : c ≠ '-' ∧ c ≠ ':' := by
  induction w generalizing n with
  | zero => cases h
  | succ w ih =>
    rcases List.mem_append.1 h with h | h
    · exact ih h
    · rw [List.mem_singleton.1 h]
      exact hexDigit_ne _ (Nat.mod_lt _ (by decide))

/-- A number is written with as many digits as are asked for. -/
@[simp] lemma length_hexDigits {w n : ℕ} : (hexDigits w n).length = w := by
  induction w generalizing n with
  | zero => rfl
  | succ w ih => simp [hexDigits, ih]

/-- Numbers of that many digits are told apart by them. -/
lemma hexDigits_inj {w m n : ℕ} (hm : m < 16 ^ w) (hn : n < 16 ^ w)
    (e : hexDigits w m = hexDigits w n) : m = n := by
  induction w generalizing m n with
  | zero => simp at hm hn; omega
  | succ w ih =>
    obtain ⟨high, low⟩ := List.append_inj' e rfl
    have low := hexDigit_inj _ (Nat.mod_lt m (by decide)) _ (Nat.mod_lt n (by decide))
      (List.singleton_inj.1 low)
    have high := ih (Nat.div_lt_of_lt_mul (by rw [← Nat.pow_succ']; exact hm))
      (Nat.div_lt_of_lt_mul (by rw [← Nat.pow_succ']; exact hn)) high
    omega

@[simp] lemma length_chars {id : UUID} : id.chars.length = 36 := by
  simp [chars, hex]

lemma filter_chars {id : UUID} : id.chars.filter (· ≠ '-') = id.hex := by
  have keep : ∀ l : List Char, (∀ c ∈ l, c ∈ id.hex) → l.filter (· ≠ '-') = l := by
    intro l h
    exact List.filter_eq_self.2 fun c hc => by simpa using (mem_hexDigits (h c hc)).1
  have sub : ∀ i j : ℕ, ∀ c ∈ (id.hex.drop i).take j, c ∈ id.hex :=
    fun i j c hc => List.mem_of_mem_drop (List.mem_of_mem_take hc)
  simp only [chars, List.filter_append, List.filter_cons, ne_eq, not_true_eq_false, decide_false,
    Bool.false_eq_true, if_false]
  rw [keep _ fun c hc => List.mem_of_mem_take hc, keep _ (sub 8 4), keep _ (sub 12 4),
    keep _ (sub 16 4), keep _ fun c hc => List.mem_of_mem_drop hc]
  have split : ∀ i j : ℕ, (id.hex.drop i).take j ++ id.hex.drop (i + j) = id.hex.drop i := by
    intro i j
    rw [← List.drop_drop, List.take_append_drop]
  rw [split 16 4, split 12 4, split 8 4, List.take_append_drop]

/-- The canonical text determines the value. -/
lemma chars_inj {a b : UUID} (e : a.chars = b.chars) : a = b := by
  have e : a.hex = b.hex := by rw [← filter_chars, e, filter_chars]
  obtain ⟨⟨m, hm⟩⟩ := a
  obtain ⟨⟨n, hn⟩⟩ := b
  have bound : (2 : ℕ) ^ 128 = 16 ^ 32 := by norm_num
  have e : m = n := hexDigits_inj (bound ▸ hm) (bound ▸ hn) e
  subst e
  rfl

/-- The canonical text has no colon. -/
lemma colon_notMem_chars {id : UUID} : ':' ∉ id.chars := by
  have sub : ∀ c ∈ id.hex, c ≠ ':' := fun c hc => (mem_hexDigits hc).2
  simp only [chars, List.mem_append, List.mem_cons, not_or]
  refine ⟨?_, by decide, ?_, by decide, ?_, by decide, ?_, by decide, ?_⟩
  · exact fun h => sub _ (List.mem_of_mem_take h) rfl
  · exact fun h => sub _ (List.mem_of_mem_drop (List.mem_of_mem_take h)) rfl
  · exact fun h => sub _ (List.mem_of_mem_drop (List.mem_of_mem_take h)) rfl
  · exact fun h => sub _ (List.mem_of_mem_drop (List.mem_of_mem_take h)) rfl
  · exact fun h => sub _ (List.mem_of_mem_drop h) rfl

/-! ### Reading the canonical text -/

lemma digit?_hexDigit : ∀ d < 16, digit? 16 (hexDigit d) = some d := by decide

/-- No digit is a character that the constructor removes. -/
lemma hexDigit_plain : ∀ d < 16, hexDigit d ∉ "-+_xXur{}".toList ∧ isSpace (hexDigit d) = false ∧
    (hexDigit d).toNat < 128 := by decide

/-- A character of the digits is one of the sixteen. -/
lemma eq_hexDigit {w n : ℕ} {c : Char} (h : c ∈ hexDigits w n) : ∃ d < 16, c = hexDigit d := by
  induction w generalizing n with
  | zero => cases h
  | succ w ih =>
    rcases List.mem_append.1 h with h | h
    · exact ih h
    · exact ⟨n % 16, Nat.mod_lt _ (by decide), List.mem_singleton.1 h⟩

/-- The digits of a number, and that they are read as its last ones. -/
lemma hexDigits_eq_map {w n : ℕ} : ∃ ds : List ℕ, hexDigits w n = ds.map hexDigit ∧
    (∀ d ∈ ds, d < 16) ∧ ds.foldl (fun m d => m * 16 + d) 0 = n % 16 ^ w := by
  induction w generalizing n with
  | zero => exact ⟨[], rfl, fun _ h => (nomatch h), by simp [Nat.mod_one]⟩
  | succ w ih =>
    obtain ⟨ds, digits, small, value⟩ := @ih (n / 16)
    refine ⟨ds ++ [n % 16], ?_, ?_, ?_⟩
    · simp [hexDigits, digits]
    · intro d hd
      rcases List.mem_append.1 hd with hd | hd
      · exact small d hd
      · rw [List.mem_singleton.1 hd]
        exact Nat.mod_lt _ (by decide)
    · rw [List.foldl_append, value, Nat.pow_succ', Nat.mod_mul]
      simp only [List.foldl_cons, List.foldl_nil]
      omega

lemma digits?_map {ds : List ℕ} (small : ∀ d ∈ ds, d < 16) (ne : ds ≠ []) :
    digits? 16 (ds.map hexDigit) = some ds := by
  induction ds with
  | nil => exact absurd rfl ne
  | cons d ds ih =>
    have hd := digit?_hexDigit d (small d List.mem_cons_self)
    cases ds with
    | nil => simp [digits?, hd]
    | cons e ds =>
      have rest := ih (fun d hd => small d (List.mem_cons_of_mem _ hd)) (List.cons_ne_nil _ _)
      have plain : hexDigit e ≠ '_' := fun h => (hexDigit_plain e (small e (by simp))).1 (by simp [h])
      rw [List.map_cons, List.map_cons, digits?.eq_4 _ _ _ (by simp) fun _ h => plain
        (List.cons.inj h).1, hd, ← List.map_cons, rest]
      rfl

/-- Nothing is stripped where there is nothing to strip. -/
lemma strip_eq_self {p : Char → Bool} {l : List Char} (h : ∀ c ∈ l, p c = false) :
    strip p l = l := by
  have keep : ∀ l : List Char, (∀ c ∈ l, p c = false) → l.dropWhile p = l := by
    intro l h
    cases l with
    | nil => rfl
    | cons c l => rw [List.dropWhile_cons_of_neg (by simp [h c List.mem_cons_self])]
  rw [strip, keep l h, keep _ fun c hc => h c (List.mem_reverse.1 hc), List.reverse_reverse]

lemma removeAll_eq_self {p : Char} {ps l : List Char} (h : p ∉ l) :
    removeAll (p :: ps) 0 l = l := by
  induction l with
  | nil => rfl
  | cons c l ih =>
    simp only [List.mem_cons, not_or] at h
    have other : (p :: ps).isPrefixOf (c :: l) = false := by simp [List.isPrefixOf, h.1]
    simp [removeAll, other, ih h.2]

lemma dropHexPrefix_eq_self {l : List Char} (h : 'x' ∉ l ∧ 'X' ∉ l) : dropHexPrefix l = l := by
  unfold dropHexPrefix
  split <;> simp_all

/-- The digits of a number are read as the number. -/
lemma parseInt?_hexDigits {w n : ℕ} (pos : w ≠ 0) :
    parseInt? 16 (hexDigits w n) = some ((n % 16 ^ w : ℕ) : ℤ) := by
  have absent : ∀ c ∈ "-+_xXur{}".toList, c ∉ hexDigits w n := by
    intro c hc mem
    obtain ⟨d, lt, rfl⟩ := eq_hexDigit mem
    exact (hexDigit_plain d lt).1 hc
  have solid : ∀ c ∈ hexDigits w n, isIntSpace c = false := by
    intro c mem
    obtain ⟨d, lt, rfl⟩ := eq_hexDigit mem
    exact isIntSpace_of_isSpace (hexDigit_plain d lt).2.1
  obtain ⟨ds, digits, small, value⟩ := @hexDigits_eq_map w n
  have ne : ds ≠ [] := by
    rintro rfl
    have length := congrArg List.length digits
    simp at length
    exact pos length
  have read : magnitude? 16 (hexDigits w n) = some (n % 16 ^ w) := by
    rw [magnitude?, if_pos rfl, dropHexPrefix_eq_self ⟨absent _ (by decide), absent _ (by decide)⟩,
      digits, digits?_map small ne]
    simp [value]
  unfold parseInt?
  rw [strip_eq_self solid]
  split
  case h_1 e => exact absurd (e ▸ List.mem_cons_self) (absent '+' (by decide))
  case h_2 e => exact absurd (e ▸ List.mem_cons_self) (absent '-' (by decide))
  case h_3 =>
    rw [read]
    rfl

/-- The canonical text has no character that the constructor removes, but its hyphens. -/
lemma chars_plain {id : UUID} {c : Char} (h : c ∈ id.chars) (ne : c ≠ '-') :
    c ∉ "-+_xXur{}".toList := by
  have mem : c ∈ id.hex := by
    rw [← filter_chars]
    exact List.mem_filter.2 ⟨h, by simpa using ne⟩
  obtain ⟨d, lt, rfl⟩ := eq_hexDigit mem
  exact (hexDigit_plain d lt).1

/-- A text column takes the canonical text. -/
lemma storableText_str {id : UUID} : Json.storableText id.str := by
  have text : id.str.toList = id.chars := String.toList_ofList
  rw [Json.storableText, text, List.all_eq_true]
  intro c mem
  rw [decide_eq_true_eq]
  rintro rfl
  have digit : Char.ofNat 0 ∈ id.hex := by
    rw [← filter_chars]
    exact List.mem_filter.2 ⟨mem, by decide⟩
  obtain ⟨d, lt, e⟩ := eq_hexDigit digit
  exact hexDigit_ne_zero d lt e.symm

/-- The constructor reads the canonical text as the value. -/
lemma ofString_str {id : UUID} : ofString id.str = .ok id := by
  have absent : ∀ c : Char, c ≠ '-' → c ∈ "-+_xXur{}".toList → c ∉ id.chars :=
    fun _ ne bad mem => chars_plain mem ne bad
  have bare : bareHex id.str = id.hex := by
    have urn : removeAll "urn:".toList 0 id.chars = id.chars :=
      removeAll_eq_self (absent 'u' (by decide) (by decide))
    have uuid : removeAll "uuid:".toList 0 id.chars = id.chars :=
      removeAll_eq_self (absent 'u' (by decide) (by decide))
    have text : id.str.toList = id.chars := String.toList_ofList
    have solid : ∀ c ∈ id.chars, decide (c = '{' ∨ c = '}') = false := by
      intro c hc
      refine decide_eq_false ?_
      rintro (rfl | rfl)
      · exact absent '{' (by decide) (by decide) hc
      · exact absent '}' (by decide) (by decide) hc
    unfold bareHex
    rw [text, urn, uuid]
    exact (congrArg (List.filter (· ≠ '-')) (strip_eq_self (by simpa using solid))).trans
      filter_chars
  obtain ⟨⟨n, lt⟩⟩ := id
  have small : n % 16 ^ 32 = n := Nat.mod_eq_of_lt (by omega)
  have length : ¬ (bareHex (str ⟨⟨n, lt⟩⟩)).length ≠ 32 := by rw [bare]; simp [hex]
  have range : ¬ ((n : ℤ) < 0 ∨ 2 ^ 128 ≤ (n : ℤ)) := by omega
  rw [ofString, if_neg length, bare, hex, parseInt?_hexDigits (by decide)]
  simp only [small, if_neg range, Int.toNat_natCast]
  exact congrArg (fun v => Except.ok (UUID.mk v)) (Fin.ext (Nat.mod_eq_of_lt lt))

/-! ### The texts the constructor reads -/

/-- A character that a pattern does not hold survives the removal of the pattern. -/
lemma mem_removeAll {pat l : List Char} {c : Char} {skip : ℕ} (hc : c ∉ pat) (ne : pat ≠ [])
    (le : skip ≤ pat.length) (pre : pat.drop (pat.length - skip) <+: l) (h : c ∈ l) :
    c ∈ removeAll pat skip l := by
  induction l generalizing skip with
  | nil => cases h
  | cons d l ih =>
    cases skip with
    | succ skip =>
      -- the head of the list is the next character of the occurrence
      have lt : pat.length - (skip + 1) < pat.length := by omega
      rw [List.drop_eq_getElem_cons lt, List.cons_prefix_cons] at pre
      have ne' : c ≠ d := fun e => hc (by rw [e, ← pre.1]; exact List.getElem_mem lt)
      have e : pat.length - (skip + 1) + 1 = pat.length - skip := by omega
      exact ih (by omega) (e ▸ pre.2) ((List.mem_cons.1 h).resolve_left ne')
    | zero =>
      unfold removeAll
      split
      case isTrue occurs =>
        obtain ⟨p, ps, rfl⟩ := List.exists_cons_of_ne_nil ne
        have occurs := List.isPrefixOf_iff_prefix.1 occurs
        rw [List.cons_prefix_cons] at occurs
        have ne' : c ≠ d := fun e => hc (by rw [e, ← occurs.1]; exact List.mem_cons_self)
        exact ih (by simp) (by simpa using occurs.2) ((List.mem_cons.1 h).resolve_left ne')
      case isFalse =>
        rcases List.mem_cons.1 h with rfl | h
        · exact List.mem_cons_self
        · exact List.mem_cons_of_mem _ (ih (Nat.zero_le _) (by simp) h)

lemma mem_strip {p : Char → Bool} {l : List Char} {c : Char} (hc : p c = false) (h : c ∈ l) :
    c ∈ strip p l := by
  have keep : ∀ l : List Char, c ∈ l → c ∈ l.dropWhile p := by
    intro l h
    rw [← List.takeWhile_append_dropWhile (p := p) (l := l), List.mem_append] at h
    rcases h with h | h
    · exact absurd (List.all_takeWhile (p := p) |> List.all_eq_true.1 |> (· c h)) (by simp [hc])
    · exact h
  exact List.mem_reverse.2 (keep _ (List.mem_reverse.2 (keep _ h)))

/-- A text that is read has digits and underscores only. -/
lemma mem_digits? {base : ℕ} {l : List Char} {ds : List ℕ} {c : Char}
    (e : digits? base l = some ds) (h : c ∈ l) : c = '_' ∨ (digit? base c).isSome := by
  induction l using digits?.induct generalizing ds with
  | case1 => cases h
  | case2 d =>
    rw [List.mem_singleton.1 h]
    right
    cases hd : digit? base d with
    | none => simp [digits?, hd] at e
    | some _ => rfl
  | case3 d l ih =>
    simp only [digits?, Option.bind_eq_some_iff, Option.map_eq_some_iff] at e
    obtain ⟨_, hd, _, hds, _⟩ := e
    rcases List.mem_cons.1 h with rfl | h
    · exact .inr (by simp [hd])
    rcases List.mem_cons.1 h with rfl | h
    · exact .inl rfl
    · exact ih hds h
  | case4 d l ne ne' ih =>
    rw [digits?.eq_4 _ _ _ ne ne'] at e
    simp only [Option.bind_eq_some_iff, Option.map_eq_some_iff] at e
    obtain ⟨_, hd, _, hds, _⟩ := e
    rcases List.mem_cons.1 h with rfl | h
    · exact .inr (by simp [hd])
    · exact ih hds h

lemma mem_dropHexPrefix {l : List Char} {c : Char} (hc : c ∉ "0xX_".toList) (h : c ∈ l) :
    c ∈ dropHexPrefix l := by
  have ne : c ≠ '0' ∧ c ≠ 'x' ∧ c ≠ 'X' ∧ c ≠ '_' := by simpa using hc
  unfold dropHexPrefix
  split <;> simp_all

/-- A character no text of a UUID holds. -/
def Unreadable (c : Char) : Prop :=
  c ∉ "urn:uuid:{}-+0xX_".toList ∧ isIntSpace c = false ∧ digit? 16 c = none

instance : DecidablePred Unreadable := fun c => by unfold Unreadable; infer_instance

/-- A number that is read has no character that cannot be read. -/
lemma notMem_of_magnitude? {l : List Char} {n : ℕ} {c : Char} (hc : Unreadable c)
    (e : magnitude? 16 l = some n) : c ∉ l := by
  intro h
  unfold magnitude? at e
  split at e
  case h_2 => cases e
  case h_1 ds hds =>
    have h := mem_dropHexPrefix (c := c) (fun h => hc.1 (by revert h; simp; tauto)) h
    rcases mem_digits? hds h with rfl | h
    · exact hc.1 (by decide)
    · simp [hc.2.2] at h

lemma notMem_of_parseInt? {l : List Char} {n : ℤ} {c : Char} (hc : Unreadable c)
    (e : parseInt? 16 l = some n) : c ∉ l := by
  intro h
  have h := mem_strip hc.2.1 h
  have signed : c ≠ '+' ∧ c ≠ '-' := by
    constructor <;> rintro rfl <;> exact hc.1 (by decide)
  unfold parseInt? at e
  split at e
  case h_1 l hl =>
    obtain ⟨_, e, _⟩ := Option.map_eq_some_iff.1 e
    rw [hl] at h
    exact notMem_of_magnitude? hc e ((List.mem_cons.1 h).resolve_left signed.1)
  case h_2 l hl =>
    obtain ⟨_, e, _⟩ := Option.map_eq_some_iff.1 e
    rw [hl] at h
    exact notMem_of_magnitude? hc e ((List.mem_cons.1 h).resolve_left signed.2)
  case h_3 =>
    obtain ⟨_, e, _⟩ := Option.map_eq_some_iff.1 e
    exact notMem_of_magnitude? hc e h

lemma mem_bareHex {s : String} {c : Char} (hc : Unreadable c) (h : c ∈ s.toList) :
    c ∈ bareHex s := by
  have urn : c ∉ "urn:".toList := fun h => hc.1 (by revert h; simp; tauto)
  have uuid : c ∉ "uuid:".toList := fun h => hc.1 (by revert h; simp; tauto)
  have brace : ¬(c = '{' ∨ c = '}') := by
    rintro (rfl | rfl) <;> exact hc.1 (by decide)
  have dash : c ≠ '-' := by
    rintro rfl
    exact hc.1 (by decide)
  have h : c ∈ removeAll "urn:".toList 0 s.toList :=
    mem_removeAll urn (by decide) (Nat.zero_le _) (by simp) h
  have h : c ∈ removeAll "uuid:".toList 0 (removeAll "urn:".toList 0 s.toList) :=
    mem_removeAll uuid (by decide) (Nat.zero_le _) (by simp) h
  exact List.mem_filter.2 ⟨mem_strip (by simpa using brace) h, by simpa using dash⟩

/-- A text the constructor reads holds no unreadable character. -/
lemma notMem_of_ofString {s : String} {id : UUID} {c : Char} (hc : Unreadable c)
    (e : ofString s = .ok id) : c ∉ s.toList := by
  intro h
  cases hn : parseInt? 16 (bareHex s) with
  | some n => exact notMem_of_parseInt? hc hn (mem_bareHex hc h)
  | none =>
    simp only [ofString, hn] at e
    split at e <;> cases e

end UUID

end PostCall.Python

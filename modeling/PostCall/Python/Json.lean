import PostCall.Python.Number

/-!
# JSON values

The values a `JSONB` column, a request body or the answer of a provider holds once they are Python
objects, with what the source does to them: truth value, `dict` access and update, attribute access
that raises on the wrong type, and `int()`. A finite `float` is its exact value; `json.loads` reads
the others as well, which no column takes. A text is one of Unicode scalar values: a lone surrogate,
which `json.loads` reads and no column takes either, is left out. The text `int()` reads follows
CPython: white space around it, a sign, decimal digits of any script, single underscores between
digits, and at most 4300 digits.
-/

namespace PostCall.Python

/-- An exception: its class name and its text. -/
structure PyError where
  className : String
  message : String
  deriving DecidableEq, Repr

namespace PyError

def attributeError (message : String) : PyError := ⟨"AttributeError", message⟩
def valueError (message : String) : PyError := ⟨"ValueError", message⟩
def typeError (message : String) : PyError := ⟨"TypeError", message⟩
def keyError (message : String) : PyError := ⟨"KeyError", message⟩

/-- A write the database refuses for its type or range. -/
def dataError (message : String) : PyError := ⟨"DBAPIError", message⟩

/-- A write that breaks a constraint. -/
def integrityError (message : String) : PyError := ⟨"IntegrityError", message⟩

/-- After a database error the session refuses further work until it is rolled back. -/
def breaksSession (e : PyError) : Bool :=
  e.className = "DBAPIError" || e.className = "IntegrityError"

end PyError

/-- The floats that are no numbers. -/
inductive NonFinite where
  | nan
  | infinity
  | negInfinity
  deriving DecidableEq, Repr

/-- A JSON value. -/
inductive Json where
  | null
  | bool (b : Bool)
  | int (n : ℤ)
  | float (q : ℚ)
  | nonFinite (x : NonFinite)
  | str (s : String)
  | list (items : List Json)
  | dict (items : List (String × Json))

/-- A JSON object: its entries in order, with distinct keys. -/
abbrev Dict := List (String × Json)

namespace Dict

/-- `d.get(key)`. -/
def get? (d : Dict) (key : String) : Option Json := d.lookup key

/-- `d.get(key, default)`. -/
def getD (d : Dict) (key : String) (default : Json) : Json := (d.get? key).getD default

/-- `d[key] = value`. -/
def set : Dict → String → Json → Dict
  | [], key, value => [(key, value)]
  | (k, v) :: d, key, value =>
    if k = key then (k, value) :: d else (k, v) :: set d key value

/-- `d.update(entries)`. -/
def update (d entries : Dict) : Dict := entries.foldl (fun d e => set d e.1 e.2) d

/-- What is found after an entry was set. -/
@[simp] lemma get?_set {d : Dict} {key k : String} {value : Json} :
    (set d key value).get? k = if k = key then some value else d.get? k := by
  simp only [get?]
  induction d with
  | nil =>
    by_cases h : k = key
    · simp [set, h]
    · have ne : (k == key) = false := by simpa using h
      simp [set, List.lookup_cons, h, ne]
  | cons e d ih =>
    obtain ⟨k', v'⟩ := e
    by_cases h : k' = key
    · subst h
      by_cases hk : k = k'
      · simp [set, hk]
      · have ne : (k == k') = false := by simpa using hk
        simp [set, List.lookup_cons, hk, ne]
    · simp only [set, if_neg h, List.lookup_cons, ih]
      by_cases hk : k = k'
      · subst hk
        simp [h]
      · have ne : (k == k') = false := by simpa using hk
        simp [ne]

/-- An update sets each key to its last value among the entries, and leaves the others. -/
lemma get?_update {d entries : Dict} {k : String} :
    (d.update entries).get? k = (get? entries.reverse k).or (d.get? k) := by
  induction entries generalizing d with
  | nil => rfl
  | cons e entries ih =>
    change (update (d.set e.1 e.2) entries).get? k = _
    rw [ih, get?_set, List.reverse_cons]
    simp only [get?, List.lookup_append]
    obtain ⟨key, value⟩ := e
    by_cases h : k = key
    · subst h
      cases List.lookup k entries.reverse <;> simp
    · have ne : (k == key) = false := by simpa using h
      cases List.lookup k entries.reverse <;> simp [List.lookup_cons, h, ne]

end Dict

namespace Json

/-- The truth value of a value in `if x`, `x or y`. -/
def truthy : Json → Bool
  | null => false
  | bool b => b
  | int n => n ≠ 0
  | float q => q ≠ 0
  | nonFinite _ => true
  | str s => s ≠ ""
  | list items => !items.isEmpty
  | dict items => !items.isEmpty

/-- `type(x).__name__`. -/
def typeName : Json → String
  | null => "NoneType"
  | bool _ => "bool"
  | int _ => "int"
  | float _ | nonFinite _ => "float"
  | str _ => "str"
  | list _ => "list"
  | dict _ => "dict"

/-- The object whose `get` is called: any other type has no such attribute. -/
def asDict : Json → Except PyError Dict
  | dict items => .ok items
  | j => .error (.attributeError s!"'{j.typeName}' object has no attribute 'get'")

/-- The number that a value equals under `==`. -/
def num? : Json → Option ℚ
  | bool b => some (if b then 1 else 0)
  | int n => some n
  | float q => some q
  | _ => none

mutual

/-- `x == y`. -/
def eq : Json → Json → Bool
  | null, null => true
  | str a, str b => a = b
  | nonFinite a, nonFinite b => a = b && a ≠ .nan
  | list xs, list ys => eqItems xs ys
  | dict xs, dict ys => xs.length = ys.length && eqEntries xs ys
  | a, b => a.num?.isSome && decide (a.num? = b.num?)

/-- Lists are equal item by item. -/
def eqItems : List Json → List Json → Bool
  | [], [] => true
  | x :: xs, y :: ys => eq x y && eqItems xs ys
  | _, _ => false

/-- Objects are equal key by key, in any order. -/
def eqEntries : List (String × Json) → List (String × Json) → Bool
  | [], _ => true
  | (key, x) :: xs, ys => (ys.lookup key).any (eq x) && eqEntries xs ys

end

/-! ### Storage -/

/-- A text column holds no U+0000. -/
def storableText (s : String) : Bool := s.toList.all (· ≠ Char.ofNat 0)

mutual

/-- A `JSONB` column takes the value: no text in it has a U+0000, and its numbers are finite. -/
def storable : Json → Bool
  | str s => storableText s
  | nonFinite _ => false
  | list items => storableItems items
  | dict items => storableEntries items
  | _ => true

/-- The column takes every item. -/
def storableItems : List Json → Bool
  | [] => true
  | x :: xs => storable x && storableItems xs

/-- The column takes every key and every value. -/
def storableEntries : List (String × Json) → Bool
  | [] => true
  | (key, x) :: xs => storableText key && storable x && storableEntries xs

end

/-- Two texts can be stored together if each can. -/
@[simp] lemma storableText_append {s t : String} :
    storableText (s ++ t) = (storableText s && storableText t) := by
  simp [storableText, String.toList_append]

/-- An object is stored entry by entry. -/
lemma storable_cons {d : Dict} {key : String} {x : Json} :
    (dict ((key, x) :: d)).storable = (storableText key && x.storable && (dict d).storable) := by
  simp only [storable, storableEntries]

/-- The column takes what is found in an object that it takes. -/
lemma storable_of_get? {d : Dict} {key : String} {x : Json} (h : (dict d).storable)
    (found : d.get? key = some x) : x.storable := by
  induction d with
  | nil => cases found
  | cons e d ih =>
    obtain ⟨k, y⟩ := e
    simp only [storable_cons, Bool.and_eq_true] at h
    simp only [Dict.get?, List.lookup_cons] at found
    split at found
    · cases found
      exact h.1.2
    · exact ih h.2 found

end Json

/-- `x or default`, where `x` is what `d.get(key)` gave. -/
def orElse (x : Option Json) (default : Json) : Json :=
  match x with
  | some j => if j.truthy then j else default
  | none => default

/-! ### `int()` -/

/-- The zeros of the scripts whose digits `int()` reads; the nine code points after a zero are the
other digits of its script. -/
def digitZeros : List ℕ := [
  0x30, 0x660, 0x6f0, 0x7c0, 0x966, 0x9e6, 0xa66, 0xae6, 0xb66, 0xbe6, 0xc66, 0xce6, 0xd66, 0xde6,
  0xe50, 0xed0, 0xf20, 0x1040, 0x1090, 0x17e0, 0x1810, 0x1946, 0x19d0, 0x1a80, 0x1a90, 0x1b50,
  0x1bb0, 0x1c40, 0x1c50, 0xa620, 0xa8d0, 0xa900, 0xa9d0, 0xa9f0, 0xaa50, 0xabf0, 0xff10, 0x104a0,
  0x10d30, 0x11066, 0x110f0, 0x11136, 0x111d0, 0x112f0, 0x11450, 0x114d0, 0x11650, 0x116c0,
  0x11730, 0x118e0, 0x11950, 0x11c50, 0x11d50, 0x11da0, 0x16a60, 0x16ac0, 0x16b50, 0x1d7ce,
  0x1d7d8, 0x1d7e2, 0x1d7ec, 0x1d7f6, 0x1e140, 0x1e2f0, 0x1e950, 0x1fbf0]

/-- The code points `str.isspace` accepts. -/
def spaces : List ℕ := [
  0x9, 0xa, 0xb, 0xc, 0xd, 0x1c, 0x1d, 0x1e, 0x1f, 0x20, 0x85, 0xa0, 0x1680, 0x2000, 0x2001,
  0x2002, 0x2003, 0x2004, 0x2005, 0x2006, 0x2007, 0x2008, 0x2009, 0x200a, 0x2028, 0x2029, 0x202f,
  0x205f, 0x3000]

/-- `str.isspace`, for one character. -/
def isSpace (c : Char) : Bool := spaces.contains c.toNat

/-- The white space that `int()` drops: the separators from U+001C to U+001F are none to it. -/
def isIntSpace (c : Char) : Bool := isSpace c && !(0x1c ≤ c.toNat && c.toNat ≤ 0x1f)

/-- What is no white space to `str` is none to `int()`. -/
lemma isIntSpace_of_isSpace {c : Char} (h : isSpace c = false) : isIntSpace c = false := by
  simp [isIntSpace, h]

/-- The value of a decimal digit of any script. -/
def decimalDigit? (c : Char) : Option ℕ :=
  (digitZeros.find? fun z => z ≤ c.toNat && c.toNat < z + 10).map (c.toNat - ·)

/-- The value of a digit: letters count from ten on. -/
def digit? (base : ℕ) (c : Char) : Option ℕ :=
  let value :=
    if 'a' ≤ c ∧ c ≤ 'z' then some (c.toNat - 'a'.toNat + 10)
    else if 'A' ≤ c ∧ c ≤ 'Z' then some (c.toNat - 'A'.toNat + 10)
    else decimalDigit? c
  value.filter (· < base)

/-- The digits of a text in which single underscores may stand between digits. -/
def digits? (base : ℕ) : List Char → Option (List ℕ)
  | [] => none
  | [c] => (digit? base c).map ([·])
  | c :: '_' :: l => (digit? base c).bind fun d => (digits? base l).map (d :: ·)
  | c :: l => (digit? base c).bind fun d => (digits? base l).map (d :: ·)

/-- `l.strip()` for a text given by its characters. -/
def strip (p : Char → Bool) (l : List Char) : List Char :=
  ((l.dropWhile p).reverse.dropWhile p).reverse

/-- The `0x` that may stand before the digits in base 16, and an underscore after it. -/
def dropHexPrefix : List Char → List Char
  | '0' :: 'x' :: '_' :: l => l
  | '0' :: 'X' :: '_' :: l => l
  | '0' :: 'x' :: l => l
  | '0' :: 'X' :: l => l
  | l => l

/-- The digits, unless a decimal text has more than `int()` reads. -/
def magnitude? (base : ℕ) (l : List Char) : Option ℕ :=
  match digits? base (if base = 16 then dropHexPrefix l else l) with
  | some ds =>
    if base = 10 ∧ 4300 < ds.length then none else some (ds.foldl (fun n d => n * base + d) 0)
  | none => none

/-- `int(text, base)` for the bases 10 and 16, by the characters of the text. -/
def parseInt? (base : ℕ) (l : List Char) : Option ℤ :=
  match strip isIntSpace l with
  | '+' :: l => (magnitude? base l).map Int.ofNat
  | '-' :: l => (magnitude? base l).map fun n : ℕ => -(n : ℤ)
  | l => (magnitude? base l).map Int.ofNat

/-- `int(x)`. -/
def Json.toInt : Json → Except PyError ℤ
  | .bool b => .ok (if b then 1 else 0)
  | .int n => .ok n
  | .float q => .ok (Number.float q).trunc
  | .nonFinite .nan => .error (.valueError "cannot convert float NaN to integer")
  | .nonFinite _ => .error ⟨"OverflowError", "cannot convert float infinity to integer"⟩
  | .str s =>
    match parseInt? 10 s.toList with
    | some n => .ok n
    | none => .error (.valueError s!"invalid literal for int() with base 10: '{s}'")
  | j => .error (.typeError
      s!"int() argument must be a string, a bytes-like object or a real number, not '{j.typeName}'")

/-! ### Texts -/

/-- The parts of Python's conversion to text that no result depends on: `str()` of a number with a
fraction, a list or an object, `str.lower`, and `datetime.isoformat`. -/
structure Text where
  repr : Json → String
  lower : String → String
  isoformat : ℤ → String

/-- `str(x)`, as an f-string writes it. -/
def Text.str (text : Text) : Json → String
  | .str s => s
  | .null => "None"
  | .bool b => if b then "True" else "False"
  | .int n => toString n
  | j => text.repr j

/-- Such parts, for runs on concrete inputs. -/
def Text.plain : Text := ⟨fun _ => "", id, fun _ => ""⟩

example : (Json.dict [("a", .int 1), ("b", .null)]).eq (.dict [("b", .null), ("a", .bool true)]) :=
  by decide +kernel
example : parseInt? 10 " 1_000 ".toList = some 1000 := by decide
example : parseInt? 10 "12abc".toList = none := by decide
example : parseInt? 10 [Char.ofNat 0x1c, '5'] = none := by decide

end PostCall.Python

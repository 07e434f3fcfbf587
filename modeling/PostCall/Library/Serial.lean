import Mathlib.Logic.Function.Basic
import PostCall.Library.Run

/-!
# Transactions that lock what they read

Transactions of several statements over rows with keys, run side by side. A transaction selects each of
its rows for update, inserts it when there is none, and keeps its own versions until it commits. A
select waits for a row that another transaction has locked, but does not see what others have inserted
and not committed; the insert then waits for them, and violates the key if they commit. Every program
of such transactions is serialisable: what is committed is what the programs make of the rows when they
run one after the other in the order of their commits, and each answers as it does there. The invariant
is that a program, run alone on what is committed, comes to where its transaction is, and that it does
so whatever becomes of the rows that the transaction has not locked.
-/

namespace PostCall.Library

universe u v w x y

/-- The rows, by their keys. -/
abbrev Rows (κ : Type u) (ρ : Type v) := κ → Option ρ

/-- What a transaction has left to do. -/
inductive Txn (κ : Type u) (ρ : Type v) (ε : Type w) (α : Type x) where
  | done (answer : α)
  | fail (e : ε)
  /-- Select a row for update; when there is none, insert `row`. -/
  | obtain (k : κ) (row : Except ε ρ) (next : ρ → Txn κ ρ ε α)
  /-- Change the own version of a row. -/
  | modify (k : κ) (f : ρ → ρ) (next : Txn κ ρ ε α)
  /-- Look at the own version of a row. -/
  | read (k : κ) (next : Option ρ → Txn κ ρ ε α)

variable {κ : Type u} {ρ : Type v} {ε : Type w} {α : Type x} [DecidableEq κ]

/-- The program alone on these rows. -/
def Txn.exec : Txn κ ρ ε α → Rows κ ρ → Except ε (α × Rows κ ρ)
  | .done answer, rows => .ok (answer, rows)
  | .fail e, _ => .error e
  | .obtain k row next, rows =>
    match rows k, row with
    | some r, _ => (next r).exec rows
    | none, .ok r => (next r).exec (Function.update rows k (some r))
    | none, .error e => .error e
  | .modify k f next, rows => next.exec (Function.update rows k ((rows k).map f))
  | .read k next, rows => (next (rows k)).exec rows

lemma Txn.exec_found {k : κ} {row : Except ε ρ} {next : ρ → Txn κ ρ ε α} {rows : Rows κ ρ} {r : ρ}
    (found : rows k = some r) : (Txn.obtain k row next).exec rows = (next r).exec rows := by
  conv_lhs => unfold exec
  rw [found]

lemma Txn.exec_missing {k : κ} {row : Except ε ρ} {next : ρ → Txn κ ρ ε α} {rows : Rows κ ρ} {r : ρ}
    (missing : rows k = none) (fits : row = .ok r) :
    (Txn.obtain k row next).exec rows = (next r).exec (Function.update rows k (some r)) := by
  conv_lhs => unfold exec
  rw [missing, fits]

variable {β : Type y}

/-- The programs of a list of requests one after the other, with what each answers. -/
inductive Serial (program : β → Txn κ ρ ε α) (c₀ : Rows κ ρ) : List (β × α) → Rows κ ρ → Prop where
  | nil :
    Serial program c₀ [] c₀
  | snoc {log c request answer c'} :
    Serial program c₀ log c →
    (program request).exec c = .ok (answer, c') →
    Serial program c₀ (log ++ [(request, answer)]) c'

/-- A transaction: what it was begun for, its own versions of the rows that it has locked, what it has
left to do, and whether its last select has found no row. -/
structure Open (κ : Type u) (ρ : Type v) (ε : Type w) (α : Type x) (β : Type y) where
  request : β
  rows : Rows κ ρ
  rest : Txn κ ρ ε α
  missed : Bool

/-- What is committed, who has locked each row, the transactions by their connections, and the requests
whose transactions have committed, with their answers. -/
structure Concurrent (κ : Type u) (ρ : Type v) (ε : Type w) (α : Type x) (β : Type y) where
  committed : Rows κ ρ
  owner : κ → Option ℕ
  sessions : ℕ → Option (Open κ ρ ε α β)
  log : List (β × α)

/-- What a connection does. -/
inductive ConcurrentAction (β : Type y) where
  | begin (n : ℕ) (request : β)
  | next (n : ℕ)
  | commit (n : ℕ)
  | rollback (n : ℕ)

/-- The own versions of a transaction, over what is committed. -/
def Rows.over (rows c : Rows κ ρ) : Rows κ ρ := fun k => (rows k).or (c k)

namespace Concurrent

/-- These rows, and no transaction. -/
def start (c : Rows κ ρ) : Concurrent κ ρ ε α β := ⟨c, fun _ => none, fun _ => none, []⟩

/-- A transaction goes on. -/
def set (s : Concurrent κ ρ ε α β) (n : ℕ) (session : Open κ ρ ε α β) : Concurrent κ ρ ε α β :=
  { s with sessions := Function.update s.sessions n (some session) }

/-- A transaction ends, and its locks with it. -/
def drop (s : Concurrent κ ρ ε α β) (n : ℕ) : Concurrent κ ρ ε α β :=
  { s with
    owner := fun k => if s.owner k = some n then none else s.owner k
    sessions := Function.update s.sessions n none }

/-- A transaction locks a row, and goes on with its own version of it. -/
def take (s : Concurrent κ ρ ε α β) (n : ℕ) (session : Open κ ρ ε α β) (k : κ) (r : ρ)
    (rest : Txn κ ρ ε α) : Concurrent κ ρ ε α β :=
  { s with
    owner := Function.update s.owner k (some n)
    sessions := Function.update s.sessions n (some
      ⟨session.request, Function.update session.rows k (some r), rest, false⟩) }

/-- The next statement of a transaction; one that has to wait changes nothing. -/
def statement (s : Concurrent κ ρ ε α β) (n : ℕ) (session : Open κ ρ ε α β) : Concurrent κ ρ ε α β :=
  match session.rest with
  | .done _ => s
  | .fail _ => s.drop n
  | .modify k f next =>
    match session.rows k with
    | some r => s.set n { session with
        rows := Function.update session.rows k (some (f r))
        rest := next }
    | none => s
  | .read k next =>
    match session.rows k with
    | some r => s.set n { session with rest := next (some r) }
    | none => s
  | .obtain k row next =>
    match session.rows k, session.missed, s.committed k with
    | some r, _, _ => s.set n { session with rest := next r }
    | none, false, none => s.set n { session with missed := true }
    | none, false, some r => if (s.owner k).isSome then s else s.take n session k r (next r)
    -- the insert violates the key
    | none, true, some _ => s.drop n
    | none, true, none =>
      match row with
      | .error _ => s.drop n
      | .ok r => if (s.owner k).isSome then s else s.take n session k r (next r)

/-- One action, where a request begins the transaction of its program. -/
def step (program : β → Txn κ ρ ε α) (s : Concurrent κ ρ ε α β) : ConcurrentAction β → Concurrent κ ρ ε α β
  | .begin n request =>
    match s.sessions n with
    | none => s.set n ⟨request, fun _ => none, program request, false⟩
    | some _ => s
  | .next n =>
    match s.sessions n with
    | some session => s.statement n session
    | none => s
  | .commit n =>
    match s.sessions n with
    | some session =>
      match session.rest with
      | .done answer => { s.drop n with
          committed := session.rows.over s.committed
          log := s.log ++ [(session.request, answer)] }
      | _ => s
    | none => s
  | .rollback n => s.drop n

/-! ### Own versions -/

variable {rows c c' c₀ : Rows κ ρ} {k : κ} {r : ρ}

omit [DecidableEq κ] in
lemma over_own (own : rows k = some r) : rows.over c k = some r := by
  rw [Rows.over, own]
  rfl

omit [DecidableEq κ] in
/-- Of the others it sees what is committed. -/
lemma over_other (other : rows k = none) : rows.over c k = c k := by
  rw [Rows.over, other]
  rfl

/-- A write of its own comes over what is committed. -/
lemma over_update : Rows.over (Function.update rows k (some r)) c =
    Function.update (rows.over c) k (some r) := by
  funext l
  by_cases here : l = k
  · subst here
    rw [Function.update_self, over_own (Function.update_self _ _ _)]
  · rw [Function.update_of_ne here, Rows.over, Function.update_of_ne here]
    rfl

/-- Locking a row as it is committed changes nothing. -/
lemma over_update_committed (other : rows k = none) (committed : c k = some r) :
    Rows.over (Function.update rows k (some r)) c = rows.over c := by
  rw [over_update, ← committed, ← over_other (c := c) other, Function.update_eq_self]

/-! ### What a statement does -/

/-- What the next statement of a transaction does: nothing, or it ends the transaction, or it takes it
to where its program alone would come to, with no more rows or with one that nobody had locked. -/
inductive Goes (s : Concurrent κ ρ ε α β) (n : ℕ) (session : Open κ ρ ε α β) : Concurrent κ ρ ε α β → Prop where
  | waits :
    Goes s n session s
  | ends :
    Goes s n session (s.drop n)
  | goes {rows rest missed} :
    (∀ k, (rows k).isSome ↔ (session.rows k).isSome) →
    (∀ c, session.rest.exec (session.rows.over c) = rest.exec (rows.over c)) →
    Goes s n session (s.set n ⟨session.request, rows, rest, missed⟩)
  | takes {k r rest} :
    s.owner k = none →
    (∀ c, c k = s.committed k → session.rest.exec (session.rows.over c) =
      rest.exec (Rows.over (Function.update session.rows k (some r)) c)) →
    Goes s n session (s.take n session k r rest)

variable {s : Concurrent κ ρ ε α β} {n : ℕ} {session : Open κ ρ ε α β}

/-- Reading or making a row is one of the ways to go on. -/
lemma goes_obtain {row : Except ε ρ} {next : ρ → Txn κ ρ ε α}
    (h : session.rest = .obtain k row next) : Goes s n session (s.statement n session) := by
  unfold statement
  rw [h]
  simp only
  split
  case h_1 r _ _ own =>
    refine .goes (fun _ => Iff.rfl) fun c => ?_
    rw [h, Txn.exec_found (over_own own)]
  case h_2 => exact .goes (fun _ => Iff.rfl) fun _ => by rw [h]
  case h_3 r other _ committed =>
    split
    case isTrue => exact .waits
    case isFalse free =>
      refine .takes (Option.not_isSome_iff_eq_none.1 free) fun c same => ?_
      have found : c k = some r := same.trans committed
      rw [h, over_update_committed other found, Txn.exec_found ((over_other other).trans found)]
  case h_4 => exact .ends
  case h_5 other _ absent =>
    split
    case h_1 => exact .ends
    case h_2 r =>
      split
      case isTrue => exact .waits
      case isFalse free =>
        refine .takes (Option.not_isSome_iff_eq_none.1 free) fun c same => ?_
        have missing : session.rows.over c k = none := (over_other other).trans (same.trans absent)
        rw [h, over_update, Txn.exec_missing missing rfl]

lemma goes_statement : Goes s n session (s.statement n session) := by
  cases h : session.rest with
  | done answer =>
    rw [statement, h]
    exact .waits
  | fail e =>
    rw [statement, h]
    exact .ends
  | obtain k row next => exact goes_obtain h
  | modify k f next =>
    rw [statement, h]
    simp only
    split
    case h_2 => exact .waits
    case h_1 _ r own =>
      refine .goes (fun l => ?_) fun c => ?_
      · by_cases here : l = k
        · simp [here, own]
        · rw [Function.update_of_ne here]
      · rw [h, Txn.exec, over_own own, Option.map_some, over_update]
  | read k next =>
    rw [statement, h]
    simp only
    split
    case h_2 => exact .waits
    case h_1 _ r own =>
      refine .goes (fun _ => Iff.rfl) fun c => ?_
      rw [h, Txn.exec, over_own own]

/-! ### Serialisability -/

variable {program : β → Txn κ ρ ε α}

/-- Wherever the rows that a transaction has locked are as they are committed, its program alone comes
to where the transaction is. -/
def Alone (program : β → Txn κ ρ ε α) (c : Rows κ ρ) (session : Open κ ρ ε α β) : Prop :=
  ∀ c', (∀ k, (session.rows k).isSome → c' k = c k) →
    (program session.request).exec c' = session.rest.exec (session.rows.over c')

/-- Each row is locked by who has a version of it, each transaction is where its program alone comes to,
and so are those that have committed. -/
structure Serialised (program : β → Txn κ ρ ε α) (c₀ : Rows κ ρ) (s : Concurrent κ ρ ε α β) : Prop where
  owned : ∀ n session, s.sessions n = some session →
    ∀ k, (session.rows k).isSome → s.owner k = some n
  alone : ∀ n session, s.sessions n = some session → Alone program s.committed session
  serial : Serial program c₀ s.log s.committed

omit [DecidableEq κ] in
/-- Who a connection's transaction is after one of them has changed. -/
lemma of_update_sessions {f : ℕ → Option (Open κ ρ ε α β)} {x : Option (Open κ ρ ε α β)} {m : ℕ}
    {other : Open κ ρ ε α β} (found : Function.update f n x m = some other) :
    (m = n ∧ x = some other) ∨ (m ≠ n ∧ f m = some other) := by
  by_cases same : m = n
  · rw [same, Function.update_self] at found
    exact .inl ⟨same, found⟩
  · rw [Function.update_of_ne same] at found
    exact .inr ⟨same, found⟩

omit [DecidableEq κ] in
/-- The locks of the others stay when a transaction ends. -/
lemma owner_drop {m : ℕ} (other : m ≠ n) (owned : s.owner k = some m) :
    (s.drop n).owner k = some m := by
  have kept : s.owner k ≠ some n := fun e => other (Option.some.inj (owned.symm.trans e))
  exact (if_neg kept).trans owned

/-- What nobody has locked may be as it likes. -/
lemma Alone.mono (h : Alone program c session) (same : ∀ k, (session.rows k).isSome → c' k = c k) :
    Alone program c' session :=
  fun c'' agree => h c'' fun k own => (agree k own).trans (same k own)

namespace Serialised

variable (h : Serialised program c₀ s)
include h

/-- A session goes on with rows that it owns. -/
lemma set (owned : ∀ k, (session.rows k).isSome → s.owner k = some n)
    (alone : Alone program s.committed session) : Serialised program c₀ (s.set n session) := by
  refine ⟨fun m other found => ?_, fun m other found => ?_, h.serial⟩
  · rcases of_update_sessions found with ⟨rfl, e⟩ | ⟨_, found⟩
    · cases e
      exact owned
    · exact h.owned m other found
  · rcases of_update_sessions found with ⟨rfl, e⟩ | ⟨_, found⟩
    · cases e
      exact alone
    · exact h.alone m other found

lemma drop : Serialised program c₀ (s.drop n) := by
  refine ⟨fun m other found k own => ?_, fun m other found => ?_, h.serial⟩
  · rcases of_update_sessions found with ⟨_, e⟩ | ⟨ne, found⟩
    · cases e
    · exact owner_drop ne (h.owned m other found k own)
  · rcases of_update_sessions found with ⟨_, e⟩ | ⟨_, found⟩
    · cases e
    · exact h.alone m other found

/-- A session takes a row that nobody owns. -/
lemma take {rest : Txn κ ρ ε α} (free : s.owner k = none) (found : s.sessions n = some session)
    (same : ∀ c, c k = s.committed k → session.rest.exec (session.rows.over c) =
      rest.exec (Rows.over (Function.update session.rows k (some r)) c)) :
    Serialised program c₀ (s.take n session k r rest) := by
  have ne_of_owned : ∀ {m l}, s.owner l = some m → l ≠ k := by
    rintro m _ owned rfl
    cases free.symm.trans owned
  have locked : ∀ l, (Function.update session.rows k (some r) l).isSome ↔
      l = k ∨ (session.rows l).isSome := by
    intro l
    by_cases here : l = k <;> simp [here]
  refine ⟨fun m other found' l own => ?_, fun m other found' => ?_, h.serial⟩
  · change Function.update s.owner k (some n) l = some m
    rcases of_update_sessions found' with ⟨rfl, e⟩ | ⟨_, found'⟩
    · cases e
      rcases (locked l).1 own with rfl | own
      · exact Function.update_self _ _ _
      · have owned := h.owned _ session found l own
        rwa [Function.update_of_ne (ne_of_owned owned)]
    · have owned := h.owned m other found' l own
      rwa [Function.update_of_ne (ne_of_owned owned)]
  · rcases of_update_sessions found' with ⟨rfl, e⟩ | ⟨_, found'⟩
    · cases e
      intro c agree
      have here : c k = s.committed k := agree k ((locked k).2 (.inl rfl))
      have old : ∀ l, (session.rows l).isSome → c l = s.committed l :=
        fun l own => agree l ((locked l).2 (.inr own))
      exact (h.alone _ session found c old).trans (same c here)
    · exact h.alone m other found'

/-- A way to go on keeps the history serialised. -/
lemma goes {s' : Concurrent κ ρ ε α β} (found : s.sessions n = some session) (g : Goes s n session s') :
    Serialised program c₀ s' := by
  cases g with
  | waits => exact h
  | ends => exact h.drop
  | goes locked same =>
    refine h.set (fun k own => h.owned n session found k ((locked k).1 own)) fun c agree => ?_
    have old : ∀ k, (session.rows k).isSome → c k = s.committed k :=
      fun k own => agree k ((locked k).2 own)
    exact (h.alone n session found c old).trans (same c)
  | takes free same => exact h.take free found same

/-- A commit writes what the program alone makes of the rows, and no row of the others. -/
lemma commit {answer : α} (found : s.sessions n = some session) (e : session.rest = .done answer) :
    Serialised program c₀ { s.drop n with
      committed := session.rows.over s.committed
      log := s.log ++ [(session.request, answer)] } := by
  refine ⟨h.drop.owned, fun m other found' => ?_, .snoc h.serial ?_⟩
  · refine (h.drop.alone m other found').mono fun k own => over_other ?_
    rcases of_update_sessions found' with ⟨_, none⟩ | ⟨ne, found'⟩
    · cases none
    · by_contra locked
      have mine := h.owned n session found k (Option.isSome_iff_ne_none.2 locked)
      exact ne (Option.some.inj ((h.owned m other found' k own).symm.trans mine))
  · rw [h.alone n session found s.committed fun _ _ => rfl, e]
    rfl

lemma step (a : ConcurrentAction β) : Serialised program c₀ (s.step program a) := by
  cases a with
  | begin n request =>
    simp only [Concurrent.step]
    split
    case h_2 => exact h
    case h_1 =>
      refine h.set (fun k own => nomatch own) fun c _ => ?_
      rfl
  | next n =>
    simp only [Concurrent.step]
    split
    case h_2 => exact h
    case h_1 session found => exact h.goes found goes_statement
  | commit n =>
    simp only [Concurrent.step]
    split
    case h_2 => exact h
    case h_1 session found =>
      split
      case h_2 => exact h
      case h_1 answer e => exact h.commit found e
  | rollback n => exact h.drop

end Serialised

/-- However the statements of the transactions interleave, what is committed is what their programs make
of the rows when they run one after the other, in the order of their commits. -/
theorem serial_of_run {as : List (ConcurrentAction β)} {ok : Concurrent κ ρ ε α β → ConcurrentAction β → Prop}
    (run : Run (step program) ok (start c₀) as s) :
    Serial program c₀ s.log s.committed :=
  (run.invariant (I := Serialised program c₀) ⟨nofun, nofun, .nil⟩ fun _ a h _ => h.step a).serial

end Concurrent

end PostCall.Library

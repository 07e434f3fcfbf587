import Mathlib.Algebra.BigOperators.Group.Multiset.Basic
import Mathlib.Data.List.Perm.Basic
import PostCall.Library.Position
import PostCall.Library.Program
import PostCall.Library.Run

/-!
# Processes on a shared state

A process takes one transaction after another on a state that others work on as well. What it does
next depends on what the last one returned or raised, and a raise rolls the transaction back. In a pool
the processes take their transactions in any order; one may be lost between two of them, and others
start. A process is named by its place, which nobody else takes later.

`Carries` is the rule for a simulation by a system that knows who acts and what everyone has in hand:
each transaction of the process is one action of that system in its name, which leaves what the others
have in hand alone. Then whatever a pool does is a run of the system, with one action for each
transaction (`Pool.simulated`). `belongings` is what one name has of a list of things with owners.
-/

namespace PostCall.Library

universe u v w

/-- A process that has ended, or its next transaction and how it goes on. -/
inductive Process (ε σ : Type u) : Type (u + 1) where
  | done
  | transaction {α : Type u} (x : EStateM ε σ α) (next : Except ε α → Process ε σ)

/-- What a transaction returned or raised, and the state after it. -/
def perform {ε σ α : Type u} (x : EStateM ε σ α) (s : σ) : Except ε α × σ :=
  match x s with
  | .ok a s' => (.ok a, s')
  | .error e _ => (.error e, s)

namespace Process

variable {ε σ : Type u}

/-- The next transaction. -/
def advance : Process ε σ → σ → Process ε σ × σ
  | done, s => (done, s)
  | transaction x next, s => (next (perform x s).1, (perform x s).2)

/-- The process without others, to its end. -/
def finish : Process ε σ → σ → σ
  | done, s => s
  | transaction x next, s => finish (next (perform x s).1) (perform x s).2

/-- Whether there is a transaction left. -/
def isLive : Process ε σ → Bool
  | done => false
  | transaction _ _ => true

end Process

structure Pool (ε σ : Type u) where
  state : σ
  processes : List (Process ε σ)

namespace Pool

/-- What happens to a pool next. -/
inductive Event (ε σ : Type u) : Type (u + 1) where
  | next (n : ℕ)
  | lose (n : ℕ)
  | start (process : Process ε σ)

variable {ε σ : Type u}

def step (s : Pool ε σ) : Event ε σ → Pool ε σ
  | .next n =>
    match s.processes[n]? with
    | some process =>
      ⟨(process.advance s.state).2, s.processes.set n (process.advance s.state).1⟩
    | none => s
  | .lose n => { s with processes := s.processes.set n .done }
  | .start process => { s with processes := s.processes ++ [process] }

/-- Who takes a transaction in an event. -/
def taker (s : Pool ε σ) : Event ε σ → List ℕ
  | .next n => if s.processes[n]?.any (·.isLive) then [n] else []
  | _ => []

end Pool

/-! ### Things with owners -/

section Belongings

variable {β : Type*} {l : List (ℕ × β)} {n m k : ℕ} {b b' : β}

/-- What someone has of a list of things with their owners. -/
def belongings (l : List (ℕ × β)) (n : ℕ) : Multiset β := (l.filter (·.1 = n)).map Prod.snd

lemma belongings_cons : belongings ((n, b) :: l) m =
    if n = m then b ::ₘ belongings l m else belongings l m := by
  unfold belongings
  rw [List.filter_cons]
  split <;> simp_all

/-- The order of the list does not matter. -/
lemma belongings_of_perm {l' : List (ℕ × β)} (h : l.Perm l') : belongings l m = belongings l' m :=
  Multiset.coe_eq_coe.2 ((h.filter _).map _)

/-- What is added in someone's name is his. -/
lemma belongings_append_own {bs : List β} :
    belongings (l ++ bs.map (n, ·)) n = belongings l n + bs := by
  simp [belongings, List.filter_map, Function.comp_def]

/-- What is added in the name of another is not. -/
lemma belongings_append_other {bs : List β} (ne : m ≠ n) :
    belongings (l ++ bs.map (n, ·)) m = belongings l m := by
  simp [belongings, List.filter_map, Function.comp_def, ne.symm]

/-- What someone has is in the list. -/
lemma exists_of_mem_belongings (h : b ∈ belongings l n) : ∃ k : ℕ, l[k]? = some (n, b) := by
  obtain ⟨⟨owner, c⟩, own, rfl⟩ := List.mem_map.1 (Multiset.mem_coe.1 h)
  obtain ⟨there, same⟩ := List.mem_filter.1 own
  have same : owner = n := by simpa using same
  subst same
  exact List.mem_iff_getElem?.1 there

/-- A thing of the list, and the rest. -/
lemma belongings_of_getElem? (h : l[k]? = some (n, b)) : belongings l m =
    if n = m then b ::ₘ belongings (l.eraseIdx k) m else belongings (l.eraseIdx k) m := by
  obtain ⟨lt, e⟩ := List.getElem?_eq_some_iff.1 h
  rw [← belongings_cons, ← e]
  exact belongings_of_perm (List.getElem_cons_eraseIdx_perm lt).symm

/-- A thing is replaced by another one of the same owner. -/
lemma belongings_set (h : l[k]? = some (n, b)) : belongings (l.set k (n, b')) m =
    if n = m then b' ::ₘ belongings (l.eraseIdx k) m else belongings (l.eraseIdx k) m := by
  obtain ⟨lt, _⟩ := List.getElem?_eq_some_iff.1 h
  rw [← belongings_cons]
  exact belongings_of_perm (List.set_perm_cons_eraseIdx lt (n, b'))

end Belongings

/-! ### The simulation -/

section Simulation

variable {ε σ : Type u} {τ : Type v} {α : Type w} {κ : Type*} (step : τ → ℕ × α → τ)
  (ok : τ → ℕ × α → Prop) (state : τ → σ) (held : τ → ℕ → κ)

/-- The system can follow the process with this name and these things in hand. -/
def Carries (n : ℕ) : Process ε σ → κ → Prop
  | .done, _ => True
  | .transaction x next, mine => ∀ t, held t n = mine → ∃ a, ok t (n, a) ∧
      state (step t (n, a)) = (perform x (state t)).2 ∧
      (∀ m ≠ n, held (step t (n, a)) m = held t m) ∧
      Carries n (next (perform x (state t)).1) (held (step t (n, a)) n)

/-- The system is in the state of the pool and follows each process, and a name that is still to be
given has nothing in hand. -/
structure Represents (free : κ) (t : τ) (s : Pool ε σ) : Prop where
  same : state t = s.state
  carries : ∀ n process, s.processes[n]? = some process →
    Carries step ok state held n process (held t n)
  unused : ∀ n, s.processes.length ≤ n → held t n = free

/-- Whoever starts a process has nothing in hand. -/
def Startable (free : κ) : Pool.Event ε σ → Prop
  | .start process => ∀ n, Carries step ok state held n process free
  | _ => True

variable {step ok state held} {free : κ} {t : τ} {s : Pool ε σ} {events : List (Pool.Event ε σ)}

/-- A process that begins changes nothing yet. -/
lemma Represents.start (h : Represents step ok state held free t s) {process : Process ε σ}
    (follows : ∀ n, Carries step ok state held n process free) :
    Represents step ok state held free t (s.step (.start process)) := by
  refine ⟨h.same, fun n p found => ?_, fun n le => h.unused n ?_⟩
  · simp only [Pool.step, List.getElem?_append] at found
    split at found
    case isTrue => exact h.carries n p found
    case isFalse beyond =>
      have new := List.mem_of_getElem? found
      obtain rfl := List.mem_singleton.1 new
      rw [h.unused n (Nat.le_of_not_lt beyond)]
      exact follows n
  · simp only [Pool.step, List.length_append] at le
    omega

/-- Nor does one that ends. -/
lemma Represents.lose (h : Represents step ok state held free t s) (n : ℕ) :
    Represents step ok state held free t (s.step (.lose n)) := by
  refine ⟨h.same, fun m p found => ?_, fun m le => h.unused m ?_⟩
  · rcases of_getElem?_set found with ⟨rfl, rfl⟩ | ⟨_, old⟩
    · trivial
    · exact h.carries m p old
  · simpa [Pool.step] using le

/-- A process that is done stays so. -/
lemma Represents.next_done (h : Represents step ok state held free t s) {n : ℕ}
    (found : s.processes[n]? = some .done) :
    Represents step ok state held free t (s.step (.next n)) := by
  have lost : s.step (.next n) = s.step (.lose n) := by
    simp only [Pool.step, found, Process.advance]
  rw [lost]
  exact h.lose n

/-- A transaction is an action in the name of its process. -/
lemma Represents.next_transaction (h : Represents step ok state held free t s) {n : ℕ} {β : Type u}
    {x : EStateM ε σ β} {next : Except ε β → Process ε σ}
    (found : s.processes[n]? = some (.transaction x next)) :
    ∃ a, ok t (n, a) ∧ Represents step ok state held free (step t (n, a)) (s.step (.next n)) := by
  obtain ⟨a, allowed, after, others, goes⟩ := h.carries n _ found t rfl
  simp only [Pool.step, found]
  refine ⟨a, allowed, ?_, fun m p at' => ?_, fun m le => ?_⟩
  · rw [after, h.same]
    rfl
  · rcases of_getElem?_set at' with ⟨rfl, rfl⟩ | ⟨ne, old⟩
    · rw [Process.advance, ← h.same]
      exact goes
    · rw [others m ne]
      exact h.carries m p old
  · obtain ⟨lt, _⟩ := List.getElem?_eq_some_iff.1 found
    rw [List.length_set] at le
    rw [others m (by omega)]
    exact h.unused m le

/-- Each event of a pool is an action of the system in the name of the process whose transaction it
is, or nothing. -/
lemma Represents.event (h : Represents step ok state held free t s) {event : Pool.Event ε σ}
    (startable : Startable step ok state held free event) :
    ∃ as t', Run step ok t as t' ∧ Represents step ok state held free t' (s.step event) ∧
      as.map Prod.fst = s.taker event := by
  cases event with
  | start process => exact ⟨[], t, .nil, h.start startable, rfl⟩
  | lose n => exact ⟨[], t, .nil, h.lose n, rfl⟩
  | next n =>
    cases found : s.processes[n]? with
    | none =>
      simp only [Pool.step, Pool.taker, found]
      exact ⟨[], t, .nil, h, rfl⟩
    | some process =>
      simp only [Pool.taker, found]
      cases process with
      | done => exact ⟨[], t, .nil, h.next_done found, rfl⟩
      | transaction x next =>
        obtain ⟨a, allowed, goes⟩ := h.next_transaction found
        exact ⟨[(n, a)], step t (n, a), .snoc .nil allowed, goes, rfl⟩

/-- Whatever a pool does is a run of the system to the same state, with one action for each
transaction in the name of the process that took it. -/
theorem Pool.simulated (h : Represents step ok state held free t s)
    (startable : ∀ event ∈ events, Startable step ok state held free event) :
    ∃ as t', Run step ok t as t' ∧
      Represents step ok state held free t' (events.foldl Pool.step s) ∧
      as.map Prod.fst = emitted Pool.step Pool.taker s events := by
  induction events generalizing t s with
  | nil => exact ⟨[], t, .nil, h, rfl⟩
  | cons event events ih =>
    obtain ⟨as, t₁, run, h₁, names⟩ := h.event (startable event List.mem_cons_self)
    obtain ⟨bs, t', later, h', names'⟩ := ih h₁ fun event mem =>
      startable event (List.mem_cons_of_mem _ mem)
    refine ⟨as ++ bs, t', run.append later, h', ?_⟩
    rw [List.map_append, names, names', emitted]

end Simulation

end PostCall.Library

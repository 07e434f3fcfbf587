import Mathlib.Algebra.Order.Field.Basic
import Mathlib.Algebra.Order.Field.Rat
import Mathlib.Data.List.Induction
import Mathlib.Data.List.Infix
import Mathlib.Tactic.Linarith
import Mathlib.Tactic.Ring
import PostCall.Library.Lapse
import PostCall.Model.CircuitBreaker

/-!
# The signal for the dialler

Every start of a call restarts the time to live of both counters, and a call that ends restarts nothing.
So the counters are sums over the calls since the last time that no call started for a minute: the
starts less the ends, and the estimates of the starts. They tell of the last minute only where no start
before it and no end without its start is among those.
-/

namespace PostCall.Properties
open PostCall.Library PostCall.Model

/-- A call of the circuit breaker. -/
inductive PostcallCall where
  | started (estimatedTokens : ℕ)
  | ended

/-- A call with its time. -/
structure PostcallRecord where
  time : Time
  call : PostcallCall

namespace PostcallRecord

def isStart (r : PostcallRecord) : Bool :=
  match r.call with
  | .started _ => true
  | .ended => false

/-- What the call adds to the counter of requests. -/
def requests (r : PostcallRecord) : ℤ := if r.isStart then 1 else -1

/-- The estimate of a start. -/
def tokens (r : PostcallRecord) : ℤ :=
  match r.call with
  | .started estimatedTokens => estimatedTokens
  | .ended => 0

lemma tokens_nonneg (r : PostcallRecord) : 0 ≤ r.tokens := by
  unfold tokens
  split
  · exact Int.natCast_nonneg _
  · exact le_rfl

end PostcallRecord

/-- The counters after one more call. -/
def recordCall (s : PostcallCounters) (r : PostcallRecord) : PostcallCounters :=
  match r.call with
  | .started estimatedTokens => PostCallCircuitBreaker.recordPostcallStart r.time estimatedTokens s
  | .ended => PostCallCircuitBreaker.recordPostcallEnd r.time s

/-- The counters after these calls. -/
def countersAfter (history : List PostcallRecord) : PostcallCounters :=
  history.foldl recordCall .unset

variable {history : List PostcallRecord} {r : PostcallRecord} {now : Time} {key : Option RedisKey}
  {amount : PostcallRecord → ℤ} {s : PostcallCounters} {cfg : Settings}

/-- A time is before the last minute without a start. -/
abbrev Lapsed (history : List PostcallRecord) (now t : Time) : Prop :=
  Forgotten PostcallRecord.time PostcallRecord.isStart (seconds 60) history now t

/-- The calls since the last time that no call started for a minute. -/
abbrev sinceLapse (history : List PostcallRecord) (now : Time) : List PostcallRecord :=
  remembered PostcallRecord.time PostcallRecord.isStart (seconds 60) history now

abbrev sinceLapseTotal (amount : PostcallRecord → ℤ) (history : List PostcallRecord) (now : Time) : ℤ :=
  total PostcallRecord.time PostcallRecord.isStart (seconds 60) amount history now

/-- The calls were made by this time. -/
def By (history : List PostcallRecord) (now : Time) : Prop := ∀ r ∈ history, r.time ≤ now

/-! ### Keys -/

/-- What a key with a value reads as. -/
lemma read_some {v : ℤ} {e : Option Time} :
    RedisKey.read now (some ⟨v, e⟩) = if e.all (now < ·) then v else 0 := by
  unfold RedisKey.read RedisKey.alive
  split
  case isTrue live => simp [Option.filter, live]
  case isFalse dead => simp [Option.filter, dead]

/-- A key that was counted up and given a minute to live. -/
lemma expire_incrBy {n : ℤ} : RedisKey.expire now 60 (RedisKey.incrBy now n key) =
    some ⟨RedisKey.read now key + n, some (now + seconds 60)⟩ := by
  unfold RedisKey.expire RedisKey.incrBy RedisKey.read
  cases h : RedisKey.alive now key with
  | none => simp [RedisKey.alive]
  | some k =>
    have live : k.expiresAt.all (now < ·) := (Option.filter_eq_some_iff.1 h).2
    simp [RedisKey.alive, Option.filter, live]

/-- A key that was given a minute to live. -/
lemma read_expire {later : Time} : RedisKey.read later (RedisKey.expire now 60 key) =
    if later < now + seconds 60 then RedisKey.read now key else 0 := by
  unfold RedisKey.expire
  cases h : RedisKey.alive now key with
  | none =>
    have zero : RedisKey.read now key = 0 := by rw [RedisKey.read, h]; rfl
    rw [zero, ite_self]
    rfl
  | some k =>
    rw [Option.map_some, read_some]
    simp [RedisKey.read, h]

/-- A counter reads the sum over the calls since the last lapse. -/
def Tracks (amount : PostcallRecord → ℤ) (history : List PostcallRecord) (key : Option RedisKey) :
    Prop :=
  ∀ now, By history now → RedisKey.read now key = sinceLapseTotal amount history now

/-- The counter lapses when the calls before a time are forgotten. -/
def Expires (history : List PostcallRecord) (key : Option RedisKey) : Prop :=
  ∀ t now, By history t → t ≤ now →
    (Lapsed history now t ↔ ∃ k ∈ key, ∃ e ∈ k.expiresAt, t < e ∧ e ≤ now)

/-- A start carries a counter over. -/
lemma tracks_of_restart (start : r.isStart) (by' : By history r.time)
    (reads : ∀ now, RedisKey.read now key =
      if now < r.time + seconds 60 then sinceLapseTotal amount history r.time + amount r else 0) :
    Tracks amount (history ++ [r]) key := by
  intro now after
  have after := after r (List.mem_append_right _ (List.mem_singleton.2 rfl))
  rw [reads]
  split
  case isTrue fresh => exact (total_snoc_of_lt start after fresh).symm
  case isFalse lapsed =>
    exact (total_snoc_of_lapsed start (by decide) by' (not_lt.1 lapsed)).symm

lemma restartTimes_le (by' : By history now) :
    ∀ s ∈ restartTimes PostcallRecord.time PostcallRecord.isStart history, s ≤ now := by
  intro s mem
  obtain ⟨r, there, _, rfl⟩ := mem_restartTimes.1 mem
  exact by' r there

/-- What an increment does to a key with a value. -/
lemma incrBy_some {n v : ℤ} {e : Option Time} : RedisKey.incrBy now n (some ⟨v, e⟩) =
    if e.all (now < ·) then some ⟨v + n, e⟩ else some ⟨n, none⟩ := by
  unfold RedisKey.incrBy RedisKey.alive
  by_cases live : e.all (now < ·) <;> simp [Option.filter, live]

/-- The calls before now are forgotten when the key of the counter has expired since. -/
lemma lapsed_iff {v : ℤ} {e : Option Time} (expires : Expires history (some ⟨v, e⟩)) {t : Time}
    (by' : By history t) (le : t ≤ now) :
    Lapsed history now t ↔ ∃ limit ∈ e, t < limit ∧ limit ≤ now := by
  rw [expires t now by' le]
  simp

/-- An end counts the requests down, or makes a counter of its own if the calls before it are
forgotten. -/
lemma tracks_rpm_of_end (ends : ¬ r.isStart) (by' : By history r.time)
    (tracks : Tracks PostcallRecord.requests history key) (expires : Expires history key) :
    Tracks PostcallRecord.requests (history ++ [r]) (RedisKey.incrBy r.time (-1) key) ∧
      Expires (history ++ [r]) (RedisKey.incrBy r.time (-1) key) := by
  have before : ∀ {now}, By (history ++ [r]) now → By history now ∧ r.time ≤ now := fun after =>
    ⟨fun r' mem => after r' (List.mem_append_left _ mem),
      after r (List.mem_append_right _ (List.mem_singleton.2 rfl))⟩
  have sum : ∀ now, By (history ++ [r]) now →
      sinceLapseTotal PostcallRecord.requests (history ++ [r]) now =
        RedisKey.read now key + if Lapsed history now r.time then 0 else -1 := by
    intro now after
    rw [sinceLapseTotal, total_snoc_of_not ends, tracks now (before after).1, PostcallRecord.requests,
      if_neg ends]
  have lapses : ∀ t now, Lapsed (history ++ [r]) now t ↔ Lapsed history now t :=
    fun t now => forgotten_snoc_of_not ends
  cases key with
  | none =>
    refine ⟨fun now after => ?_, fun t now after le => ?_⟩
    · have none := expires r.time now by' (before after).2
      rw [sum now after, if_neg (by simpa using none)]
      rfl
    · rw [lapses, expires t now (before after).1 le]
      simp [RedisKey.incrBy, RedisKey.alive]
  | some k =>
    obtain ⟨v, e⟩ := k
    rw [incrBy_some]
    split
    case isTrue live =>
      refine ⟨fun now after => ?_, fun t now after le => ?_⟩
      · have late := (before after).2
        rw [sum now after, read_some, read_some, if_congr (lapsed_iff expires by' late) rfl rfl]
        -- the key lapses where the calls before the end are forgotten
        cases e with
        | none => simp
        | some limit =>
          have live : r.time < limit := by simpa using live
          by_cases fresh : now < limit <;> simp [fresh, live, not_lt.1, not_le.2]
      · rw [lapses, lapsed_iff expires (before after).1 le]
        simp
    case isFalse dead =>
      obtain ⟨limit, rfl, passed⟩ : ∃ limit, e = some limit ∧ limit ≤ r.time := by
        cases e with
        | none => simp at dead
        | some limit => exact ⟨limit, rfl, by simpa using dead⟩
      refine ⟨fun now after => ?_, fun t now after le => ?_⟩
      · have late := (before after).2
        have lapsed := passed.trans late
        rw [sum now after, read_some, read_some, if_congr (lapsed_iff expires by' late) rfl rfl]
        simp [passed.not_gt, lapsed.not_gt]
      · have late : limit ≤ t := passed.trans (after r (by simp))
        rw [lapses, lapsed_iff expires (before after).1 le]
        simp [late.not_gt]

/-- A start gives the counter of requests one more, and a minute to live. -/
lemma tracks_rpm_of_start (start : r.isStart) (by' : By history r.time)
    (tracks : Tracks PostcallRecord.requests history key) :
    Tracks PostcallRecord.requests (history ++ [r])
        (RedisKey.expire r.time 60 (RedisKey.incrBy r.time 1 key)) ∧
      Expires (history ++ [r]) (RedisKey.expire r.time 60 (RedisKey.incrBy r.time 1 key)) := by
  rw [expire_incrBy]
  constructor
  · refine tracks_of_restart start by' fun now => ?_
    rw [read_some, tracks r.time by', PostcallRecord.requests, if_pos start]
    simp
  · intro t now after le
    rw [Lapsed, forgotten_snoc_of_le start (restartTimes_le by') (after r (by simp))]
    simp

/-- A start gives the counter of tokens its estimate, and a minute to live. -/
lemma tracks_tpm_of_start {estimatedTokens : ℕ} (call : r.call = .started estimatedTokens)
    (by' : By history r.time) (tracks : Tracks PostcallRecord.tokens history key) :
    Tracks PostcallRecord.tokens (history ++ [r]) (RedisKey.expire r.time 60
      (if estimatedTokens ≠ 0 then RedisKey.incrBy r.time estimatedTokens key else key)) := by
  have start : r.isStart := by simp [PostcallRecord.isStart, call]
  have amount : r.tokens = estimatedTokens := by simp [PostcallRecord.tokens, call]
  refine tracks_of_restart start by' fun now => ?_
  split
  case isTrue =>
    rw [expire_incrBy, read_some, tracks r.time by', amount]
    simp
  case isFalse zero =>
    rw [read_expire, tracks r.time by', amount, not_not.1 zero]
    simp

/-- After every sequence of calls in the order of time, both counters are sums over the calls since the
last lapse. -/
lemma tracks_countersAfter (ordered : history.Pairwise fun r r' => r.time ≤ r'.time) :
    Tracks PostcallRecord.requests history (countersAfter history).rpm ∧
      Expires history (countersAfter history).rpm ∧
      Tracks PostcallRecord.tokens history (countersAfter history).tpm := by
  induction history using List.reverseRecOn with
  | nil =>
    refine ⟨fun _ _ => rfl, fun t now _ _ => ?_, fun _ _ => rfl⟩
    simp [Lapsed, Forgotten, restartTimes, countersAfter, PostcallCounters.unset]
  | append_singleton history r ih =>
    obtain ⟨earlier, _, last⟩ := List.pairwise_append.1 ordered
    have by' : By history r.time := fun r' mem => last r' mem r (List.mem_singleton.2 rfl)
    obtain ⟨rpm, expires, tpm⟩ := ih earlier
    have after : countersAfter (history ++ [r]) = recordCall (countersAfter history) r :=
      List.foldl_append
    rw [after, recordCall]
    cases call : r.call with
    | started estimatedTokens =>
      have start : r.isStart := by simp [PostcallRecord.isStart, call]
      obtain ⟨rpm', expires'⟩ := tracks_rpm_of_start start by' rpm
      exact ⟨rpm', expires', tracks_tpm_of_start call by' tpm⟩
    | ended =>
      have ends : ¬ r.isStart := by simp [PostcallRecord.isStart, call]
      obtain ⟨rpm', expires'⟩ := tracks_rpm_of_end ends by' rpm expires
      refine ⟨rpm', expires', fun now after => ?_⟩
      have none : r.tokens = 0 := by simp [PostcallRecord.tokens, call]
      have same := tpm now fun r' mem => after r' (List.mem_append_left _ mem)
      rw [sinceLapseTotal, total_snoc_of_not ends, none, ite_self, add_zero]
      exact same

/-! ### The signal -/

/-- The estimates of the starts of the last minute. -/
def minuteTokens (history : List PostcallRecord) (now : Time) : ℤ :=
  ((history.filter fun r => now - seconds 60 < r.time).map PostcallRecord.tokens).sum

/-- The signal pauses the dialler on the use of tokens. -/
def PausesOnTokens (cfg : Settings) (now : Time) (s : PostcallCounters) : Prop :=
  (PostCallCircuitBreaker.capacitySignal cfg now s).allowed = false ∧
    1 ≤ PostCallCircuitBreaker.tpmRatio cfg now s

/-- What the signal reads tells of the last minute: the requests are not negative, the tokens are no
more than the estimates of the starts in it, and it pauses on tokens only if these reached the limit. -/
structure Truthful (cfg : Settings) (history : List PostcallRecord) (now : Time) : Prop where
  requests : 0 ≤ RedisKey.read now (countersAfter history).rpm
  tokens : RedisKey.read now (countersAfter history).tpm ≤ minuteTokens history now
  pause : PausesOnTokens cfg now (countersAfter history) →
    cfg.llmTokensPerMinute ≤ minuteTokens history now

/-- Since the last time that no call started for a minute, no more calls have ended than started, and
every start with an estimate was within the last minute. -/
structure OfLastMinute (history : List PostcallRecord) (now : Time) : Prop where
  ends : (sinceLapse history now).countP (fun r => !r.isStart) ≤
    (sinceLapse history now).countP (·.isStart)
  starts : ∀ r ∈ sinceLapse history now, r.tokens ≠ 0 → now - seconds 60 < r.time

lemma sum_requests {l : List PostcallRecord} : (l.map PostcallRecord.requests).sum =
    l.countP (·.isStart) - l.countP (fun r => !r.isStart) := by
  induction l with
  | nil => rfl
  | cons r l ih =>
    rw [List.map_cons, List.sum_cons, ih, PostcallRecord.requests]
    cases h : r.isStart <;> simp [h] <;> ring

lemma isStart_of_tokens (h : r.tokens ≠ 0) : r.isStart := by
  unfold PostcallRecord.tokens at h
  unfold PostcallRecord.isStart
  split at h
  · rfl
  · exact absurd rfl h

/-- The tokens are the estimates of the last minute exactly if no start before it is remembered. -/
lemma total_le_minuteTokens_iff : sinceLapseTotal PostcallRecord.tokens history now ≤
    minuteTokens history now ↔
      ∀ r ∈ sinceLapse history now, r.tokens ≠ 0 → now - seconds 60 < r.time := by
  have kept : ∀ r ∈ history, r.tokens ≠ 0 → decide (now - seconds 60 < r.time) →
      decide (¬ Lapsed history now r.time) := by
    intro r mem some recent
    simp only [decide_eq_true_eq] at recent ⊢
    exact not_forgotten_of_recent mem (isStart_of_tokens some) (by linarith)
  rw [sinceLapseTotal, total, minuteTokens, remembered,
    sum_filter_le_iff (fun r _ => r.tokens_nonneg) kept]
  simp only [sinceLapse, remembered, List.mem_filter, and_imp, decide_eq_true_eq]

/-- A pause on tokens has read the limit. -/
lemma tokens_of_pausesOnTokens (pauses : PausesOnTokens cfg now s)
    (nonneg : 0 ≤ RedisKey.read now s.tpm) : cfg.llmTokensPerMinute ≤ RedisKey.read now s.tpm := by
  have reached := pauses.2
  unfold PostCallCircuitBreaker.tpmRatio PostCallCircuitBreaker.ratio at reached
  split at reached
  case isTrue positive =>
    have positive : (0 : ℚ) < cfg.llmTokensPerMinute := by exact_mod_cast Nat.pos_of_ne_zero positive
    rw [one_le_div positive] at reached
    exact_mod_cast reached
  case isFalse zero =>
    rw [not_not.1 zero]
    exact nonneg

/-- For every sequence of calls in the order of time and every later time: the signal tells of the last
minute exactly if, since the last time that no call started for a minute, no more calls have ended than
started and every start with an estimate was within the last minute. -/
theorem truthful_iff (cfg : Settings) (ordered : history.Pairwise fun r r' => r.time ≤ r'.time)
    (by' : By history now) : Truthful cfg history now ↔ OfLastMinute history now := by
  obtain ⟨rpm, _, tpm⟩ := tracks_countersAfter ordered
  have requests : RedisKey.read now (countersAfter history).rpm =
      (sinceLapse history now).countP (·.isStart) -
        (sinceLapse history now).countP (fun r => !r.isStart) := (rpm now by').trans sum_requests
  have nonneg : 0 ≤ RedisKey.read now (countersAfter history).tpm := by
    rw [tpm now by']
    refine List.sum_nonneg fun n mem => ?_
    obtain ⟨r, _, rfl⟩ := List.mem_map.1 mem
    exact r.tokens_nonneg
  constructor
  · intro truthful
    refine ⟨?_, total_le_minuteTokens_iff.1 (tpm now by' ▸ truthful.tokens)⟩
    have nonneg := truthful.requests
    rw [requests, sub_nonneg] at nonneg
    exact_mod_cast nonneg
  · intro minute
    have tokens : RedisKey.read now (countersAfter history).tpm ≤ minuteTokens history now := by
      rw [tpm now by']
      exact total_le_minuteTokens_iff.2 minute.starts
    refine ⟨?_, tokens, fun pauses => (tokens_of_pausesOnTokens pauses nonneg).trans tokens⟩
    rw [requests, sub_nonneg]
    exact_mod_cast minute.ends

/-- A call starts and is forgotten; then two start with half of the limit of the tokens each, and one
ends between them. -/
def busyMinute : List PostcallRecord :=
  [⟨0, .started 30000⟩, ⟨seconds 65, .started 45000⟩, ⟨seconds 70, .ended⟩,
    ⟨seconds 80, .started 45000⟩]

/-- The signal pauses the dialler, and the last minute has the limit. -/
theorem truthful_iff_plain : Truthful settings busyMinute (seconds 90) ∧
    PausesOnTokens settings (seconds 90) (countersAfter busyMinute) ∧
    minuteTokens busyMinute (seconds 90) = 90000 := by
  refine ⟨(truthful_iff settings (by decide) (by simp [By, busyMinute, seconds])).2 ⟨?_, ?_⟩, ?_, ?_⟩
  · decide
  · decide
  · unfold PausesOnTokens
    decide +kernel
  · decide

/-- Half of the limit of the tokens is asked for at the start of each of two minutes that overlap. -/
def twoStarts : List PostcallRecord :=
  [⟨0, .started 45000⟩, ⟨seconds 50, .started 45000⟩]

/-- Each end follows its own start. -/
def Matched (history : List PostcallRecord) : Prop :=
  ∀ earlier, earlier <+: history →
    earlier.countP (fun r => !r.isStart) ≤ earlier.countP (·.isStart)

/-- Fifty seconds after the second of two starts, the counter of tokens has both of them: the signal
pauses the dialler, though the last minute has only half of the limit. -/
theorem not_truthful : ¬ ∀ (cfg : Settings) (history : List PostcallRecord) (now : Time),
    history.Pairwise (fun r r' => r.time ≤ r'.time) → By history now → Matched history →
    Truthful cfg history now := by
  intro truthful
  have matched : Matched twoStarts := by
    have all : ∀ earlier ∈ twoStarts.inits, earlier.countP (fun r => !r.isStart) ≤
        earlier.countP (·.isStart) := by decide
    exact fun earlier pre => all earlier ((List.mem_inits _ _).2 pre)
  have minute := truthful settings twoStarts (seconds 100) (by decide)
    (by simp [By, twoStarts, seconds]) matched
  have pauses : PausesOnTokens settings (seconds 100) (countersAfter twoStarts) := by
    unfold PausesOnTokens
    decide +kernel
  exact absurd (minute.pause pauses) (by decide +kernel)

/-- An end after its start was forgotten leaves a counter of minus one. -/
example : RedisKey.read (seconds 61) (countersAfter [⟨0, .started 0⟩, ⟨seconds 61, .ended⟩]).rpm =
    -1 := by decide +kernel

end PostCall.Properties

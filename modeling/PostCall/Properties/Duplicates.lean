import PostCall.Library.Position
import PostCall.Machine.Webhooks
import PostCall.Properties.Uniqueness

/-!
# Duplicate deliveries

Any number of deliveries of the webhook for one interaction, whose statements come in any order. The
first one to update the row of the interaction keeps it locked until its job is committed, and every
other one looks its job up after that: no two of them insert the key. A delivery that is not answered
with the job is one whose own values the columns do not take, or one whose wakeup of the worker fails
without a trace.
-/

namespace PostCall.Properties
open PostCall.Library PostCall.Python PostCall.Model PostCall.Machine

variable {cfg : Settings} {text : Text} {id sessionId : UUID} {db db' : Db} {s : Webhooks}
  {request : EndRequest} {phase : Phase} {interaction : Interaction} {job : InteractionJob}
  {others : List Delivery} {n : ℕ}

/-- An orchestration job of the interaction. -/
def IsRoot (db : Db) (id : UUID) (row : InteractionJob) : Prop :=
  row ∈ db.queue.jobs.rows ∧ row.interactionId = id ∧ row.jobType = .orchestrateInteraction

/-- The interaction has this orchestration job and no other one. -/
def OnlyRoot (db : Db) (id : UUID) (job : InteractionJob) : Prop :=
  ∀ row, IsRoot db id row ↔ row = job

/-- The conversation of the interaction has the texts of the payload, and what the row holds can be
stored again. -/
structure Readable (text : Text) (interaction : Interaction) : Prop where
  texts : ∃ transcript account, interaction.transcriptText text = .ok transcript ∧
    interaction.exotelAccountId = .ok account ∧ Json.storableText transcript
  conversation : interaction.conversationData.storable
  callSid : interaction.callSid.all Json.storableText

/-- The interaction is there with its session, its conversation can be read, and its orchestration
jobs are what is under the key of the webhook. -/
structure Expecting (text : Text) (id sessionId : UUID) (db : Db) : Prop where
  known : ∃ interaction, db.interactions.find? id = some interaction ∧
    interaction.sessionId = sessionId ∧ Readable text interaction
  own : ∀ row ∈ db.queue.jobs.rows, row.idempotencyKey = rootKey id.str ↔
    row.interactionId = id ∧ row.jobType = .orchestrateInteraction

/-- A delivery for the interaction and its session, which brings a new id for the job and a time that
can be written. -/
structure Delivers (text : Text) (db : Db) (id sessionId : UUID) (request : EndRequest) : Prop where
  interaction : request.interactionId = id
  session : request.sessionId = sessionId
  fresh : ∀ row ∈ db.queue.jobs.rows, row.id ≠ request.birth.id
  endedAt : Json.storableText (text.isoformat request.endedAt)

/-- Whether the payload takes the data that the request adds. -/
def dataStorable (request : EndRequest) : Bool :=
  (Json.dict (request.additionalData.getD [])).storable

/-- Whether the worker is woken, or else the failure recorded. -/
def wakeupNoted (request : EndRequest) : Bool := request.wakeup.all (·.refusal = none)

/-- The answer of a delivery whose transaction was committed: the id of the one job, unless the
failure of the wakeup could not be recorded. -/
def NamesJob (id : UUID) (db : Db) (request : EndRequest) (answer : Answer) : Prop :=
  ∃ job, OnlyRoot db id job ∧
    answer = if wakeupNoted request then .ok job.id else .error 500

/-- What a delivery answers in the end. The data that it adds is written only with a new job, so that it
may be served even where they cannot be stored. -/
def Answered (id : UUID) (db : Db) (request : EndRequest) (answer : Answer) : Prop :=
  if request.fits then
    NamesJob id db request answer ∨ (dataStorable request = false ∧ answer = .error 500)
  else answer = .error 500

/-! ### The texts of a delivery -/

/-- The id of the call after `mark_ended`. -/
lemma storable_callSid_ended (readable : Readable text interaction) (fits : request.fits) :
    (ended request interaction).callSid.all Json.storableText := by
  have own : request.callSid.all Json.storableText := by
    simp only [EndRequest.fits, Bool.and_eq_true, Option.all_eq_true] at fits ⊢
    exact fun s given => (fits.2 s given).2
  unfold ended Interaction.markEnded
  simp only
  split
  case h_1 sid given =>
    split
    · exact readable.callSid
    · rwa [given] at own
  case h_2 => exact readable.callSid

/-- The UPDATE leaves a row whose texts can be stored. -/
lemma readable_flushEnded {row : Interaction} (readable : Readable text row)
    (loaded : Readable text interaction) (fits : request.fits) :
    Readable text (flushEnded interaction (ended request interaction) row) := by
  refine ⟨readable.texts, readable.conversation, ?_⟩
  unfold flushEnded column
  simp only
  split
  · exact readable.callSid
  · exact storable_callSid_ended loaded fits

/-- The id of the call as the payload has it. -/
lemma storable_orText (readable : Readable text interaction) (fits : request.fits) :
    (Json.ofOption ((orText request.callSid
      (ended request interaction).callSid).map .str)).storable := by
  have stored : ∀ x : Option String, x.all Json.storableText → (Json.ofOption (x.map .str)).storable
    | none, _ => rfl
    | some _, h => h
  refine stored _ ?_
  unfold orText
  split
  case h_1 s given =>
    split
    · exact storable_callSid_ended readable fits
    · simp only [EndRequest.fits, Bool.and_eq_true, Option.all_eq_true] at fits
      exact (fits.2 s given).2
  case h_2 => exact storable_callSid_ended readable fits

/-- The conversation as the payload has it, and the account in it. -/
lemma storable_conversation (readable : Readable text interaction) :
    (orElse (some interaction.conversationData) (.dict [])).storable := by
  unfold orElse
  simp only
  split
  · exact readable.conversation
  · rfl

/-- The account that a readable row names can be stored. -/
lemma storable_exotelAccountId {account : Json} (readable : Readable text interaction)
    (read : interaction.exotelAccountId = .ok account) : account.storable := by
  obtain ⟨conversation, isDict, e⟩ := Program.except_ok.1 read
  cases e
  have storable := storable_conversation readable
  cases given : orElse (some interaction.conversationData) (.dict []) with
  | dict entries =>
    rw [Interaction.conversation, given] at isDict
    cases isDict
    rw [given] at storable
    unfold Dict.getD
    cases found : Dict.get? conversation "exotel_account_sid" with
    | none => rfl
    | some x => exact Json.storable_of_get? storable found
  | _ =>
    rw [Interaction.conversation, given] at isDict
    cases isDict

/-- The payload can be stored if the data can that the request adds. -/
lemma storable_endedPayload {payload : Dict} (readable : Readable text interaction)
    (fits : request.fits) (data : dataStorable request)
    (endedAt : Json.storableText (text.isoformat request.endedAt))
    (built : endedPayload text (ended request interaction) request = .ok payload) :
    (Json.dict payload).storable := by
  obtain ⟨transcript, account, read, read', written⟩ := readable.texts
  have transcriptText : (ended request interaction).transcriptText text = .ok transcript := read
  have exotelAccountId : (ended request interaction).exotelAccountId = .ok account := read'
  have duration : (Json.ofOption (request.durationSeconds.map .int)).storable := by
    cases request.durationSeconds <;> rfl
  unfold endedPayload at built
  rw [transcriptText, exotelAccountId] at built
  cases built
  have called := storable_orText readable fits
  have conversation := storable_conversation readable
  have account := storable_exotelAccountId readable read'
  have ids : ∀ id : UUID, (Json.str id.str).storable := fun _ => UUID.storableText_str
  simp only [Json.storable_cons, Bool.and_eq_true]
  exact ⟨⟨by decide, ids _⟩, ⟨by decide, ids _⟩, ⟨by decide, ids _⟩, ⟨by decide, ids _⟩,
    ⟨by decide, ids _⟩, ⟨by decide, ids _⟩, ⟨by decide, called⟩, ⟨by decide, duration⟩,
    ⟨by decide, conversation⟩, ⟨by decide, written⟩, ⟨by decide, data⟩, ⟨by decide, endedAt⟩,
    ⟨by decide, account⟩, rfl⟩

/-! ### The job of the interaction -/

/-- Nothing is under the key of the webhook. -/
def NoRoot (db : Db) (id : UUID) : Prop :=
  ∀ row ∈ db.queue.jobs.rows, row.idempotencyKey ≠ rootKey id.str

lemma OnlyRoot.congr (h : OnlyRoot db id job) (same : db'.queue.jobs = db.queue.jobs) :
    OnlyRoot db' id job := by
  unfold OnlyRoot IsRoot at h ⊢
  rwa [same]

namespace Expecting

/-- What is found under the key is the one job. -/
lemma onlyRoot_of_found (h : Expecting text id sessionId db)
    (found : db.queue.getByIdempotencyKey? (rootKey id.str) = some job) : OnlyRoot db id job := by
  obtain ⟨mem, key⟩ := Table.findIndex?_eq_some.1 found
  intro row
  constructor
  · rintro ⟨hr, own⟩
    exact Table.eq_of_index hr mem (((h.own row hr).2 own).trans key.symm)
  · rintro rfl
    exact ⟨mem, (h.own row mem).1 key⟩

lemma not_noRoot (h : Expecting text id sessionId db) (only : OnlyRoot db id job) :
    ¬ NoRoot db id := by
  obtain ⟨mem, own⟩ := (only job).2 rfl
  exact fun none => none job mem ((h.own job mem).2 own)

/-- This is about the queue and the interactions. -/
lemma congr (h : Expecting text id sessionId db) (queue : db'.queue.jobs = db.queue.jobs)
    (interactions : db'.interactions = db.interactions) : Expecting text id sessionId db' := by
  obtain ⟨known, own⟩ := h
  refine ⟨?_, ?_⟩
  · rwa [interactions]
  · rwa [queue]

/-- The UPDATE of a delivery leaves the session and the conversation alone. -/
lemma commit {d : Delivery} {queue : Queue} (h : Expecting text id sessionId db)
    (loaded : Readable text interaction) (fits : d.request.fits)
    (own : ∀ row ∈ queue.jobs.rows, row.idempotencyKey = rootKey id.str ↔
      row.interactionId = id ∧ row.jobType = .orchestrateInteraction) :
    Expecting text id sessionId (d.commit interaction job queue db) := by
  refine ⟨?_, own⟩
  obtain ⟨row, found, session, readable⟩ := h.known
  have updated : (d.commit interaction job queue db).interactions.find? id =
      if id = interaction.id then
        some (flushEnded interaction (ended d.request interaction) row)
      else some row := by
    change (db.interactions.modify interaction.id
      (flushEnded interaction (ended d.request interaction)) (fun _ => flushEnded_id)
      fun _ => flushEnded_id).find? id = _
    rw [Table.find?_modify, found]
    rfl
  rw [updated]
  split
  · exact ⟨_, rfl, session, readable_flushEnded readable loaded fits⟩
  · exact ⟨row, rfl, session, readable⟩

/-- A row that is inserted under a free key is the one job. -/
lemma onlyRoot_of_add {queue : Queue} (h : Expecting text id sessionId db) (none : NoRoot db id)
    (added : db.queue.add? job = some queue) (interactionId : job.interactionId = id)
    (type : job.jobType = .orchestrateInteraction) (same : db'.queue = queue) :
    OnlyRoot db' id job := by
  intro row
  unfold IsRoot
  rw [same, (Queue.add?_eq_some added).1, List.mem_append, List.mem_singleton]
  constructor
  · rintro ⟨mem | rfl, own⟩
    · exact (none row mem ((h.own row mem).2 own)).elim
    · rfl
  · rintro rfl
    exact ⟨.inr rfl, interactionId, type⟩

/-- The key stays the one of the interaction when its root is added. -/
lemma own_of_add {queue : Queue} (h : Expecting text id sessionId db)
    (added : db.queue.add? job = some queue) (key : job.idempotencyKey = rootKey id.str)
    (interactionId : job.interactionId = id) (type : job.jobType = .orchestrateInteraction) :
    ∀ row ∈ queue.jobs.rows, row.idempotencyKey = rootKey id.str ↔
      row.interactionId = id ∧ row.jobType = .orchestrateInteraction := by
  intro row mem
  rw [(Queue.add?_eq_some added).1, List.mem_append, List.mem_singleton] at mem
  rcases mem with mem | rfl
  · exact h.own row mem
  · exact ⟨fun _ => ⟨interactionId, type⟩, fun _ => key⟩

end Expecting

/-! ### One statement -/

/-- What holds of a delivery between two of its statements. -/
inductive Progress (text : Text) (id : UUID) (db : Db) (request : EndRequest) : Phase → Prop where
  | arrived :
    Progress text id db request .arrived
  | loaded {interaction : Interaction} :
    interaction.id = id →
    Readable text interaction →
    Progress text id db request (.loaded interaction)
  | updated {interaction : Interaction} {payload} :
    request.fits →
    interaction.id = id →
    Readable text interaction →
    (dataStorable request → (Json.dict payload).storable) →
    Progress text id db request (.updated interaction payload)
  | missed {interaction : Interaction} {payload} :
    request.fits →
    interaction.id = id →
    Readable text interaction →
    (dataStorable request → (Json.dict payload).storable) →
    NoRoot db id →
    Progress text id db request (.missed interaction payload)
  | found {interaction : Interaction} {job : InteractionJob} :
    request.fits →
    Readable text interaction →
    OnlyRoot db id job →
    Progress text id db request (.found interaction job)
  | inserted {interaction : Interaction} {job : InteractionJob} {queue} :
    request.fits →
    Readable text interaction →
    NoRoot db id →
    db.queue.add? job = some queue →
    job.idempotencyKey = rootKey id.str →
    job.interactionId = id →
    job.jobType = .orchestrateInteraction →
    Progress text id db request (.inserted interaction job)
  | committed {job : InteractionJob} :
    request.fits →
    OnlyRoot db id job →
    Progress text id db request (.committed job)
  | served {answer : Answer} :
    request.fits →
    NamesJob id db request answer →
    Progress text id db request (.answered answer)
  | refused :
    request.fits = false ∨ dataStorable request = false →
    Progress text id db request (.answered (.error 500))

namespace Progress

/-- This is about the queue. -/
lemma congr (h : Progress text id db request phase) (same : db'.queue = db.queue) :
    Progress text id db' request phase := by
  have jobs : db'.queue.jobs = db.queue.jobs := congrArg Queue.jobs same
  cases h with
  | arrived => exact .arrived
  | loaded id readable => exact .loaded id readable
  | updated fits id readable payload => exact .updated fits id readable payload
  | missed fits id readable payload none =>
    exact .missed fits id readable payload (by rwa [NoRoot, jobs])
  | found fits readable only => exact .found fits readable (only.congr jobs)
  | inserted fits readable none added key interactionId type =>
    exact .inserted fits readable (by rwa [NoRoot, jobs]) (same ▸ added) key interactionId type
  | committed fits only => exact .committed fits (only.congr jobs)
  | served fits served =>
    obtain ⟨job, only, e⟩ := served
    exact .served fits ⟨job, only.congr jobs, e⟩
  | refused unfit => exact .refused unfit

/-- While the key is free, what a delivery that has not locked the row can be sure of does not depend
on the jobs. -/
lemma of_noRoot (h : Progress text id db request phase) (expecting : Expecting text id sessionId db)
    (none : NoRoot db id) (unlocked : ¬ phase.locks) : Progress text id db' request phase := by
  cases h with
  | arrived => exact .arrived
  | loaded id readable => exact .loaded id readable
  | committed fits only => exact (expecting.not_noRoot only none).elim
  | served fits served =>
    obtain ⟨job, only, _⟩ := served
    exact (expecting.not_noRoot only none).elim
  | refused unfit => exact .refused unfit
  | _ => exact (unlocked rfl).elim

lemma answered {answer : Answer} (h : Progress text id db request (.answered answer)) :
    Answered id db request answer := by
  unfold Answered
  cases h with
  | served fits served =>
    rw [if_pos fits]
    exact .inl served
  | refused unfit =>
    split
    case isTrue fits =>
      rcases unfit with unfit | unstorable
      · rw [fits] at unfit
        cases unfit
      · exact .inr ⟨unstorable, rfl⟩
    case isFalse => rfl

end Progress

/-- How many statements a delivery has still to take, at most. -/
def rank : Phase → ℕ
  | .arrived => 6
  | .loaded _ => 5
  | .updated _ _ => 4
  | .missed _ _ => 3
  | .found _ _ => 2
  | .inserted _ _ => 2
  | .committed _ => 1
  | .answered _ => 0

lemma rank_ne_zero_of_locks (locks : phase.locks) : rank phase ≠ 0 := by
  cases phase with
  | updated | missed | found | inserted => exact Nat.succ_ne_zero _
  | _ => cases locks

/-- A delivery with nothing left to do has answered. -/
lemma answer?_of_rank (h : rank phase = 0) : phase.answer?.isSome := by
  cases phase with
  | answered => rfl
  | _ => cases h

/-- What the next statement of a delivery does. -/
structure Continues (text : Text) (id sessionId : UUID) (others : List Delivery) (db : Db)
    (d : Delivery) (r : Db × Phase) : Prop where
  expecting : Expecting text id sessionId r.1
  progress : Progress text id r.1 d.request r.2
  jobs : r.1.queue = db.queue ∨ (NoRoot db id ∧ d.phase.locks ∧ ¬ NoRoot r.1 id)
  locks : r.2.locks → d.phase.locks ∨ ∀ other ∈ others, ¬ other.phase.locks
  advances : rank r.2 < rank d.phase ∨ rank d.phase = 0 ∨
    (¬ d.phase.locks ∧ ∃ other ∈ others, other.phase.locks)

/-- The payload of a readable row is built. -/
lemma endedPayload_ok (h : Readable text interaction) :
    ∃ payload, endedPayload text (ended request interaction) request = .ok payload := by
  obtain ⟨transcript, account, read, read', _⟩ := h.texts
  have transcriptText : (ended request interaction).transcriptText text = .ok transcript := read
  have exotelAccountId : (ended request interaction).exotelAccountId = .ok account := read'
  unfold endedPayload
  rw [transcriptText, exotelAccountId]
  exact ⟨_, rfl⟩

/-- The key of the root is made of the interaction. -/
lemma idempotencyKey_rootAsked {payload : Dict} (same : interaction.id = id) :
    (rootAsked interaction request payload).idempotencyKey = rootKey id.str := by
  rw [← same]
  rfl

/-- The columns take a job of the interaction whose payload can be stored. -/
lemma fits_rootAsked {payload : Dict} (same : interaction.id = id)
    (storable : (Json.dict payload).storable) : (rootAsked interaction request payload).fits := by
  have key := @idempotencyKey_rootAsked id request interaction payload same
  have short : (rootKey id.str).length ≤ 255 := by
    have length : (rootKey id.str).length =
        "interaction:".length + 36 + ":orchestrate:v1".length := by
      simp [rootKey, UUID.str, String.length_append]
    rw [length]
    decide
  have plain : Json.storableText (rootKey id.str) := by
    rw [rootKey, Json.storableText_append, Json.storableText_append, UUID.storableText_str]
    decide
  unfold NewJob.fits
  rw [key, plain, decide_eq_true short]
  exact storable

/-- The INSERT of a delivery that has locked the row, under the free key. -/
lemma added_of_noRoot {payload : Dict} (none : NoRoot db id) (same : interaction.id = id)
    (fresh : ∀ row ∈ db.queue.jobs.rows, row.id ≠ request.birth.id) :
    ∃ queue, db.queue.add? ((rootAsked interaction request payload).row cfg) = some queue := by
  have key : ((rootAsked interaction request payload).row cfg).idempotencyKey = rootKey id.str :=
    @idempotencyKey_rootAsked id request interaction payload same
  obtain ⟨jobs, inserted⟩ := Table.insert?_of_fresh (t := db.queue.jobs)
    (a := (rootAsked interaction request payload).row cfg) fresh
    fun row mem => key ▸ none row mem
  exact ⟨_, by rw [Queue.add?, inserted]; rfl⟩

lemma continues_loaded (expecting : Expecting text id sessionId db)
    (owned : interaction.id = id) (readable : Readable text interaction)
    (endedAt : Json.storableText (text.isoformat request.endedAt))
    (interactionId : request.interactionId = id)
    (same : ∀ other ∈ others, other.request.interactionId = id) :
    Continues text id sessionId others db ⟨request, .loaded interaction⟩
      ((Delivery.mk request (.loaded interaction)).next cfg text others db) := by
  obtain ⟨payload, built⟩ := @endedPayload_ok text request interaction readable
  simp only [Delivery.next, built]
  cases fits : request.fits with
  | false =>
    exact ⟨expecting, .refused (.inl fits), .inl rfl, (fun locks => by cases locks),
      .inl (Nat.succ_pos 4)⟩
  | true =>
    simp only [Bool.not_true, Bool.false_eq_true, if_false]
    split
    case isTrue waits =>
      obtain ⟨other, mem, locks⟩ := List.any_eq_true.1 waits
      exact ⟨expecting, .loaded owned readable, .inl rfl, (fun locks => by cases locks),
        .inr (.inr ⟨Bool.false_ne_true, other, mem, (Bool.and_eq_true _ _ ▸ locks).1⟩)⟩
    case isFalse unlocked =>
      have storable (data : dataStorable request) :=
        storable_endedPayload readable fits data endedAt built
      refine ⟨expecting, .updated fits owned readable storable, .inl rfl,
        fun _ => .inr fun other mem locks => ?_, .inl (Nat.lt_succ_self 4)⟩
      refine unlocked (List.any_eq_true.2 ⟨other, mem, ?_⟩)
      simp [Delivery.locks, locks, same other mem, interactionId]

lemma continues_missed {payload : Dict} (expecting : Expecting text id sessionId db)
    (fits : request.fits) (owned : interaction.id = id) (readable : Readable text interaction)
    (storable : dataStorable request → (Json.dict payload).storable) (none : NoRoot db id)
    (fresh : ∀ row ∈ db.queue.jobs.rows, row.id ≠ request.birth.id)
    (alone : ∀ other ∈ others, ¬ other.phase.locks) :
    Continues text id sessionId others db ⟨request, .missed interaction payload⟩
      ((Delivery.mk request (.missed interaction payload)).next cfg text others db) := by
  have key := @idempotencyKey_rootAsked id request interaction payload owned
  obtain ⟨queue, added⟩ := @added_of_noRoot cfg id db request interaction payload none owned fresh
  obtain ⟨row, found, _⟩ := expecting.known
  -- a row that another one has inserted would have its lock
  have free : ¬ others.any (·.phase.inserts ((rootAsked interaction request payload).row cfg)) := by
    intro waits
    obtain ⟨other, mem, inserts⟩ := List.any_eq_true.1 waits
    refine alone other mem ?_
    unfold Phase.inserts at inserts
    split at inserts
    case h_1 e => rw [e]; rfl
    case h_2 => cases inserts
  have known : (db.interactions.find? interaction.id).isNone = false := by
    rw [owned, found]
    rfl
  simp only [Delivery.next, if_neg free]
  split
  case isTrue refused =>
    have unstorable : dataStorable request = false := by
      by_contra data
      have taken := @fits_rootAsked id request interaction payload owned
        (storable (Bool.eq_true_of_not_eq_false data))
      rw [taken] at refused
      cases refused
    exact ⟨expecting, .refused (.inr unstorable), .inl rfl, (fun locks => by cases locks),
      .inl (Nat.succ_pos 2)⟩
  case isFalse =>
    simp only [known, Bool.false_eq_true, if_false, added]
    exact ⟨expecting, .inserted fits readable none added key owned rfl, .inl rfl,
      fun _ => .inl rfl, .inl (Nat.lt_succ_self 2)⟩

/-- The wakeup after the commit, and the transaction that records its failure. -/
lemma continues_committed {job : InteractionJob} (expecting : Expecting text id sessionId db)
    (fits : request.fits) (only : OnlyRoot db id job) :
    Continues text id sessionId others db ⟨request, .committed job⟩
      ((Delivery.mk request (.committed job)).next cfg text others db) := by
  cases woken : request.wakeup with
  | none =>
    have served : NamesJob id db request (.ok job.id) := ⟨job, only, by rw [wakeupNoted, woken]; rfl⟩
    simp only [Delivery.next, woken]
    exact ⟨expecting, .served fits served, .inl rfl, (fun locks => by cases locks),
      .inl (Nat.lt_succ_self 0)⟩
  | some failed =>
    simp only [Delivery.next, woken, Library.commit, wakeupFailed]
    cases refused : failed.refusal with
    | none =>
      refine ⟨expecting.congr rfl rfl, .served fits ⟨job, only.congr rfl, ?_⟩, .inl rfl,
        (fun locks => by cases locks), .inl (Nat.lt_succ_self 0)⟩
      rw [wakeupNoted, woken, Option.all_some, refused]
      rfl
    | some e =>
      refine ⟨expecting, .served fits ⟨job, only, ?_⟩, .inl rfl, (fun locks => by cases locks),
        .inl (Nat.lt_succ_self 0)⟩
      rw [wakeupNoted, woken, Option.all_some, refused]
      rfl

lemma continues_next {d : Delivery} (expecting : Expecting text id sessionId db)
    (progress : Progress text id db d.request d.phase) (interactionId : d.request.interactionId = id)
    (session : d.request.sessionId = sessionId)
    (endedAt : Json.storableText (text.isoformat d.request.endedAt))
    (fresh : NoRoot db id → ∀ row ∈ db.queue.jobs.rows, row.id ≠ d.request.birth.id)
    (same : ∀ other ∈ others, other.request.interactionId = id)
    (alone : d.phase.locks → ∀ other ∈ others, ¬ other.phase.locks) :
    Continues text id sessionId others db d (d.next cfg text others db) := by
  obtain ⟨request, phase⟩ := d
  simp only at progress interactionId session endedAt fresh alone
  cases progress with
  | arrived =>
    obtain ⟨row, found, owned, readable⟩ := expecting.known
    have next : (Delivery.mk request .arrived).next cfg text others db = (db, .loaded row) := by
      simp only [Delivery.next, interactionId, found, owned, session, ne_eq, not_true_eq_false,
        if_false]
    rw [next]
    exact ⟨expecting, .loaded (Table.find?_eq_some.1 found).2 readable, .inl rfl,
      (fun locks => by cases locks), .inl (Nat.lt_succ_self 5)⟩
  | loaded owned readable =>
    exact continues_loaded expecting owned readable endedAt interactionId same
  | @updated interaction payload fits owned readable storable =>
    have key := @idempotencyKey_rootAsked id request interaction payload owned
    simp only [Delivery.next, key]
    split
    case h_1 job found =>
      exact ⟨expecting, .found fits readable (expecting.onlyRoot_of_found found), .inl rfl,
        fun _ => .inl rfl, .inl (show 2 < 4 by decide)⟩
    case h_2 absent =>
      have none := Table.findIndex?_eq_none.1 absent
      exact ⟨expecting, .missed fits owned readable storable none, .inl rfl,
        fun _ => .inl rfl, .inl (Nat.lt_succ_self 3)⟩
  | missed fits owned readable storable none =>
    exact continues_missed expecting fits owned readable storable none (fresh none) (alone rfl)
  | found fits readable only =>
    exact ⟨expecting.commit readable fits expecting.own, .committed fits (only.congr rfl), .inl rfl,
      (fun locks => by cases locks), .inl (Nat.lt_succ_self 1)⟩
  | @inserted interaction job queue fits readable none added key interactionId type =>
    simp only [Delivery.next, added, Option.getD_some]
    have committed := @Expecting.commit text id sessionId db interaction job
      ⟨request, .inserted interaction job⟩ queue expecting readable fits
      (expecting.own_of_add added key interactionId type)
    have only : OnlyRoot (Delivery.commit ⟨request, .inserted interaction job⟩ interaction job
        queue db) id job := expecting.onlyRoot_of_add none added interactionId type rfl
    exact ⟨committed, .committed fits only, .inr ⟨none, rfl, committed.not_noRoot only⟩,
      (fun locks => by cases locks), .inl (Nat.lt_succ_self 1)⟩
  | committed fits only => exact continues_committed expecting fits only
  | served fits served =>
    exact ⟨expecting, .served fits served, .inl rfl, (fun locks => by cases locks), .inr (.inl rfl)⟩
  | refused unfit =>
    exact ⟨expecting, .refused unfit, .inl rfl, (fun locks => by cases locks), .inr (.inl rfl)⟩

/-! ### Whole runs -/

/-- What holds of the deliveries at any time: at most one has locked the row. -/
structure Orderly (text : Text) (id sessionId : UUID) (s : Webhooks) : Prop where
  expecting : Expecting text id sessionId s.db
  interactionId : ∀ d ∈ s.deliveries, d.request.interactionId = id
  session : ∀ d ∈ s.deliveries, d.request.sessionId = sessionId
  endedAt : ∀ d ∈ s.deliveries, Json.storableText (text.isoformat d.request.endedAt)
  fresh : NoRoot s.db id → ∀ d ∈ s.deliveries, ∀ row ∈ s.db.queue.jobs.rows,
    row.id ≠ d.request.birth.id
  progress : ∀ d ∈ s.deliveries, Progress text id s.db d.request d.phase
  exclusive : ∀ (m n : ℕ) (a b : Delivery), s.deliveries[m]? = some a → s.deliveries[n]? = some b →
    a.phase.locks → b.phase.locks → m = n

namespace Orderly

lemma start {requests : List EndRequest} (expecting : Expecting text id sessionId db)
    (delivers : ∀ request ∈ requests, Delivers text db id sessionId request) :
    Orderly text id sessionId (.start db requests) := by
  have arrived : ∀ d ∈ (Webhooks.start db requests).deliveries,
      Delivers text db id sessionId d.request ∧ d.phase = .arrived := by
    intro d mem
    obtain ⟨request, asked, rfl⟩ := List.mem_map.1 mem
    exact ⟨delivers request asked, rfl⟩
  refine ⟨expecting, fun d mem => (arrived d mem).1.interaction,
    fun d mem => (arrived d mem).1.session, fun d mem => (arrived d mem).1.endedAt,
    fun _ d mem => (arrived d mem).1.fresh, fun d mem => ?_, fun m n a b ha _ locks => ?_⟩
  · rw [(arrived d mem).2]
    exact .arrived
  · rw [(arrived a (List.mem_of_getElem? ha)).2] at locks
    cases locks

/-- The statement of the `n`th delivery. -/
lemma continues {d : Delivery} (h : Orderly text id sessionId s) (found : s.deliveries[n]? = some d) :
    Continues text id sessionId (s.deliveries.eraseIdx n) s.db d
      (d.next cfg text (s.deliveries.eraseIdx n) s.db) := by
  have mem := List.mem_of_getElem? found
  refine continues_next h.expecting (h.progress d mem) (h.interactionId d mem) (h.session d mem)
    (h.endedAt d mem) (fun none => h.fresh none d mem)
    (fun other hm => h.interactionId other (List.mem_of_mem_eraseIdx hm)) fun locks other hm hl => ?_
  obtain ⟨m, ne, at_m⟩ := List.mem_eraseIdx_iff_getElem?.1 hm
  exact ne (h.exclusive m n other d at_m found hl locks)

lemma step (h : Orderly text id sessionId s) : Orderly text id sessionId (s.step cfg text n) := by
  unfold Webhooks.step
  split
  case h_2 => exact h
  case h_1 d found =>
  have next := @continues cfg text id sessionId s n d h found
  generalize d.next cfg text (s.deliveries.eraseIdx n) s.db = r at next ⊢
  obtain ⟨db, phase⟩ := r
  simp only at next ⊢
  have mem := List.mem_of_getElem? found
  -- every delivery but this one is where it was
  have of_mem : ∀ a ∈ s.deliveries.set n ⟨d.request, phase⟩,
      a = ⟨d.request, phase⟩ ∨ ∃ m, m ≠ n ∧ s.deliveries[m]? = some a := by
    intro a ha
    obtain ⟨m, at_m⟩ := List.mem_iff_getElem?.1 ha
    exact (of_getElem?_set at_m).imp And.right fun h => ⟨m, h⟩
  have alone : phase.locks → ∀ m a, m ≠ n → s.deliveries[m]? = some a → ¬ a.phase.locks := by
    intro locks m a ne at_m other
    rcases next.locks locks with before | none
    · exact ne (h.exclusive m n a d at_m found other before)
    · exact none a (List.mem_eraseIdx_iff_getElem?.2 ⟨m, ne, at_m⟩) other
  refine ⟨next.expecting, fun a ha => ?_, fun a ha => ?_, fun a ha => ?_, fun none a ha => ?_,
    fun a ha => ?_, fun i j a b at_i at_j locks locks' => ?_⟩
  · rcases of_mem a ha with rfl | ⟨m, _, at_m⟩
    · exact h.interactionId d mem
    · exact h.interactionId a (List.mem_of_getElem? at_m)
  · rcases of_mem a ha with rfl | ⟨m, _, at_m⟩
    · exact h.session d mem
    · exact h.session a (List.mem_of_getElem? at_m)
  · rcases of_mem a ha with rfl | ⟨m, _, at_m⟩
    · exact h.endedAt d mem
    · exact h.endedAt a (List.mem_of_getElem? at_m)
  · rcases next.jobs with same | ⟨_, _, some⟩
    · have same : db.queue = s.db.queue := same
      rw [NoRoot, same] at none
      rw [same]
      rcases of_mem a ha with rfl | ⟨m, _, at_m⟩
      · exact h.fresh none d mem
      · exact h.fresh none a (List.mem_of_getElem? at_m)
    · exact (some none).elim
  · rcases of_mem a ha with rfl | ⟨m, ne, at_m⟩
    · exact next.progress
    · have before := h.progress a (List.mem_of_getElem? at_m)
      rcases next.jobs with same | ⟨none, locks, _⟩
      · exact before.congr same
      · exact before.of_noRoot h.expecting none fun other =>
          ne (h.exclusive m n a d at_m found other locks)
  · rcases of_getElem?_set at_i with ⟨rfl, rfl⟩ | ⟨ne, before⟩ <;>
    rcases of_getElem?_set at_j with ⟨rfl, rfl⟩ | ⟨ne', before'⟩
    · rfl
    · exact (alone locks j b ne' before' locks').elim
    · exact (alone locks' i a ne before locks).elim
    · exact h.exclusive i j a b before before' locks locks'

lemma run {schedule : List ℕ} (h : Orderly text id sessionId s) :
    Orderly text id sessionId (s.run cfg text schedule) := by
  induction schedule generalizing s with
  | nil => exact h
  | cons n schedule ih => exact ih h.step

/-- As long as a delivery has not answered, there is one whose next statement does not wait. -/
lemma exists_advance (h : Orderly text id sessionId s)
    (waiting : ∃ d ∈ s.deliveries, rank d.phase ≠ 0) :
    ∃ n, (((s.step cfg text n).deliveries.map (rank ·.phase)).sum <
      (s.deliveries.map (rank ·.phase)).sum) := by
  -- the one that has locked the row goes first
  obtain ⟨n, d, found, unanswered, goes⟩ : ∃ (n : ℕ) (d : Delivery), s.deliveries[n]? = some d ∧
      rank d.phase ≠ 0 ∧ (d.phase.locks ∨ ∀ other ∈ s.deliveries, ¬ other.phase.locks) := by
    by_cases locked : ∃ d ∈ s.deliveries, d.phase.locks
    · obtain ⟨d, mem, locks⟩ := locked
      obtain ⟨n, found⟩ := List.mem_iff_getElem?.1 mem
      exact ⟨n, d, found, rank_ne_zero_of_locks locks, .inl locks⟩
    · obtain ⟨d, mem, unanswered⟩ := waiting
      obtain ⟨n, found⟩ := List.mem_iff_getElem?.1 mem
      exact ⟨n, d, found, unanswered, .inr fun other hm locks => locked ⟨other, hm, locks⟩⟩
  refine ⟨n, ?_⟩
  have next := @continues cfg text id sessionId s n d h found
  have advances : rank (d.next cfg text (s.deliveries.eraseIdx n) s.db).2 < rank d.phase := by
    rcases next.advances with less | answered | ⟨unlocked, other, mem, locks⟩
    · exact less
    · exact (unanswered answered).elim
    · rcases goes with mine | none
      · exact (unlocked mine).elim
      · exact (none other (List.mem_of_mem_eraseIdx mem) locks).elim
  have sum := sum_map_set (f := fun d : Delivery => rank d.phase)
    (b := ⟨d.request, (d.next cfg text (s.deliveries.eraseIdx n) s.db).2⟩) found
  unfold Webhooks.step
  rw [found]
  simp only at sum ⊢
  omega

/-- No delivery waits forever. -/
lemma completes (h : Orderly text id sessionId s) :
    ∃ rest, ∀ d ∈ (s.run cfg text rest).deliveries, rank d.phase = 0 := by
  generalize total : (s.deliveries.map (rank ·.phase)).sum = k
  induction k using Nat.strong_induction_on generalizing s with
  | h k ih =>
    by_cases waiting : ∃ d ∈ s.deliveries, rank d.phase ≠ 0
    · obtain ⟨n, less⟩ := @exists_advance cfg text id sessionId s h waiting
      obtain ⟨rest, done⟩ := ih _ (total ▸ less) h.step rfl
      exact ⟨n :: rest, done⟩
    · refine ⟨[], fun d mem => ?_⟩
      by_contra unanswered
      exact waiting ⟨d, mem, unanswered⟩

end Orderly

lemma requests_step : (s.step cfg text n).deliveries.map (·.request) =
    s.deliveries.map (·.request) := by
  unfold Webhooks.step
  split
  case h_2 => rfl
  case h_1 d found =>
  obtain ⟨lt, rfl⟩ := List.getElem?_eq_some_iff.1 found
  have lt' : n < (s.deliveries.map (·.request)).length := by rwa [List.length_map]
  have same : (s.deliveries.map (·.request)).set n s.deliveries[n].request =
      (s.deliveries.map (·.request)).set n (s.deliveries.map (·.request))[n] := by
    rw [List.getElem_map]
  rw [List.map_set, same, List.set_getElem_self]

lemma requests_run {schedule : List ℕ} : (s.run cfg text schedule).deliveries.map (·.request) =
    s.deliveries.map (·.request) := by
  induction schedule generalizing s with
  | nil => rfl
  | cons n schedule ih => exact ih.trans requests_step

/-- Deliveries for one interaction, in any interleaving: whatever answers were given so far, each is
the id of the one orchestration job of the interaction, unless the columns do not take the values of
the delivery. No delivery waits forever. -/
theorem deliveries_harmless {requests : List EndRequest} (schedule : List ℕ)
    (expecting : Expecting text id sessionId db)
    (delivers : ∀ request ∈ requests, Delivers text db id sessionId request) :
    (∀ d ∈ ((Webhooks.start db requests).run cfg text schedule).deliveries,
      ∀ answer ∈ d.phase.answer?,
        Answered id ((Webhooks.start db requests).run cfg text schedule).db d.request answer) ∧
    ∃ rest, ((Webhooks.start db requests).run cfg text (schedule ++ rest)).deliveries.map
        (·.request) = requests ∧
      ∀ d ∈ ((Webhooks.start db requests).run cfg text (schedule ++ rest)).deliveries,
        d.phase.answer?.isSome := by
  have orderly : Orderly text id sessionId ((Webhooks.start db requests).run cfg text schedule) :=
    (Orderly.start expecting delivers).run
  constructor
  · intro d mem answer answered
    have progress := orderly.progress d mem
    cases phase : d.phase with
    | answered =>
      rw [phase] at progress answered
      cases answered
      exact progress.answered
    | _ =>
      rw [phase] at answered
      cases answered
  · obtain ⟨rest, done⟩ := @Orderly.completes cfg text id sessionId _ orderly
    have append : (Webhooks.start db requests).run cfg text (schedule ++ rest) =
        ((Webhooks.start db requests).run cfg text schedule).run cfg text rest := List.foldl_append
    refine ⟨rest, ?_, fun d mem => ?_⟩
    · rw [requests_run, Webhooks.start, List.map_map]
      exact List.map_id _
    · rw [append] at mem
      exact answer?_of_rank (done d mem)

/-- A delivery whose data no column takes, and one whose wakeup and the record of it fail. -/
def troubled : List EndRequest := [
  { EndRequest.plain 9 with additionalData := some [("note", .str (String.ofList [Char.ofNat 0]))] },
  { EndRequest.plain 10 with wakeup := some ⟨.keyError "broker", some (.keyError "pool")⟩ }]

/-- Deliveries that arrive together. The first INSERT is refused, and the lock is free again. -/
def overlapping : Webhooks :=
  (Webhooks.start (World.ofInteraction .plain).db ([.plain 7, .plain 8] ++ troubled)).run settings
    .plain ([0, 1, 2, 3, 2, 1, 0, 2, 2, 1, 0, 1, 1, 1, 0, 0, 1] ++ [0, 0, 0, 3, 3, 3, 3, 3])

/-- Two deliveries that are stored and two that are refused, side by side. -/
theorem deliveries_harmless_plain :
    overlapping.deliveries.map (·.phase.answer?) =
        [some (.ok 8), some (.ok 8), some (.error 500), some (.error 500)] ∧
      ∀ d ∈ overlapping.deliveries, ∀ answer ∈ d.phase.answer?,
        Answered 1 overlapping.db d.request answer := by
  have expecting : Expecting .plain 1 1 (World.ofInteraction .plain).db :=
    ⟨⟨.plain, rfl, rfl, ⟨_, _, rfl, rfl, rfl⟩, rfl, rfl⟩, fun _ mem => by cases mem⟩
  have delivers : ∀ request ∈ [.plain 7, .plain 8] ++ troubled,
      Delivers .plain (World.ofInteraction .plain).db 1 1 request := by
    intro request mem
    simp only [troubled, List.cons_append, List.nil_append, List.mem_cons, List.not_mem_nil,
      or_false] at mem
    rcases mem with rfl | rfl | rfl | rfl <;>
      exact ⟨rfl, rfl, fun _ mem => (List.not_mem_nil mem).elim, rfl⟩
  exact ⟨by decide +kernel, (deliveries_harmless _ expecting delivers).1⟩

/-- The responses so far. -/
def responses (s : Webhooks) : List (Option Answer) := s.deliveries.map (·.phase.answer?)

/-- Deliveries for an interaction and its session: once all have answered, there is one orchestration
job, and each has answered with its id. -/
def Harmless (db : Db) (requests : List EndRequest) (schedule : List ℕ) : Prop :=
  let s := (Webhooks.start db requests).run settings .plain schedule
  (db.interactions.find? 1).any (·.sessionId = 1) →
  (∀ request ∈ requests, request.interactionId = 1 ∧ request.sessionId = 1) →
  (∀ answer ∈ responses s, answer.isSome) →
  ∃ job, OnlyRoot s.db 1 job ∧ ∀ answer ∈ responses s, answer = some (.ok job.id)

/-- The ids of the orchestration jobs of the plain interaction. -/
def rootIds (db : Db) : List UUID :=
  (db.queue.jobs.rows.filter fun row =>
    row.interactionId = 1 ∧ row.jobType = .orchestrateInteraction).map (·.id)

/-- The only root is the one that is told. -/
lemma eq_of_mem_rootIds {rootId : UUID} (only : OnlyRoot db 1 job) (mem : rootId ∈ rootIds db) :
    rootId = job.id := by
  obtain ⟨row, hr, rfl⟩ := List.mem_map.1 mem
  obtain ⟨hr, own⟩ := List.mem_filter.1 hr
  rw [(only row).1 ⟨hr, of_decide_eq_true own⟩]

/-- A database and a delivery for which there is no one job that the answer names. -/
def harmful (db : Db) (request : EndRequest) : Bool :=
  let s := (Webhooks.start db [request]).run settings .plain (List.replicate 6 0)
  (db.interactions.find? 1).any (·.sessionId = 1) &&
  (request.interactionId = 1 && request.sessionId = 1) &&
  (responses s = [some (.error 500)] ||
    ((responses s).all (·.isSome) && (rootIds s.db).any fun i => (rootIds s.db).any (· ≠ i)))

/-- A delivery that does harm alone is not harmless. -/
lemma not_harmless_of {request : EndRequest} (h : harmful db request) :
    ¬ Harmless db [request] (List.replicate 6 0) := by
  intro harmless
  simp only [harmful, Bool.and_eq_true, Bool.or_eq_true, decide_eq_true_eq, List.all_eq_true,
    List.any_eq_true] at h
  obtain ⟨⟨known, same⟩, outcome⟩ := h
  have matching : ∀ asked ∈ [request], asked.interactionId = 1 ∧ asked.sessionId = 1 := by
    intro asked mem
    rw [List.mem_singleton.1 mem]
    exact same
  rcases outcome with refused | ⟨done, i, hi, j, hj, ne⟩
  · obtain ⟨job, _, answered⟩ := harmless known matching fun answer mem => by
      rw [refused, List.mem_singleton] at mem
      rw [mem]
      rfl
    have answer := answered (some (.error 500)) (by rw [refused]; exact List.mem_singleton.2 rfl)
    cases answer
  · obtain ⟨job, only, _⟩ := harmless known matching done
    exact ne ((eq_of_mem_rootIds only hj).trans (eq_of_mem_rootIds only hi).symm)

/-- One delivery is enough: with a duration beyond its column, with a conversation that is no object,
or after a legacy task that spelled the id in another way. -/
theorem not_harmless :
    ¬ Harmless (World.ofInteraction .plain).db
      [{ EndRequest.plain 7 with durationSeconds := some 2147483648 }] (List.replicate 6 0) ∧
    ¬ Harmless (World.ofInteraction { Interaction.plain with conversationData := .str "x" }).db
      [.plain 7] (List.replicate 6 0) ∧
    ¬ Harmless (after [.legacyTask
      (legacyPayload "{00000000-0000-0000-0000-000000000001}") ⟨11, 0, 0⟩]).db
      [.plain 7] (List.replicate 6 0) :=
  ⟨not_harmless_of (by decide +kernel), not_harmless_of (by decide +kernel),
    not_harmless_of (by decide +kernel)⟩

end PostCall.Properties

import PostCall.Machine.Roots
import PostCall.Model.Endpoint
import PostCall.Properties.Handoff

/-!
# The endpoint

What a client of the webhook may rely on. A request without the signature of its body is answered
with an error, and the system runs as if it had not come in. Any other error leaves no trace either,
unless a wakeup of the worker has failed after the commit and the failure could not be recorded. And
what was acknowledged is kept: the job that the answer names stays in the queue until it has succeeded
and handed the interaction on, or has left a dead letter.
-/

namespace PostCall.Properties
open PostCall.Library PostCall.Python PostCall.Model PostCall.Machine

variable {cfg : Settings} {text : Text} {secret : String} {r : WebhookRequest} {db db' : Db}
  {w w₀ : World} {s : Site} {a : SiteAction} {acts : List SiteAction}

/-! ### Signatures -/

/-- The header holds the signature of the body, with `sha256=` or without, and white space around
it. Without a secret there is nothing to hold. -/
def Authentic (secret : String) (r : WebhookRequest) : Prop :=
  secret = "" ∨ ∃ supplied, r.signature = some supplied ∧
    ∃ pre ∈ ["", "sha256="], ∃ left right, (∀ c ∈ left ++ right, isSpace c) ∧
      supplied.toList = pre.toList ++ (left ++ hmacHexdigest secret r.body ++ right)

/-- What is left after stripping starts and ends with something else, and the rest is white. -/
lemma strip_eq_iff {p : Char → Bool} {l e : List Char} (solid : ∀ c ∈ e, p c = false)
    (ne : e ≠ []) :
    strip p l = e ↔ ∃ left right, (∀ c ∈ left ++ right, p c) ∧ l = left ++ e ++ right := by
  constructor
  · intro h
    have front := List.takeWhile_append_dropWhile (p := p) (l := l)
    have back := List.takeWhile_append_dropWhile (p := p) (l := (l.dropWhile p).reverse)
    refine ⟨l.takeWhile p, ((l.dropWhile p).reverse.takeWhile p).reverse, ?_, ?_⟩
    · intro c hc
      rcases List.mem_append.1 hc with hc | hc
      · exact List.all_eq_true.1 List.all_takeWhile c hc
      · exact List.all_eq_true.1 List.all_takeWhile c (List.mem_reverse.1 hc)
    · have back := congrArg List.reverse back
      rw [List.reverse_append, List.reverse_reverse] at back
      rw [← h, strip, List.append_assoc, back, front]
  · rintro ⟨left, right, white, rfl⟩
    have front : (left ++ e ++ right).dropWhile p = e ++ right := by
      rw [List.append_assoc, List.dropWhile_append_of_pos fun c hc =>
        white c (List.mem_append_left _ hc)]
      obtain ⟨c, e, rfl⟩ := List.exists_cons_of_ne_nil ne
      rw [List.cons_append, List.dropWhile_cons_of_neg (by simp [solid c List.mem_cons_self])]
    have back : (e ++ right).reverse.dropWhile p = e.reverse := by
      rw [List.reverse_append, List.dropWhile_append_of_pos fun c hc =>
        white c (List.mem_append_right _ (List.mem_reverse.1 hc))]
      obtain ⟨c, f, eq⟩ := List.exists_cons_of_ne_nil (List.reverse_ne_nil_iff.2 ne)
      have mem : c ∈ e := List.mem_reverse.1 (eq ▸ List.mem_cons_self)
      rw [eq, List.dropWhile_cons_of_neg (by simp [solid c mem])]
    rw [strip, front, back, List.reverse_reverse]

/-- What has the text without the prefix left. -/
lemma removePrefix_eq_iff {pre l m : List Char} (other : ¬ pre <+: m) :
    removePrefix pre l = m ↔ l = m ∨ l = pre ++ m := by
  unfold removePrefix
  constructor
  · intro h
    split at h
    case isTrue starts =>
      obtain ⟨rest, rfl⟩ := List.isPrefixOf_iff_prefix.1 starts
      rw [List.drop_left] at h
      exact .inr (congrArg (pre ++ ·) h)
    case isFalse => exact .inl h
  · rintro (rfl | rfl)
    · rw [if_neg (mt List.isPrefixOf_iff_prefix.1 other)]
    · rw [if_pos (List.isPrefixOf_iff_prefix.2 (List.prefix_append _ _)), List.drop_left]

/-- No character of a digest is stripped, and none begins the prefix. -/
lemma hmacHexdigest_plain {key : String} {message : List UInt8} {c : Char}
    (h : c ∈ hmacHexdigest key message) : isSpace c = false ∧ c.toNat < 128 ∧ c ≠ 's' := by
  obtain ⟨_, _, hc⟩ := List.mem_flatMap.1 h
  obtain ⟨d, lt, rfl⟩ := UUID.eq_hexDigit hc
  have letter : ∀ d < 16, UUID.hexDigit d ≠ 's' := by decide
  exact ⟨(UUID.hexDigit_plain d lt).2.1, (UUID.hexDigit_plain d lt).2.2, letter d lt⟩

lemma hmacHexdigest_ne_nil {key : String} {message : List UInt8} :
    hmacHexdigest key message ≠ [] := by
  intro h
  have length := congrArg List.length h
  simp [hmacHexdigest, Sha256.digest] at length

/-- Two texts of which one is ASCII are compared, or the comparison raises. -/
lemma compareDigest_ok_true {x y : List Char} (ascii : ∀ c ∈ y, c.toNat < 128) :
    compareDigest x y = .ok true ↔ x = y := by
  unfold compareDigest
  constructor
  · intro h
    split at h
    · simpa using h
    · cases h
  · rintro rfl
    have all : (x ++ x).all (·.toNat < 128) := by simpa using ascii
    rw [if_pos all, decide_eq_true rfl]

/-- The signatures that are normalised to a digest. -/
lemma normalized_eq_iff {e supplied : List Char}
    (plain : ∀ c ∈ e, isSpace c = false ∧ c.toNat < 128 ∧ c ≠ 's') (ne : e ≠ []) :
    strip isSpace (removePrefix "sha256=".toList supplied) = e ↔
      ∃ pre ∈ ["", "sha256="], ∃ left right, (∀ c ∈ left ++ right, isSpace c) ∧
        supplied = pre.toList ++ (left ++ e ++ right) := by
  rw [strip_eq_iff (fun c hc => (plain c hc).1) ne]
  -- neither white space nor the digest starts like the prefix
  have other : ∀ left right : List Char, (∀ c ∈ left ++ right, isSpace c) →
      ¬ "sha256=".toList <+: left ++ e ++ right := by
    rintro left right white ⟨rest, h⟩
    cases left with
    | nil =>
      obtain ⟨c, e, rfl⟩ := List.exists_cons_of_ne_nil ne
      exact (plain c List.mem_cons_self).2.2 (List.cons.inj h).1.symm
    | cons c left =>
      have head := white c List.mem_cons_self
      rw [← (List.cons.inj h).1] at head
      exact absurd head (by decide)
  constructor
  · rintro ⟨left, right, white, h⟩
    rcases (removePrefix_eq_iff (other left right white)).1 h with h | h
    · exact ⟨"", by simp, left, right, white, by simpa using h⟩
    · exact ⟨"sha256=", by simp, left, right, white, h⟩
  · rintro ⟨pre, hpre, left, right, white, h⟩
    refine ⟨left, right, white, (removePrefix_eq_iff (other left right white)).2 ?_⟩
    rcases List.mem_pair.1 hpre with rfl | rfl
    · exact .inl (by simpa using h)
    · exact .inr h

/-- The signature is accepted if and only if it is the one of the body. -/
lemma validateWebhookSignature_ok :
    validateWebhookSignature secret r = .ok () ↔ Authentic secret r := by
  unfold validateWebhookSignature Authentic
  by_cases off : secret = ""
  · simp [off]
  simp only [off, if_false, false_or]
  cases signature : r.signature with
  | none => simp
  | some supplied =>
    have plain : ∀ c ∈ hmacHexdigest secret r.body, isSpace c = false ∧ c.toNat < 128 ∧ c ≠ 's' :=
      fun _ h => hmacHexdigest_plain h
    have accepted := (compareDigest_ok_true fun c hc => (plain c hc).2.1).trans
      (@normalized_eq_iff _ supplied.toList plain hmacHexdigest_ne_nil)
    simp only [Option.getD_some, Option.some.injEq, exists_eq_left']
    rw [← accepted]
    by_cases empty : supplied = ""
    · subst empty
      have refused : compareDigest (strip isSpace (removePrefix "sha256=".toList "".toList))
          (hmacHexdigest secret r.body) ≠ .ok true := by
        rw [ne_eq, compareDigest_ok_true fun c hc => (plain c hc).2.1]
        exact fun h => hmacHexdigest_ne_nil h.symm
      simpa using refused
    · rw [if_neg empty]
      cases compareDigest (strip isSpace (removePrefix "sha256=".toList supplied.toList))
          (hmacHexdigest secret r.body) with
      | error e => simp
      | ok b => cases b <;> simp

/-! ### What the system hears -/

/-- The validation raises one of its two exceptions, or a comparison of the texts does. -/
lemma status_of_validate {e : EndpointError} (h : validateWebhookSignature secret r = .error e) :
    e.answer.statusCode = 401 ∨ e.answer.statusCode = 500 := by
  unfold validateWebhookSignature at h
  simp only at h
  split at h
  case isTrue => cases h
  case isFalse =>
  split at h
  case isTrue =>
    cases h
    exact .inl rfl
  case isFalse =>
  split at h
  case h_1 => cases h
  case h_2 =>
    cases h
    exact .inl rfl
  case h_3 =>
    cases h
    exact .inr rfl

/-- The signature is accepted, and the first transaction is committed. -/
def accepted (cfg : Settings) (text : Text) (secret : String) (r : WebhookRequest) (db : Db) : Bool :=
  (validateWebhookSignature secret r).isOk && (commit (endInteraction cfg text r.request) db).isSome

/-- What the endpoint does with a request: the transactions of the webhook, or nothing. -/
inductive Responds (cfg : Settings) (text : Text) (secret : String) (r : WebhookRequest) (db : Db) :
    EndpointAnswer × Db → Prop where
  | refused {e} :
    accepted cfg text secret r db = false →
    (¬ Authentic secret r → e.statusCode = 401 ∨ e.statusCode = 500) →
    Responds cfg text secret r db (.error e, db)
  | queued {job db₁} :
    accepted cfg text secret r db →
    Authentic secret r →
    endInteraction cfg text r.request db = .ok job db₁ →
    Responds cfg text secret r db (.ok (.queued r.request.interactionId job),
      World.endInteraction cfg text db r.request)
  | unrecorded {e failed} :
    accepted cfg text secret r db →
    Authentic secret r →
    r.request.wakeup = some failed →
    failed.refusal.isSome →
    e.statusCode = 500 →
    Responds cfg text secret r db (.error e, World.endInteraction cfg text db r.request)

lemma responds_endpoint : Responds cfg text secret r db
    (endInteractionEndpoint cfg text secret r db) := by
  unfold endInteractionEndpoint
  cases signed : validateWebhookSignature secret r with
  | error e =>
    refine .refused (by rw [accepted, signed]; rfl) fun _ => status_of_validate signed
  | ok =>
    have authentic := validateWebhookSignature_ok.1 signed
    cases first : endInteraction cfg text r.request db with
    | error =>
      refine .refused ?_ fun forged => absurd authentic forged
      rw [accepted, signed, commit, first]
      rfl
    | ok job db₁ =>
      have accepted : accepted cfg text secret r db := by
        rw [accepted, signed, commit, first]
        rfl
      have queued := Responds.queued accepted authentic first
      cases wakeup : r.request.wakeup with
      | none =>
        have left : World.endInteraction cfg text db r.request = db₁ := by
          simp only [World.endInteraction, commit, first, wakeup]
        rw [left] at queued
        exact queued
      | some failed =>
        have left : World.endInteraction cfg text db r.request =
            World.transact db₁ (wakeupFailed job failed) := by
          simp only [World.endInteraction, commit, first, wakeup]
        have unrecorded (refused : failed.refusal.isSome) :=
          @Responds.unrecorded cfg text secret r db ⟨500, "Internal server error"⟩ failed
            accepted authentic wakeup refused rfl
        rw [left] at queued unrecorded
        simp only [World.transact, commit, wakeupFailed] at queued unrecorded ⊢
        cases refusal : failed.refusal with
        | none =>
          rw [refusal] at queued
          exact queued
        | some e =>
          rw [refusal] at unrecorded
          exact unrecorded rfl

/-- The actions of the system that a step of the site comes to. -/
def heard (cfg : Settings) (text : Text) (secret : String) (s : Site) : SiteAction → List Action
  | .http r => if accepted cfg text secret r s.world.db then [.endInteraction r.request] else []
  | .act a => [a]

/-- What a step of the site does to the system. -/
lemma world_siteStep : (s.step cfg text secret a).world =
    (heard cfg text secret s a).foldl (World.step cfg text) s.world := by
  cases a with
  | act a => rfl
  | http r =>
    have responds := @responds_endpoint cfg text secret r s.world.db
    simp only [Site.step, heard]
    generalize endInteractionEndpoint cfg text secret r s.world.db = answer at responds
    cases responds with
    | refused silent =>
      rw [silent]
      rfl
    | queued accepted =>
      rw [if_pos accepted]
      rfl
    | unrecorded accepted =>
      rw [if_pos accepted]
      rfl

/-- A request is a delivery or nothing at all. -/
lemma world_http : (s.step cfg text secret (.http r)).world =
      World.step cfg text s.world (.endInteraction r.request) ∨
    (s.step cfg text secret (.http r)).world = s.world := by
  rw [world_siteStep, heard]
  split
  · exact .inl rfl
  · exact .inr rfl

/-- The system behind the site has made the run of what it heard. -/
lemma world_of_site : (acts.foldl (Site.step cfg text secret) s).world =
    (emitted (Site.step cfg text secret) (heard cfg text secret) s acts).foldl
      (World.step cfg text) s.world := by
  induction acts generalizing s with
  | nil => rfl
  | cons a acts ih =>
    rw [List.foldl_cons, ih, emitted, List.foldl_append, world_siteStep]

/-- The system inserts no arbitrary job; requests come as they like. -/
def Offered (_ : Site) : SiteAction → Prop
  | .http _ => True
  | .act a => ∀ new, a ≠ .createIfAbsent new

lemma run_heard {s₀ : Site} (run : Run (Site.step cfg text secret) Offered s₀ acts s) :
    Run (World.step cfg text) Served s₀.world
      (emitted (Site.step cfg text secret) (heard cfg text secret) s₀ acts) s.world := by
  induction run with
  | nil => exact .nil
  | @snoc _ s a run ok ih =>
    rw [run.emitted_snoc, world_siteStep]
    refine ih.append ?_
    cases a with
    | act a => exact .cons ok .nil
    | http r =>
      simp only [heard]
      split
      · have served : Served s.world (.endInteraction r.request) := fun _ h => nomatch h
        exact .cons served .nil
      · exact .nil

/-- What became of a request: the answer, and what the system has heard of it. -/
structure Reply where
  request : WebhookRequest
  answer : EndpointAnswer
  heard : List Action

/-- The reply to a request that comes in. -/
def replies (cfg : Settings) (text : Text) (secret : String) (s : Site) : SiteAction → List Reply
  | .http r =>
    [⟨r, (endInteractionEndpoint cfg text secret r s.world.db).1, heard cfg text secret s (.http r)⟩]
  | .act _ => []

/-- What a reply says is what happened: the system has heard of a request that is acknowledged, and of
none that is refused; but where the failure of a wakeup could not be recorded, the answer is an error
after the commit. -/
inductive Honest (secret : String) : Reply → Prop where
  | acknowledged {r response} :
    Authentic secret r →
    Honest secret ⟨r, .ok response, [.endInteraction r.request]⟩
  | refused {r e} :
    (¬ Authentic secret r → e.statusCode = 401 ∨ e.statusCode = 500) →
    Honest secret ⟨r, .error e, []⟩
  | unrecorded {r e failed} :
    Authentic secret r →
    r.request.wakeup = some failed →
    failed.refusal.isSome →
    e.statusCode = 500 →
    Honest secret ⟨r, .error e, [.endInteraction r.request]⟩

lemma honest_replies : ∀ reply ∈ replies cfg text secret s a, Honest secret reply := by
  cases a with
  | act a => exact fun _ mem => (List.not_mem_nil mem).elim
  | http r =>
    intro reply mem
    obtain rfl := List.mem_singleton.1 mem
    have responds := @responds_endpoint cfg text secret r s.world.db
    generalize endInteractionEndpoint cfg text secret r s.world.db = answer at responds
    simp only [heard]
    cases responds with
    | refused silent status =>
      rw [silent]
      exact .refused status
    | queued accepted authentic =>
      rw [if_pos accepted]
      exact .acknowledged authentic
    | unrecorded accepted authentic wakeup refusal status =>
      rw [if_pos accepted]
      exact .unrecorded authentic wakeup refusal status

/-- The answers of the site are those of the replies, newest first. -/
lemma answers_of_site : (acts.foldl (Site.step cfg text secret) s).answers =
    ((emitted (Site.step cfg text secret) (replies cfg text secret) s acts).map
      fun reply => (reply.request, reply.answer)).reverse ++ s.answers := by
  induction acts generalizing s with
  | nil => rfl
  | cons a acts ih =>
    rw [List.foldl_cons, ih, emitted, List.map_append, List.reverse_append, List.append_assoc]
    cases a <;> rfl

/-- The system runs as if only the requests had come in of which it has heard, and what each of them
and each other one was answered says so. -/
theorem acknowledged_heard :
    let replies := emitted (Site.step cfg text secret) (replies cfg text secret) ⟨w, []⟩ acts
    (acts.foldl (Site.step cfg text secret) ⟨w, []⟩).world =
      (emitted (Site.step cfg text secret) (heard cfg text secret) ⟨w, []⟩ acts).foldl
        (World.step cfg text) w ∧
    (acts.foldl (Site.step cfg text secret) ⟨w, []⟩).answers.reverse =
      replies.map (fun reply => (reply.request, reply.answer)) ∧
    ∀ reply ∈ replies, Honest secret reply := by
  refine ⟨world_of_site, ?_, fun reply mem => ?_⟩
  · rw [answers_of_site, List.append_nil, List.reverse_reverse]
  · obtain ⟨_, _, mem⟩ := mem_emitted mem
    exact honest_replies reply mem

/-! ### What was acknowledged -/

/-- The key of an orchestration job holds a text of the id of its interaction. -/
def Rooted (db : Db) : Prop :=
  ∀ row ∈ db.queue.jobs.rows, row.jobType = .orchestrateInteraction →
    ∃ idText, row.idempotencyKey = rootKey idText ∧ UUID.ofString idText = .ok row.interactionId

lemma rooted_of_run {as : List Action} (run : Run (World.step cfg text) Served w₀ as w)
    (init : Initial w₀) : Rooted w.db := by
  refine (run.invariant (I := fun w => Sound w ∧ Rooted w.db) ?_ fun w a h served => ?_).2
  · refine ⟨sound_of_idle init.2, fun row mem => ?_⟩
    rw [init.1] at mem
    cases mem
  obtain ⟨sound, rooted⟩ := h
  refine ⟨sound_step sound, fun row mem type => ?_⟩
  rcases roots_step sound served row mem type with ⟨row₀, mem₀, same⟩ | ⟨id, idText, asked, e, key, _⟩
  · obtain ⟨idText, key, read⟩ := rooted row₀ mem₀ ((congrArg JobIdentity.jobType same).symm.trans type)
    exact ⟨idText, (congrArg JobIdentity.idempotencyKey same).trans key,
      read.trans (congrArg (Except.ok ·.interactionId) same.symm)⟩
  · refine ⟨idText, key, ?_⟩
    cases a with
    | endInteraction request =>
      cases asked
      rw [e]
      exact UUID.ofString_str
    | legacyTask payload birth =>
      simp only [rootOf?] at asked
      split at asked
      case h_1 id' read =>
        cases asked
        rw [e]
        exact ofString_of_uuidField read
      case h_2 => cases asked
    | _ => cases asked

/-- The key of a root tells its text. -/
lemma rootKey_inj {x y : String} (e : rootKey x = rootKey y) : x = y := by
  have e := congrArg String.toList e
  simp only [rootKey, String.toList_append, List.append_assoc] at e
  exact String.toList_inj.1 (List.append_cancel_right (List.append_cancel_left e))

/-- A job under the key of an interaction is the orchestration job of that interaction. -/
lemma root_of_key {as : List Action} (run : Run (World.step cfg text) Served w₀ as w)
    (init : Initial w₀) {job : InteractionJob} (mem : job ∈ w.db.queue.jobs.rows) {id : UUID}
    (key : job.idempotencyKey = rootKey id.str) :
    job.jobType = .orchestrateInteraction ∧ job.interactionId = id := by
  have type : job.jobType = .orchestrateInteraction := by
    cases keyed_of_run run init job mem with
    | root _ type => exact type
    | child t _ child =>
      exact absurd (key.symm.trans child) (rootKey_ne_jobKey ⟨id, .inl rfl⟩ _ t)
  obtain ⟨idText, key', read⟩ := rooted_of_run run init job mem type
  obtain rfl : id.str = idText := rootKey_inj (key.symm.trans key')
  rw [UUID.ofString_str] at read
  exact ⟨type, (Except.ok.inj read).symm⟩

/-- A job that was moved to the dead letters has left one. -/
def Mourned (v : JobView) : Prop :=
  ∀ job, v.row = some job → job.status = .deadLettered → v.letters ≠ []

lemma mourned_of_life {v v' : JobView} {l : Label} (step : Life cfg v l v') : Mourned v' := by
  cases step with
  | create pristine =>
    obtain ⟨new, rfl⟩ := pristine
    rintro _ ⟨⟩ buried
    cases buried
  | bury =>
    rintro _ ⟨⟩ _
    simp
  | _ =>
    rintro _ ⟨⟩ buried
    cases buried

/-- What has become of a job. -/
inductive Fate (text : Text) (db : Db) (job : InteractionJob) : Prop where
  | waiting :
    job.status = .pending ∨ job.status = .deferred →
    Fate text db job
  | running {lockedAt} :
    job.status = .running →
    job.lockedAt = some lockedAt →
    Fate text db job
  | buried {letter} :
    job.status = .deadLettered →
    letter ∈ db.queue.deadLetterJobs →
    letter.originalJobId = job.id →
    Fate text db job
  | handedOff :
    job.status = .succeeded →
    HandsOff text db job.toJobIdentity job.result [] →
    Fate text db job

/-- In every run each job has one of these fates. -/
lemma fate_of_run {as : List Action} (run : Run (World.step cfg text) Served w₀ as w)
    (init : Initial w₀) {job : InteractionJob} (mem : job ∈ w.db.queue.jobs.rows) :
    Fate text w.db job := by
  have found := view_row mem
  have well := (regular_of_run run init job.id).wellFormed job found
  have steps : ∀ w a, Sound w → Served w a → Steps cfg text w a job.id anyStep :=
    fun _ _ _ _ _ _ _ _ _ _ _ => trivial
  have mourned : Mourned (view w.db.queue job.id) := by
    refine view_of_run run (sound_of_idle init.2) job.id ?_ steps fun _ _ _ _ step _ =>
      mourned_of_life step
    rw [view_of_initial init]
    exact fun _ h => nomatch h
  cases status : job.status with
  | pending => exact .waiting (.inl status)
  | deferred => exact .waiting (.inr status)
  | failed => exact absurd status well.notFailed
  | running =>
    obtain ⟨lockedAt, locked⟩ := Option.isSome_iff_exists.1 (well.lockedAt.2 status)
    exact .running status locked
  | succeeded => exact .handedOff status (handedOff_of_run run init job mem status)
  | deadLettered =>
    obtain ⟨letter, hl⟩ := List.exists_mem_of_ne_nil _ (mourned job found status)
    obtain ⟨there, about⟩ := List.mem_filter.1 hl
    exact .buried status there (by simpa using about)

/-- An acknowledged request has its job. -/
def Acknowledges (db : Db) (answered : WebhookRequest × EndpointAnswer) : Prop :=
  ∀ response, answered.2 = .ok response → ∃ job ∈ db.queue.jobs.rows,
    job.idempotencyKey = rootKey answered.1.request.interactionId.str ∧
    response = .queued answered.1.request.interactionId job

lemma Acknowledges.step {answered : WebhookRequest × EndpointAnswer} (sound : Sound w) {a : Action}
    (h : Acknowledges w.db answered) : Acknowledges (World.step cfg text w a).db answered := by
  intro response ok
  obtain ⟨job, mem, key, rfl⟩ := h response ok
  obtain ⟨job', mem', same⟩ := Path.identity (step_path cfg text sound a) mem
  refine ⟨job', mem', (congrArg JobIdentity.idempotencyKey same).trans key, ?_⟩
  have id : job'.id = job.id := congrArg JobIdentity.id same
  simp only [InteractionEndResponse.queued, id]

lemma acknowledges_endpoint :
    Acknowledges (endInteractionEndpoint cfg text secret r db).2
      (r, (endInteractionEndpoint cfg text secret r db).1) := by
  have answered := @responds_endpoint cfg text secret r db
  generalize endInteractionEndpoint cfg text secret r db = out at answered
  intro response ok
  cases answered with
  | refused => cases ok
  | unrecorded => cases ok
  | @queued job db₁ _ _ e =>
    cases ok
    obtain ⟨events, same⟩ := endInteraction_of_ok e
    obtain ⟨interaction, payload, db₂, found, _, _, ensured, rfl⟩ := endInteraction_ok e
    have id : interaction.id = r.request.interactionId := (Table.find?_eq_some.1 found).2
    refine ⟨job, ?_, ?_, rfl⟩
    · simp only [same]
      exact ensured.mem
    · rw [ensured.key, ← id]
      rfl

/-- In every run all that was answered is acknowledged. -/
lemma acknowledges_of_run (run : Run (Site.step cfg text secret) Offered ⟨w₀, []⟩ acts s)
    (init : Initial w₀) : ∀ answered ∈ s.answers, Acknowledges s.world.db answered := by
  refine (run.invariant (I := fun s => Sound s.world ∧
    ∀ answered ∈ s.answers, Acknowledges s.world.db answered) ?_ fun s a h _ => ?_).2
  · exact ⟨sound_of_idle init.2, fun _ h => nomatch h⟩
  obtain ⟨sound, kept⟩ := h
  cases a with
  | act a => exact ⟨sound_step sound, fun answered mem => (kept answered mem).step sound⟩
  | http r =>
    have both : Sound (s.step cfg text secret (.http r)).world ∧
        ∀ answered ∈ s.answers,
          Acknowledges (s.step cfg text secret (.http r)).world.db answered := by
      rcases @world_http cfg text secret r s with e | e
      · rw [e]
        exact ⟨sound_step sound, fun answered mem => (kept answered mem).step sound⟩
      · rw [e]
        exact ⟨sound, kept⟩
    refine ⟨both.1, fun answered mem => ?_⟩
    rcases List.mem_cons.1 mem with rfl | mem
    · exact acknowledges_endpoint
    · exact both.2 answered mem

/-- What the endpoint acknowledged is kept. In every later state the job that the answer names is the
one orchestration job of the interaction under its key, and it waits, or runs under a lock that a
recovery can break, or has left a dead letter, or has succeeded and handed the interaction on. -/
theorem acknowledged_kept (run : Run (Site.step cfg text secret) Offered ⟨w₀, []⟩ acts s)
    (init : Initial w₀) {response : InteractionEndResponse} (mem : (r, .ok response) ∈ s.answers) :
    ∃ job ∈ s.world.db.queue.jobs.rows, job.jobType = .orchestrateInteraction ∧
      job.interactionId = r.request.interactionId ∧
      job.idempotencyKey = rootKey r.request.interactionId.str ∧
      Fate text s.world.db job ∧
      ∀ r' response', (r', .ok response') ∈ s.answers →
        r'.request.interactionId = r.request.interactionId →
        response' = .queued r.request.interactionId job := by
  obtain ⟨job, hj, key, -⟩ := acknowledges_of_run run init _ mem response rfl
  have heard := run_heard run
  obtain ⟨type, id⟩ := root_of_key heard init hj key
  refine ⟨job, hj, type, id, key, fate_of_run heard init hj, fun r' response' mem' same => ?_⟩
  obtain ⟨job', hj', key', answered⟩ := acknowledges_of_run run init _ mem' response' rfl
  have one : job' = job := by
    refine Table.eq_of_index hj' hj (key'.trans (Eq.trans ?_ key.symm))
    exact congrArg (fun id => rootKey (UUID.str id)) same
  rw [answered, one]
  exact congrArg (InteractionEndResponse.queued · job) same

/-- The end of a call, with the signature of its body. -/
def signed : WebhookRequest where
  request := ⟨1, 1, some "call", none, none, 0, ⟨1, 0, 0⟩, none⟩
  signature := some "sha256=77325902caca812dc259733aacd046b73817372c777b8d95b402647474516e13 "
  body := [123, 125]

theorem acknowledged_kept_signed :
    let orchestrate : Action := .orchestrate "orchestrator" 1 (.at 0) (.at 0) fun _ =>
      ⟨Birth.plain, fun _ => none, fun _ => 0⟩
    let s := [.http signed, .act orchestrate].foldl (Site.step settings .plain "secret")
      ⟨.ofInteraction .plain, []⟩
    ∃ job ∈ s.world.db.queue.jobs.rows, job.interactionId = 1 ∧ Fate .plain s.world.db job := by
  intro orchestrate s
  have run : Run (Site.step settings .plain "secret") Offered ⟨.ofInteraction .plain, []⟩
      [.http signed, .act orchestrate] s :=
    .cons trivial (.cons (fun _ h => nomatch h) .nil)
  have answer : (endInteractionEndpoint settings .plain "secret" signed
      (World.ofInteraction .plain).db).1 = .ok ⟨"ok", UUID.str 1,
        "Interaction ended, durable workflow queued", some (UUID.str 1)⟩ := by decide +kernel
  have mem : (signed, .ok ⟨"ok", UUID.str 1, "Interaction ended, durable workflow queued",
      some (UUID.str 1)⟩) ∈ s.answers := by
    rw [← answer]
    exact List.mem_cons_self
  obtain ⟨job, hj, _, id, _, fate, _⟩ := acknowledged_kept run ⟨rfl, rfl⟩ mem
  exact ⟨job, hj, id, fate⟩

end PostCall.Properties

import PostCall.Library.Position
import PostCall.Machine.Executions
import PostCall.Machine.Recordings

/-!
# Runs without the recording path

A run loses its recording path: the claims of recording jobs are deleted, and so is each step of an
execution of one. The other executions keep their order, so that an action about one of them takes
the number it has among them. The two runs stay side by side: a step of the recording path leaves a
database that agrees with the one before, and any other step does the same in both.
-/

namespace PostCall.Machine
open PostCall.Library PostCall.Python PostCall.Model

/-! ### The recording path alone -/

/-- The rows under an id are jobs that fetch recordings. -/
def Fetches (db : Db) (id : UUID) : Prop :=
  ∀ job ∈ db.queue.jobs.rows, job.id = id → job.jobType = .recordingFetch

/-- A row of the type is one of a job that fetches a recording. -/
lemma fetches_of_mem {db : Db} {job : InteractionJob} (mem : job ∈ db.queue.jobs.rows)
    (recording : job.jobType = .recordingFetch) : Fetches db job.id :=
  fun _ mem' e => Table.eq_of_key mem' mem e ▸ recording

namespace Agree

variable {cfg : Settings} {text : Text} {db db' : Db}

/-- A change of the row of such a job. -/
lemma updateJob_left (agree : Agree db db') {id : UUID} (fetches : Fetches db id) {event : JobEvent}
    {f : InteractionJob → InteractionJob}
    {same : ∀ job, (f job).toJobIdentity = job.toJobIdentity} :
    Agree (db.mapQueue (·.updateJob id event f same)) db' := by
  refine { agree with jobs := ?_ }
  rw [Db.mapQueue_queue, Queue.updateJob_jobs]
  exact agree.jobs.modify_left fun job mem e _ r => r.update_left same (fetches job mem e)

/-- A change of the columns of the recording path. -/
lemma updateInteraction_left (agree : Agree db db') {id : UUID} {f : Interaction → Interaction}
    {same : ∀ i, (f i).id = i.id} (hidden : ∀ i, unrecorded (f i) = unrecorded i) :
    Agree (db.updateInteraction id f same) db' := by
  refine { agree with interactions := ?_ }
  simp only [Db.updateInteraction]
  exact agree.interactions.modify_left fun i _ _ _ r => (hidden i).trans r

lemma emit_left (agree : Agree db db') {job : InteractionJob} {stage status message : String}
    {code : Option String} : Agree (db.emit job stage status message code) db' := { agree with }

lemma handle_left (agree : Agree db db') {clock : Clock} {job : InteractionJob}
    (fetches : Fetches db job.id) {failure : Failure} :
    Agree (db.handle cfg clock job failure) db' := by
  unfold Db.handle
  have failed : Agree (db.mapQueue (·.recordFailure job.id)) db' := { agree with }
  have logged : Agree ((db.mapQueue (·.recordFailure job.id)).appendError job.interactionId
      ⟨failure.stage, failure.errorCode, failure.errorMessage, clock 1⟩) db' :=
    failed.updateInteraction_left fun _ => rfl
  have fetches' : Fetches ((db.mapQueue (·.recordFailure job.id)).appendError job.interactionId
      ⟨failure.stage, failure.errorCode, failure.errorMessage, clock 1⟩) job.id := fetches
  cases failure.nextRunAt cfg (clock 0) job with
  | some runAfter => exact (logged.updateJob_left fetches').emit_left
  | none =>
    refine { logged with jobs := ?_ }
    simp only [Db.emit_queue, Db.mapQueue_queue, Queue.deadLetter, Queue.updateJob_jobs]
    exact logged.jobs.modify_left fun row mem e _ r =>
      r.update_left (fun _ => InteractionJob.deadLetter_identity) (fetches' row mem e)

lemma claim_left (agree : Agree db db') {workerId : String} {limit : ℕ} {query : ClaimQuery} :
    Agree (claimed workerId [.recordingFetch] limit query db) db' := by
  refine { agree with jobs := ?_ }
  unfold Table.Related claimed
  rw [Db.mapQueue_queue, Queue.claimReadyJobs_rows, ← List.map_id db'.queue.jobs.rows]
  refine related_map agree.jobs fun row mem row' r => ?_
  split
  case isTrue h =>
    obtain ⟨job, ready, e⟩ := List.mem_map.1 h
    obtain ⟨mem', type, _⟩ := Queue.of_mem_readyJobs ready
    obtain rfl := Table.eq_of_key mem' mem e
    exact r.update_left (f := (·.claim workerId query.now)) (fun _ => InteractionJob.claim_identity)
      (List.mem_singleton.1 type)
  case isFalse => exact r

/-- What a recording execution reports. -/
lemma conclude_left (agree : Agree db db') {snapshot : ClaimedRecordingJob}
    (fetches : Fetches db snapshot.id) {clock : Clock} {answer : ExotelAnswer} :
    Agree (World.transact db (Tx.conclude cfg clock snapshot.id
      (RecordingWorkerService.process cfg text clock snapshot answer))) db' := by
  unfold World.transact commit RecordingWorkerService.process
  cases RecordingWorkerService.poll text snapshot answer with
  | error e =>
    simp only [Tx.conclude, Tx.handleFailure]
    rw [Program.bind_of_ok Program.get_run]
    cases found : db.queue.get? snapshot.id with
    | none => exact agree
    | some job => exact agree.handle_left ((Queue.get?_eq_some.1 found).2 ▸ fetches)
  | ok result =>
    simp only [Tx.conclude, RecordingWorkerService.complete]
    rw [Program.bind_of_ok Program.get_run]
    cases found : db.queue.get? snapshot.id with
    | none => exact agree
    | some job =>
      have id : job.id = snapshot.id := (Queue.get?_eq_some.1 found).2
      have keyed : Agree (db.updateRecordingKey snapshot.interactionId result.s3Key) db' :=
        agree.updateInteraction_left fun _ => rfl
      have fetches' : Fetches (db.updateRecordingKey snapshot.interactionId result.s3Key) job.id :=
        id ▸ fetches
      by_cases running : job.status = .running
      · simp only [if_pos running]
        exact (keyed.updateJob_left fetches').emit_left
      · simp only [if_neg running]
        exact agree

end Agree

/-! ### The run without the recording path -/

/-- Whether an execution is one of another worker. -/
def isOther (f : InFlight) : Bool := !isRecording f.work

/-- The number of an execution of another worker, among those of the other workers. -/
def position (w : World) (n : ℕ) : Option ℕ :=
  match w.inflight[n]? with
  | some f => if isOther f then some (keptIdx isOther w.inflight n) else none
  | none => none

/-- The action that is left of an action when the recording path is deleted. -/
def erased (w : World) : Action → Option Action
  | .claimRecordings _ _ _ => none
  | .processResult n fault => (position w n).map (.processResult · fault)
  | .report n outcome clock => (position w n).map (.report · outcome clock)
  | .crash n => (position w n).map .crash
  | .createIfAbsent new => some (.createIfAbsent new)
  | .recoverStaleRunningJobs workerId recovery => some (.recoverStaleRunningJobs workerId recovery)
  | .endInteraction request => some (.endInteraction request)
  | .legacyTask payload birth => some (.legacyTask payload birth)
  | .orchestrate workerId limit recovery query run =>
    some (.orchestrate workerId limit recovery query run)
  | .claimAnalyses workerId limit recovery query clock =>
    some (.claimAnalyses workerId limit recovery query clock)
  | .claimResults workerId limit query => some (.claimResults workerId limit query)

/-- The run that is left of a run. -/
def erase (cfg : Settings) (text : Text) : World → List Action → List Action
  | _, [] => []
  | w, a :: as => (erased w a).toList ++ erase cfg text (World.step cfg text w a) as

/-- The systems agree on all but the recordings, and their other executions are the same. -/
structure SameAnalysis (w w' : World) : Prop where
  agree : Agree w.db w'.db
  works : (w.inflight.filter isOther).map (·.work) = w'.inflight.map (·.work)

section Step

variable {cfg : Settings} {text : Text} {w w' : World}

lemma agree_transact {α : Type} {V : α → α → Prop} {x y : Tx α} {db db' : Db} (agree : Agree db db')
    (ends : Alike Agree V (x db) (y db')) :
    Agree (World.transact db x) (World.transact db' y) := by
  unfold World.transact
  rcases ends.commit with ⟨_, _, _, _, e, e', _, agree'⟩ | ⟨e, e'⟩
  · rw [e, e']
    exact agree'
  · rw [e, e']
    exact agree

lemma agree_endInteraction {request : EndRequest} {db db' : Db} (agree : Agree db db') :
    Agree (World.endInteraction cfg text db request)
      (World.endInteraction cfg text db' request) := by
  unfold World.endInteraction
  rcases (coupled_endInteraction db db' agree).commit with
    ⟨job, job', t, t', e, e', _, agree'⟩ | ⟨e, e'⟩
  · rw [e, e']
    cases request.wakeup with
    | none => exact agree'
    | some e => exact agree_transact agree' (coupled_wakeupFailed t t' agree')
  · rw [e, e']
    exact agree

/-- A transaction on both sides, with the same executions in flight. -/
lemma sameAnalysis_transact {α : Type} {V : α → α → Prop} {x : Tx α} (same : SameAnalysis w w')
    (coupled : Coupled Agree V x x) :
    SameAnalysis { w with db := World.transact w.db x } { w' with db := World.transact w'.db x } :=
  ⟨agree_transact same.agree (coupled _ _ same.agree), same.works⟩

/-- The executions of other workers that a claim begins. -/
lemma works_begun {db : Db} {works : List Work} :
    ((works.map fun work => InFlight.mk work (db.queue.timesClaimed work.jobId)).filter
      isOther).map (·.work) = works.filter (!isRecording ·) := by
  rw [List.filter_map, List.map_map]
  exact List.map_id _

/-- A claim of the other workers begins the same executions in both. -/
lemma sameAnalysis_claim {α : Type} {x : Tx (List α)} {work : α → Work} (same : SameAnalysis w w')
    (coupled : Coupled Agree Eq x x) (others : ∀ a, isRecording (work a) = false) :
    SameAnalysis (w.claim x work) (w'.claim x work) := by
  unfold World.claim
  rcases (coupled _ _ same.agree).commit with ⟨jobs, _, db, db', e, e', rfl, agree⟩ | ⟨e, e'⟩
  · rw [e, e']
    refine ⟨agree, ?_⟩
    have kept : (jobs.map work).filter (!isRecording ·) = jobs.map work :=
      List.filter_eq_self.2 fun _ hj => by
        obtain ⟨a, _, rfl⟩ := List.mem_map.1 hj
        simp [others a]
    rw [List.filter_append, List.map_append, List.map_append, same.works, works_begun, kept,
      List.map_map]
    exact congrArg _ (List.map_id _).symm
  · rw [e, e']
    exact same

/-- A claim of the recording worker begins no other execution. -/
lemma sameAnalysis_claimRecordings {workerId : String} {limit : ℕ} {query : ClaimQuery}
    (same : SameAnalysis w w') :
    SameAnalysis (w.claim (RecordingWorkerService.claimJobs workerId limit query) .recording)
      w' := by
  refine ⟨same.agree.claim_left, ?_⟩
  have run : RecordingWorkerService.claimJobs workerId limit query w.db =
      .ok ((claimedJobs workerId [.recordingFetch] limit query w.db).map
        RecordingWorkerService.snapshot)
        (claimed workerId [.recordingFetch] limit query w.db) := rfl
  unfold World.claim commit
  rw [run]
  have none : ∀ snapshots : List ClaimedRecordingJob,
      (snapshots.map Work.recording).filter (!isRecording ·) = [] := fun snapshots =>
    List.filter_eq_nil_iff.2 fun _ h => by
      obtain ⟨_, _, rfl⟩ := List.mem_map.1 h
      simp [isRecording]
  rw [List.filter_append, List.map_append, works_begun, none, List.append_nil]
  exact same.works

/-- An execution that fetches no recording has a place on the other side. -/
lemma position_of_other {n : ℕ} {f : InFlight} (hf : w.inflight[n]? = some f) (other : isOther f) :
    position w n = some (keptIdx isOther w.inflight n) := by
  unfold position
  rw [hf]
  exact if_pos other

lemma position_of_recording {n : ℕ} {f : InFlight} (hf : w.inflight[n]? = some f)
    (recording : ¬ isOther f) : position w n = none := by
  unfold position
  rw [hf]
  exact if_neg recording

lemma position_of_absent {n : ℕ} (absent : w.inflight[n]? = none) : position w n = none := by
  unfold position
  rw [absent]

/-- An execution of another worker, in both. -/
lemma SameAnalysis.getElem? (same : SameAnalysis w w') {n : ℕ} {f : InFlight}
    (hf : w.inflight[n]? = some f) (other : isOther f) :
    ∃ f', w'.inflight[keptIdx isOther w.inflight n]? = some f' ∧ f'.work = f.work := by
  have found := congrArg (Option.map (·.work)) (getElem?_keptIdx hf other)
  rw [← List.getElem?_map, same.works, List.getElem?_map] at found
  obtain ⟨f', hf', e⟩ := Option.map_eq_some_iff.1 found
  exact ⟨f', hf', e⟩

/-- It ends in both. -/
lemma SameAnalysis.eraseIdx (same : SameAnalysis w w') {n : ℕ} {f : InFlight} {db db' : Db}
    (agree : Agree db db') (hf : w.inflight[n]? = some f) (other : isOther f) :
    SameAnalysis ⟨db, w.inflight.eraseIdx n⟩
      ⟨db', w'.inflight.eraseIdx (keptIdx isOther w.inflight n)⟩ := by
  refine ⟨agree, ?_⟩
  simp only [filter_eraseIdx_of_kept hf other, ← List.eraseIdx_map, same.works]

/-- It goes on in both. -/
lemma SameAnalysis.set (same : SameAnalysis w w') {n : ℕ} {f g g' : InFlight} {db db' : Db}
    (agree : Agree db db') (hf : w.inflight[n]? = some f) (other : isOther f) (other' : isOther g)
    (work : g.work = g'.work) :
    SameAnalysis ⟨db, w.inflight.set n g⟩
      ⟨db', w'.inflight.set (keptIdx isOther w.inflight n) g'⟩ := by
  refine ⟨agree, ?_⟩
  simp only [filter_set_of_kept hf other other', List.map_set, same.works, work]

/-- An execution of the recording worker ends in the first alone. -/
lemma SameAnalysis.drop (same : SameAnalysis w w') {n : ℕ} {f : InFlight} {db : Db}
    (agree : Agree db w'.db) (hf : w.inflight[n]? = some f) (recording : ¬ isOther f) :
    SameAnalysis ⟨db, w.inflight.eraseIdx n⟩ w' := by
  refine ⟨agree, ?_⟩
  rw [filter_eraseIdx_of_not_kept hf recording]
  exact same.works

lemma not_isRecording {f : InFlight} (other : isOther f) : ¬ isRecording f.work := by
  simpa [isOther] using other

lemma type_of_other {job : JobIdentity} {work : Work} (of : WorkOf job work)
    (other : ¬ isRecording work) : job.jobType ≠ .recordingFetch := by
  intro recording
  cases of with
  | analysis _ type => cases type.symm.trans recording
  | recording => exact other rfl
  | result _ type =>
    rcases type with type | type
    · cases type.symm.trans recording
    · cases type.symm.trans recording
  | processed _ type =>
    rcases type with type | type
    · cases type.symm.trans recording
    · cases type.symm.trans recording

/-- The row of an execution of another worker is the same in both. -/
lemma SameAnalysis.get?_eq (same : SameAnalysis w w') (sound : Sound w) {n : ℕ} {f : InFlight}
    (hf : w.inflight[n]? = some f) (other : isOther f) :
    w.db.queue.get? f.work.jobId = w'.db.queue.get? f.work.jobId := by
  obtain ⟨job, mem, of⟩ := sound f (List.mem_of_getElem? hf)
  rw [of.jobId]
  exact same.agree.get?_eq mem (type_of_other of (not_isRecording other))

/-- The `try` block of a result execution. -/
lemma sameAnalysis_processResult (same : SameAnalysis w w') (n : ℕ) (fault : Option PyError) :
    SameAnalysis (w.processResult n fault)
      (((position w n).map (Action.processResult · fault)).toList.foldl
        (World.step cfg text) w') := by
  cases hf : w.inflight[n]? with
  | none =>
    rw [position_of_absent hf]
    simp only [World.processResult, hf]
    exact same
  | some f =>
    obtain ⟨work, claim⟩ := f
    by_cases other : isOther ⟨work, claim⟩
    · obtain ⟨⟨work', claim'⟩, hf', e⟩ := same.getElem? hf other
      obtain rfl : work' = work := e
      rw [position_of_other hf other]
      simp only [Option.map_some, Option.toList_some, List.foldl_cons, List.foldl_nil, World.step,
        World.processResult, hf, hf']
      cases work' with
      | result snapshot =>
        have ends : Alike Agree Eq (ResultWorkerService.process snapshot fault w.db)
            (ResultWorkerService.process snapshot fault w'.db) :=
          coupled_processResult _ _ same.agree
        simp only
        generalize ResultWorkerService.process snapshot fault w.db = x at ends ⊢
        generalize ResultWorkerService.process snapshot fault w'.db = y at ends ⊢
        cases ends with
        | ok _ agree =>
          have other' : isOther ⟨.processed snapshot none, claim⟩ := rfl
          exact same.set agree hf other other' rfl
        | @error e =>
          have other' : isOther ⟨.processed snapshot (some e), claim⟩ := rfl
          exact same.set same.agree hf other other' rfl
      | analysis => exact same
      | recording => exact same
      | processed => exact same
    · rw [position_of_recording hf other]
      simp only [World.processResult, hf]
      cases work with
      | recording => exact same
      | analysis => exact absurd rfl other
      | result => exact absurd rfl other
      | processed => exact absurd rfl other

/-- The last transaction of an execution. -/
lemma sameAnalysis_report (sound : Sound w) (same : SameAnalysis w w') (n : ℕ) (outcome : Outcome)
    (clock : Clock) :
    SameAnalysis (World.report cfg text w n outcome clock)
      (((position w n).map (Action.report · outcome clock)).toList.foldl
        (World.step cfg text) w') := by
  cases hf : w.inflight[n]? with
  | none =>
    rw [position_of_absent hf]
    simp only [World.report, hf]
    exact same
  | some f =>
    by_cases other : isOther f
    · obtain ⟨f', hf', work⟩ := same.getElem? hf other
      rw [position_of_other hf other]
      simp only [Option.map_some, Option.toList_some, List.foldl_cons, List.foldl_nil, World.step,
        World.report, hf, hf', work, InFlight.jobId]
      cases concludes : f.work.conclusion cfg text clock outcome with
      | none => exact same
      | some conclusion =>
        have ends := alike_conclude same.agree (not_isRecording other) (same.get?_eq sound hf other)
          concludes
        exact same.eraseIdx (agree_transact same.agree ends) hf other
    · rw [position_of_recording hf other]
      simp only [World.report, hf]
      obtain ⟨job, mem, of⟩ := sound f (List.mem_of_getElem? hf)
      obtain ⟨work, claim⟩ := f
      cases of with
      | @recording row e type =>
        cases outcome with
        | recording answer =>
          have fetches : Fetches w.db (RecordingWorkerService.snapshot row).id := by
            have id : (RecordingWorkerService.snapshot row).id = job.id := congrArg JobIdentity.id e
            rw [id]
            exact fetches_of_mem mem type
          exact same.drop (same.agree.conclude_left fetches) hf other
        | analysis => exact same
        | result => exact same
      | analysis => exact absurd rfl other
      | result => exact absurd rfl other
      | processed => exact absurd rfl other

/-- The death of a worker. -/
lemma sameAnalysis_crash (same : SameAnalysis w w') (n : ℕ) :
    SameAnalysis ⟨w.db, w.inflight.eraseIdx n⟩
      (((position w n).map Action.crash).toList.foldl (World.step cfg text) w') := by
  cases hf : w.inflight[n]? with
  | none =>
    rw [position_of_absent hf, List.eraseIdx_of_length_le (List.getElem?_eq_none_iff.1 hf)]
    exact same
  | some f =>
    by_cases other : isOther f
    · rw [position_of_other hf other]
      exact same.eraseIdx same.agree hf other
    · rw [position_of_recording hf other]
      exact same.drop same.agree hf other

/-- A step of the system beside what is left of it. -/
theorem sameAnalysis_step (sound : Sound w) (same : SameAnalysis w w') (a : Action) :
    SameAnalysis (World.step cfg text w a)
      ((erased w a).toList.foldl (World.step cfg text) w') := by
  cases a with
  | createIfAbsent => exact sameAnalysis_transact same coupled_createIfAbsent
  | recoverStaleRunningJobs => exact sameAnalysis_transact same coupled_recover
  | endInteraction => exact ⟨agree_endInteraction same.agree, same.works⟩
  | legacyTask => exact sameAnalysis_transact same coupled_persistLegacyPayload
  | orchestrate => exact sameAnalysis_transact same coupled_runOnce
  | claimAnalyses => exact sameAnalysis_claim same coupled_claimAdmittedJobs fun _ => rfl
  | claimRecordings => exact sameAnalysis_claimRecordings same
  | claimResults => exact sameAnalysis_claim same coupled_claimResults fun _ => rfl
  | processResult n fault => exact sameAnalysis_processResult same n fault
  | report n outcome clock => exact sameAnalysis_report sound same n outcome clock
  | crash n => exact sameAnalysis_crash same n

/-- A run of the system beside what is left of it. -/
theorem sameAnalysis_run {as : List Action} (sound : Sound w) (same : SameAnalysis w w') :
    SameAnalysis (as.foldl (World.step cfg text) w)
      ((erase cfg text w as).foldl (World.step cfg text) w') := by
  induction as generalizing w w' with
  | nil => exact same
  | cons a as ih =>
    rw [erase, List.foldl_append, List.foldl_cons]
    exact ih (sound_step sound) (sameAnalysis_step sound same a)

end Step

end PostCall.Machine

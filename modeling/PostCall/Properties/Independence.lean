import PostCall.Machine.Erasure

/-!
# The recording path is not seen

What the analysis path is about: the rows of the jobs that fetch no recording, the metadata of the
interactions, the leads, and the ledger of tokens. A run and the run that is left when its recording
path is deleted show the same of it at every point, and so do two runs of which the same is left,
whatever the recording workers claim, poll and report in either.
-/

namespace PostCall.Properties
open PostCall.Library PostCall.Python PostCall.Model PostCall.Machine

/-- What the analysis path is about. -/
structure Observation where
  jobs : List InteractionJob
  interactionMetadata : List (UUID × Dict)
  leads : List Lead
  customerTokenUsage : List CustomerTokenUsage

/-- What a database shows of it. -/
def observation (db : Db) : Observation where
  jobs := db.queue.jobs.rows.filter (·.jobType ≠ .recordingFetch)
  interactionMetadata := db.interactions.rows.map fun i => (i.id, i.interactionMetadata)
  leads := db.leads.rows
  customerTokenUsage := db.usage.rows

lemma observation_of_agree {db db' : Db} (agree : Agree db db') :
    observation db = observation db' := by
  have jobs : db.queue.jobs.rows.filter (·.jobType ≠ .recordingFetch) =
      db'.queue.jobs.rows.filter (·.jobType ≠ .recordingFetch) :=
    related_filter agree.jobs (fun _ _ r => by rw [r.jobType]) fun _ _ r other =>
      r.row (of_decide_eq_true other)
  have metadata : db.interactions.rows.map (fun i => (i.id, i.interactionMetadata)) =
      db'.interactions.rows.map fun i => (i.id, i.interactionMetadata) :=
    related_map_eq agree.interactions fun _ _ r =>
      r.column (f := fun i => (i.id, i.interactionMetadata)) fun _ => rfl
  unfold observation
  rw [jobs, metadata, agree.leads, agree.usage]

section

variable {cfg : Settings} {text : Text} {w₀ : World} {as bs : List Action}

/-- What is left of a run begins with what is left of its beginning. -/
lemma prefix_erase {w : World} (h : as <+: bs) : erase cfg text w as <+: erase cfg text w bs := by
  induction as generalizing w bs with
  | nil => exact List.nil_prefix
  | cons a as ih =>
    obtain ⟨bs, rfl⟩ := h
    exact (List.prefix_append_right_inj _).2 (ih (List.prefix_append as bs))

/-- A run that begins with no execution, beside what is left of it. -/
lemma sameAnalysis_erase (idle : w₀.inflight = []) (as : List Action) :
    SameAnalysis (as.foldl (World.step cfg text) w₀)
      ((erase cfg text w₀ as).foldl (World.step cfg text) w₀) :=
  sameAnalysis_run (sound_of_idle idle) ⟨.refl _, by rw [idle]; rfl⟩

/-- A run looks the same without what is erased. -/
lemma observation_erase (idle : w₀.inflight = []) (as : List Action) :
    observation (as.foldl (World.step cfg text) w₀).db =
      observation ((erase cfg text w₀ as).foldl (World.step cfg text) w₀).db :=
  observation_of_agree (sameAnalysis_erase idle as).agree

/-- What is left has no execution of the recording worker. -/
lemma isOther_erase (idle : w₀.inflight = []) (as : List Action) :
    ∀ f ∈ ((erase cfg text w₀ as).foldl (World.step cfg text) w₀).inflight, isOther f := by
  intro f hf
  have work := List.mem_map_of_mem (f := (·.work)) hf
  rw [← (sameAnalysis_erase idle as).works] at work
  obtain ⟨f', hf', e⟩ := List.mem_map.1 work
  have other := (List.mem_filter.1 hf').2
  simp only [isOther, e] at other
  exact other

/-- The recording path influences nothing of the analysis path: a run that loses its recording path
shows the same at every point, and two runs that differ in it show the same after as many steps of
the others. -/
theorem recordings_unseen (cfg : Settings) (text : Text) (w₀ : World) (idle : w₀.inflight = [])
    (as : List Action) :
    (∀ done, done <+: as → erase cfg text w₀ done <+: erase cfg text w₀ as ∧
      (∀ f ∈ ((erase cfg text w₀ done).foldl (World.step cfg text) w₀).inflight, isOther f) ∧
      observation (done.foldl (World.step cfg text) w₀).db =
        observation ((erase cfg text w₀ done).foldl (World.step cfg text) w₀).db) ∧
    ∀ bs, erase cfg text w₀ bs = erase cfg text w₀ as → ∀ done, done <+: as → ∀ done', done' <+: bs →
      (erase cfg text w₀ done).length = (erase cfg text w₀ done').length →
      observation (done.foldl (World.step cfg text) w₀).db =
        observation (done'.foldl (World.step cfg text) w₀).db := by
  refine ⟨fun done h => ⟨prefix_erase h, isOther_erase idle done, observation_erase idle done⟩,
    fun bs same done h done' h' length => ?_⟩
  have left : erase cfg text w₀ done <+: erase cfg text w₀ as := prefix_erase h
  have left' : erase cfg text w₀ done' <+: erase cfg text w₀ as := same ▸ prefix_erase h'
  have equal : erase cfg text w₀ done = erase cfg text w₀ done' :=
    (List.prefix_of_prefix_length_le left left' length.le).eq_of_length length
  calc observation (done.foldl (World.step cfg text) w₀).db
      = observation ((erase cfg text w₀ done).foldl (World.step cfg text) w₀).db :=
        observation_erase idle done
    _ = observation ((erase cfg text w₀ done').foldl (World.step cfg text) w₀).db := by rw [equal]
    _ = observation (done'.foldl (World.step cfg text) w₀).db := (observation_erase idle done').symm

end

/-- A recording is asked for, and then the job of another worker is claimed. -/
def polled (answer : ExotelAnswer) : List Action := [
  .createIfAbsent (.plain 2 .recordingFetch [("call_sid", .str "CA1"),
    ("exotel_account_id", .str "A1")]),
  .createIfAbsent (.plain 3 .signalJobs),
  .claimRecordings "r" 1 (.at 0),
  .report 0 (.recording answer) fun _ => 0,
  .claimResults "s" 1 (.at 0)]

def answer404 : ExotelAnswer := .response 404 (.ok .null) ""

def answer200 : ExotelAnswer := .response 200 (.ok (.dict [("recording_url", .str "u")])) ""

/-- The recording job is tried again in one run and has succeeded in the other. -/
theorem recordings_unseen_polled :
    ((after (polled answer404)).db.queue.get? 2).map (·.status) = some .deferred ∧
    ((after (polled answer200)).db.queue.get? 2).map (·.status) = some .succeeded ∧
    observation (after (polled answer404)).db = observation (after (polled answer200)).db :=
  ⟨by decide +kernel, by decide +kernel,
    (recordings_unseen settings .plain (.ofInteraction .plain) rfl (polled answer404)).2
      (polled answer200) rfl (polled answer404) (List.prefix_refl _) (polled answer200)
      (List.prefix_refl _) (by decide +kernel)⟩

end PostCall.Properties

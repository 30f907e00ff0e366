-- The scan for stale and stuck jobs. Of the jobs that wait for the exchange it reports those
-- that are submitted, by the age of the job and not by the time since the status changed.
import TradingPlatform.Execution.Database
import TradingPlatform.Lib.Table

open resumption
open keyed
open trading_platform.shared

namespace trading_platform.execution

/-! ## Jobs -/

/-- The statuses that `VALID_JOB_TRANSITIONS` names. -/
def JOB_STATUSES : List JobStatus :=
  [.queued, .approved, .blocked, .submitted, .acknowledged, .partially_filled, .filled, .canceled,
    .failed, .rolled_back]

def TERMINAL_STATES : List String := (JOB_STATUSES.filter is_terminal).map JobStatus.value

/-- `is_terminal` of the text of a status. A text that is no status is not terminal. -/
def is_terminal_text (state : String) : Bool := TERMINAL_STATES.contains state

/-- A `datetime`, in microseconds, with the offset of its time zone if it has one. -/
structure DateTime where
  wall : Int
  tzinfo : Option Int

/-- The time in UTC. A time without a zone is read as one in UTC. -/
def DateTime.instant (t : DateTime) : Int := t.wall - t.tzinfo.getD 0

/-- `timedelta.total_seconds`. -/
def total_seconds (microseconds : Int) : ℚ := microseconds / 1000000

/-- A row of `execution_jobs`, with the time at which its status became what it is. -/
structure JobRow where
  id : Uuid
  status : String
  symbol : String
  trading_mode : String
  created_at : DateTime
  changed_at : Int
  created_first : created_at.instant ≤ changed_at

namespace JobRow

variable (self : JobRow) (now : Int)

def age_s : ℚ := total_seconds (now - self.created_at.instant)

/-- `int(age_s)`, which cuts off towards zero. -/
def int_age_s : Int := (now - self.created_at.instant).tdiv 1000000

/-- For how long the job has had its status. -/
def stayed_s : ℚ := total_seconds (now - self.changed_at)

theorem stayed_le_age : self.stayed_s now ≤ self.age_s now := by
  have hfirst : (self.created_at.instant : ℚ) ≤ self.changed_at := by
    exact_mod_cast self.created_first
  unfold stayed_s age_s total_seconds
  push_cast
  linarith

end JobRow

/-- The job is not terminal and has waited for the exchange for the timeout. -/
structure JobRow.Stuck (job : JobRow) (now timeout_s : Int) : Prop where
  open_job : is_terminal_text job.status = false
  waits : job.status ∈ ["submitted", "acknowledged", "partially_filled"]
  long : timeout_s ≤ job.stayed_s now

abbrev JobTable := Table JobRow JobRow.id

/-- The rows that the query of `get_active_jobs` selects. -/
def get_active_jobs (jobs : JobTable) : List JobRow :=
  jobs.rows.filter fun job => ["submitted", "acknowledged", "partially_filled"].contains job.status

theorem mem_get_active_jobs {jobs : JobTable} {job : JobRow} :
    job ∈ get_active_jobs jobs ↔
      job ∈ jobs.rows ∧ job.status ∈ ["submitted", "acknowledged", "partially_filled"] := by
  unfold get_active_jobs
  rw [List.mem_filter, List.contains_iff_mem]

/-! ## The scan -/

/-- A `stale_order_detected` event. -/
structure StaleOrderEvent where
  event_type : String := "stale_order_detected"
  job_id : Uuid
  status : String
  symbol : String
  age_s : Int
  stale_threshold_s : Int

/-- The incident that is logged beside it. -/
structure StaleOrderIncident where
  incident_type : String := "stale_order"
  description : String
  severity : String := "warning"
  job_id : Uuid
  symbol : String
  age_s : Int
  trading_mode : String

inductive ReconCmd where
  | count_scan
  | utcnow
  | get_active_jobs
  | count_stale
  | publish (event : StaleOrderEvent)
  | save_incident (incident : StaleOrderIncident)

abbrev ReconCmd.Ans : ReconCmd → Type
  | .utcnow => Int
  | .get_active_jobs => List JobRow
  | .count_scan | .count_stale | .publish _ | .save_incident _ => Unit

abbrev ReconPy := Prog PyErr ReconCmd ReconCmd.Ans

/-- The jobs and the clock, what a scan leaves behind, and the counters of the loop. -/
structure ReconWorld where
  jobs : JobTable
  now : Int
  events : List StaleOrderEvent := []
  incidents : List StaleOrderIncident := []
  total_scans : Nat := 0
  total_stale_detected : Nat := 0

/-- How a call ends: it may raise, and the rows of a query come in some order. -/
structure Reply where
  error : Option PyErr := none
  arrange : List JobRow → List JobRow := id
  perm : ∀ rows, (arrange rows).Perm rows := by exact fun _ => .refl _

/-- The answer of a call that may raise. -/
def Reply.answer {α : Type} (o : Reply) (a : α) : Except PyErr α :=
  match o.error with
  | some e => .error e
  | none => .ok a

def ReconWorld.exec (w : ReconWorld) (c : ReconCmd) (o : Reply) : Except PyErr c.Ans × ReconWorld :=
  match c with
  | .count_scan => (.ok (), { w with total_scans := w.total_scans + 1 })
  | .utcnow => (.ok w.now, w)
  | .get_active_jobs => (o.answer (o.arrange (execution.get_active_jobs w.jobs)), w)
  | .count_stale => (.ok (), { w with total_stale_detected := w.total_stale_detected + 1 })
  | .publish event =>
    (o.answer (), if o.error.isNone then { w with events := w.events ++ [event] } else w)
  | .save_incident incident =>
    (o.answer (), if o.error.isNone then { w with incidents := w.incidents ++ [incident] } else w)

structure ScanStats where
  active_jobs : Nat := 0
  stale_detected : Nat := 0
  partially_filled_pending : Nat := 0
  deriving DecidableEq

structure ReconciliationLoop where
  stale_order_timeout_s : Int := 300
  /-- There is a repository. -/
  repository : Bool := true
  /-- There is an incident logger. -/
  incident_logger : Bool := true

/-- `IncidentLogger.log_incident` logs what its insert raises. -/
def log_stale_order (incident : StaleOrderIncident) : ReconPy Unit :=
  (Prog.perform (V := ReconCmd.Ans) (.save_incident incident)).swallow

namespace ReconciliationLoop

variable (self : ReconciliationLoop)

/-- The branch that reports a job. -/
def is_stale (now : Int) (job : JobRow) : Bool :=
  job.status = "submitted" && self.stale_order_timeout_s ≤ job.age_s now

def stale_event (now : Int) (job : JobRow) : StaleOrderEvent where
  job_id := job.id
  status := job.status
  symbol := job.symbol
  age_s := job.int_age_s now
  stale_threshold_s := self.stale_order_timeout_s

def stale_incident (now : Int) (job : JobRow) : StaleOrderIncident where
  description := s!"Job {job.id} stuck in submitted state for {job.int_age_s now}s"
  job_id := job.id
  symbol := job.symbol
  age_s := job.int_age_s now
  trading_mode := job.trading_mode

def report_stale (now : Int) (job : JobRow) : ReconPy Unit := do
  Prog.perform (V := ReconCmd.Ans) .count_stale
  Prog.perform (V := ReconCmd.Ans) (.publish (self.stale_event now job))
  if self.incident_logger then log_stale_order (stale_incident now job) else return ()

def look_at (now : Int) (job : JobRow) : ReconPy Unit :=
  if self.is_stale now job then self.report_stale now job else return ()

/-- What a job adds to the stats. -/
def count_job (now : Int) (stats : ScanStats) (job : JobRow) : ScanStats :=
  { stats with
    stale_detected := stats.stale_detected + if self.is_stale now job then 1 else 0
    partially_filled_pending :=
      stats.partially_filled_pending + if job.status = "partially_filled" then 1 else 0 }

def scan (now : Int) : List JobRow → ScanStats → ReconPy ScanStats
  | [], stats => return stats
  | job :: jobs, stats => do
    self.look_at now job
    scan now jobs (self.count_job now stats job)

def run_once : ReconPy ScanStats :=
  if self.repository then do
    Prog.perform (V := ReconCmd.Ans) .count_scan
    let now ← Prog.perform (V := ReconCmd.Ans) .utcnow
    let active_jobs ← Prog.perform (V := ReconCmd.Ans) .get_active_jobs
    self.scan now active_jobs { active_jobs := active_jobs.length }
  else return {}

/-! ## What a scan publishes -/

section Laws

variable {self} {idle : Reply}

/-- The log of an incident publishes nothing. -/
theorem log_stale_order_keeps (incident : StaleOrderIncident) (w : ReconWorld) (os : List Reply) :
    (run ReconWorld.exec idle (log_stale_order incident) w os).2.1.events = w.events := by
  unfold log_stale_order
  rw [run_swallow, run_perform]
  dsimp only [ReconWorld.exec]
  split
  · rfl
  · rfl

/-- A report that returns has published the event of its job. -/
theorem report_stale_publishes (now : Int) (job : JobRow) {w w' : ReconWorld} {os os' : List Reply}
    (h : run ReconWorld.exec idle (self.report_stale now job) w os = (.ok (), w', os')) :
    w'.events = w.events ++ [self.stale_event now job] := by
  unfold report_stale at h
  rw [run_bind, run_perform] at h
  dsimp only [ReconWorld.exec] at h
  rw [run_bind, run_perform] at h
  dsimp only [ReconWorld.exec, Reply.answer] at h
  cases herror : (os.tail.headD idle).error with
  | some e =>
    rw [herror] at h
    cases h
  | none =>
    rw [herror] at h
    dsimp only [Option.isNone] at h
    rw [if_pos rfl] at h
    by_cases hlogger : self.incident_logger = true
    · rw [if_pos hlogger] at h
      have hkeeps := congrArg (fun r => r.2.1.events) h
      dsimp only at hkeeps
      rw [log_stale_order_keeps] at hkeeps
      exact hkeeps.symm
    · rw [if_neg hlogger] at h
      cases h
      rfl

/-- A scan that returns has published the events of the stale jobs among those it was given, and
counts them. -/
theorem scan_publishes (now : Int) (jobs : List JobRow) {stats stats' : ScanStats}
    {w w' : ReconWorld} {os os' : List Reply}
    (h : run ReconWorld.exec idle (self.scan now jobs stats) w os = (.ok stats', w', os')) :
    w'.events = w.events ++ (jobs.filter (self.is_stale now)).map (self.stale_event now) ∧
      stats' = jobs.foldl (self.count_job now) stats := by
  induction jobs generalizing stats w os with
  | nil =>
    cases h
    simp
  | cons job jobs ih =>
    unfold scan at h
    rw [run_bind] at h
    unfold look_at at h
    by_cases hstale : self.is_stale now job = true
    · rw [if_pos hstale] at h
      rcases hreport : run ReconWorld.exec idle (self.report_stale now job) w os with
        ⟨_ | u, w1, os1⟩
      · rw [hreport] at h
        cases h
      · rw [hreport] at h
        obtain ⟨hevents, hstats⟩ := ih h
        rw [hevents, report_stale_publishes now job hreport, List.filter_cons_of_pos hstale]
        simp [hstats]
    · rw [if_neg hstale] at h
      obtain ⟨hevents, hstats⟩ := ih h
      rw [hevents, List.filter_cons_of_neg hstale]
      exact ⟨rfl, hstats⟩

/-- The events of a scan that returns are those of the stale jobs. -/
theorem run_once_publishes (hrepository : self.repository = true) (w : ReconWorld)
    {os os' : List Reply} {stats : ScanStats} {w' : ReconWorld}
    (h : run ReconWorld.exec idle self.run_once { w with events := [] } os = (.ok stats, w', os'))
    (i : Uuid) :
    (∃ event ∈ w'.events, event.job_id = i) ↔
      ∃ job ∈ w.jobs.rows, job.id = i ∧ self.is_stale w.now job = true := by
  unfold run_once at h
  rw [if_pos hrepository, run_bind, run_perform] at h
  dsimp only [ReconWorld.exec] at h
  rw [run_bind, run_perform] at h
  dsimp only [ReconWorld.exec] at h
  rw [run_bind, run_perform] at h
  dsimp only [ReconWorld.exec, Reply.answer] at h
  cases herror : (os.tail.tail.headD idle).error with
  | some e =>
    rw [herror] at h
    cases h
  | none =>
    rw [herror] at h
    obtain ⟨hevents, -⟩ := scan_publishes w.now _ h
    have hperm := (os.tail.tail.headD idle).perm (execution.get_active_jobs w.jobs)
    rw [hevents, List.nil_append]
    constructor
    · rintro ⟨event, hevent, hid⟩
      obtain ⟨job, hjob, rfl⟩ := List.mem_map.mp hevent
      obtain ⟨hactive, hstale⟩ := List.mem_filter.mp hjob
      exact ⟨job, (mem_get_active_jobs.mp (hperm.mem_iff.mp hactive)).1, hid, hstale⟩
    · rintro ⟨job, hjob, hid, hstale⟩
      have hsubmitted : job.status = "submitted" := by
        unfold is_stale at hstale
        exact of_decide_eq_true (Bool.and_eq_true_iff.mp hstale).1
      have hactive : job ∈ execution.get_active_jobs w.jobs := by
        rw [mem_get_active_jobs, hsubmitted]
        exact ⟨hjob, List.mem_cons_self⟩
      refine ⟨self.stale_event w.now job, List.mem_map_of_mem ?_, hid⟩
      exact List.mem_filter.mpr ⟨hperm.mem_iff.mpr hactive, hstale⟩

/-! ## Stuck jobs -/

/-- What the scan is for: its events are those of the stuck jobs, and the active jobs are all
that are neither terminal nor failed. -/
structure FindsStuck (loop : ReconciliationLoop) (w : ReconWorld) (events : List StaleOrderEvent) :
    Prop where
  published : ∀ i, (∃ event ∈ events, event.job_id = i) ↔
    ∃ job ∈ w.jobs.rows, job.id = i ∧ job.Stuck w.now loop.stale_order_timeout_s
  active : ∀ job ∈ w.jobs.rows, is_terminal_text job.status = false → job.status ≠ "failed" →
    job ∈ execution.get_active_jobs w.jobs

/-- The stuck jobs are the old ones that are submitted: each old job that is submitted became so
in time, no other job waits for long, and no job is still before its submission. -/
structure OnlySubmittedStuck (loop : ReconciliationLoop) (w : ReconWorld) : Prop where
  submitted : ∀ job ∈ w.jobs.rows, job.status = "submitted" →
    loop.stale_order_timeout_s ≤ job.age_s w.now → loop.stale_order_timeout_s ≤ job.stayed_s w.now
  answered : ∀ job ∈ w.jobs.rows, job.status = "acknowledged" ∨ job.status = "partially_filled" →
    job.stayed_s w.now < loop.stale_order_timeout_s
  begun : ∀ job ∈ w.jobs.rows, ∃ status : JobStatus, job.status = status.value ∧
    status ≠ .queued ∧ status ≠ .approved

/-- A job is stale or stuck alike when it meets the condition. -/
theorem is_stale_iff_stuck {now : Int} {job : JobRow} :
    (self.is_stale now job = true ↔ job.Stuck now self.stale_order_timeout_s) ↔
      (job.status = "submitted" → self.stale_order_timeout_s ≤ job.age_s now →
        self.stale_order_timeout_s ≤ job.stayed_s now) ∧
      (job.status = "acknowledged" ∨ job.status = "partially_filled" →
        job.stayed_s now < self.stale_order_timeout_s) := by
  have hage := job.stayed_le_age now
  unfold is_stale
  rw [Bool.and_eq_true, decide_eq_true_iff, decide_eq_true_iff]
  constructor
  · intro h
    constructor
    · intro hsubmitted hlong
      exact (h.mp ⟨hsubmitted, hlong⟩).long
    · intro hanswered
      by_contra hlong
      have hstuck : job.Stuck now self.stale_order_timeout_s := by
        refine ⟨?_, ?_, not_lt.mp hlong⟩
        · rcases hanswered with hstatus | hstatus
          · rw [hstatus]
            decide
          · rw [hstatus]
            decide
        · rcases hanswered with hstatus | hstatus
          · simp [hstatus]
          · simp [hstatus]
      have hsubmitted := (h.mpr hstuck).1
      rw [hsubmitted] at hanswered
      revert hanswered
      decide
  · rintro ⟨hsubmitted, hanswered⟩
    constructor
    · rintro ⟨hstatus, hlong⟩
      refine ⟨?_, ?_, hsubmitted hstatus hlong⟩
      · rw [hstatus]
        decide
      · simp [hstatus]
    · rintro ⟨-, hwaits, hlong⟩
      simp only [List.mem_cons, List.not_mem_nil, or_false] at hwaits
      rcases hwaits with hstatus | hother
      · exact ⟨hstatus, hlong.trans hage⟩
      · exact absurd hlong (not_le.mpr (hanswered hother))

/-- The query misses no job exactly when none is before its submission. -/
theorem is_active_iff_begun {jobs : JobTable} {job : JobRow} (hjob : job ∈ jobs.rows) :
    (is_terminal_text job.status = false → job.status ≠ "failed" →
      job ∈ execution.get_active_jobs jobs) ↔
      ∃ status : JobStatus, job.status = status.value ∧ status ≠ .queued ∧ status ≠ .approved := by
  rw [mem_get_active_jobs]
  constructor
  · intro h
    by_cases hfailed : job.status = "failed"
    · exact ⟨.failed, hfailed, by decide, by decide⟩
    · by_cases hterminal : is_terminal_text job.status = true
      · unfold is_terminal_text at hterminal
        rw [List.contains_iff_mem] at hterminal
        obtain ⟨status, hstatus, hvalue⟩ := List.mem_map.mp hterminal
        refine ⟨status, hvalue.symm, ?_, ?_⟩
        · rintro rfl
          revert hstatus
          decide
        · rintro rfl
          revert hstatus
          decide
      · obtain ⟨-, hwaits⟩ := h (Bool.not_eq_true _ ▸ hterminal) hfailed
        simp only [List.mem_cons, List.not_mem_nil, or_false] at hwaits
        rcases hwaits with hstatus | hstatus | hstatus
        · exact ⟨.submitted, hstatus, by decide, by decide⟩
        · exact ⟨.acknowledged, hstatus, by decide, by decide⟩
        · exact ⟨.partially_filled, hstatus, by decide, by decide⟩
  · rintro ⟨status, hstatus, hqueued, happroved⟩ hopen hfailed
    refine ⟨hjob, ?_⟩
    rw [hstatus] at hopen hfailed ⊢
    revert hqueued happroved hopen hfailed
    cases status <;> decide

/-- One scan that returns finds the stuck jobs exactly when these are the old ones that are
submitted. -/
theorem finds_stuck_iff (hrepository : self.repository = true) (w : ReconWorld) (os : List Reply)
    {stats : ScanStats}
    (h : (run ReconWorld.exec idle self.run_once { w with events := [] } os).1 = .ok stats) :
    FindsStuck self w
        (run ReconWorld.exec idle self.run_once { w with events := [] } os).2.1.events ↔
      OnlySubmittedStuck self w := by
  rcases hrun : run ReconWorld.exec idle self.run_once { w with events := [] } os with ⟨r, w', os'⟩
  rw [hrun] at h
  obtain rfl : r = .ok stats := h
  have hpublishes := run_once_publishes hrepository w hrun
  have hstale : (∀ i, (∃ event ∈ w'.events, event.job_id = i) ↔
      ∃ job ∈ w.jobs.rows, job.id = i ∧ job.Stuck w.now self.stale_order_timeout_s) ↔
      ∀ job ∈ w.jobs.rows,
        self.is_stale w.now job = true ↔ job.Stuck w.now self.stale_order_timeout_s := by
    simp only [hpublishes]
    exact w.jobs.same_keys_iff _ _
  constructor
  · rintro ⟨hpublished, hactive⟩
    have hsame := hstale.mp hpublished
    constructor
    · intro job hjob
      exact (is_stale_iff_stuck.mp (hsame job hjob)).1
    · intro job hjob
      exact (is_stale_iff_stuck.mp (hsame job hjob)).2
    · intro job hjob
      exact (is_active_iff_begun hjob).mp (hactive job hjob)
  · rintro ⟨hsubmitted, hanswered, hbegun⟩
    constructor
    · apply hstale.mpr
      intro job hjob
      exact is_stale_iff_stuck.mpr ⟨hsubmitted job hjob, hanswered job hjob⟩
    · intro job hjob
      exact (is_active_iff_begun hjob).mpr (hbegun job hjob)

end Laws

/-! ## Examples -/

/-- A job of this status, created at the time 0, that has its status for a second less than its
age. -/
def job_in (status : String) : JobRow where
  id := "00000000-0000-0000-0000-000000000001"
  status := status
  symbol := "BTCUSDT"
  trading_mode := "paper"
  created_at := ⟨0, some 0⟩
  changed_at := 1000000
  created_first := by decide

/-- An hour after its creation. -/
def an_hour_later (status : String) : ReconWorld where
  jobs := ⟨[job_in status], List.nodup_singleton _⟩
  now := 3600000000

/-- The events of the default loop. -/
def events_of_scan (w : ReconWorld) : List StaleOrderEvent :=
  (run ReconWorld.exec {} (run_once {}) { w with events := [] } []).2.1.events

theorem long_stayed (status : String) : 300 ≤ (job_in status).stayed_s 3600000000 := by
  norm_num [job_in, JobRow.stayed_s, total_seconds]

theorem old_submitted_job_is_found :
    FindsStuck {} (an_hour_later "submitted") (events_of_scan (an_hour_later "submitted")) := by
  have hscan : (run ReconWorld.exec {} (run_once {}) { an_hour_later "submitted" with events := [] }
      []).1 = .ok ⟨1, 1, 0⟩ := by
    decide +kernel
  apply (finds_stuck_iff rfl (an_hour_later "submitted") [] hscan).mpr
  constructor
  · intro job hjob _ _
    obtain rfl := List.mem_singleton.mp hjob
    exact_mod_cast long_stayed "submitted"
  · intro job hjob hanswered
    obtain rfl := List.mem_singleton.mp hjob
    revert hanswered
    decide
  · intro job hjob
    obtain rfl := List.mem_singleton.mp hjob
    exact ⟨.submitted, rfl, by decide, by decide⟩

/-- An order that has been filled in part for an hour is not reported. -/
theorem partial_fill_is_not_found :
    ¬ FindsStuck {} (an_hour_later "partially_filled")
      (events_of_scan (an_hour_later "partially_filled")) := by
  intro h
  have hstuck : (job_in "partially_filled").Stuck 3600000000 300 := by
    refine ⟨by decide, by decide, ?_⟩
    exact_mod_cast long_stayed "partially_filled"
  obtain ⟨event, hevent, -⟩ := (h.published (job_in "partially_filled").id).mpr
    ⟨job_in "partially_filled", List.mem_singleton_self _, rfl, hstuck⟩
  cases hevent

end ReconciliationLoop

end trading_platform.execution

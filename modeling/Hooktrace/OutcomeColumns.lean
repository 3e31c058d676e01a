import Hooktrace.ForwardStore

/-!
What the columns of a forward say together, whatever order the workers, the owner and the
redrives wrote them in. A worker that recorded late, after its forward was abandoned or brought
back, has overwritten the status with all the columns that belong to it, so that no row is ever
half one story and half another (`Coherent`). What a row shows was also written there by somebody:
a status code by a worker that had claimed the forward and was answered with it (`Told`).
-/
namespace Hooktrace.OutcomeColumns

open Table ForwardDecision ForwardRepository ExecuteForward Transition Lifecycle ForwardStore

section Columns

variable (r : Forward) (answer : TargetAnswer)

/-- The two columns that an answer is recorded with. -/
def codeOf : TargetAnswer → Option ℕ
  | .status code => some code
  | _ => none

def errorOf : TargetAnswer → Option String
  | .status _ => none
  | .ssrfBlocked message => some s!"SsrfBlockedError: {message}"
  | .requestFailed message => some message

def Shows : Prop := r.finalStatusCode = codeOf answer ∧ r.finalError = errorOf answer

def Blank : Prop := r.finalStatusCode = none ∧ r.finalError = none

/-- Nothing yet, or the last attempt is one to be repeated. -/
def Repeatable : Prop := Blank r ∨ ∃ answer : TargetAnswer, answer.retryable ∧ Shows r answer

/-- What the row shows of its attempts, by its status. -/
def Result : Prop :=
  match r.status with
  | .pending => Blank r
  | .inFlight => Repeatable r
  | .failed => Repeatable r
  | .succeeded => ∃ answer : TargetAnswer, answer.success ∧ Shows r answer
  | .dead => (r.finalStatusCode = none ∧ r.finalError = expiredOutcome.finalError) ∨
      ∃ answer : TargetAnswer, ¬ answer.success ∧ Shows r answer
  | .abandoned => r.finalError = some "manually abandoned by owner" ∧
      ∀ code, r.finalStatusCode = some code → code ∈ retryableStatus

/-- The columns of a row belong to one state of the forward. -/
structure Coherent : Prop where
  result : Result r
  completed : r.forwardCompletedAt.isSome ↔ r.status.Terminal
  scheduled : r.nextAttemptAt.isSome ↔ r.status ≠ .succeeded ∧ r.status ≠ .dead
  started : r.forwardStartedAt = r.lastAttemptAt
  attempted : r.lastAttemptAt = none → (r.status = .pending ∨ r.status = .abandoned) ∧
    (r.attemptCount = 0 ∨ r.manualRetryAt.isSome)
  untried : r.attemptCount = 0 → r.lastAttemptAt = none

end Columns

theorem recordCall_columns {n : ℕ} {answer : TargetAnswer} {decidedAt : Datetime}
    {call : RecordCall} (h : recordCall n answer.result decidedAt = some call) :
    call.outcome.finalStatusCode = codeOf answer ∧ call.outcome.finalError = errorOf answer := by
  cases answer with
  | ssrfBlocked message =>
    obtain rfl := Option.some.inj h
    exact ⟨rfl, rfl⟩
  | status code =>
    obtain ⟨decision, -, rfl⟩ := Option.map_eq_some_iff.mp h
    exact ⟨rfl, rfl⟩
  | requestFailed message =>
    obtain ⟨decision, -, rfl⟩ := Option.map_eq_some_iff.mp h
    exact ⟨rfl, rfl⟩

theorem code_of_repeatable {r : Forward} (h : Repeatable r) {code : ℕ}
    (hcode : r.finalStatusCode = some code) : code ∈ retryableStatus := by
  rcases h with hblank | ⟨answer, hretryable, hshows⟩
  · simp [hblank.1] at hcode
  · rw [hshows.1] at hcode
    cases answer with
    | status code' =>
      obtain rfl := Option.some.inj hcode
      simpa [TargetAnswer.retryable, TargetAnswer.result, isRetryable] using hretryable
    | ssrfBlocked message => simp [codeOf] at hcode
    | requestFailed message => simp [codeOf] at hcode

/-- Until a forward is done, the last attempt is one to be repeated. -/
theorem repeatable_of_open {r : Forward} (h : Result r) (hopen : ¬ r.status.Terminal) :
    Repeatable r := by
  unfold Result at h
  cases hstatus : r.status with
  | pending => exact Or.inl (by simpa [hstatus] using h)
  | inFlight => simpa [hstatus] using h
  | failed => simpa [hstatus] using h
  | succeeded => exact absurd (Or.inl hstatus) hopen
  | dead => exact absurd (Or.inr (Or.inl hstatus)) hopen
  | abandoned => exact absurd (Or.inr (Or.inr hstatus)) hopen

theorem not_terminal_of_claimable {status : ForwardStatus} (h : status.Claimable) :
    ¬ status.Terminal := by
  rcases h with rfl | rfl <;> decide

theorem coherent_create (id requestId endpointId : UUID) (targetUrl : String) (now : Datetime) :
    Coherent (Forward.create id requestId endpointId targetUrl now) where
  result := ⟨rfl, rfl⟩
  completed := by simp [Forward.create, ForwardStatus.Terminal]
  scheduled := by simp [Forward.create]
  started := rfl
  attempted _ := ⟨Or.inl rfl, Or.inl rfl⟩
  untried _ := rfl

namespace Coherent

variable {r : Forward} (h : Coherent r) (now : Datetime)
include h

/-- An open forward has its next attempt, and is not completed. -/
theorem open_times (hopen : ¬ r.status.Terminal) :
    r.nextAttemptAt.isSome ∧ r.forwardCompletedAt = none := by
  have hcompleted := mt h.completed.mp hopen
  refine ⟨h.scheduled.mpr ⟨?_, ?_⟩, Option.not_isSome_iff_eq_none.mp hcompleted⟩
  · exact fun hstatus => hopen (Or.inl hstatus)
  · exact fun hstatus => hopen (Or.inr (Or.inl hstatus))

theorem claimed (hclaim : r.status.Claimable) : Coherent (claimedRow r now) := by
  have hopen := not_terminal_of_claimable hclaim
  obtain ⟨hnext, hcompleted⟩ := h.open_times hopen
  have hrepeatable : Repeatable r := repeatable_of_open h.result hopen
  constructor
  · exact hrepeatable
  · simp [claimedRow, claimForAttempt, hcompleted, ForwardStatus.Terminal]
  · simpa [claimedRow, claimForAttempt] using hnext
  · rfl
  · intro hnone
    simp [claimedRow, claimForAttempt] at hnone
  · intro hzero
    simp at hzero

/-- What is recorded brings the times that belong to its status, whatever the row was before. -/
theorem recorded (htried : r.lastAttemptAt.isSome) {outcome : Outcome}
    (hresult : Result (recordedRow r outcome now))
    (hnext : outcome.nextAttemptAt.isSome ↔ outcome.nextStatus = .failed) :
    Coherent (recordedRow r outcome now) := by
  have hstatus := recordedRow_status r outcome now
  constructor
  · exact hresult
  · rw [hstatus]
    cases hkind : outcome.nextStatus <;>
      simp [recordedRow, recordOutcome, hkind, NextStatus.toStatus, ForwardStatus.Terminal]
  · rw [hstatus]
    apply hnext.trans
    cases outcome.nextStatus <;> simp [NextStatus.toStatus]
  · exact h.started
  · intro hnone
    have hlast : r.lastAttemptAt = none := hnone
    simp [hlast] at htried
  · exact h.untried

theorem expired (hclaim : r.status.Claimable) (expiredAt : Datetime) :
    Coherent (recordedRow (claimedRow r now) expiredOutcome expiredAt) := by
  apply (h.claimed now hclaim).recorded
  · rfl
  · exact Or.inl ⟨rfl, rfl⟩
  · simp [expiredOutcome]

theorem answered (htried : r.lastAttemptAt.isSome) {n : ℕ} {answer : TargetAnswer}
    {decidedAt : Datetime} {call : RecordCall} (hn : 1 ≤ n)
    (hcall : recordCall n answer.result decidedAt = some call) :
    Coherent (recordedRow r call.outcome now) := by
  have hshows : Shows (recordedRow r call.outcome now) answer := recordCall_columns hcall
  apply h.recorded now htried
  all_goals
    rcases recordCall_cases hn hcall with ⟨hretry, hstatus, hnext, -⟩ | ⟨-, hstatus, hnext, -⟩
  · rw [Result, recordedRow_status, hstatus]
    exact Or.inr ⟨answer, hretry.1, hshows⟩
  · rw [Result, recordedRow_status, hstatus]
    by_cases hsuccess : answer.success = true
    · simpa [hsuccess, NextStatus.toStatus] using ⟨answer, hsuccess, hshows⟩
    · rw [if_neg hsuccess]
      exact Or.inr ⟨answer, hsuccess, hshows⟩
  · simp [hstatus, hnext]
  · rw [hstatus, hnext]
    split <;> simp

theorem abandoned (endpointId : UUID) (hopen : ¬ r.status.Terminal) :
    Coherent ((ForwardRepository.abandon r.id endpointId now).assign r) := by
  have hrepeatable := repeatable_of_open h.result hopen
  constructor
  · exact ⟨rfl, fun code hcode => code_of_repeatable hrepeatable hcode⟩
  · simp [ForwardRepository.abandon, ForwardStatus.Terminal]
  · simpa [ForwardRepository.abandon] using (h.open_times hopen).1
  · exact h.started
  · exact fun hnone => ⟨Or.inr rfl, (h.attempted hnone).2⟩
  · exact h.untried

theorem retried : Coherent (retriedRow r now) := by
  constructor
  · exact ⟨rfl, rfl⟩
  · simp [retriedRow, claimForManualRetry, ForwardStatus.Terminal]
  · simp [retriedRow, claimForManualRetry]
  · exact h.started
  · exact fun _ => ⟨Or.inl rfl, Or.inr rfl⟩
  · intro hzero
    by_cases hdone : r.status = .dead ∨ r.status = .abandoned
    · simp [retriedRow, claimForManualRetry, hdone, maxAttempts_eq] at hzero
    · apply h.untried
      simpa [retriedRow, claimForManualRetry, hdone] using hzero

theorem reclaimed (hflight : r.status = .inFlight) :
    Coherent { r with status := .failed, nextAttemptAt := some now } := by
  have hopen : ¬ r.status.Terminal := by simp [hflight, ForwardStatus.Terminal]
  have hrepeatable : Repeatable r := repeatable_of_open h.result hopen
  constructor
  · exact hrepeatable
  · simp [(h.open_times hopen).2, ForwardStatus.Terminal]
  · simp
  · exact h.started
  · intro hnone
    have hidle := (h.attempted hnone).1
    simp [hflight] at hidle
  · exact h.untried

end Coherent

section Rows

structure Kept (s : State) : Prop where
  coherent : Coherent s.row
  tried : ∀ w claimed, s.workers w = some claimed → s.row.lastAttemptAt.isSome

theorem Kept.step {s t : State} {a : Action} (h : Kept s) (heffect : Effect s a t) : Kept t := by
  have hlater : s.row.lastAttemptAt.isSome → t.row.lastAttemptAt.isSome := by
    cases heffect <;> first | exact id | exact fun _ => rfl
  refine ⟨?_, fun w claimed hw => ?_⟩
  · cases heffect with
    | skip _ => exact h.coherent
    | claim _ hclaim => exact h.coherent.claimed _ hclaim
    | claimExpired hclaim => exact h.coherent.expired _ hclaim _
    | record hw hcounted hcall => exact h.coherent.answered _ (h.tried _ _ hw) hcounted hcall
    | crash _ => exact h.coherent
    | abandon _ hopen => exact h.coherent.abandoned _ s.row.endpointId hopen
    | manualRetry _ _ => exact h.coherent.retried _
    | reclaim _ hflight _ _ => exact h.coherent.reclaimed _ hflight
  · rcases heffect.workers_cases hw with hold | ⟨now, _, _, rfl, hrow⟩
    · exact hlater (h.tried w claimed hold)
    · rw [hrow]
      rfl

theorem kept_runOf {ms : History State Action} {t : State} (h : RunOf ms t) : Kept t := by
  have hmoves := h.guarded (C := fun _ _ => True) (P := fun _ _ => True) (J := fun _ s => Kept s)
    (fun id requestId endpointId targetUrl now =>
      ⟨coherent_create id requestId endpointId targetUrl now, fun w claimed hw => by
        simp [start] at hw⟩)
    (fun _ _ _ _ hJ _ heffect => ⟨trivial, hJ.step heffect⟩)
    (always_iff_forall_mem.mpr fun _ _ => trivial)
  exact hmoves.2

end Rows

section Store

inductive Changed (s : Store) : Statement → Forward → Forward → Prop
  | claim {w : WorkerId} {r : Forward} {now : Datetime} :
      Changed s (.claim w r.id now) r (claimedRow r now)
  | expire {r : Forward} {now expiredAt : Datetime} :
      Changed s (.claimExpired r.id now expiredAt) r
        (recordedRow (claimedRow r now) expiredOutcome expiredAt)
  | record {w : WorkerId} {r claimed : Forward} {answer : TargetAnswer}
      {decidedAt recordedAt : Datetime} {call : RecordCall} (hw : s.workers w = some claimed)
      (hid : claimed.id = r.id)
      (hcall : recordCall claimed.attemptCount answer.result decidedAt = some call) :
      Changed s (.record w answer decidedAt recordedAt) r (recordedRow r call.outcome recordedAt)
  | abandon {r : Forward} {now : Datetime} :
      Changed s (.abandon r.id r.endpointId now) r
        ((ForwardRepository.abandon r.id r.endpointId now).assign r)
  | manualRetry {r : Forward} {now : Datetime} :
      Changed s (.manualRetry r.id r.endpointId now) r (retriedRow r now)
  | reclaim {r : Forward} {now : Datetime} :
      Changed s (.reclaim r.endpointId now) r
        { r with status := .failed, nextAttemptAt := some now }

variable {s u : Store} {a : Statement}

/-- A row of the updated table was there before, or is one that met the condition. -/
theorem mem_apply {v : Update Forward} {forwards : List Forward} {row : Forward}
    (hrow : row ∈ v.apply forwards) : row ∈ forwards ∨
      ∃ r ∈ forwards, v.holds r = true ∧ row = v.assign r := by
  obtain ⟨r, hr, rfl⟩ := List.mem_map.mp hrow
  cases hholds : v.holds r with
  | false => exact Or.inl (by rwa [v.onRow_of_not hholds])
  | true => exact Or.inr ⟨r, hr, hholds, v.onRow_of_holds hholds⟩

theorem row_cases (h : StoreEffect s a u) (hs : Consistent s) {row : Forward}
    (hrow : row ∈ u.forwards) : row ∈ s.forwards ∨
      (∃ id requestId endpointId targetUrl now,
        row = Forward.create id requestId endpointId targetUrl now) ∨
      ∃ r ∈ s.forwards, Changed s a r row := by
  cases h with
  | unmatched => exact Or.inl hrow
  | @capture id requestId endpointId targetUrl now forwards hsave =>
    rcases mem_insert hsave hrow with hold | rfl
    · exact Or.inl hold
    · exact Or.inr (Or.inl ⟨id, requestId, endpointId, targetUrl, now, rfl⟩)
  | claim _ _ =>
    rcases mem_apply hrow with hold | ⟨r, hr, hholds, rfl⟩
    · exact Or.inl hold
    · obtain ⟨rfl, -⟩ := claimForAttempt_holds.mp hholds
      exact Or.inr (Or.inr ⟨r, hr, .claim⟩)
  | @claimExpired id now expiredAt claimed hhead =>
    obtain ⟨r', hr', rfl⟩ := List.mem_map.mp hrow
    obtain ⟨r, hr, rfl⟩ := List.mem_map.mp hr'
    by_cases hid : r.id = id
    · subst hid
      obtain ⟨found, hfound, hclaim, -⟩ := returned_claim hs hhead
      obtain rfl := Option.some.inj (hfound.symm.trans (find_of_mem hs.sound.unique hr))
      rw [onRow_claim hclaim, claimedRow, recorded_claimedRow]
      exact Or.inr (Or.inr ⟨found, hr, .expire⟩)
    · rw [onRow_claim_other hid, onRow_record_other hid]
      exact Or.inl hr
  | @record w answer decidedAt recordedAt claimed call hw hcall =>
    rcases mem_apply hrow with hold | ⟨r, hr, hholds, rfl⟩
    · exact Or.inl hold
    · have hid := recordOutcome_holds.mp hholds
      rw [← hid]
      exact Or.inr (Or.inr ⟨r, hr, .record hw hid.symm hcall⟩)
  | crash _ => exact Or.inl hrow
  | abandon =>
    rcases mem_apply hrow with hold | ⟨r, hr, hholds, rfl⟩
    · exact Or.inl hold
    · obtain ⟨rfl, rfl, -⟩ := abandon_holds.mp hholds
      exact Or.inr (Or.inr ⟨r, hr, .abandon⟩)
  | manualRetry =>
    rcases mem_apply hrow with hold | ⟨r, hr, hholds, rfl⟩
    · exact Or.inl hold
    · obtain ⟨rfl, rfl, -⟩ := claimForManualRetry_holds.mp hholds
      exact Or.inr (Or.inr ⟨r, hr, .manualRetry⟩)
  | reclaim =>
    rcases mem_apply hrow with hold | ⟨r, hr, hholds, rfl⟩
    · exact Or.inl hold
    · obtain ⟨rfl, -⟩ := reclaimStuckInFlight_holds.mp hholds
      exact Or.inr (Or.inr ⟨r, hr, .reclaim⟩)

def Recorded (past : History Store Statement) (id : UUID) (answer : TargetAnswer) : Prop :=
  ∃ m ∈ past, ∃ w claimed decidedAt recordedAt, m.act = .record w answer decidedAt recordedAt ∧
    m.pre.workers w = some claimed ∧ claimed.id = id

/-- A worker claimed the forward at this time, be it to find that the request is gone. -/
def ClaimedAt (past : History Store Statement) (id : UUID) (now : Datetime) : Prop :=
  ∃ m ∈ past, (∃ w, m.act = .claim w id now) ∨ ∃ expiredAt, m.act = .claimExpired id now expiredAt

/-- Somebody wrote the text of the error. -/
def ErrorWritten (past : History Store Statement) (id : UUID) (error : String) : Prop :=
  (∃ answer, Recorded past id answer ∧ errorOf answer = some error) ∨
  (expiredOutcome.finalError = some error ∧
    ∃ m ∈ past, ∃ now expiredAt, m.act = .claimExpired id now expiredAt) ∨
  (error = "manually abandoned by owner" ∧
    ∃ m ∈ past, ∃ endpointId now, m.act = .abandon id endpointId now)

/-- What the row shows has happened to it. -/
structure Told (past : History Store Statement) (r : Forward) : Prop where
  code : ∀ code, r.finalStatusCode = some code → Recorded past r.id (.status code)
  error : ∀ error, r.finalError = some error → ErrorWritten past r.id error
  attempt : ∀ now, r.lastAttemptAt = some now → ClaimedAt past r.id now
  retry : ∀ now, r.manualRetryAt = some now →
    ∃ m ∈ past, m.act = .manualRetry r.id r.endpointId now

variable {past : History Store Statement} {m : Move Store Statement}

theorem ErrorWritten.cons {id : UUID} {error : String} (h : ErrorWritten past id error) :
    ErrorWritten (m :: past) id error := by
  rcases h with ⟨answer, ⟨m', hm', hrecord⟩, herror⟩ | ⟨herror, m', hm', hexpired⟩ |
    ⟨herror, m', hm', habandon⟩
  · exact Or.inl ⟨answer, ⟨m', List.mem_cons_of_mem m hm', hrecord⟩, herror⟩
  · exact Or.inr (Or.inl ⟨herror, m', List.mem_cons_of_mem m hm', hexpired⟩)
  · exact Or.inr (Or.inr ⟨herror, m', List.mem_cons_of_mem m hm', habandon⟩)

/-- What was told stays told. -/
theorem Told.cons {r : Forward} (h : Told past r) : Told (m :: past) r where
  code code hcode := by
    obtain ⟨m', hm', hrecord⟩ := h.code code hcode
    exact ⟨m', List.mem_cons_of_mem m hm', hrecord⟩
  error error herror := (h.error error herror).cons
  attempt now hnow := by
    obtain ⟨m', hm', hclaim⟩ := h.attempt now hnow
    exact ⟨m', List.mem_cons_of_mem m hm', hclaim⟩
  retry now hnow := by
    obtain ⟨m', hm', hretry⟩ := h.retry now hnow
    exact ⟨m', List.mem_cons_of_mem m hm', hretry⟩

theorem told_create (id requestId endpointId : UUID) (targetUrl : String) (now : Datetime) :
    Told past (Forward.create id requestId endpointId targetUrl now) := by
  constructor <;> intro value hvalue <;> cases hvalue

theorem status_of_codeOf {answer : TargetAnswer} {code : ℕ} (h : codeOf answer = some code) :
    answer = .status code := by
  cases answer with
  | status code' => exact congrArg TargetAnswer.status (Option.some.inj h)
  | ssrfBlocked message => simp [codeOf] at h
  | requestFailed message => simp [codeOf] at h

/-- The statement that changes a row tells what it wrote there; the other columns were told. -/
theorem Changed.told {r row : Forward} (h : Changed s a r row) (hold : Told past r) :
    Told (⟨s, a, u⟩ :: past) row := by
  have hkept : Told (⟨s, a, u⟩ :: past) r := hold.cons
  cases h with
  | claim =>
    refine ⟨hkept.code, hkept.error, fun now hnow => ?_, hkept.retry⟩
    obtain rfl := Option.some.inj hnow
    exact ⟨_, List.mem_cons_self, Or.inl ⟨_, rfl⟩⟩
  | expire =>
    refine ⟨fun code hcode => ?_, fun error herror => ?_, fun now hnow => ?_, hkept.retry⟩
    · cases hcode
    · exact Or.inr (Or.inl ⟨herror, _, List.mem_cons_self, _, _, rfl⟩)
    · obtain rfl := Option.some.inj hnow
      exact ⟨_, List.mem_cons_self, Or.inr ⟨_, rfl⟩⟩
  | @record w _ claimed answer decidedAt recordedAt call hw hid hcall =>
    obtain ⟨hcode, herror⟩ := recordCall_columns hcall
    have hrecorded : Recorded (⟨s, .record w answer decidedAt recordedAt, u⟩ :: past) r.id answer :=
      ⟨_, List.mem_cons_self, w, claimed, decidedAt, recordedAt, rfl, hw, hid⟩
    refine ⟨fun code hshown => ?_, fun error hshown => ?_, hkept.attempt, hkept.retry⟩
    · exact status_of_codeOf (hcode.symm.trans hshown) ▸ hrecorded
    · exact Or.inl ⟨answer, hrecorded, herror.symm.trans hshown⟩
  | abandon =>
    refine ⟨hkept.code, fun error herror => ?_, hkept.attempt, hkept.retry⟩
    obtain rfl := Option.some.inj herror
    exact Or.inr (Or.inr ⟨rfl, _, List.mem_cons_self, _, _, rfl⟩)
  | manualRetry =>
    refine ⟨fun code hcode => ?_, fun error herror => ?_, hkept.attempt, fun now hnow => ?_⟩
    · cases hcode
    · cases herror
    · obtain rfl := Option.some.inj hnow
      exact ⟨_, List.mem_cons_self, rfl⟩
  | reclaim => exact ⟨hkept.code, hkept.error, hkept.attempt, hkept.retry⟩

/-- In every state that is reached, whatever the order of the workers, the owner and the redrives,
the columns of each row belong to one state of its forward, and what they show has happened. -/
theorem columns_run {ms : History Store Statement} {s : Store}
    (h : Run (Steps storeStep) emptyStore ms s) :
    ∀ row ∈ s.forwards, Coherent row ∧ Told ms row := by
  have htold := h.always (P := fun _ _ => True)
    (J := fun past s => Consistent s ∧ ∀ row ∈ s.forwards, Told past row)
    ⟨consistent_empty, by simp [emptyStore]⟩ fun past s a u hJ hstep => by
      have heffect := storeStep_effect hstep
      refine ⟨trivial, hJ.1.step heffect, fun row hrow => ?_⟩
      rcases row_cases heffect hJ.1 hrow with hold | ⟨id, requestId, endpointId, targetUrl, now,
        rfl⟩ | ⟨r, hr, hchanged⟩
      · exact (hJ.2 row hold).cons
      · exact told_create id requestId endpointId targetUrl now
      · exact hchanged.told (hJ.2 r hr)
  intro row hrow
  obtain ⟨ms', hrunOf⟩ := row_run h hrow
  exact ⟨(kept_runOf hrunOf).coherent, htold.2.2 row hrow⟩

def recordedLate : List Statement :=
  [.capture sampleForwardId sampleRequest.id sampleEndpoint.id "https://example.com/" 0,
    .claim 0 sampleForwardId 1, .abandon sampleForwardId sampleEndpoint.id 2,
    .record 0 (.status 200) 3 4]

theorem recordedLate_columns : ∃ ms s row, Run (Steps storeStep) emptyStore ms s ∧
    row ∈ s.forwards ∧ row.status = .succeeded ∧ Coherent row ∧ Told ms row := by
  have hrun := Run.of_play (Eq.refl (play storeStep [] emptyStore recordedLate))
  have hcolumns := columns_run hrun _ List.mem_cons_self
  exact ⟨_, _, _, hrun, List.mem_cons_self, rfl, hcolumns.1, hcolumns.2⟩

end Store

end Hooktrace.OutcomeColumns

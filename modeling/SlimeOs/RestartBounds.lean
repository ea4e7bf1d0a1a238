import SlimeOs.LifecycleService

/-!
What the root enforces of a declared restart policy.

The service consults the attempt bound only when it is asked to admit a restart, and it keeps one
pending cause per instance. A supervisor that spawns without asking is therefore never stopped,
and one that asks between a task's declaration of ill health and its end charges the death twice.
For a supervisor that does neither, the life of an instance is a sequence of lifetimes, each
ended, admitted once and followed by the next.
-/

namespace SlimeOs.Lifecycle

open FallibleCall Function List Option Event Service

/-- The events of an instance since its last launch, newest first. -/
def sinceLaunch (history : List Event) : List Event := history.takeWhile (!·.isLaunch)

def launches (history : List Event) : Nat := history.countP Event.isLaunch

def admissions (history : List Event) : Nat := history.countP Event.isAdmission

/-- The first cause recorded for the most recent task that ended or declared itself unhealthy. -/
def firstCause : List Event → Option Terminal
  | [] => none
  | .recorded cause :: earlier =>
    if (sinceLaunch earlier).any Event.isRecord then firstCause earlier else some cause
  | _ :: earlier => firstCause earlier

/-- A gate of `serve_spawn` refuses: the instance runs, its attempts are exhausted, or its
backoff has not elapsed. -/
def gated (root : Root) (i now : Nat) : Bool :=
  (root.launched i).isSome || root.service.isExhausted i ||
    (root.service.restartReady i now).toOption.isNone

/-- The supervisor does not ask for an admission between a task's declaration of ill health and
its end, and while the cause of a death is pending no spawn of its gets past the gates and the
other parts of a spawn. -/
def orderly (root : Root) : Action → Bool
  | .spawn i now fate => gated root i now || fate != .completes ||
      ((root.service.instances i).bind (·.terminal)).isNone
  | .restart i _ => !(sinceLaunch (root.history i)).any Event.isRecord ||
      (sinceLaunch (root.history i)).contains .ended
  | _ => true

/-- What a task's lifetime leaves behind: its launch and the causes recorded for it. -/
def lifetime (task instant : Nat) (causes : List Terminal) : List Event :=
  causes.map .recorded ++ [.launched task instant]

/-- A history between two lifetimes, with the row the service keeps of it. -/
inductive Settled (declared : Option RestartPolicy) : List Event → InstanceRow → Prop where
  | fresh : Settled declared [] .new
  | admitted {prior : List Event} {row : InstanceRow} {policy : RestartPolicy}
      {task instant readyAt : Nat} {later : List Terminal} {cause : Terminal}
      (earlier : Settled declared prior row) (ready : row.readyAt ≤ instant)
      (named : declared = some policy) (restarts : policy.restartsOn cause.id)
      (within : row.attemptsUsed < policy.attempts) :
      Settled declared
        (.admitted row.attemptsUsed cause readyAt :: .ended ::
          (lifetime task instant (later ++ [cause]) ++ prior))
        ⟨row.attemptsUsed + 1, false, none, some cause, readyAt⟩

/-- The row of an instance whose task has the recorded causes, newest first. -/
def InstanceRow.running (row : InstanceRow) (causes : List Terminal) : InstanceRow :=
  ⟨row.attemptsUsed, false, causes.getLast?, causes.getLast?.or row.lastCause, 0⟩

/-- Where an instance stands: its history, its live task and its row. -/
inductive Stage (declared : Option RestartPolicy) :
    List Event → Option Nat → InstanceRow → Prop where
  | idle {history : List Event} {row : InstanceRow} (settled : Settled declared history row) :
      Stage declared history none row
  | running {prior : List Event} {row : InstanceRow} {task instant : Nat} (causes : List Terminal)
      (earlier : Settled declared prior row) (ready : row.readyAt ≤ instant) :
      Stage declared (lifetime task instant causes ++ prior) (some task) (row.running causes)
  | dead {prior : List Event} {row : InstanceRow} {task instant : Nat} {later : List Terminal}
      {cause : Terminal} (exhausted : Bool) (earlier : Settled declared prior row)
      (ready : row.readyAt ≤ instant) :
      Stage declared (.ended :: (lifetime task instant (later ++ [cause]) ++ prior)) none
        { row.running (later ++ [cause]) with exhausted }

variable {policy : RestartPolicy} {now : Nat} (causes : List Terminal) (task : Nat)

section History

variable {declared : Option RestartPolicy} {history prior : List Event} {row : InstanceRow}
  {live : Option Nat} (event : Event) (instant : Nat)

@[simp] theorem sinceLaunch_cons : sinceLaunch (event :: history) =
      if event.isLaunch then [] else event :: sinceLaunch history := by
  cases event <;> rfl

@[simp] theorem launches_cons :
    launches (event :: history) = launches history + if event.isLaunch then 1 else 0 :=
  countP_cons

@[simp] theorem admissions_cons :
    admissions (event :: history) = admissions history + if event.isAdmission then 1 else 0 :=
  countP_cons

@[simp] theorem sinceLaunch_lifetime :
    sinceLaunch (lifetime task instant causes ++ prior) = causes.map .recorded := by
  induction causes with
  | nil => rfl
  | cons cause causes ih => exact congrArg (.recorded cause :: ·) ih

@[simp] theorem launches_lifetime :
    launches (lifetime task instant causes ++ prior) = launches prior + 1 := by
  induction causes with
  | nil => exact launches_cons _
  | cons cause causes ih => exact (launches_cons (.recorded cause)).trans ih

@[simp] theorem admissions_lifetime :
    admissions (lifetime task instant causes ++ prior) = admissions prior := by
  induction causes with
  | nil => exact admissions_cons _
  | cons cause causes ih => exact (admissions_cons (.recorded cause)).trans ih

@[simp] theorem admissions_recorded : admissions (causes.map .recorded) = 0 := by
  simp [admissions, isAdmission]

theorem firstCause_lifetime :
    firstCause (lifetime task instant causes ++ prior) = causes.getLast?.or (firstCause prior) := by
  induction causes with
  | nil => rfl
  | cons cause causes ih =>
    change (if (sinceLaunch (lifetime task instant causes ++ prior)).any isRecord then
      firstCause (lifetime task instant causes ++ prior) else some cause) = _
    rw [ih]
    cases causes with
    | nil => rfl
    | cons next causes => simp [isRecord, getLast?_cons]

theorem Settled.counts (h : Settled declared history row) :
    launches history = row.attemptsUsed ∧ admissions history = row.attemptsUsed ∧
      ∀ policy ∈ declared, row.attemptsUsed ≤ policy.attempts := by
  induction h with
  | fresh => exact ⟨rfl, rfl, fun policy _ => Nat.zero_le _⟩
  | @admitted prior row policy task instant readyAt later cause _ _ named _ within ih =>
    refine ⟨?_, ?_, ?_⟩
    · simp [isLaunch, ih.1]
    · simp [isAdmission, ih.2.1]
    · intro policy' hpolicy
      obtain rfl := Option.mem_unique named hpolicy
      exact within

theorem Settled.row_eq (h : Settled declared history row) :
    row.exhausted = false ∧ row.terminal = none ∧ firstCause history = row.lastCause := by
  cases h with
  | fresh => exact ⟨rfl, rfl, rfl⟩
  | admitted earlier =>
    refine ⟨rfl, rfl, ?_⟩
    simp [firstCause, firstCause_lifetime]

section

variable (h : Stage declared history live row)
include h

theorem Stage.launches_le
    (hpolicy : declared = some policy) : launches history ≤ policy.attempts + 1 := by
  cases h with
  | idle settled =>
    have := settled.counts.2.2 policy hpolicy
    rw [settled.counts.1]
    omega
  | running causes earlier =>
    have := earlier.counts.2.2 policy hpolicy
    rw [launches_lifetime, earlier.counts.1]
    omega
  | dead _ earlier =>
    have := earlier.counts.2.2 policy hpolicy
    rw [launches_cons, launches_lifetime, earlier.counts.1]
    simpa [isLaunch]

theorem Stage.lastCause_eq : row.lastCause = firstCause history := by
  cases h with
  | idle settled => exact settled.row_eq.2.2.symm
  | running causes earlier =>
    rw [firstCause_lifetime, earlier.row_eq.2.2]
    rfl
  | dead _ earlier => simp [firstCause, firstCause_lifetime, InstanceRow.running]

theorem Stage.admissions_le : admissions (sinceLaunch history) ≤ 1 := by
  cases h with
  | idle settled =>
    cases settled with
    | fresh => exact Nat.zero_le 1
    | admitted => simp [isLaunch, isAdmission, -map_append]
  | running causes => simp
  | dead => simp [isLaunch, isAdmission, -map_append]

end

end History

def Service.row (s : Service) (i : Nat) : InstanceRow := (s.instances i).getD .new

structure Tracked (declared : Nat → Option RestartPolicy) (root : Root) : Prop where
  stage : ∀ i, Stage (declared i) (root.history i) (root.launched i) (root.service.row i)
  running : ∀ task i, root.service.tasks task = some i ↔ root.launched i = some task
  known : ∀ task i, root.launched i = some task →
    task < root.nextTask ∧ (root.service.instances i).isSome

namespace Service

variable {s : Service} {i j t : Nat}

theorem row_setRow (row : InstanceRow) : (s.setRow i row).row = update s.row i row := by
  funext j
  by_cases hj : j = i
  · subst hj
    simp [Service.row, setRow]
  · simp [Service.row, setRow, hj]

theorem isSome_setRow (row : InstanceRow) (h : (s.instances j).isSome) :
    ((s.setRow i row).instances j).isSome := by
  by_cases hj : j = i
  · subst hj
    simp [setRow]
  · simpa [setRow, hj] using h

/-- Looking for a row changes no row. -/
theorem instanceRow_spec : (s.instanceRow i).2.row = s.row ∧ (s.instanceRow i).2.tasks = s.tasks ∧
      (∀ j, (s.instances j).isSome → ((s.instanceRow i).2.instances j).isSome) ∧
      ∀ row, (s.instanceRow i).1 = .ok row →
        row = s.row i ∧ ((s.instanceRow i).2.instances i).isSome := by
  unfold instanceRow
  split
  next row hrow =>
    refine ⟨rfl, rfl, fun _ h => h, fun row' h => ?_⟩
    obtain rfl := Except.ok.inj h
    exact ⟨by simp [Service.row, hrow], by simp [hrow]⟩
  rename_i hnone
  split
  · exact ⟨rfl, rfl, fun _ h => h, nofun⟩
  have hnew : s.row i = .new := by simp [Service.row, hnone]
  refine ⟨?_, rfl, fun j h => isSome_setRow .new h, fun row' h => ?_⟩
  · exact (row_setRow .new).trans (by rw [← hnew, update_eq_self])
  · obtain rfl := Except.ok.inj h
    exact ⟨hnew.symm, by simp [setRow]⟩

/-- The declaration of a task changes no row of an instance; it adds the task's own row. -/
theorem declare_spec : (s.declare t i).2.row = s.row ∧
      (∀ j, (s.instances j).isSome → ((s.declare t i).2.instances j).isSome) ∧
      (∃ found, (s.declare t i).2.tasks = update s.tasks t found) ∧
      ∀ u, (s.declare t i).1 = .ok u →
        (s.declare t i).2.tasks = update s.tasks t (some i) ∧
          ((s.declare t i).2.instances i).isSome := by
  have hsame : ∃ found, s.tasks = update s.tasks t found :=
    ⟨s.tasks t, (update_eq_self t s.tasks).symm⟩
  unfold declare
  split
  · exact ⟨rfl, fun _ h => h, hsame, nofun⟩
  split
  · exact ⟨rfl, fun _ h => h, hsame, nofun⟩
  obtain ⟨hrow, htasks, hkept, hok⟩ := instanceRow_spec
  dsimp only
  split
  next heq =>
    rw [heq] at hrow htasks hkept
    exact ⟨hrow, hkept, ⟨_, htasks⟩, nofun⟩
  next row after heq =>
    rw [heq] at hrow htasks hkept hok
    exact ⟨hrow, hkept, ⟨_, htasks⟩, fun _ _ => ⟨htasks, (hok row rfl).2⟩⟩

/-- A child that is declared and released leaves no trace in the tables. -/
theorem release_declare (hfree : s.tasks t = none) :
    ((s.declare t i).2.release t).tasks = s.tasks := by
  obtain ⟨found, htasks⟩ := (declare_spec).2.2.1
  change update (s.declare t i).2.tasks t none = _
  rw [htasks, update_idem, ← hfree, update_eq_self]

theorem clearRestartReservation_spec (h : (s.instances i).isSome) :
    (s.clearRestartReservation i).tasks = s.tasks ∧
      (s.clearRestartReservation i).row = update s.row i { s.row i with readyAt := 0 } ∧
      ∀ j, (s.instances j).isSome → ((s.clearRestartReservation i).instances j).isSome := by
  obtain ⟨row, hrow⟩ := isSome_iff_exists.mp h
  unfold clearRestartReservation
  rw [hrow]
  exact ⟨rfl, (row_setRow _).trans (by simp [Service.row, hrow]), fun j => isSome_setRow _⟩

theorem readyAt_le (h : ¬(s.restartReady i now).toOption.isNone) : (s.row i).readyAt ≤ now := by
  unfold restartReady at h
  split at h
  · exact absurd rfl h
  rename_i hready
  cases hrow : s.instances i with
  | none => simp [Service.row, hrow, InstanceRow.new]
  | some row => simpa [Service.row, hrow] using hready

theorem terminal_eq : s.terminal i = (s.row i).lastCause := by
  cases hrow : s.instances i <;> simp [terminal, row, hrow, InstanceRow.new]

theorem terminal_row : (s.instances i).bind (·.terminal) = (s.row i).terminal := by
  cases hrow : s.instances i <;> simp [row, hrow, InstanceRow.new]

/-- A refused admission changes nothing but the mark of exhaustion; a granted one charges an
attempt for the pending cause and consumes it. -/
inductive Admission (s : Service) (declared : Option RestartPolicy) (i : Nat) :
    Except LifecycleError RestartAdmission → (Nat → InstanceRow) → Prop where
  | refused (error : LifecycleError) : Admission s declared i (.error error) s.row
  | exhausted (error : LifecycleError) (cause : Terminal)
      (pending : (s.row i).terminal = some cause) :
      Admission s declared i (.error error)
        (update s.row i { s.row i with exhausted := true })
  | granted {policy : RestartPolicy} {cause : Terminal} (remaining readyAt : Nat)
      (named : declared = some policy) (pending : (s.row i).terminal = some cause)
      (open_ : (s.row i).exhausted = false) (restarts : policy.restartsOn cause.id)
      (within : (s.row i).attemptsUsed < policy.attempts) :
      Admission s declared i (.ok ⟨remaining, readyAt, (s.row i).attemptsUsed⟩)
        (update s.row i { s.row i with
          attemptsUsed := (s.row i).attemptsUsed + 1, readyAt, terminal := none })

theorem admitRestart_spec (declared : Option RestartPolicy) (now : Nat) :
    (s.admitRestart declared i now).2.tasks = s.tasks ∧
      (∀ j, (s.instances j).isSome → ((s.admitRestart declared i now).2.instances j).isSome) ∧
      Admission s declared i (s.admitRestart declared i now).1
        (s.admitRestart declared i now).2.row := by
  unfold admitRestart
  split
  · exact ⟨rfl, fun _ h => h, .refused _⟩
  rename_i policy
  obtain ⟨hrow, htasks, hkept, hok⟩ := instanceRow_spec
  rcases hfound : s.instanceRow i with ⟨error | row, after⟩ <;> rw [hfound] at hrow htasks hkept hok
  · exact ⟨htasks, hkept, hrow ▸ .refused _⟩
  obtain ⟨rfl, -⟩ := hok row rfl
  dsimp only at hrow htasks hkept ⊢
  split
  · exact ⟨htasks, hkept, hrow ▸ .refused _⟩
  rename_i cause hcause
  split
  · exact ⟨htasks, hkept, hrow ▸ .refused _⟩
  rename_i hopen
  split
  · exact ⟨htasks, hkept, hrow ▸ .refused _⟩
  rename_i hrestarts
  split
  · refine ⟨htasks, fun j h => isSome_setRow _ (hkept j h), ?_⟩
    rw [row_setRow, hrow]
    exact .exhausted _ cause hcause
  have hused : min ((s.row i).attemptsUsed + 1) u32Max = (s.row i).attemptsUsed + 1 := by
    have := policy.attempts_le
    omega
  refine ⟨htasks, fun j h => isSome_setRow _ (hkept j h), ?_⟩
  rw [row_setRow, hrow, hused]
  exact .granted _ _ rfl hcause (by simpa using hopen) (by simpa using hrestarts) (by omega)

def recorded (row : InstanceRow) (terminal : Terminal) : InstanceRow :=
  if row.terminal.isNone then { row with terminal := some terminal, lastCause := some terminal }
  else row

theorem recordTermination_spec (htask : s.tasks t = some i) (h : (s.instances i).isSome)
    (terminal : Terminal) :
    (s.recordTermination t terminal).2 = s.setRow i (recorded (s.row i) terminal) := by
  obtain ⟨row, hrow⟩ := isSome_iff_exists.mp h
  simp [recordTermination, htask, hrow, Service.row, recorded]

end Service

section Stages

variable {declared : Option RestartPolicy} {history : List Event} {row : InstanceRow}
  {live : Option Nat} {task now : Nat} {cause : Terminal}

theorem recorded_running (row : InstanceRow) (causes : List Terminal) (cause : Terminal) :
    Service.recorded (row.running causes) cause = row.running (cause :: causes) := by
  cases causes with
  | nil => rfl
  | cons next causes => simp [Service.recorded, InstanceRow.running, getLast?_cons]

theorem Stage.launch (h : Stage declared history none row) (hdecided : row.terminal = none)
    (hready : row.readyAt ≤ now) :
    Stage declared (.launched task now :: history) (some task) { row with readyAt := 0 } := by
  cases h with
  | idle settled =>
    have hrow : row.running [] = { row with readyAt := 0 } := by
      simp [InstanceRow.running, settled.row_eq.1, settled.row_eq.2.1]
    rw [← hrow]
    exact .running [] settled hready
  | dead => simp [InstanceRow.running] at hdecided

/-- What lies behind an instance that was launched before and may be launched again. -/
theorem Stage.admitted_of_decided (h : Stage declared history none row)
    (hpolicy : declared = some policy) (hstarted : history ≠ []) (hdecided : row.terminal = none) :
    ∃ cause task instant later prior,
      history = .admitted (admissions prior) cause row.readyAt :: .ended ::
        (lifetime task instant (later ++ [cause]) ++ prior) ∧ policy.restartsOn cause.id := by
  cases h with
  | idle settled =>
    cases settled with
    | fresh => exact absurd rfl hstarted
    | @admitted prior _ _ task instant _ later cause earlier _ named restarts =>
      obtain rfl := mem_unique named hpolicy
      exact ⟨cause, task, instant, later, prior, by rw [earlier.counts.2.1], restarts⟩
  | dead => simp [InstanceRow.running] at hdecided

theorem Stage.record (h : Stage declared history (some task) row) (cause : Terminal) :
    Stage declared (.recorded cause :: history) (some task) (recorded row cause) := by
  cases h with
  | running causes earlier ready =>
    rw [recorded_running]
    exact .running (cause :: causes) earlier ready

theorem Stage.finish (h : Stage declared history (some task) row) (cause : Terminal) :
    Stage declared (.ended :: .recorded cause :: history) none (recorded row cause) := by
  cases h with
  | @running prior row _ instant causes earlier ready =>
    rw [recorded_running]
    obtain ⟨later, first, hcauses⟩ :=
      (eq_nil_or_concat' (cause :: causes)).resolve_left (cons_ne_nil _ _)
    change Stage declared (.ended :: (lifetime task instant (cause :: causes) ++ prior)) none
      { row.running (cause :: causes) with exhausted := false }
    rw [hcauses]
    exact .dead false earlier ready

theorem Stage.restart (h : Stage declared history none row)
    (hpolicy : declared = some policy) (hcause : row.terminal = some cause)
    (hexhausted : row.exhausted = false) (hrestarts : policy.restartsOn cause.id)
    (hwithin : row.attemptsUsed < policy.attempts) (readyAt : Nat) :
    Stage declared (.admitted row.attemptsUsed cause readyAt :: history) none
      { row with attemptsUsed := row.attemptsUsed + 1, readyAt, terminal := none } := by
  cases h with
  | idle settled =>
    rw [settled.row_eq.2.1] at hcause
    cases hcause
  | @dead prior row task instant later first exhausted earlier ready =>
    obtain rfl := hexhausted
    obtain rfl : first = cause := by simpa [InstanceRow.running] using hcause
    have hsettled : Settled declared
        (.admitted row.attemptsUsed first readyAt :: .ended ::
          (lifetime task instant (later ++ [first]) ++ prior))
        ⟨row.attemptsUsed + 1, false, none, some first, readyAt⟩ :=
      .admitted earlier ready hpolicy hrestarts hwithin
    simpa [InstanceRow.running] using Stage.idle hsettled

theorem Stage.exhaust (h : Stage declared history none row) (hcause : row.terminal = some cause) :
    Stage declared history none { row with exhausted := true } := by
  cases h with
  | idle settled =>
    rw [settled.row_eq.2.1] at hcause
    cases hcause
  | dead _ earlier ready => exact .dead true earlier ready

/-- A pending cause belongs to a task that has ended, unless the task declared itself unhealthy
and runs on. -/
theorem Stage.live_eq_none (h : Stage declared history live row)
    (hcause : row.terminal = some cause)
    (hasked : ((!(sinceLaunch history).any isRecord) ||
      (sinceLaunch history).contains .ended) = true) : live = none := by
  cases h with
  | idle => rfl
  | dead => rfl
  | running causes =>
    cases causes with
    | nil => cases hcause
    | cons next causes => simp [isRecord] at hasked

end Stages

section Runs

variable {declared : Nat → Option RestartPolicy} {root root' : Root} {service : Service} {i : Nat}
  {fate : Fate}

theorem decided_of_passed (horderly : orderly root (.spawn i now fate))
    (hopen : gated root i now = false) (hfate : fate = .completes) :
    (root.service.row i).terminal = none := by
  simpa [orderly, hopen, hfate, terminal_row] using horderly

section

variable (h : Tracked declared root)
include h

/-- A step for one instance: it may launch its task, end it or let it be. -/
theorem Tracked.change {events : List Event} {live : Option Nat} {row : InstanceRow}
    (hhistory : root'.history = update root.history i (events ++ root.history i))
    (hlaunched : root'.launched = update root.launched i live)
    (hrow : root'.service.row = update root.service.row i row)
    (hstage : Stage (declared i) (events ++ root.history i) live row)
    (hrunning : ∀ task j, root'.service.tasks task = some j ↔ root'.launched j = some task)
    (hnext : root.nextTask ≤ root'.nextTask)
    (hlive : ∀ task, live = some task → task < root'.nextTask ∧ (root'.service.instances i).isSome)
    (hkept : ∀ j, (root.service.instances j).isSome → (root'.service.instances j).isSome) :
    Tracked declared root' := by
  refine ⟨fun j => ?_, hrunning, fun task j hj => ?_⟩
  · rw [hhistory, hlaunched, hrow]
    by_cases heq : j = i
    · subst heq
      simpa using hstage
    · simpa [heq] using h.stage j
  · rw [hlaunched] at hj
    by_cases heq : j = i
    · subst heq
      exact hlive task (by simpa using hj)
    · rw [update_of_ne heq] at hj
      exact ⟨Nat.lt_of_lt_of_le (h.known task j hj).1 hnext, hkept j (h.known task j hj).2⟩

/-- A step that launches and ends no task. -/
theorem Tracked.rest {row : InstanceRow} (events : List Event)
    (hhistory : root'.history = update root.history i (events ++ root.history i))
    (hlaunched : root'.launched = root.launched)
    (hrow : root'.service.row = update root.service.row i row)
    (hstage : Stage (declared i) (events ++ root.history i) (root.launched i) row)
    (htasks : root'.service.tasks = root.service.tasks) (hnext : root.nextTask ≤ root'.nextTask)
    (hkept : ∀ j, (root.service.instances j).isSome → (root'.service.instances j).isSome) :
    Tracked declared root' := by
  refine h.change hhistory (hlaunched.trans (update_eq_self i _).symm) hrow hstage ?_
    hnext (fun task htask => ?_) hkept
  · intro task j
    rw [htasks, hlaunched]
    exact h.running task j
  · obtain ⟨hlt, hsome⟩ := h.known task i htask
    exact ⟨Nat.lt_of_lt_of_le hlt hnext, hkept i hsome⟩

/-- A step that does not even record anything. -/
theorem Tracked.quiet {next : Nat}
    (htasks : service.tasks = root.service.tasks) (hrow : service.row = root.service.row)
    (hkept : ∀ j, (root.service.instances j).isSome → (service.instances j).isSome)
    (hnext : root.nextTask ≤ next) : Tracked declared { root with service, nextTask := next } :=
  h.rest [] (update_eq_self 0 _).symm rfl
    (hrow.trans (update_eq_self 0 _).symm) (h.stage 0) htasks hnext hkept

theorem Tracked.fresh : root.service.tasks root.nextTask = none := by
  by_contra hsome
  obtain ⟨j, hj⟩ := Option.ne_none_iff_exists'.mp hsome
  exact absurd (h.known _ j ((h.running _ j).mp hj)).1 (Nat.lt_irrefl _)

theorem Tracked.launch (hdecided : (root.service.row i).terminal = none)
    (hlaunched : root.launched i = none) (hready : (root.service.row i).readyAt ≤ now)
    (htasks : service.tasks = update root.service.tasks root.nextTask (some i))
    (hrow : service.row = root.service.row) (hpresent : (service.instances i).isSome)
    (hkept : ∀ j, (root.service.instances j).isSome → (service.instances j).isSome) :
    Tracked declared (Root.note
      { root with
        service := service.clearRestartReservation i
        launched := update root.launched i (some root.nextTask)
        nextTask := root.nextTask + 1 } i [.launched root.nextTask now]) := by
  obtain ⟨hcleared, hclearedRow, hclearedKept⟩ := clearRestartReservation_spec hpresent
  refine h.change rfl rfl (hclearedRow.trans (by rw [hrow])) ?_ ?_ (Nat.le_succ _)
    (fun task htask => ?_) fun j hsome => hclearedKept j (hkept j hsome)
  · have hstage := h.stage i
    rw [hlaunched] at hstage
    exact hstage.launch hdecided hready
  · intro task j
    change (service.clearRestartReservation i).tasks task = some j ↔
      update root.launched i (some root.nextTask) j = some task
    rw [hcleared, htasks]
    by_cases htask : task = root.nextTask <;> by_cases hj : j = i
    · simp [htask, hj]
    · have hother := (h.running root.nextTask j).not.mp (by simp [h.fresh])
      simpa [htask, hj, Ne.symm hj] using hother
    · have hother := (h.running task i).not.mpr (by simp [hlaunched])
      simpa [htask, hj, Ne.symm htask] using hother
    · simpa [htask, hj] using h.running task j
  · obtain rfl := some.inj htask
    exact ⟨Nat.lt_succ_self _, hclearedKept i hpresent⟩

theorem Tracked.spawn (horderly : orderly root (.spawn i now fate)) :
    Tracked declared (root.serveSpawn i now fate) := by
  unfold Root.serveSpawn
  split
  · exact h
  rename_i hlaunched
  split
  · exact h
  rename_i hexhausted
  split
  · exact h
  rename_i hready
  split
  · exact h
  obtain ⟨hrow, hkept, -, hok⟩ := declare_spec
  have htasks := release_declare (i := i) h.fresh
  dsimp only
  split
  next heq =>
    rw [heq] at htasks hrow hkept
    exact h.quiet htasks hrow hkept (Nat.le_succ _)
  rename_i u service heq
  rw [heq] at htasks hrow hkept hok
  split
  · exact h.quiet htasks hrow hkept (Nat.le_succ _)
  have hdecided := decided_of_passed horderly (by simp [gated, *])
    (by cases fate <;> simp_all)
  obtain ⟨htasks, hpresent⟩ := hok u rfl
  exact h.launch hdecided (by simpa using hlaunched) (readyAt_le hready) htasks hrow hpresent hkept

theorem Tracked.unhealthy : Tracked declared (root.unhealthy task) := by
  unfold Root.unhealthy
  split
  · exact h
  rename_i i htask
  have hlaunched := (h.running task i).mp htask
  have hrecord := recordTermination_spec htask (h.known task i hlaunched).2 .unhealthy
  rw [hrecord, if_pos hlaunched]
  have hstage := h.stage i
  rw [hlaunched] at hstage
  refine h.rest _ rfl rfl (row_setRow _) ?_ rfl (Nat.le_refl _)
    fun j => isSome_setRow _
  rw [hlaunched]
  exact hstage.record .unhealthy

theorem Tracked.ends (terminal : Terminal) : Tracked declared (root.ends task terminal) := by
  unfold Root.ends
  split
  · exact h
  rename_i i htask
  have hlaunched := (h.running task i).mp htask
  rw [recordTermination_spec htask (h.known task i hlaunched).2 terminal]
  have hstage := h.stage i
  rw [hlaunched] at hstage
  refine h.change rfl rfl (row_setRow _) (hstage.finish terminal) ?_ (Nat.le_refl _) nofun
    fun j => isSome_setRow _
  intro other j
  change update root.service.tasks task none other = some j ↔
    update root.launched i none j = some other
  by_cases hother : other = task <;> by_cases hj : j = i
  · simp [hother, hj]
  · have hnot := (h.running task j).not.mp (by simp [htask, Ne.symm hj])
    simpa [hother, hj] using hnot
  · have hnot := (h.running other i).not.mpr (by simp [hlaunched, Ne.symm hother])
    simpa [hother, hj] using hnot
  · simpa [hother, hj] using h.running other j

theorem Tracked.restart (horderly : orderly root (.restart i now)) :
    Tracked declared (root.restartAdmit (declared i) i now) := by
  obtain ⟨htasks, hkept, hadmission⟩ := admitRestart_spec (declared i) now
  unfold Root.restartAdmit
  rcases hout : root.service.admitRestart (declared i) i now with ⟨answer, service⟩
  rw [hout] at htasks hkept hadmission
  generalize hrow : service.row = rows at hadmission
  have hstage := h.stage i
  cases hadmission with
  | refused => exact h.quiet htasks hrow hkept (Nat.le_refl _)
  | exhausted error cause pending =>
    have hnone := hstage.live_eq_none pending horderly
    rw [hnone] at hstage
    refine h.rest [] (update_eq_self i _).symm rfl hrow ?_ htasks (Nat.le_refl _) hkept
    rw [hnone]
    exact hstage.exhaust pending
  | granted remaining readyAt named pending hopen restarts within =>
    have hnone := hstage.live_eq_none pending horderly
    rw [hnone] at hstage
    rw [terminal_row, pending]
    refine h.rest _ rfl rfl hrow ?_ htasks (Nat.le_refl _) hkept
    rw [hnone]
    exact hstage.restart named pending hopen restarts within readyAt

end

theorem tracked_run {actions : List Action}
    (hactions : Permitted (Root.step declared) (fun root action => orderly root action) .new
      actions) : Tracked declared (run (Root.step declared) .new actions) := by
  refine run_invariant_permitted _ (Tracked declared) _ ?_ .new actions ?_ hactions
  · intro root action h horderly
    cases action with
    | spawn i now fate => exact h.spawn horderly
    | unhealthy task => exact h.unhealthy task
    | ends task terminal => exact h.ends task terminal
    | restart i now => exact h.restart horderly
  · exact ⟨fun i => .idle .fresh, by simp [Root.new, new], nofun⟩

/-- A spawn that launches got past the gates and the other parts of a spawn. -/
theorem of_serveSpawn (h : (root.serveSpawn i now fate).history i ≠ root.history i) :
    gated root i now = false ∧ fate = .completes := by
  unfold Root.serveSpawn at h
  split at h
  · exact absurd rfl h
  rename_i hlaunched
  split at h
  · exact absurd rfl h
  rename_i hexhausted
  split at h
  · exact absurd rfl h
  rename_i hready
  split at h
  · exact absurd rfl h
  rename_i hrefused
  dsimp only at h
  split at h
  · exact absurd rfl h
  split at h
  · exact absurd rfl h
  rename_i hunwound
  exact ⟨by simp [gated, *], by cases fate <;> simp_all⟩

end Runs

/-- Every launch of a declared instance after its first follows an admission that charged an
attempt for the death before it, and not before the instant that admission answered; so there is
one more launch than there are attempts at most. -/
theorem restarts_within_bound {declared : Nat → Option RestartPolicy} {actions : List Action}
    {i : Nat} {policy : RestartPolicy} (hdeclared : declared i = some policy)
    (hactions : Permitted (Root.step declared) (fun root action => orderly root action) .new
      actions) :
    launches ((run (Root.step declared) .new actions).history i) ≤ policy.attempts + 1 ∧
      ∀ root now fate, root = run (Root.step declared) .new actions →
        orderly root (.spawn i now fate) → root.history i ≠ [] →
        (root.serveSpawn i now fate).history i ≠ root.history i →
        ∃ cause readyAt task instant later prior,
          root.history i = .admitted (admissions prior) cause readyAt :: .ended ::
            (lifetime task instant (later ++ [cause]) ++ prior) ∧
          policy.restartsOn cause.id ∧ readyAt ≤ now := by
  have htracked := tracked_run hactions
  refine ⟨(htracked.stage i).launches_le hdeclared, ?_⟩
  rintro root now fate hroot horderly hstarted hlaunch
  rw [← hroot] at htracked
  obtain ⟨hopen, hfate⟩ := of_serveSpawn hlaunch
  have hdecided := decided_of_passed horderly hopen hfate
  simp only [gated, Bool.or_eq_false_iff] at hopen
  have hstage := htracked.stage i
  rw [show root.launched i = none by simpa using hopen.1.1] at hstage
  obtain ⟨cause, task, instant, later, prior, hhistory, hrestarts⟩ :=
    hstage.admitted_of_decided hdeclared hstarted hdecided
  exact ⟨cause, _, task, instant, later, prior, hhistory, hrestarts, readyAt_le (by simp [hopen.2])⟩

def oneAttempt : Nat → Option RestartPolicy := fun _ => some ⟨1, 7, 10, 256, by decide⟩

/-- A supervisor that keeps asking: while the task runs, before the backoff has elapsed, and after
it was told that no attempt is left. -/
def patient : List Action :=
  [.spawn 0 0 .completes, .spawn 0 1 .completes, .unhealthy 0, .ends 0 .exit, .restart 0 5,
    .spawn 0 9 .completes, .spawn 0 15 .completes, .ends 1 .fault, .restart 0 20,
    .spawn 0 30 .completes]

theorem patient_orderly :
    Permitted (Root.step oneAttempt) (fun root action => orderly root action) .new patient := by
  decide

theorem restarts_within_bound_patient :
    launches ((run (Root.step oneAttempt) .new patient).history 0) ≤ 1 + 1 :=
  (restarts_within_bound rfl patient_orderly).1

/-- A supervisor that does not ask is not stopped: with no attempt declared, the instance is
launched twice. -/
theorem spawn_without_admission :
    launches ((run (Root.step fun _ => some ⟨0, 7, 10, 256, by decide⟩) .new
      [.spawn 0 0 .completes, .ends 0 .exit, .spawn 0 0 .completes]).history 0) =
        2 := by
  decide

/-- The recorded cause is the first one of the latest task that ended or declared itself
unhealthy; since a launch at most one admission is granted, and only when no task of the instance
runs. -/
theorem one_cause_one_attempt {declared : Nat → Option RestartPolicy} {actions : List Action}
    (hactions : Permitted (Root.step declared) (fun root action => orderly root action) .new
      actions) (i : Nat) :
    (run (Root.step declared) .new actions).service.terminal i =
        firstCause ((run (Root.step declared) .new actions).history i) ∧
      admissions (sinceLaunch ((run (Root.step declared) .new actions).history i)) ≤ 1 ∧
      ∀ root now admission, root = run (Root.step declared) .new actions →
        orderly root (.restart i now) →
        (root.service.admitRestart (declared i) i now).1 = .ok admission →
        root.launched i = none := by
  have htracked := tracked_run hactions
  refine ⟨?_, (htracked.stage i).admissions_le, ?_⟩
  · rw [← (htracked.stage i).lastCause_eq, Service.terminal_eq]
  rintro root now admission rfl horderly hok
  have hadmission := (Service.admitRestart_spec (i := i)
    (s := (run (Root.step declared) .new actions).service) (declared i) now).2.2
  rw [hok] at hadmission
  generalize Service.row (Service.admitRestart _ _ _ _).2 = rows at hadmission
  cases hadmission with
  | granted _ _ _ pending => exact (htracked.stage i).live_eq_none pending horderly

theorem one_cause_one_attempt_patient :
    admissions (sinceLaunch ((run (Root.step oneAttempt) .new patient).history 0)) ≤ 1 :=
  (one_cause_one_attempt patient_orderly 0).2.1

/-- Asked between the declaration of ill health and the exit, the service admits a restart of a
running task, and a second one for the same death, whose cause it then gives as the exit. -/
theorem death_charged_twice :
    let declared : Nat → Option RestartPolicy := fun _ => some ⟨2, 7, 10, 256, by decide⟩
    let early := run (Root.step declared) .new
      [.spawn 0 0 .completes, .unhealthy 0, .restart 0 5]
    let late := run (Root.step declared) early [.ends 0 .exit, .restart 0 5]
    early.launched 0 = some 0 ∧ admissions (early.history 0) = 1 ∧
      admissions (sinceLaunch (late.history 0)) = 2 ∧ late.service.terminal 0 = some .exit ∧
      firstCause (late.history 0) = some .unhealthy := by
  decide

end SlimeOs.Lifecycle

import Memos.Library.Labelled
import Memos.Schedules.Cron

namespace Memos
namespace Schedules

open Library

/-!
# The life of a scheduler

Callers register jobs, start the scheduler and stop it.  Each started job has a
goroutine that waits for the next time of its schedule, or for the end of its
context or of the scheduler.  The channel that announces the end is made once,
when the scheduler is made.
-/

/-! ## Jobs -/

structure Job where
  name : String
  schedule : String
  timezone : String := ""
  /-- The handler is not nil. -/
  hasHandler : Bool := true
deriving DecidableEq

/-- `Validate` -/
def Job.validate (job : Job) : Except String Unit :=
  if job.name = "" then .error "job name is required"
  else if job.schedule = "" then .error "job schedule is required"
  else
    match parseCronExpression job.schedule with
    | .error cause => .error ("invalid cron expression: " ++ cause)
    | .ok _ => if job.hasHandler then .ok () else .error "job handler is required"

structure RegisteredJob where
  job : Job
  /-- The context that its cancel function ends. -/
  cancelFn : Option Nat := none
deriving DecidableEq

/-- The map of the registered jobs. -/
structure Jobs where
  entries : List RegisteredJob
  distinct : (entries.map fun entry => entry.job.name).Nodup

namespace Jobs

def empty : Jobs := ⟨[], List.nodup_nil⟩

def names (jobs : Jobs) : List String := jobs.entries.map fun entry => entry.job.name

def find (jobs : Jobs) (name : String) : Option RegisteredJob :=
  jobs.entries.find? fun entry => entry.job.name = name

/-- Change the entries without renaming a job. -/
def update (jobs : Jobs) (change : RegisteredJob -> RegisteredJob)
    (keeps : ∀ entry, (change entry).job.name = entry.job.name) : Jobs where
  entries := jobs.entries.map change
  distinct := by
    have names : (jobs.entries.map change).map (fun entry => entry.job.name) =
        jobs.entries.map fun entry => entry.job.name := by
      rw [List.map_map]
      exact List.map_congr_left fun entry _ => keeps entry
    rw [names]
    exact jobs.distinct

def add (jobs : Jobs) (job : Job) (fresh : job.name ∉ jobs.names) : Jobs where
  entries := jobs.entries ++ [{ job }]
  distinct := by
    rw [List.map_append, List.map_singleton, List.nodup_append]
    refine ⟨jobs.distinct, List.nodup_singleton _, ?_⟩
    intro name member other single
    rw [List.mem_singleton] at single
    rintro rfl
    exact fresh (single ▸ member)

/-- Remember the cancel function of a job. -/
def setCancelFn (jobs : Jobs) (name : String) (context : Nat) : Jobs :=
  jobs.update (fun entry => if entry.job.name = name then { entry with cancelFn := some context }
    else entry) fun entry => by split <;> rfl

/-- The caller still has the job and writes another schedule into it. -/
def edit (jobs : Jobs) (name schedule : String) : Jobs :=
  jobs.update (fun entry => if entry.job.name = name then
    { entry with job := { entry.job with schedule } } else entry) fun entry => by split <;> rfl

end Jobs

/-! ## The scheduler -/

/-- The goroutine of a job. -/
structure Loop where
  name : String
  schedule : Schedule
  context : Nat
  /-- Its context has been cancelled. -/
  cancelled : Bool := false
  /-- It is in the handler of the job. -/
  busy : Bool := false
deriving DecidableEq

structure Scheduler where
  jobs : Jobs
  running : Bool := false
  /-- `stopCh` is closed. -/
  stopClosed : Bool := false
  loops : List Loop := []
  /-- The number of contexts so far. -/
  contexts : Nat := 0
  /-- A call of `Stop` waits for the loops. -/
  stopping : Bool := false
  /-- A closed channel was closed. -/
  panicked : Bool := false

/-- `New` -/
def new : Scheduler := { jobs := .empty }

namespace Scheduler

/-- `Register` -/
def register (scheduler : Scheduler) (job : Job) : Except String Scheduler :=
  match job.validate with
  | .error cause => .error ("invalid job: " ++ cause)
  | .ok _ =>
      if fresh : job.name ∉ scheduler.jobs.names then
        .ok { scheduler with jobs := scheduler.jobs.add job fresh }
      else .error ("job with name " ++ job.name.quote ++ " already registered")

/-- The goroutine of a job, with a context of its own. -/
def launch (scheduler : Scheduler) (name : String) (schedule : Schedule) : Scheduler :=
  { scheduler with
    jobs := scheduler.jobs.setCancelFn name scheduler.contexts
    loops := scheduler.loops ++ [{ name, schedule, context := scheduler.contexts }]
    contexts := scheduler.contexts + 1 }

/-- The schedule of a registered job. -/
def parse (scheduler : Scheduler) (name : String) : Except String Schedule :=
  match scheduler.jobs.find name with
  | none => .error "no such job"
  | some entry => parseCronExpression entry.job.schedule

/-- The loop of `Start` over the jobs, in the order of the map.  A schedule that
cannot be parsed ends it, and the goroutines started so far go on. -/
def launchAll : List String -> Scheduler -> Option String × Scheduler
  | [], scheduler => (none, scheduler)
  | name :: names, scheduler =>
      match scheduler.parse name with
      | .error cause => (some ("failed to parse schedule for job " ++ name.quote ++ ": " ++ cause), scheduler)
      | .ok schedule => launchAll names (scheduler.launch name schedule)

/-- `Start`, with the order in which it visits the jobs and the error that it
returns. -/
def start (scheduler : Scheduler) (order : List String) : Option String × Scheduler :=
  if scheduler.running then (some "scheduler already running", scheduler)
  else
    match launchAll order scheduler with
    | (some cause, after) => (some cause, after)
    | (none, after) => (none, { after with running := true })

/-- `Stop` up to the point where it waits for the goroutines. -/
def stop (scheduler : Scheduler) : Option String × Scheduler :=
  if scheduler.running then
    let cancelled := scheduler.jobs.entries.filterMap RegisteredJob.cancelFn
    (none, { scheduler with
      running := false
      loops := scheduler.loops.map fun loop =>
        { loop with cancelled := loop.cancelled || cancelled.contains loop.context }
      panicked := scheduler.stopClosed
      stopClosed := true
      stopping := true })
  else (some "scheduler not running", scheduler)

/-- A goroutine has been told to end. -/
def told (scheduler : Scheduler) (loop : Loop) : Bool := loop.cancelled || scheduler.stopClosed

/-! ## Runs -/

/-- What happens next: a call, the end of a call of `Stop`, or a move of a
goroutine. -/
inductive Event where
  | register (job : Job)
  | edit (name schedule : String)
  | start (order : List String)
  | stop
  /-- `Stop` returns after the last goroutine. -/
  | stopped
  /-- `Stop` returns since its context has ended. -/
  | expired
  | fire (index : Nat)
  | finish (index : Nat)
  | quit (index : Nat)

/-- A move of one goroutine that stays. -/
def withBusy (scheduler : Scheduler) (index : Nat) (busy : Bool) : Option Scheduler :=
  match scheduler.loops[index]? with
  | none => none
  | some loop =>
      if loop.busy = busy then none
      else some { scheduler with loops := scheduler.loops.set index { loop with busy } }

/-- One event.  Calls come one after the other, and a panic ends the process. -/
def step (scheduler : Scheduler) (event : Event) : Option Scheduler :=
  if scheduler.panicked then none
  else
    match event with
    | .register job =>
        if scheduler.stopping then none
        else
          match scheduler.register job with
          | .ok after => some after
          | .error _ => some scheduler
    | .edit name schedule => some { scheduler with jobs := scheduler.jobs.edit name schedule }
    | .start order =>
        if scheduler.stopping then none
        else if order.isPerm scheduler.jobs.names then some (scheduler.start order).2
        else none
    | .stop => if scheduler.stopping then none else some scheduler.stop.2
    | .stopped =>
        if scheduler.stopping ∧ scheduler.loops = [] then some { scheduler with stopping := false }
        else none
    | .expired => if scheduler.stopping then some { scheduler with stopping := false } else none
    | .fire index => scheduler.withBusy index true
    | .finish index => scheduler.withBusy index false
    | .quit index =>
        match scheduler.loops[index]? with
        | none => none
        | some loop =>
            if !loop.busy ∧ scheduler.told loop then
              some { scheduler with loops := scheduler.loops.eraseIdx index }
            else none

/-! ## The contract -/

/-- The event is the return of a call after which no goroutine may be left:
`Stop`, or a `Start` that has failed on a job. -/
def Ends (before : Scheduler) : Event -> Prop
  | .stop => before.running = false
  | .stopped | .expired => True
  | .start order => before.running = false ∧ (before.start order).1 ≠ none
  | _ => False

/-- What is asked of every step.  A goroutine that has not been told to end
stays and fires whenever its time comes. -/
structure Orderly (before : Scheduler) (event : Event) (after : Scheduler) : Prop where
  closedOnce : after.panicked = false
  firing : after.running = true -> ∀ name, name ∈ after.jobs.names ->
    Exists fun loop => loop ∈ after.loops ∧ loop.name = name ∧ after.told loop = false
  single : (after.loops.map Loop.name).Nodup
  ended : Ends before event -> after.loops = []

/-- Jobs are registered while the scheduler does not run, it is started before
it is stopped for the first time and with schedules that can be parsed, it is
stopped once, and `Stop` is given the time that the handlers take. -/
def Proper (before : Scheduler) : Event -> Prop
  | .register job => before.running = true ->
      Exists fun cause => before.register job = .error cause
  | .start order => before.running = false ->
      (Exists fun first => Exists fun rest => Exists fun cause =>
        order = first :: rest ∧ before.parse first = .error cause) ∨
      ((∀ name, name ∈ order -> Exists fun schedule => before.parse name = .ok schedule) ∧
        (before.jobs.entries = [] ∨ before.stopClosed = false))
  | .stop => before.running = true -> before.stopClosed = false
  | .expired => before.loops = []
  | _ => True

/-! ## Launching -/

section Launching

variable {scheduler : Scheduler}

theorem Jobs.names_update (jobs : Jobs) (change : RegisteredJob -> RegisteredJob)
    (keeps : ∀ entry, (change entry).job.name = entry.job.name) :
    (jobs.update change keeps).names = jobs.names := by
  unfold Jobs.names Jobs.update
  rw [List.map_map]
  exact List.map_congr_left fun entry _ => keeps entry

theorem Jobs.names_setCancelFn (jobs : Jobs) (name : String) (context : Nat) :
    (jobs.setCancelFn name context).names = jobs.names := Jobs.names_update _ _ _

theorem Jobs.names_edit (jobs : Jobs) (name schedule : String) :
    (jobs.edit name schedule).names = jobs.names := Jobs.names_update _ _ _

/-- A goroutine more does not change the schedules of the jobs. -/
theorem parse_launch (name other : String) (schedule : Schedule) :
    (scheduler.launch name schedule).parse other = scheduler.parse other := by
  have found : (scheduler.jobs.setCancelFn name scheduler.contexts).find other =
      (scheduler.jobs.find other).map fun entry =>
        if entry.job.name = name then { entry with cancelFn := some scheduler.contexts } else entry := by
    unfold Jobs.find Jobs.setCancelFn Jobs.update
    rw [List.find?_map]
    have sameName : ((fun entry : RegisteredJob => decide (entry.job.name = other)) ∘ fun entry =>
        if entry.job.name = name then { entry with cancelFn := some scheduler.contexts } else entry) =
        fun entry => decide (entry.job.name = other) := by
      funext entry
      dsimp only [Function.comp]
      split <;> rfl
    rw [sameName]
  unfold parse launch
  dsimp only
  rw [found]
  cases scheduler.jobs.find other with
  | none => rfl
  | some entry =>
      dsimp only [Option.map_some]
      split <;> rfl

/-- What the loop of `Start` has done when it ends. -/
structure Launched (before : Scheduler) (names : List String) (outcome : Option String)
    (after : Scheduler) (started : List Loop) : Prop where
  loops : after.loops = before.loops ++ started
  registered : after.jobs.names = before.jobs.names
  running : after.running = before.running
  stopClosed : after.stopClosed = before.stopClosed
  stopping : after.stopping = before.stopping
  panicked : after.panicked = before.panicked
  live : ∀ loop, loop ∈ started -> loop.cancelled = false
  all : outcome = none -> started.map Loop.name = names ∧
    ∀ name, name ∈ names -> Exists fun schedule => before.parse name = .ok schedule
  failed : outcome ≠ none -> Exists fun bad => Exists fun rest => Exists fun cause =>
    names = started.map Loop.name ++ bad :: rest ∧ before.parse bad = .error cause

theorem exists_launched (names : List String) :
    Exists fun started => Launched scheduler names (launchAll names scheduler).1
      (launchAll names scheduler).2 started := by
  induction names generalizing scheduler with
  | nil =>
      exact ⟨[], {
        loops := (List.append_nil _).symm
        registered := rfl
        running := rfl
        stopClosed := rfl
        stopping := rfl
        panicked := rfl
        live := fun _ impossible => absurd impossible List.not_mem_nil
        all := fun _ => ⟨rfl, fun _ impossible => absurd impossible List.not_mem_nil⟩
        failed := fun failed => absurd rfl failed }⟩
  | cons name names ih =>
      unfold launchAll
      cases parsed : scheduler.parse name with
      | error cause =>
          exact ⟨[], {
            loops := (List.append_nil _).symm
            registered := rfl
            running := rfl
            stopClosed := rfl
            stopping := rfl
            panicked := rfl
            live := fun _ impossible => absurd impossible List.not_mem_nil
            all := fun success => absurd success (Option.some_ne_none _)
            failed := fun _ => ⟨name, names, cause, rfl, parsed⟩ }⟩
      | ok schedule =>
          rcases @ih (scheduler.launch name schedule) with ⟨started, launched⟩
          refine ⟨{ name, schedule, context := scheduler.contexts } :: started, ?_⟩
          dsimp only
          constructor
          · rw [launched.loops]
            exact List.append_assoc _ _ _
          · rw [launched.registered]
            exact Jobs.names_setCancelFn _ _ _
          · exact launched.running
          · exact launched.stopClosed
          · exact launched.stopping
          · exact launched.panicked
          · intro loop member
            rcases List.mem_cons.mp member with rfl | later
            · rfl
            · exact launched.live loop later
          · intro success
            rcases launched.all success with ⟨same, parses⟩
            refine ⟨congrArg (List.cons name) same, ?_⟩
            intro other member
            rcases List.mem_cons.mp member with rfl | later
            · exact ⟨schedule, parsed⟩
            · rcases parses other later with ⟨found, ofOther⟩
              exact ⟨found, (parse_launch name other schedule).symm.trans ofOther⟩
          · intro failed
            rcases launched.failed failed with ⟨bad, rest, cause, same, refused⟩
            exact ⟨bad, rest, cause, congrArg (List.cons name) same,
              (parse_launch name bad schedule).symm.trans refused⟩

end Launching

/-! ## The invariant -/

/-- The goroutines belong to registered jobs, one to each.  While the scheduler
runs all jobs have theirs, and when nothing goes on there is none. -/
structure Settled (scheduler : Scheduler) : Prop where
  closedOnce : scheduler.panicked = false
  named : ∀ loop, loop ∈ scheduler.loops -> loop.name ∈ scheduler.jobs.names
  single : (scheduler.loops.map Loop.name).Nodup
  idle : scheduler.running = false -> scheduler.stopping = false -> scheduler.loops = []
  firing : scheduler.running = true -> ∀ name, name ∈ scheduler.jobs.names ->
    Exists fun loop => loop ∈ scheduler.loops ∧ loop.name = name ∧ scheduler.told loop = false

theorem settled_new : Settled new where
  closedOnce := rfl
  named := fun _ impossible => absurd impossible List.not_mem_nil
  single := List.nodup_nil
  idle := fun _ _ => rfl
  firing := fun impossible => absurd impossible Bool.false_ne_true

/-- What one event does to a settled scheduler. -/
structure Keeps (before : Scheduler) (event : Event) (after : Scheduler) : Prop where
  settled : Settled after
  ended : Ends before event -> after.loops = []

theorem Keeps.orderly {before after : Scheduler} {event : Event} (keeps : Keeps before event after) :
    Orderly before event after where
  closedOnce := keeps.settled.closedOnce
  firing := keeps.settled.firing
  single := keeps.settled.single
  ended := keeps.ended

section Keeps

variable {before after : Scheduler}

theorem register_eq_ok {job : Job} (registered : before.register job = .ok after) :
    Exists fun fresh : job.name ∉ before.jobs.names =>
      after = { before with jobs := before.jobs.add job fresh } := by
  unfold register at registered
  cases valid : job.validate with
  | error cause =>
      rw [valid] at registered
      cases registered
  | ok _ =>
      rw [valid] at registered
      dsimp only at registered
      by_cases fresh : job.name ∉ before.jobs.names
      · rw [dif_pos fresh] at registered
        exact ⟨fresh, (Except.ok.inj registered).symm⟩
      · rw [dif_neg fresh] at registered
        cases registered

theorem Jobs.mem_names_add {jobs : Jobs} {job : Job} {fresh : job.name ∉ jobs.names} {name : String} :
    name ∈ (jobs.add job fresh).names ↔ name ∈ jobs.names ∨ name = job.name := by
  unfold Jobs.names Jobs.add
  rw [List.map_append, List.mem_append, List.map_singleton, List.mem_singleton]

theorem settled_register (settled : Settled before) {job : Job} (stopped : before.running = false)
    (registered : before.register job = .ok after) : Settled after := by
  rcases register_eq_ok registered with ⟨fresh, rfl⟩
  constructor
  · exact settled.closedOnce
  · intro loop member
    exact (@Jobs.mem_names_add _ _ fresh _).mpr (.inl (settled.named loop member))
  · exact settled.single
  · exact settled.idle
  · intro running
    exact absurd (stopped.symm.trans running) Bool.false_ne_true

theorem settled_edit (settled : Settled before) (name schedule : String) :
    Settled { before with jobs := before.jobs.edit name schedule } := by
  have names := Jobs.names_edit before.jobs name schedule
  constructor
  · exact settled.closedOnce
  · intro loop member
    rw [names]
    exact settled.named loop member
  · exact settled.single
  · exact settled.idle
  · intro running other member
    rw [names] at member
    exact settled.firing running other member

/-- A start that visits a job with a broken schedule first does nothing. -/
theorem start_refused (stopped : before.running = false) {first cause : String} {rest : List String}
    (refused : before.parse first = .error cause) :
    Exists fun text => before.start (first :: rest) = (some text, before) := by
  refine ⟨"failed to parse schedule for job " ++ first.quote ++ ": " ++ cause, ?_⟩
  unfold start launchAll
  rw [stopped, refused]
  rfl

/-- A start of jobs that can all be parsed. -/
theorem start_launched (stopped : before.running = false) {order : List String}
    (parses : ∀ name, name ∈ order -> Exists fun schedule => before.parse name = .ok schedule) :
    Exists fun launched => Exists fun started =>
      before.start order = (none, { launched with running := true }) ∧
        Launched before order none launched started := by
  rcases @exists_launched before order with ⟨started, launched⟩
  rcases ran : launchAll order before with ⟨outcome, last⟩
  rw [ran] at launched
  cases outcome with
  | none =>
      refine ⟨last, started, ?_, launched⟩
      unfold start
      rw [stopped, ran]
      rfl
  | some cause =>
      rcases launched.failed nofun with ⟨bad, rest, reason, split, refused⟩
      rcases parses bad (by rw [split]; simp) with ⟨_, parsed⟩
      rw [parsed] at refused
      cases refused

theorem settled_start (settled : Settled before) (calm : before.stopping = false)
    (stopped : before.running = false) {order : List String} (perm : order.Perm before.jobs.names)
    {started : List Loop} (launched : Launched before order none after started)
    (opened : order = [] ∨ before.stopClosed = false) :
    Settled { after with running := true } := by
  have empty := settled.idle stopped calm
  have whole : after.loops = started := by rw [launched.loops, empty, List.nil_append]
  have names := (launched.all rfl).1
  have registered : ∀ name, name ∈ after.jobs.names ↔ name ∈ order := by
    intro name
    rw [launched.registered]
    exact perm.mem_iff.symm
  constructor
  · exact launched.panicked.trans settled.closedOnce
  · intro loop member
    dsimp only at member ⊢
    rw [whole] at member
    rw [registered, ← names]
    exact List.mem_map.mpr ⟨loop, member, rfl⟩
  · dsimp only
    rw [whole, names]
    exact perm.nodup_iff.mpr before.jobs.distinct
  · exact nofun
  · intro _ name member
    dsimp only at member ⊢
    rw [registered] at member
    have inStarted := member
    rw [← names] at inStarted
    rcases List.mem_map.mp inStarted with ⟨loop, ofLoop, same⟩
    refine ⟨loop, by rw [whole]; exact ofLoop, same, ?_⟩
    have stopOpen : before.stopClosed = false := by
      rcases opened with none | opened
      · rw [none] at member
        cases member
      · exact opened
    change (loop.cancelled || after.stopClosed) = false
    rw [launched.live loop ofLoop, launched.stopClosed, stopOpen]
    rfl

theorem settled_stop (settled : Settled before) (running : before.running = true)
    (opened : before.stopClosed = false) : Settled before.stop.2 := by
  unfold stop
  rw [if_pos running]
  have names : (before.loops.map fun loop => { loop with
      cancelled := loop.cancelled ||
        (before.jobs.entries.filterMap RegisteredJob.cancelFn).contains loop.context }).map Loop.name =
      before.loops.map Loop.name := by
    rw [List.map_map]
    rfl
  constructor
  · exact opened
  · intro loop member
    rcases List.mem_map.mp member with ⟨source, inLoops, rfl⟩
    exact settled.named source inLoops
  · dsimp only
    rw [names]
    exact settled.single
  · exact nofun
  · exact nofun

/-- `Stop` has returned after the last goroutine. -/
theorem settled_stopped (settled : Settled before) (empty : before.loops = []) :
    Settled { before with stopping := false } where
  closedOnce := settled.closedOnce
  named := settled.named
  single := settled.single
  idle := fun _ _ => empty
  firing := settled.firing

theorem settled_withBusy (settled : Settled before) {index : Nat} {busy : Bool}
    (moves : before.withBusy index busy = some after) : Settled after := by
  unfold withBusy at moves
  cases found : before.loops[index]? with
  | none =>
      rw [found] at moves
      cases moves
  | some loop =>
      rw [found] at moves
      dsimp only at moves
      split at moves
      · cases moves
      · cases moves
        rcases List.getElem?_eq_some_iff.mp found with ⟨bound, isLoop⟩
        have names : (before.loops.set index { loop with busy }).map Loop.name =
            before.loops.map Loop.name := by
          have inMap : index < (before.loops.map Loop.name).length := by
            rw [List.length_map]
            exact bound
          have same : loop.name = (before.loops.map Loop.name)[index] := by
            rw [List.getElem_map, isLoop]
          rw [List.map_set]
          dsimp only
          rw [same]
          exact List.set_getElem_self inMap
        constructor
        · exact settled.closedOnce
        · intro other member
          rcases List.mem_or_eq_of_mem_set member with old | rfl
          · exact settled.named other old
          · exact settled.named loop (List.mem_of_getElem? found)
        · dsimp only
          rw [names]
          exact settled.single
        · intro stopped calm
          dsimp only
          rw [settled.idle stopped calm]
          rfl
        · intro running name member
          rcases settled.firing running name member with ⟨other, inLoops, same, untold⟩
          rcases List.getElem_of_mem inLoops with ⟨place, inside, isOther⟩
          by_cases here : index = place
          · subst here
            have isSame : other = loop := isOther.symm.trans isLoop
            refine ⟨{ loop with busy }, List.mem_set bound _, ?_, ?_⟩
            · rw [← same, isSame]
            · rw [isSame] at untold
              exact untold
          · refine ⟨other, ?_, same, untold⟩
            refine List.mem_iff_getElem.mpr ⟨place, by rw [List.length_set]; exact inside, ?_⟩
            rw [List.getElem_set_ne here, isOther]

theorem settled_quit (settled : Settled before) {index : Nat} {loop : Loop}
    (found : before.loops[index]? = some loop) (isTold : before.told loop = true) :
    Settled { before with loops := before.loops.eraseIdx index } where
  closedOnce := settled.closedOnce
  named := fun other member => settled.named other (List.mem_of_mem_eraseIdx member)
  single := settled.single.sublist ((List.eraseIdx_sublist _ _).map _)
  idle := by
    intro stopped calm
    dsimp only
    rw [settled.idle stopped calm]
    rfl
  firing := by
    intro running name member
    rcases settled.firing running name member with ⟨other, inLoops, same, untold⟩
    rcases List.getElem_of_mem inLoops with ⟨place, inside, isOther⟩
    refine ⟨other, List.mem_eraseIdx_iff_getElem.mpr ⟨place, inside, ?_, isOther⟩, same, untold⟩
    rintro rfl
    rw [List.getElem?_eq_getElem inside, isOther] at found
    rw [Option.some.inj found] at untold
    exact absurd (untold.symm.trans isTold) Bool.false_ne_true

/-- An event that meets the condition keeps the invariant. -/
theorem keeps_step (settled : Settled before) {event : Event} (steps : before.step event = some after)
    (proper : Proper before event) : Keeps before event after := by
  have alive : ¬ before.panicked = true := Bool.eq_false_iff.mp settled.closedOnce
  unfold step at steps
  rw [if_neg alive] at steps
  cases event with
  | register job =>
      dsimp only at steps
      split at steps
      · cases steps
      · refine ⟨?_, fun impossible => impossible.elim⟩
        cases registered : before.register job with
        | error cause =>
            rw [registered] at steps
            cases steps
            exact settled
        | ok last =>
            rw [registered] at steps
            cases steps
            refine settled_register settled (Bool.eq_false_iff.mpr fun running => ?_) registered
            rcases proper running with ⟨cause, refused⟩
            rw [registered] at refused
            cases refused
  | edit name schedule =>
      cases steps
      exact ⟨settled_edit settled name schedule, fun impossible => impossible.elim⟩
  | start order =>
      dsimp only at steps
      split at steps
      · cases steps
      · next calm =>
          split at steps
          · next isPerm =>
              cases steps
              have perm := List.isPerm_iff.mp isPerm
              have quiet := Bool.eq_false_iff.mpr calm
              by_cases running : before.running = true
              · have same : before.start order = (some "scheduler already running", before) := by
                  unfold start
                  rw [if_pos running]
                rw [same]
                refine ⟨settled, fun ends => ?_⟩
                exact absurd (ends.1.symm.trans running) Bool.false_ne_true
              · have stopped := Bool.eq_false_iff.mpr running
                rcases proper stopped with ⟨first, rest, cause, rfl, refused⟩ | ⟨parses, opened⟩
                · rcases start_refused stopped refused with ⟨text, same⟩
                  rw [same]
                  exact ⟨settled, fun _ => settled.idle stopped quiet⟩
                · rcases start_launched stopped parses with ⟨last, started, same, launched⟩
                  have ended : Ends before (.start order) -> False := by
                    rintro ⟨_, failed⟩
                    rw [same] at failed
                    exact failed rfl
                  rw [same]
                  refine ⟨settled_start settled quiet stopped perm launched ?_,
                    fun ends => (ended ends).elim⟩
                  refine opened.imp_left fun none => ?_
                  have names : before.jobs.names = [] := by
                    unfold Jobs.names
                    rw [none]
                    rfl
                  rw [names] at perm
                  exact perm.eq_nil
          · cases steps
  | stop =>
      dsimp only at steps
      split at steps
      · cases steps
      · next calm =>
          cases steps
          by_cases running : before.running = true
          · exact ⟨settled_stop settled running (proper running), fun stopped =>
              absurd (stopped.symm.trans running) Bool.false_ne_true⟩
          · have same : before.stop.2 = before := by
              unfold stop
              rw [if_neg running]
            rw [same]
            exact ⟨settled, fun stopped => settled.idle stopped (Bool.eq_false_iff.mpr calm)⟩
  | stopped =>
      dsimp only at steps
      split at steps
      · next both =>
          cases steps
          exact ⟨settled_stopped settled both.2, fun _ => both.2⟩
      · cases steps
  | expired =>
      dsimp only at steps
      split at steps
      · cases steps
        exact ⟨settled_stopped settled proper, fun _ => proper⟩
      · cases steps
  | fire index => exact ⟨settled_withBusy settled steps, fun impossible => impossible.elim⟩
  | finish index => exact ⟨settled_withBusy settled steps, fun impossible => impossible.elim⟩
  | quit index =>
      dsimp only at steps
      cases found : before.loops[index]? with
      | none =>
          rw [found] at steps
          cases steps
      | some loop =>
          rw [found] at steps
          dsimp only at steps
          split at steps
          · next both =>
              cases steps
              exact ⟨settled_quit settled found both.2, fun impossible => impossible.elim⟩
          · cases steps

/-- A step that is as it should be met the condition. -/
theorem proper_of_orderly (settled : Settled before) {event : Event}
    (steps : before.step event = some after) (orderly : Orderly before event after) :
    Proper before event := by
  have alive : ¬ before.panicked = true := Bool.eq_false_iff.mp settled.closedOnce
  unfold step at steps
  rw [if_neg alive] at steps
  cases event with
  | register job =>
      intro running
      dsimp only at steps
      split at steps
      · cases steps
      · cases registered : before.register job with
        | error cause => exact ⟨cause, rfl⟩
        | ok last =>
            -- The new job has no goroutine.
            rw [registered] at steps
            cases steps
            rcases register_eq_ok registered with ⟨fresh, rfl⟩
            rcases orderly.firing running job.name
              ((@Jobs.mem_names_add _ _ fresh _).mpr (.inr rfl)) with ⟨loop, member, same, _⟩
            exact absurd (same ▸ settled.named loop member) fresh
  | edit name schedule => trivial
  | start order =>
      intro stopped
      dsimp only at steps
      split at steps
      · cases steps
      · next calm =>
          split at steps
          · next isPerm =>
              cases steps
              have empty := settled.idle stopped (Bool.eq_false_iff.mpr calm)
              have perm := List.isPerm_iff.mp isPerm
              rcases @exists_launched before order with ⟨started, launched⟩
              rcases ran : launchAll order before with ⟨outcome, last⟩
              rw [ran] at launched
              cases outcome with
              | none =>
                  -- Without an error, the goroutines must not have been told to end.
                  have result : before.start order = (none, { last with running := true }) := by
                    unfold start
                    rw [stopped, ran]
                    rfl
                  refine .inr ⟨(launched.all rfl).2, ?_⟩
                  rw [result] at orderly
                  cases names : before.jobs.entries with
                  | nil => exact .inl rfl
                  | cons entry rest =>
                      have named : entry.job.name ∈ last.jobs.names := by
                        rw [launched.registered]
                        unfold Jobs.names
                        rw [names]
                        exact List.mem_cons_self
                      rcases orderly.firing rfl entry.job.name named with ⟨loop, _, _, untold⟩
                      have opened : last.stopClosed = false :=
                        (Bool.or_eq_false_iff.mp untold).2
                      exact .inr (launched.stopClosed.symm.trans opened)
              | some cause =>
                  -- No goroutine was started before the error.
                  have result : before.start order = (some cause, last) := by
                    unfold start
                    rw [stopped, ran]
                    rfl
                  rw [result] at orderly
                  have none := orderly.ended ⟨stopped, by rw [result]; exact Option.some_ne_none _⟩
                  dsimp only at none
                  rw [launched.loops, empty, List.nil_append] at none
                  rcases launched.failed (Option.some_ne_none _) with ⟨bad, rest, reason, split, refused⟩
                  rw [none] at split
                  exact .inl ⟨bad, rest, reason, split, refused⟩
          · cases steps
  | stop =>
      intro running
      dsimp only at steps
      split at steps
      · cases steps
      · cases steps
        have closed := orderly.closedOnce
        unfold stop at closed
        rw [if_pos running] at closed
        exact closed
  | stopped => trivial
  | expired =>
      dsimp only at steps
      split at steps
      · cases steps
        exact orderly.ended trivial
      · cases steps
  | fire index => trivial
  | finish index => trivial
  | quit index => trivial

end Keeps

/-- The goroutine of the job can fire or finish, and does not quit. -/
def GoesOn (scheduler : Scheduler) (name : String) : Prop :=
  Exists fun index => Exists fun loop => scheduler.loops[index]? = some loop ∧ loop.name = name ∧
    scheduler.step (.quit index) = none ∧
    Exists fun after => scheduler.step (if loop.busy then .finish index else .fire index) = some after

theorem Settled.goesOn {scheduler : Scheduler} (settled : Settled scheduler)
    (running : scheduler.running = true) {name : String} (member : name ∈ scheduler.jobs.names) :
    scheduler.GoesOn name := by
  rcases settled.firing running name member with ⟨loop, inLoops, same, untold⟩
  rcases List.getElem?_of_mem inLoops with ⟨index, found⟩
  have alive : ¬ scheduler.panicked = true := Bool.eq_false_iff.mp settled.closedOnce
  refine ⟨index, loop, found, same, ?_, ?_⟩
  · unfold step
    rw [if_neg alive]
    dsimp only
    rw [found]
    dsimp only
    rw [untold, if_neg fun both => Bool.false_ne_true both.2]
  · unfold step
    rw [if_neg alive]
    cases busy : loop.busy with
    | false =>
        refine ⟨{ scheduler with loops := scheduler.loops.set index { loop with busy := true } }, ?_⟩
        simp [withBusy, found, busy]
    | true =>
        refine ⟨{ scheduler with loops := scheduler.loops.set index { loop with busy := false } }, ?_⟩
        simp [withBusy, found, busy]

/-- While the scheduler runs, no job is ever left without a goroutine that goes on. -/
theorem proper_goesOn {events : List Event}
    (proper : Throughout step (fun before event _ => Proper before event) new events) :
    Throughout step (fun _ _ after => after.running = true -> ∀ name, name ∈ after.jobs.names ->
      after.GoesOn name) new events :=
  throughout_of_invariant
    (fun _ _ _ settled steps proper => (keeps_step settled steps proper).settled)
    (fun _ _ _ settled running _ member => settled.goesOn running member) settled_new proper

/-- Two jobs, of which one runs when the other is asked about. -/
theorem proper_goesOn_hourly : Exists fun before => Exists fun after =>
    [Event.register { name := "backup", schedule := "0 * * * *" },
      .register { name := "mail", schedule := "*/5 * * * *" }, .start ["mail", "backup"]].foldlM step new = some before ∧
    step before (.fire 0) = some after ∧ after.loops.map Loop.busy = [true, false] ∧ after.GoesOn "backup" := by
  have proper : Throughout step (fun before event _ => Proper before event) new
      ([.register { name := "backup", schedule := "0 * * * *" }, .register { name := "mail", schedule := "*/5 * * * *" },
        .start ["mail", "backup"]] ++ [.fire 0]) := by
    refine (throughout_cons rfl).mpr ⟨nofun, (throughout_cons rfl).mpr ⟨nofun, (throughout_cons rfl).mpr
      ⟨fun _ => .inr ⟨fun name member => ?_, .inr rfl⟩, (throughout_cons rfl).mpr ⟨trivial, trivial⟩⟩⟩⟩
    rcases List.mem_cons.mp member with rfl | second
    · exact ⟨_, rfl⟩
    · rw [List.mem_singleton.mp second]
      exact ⟨_, rfl⟩
  exact ⟨_, _, rfl, rfl, rfl, throughout_last (proper_goesOn proper) rfl rfl rfl "backup" List.mem_cons_self⟩

/-- Exactly the runs whose events all meet the condition are as they should be:
no channel is closed twice, every job has one goroutine that is not told to end
while the scheduler runs, and none is left when it has stopped or has failed to
start. -/
theorem orderly_iff_proper (events : List Event) :
    Throughout step Orderly new events ↔
      Throughout step (fun before event _ => Proper before event) new events :=
  @throughout_iff _ _ step Orderly (fun before event _ => Proper before event) Settled
    (fun _ _ _ settled steps =>
      ⟨proper_of_orderly settled steps, fun proper => (keeps_step settled steps proper).orderly⟩)
    (fun _ _ _ settled steps proper => (keeps_step settled steps proper).settled) _ settled_new events

/-- Starting and stopping twice closes the channel twice. -/
theorem restart_closes_twice :
    ¬ Throughout step Orderly new [.start [], .stop, .stopped, .start [], .stop] := by
  intro orderly
  have second := (throughout_cons (rfl : step new (.start []) = some _)).mp orderly
  have third := (throughout_cons rfl).mp second.2
  have fourth := (throughout_cons rfl).mp third.2
  have fifth := (throughout_cons rfl).mp fourth.2
  have last := (throughout_cons rfl).mp fifth.2
  exact absurd last.1.closedOnce (by decide)

end Scheduler
end Schedules
end Memos

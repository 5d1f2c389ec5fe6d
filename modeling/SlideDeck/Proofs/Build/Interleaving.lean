import Mathlib.Data.List.Induction
import SlideDeck.Build.Scheduler

/-!
# Interleavings of requests and rebuilds

Changes of files ask the schedule for rebuilds at any time, and workers carry the
rebuilds out. A request that is answered with yes starts a worker. A worker runs one
rebuild, tells the schedule that it is over, and goes on or stops as it is told. A
worker that was told to stop may be around for a while, but it touches nothing any
more.

The steps of requests and workers come in any order (`Run`). However they come, a
wanted rebuild is never forgotten and there is never more than one worker that takes
part (`Orderly`, kept by every step). The rebuilds that are due, `Site.due`, are what a
ready worker will run and what is pending. A request adds at most one of them, and only
the beginning of a rebuild takes one away, so that all requests during one rebuild
together lead to one more (`Run.began_le`, `Run.due_le`).
-/

set_option autoImplicit false

namespace SlideDeck.Build

/-! ## Workers and their steps -/

/-- How far a worker is. -/
inductive Phase where
  /-- Its next rebuild has not begun. -/
  | ready
  /-- Its rebuild has begun, and the schedule has not been told of the end. -/
  | rebuilding
  /-- It was told to stop. -/
  | leaving
  deriving DecidableEq, Repr

/-- What happens at a site. -/
inductive Event where
  | requested
  | began
  | finished
  | left
  deriving DecidableEq, Repr

/-- A schedule with its workers. -/
structure Site where
  schedule : Schedule := {}
  workers : List Phase := []
  deriving DecidableEq, Repr

/-- Whether a worker still takes part. -/
def Phase.isActive : Phase → Bool
  | .leaving => false
  | _ => true

@[simp] theorem Phase.isActive_ready : Phase.ready.isActive = true := rfl

@[simp] theorem Phase.isActive_rebuilding : Phase.rebuilding.isActive = true := rfl

@[simp] theorem Phase.isActive_leaving : Phase.leaving.isActive = false := rfl

/-- How many of the workers take part. -/
def activeAmong (workers : List Phase) : Nat := workers.countP Phase.isActive

@[simp] theorem activeAmong_cons (phase : Phase) (workers : List Phase) :
    activeAmong (phase :: workers) = activeAmong workers + if phase.isActive then 1 else 0 :=
  List.countP_cons

@[simp] theorem activeAmong_middle (before after : List Phase) (phase : Phase) :
    activeAmong (before ++ phase :: after) =
      activeAmong (before ++ after) + if phase.isActive then 1 else 0 := by
  simp only [activeAmong, List.countP_append, List.countP_cons]
  omega

/-- How many workers take part. -/
def Site.active (site : Site) : Nat := activeAmong site.workers

/-- How many rebuilds are due. -/
def Site.due (site : Site) : Nat :=
  site.workers.count .ready + if site.schedule.pending then 1 else 0

/-- One step of a request or of a worker. -/
inductive Step : Site → Event → Site → Prop where
  | start {schedule next : Schedule} {workers : List Phase}
      (answer : schedule.request = (true, next)) :
      Step ⟨schedule, workers⟩ .requested ⟨next, .ready :: workers⟩
  | queue {schedule next : Schedule} {workers : List Phase}
      (answer : schedule.request = (false, next)) :
      Step ⟨schedule, workers⟩ .requested ⟨next, workers⟩
  | begin {schedule : Schedule} (before after : List Phase) :
      Step ⟨schedule, before ++ .ready :: after⟩ .began
        ⟨schedule, before ++ .rebuilding :: after⟩
  | again {schedule next : Schedule} (before after : List Phase)
      (answer : schedule.finish = (true, next)) :
      Step ⟨schedule, before ++ .rebuilding :: after⟩ .finished
        ⟨next, before ++ .ready :: after⟩
  | stop {schedule next : Schedule} (before after : List Phase)
      (answer : schedule.finish = (false, next)) :
      Step ⟨schedule, before ++ .rebuilding :: after⟩ .finished
        ⟨next, before ++ .leaving :: after⟩
  | leave {schedule : Schedule} (before after : List Phase) :
      Step ⟨schedule, before ++ .leaving :: after⟩ .left ⟨schedule, before ++ after⟩

/-- Any number of steps, with what happened in them. -/
inductive Run (start : Site) : List Event → Site → Prop where
  | refl : Run start [] start
  | step {history : List Event} {event : Event} {site next : Site}
      (run : Run start history site) (step : Step site event next) :
      Run start (history ++ [event]) next

/-- A run is a run up to any of its points and a run from there. -/
theorem Run.split {start site : Site} {earlier later : List Event}
    (run : Run start (earlier ++ later) site) :
    ∃ between, Run start earlier between ∧ Run between later site := by
  induction later using List.reverseRecOn generalizing site with
  | nil => exact ⟨site, by simpa using run, .refl⟩
  | append_singleton later event ih =>
      generalize whole : earlier ++ (later ++ [event]) = history at run
      cases run with
      | refl => simp at whole
      | @step history last previous _ run step =>
          rw [← List.append_assoc] at whole
          obtain ⟨rfl, same⟩ := List.append_inj' whole rfl
          cases same
          obtain ⟨between, first, second⟩ := ih run
          exact ⟨between, first, second.step step⟩

/-- A run in which one thing happens is one step. -/
theorem Run.single {start site : Site} {event : Event} (run : Run start [event] site) :
    Step start event site := by
  generalize whole : [event] = history at run
  cases run with
  | refl => cases whole
  | @step history last _ _ run step =>
      obtain ⟨rfl, same⟩ := List.append_inj' (show [] ++ [event] = history ++ [last] from whole) rfl
      cases same
      generalize empty : ([] : List Event) = nothing at run
      cases run with
      | refl => exact step
      | step => simp at empty

/-! ## The answers of the schedule -/

theorem Schedule.request_eq_true {schedule next : Schedule}
    (answer : schedule.request = (true, next)) :
    schedule.running = false ∧ next = { schedule with running := true } := by
  unfold Schedule.request at answer
  split at answer <;> simp_all

theorem Schedule.request_eq_false {schedule next : Schedule}
    (answer : schedule.request = (false, next)) :
    schedule.running = true ∧ next = { schedule with pending := true } := by
  unfold Schedule.request at answer
  split at answer <;> simp_all

theorem Schedule.finish_eq_true {schedule next : Schedule}
    (answer : schedule.finish = (true, next)) :
    schedule.pending = true ∧ next = { schedule with pending := false } := by
  unfold Schedule.finish at answer
  split at answer <;> simp_all

theorem Schedule.finish_eq_false {schedule next : Schedule}
    (answer : schedule.finish = (false, next)) :
    schedule.pending = false ∧ next = { schedule with running := false } := by
  unfold Schedule.finish at answer
  split at answer <;> simp_all

/-! ## What every step keeps -/

/-- Whether the history has a request and no beginning of a rebuild behind it. -/
def Unserved (history : List Event) : Prop :=
  ∃ earlier later, history = earlier ++ .requested :: later ∧ .began ∉ later

theorem Unserved.of_concat {history : List Event} {event : Event}
    (unserved : Unserved (history ++ [event])) :
    event ≠ .began ∧ (event = .requested ∨ Unserved history) := by
  obtain ⟨earlier, later, whole, quiet⟩ := unserved
  induction later using List.reverseRecOn with
  | nil =>
      obtain ⟨-, same⟩ := List.append_inj' whole rfl
      cases same
      exact ⟨by simp, .inl rfl⟩
  | append_singleton later last _ =>
      rw [← List.cons_append, ← List.append_assoc] at whole
      obtain ⟨rfl, same⟩ := List.append_inj' whole rfl
      cases same
      refine ⟨fun began => quiet (by simp [began]), .inr ⟨earlier, later, rfl, ?_⟩⟩
      exact fun member => quiet (List.mem_append_left _ member)

/-- What holds at a site with this history. -/
structure Orderly (history : List Event) (site : Site) : Prop where
  active_eq : site.active = if site.schedule.running then 1 else 0
  running_of_pending : site.schedule.pending = true → site.schedule.running = true
  due_of_unserved : Unserved history → 0 < site.due

theorem Orderly.initial : Orderly [] {} where
  active_eq := rfl
  running_of_pending := by simp
  due_of_unserved := by
    rintro ⟨earlier, later, whole, -⟩
    simp at whole

/-- A worker that is ready takes part. -/
theorem count_ready_le (workers : List Phase) :
    workers.count .ready ≤ activeAmong workers := by
  refine List.countP_mono_left fun phase _ ready => ?_
  rw [eq_of_beq ready]
  rfl

/-- At most one worker takes part. -/
theorem Orderly.active_le {history : List Event} {site : Site} (orderly : Orderly history site) :
    site.active ≤ 1 := by
  rw [orderly.active_eq]
  split <;> omega

/-- While a rebuild runs, no worker is ready for another. -/
theorem Orderly.count_ready {history : List Event} {schedule : Schedule} {before after : List Phase}
    (orderly : Orderly history ⟨schedule, before ++ .rebuilding :: after⟩) :
    (before ++ .rebuilding :: after).count .ready = 0 := by
  have alone := orderly.active_le
  have ready := count_ready_le (before ++ after)
  simp only [Site.active, activeAmong_middle, Phase.isActive_rebuilding, if_true] at alone
  rw [List.count_append, List.count_cons_of_ne (by decide), ← List.count_append]
  omega

theorem Orderly.step {history : List Event} {event : Event} {site next : Site}
    (orderly : Orderly history site) (step : Step site event next) :
    Orderly (history ++ [event]) next := by
  have ⟨active, running, due⟩ := orderly
  cases step with
  | start answer =>
      obtain ⟨idle, rfl⟩ := Schedule.request_eq_true answer
      refine ⟨?_, fun _ => rfl, fun _ => ?_⟩
      · simpa [Site.active, idle] using active
      · simp only [Site.due, List.count_cons_self]
        omega
  | queue answer =>
      obtain ⟨busy, rfl⟩ := Schedule.request_eq_false answer
      exact ⟨active, fun _ => busy, fun _ => by simp [Site.due]⟩
  | begin before after =>
      refine ⟨?_, running, fun unserved => absurd rfl unserved.of_concat.1⟩
      simpa [Site.active] using active
  | again before after answer =>
      obtain ⟨wanted, rfl⟩ := Schedule.finish_eq_true answer
      refine ⟨?_, by simp, fun _ => ?_⟩
      · simpa [Site.active] using active
      · simp only [Site.due, List.count_append, List.count_cons_self]
        omega
  | stop before after answer =>
      obtain ⟨unwanted, rfl⟩ := Schedule.finish_eq_false answer
      have nothing_due := orderly.count_ready
      refine ⟨?_, by simp [unwanted], fun unserved => ?_⟩
      · have alone := orderly.active_le
        simp [Site.active] at alone ⊢
        omega
      · obtain ⟨-, requested | earlier⟩ := unserved.of_concat
        · cases requested
        · have := due earlier
          simp [Site.due, nothing_due, unwanted] at this
  | leave before after =>
      refine ⟨?_, running, fun unserved => ?_⟩
      · simpa [Site.active] using active
      · obtain ⟨-, requested | earlier⟩ := unserved.of_concat
        · cases requested
        · simpa [Site.due] using due earlier

/-- Every run from a new schedule keeps order. -/
theorem Run.orderly {history : List Event} {site : Site} (run : Run {} history site) :
    Orderly history site := by
  induction run with
  | refl => exact .initial
  | step _ step ih => exact ih.step step

/-! ## Counting rebuilds -/

/-- Only the beginning of a rebuild takes from what is due. -/
theorem Step.due_le {site next : Site} {event : Event} (step : Step site event next) :
    site.due ≤ next.due + [event].count .began := by
  cases step with
  | start answer =>
      obtain ⟨-, rfl⟩ := Schedule.request_eq_true answer
      simp [Site.due]
  | queue answer =>
      obtain ⟨-, rfl⟩ := Schedule.request_eq_false answer
      simp only [Site.due]
      split <;> simp
  | begin before after => simp [Site.due]; omega
  | again before after answer =>
      obtain ⟨wanted, rfl⟩ := Schedule.finish_eq_true answer
      grind [Site.due]
  | stop before after answer =>
      obtain ⟨-, rfl⟩ := Schedule.finish_eq_false answer
      simp [Site.due]
  | leave before after => simp [Site.due]

/-- A request adds at most one rebuild to what is due, and nothing else adds any. -/
theorem Step.began_le {site next : Site} {event : Event} (step : Step site event next) :
    [event].count .began + next.due ≤ site.due + [event].count .requested := by
  cases step with
  | start answer =>
      obtain ⟨-, rfl⟩ := Schedule.request_eq_true answer
      simp [Site.due]; omega
  | queue answer =>
      obtain ⟨-, rfl⟩ := Schedule.request_eq_false answer
      simp [Site.due]
  | begin before after => simp [Site.due]; omega
  | again before after answer =>
      obtain ⟨wanted, rfl⟩ := Schedule.finish_eq_true answer
      simp [Site.due, wanted]; omega
  | stop before after answer =>
      obtain ⟨-, rfl⟩ := Schedule.finish_eq_false answer
      simp [Site.due]
  | leave before after => simp [Site.due]

theorem Run.due_le {start site : Site} {history : List Event} (run : Run start history site) :
    start.due ≤ site.due + history.count .began := by
  induction run with
  | refl => simp
  | step _ step ih =>
      have := step.due_le
      rw [List.count_append]
      omega

theorem Run.began_le {start site : Site} {history : List Event} (run : Run start history site) :
    history.count .began + site.due ≤ start.due + history.count .requested := by
  induction run with
  | refl => simp
  | step _ step ih =>
      have := step.began_le
      rw [List.count_append, List.count_append]
      omega

/-- Where nobody takes part nothing is due. -/
theorem Orderly.due_eq_zero {history : List Event} {site : Site} (orderly : Orderly history site)
    (rest : site.active = 0) : site.due = 0 := by
  have none_ready : site.workers.count .ready = 0 :=
    Nat.le_zero.mp (rest ▸ count_ready_le site.workers)
  have unwanted : site.schedule.pending = false := by
    by_contra wanted
    have busy := orderly.running_of_pending (by simpa using wanted)
    have := orderly.active_eq
    simp [busy, rest] at this
  simp [Site.due, none_ready, unwanted]

/-- After a rebuild with a request in it, exactly one rebuild is due. -/
theorem Run.due_after_rebuild {earlier during : List Event} {site next : Site}
    (run : Run {} (earlier ++ .began :: during) site) (step : Step site .finished next)
    (requested : .requested ∈ during) (one : .began ∉ during) : next.due = 1 := by
  have orderly := run.orderly
  have due : 0 < site.due := by
    obtain ⟨before, after, rfl⟩ := List.append_of_mem requested
    refine orderly.due_of_unserved ⟨earlier ++ .began :: before, after, by simp, fun began => ?_⟩
    exact one (List.mem_append_right _ (List.mem_cons_of_mem _ began))
  cases step with
  | again before after answer =>
      obtain ⟨-, rfl⟩ := Schedule.finish_eq_true answer
      have none_ready := orderly.count_ready
      simp [Site.due] at none_ready ⊢
      omega
  | stop before after answer =>
      obtain ⟨unwanted, rfl⟩ := Schedule.finish_eq_false answer
      simp [Site.due, orderly.count_ready, unwanted] at due

/-- The rebuilds that begin after a rebuild with a request in it, once the workers are
at rest: one, and at most one more for each later request. -/
theorem Run.count_began_after {earlier during later : List Event} {site : Site}
    (run : Run {} (earlier ++ .began :: during ++ .finished :: later) site)
    (requested : .requested ∈ during) (one : .began ∉ during) (rest : site.active = 0) :
    1 ≤ later.count .began ∧ later.count .began ≤ 1 + later.count .requested := by
  have nothing_due := run.orderly.due_eq_zero rest
  rw [List.append_cons (earlier ++ .began :: during)] at run
  obtain ⟨between, first, second⟩ := run.split
  obtain ⟨before, until_end, last⟩ := first.split
  have one_due := until_end.due_after_rebuild last.single requested one
  have := second.due_le
  have := second.began_le
  omega

/-! ## The main result -/

/-- **However requests and workers interleave, no request is lost and no two rebuilds
overlap.** What is pending is behind what runs; the schedule is running exactly while one
worker takes part, and there is never another; once no worker takes part, a rebuild has
begun after each request. The requests during one rebuild, however many there are, lead
to exactly one more: unless further requests come, one rebuild begins behind it before
the worker stops. -/
theorem requests_served_by_one_worker {history : List Event} {site : Site}
    (run : Run {} history site) :
    (site.schedule.pending = true → site.schedule.running = true) ∧
    (site.schedule.running = true ↔ site.active = 1) ∧ site.active ≤ 1 ∧
    (site.active = 0 → ∀ earlier later, history = earlier ++ .requested :: later →
      .began ∈ later) ∧
    (site.active = 0 → ∀ earlier during later,
      history = earlier ++ .began :: during ++ .finished :: later →
      .requested ∈ during → .began ∉ during →
      1 ≤ later.count .began ∧ later.count .began ≤ 1 + later.count .requested) := by
  have orderly := run.orderly
  refine ⟨orderly.running_of_pending, ?_, orderly.active_le, ?_, ?_⟩
  · rw [orderly.active_eq]
    cases site.schedule.running <;> simp
  · intro rest earlier later whole
    by_contra forgotten
    have due := orderly.due_of_unserved ⟨earlier, later, whole, forgotten⟩
    exact absurd (orderly.due_eq_zero rest) (Nat.ne_of_gt due)
  · rintro rest earlier during later rfl requested one
    exact run.count_began_after requested one rest

/-- Two requests during one rebuild: one more rebuild, then the worker is told to stop. -/
theorem requests_served_after_two :
    Run {} [.requested, .began, .requested, .requested, .finished, .began, .finished]
        ⟨{}, [.leaving]⟩ ∧
      Site.active ⟨{}, [.leaving]⟩ = 0 ∧
      1 ≤ [Event.began, .finished].count .began ∧
      [Event.began, .finished].count .began ≤ 1 + [Event.began, .finished].count .requested := by
  have started : Run {} [.requested, .began] ⟨⟨true, false⟩, [.rebuilding]⟩ :=
    (Run.refl.step (.start rfl)).step (.begin [] [])
  have asked : Run {} [.requested, .began, .requested, .requested]
      ⟨⟨true, true⟩, [.rebuilding]⟩ :=
    (started.step (.queue rfl)).step (.queue rfl)
  have ended : Run {} [.requested, .began, .requested, .requested, .finished, .began, .finished]
      ⟨{}, [.leaving]⟩ :=
    ((asked.step (.again [] [] rfl)).step (.begin [] [])).step (.stop [] [] rfl)
  obtain ⟨-, -, -, -, coalesced⟩ := requests_served_by_one_worker ended
  exact ⟨ended, rfl, coalesced rfl [.requested] [.requested, .requested] [.began, .finished] rfl
    (by decide) (by decide)⟩

end SlideDeck.Build

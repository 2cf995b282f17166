import Lintel.Review.Talk

/-!
# Schedules

Many talks with one model go on at once, but only in so many places; each has to end within a time of its
own, and all of them within a common time (`Bounds`). Talks take their places in order, and a place that
becomes free goes to the next talk. `Schedule.run` plays them all: at any moment the talk that wakes first
goes on (`Schedule.step`), and one that reaches its deadline is given up.
-/

namespace Lintel.Review

/-- How many talks go on at once, and how long each and all of them may take. -/
structure Bounds where
  places : Int
  each : Seconds
  whole : Seconds

/-- A talk in its place: it goes on when it wakes, unless that is too late. -/
structure Job (α : Type) where
  index : Nat
  allowed : Seconds
  deadline : Seconds
  wakes : Seconds
  turn : Nat
  rest : Talk α

/-- How a talk ended: with a value, or given up after the time that it was allowed, or never begun. -/
inductive Finish (α : Type) where
  | value (a : α)
  | timedOut (allowed : Seconds)
  | tooLate

namespace Job

variable {α : Type}

/-- The talk does not wake before its deadline. -/
def isLate (job : Job α) : Bool := !decide (job.wakes < job.deadline)

/-- The moment when something happens to the talk. -/
def moment (job : Job α) : Seconds := if job.isLate then job.deadline else job.wakes

/-- Something happens to the first talk before the second. -/
def isBefore (a b : Job α) : Bool :=
  if a.moment < b.moment then true
  else if b.moment < a.moment then false
  else a.turn < b.turn

/-- The earlier of two talks. -/
def earlier (a b : Job α) : Job α := if b.isBefore a then b else a

end Job

/-- The state of many talks: those that wait for a place, those in their places, those that ended, and
the messages of all calls so far, the last one first. -/
structure Schedule (σ α : Type) where
  clock : Seconds
  memory : σ
  waiting : List (Nat × Talk α)
  running : List (Job α) := []
  ended : List (Nat × Finish α) := []
  calls : List (List Message) := []
  turn : Nat := 0

namespace Schedule

variable {σ α : Type}

/-- Notes how a talk ended. -/
def finish (schedule : Schedule σ α) (index : Nat) (finish : Finish α) : Schedule σ α :=
  { schedule with ended := (index, finish) :: schedule.ended }

/-- Gives a place to a talk; one that would begin after the common time never begins. -/
def begin (bounds : Bounds) (schedule : Schedule σ α) (index : Nat) (talk : Talk α) :
    Schedule σ α :=
  let remaining := bounds.whole.sub schedule.clock
  if Seconds.zero < remaining then
    let allowed := bounds.each.least remaining
    let deadline := schedule.clock + allowed
    let job : Job α := ⟨index, allowed, deadline, schedule.clock, schedule.turn, talk⟩
    { schedule with running := schedule.running ++ [job], turn := schedule.turn + 1 }
  else schedule.finish index .tooLate

/-- Gives the free places to talks that wait. -/
def fillFrom (bounds : Bounds) (schedule : Schedule σ α) : List (Nat × Talk α) → Schedule σ α
  | [] => { schedule with waiting := [] }
  | (index, talk) :: rest =>
    if schedule.running.length < bounds.places then
      fillFrom bounds (schedule.begin bounds index talk) rest
    else { schedule with waiting := (index, talk) :: rest }

/-- Gives the free places to the talks that wait. -/
def fill (bounds : Bounds) (schedule : Schedule σ α) : Schedule σ α :=
  schedule.fillFrom bounds schedule.waiting

/-- The talk to which something happens first. -/
def first? : List (Job α) → Option (Job α)
  | [] => none
  | job :: jobs => some (jobs.foldl Job.earlier job)

/-- A talk leaves its place. -/
def leave (bounds : Bounds) (schedule : Schedule σ α) (job : Job α) (finish : Finish α) :
    Schedule σ α :=
  let running := schedule.running.filter (·.index != job.index)
  (({ schedule with running }).finish job.index finish).fill bounds

/-- A talk goes on with `rest` after a delay. -/
def goOn (schedule : Schedule σ α) (job : Job α) (delay : Seconds) (rest : Talk α) :
    Schedule σ α :=
  let next := { job with wakes := schedule.clock.after delay, turn := schedule.turn, rest }
  let running := schedule.running.map fun j => if j.index == job.index then next else j
  { schedule with running, turn := schedule.turn + 1 }

/-- What happens to a talk at its moment. -/
def advance (bounds : Bounds) (model : Talk.Model σ) (schedule : Schedule σ α) (job : Job α) :
    Schedule σ α :=
  let schedule := { schedule with clock := job.moment }
  if job.isLate then schedule.leave bounds job (.timedOut job.allowed)
  else
    match job.rest with
    | .done value => schedule.leave bounds job (.value value)
    | .wait delay rest => schedule.goOn job delay rest
    | .ask messages next =>
      let (memory, delay, reply) := model schedule.memory messages
      let schedule := { schedule with memory, calls := messages :: schedule.calls }
      schedule.goOn job delay (next reply)

/-- The next thing that happens, if a talk goes on. -/
def step? (bounds : Bounds) (model : Talk.Model σ) (schedule : Schedule σ α) :
    Option (Schedule σ α) :=
  (first? schedule.running).map (schedule.advance bounds model)

/-- Goes on until all talks have ended, for at most a number of steps. -/
def runFor (bounds : Bounds) (model : Talk.Model σ) : Nat → Schedule σ α → Schedule σ α
  | 0, schedule => schedule
  | steps + 1, schedule =>
    match schedule.step? bounds model with
    | some next => runFor bounds model steps next
    | none => schedule

/-- Plays talks, none of which goes on for more than `longest` steps. -/
def run (bounds : Bounds) (model : Talk.Model σ) (memory : σ) (longest : Nat)
    (talks : List (Talk α)) : Schedule σ α :=
  let waiting := talks.zipIdx.map fun (talk, index) => (index, talk)
  let start : Schedule σ α := { clock := Seconds.zero, memory, waiting }
  runFor bounds model (talks.length * (longest + 1)) (start.fill bounds)

/-- How the talk with an index ended. -/
def finish? (schedule : Schedule σ α) (index : Nat) : Option (Finish α) :=
  (schedule.ended.find? (·.1 == index)).map (·.2)

end Schedule

end Lintel.Review

import Stellabill.Outbox

/-!
The outbox dispatcher: one drain loop for every publisher, each taking a batch of
events above its publisher's high-water mark and publishing them one by one. The
loops share the tables and interleave freely; a repository call is one step.
-/
namespace Stellabill.Dispatcher
open Keyed Transitions Uuid Outbox Function

/-- The publisher the dispatcher is started with, as far as `Start` looks at it. -/
inductive Publisher
  | multi (count : Nat) | console | http | other
  deriving DecidableEq, Repr

/-- `Config`, with `pow n` the whole part of `RetryBackoffFactor` to the `n`. -/
structure Config where
  publisher : Publisher
  batchSize : Int
  maxRetries : Int
  pow : Int → Int

variable (cfg : Config)
def publisherNames : List String :=
  match cfg.publisher with
  | .multi count => ((List.range count).map (fun i => "publisher-" ++ toString i)).insertionSort (fun a b => a ≤ b)
  | .console => ["console"]
  | .http => ["http"]
  | .other => ["default"]
/-- The wait after the `failCount`-th failure in a row, between a second and an hour. -/
def backoff (failCount : Int) : Time := max 1 (min 3600 (cfg.pow failCount)) * 1000000000

/-- What comes of a `Publish`: success, an error that `IsPermanentPublishError` reports, another error, or the timeout. -/
inductive Outcome
  | success | permanent (message : String) | transient (message : String) | timeout
  deriving DecidableEq, Repr

/-- Where a drain loop stands: waiting, or about to publish, to acknowledge or to mark as failed, or ended. -/
inductive Loop
  | idle
  | draining (event : Event) (rest : List Event)
  | acking (event : Event) (rest : List Event)
  | failing (event : Event) (message : String) (rest : List Event)
  | stopped
  deriving DecidableEq

def Loop.proceed : List Event → Loop
  | [] => .idle
  | event :: rest => .draining event rest

/-- The tables, the dispatcher, and the successful publishes; `orphans` are those that outlived their timeout. -/
structure State where
  db : Tables
  cancelled : Bool
  loops : String → Loop
  publisherFailCount : String → Int
  publisherNextAttempt : String → Option Time
  orphans : List (String × UUID)
  published : List (String × UUID)

def init : State where
  db := .empty
  cancelled := false
  loops name := if name ∈ publisherNames cfg then .idle else .stopped
  publisherFailCount _ := 0
  publisherNextAttempt _ := none
  orphans := []
  published := []

/-- The steps of the dispatcher and around it: callers store, requeue and mark events; cleanup; the drain loops; `Stop`
    and `Start`. -/
inductive Action
  | store (event : Event)
  | requeue (id : UUID) (now : Time)
  | markPublished (name : String) (event : Event) (publishers : List String) (now : Time)
  | cleanup (olderThan : Time)
  | tick (name : String) (reads : Bool) (now : Time)
  | publish (name : String) (outcome : Outcome) (now : Time)
  | acknowledge (name : String) (commits : Bool) (now : Time)
  | fail (name : String) (updates : Bool) (now : Time)
  | orphan (name : String) (id : UUID) (succeeds : Bool)
  | exit (name : String)
  | stop
  | start
  deriving DecidableEq

def State.goto (s : State) (name : String) (loop : Loop) : State := { s with loops := update s.loops name loop }

/-- `drainOnceForPublisher` up to the query: nothing while the publisher backs off or the query fails. -/
def fetch (s : State) (name : String) (reads : Bool) (now : Time) : State :=
  if ∃ at_ ∈ s.publisherNextAttempt name, now < at_ then s
  else if reads then
    match getPendingEventsForPublisher s.db name now cfg.batchSize with
    | none => s
    | some events => s.goto name (.proceed events)
  else s

/-- `handleDrainPublishError` for an error that is not permanent. -/
def retryLater (s : State) (name : String) (event : Event) (rest : List Event) (message : String)
    (now : Time) : State :=
  let failCount := s.publisherFailCount name + 1
  if failCount ≥ cfg.maxRetries then
    { s with
      publisherFailCount := update s.publisherFailCount name 0
      publisherNextAttempt := update s.publisherNextAttempt name none
      loops := update s.loops name (.failing event message rest) }
  else
    { s with
      publisherFailCount := update s.publisherFailCount name failCount
      publisherNextAttempt := update s.publisherNextAttempt name (some (now + backoff cfg failCount))
      loops := update s.loops name (.proceed rest) }

/-- One event of the batch: an error is final once the dispatcher is being stopped. -/
def publish (s : State) (name : String) (event : Event) (rest : List Event) (outcome : Outcome)
    (now : Time) : State :=
  match outcome with
  | .success =>
    { s with
      published := (name,event.id) :: s.published
      publisherFailCount := update s.publisherFailCount name 0
      publisherNextAttempt := update s.publisherNextAttempt name none
      loops := update s.loops name (.acking event rest) }
  | .permanent message =>
    if s.cancelled then s.goto name .idle else s.goto name (.failing event message rest)
  | .transient message =>
    if s.cancelled then s.goto name .idle else retryLater cfg s name event rest message now
  | .timeout =>
    let s := { s with orphans := (name,event.id) :: s.orphans }
    if s.cancelled then s.goto name .idle else retryLater cfg s name event rest "processing timeout" now

/-- One step, `none` where the code cannot take it; a refused INSERT and a failed call leave the tables as they are. -/
def step (s : State) : Action → Option State
  | .store event =>
    if event.status = .pending ∨ event.status = .failed then some { s with db := (store s.db event).getD s.db } else none
  | .requeue id now => some { s with db := requeueEvent s.db id now }
  | .markPublished name event publishers now =>
    some { s with db := markPublished s.db name event publishers now, published := (name,event.id) :: s.published }
  | .cleanup olderThan => some { s with db := deleteCompletedEvents s.db olderThan }
  | .tick name reads now => if s.loops name = .idle then some (fetch cfg s name reads now) else none
  | .publish name outcome now =>
    match s.loops name with
    | .draining event rest => some (publish cfg s name event rest outcome now)
    | _ => none
  | .acknowledge name commits now =>
    match s.loops name with
    | .acking event rest =>
      let db := if commits then markPublished s.db name event (publisherNames cfg) now else s.db
      some ({ s with db }.goto name (.proceed rest))
    | _ => none
  | .fail name updates now =>
    match s.loops name with
    | .failing event message rest =>
      let db := if updates then updateStatus s.db event.id .failed (some message) now else s.db
      some ({ s with db }.goto name (.proceed rest))
    | _ => none
  | .orphan name id succeeds =>
    if (name,id) ∈ s.orphans then
      some { s with
        orphans := s.orphans.erase (name,id)
        published := if succeeds then (name,id) :: s.published else s.published }
    else none
  | .exit name => if s.loops name = .idle ∧ s.cancelled then some (s.goto name .stopped) else none
  | .stop => if s.cancelled then none else some { s with cancelled := true }
  | .start =>
    if s.cancelled ∧ ∀ name ∈ publisherNames cfg, s.loops name = .stopped then
      some { s with
        cancelled := false
        loops := (init cfg).loops
        publisherFailCount := fun _ => 0
        publisherNextAttempt := fun _ => none }
    else none

end Stellabill.Dispatcher

import Mathlib.Logic.Function.Basic
import Stellabill.Subscriptions

/-!
The subscriptions behind a read-through cache. A find loads a row that the cache does
not have under the lock of its key; an update writes to the backend, deletes the two keys
of the row and records the instant, before which envelopes are stale. The accesses of all
calls interleave.
-/
namespace Stellabill.CachedSubscriptions
open Keyed Transitions Program Subscriptions Function

def cacheKey (id : String) : String := "sub:byid:" ++ id
def tenantCacheKey (id tenantID : String) : String := "sub:byidandtenant:" ++ id ++ ":" ++ tenantID
def keysOf (id tenantID : String) : List String := [cacheKey id,tenantCacheKey id tenantID]

structure Envelope where
  data : SubscriptionRow
  storedAt : Time
  deriving DecidableEq

inductive Query
  | byID (id : String)
  | byIDAndTenant (id tenantID : String)
  deriving DecidableEq

def Query.key : Query → String
  | .byID id => cacheKey id
  | .byIDAndTenant id tenantID => tenantCacheKey id tenantID
def Query.backend (rows : Rows) : Query → Option SubscriptionRow
  | .byID id => findByID rows id
  | .byIDAndTenant id tenantID => findByIDAndTenant rows id tenantID
theorem backend_some {rows : Rows} {q : Query} {row : SubscriptionRow} (found : q.backend rows = some row) :
    row ∈ rows ∧ q.key ∈ keysOf row.id row.tenantID := by
  cases q with
  | byID id =>
    obtain ⟨member,rfl⟩ := findByID_some.mp found
    exact ⟨member,by simp [Query.key,keysOf]⟩
  | byIDAndTenant id tenantID =>
    obtain ⟨member,rfl,rfl⟩ := findByIDAndTenant_some.mp found
    exact ⟨member,by simp [Query.key,keysOf]⟩

structure Update where
  id : String
  tenantID : String
  status : String
  deriving DecidableEq

def Update.About (u : Update) (row : SubscriptionRow) : Prop := u.id = row.id ∧ u.tenantID = row.tenantID
  deriving Decidable

/-- What is recorded of a run: the writes to the backend and the updates that returned nil, with their calls. -/
inductive Event
  | wrote (call : Nat) (u : Update)
  | returned (call : Nat) (u : Update)
  deriving DecidableEq

def lastWrite (row : SubscriptionRow) : List Event → Option (Nat × Update)
  | [] => none
  | .wrote call u :: rest => if u.About row then some (call,u) else lastWrite row rest
  | .returned _ _ :: rest => lastWrite row rest

/-- Where a find stands: a Get, the check of its envelope, the Delete of a stale one; and in `GetOrLoad` the first Get,
    the lock, the second Get, the load, the clock and the Set. -/
inductive FindStage
  | fastGet
  | fastCheck (env : Envelope)
  | staleGet
  | staleCheck (env : Envelope)
  | purge
  | guardGet
  | lock
  | recheck
  | load
  | stamp (row : SubscriptionRow)
  | set (env : Envelope)
  deriving DecidableEq

inductive UpdateStage
  | write
  | deleteKey
  | deleteTenantKey
  | clock
  | record (now : Time)
  deriving DecidableEq

/-- Where a call stands; a find keeps the record as it was when it began and when it returned. -/
inductive Phase
  | absent
  | finding (q : Query) (started : List Event) (stage : FindStage)
  | found (started ended : List Event) (row : SubscriptionRow)
  | updating (u : Update) (stage : UpdateStage)
  | updated (u : Update)
  | failed (error : String)
  deriving DecidableEq

/-- The clock, the backend, the cache, the instants of invalidation, the lock holders, the record, and the calls. -/
structure State where
  now : Time
  rows : Rows
  cache : String → Option Envelope
  invalidatedAt : String → Option Time
  holder : String → Option Nat
  log : List Event
  calls : Nat → Phase

def init (now : Time) (rows : Rows) : State :=
  ⟨now,rows,fun _ => none,fun _ => none,fun _ => none,[],fun _ => .absent⟩

/-- What a call does next: it begins, or makes one access, with what the outside answers. -/
inductive Op
  | find (q : Query)
  | updateStatus (u : Update)
  | get (answered : Bool)
  | isStale
  | delete (done : Bool)
  | lock
  | load (error : Option String)
  | clock
  | set (done : Bool)
  | write (reply : Reply)
  | record
  deriving DecidableEq

/-- The steps: time passes, an entry of the cache expires, and a call goes on. -/
inductive Action
  | advance (elapsed : Nat)
  | expire (key : String)
  | call (n : Nat) (op : Op)
  deriving DecidableEq

variable (s : State)
def State.goto (n : Nat) (phase : Phase) : State := { s with calls := update s.calls n phase }
def State.release (key : String) : State := { s with holder := update s.holder key none }
def State.remove (key : String) : State := { s with cache := update s.cache key none }
/-- `readEnvelope` and the Gets of `GetOrLoad`: a Get that fails is a miss. -/
def State.read (key : String) (answered : Bool) : Option Envelope := if answered then s.cache key else none
def State.isStale (key : String) (env : Envelope) : Bool := (s.invalidatedAt key).any (fun t => env.storedAt < t)

def findStep (n : Nat) (q : Query) (started : List Event) : FindStage → Op → Option State
  | .fastGet, .get answered =>
    match s.read q.key answered with
    | some env => some (s.goto n (.finding q started (.fastCheck env)))
    | none => some (s.goto n (.finding q started .staleGet))
  | .fastCheck env, .isStale =>
    if s.isStale q.key env then some (s.goto n (.finding q started .staleGet))
    else some (s.goto n (.found started s.log env.data))
  | .staleGet, .get answered =>
    match s.read q.key answered with
    | some env => some (s.goto n (.finding q started (.staleCheck env)))
    | none => some (s.goto n (.finding q started .guardGet))
  | .staleCheck env, .isStale =>
    if s.isStale q.key env then some (s.goto n (.finding q started .purge))
    else some (s.goto n (.finding q started .guardGet))
  | .purge, .delete done => some ((if done then s.remove q.key else s).goto n (.finding q started .guardGet))
  | .guardGet, .get answered =>
    -- not checked for staleness
    match s.read q.key answered with
    | some env => some (s.goto n (.found started s.log env.data))
    | none => some (s.goto n (.finding q started .lock))
  | .lock, .lock =>
    match s.holder q.key with
    | none => some ({ s with holder := update s.holder q.key (some n) }.goto n (.finding q started .recheck))
    | some _ => none
  | .recheck, .get answered =>
    match s.read q.key answered with
    | some env => some ((s.release q.key).goto n (.found started s.log env.data))
    | none => some (s.goto n (.finding q started .load))
  | .load, .load error =>
    match error, q.backend s.rows with
    | some message, _ => some ((s.release q.key).goto n (.failed message))
    | none, none => some ((s.release q.key).goto n (.failed "not found"))
    | none, some row => some (s.goto n (.finding q started (.stamp row)))
  | .stamp row, .clock => some (s.goto n (.finding q started (.set ⟨row,s.now⟩)))
  | .set env, .set done =>
    let stored := if done then { s with cache := update s.cache q.key (some env) } else s
    some ((stored.release q.key).goto n (.found started s.log env.data))
  | _, _ => none

def State.write (n : Nat) (u : Update) : State :=
  { s with rows := updateStatus s.rows u.id u.tenantID u.status s.now, log := .wrote n u :: s.log }
def updateStep (n : Nat) (u : Update) : UpdateStage → Op → Option State
  | .write, .write reply =>
    let affected := (findByIDAndTenant s.rows u.id u.tenantID).isSome
    let written := if reply.effective && affected then s.write n u else s
    match reply.error, affected with
    | some message, _ => some (written.goto n (.failed message))
    | none, false => some (written.goto n (.failed "not found"))
    | none, true => some (written.goto n (.updating u .deleteKey))
  | .deleteKey, .delete done =>
    some ((if done then s.remove (cacheKey u.id) else s).goto n (.updating u .deleteTenantKey))
  | .deleteTenantKey, .delete done =>
    some ((if done then s.remove (tenantCacheKey u.id u.tenantID) else s).goto n (.updating u .clock))
  | .clock, .clock => some (s.goto n (.updating u (.record s.now)))
  | .record now, .record =>
    let invalidatedAt := update (update s.invalidatedAt (cacheKey u.id) (some now))
      (tenantCacheKey u.id u.tenantID) (some now)
    some ({ s with invalidatedAt, log := .returned n u :: s.log }.goto n (.updated u))
  | _, _ => none

/-- One step; none where the call does not stand there or waits for a lock. -/
def step : Action → Option State
  | .advance elapsed => some { s with now := s.now+elapsed }
  | .expire key => some (s.remove key)
  | .call n op =>
    match s.calls n with
    | .absent =>
      match op with
      | .find q => some (s.goto n (.finding q s.log .fastGet))
      | .updateStatus u => some (s.goto n (.updating u .write))
      | _ => none
    | .finding q started stage => findStep s n q started stage op
    | .updating u stage => updateStep s n u stage op
    | _ => none

def Phase.loaded : Phase → Option SubscriptionRow
  | .finding _ _ (.stamp row) => some row
  | .finding _ _ (.set env) => some env.data
  | _ => none
/-- No find that holds the lock of a key of the row has already loaded it. -/
def Unloaded (u : Update) : Prop :=
  ∀ k ∈ keysOf u.id u.tenantID, ∀ m ∈ s.holder k, ∀ row ∈ (s.calls m).loaded, ¬ u.About row
  deriving Decidable
/-- No status is written while a find has loaded the row and not yet stored it, and the Deletes of an update take effect. -/
def Orderly : Action → Prop
  | .call n (.write reply) =>
    match s.calls n with
    | .updating u _ => reply.effective = true → Unloaded s u
    | _ => True
  | .call n (.delete done) =>
    match s.calls n with
    | .updating _ _ => done = true
    | _ => True
  | _ => True

instance (a : Action) : Decidable (Orderly s a) := by
  unfold Orderly
  split <;> try split
  all_goals infer_instance

end Stellabill.CachedSubscriptions

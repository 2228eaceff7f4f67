import Mathlib.Logic.Function.Basic
import Stellabill.ByteStrings
import Stellabill.Transitions

/-!
The idempotency middleware over its in-memory store. A mutating request reserves
its key, runs the handler, and then completes the reservation with the response
or removes it. The calls of the store interleave freely.
-/
namespace Stellabill.Idempotency
open ByteStrings Transitions Function

/-- A request as the middleware sees it: a missing header is empty, a body that cannot be read is an error. -/
structure Request where
  method : String
  path : String
  key : String
  tenantID : Option String
  callerID : Option String
  body : Except String Bytes

def Request.scope (r : Request) : String :=
  match r.tenantID, r.callerID with
  | some tenantID, some callerID => tenantID ++ ":" ++ callerID
  | some tenantID, none => tenantID ++ ":anonymous"
  | none, some callerID => "anonymous:" ++ callerID
  | none, none => "anonymous"

structure Entry where
  method : String
  path : String
  payloadHash : String
  statusCode : Int
  responseBody : Bytes
  createdAt : Time
  expiresAt : Time
  deriving DecidableEq

abbrev Store := String → Option Entry

def mapKey (scope key : String) : String := scope ++ "/" ++ key

structure Call where
  scope : String
  key : String
  method : String
  path : String
  payloadHash : String
  deriving DecidableEq

def Call.mapKey (call : Call) : String := Idempotency.mapKey call.scope call.key

/-- What `GetOrInsert` reports: the key is reserved, in flight, used for another request, or has a response. -/
inductive Lookup
  | reserved
  | inFlight
  | mismatch
  | replay (statusCode : Int) (responseBody : Bytes)
  deriving DecidableEq

def placeholder (call : Call) (ttl now : Time) : Entry :=
  ⟨call.method,call.path,call.payloadHash,0,[],now,now+ttl⟩
def Entry.lookup (entry : Entry) (call : Call) : Lookup :=
  if entry.statusCode = 0 then .inFlight
  else if entry.method ≠ call.method ∨ entry.path ≠ call.path ∨ entry.payloadHash ≠ call.payloadHash then .mismatch
  else .replay entry.statusCode entry.responseBody
def getOrInsert (store : Store) (call : Call) (ttl now : Time) : Store × Lookup :=
  match (store call.mapKey).filter (fun entry => ¬ now > entry.expiresAt) with
  | none => (update store call.mapKey (some (placeholder call ttl now)),.reserved)
  | some entry => (store,entry.lookup call)

variable {store : Store} {call : Call} {now : Time} {entry : Entry} {k : String}

theorem getOrInsert_free (ttl : Time) (free : (store call.mapKey).filter (fun entry => ¬ now > entry.expiresAt) = none) :
    getOrInsert store call ttl now = (update store call.mapKey (some (placeholder call ttl now)),.reserved) := by
  rw [getOrInsert,free]
theorem getOrInsert_taken (ttl : Time) (taken : (store call.mapKey).filter (fun entry => ¬ now > entry.expiresAt) = some entry) :
    getOrInsert store call ttl now = (store,entry.lookup call) := by
  rw [getOrInsert,taken]
theorem getOrInsert_other (store : Store) (call : Call) (ttl now : Time) (other : k ≠ call.mapKey) :
    (getOrInsert store call ttl now).1 k = store k := by
  unfold getOrInsert
  split
  · exact update_of_ne other ..
  · rfl
theorem lookup_ne_reserved (entry : Entry) (call : Call) : entry.lookup call ≠ .reserved := by
  unfold Entry.lookup
  split
  · simp
  · split <;> simp
theorem lookup_replay {statusCode : Int} {body : Bytes} (replays : entry.lookup call = .replay statusCode body) :
    entry.statusCode ≠ 0 ∧ entry.statusCode = statusCode ∧ entry.responseBody = body ∧ entry.method = call.method ∧
      entry.path = call.path ∧ entry.payloadHash = call.payloadHash := by
  unfold Entry.lookup at replays
  split at replays
  · cases replays
  · next final =>
    split at replays <;> cases replays
    next equal =>
    simp only [not_or,ne_eq,not_not] at equal
    exact ⟨final,rfl,rfl,equal⟩
def updateResponse (store : Store) (scope key : String) (statusCode : Int) (responseBody : Bytes) : Store :=
  match store (mapKey scope key) with
  | none => store
  | some entry => update store (mapKey scope key) (some { entry with statusCode, responseBody })
def delete (store : Store) (scope key : String) : Store := update store (mapKey scope key) none
/-- `DeleteExpiredBatch`, with the keys it comes to in the order of the map. -/
def deleteExpired (store : Store) (now : Time) (keys : List String) : Store :=
  fun k => if k ∈ keys then (store k).filter (fun entry => ¬ now > entry.expiresAt) else store k

/-! ### The middleware -/

def defaultIdempotencyTTL : Time := 24*3600*1000000000

/-- The response: of the handler, a stored one, or of the middleware itself. -/
inductive Response
  | executed (statusCode : Int) (body : Bytes)
  | replayed (statusCode : Int) (body : Bytes)
  | refused (statusCode : Int) (error : String)
  deriving DecidableEq

/-- Where a request stands: before `GetOrInsert`, in the handler, before its response is stored, answered, answered
    without the store, cut off by a panic, or in a handler that needs no key. -/
inductive Phase
  | absent
  | checking (call : Call)
  | handling (call : Call)
  | storing (call : Call) (statusCode : Int) (body : Bytes)
  | answered (call : Call) (response : Response)
  | rejected (response : Response)
  | panicked (call : Call)
  | bypassing
  deriving DecidableEq

variable (hash : Bytes → String)
/-- The middleware up to `GetOrInsert`; `hash` is the SHA-256 of the body in hexadecimal. -/
def begin (r : Request) : Phase :=
  if r.method = "GET" ∨ r.method = "HEAD" ∨ r.method = "OPTIONS" then .bypassing
  else if r.key = "" then .rejected (.refused 400 "Idempotency-Key header is required")
  else if r.key.utf8ByteSize > 255 then .rejected (.refused 400 "Idempotency-Key is too long")
  else match r.body with
    | .error _ => .rejected (.refused 500 "failed to read request body")
    | .ok body => .checking ⟨r.scope,r.key,r.method,r.path,hash body⟩
theorem begin_cases (r : Request) :
    begin hash r = .bypassing ∨ (∃ response, begin hash r = .rejected response) ∨ ∃ call, begin hash r = .checking call := by
  unfold begin
  split
  · exact .inl rfl
  · split
    · exact .inr (.inl ⟨_,rfl⟩)
    · split
      · exact .inr (.inl ⟨_,rfl⟩)
      · split
        · exact .inr (.inl ⟨_,rfl⟩)
        · exact .inr (.inr ⟨_,rfl⟩)
def looked (call : Call) : Lookup → Phase
  | .reserved => .handling call
  | .inFlight => .answered call (.refused 409 "Concurrent request in progress")
  | .mismatch => .answered call (.refused 422 "Idempotency-Key reused with a different request")
  | .replay statusCode responseBody => .answered call (.replayed statusCode responseBody)
def Success (statusCode : Int) : Prop := 200 ≤ statusCode ∧ statusCode < 300
  deriving Decidable

/-- The clock, the store and the requests by their number; and when each key was first reserved. -/
structure State where
  now : Time
  store : Store
  requests : Nat → Phase
  firstReserved : String → Option Time

def init (now : Time) : State := ⟨now,fun _ => none,fun _ => .absent,fun _ => none⟩

/-- Time passes, a request arrives, looks its key up, its handler ends or panics, its response is stored, expired keys
    are removed. -/
inductive Action
  | advance (elapsed : Nat)
  | request (n : Nat) (r : Request)
  | check (n : Nat)
  | respond (n : Nat) (statusCode : Int) (body : Bytes)
  | panic (n : Nat)
  | store (n : Nat)
  | cleanup (keys : List String)

def State.goto (s : State) (n : Nat) (phase : Phase) : State := { s with requests := update s.requests n phase }

def check (s : State) (n : Nat) (call : Call) : State :=
  let (store,lookup) := getOrInsert s.store call defaultIdempotencyTTL s.now
  let firstReserved := if lookup = .reserved then
      update s.firstReserved call.mapKey ((s.firstReserved call.mapKey).or (some s.now))
    else s.firstReserved
  { s with store, firstReserved }.goto n (looked call lookup)
/-- The response of the handler is kept, or the key is freed for another attempt. -/
def keep (store : Store) (call : Call) (statusCode : Int) (body : Bytes) : Store :=
  if Success statusCode then updateResponse store call.scope call.key statusCode body else delete store call.scope call.key

theorem keep_other (store : Store) (call : Call) (statusCode : Int) (body : Bytes) (other : k ≠ call.mapKey) :
    keep store call statusCode body k = store k := by
  unfold keep updateResponse delete
  by_cases success : Success statusCode
  · rw [if_pos success]
    cases store (mapKey call.scope call.key) with
    | none => rfl
    | some entry => exact update_of_ne other ..
  · rw [if_neg success]
    exact update_of_ne other ..

def step (s : State) : Action → Option State
  | .advance elapsed => some { s with now := s.now+elapsed }
  | .request n r =>
    match s.requests n with
    | .absent => some (s.goto n (begin hash r))
    | _ => none
  | .check n =>
    match s.requests n with
    | .checking call => some (check s n call)
    | _ => none
  | .respond n statusCode body =>
    match s.requests n with
    | .handling call => some (s.goto n (.storing call statusCode body))
    | _ => none
  | .panic n =>
    match s.requests n with
    | .handling call => some (s.goto n (.panicked call))
    | _ => none
  | .store n =>
    match s.requests n with
    | .storing call statusCode body =>
      some ({ s with store := keep s.store call statusCode body }.goto n (.answered call (.executed statusCode body)))
    | _ => none
  | .cleanup keys => some { s with store := deleteExpired s.store s.now keys }

end Stellabill.Idempotency

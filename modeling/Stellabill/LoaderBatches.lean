import Mathlib.Data.List.Range
import Stellabill.RequestLoader

/-!
The loader of a request. Lookups of one tenant are collected and answered by one query, which is
made when a timer fires, when enough IDs are pending, or when `Dispatch` is called. Each section
that holds a lock is one step.
-/
namespace Stellabill.LoaderBatches
open Keyed Transitions Table List
open Subscriptions (SubscriptionRow)
open TenantExport (PlanRow)
open RequestLoader (foreignPlan RepoError result fetched findByIDsAndTenant Database Loader lookupPlan lookupSubscription loadPlan_eq loadSubscription_eq)

inductive Kind
  | plan | subscription
  deriving DecidableEq
abbrev Row : Kind → Type
  | .plan => PlanRow
  | .subscription => SubscriptionRow
def rowID : (kind : Kind) → Row kind → String
  | .plan => PlanRow.id
  | .subscription => SubscriptionRow.id

/-- The channels that wait for an ID; a channel is known by the number of the request that made it. -/
structure Entry where
  id : String
  channels : List Nat
abbrev Pending := Table Entry.id

structure Waiter where
  id : String
  channel : Nat
  deriving DecidableEq
def Pending.waiters (pending : Pending) : List Waiter := pending.rows.flatMap fun entry => entry.channels.map (Waiter.mk entry.id)
def Pending.append (pending : Pending) (id : String) (channel : Nat) : Pending :=
  pending.upsert ⟨id,((pending.find id).map Entry.channels).getD [] ++ [channel]⟩

inductive Timer
  | active | fired | stopped
  deriving DecidableEq
def Timer.stop : Timer → Timer
  | .active => .stopped
  | t => t

/-- `tenantPlanLoader` and `tenantSubLoader`, with all timers that it has started. -/
structure TenantLoader where
  kind : Kind
  tenantID : String
  pending : Pending
  timers : List Timer
  timer : Option Nat

/-- The section of `load` that holds the lock, with whether the caller is to dispatch. -/
def TenantLoader.register (maxBatch : Int) (tl : TenantLoader) (id : String) (channel : Nat) : TenantLoader × Bool :=
  let pending := tl.pending.append id channel
  let count := pending.rows.length
  let tl := if count = 1 then { tl with timers := tl.timers ++ [.active], timer := some tl.timers.length } else tl
  ({ tl with pending },maxBatch ≤ count)
/-- The section of `dispatch` that holds the lock, when something is pending. -/
def TenantLoader.take (tl : TenantLoader) : TenantLoader :=
  match tl.timer with
  | some n => { tl with pending := .empty, timers := tl.timers.modify n Timer.stop, timer := none }
  | none => { tl with pending := .empty }

inductive RepositoryCall
  | findByIDs | findByIDsAndTenant (tenantID : String)
  deriving DecidableEq
def batchCall : Kind → String → RepositoryCall
  | .plan,tenantID => if tenantID ≠ "" then .findByIDsAndTenant tenantID else .findByIDs
  | .subscription,tenantID => .findByIDsAndTenant tenantID

/-- A request that has been registered, with the tenant and the ID of its caller. -/
structure Request where
  kind : Kind
  tenantID : String
  id : String
  deriving DecidableEq
/-- A query; `after` is the number of requests that were registered before it was issued. -/
structure Issued where
  kind : Kind
  call : RepositoryCall
  ids : List String
  after : Nat
structure Query where
  issued : Issued
  reply : Except RepoError (List (Row issued.kind))
structure Message where
  channel : Nat
  kind : Kind
  result : Except RepoError (Row kind)

inductive Phase
  | lookup (request : Request)
  | register (loader : Nat) (request : Request)
  | about (loader : Nat)
  | taken (kind : Kind) (tenantID : String) (pending : Pending)
  | querying (issued : Issued) (pending : Pending)
  | sending (query : Query) (left : List Waiter)
  | done
/-- A goroutine, with the loaders that it has still to dispatch after the present one. -/
structure Thread where
  phase : Phase
  todo : List Nat

structure Listing where
  kind : Kind
  tenantID : String
  loader : Nat
def Listing.name (listing : Listing) : Kind × String := (listing.kind,listing.tenantID)

/-- The loaders and the maps that find them, the goroutines, and a record of requests, answered queries and results sent. -/
structure State where
  loaders : List TenantLoader
  directory : Table Listing.name
  threads : List Thread
  requests : List Request
  queries : List Query
  sent : List Message

def start : State := ⟨[],.empty,[],[],[],[]⟩

/-- How a goroutine goes on. IDs and answers come in any order; `answer` is what the repositories give at the moment. -/
inductive Move
  | lookup | register | take | issue (ids : List String) | reply (answer : (kind : Kind) → Except RepoError (List (Row kind)))
  | send (w : Waiter) | next

def getOrCreateLoader (s : State) (kind : Kind) (tenantID : String) : State × Nat :=
  match s.directory.find (kind,tenantID) with
  | some listing => (s,listing.loader)
  | none =>
    ({ s with loaders := s.loaders ++ [⟨kind,tenantID,.empty,[],none⟩], directory := s.directory.upsert ⟨kind,tenantID,s.loaders.length⟩ },
      s.loaders.length)

section
variable (maxBatch : Int)

/-- One step of a goroutine: the rest of the state, and the goroutine afterwards. -/
def advance (s : State) (thread : Thread) : Move → Option (State × Thread)
  | .lookup =>
    match thread.phase with
    | .lookup request =>
      let found := getOrCreateLoader s request.kind request.tenantID
      some (found.1,{ thread with phase := .register found.2 request })
    | _ => none
  | .register =>
    match thread.phase with
    | .register loader request => (s.loaders[loader]?).map fun tl =>
      let registered := tl.register maxBatch request.id s.requests.length
      ({ s with loaders := s.loaders.set loader registered.1, requests := s.requests ++ [request] },
        { thread with phase := if registered.2 then .about loader else .done })
    | _ => none
  | .take =>
    match thread.phase with
    | .about loader => (s.loaders[loader]?).map fun tl =>
      if tl.pending.rows = [] then (s,{ thread with phase := .done })
      else ({ s with loaders := s.loaders.set loader tl.take },{ thread with phase := .taken tl.kind tl.tenantID tl.pending })
    | _ => none
  | .issue ids =>
    match thread.phase with
    | .taken kind tenantID pending =>
      if ids.isPerm (pending.rows.map Entry.id) then
        some (s,{ thread with phase := .querying ⟨kind,batchCall kind tenantID,ids,s.requests.length⟩ pending })
      else none
    | _ => none
  | .reply answer =>
    match thread.phase with
    | .querying issued pending =>
      let query : Query := ⟨issued,answer issued.kind⟩
      some ({ s with queries := s.queries ++ [query] },{ thread with phase := .sending query pending.waiters })
    | _ => none
  | .send w =>
    match thread.phase with
    | .sending query left =>
      if w ∈ left then
        some ({ s with sent := s.sent ++ [⟨w.channel,query.issued.kind,result (rowID query.issued.kind) query.reply w.id⟩] },
          { thread with phase := .sending query (left.erase w) })
      else none
    | _ => none
  | .next =>
    match thread.phase,thread.todo with
    | .sending _ [],todo => some (s,⟨.done,todo⟩)
    | .done,loader :: todo => some (s,⟨.about loader,todo⟩)
    | _,_ => none

inductive Action
  | load (request : Request)
  | dispatch (plans subscriptions : List Nat)
  | fire (loader timer : Nat)
  | go (thread : Nat) (move : Move)

def State.loadersOf (s : State) (kind : Kind) : List Nat := (s.directory.rows.filter fun listing => listing.kind = kind).map Listing.loader

/-- `LoadPlan` and `LoadSubscription` begin, `Dispatch` collects the loaders, a timer fires, a goroutine goes on. -/
def step (s : State) : Action → Option State
  | .load request => some (if request.id = "" then s else { s with threads := s.threads ++ [⟨.lookup request,[]⟩] })
  | .dispatch plans subscriptions =>
    if plans.isPerm (s.loadersOf .plan) ∧ subscriptions.isPerm (s.loadersOf .subscription) then
      some { s with threads := s.threads ++ [⟨.done,plans ++ subscriptions⟩] }
    else none
  | .fire loader n =>
    (s.loaders[loader]?).bind fun tl =>
      if tl.timers[n]? = some .active then
        some { s with loaders := s.loaders.set loader { tl with timers := tl.timers.set n .fired }, threads := s.threads ++ [⟨.about loader,[]⟩] }
      else none
  | .go n move =>
    (s.threads[n]?).bind fun thread => (advance maxBatch s thread move).map fun after => { after.1 with threads := s.threads.set n after.2 }
end

inductive Goes (maxBatch : Int) (s : State) : Thread → State → Thread → Prop
  | lookup (request : Request) (todo : List Nat) : Goes maxBatch s ⟨.lookup request,todo⟩ (getOrCreateLoader s request.kind request.tenantID).1
      ⟨.register (getOrCreateLoader s request.kind request.tenantID).2 request,todo⟩
  | register {loader : Nat} (request : Request) (todo : List Nat) {tl : TenantLoader} (found : s.loaders[loader]? = some tl) :
    Goes maxBatch s ⟨.register loader request,todo⟩
      { s with loaders := s.loaders.set loader (tl.register maxBatch request.id s.requests.length).1, requests := s.requests ++ [request] }
      ⟨if (tl.register maxBatch request.id s.requests.length).2 then .about loader else .done,todo⟩
  | idle {loader : Nat} (todo : List Nat) {tl : TenantLoader} (found : s.loaders[loader]? = some tl) (nothing : tl.pending.rows = []) :
    Goes maxBatch s ⟨.about loader,todo⟩ s ⟨.done,todo⟩
  | take {loader : Nat} (todo : List Nat) {tl : TenantLoader} (found : s.loaders[loader]? = some tl) :
    Goes maxBatch s ⟨.about loader,todo⟩ { s with loaders := s.loaders.set loader tl.take } ⟨.taken tl.kind tl.tenantID tl.pending,todo⟩
  | issue (kind : Kind) (tenantID : String) (todo : List Nat) {ids : List String} {pending : Pending} (order : ids.Perm (pending.rows.map Entry.id)) :
    Goes maxBatch s ⟨.taken kind tenantID pending,todo⟩ s ⟨.querying ⟨kind,batchCall kind tenantID,ids,s.requests.length⟩ pending,todo⟩
  | reply (query : Query) (pending : Pending) (todo : List Nat) :
    Goes maxBatch s ⟨.querying query.issued pending,todo⟩ { s with queries := s.queries ++ [query] } ⟨.sending query pending.waiters,todo⟩
  | send (query : Query) (todo : List Nat) {left : List Waiter} {w : Waiter} (waits : w ∈ left) :
    Goes maxBatch s ⟨.sending query left,todo⟩
      { s with sent := s.sent ++ [⟨w.channel,query.issued.kind,result (rowID query.issued.kind) query.reply w.id⟩] }
      ⟨.sending query (left.erase w),todo⟩
  | finish (query : Query) (todo : List Nat) : Goes maxBatch s ⟨.sending query [],todo⟩ s ⟨.done,todo⟩
  | next (loader : Nat) (todo : List Nat) : Goes maxBatch s ⟨.done,loader :: todo⟩ s ⟨.about loader,todo⟩

section
variable {maxBatch : Int} {s t : State} {thread after : Thread}

theorem advance_goes {move : Move} (advanced : advance maxBatch s thread move = some (t,after)) : Goes maxBatch s thread t after := by
  obtain ⟨phase,todo⟩ := thread
  cases move with
  | lookup =>
    cases phase <;> cases advanced
    exact .lookup _ todo
  | register =>
    cases phase <;> try cases advanced
    obtain ⟨tl,found,is⟩ := Option.map_eq_some_iff.mp advanced
    cases is
    exact .register _ todo found
  | take =>
    cases phase <;> try cases advanced
    obtain ⟨tl,found,is⟩ := Option.map_eq_some_iff.mp advanced
    split at is <;> cases is
    next nothing => exact .idle todo found nothing
    next => exact .take todo found
  | issue ids =>
    cases phase <;> try cases advanced
    obtain ⟨order,is⟩ := guarded advanced
    cases is
    exact .issue _ _ todo (isPerm_iff.mp order)
  | reply answer =>
    cases phase <;> cases advanced
    exact .reply ⟨_,_⟩ _ todo
  | send w =>
    cases phase <;> try cases advanced
    obtain ⟨waits,is⟩ := guarded advanced
    cases is
    exact .send _ todo waits
  | next =>
    simp only [advance] at advanced
    split at advanced <;> cases advanced
    next => exact .finish _ _
    next => exact .next _ _

/-- The steps of the program: a goroutine begins, a timer fires, or a goroutine goes on. -/
inductive Steps (maxBatch : Int) (s : State) : State → Prop
  | refused : Steps maxBatch s s
  | load (request : Request) : Steps maxBatch s { s with threads := s.threads ++ [⟨.lookup request,[]⟩] }
  | dispatch (todo : List Nat) : Steps maxBatch s { s with threads := s.threads ++ [⟨.done,todo⟩] }
  | fire {loader n : Nat} {tl : TenantLoader} (found : s.loaders[loader]? = some tl) :
    Steps maxBatch s { s with
      loaders := s.loaders.set loader { tl with timers := tl.timers.set n .fired }, threads := s.threads ++ [⟨.about loader,[]⟩] }
  | go {n : Nat} {thread after : Thread} {t : State} (found : s.threads[n]? = some thread) (goes : Goes maxBatch s thread t after) :
    Steps maxBatch s { t with threads := s.threads.set n after }

theorem step_steps {a : Action} (stepped : step maxBatch s a = some t) : Steps maxBatch s t := by
  cases a with
  | load request =>
    cases stepped
    split
    · exact .refused
    · exact .load request
  | dispatch plans subscriptions =>
    obtain ⟨_,rfl⟩ := guarded stepped
    exact .dispatch _
  | fire loader n =>
    obtain ⟨tl,found,fired⟩ := Option.bind_eq_some_iff.mp stepped
    obtain ⟨_,rfl⟩ := guarded fired
    exact .fire found
  | go n move =>
    obtain ⟨thread,found,goes⟩ := Option.bind_eq_some_iff.mp stepped
    obtain ⟨after,advanced,is⟩ := Option.map_eq_some_iff.mp goes
    cases is
    exact .go found (advance_goes advanced)

/-! ### The map of what is pending -/

theorem rows_append {pending : Pending} {id : String} {channel : Nat} :
    (pending.append id channel).rows ≠ [] ∧ ((pending.append id channel).rows.length ≠ 1 → pending.rows ≠ []) := by
  unfold Pending.append
  constructor
  · simp [upsert]
  · rintro several rfl_
    apply several
    simp [upsert,rfl_]
theorem waiters_append (pending : Pending) (id : String) (channel : Nat) :
    (pending.append id channel).waiters.Perm (⟨id,channel⟩ :: pending.waiters) := by
  unfold Pending.append Pending.waiters
  cases found : pending.find id with
  | none =>
    have absent := pending.find_none.mp found
    rw [upsert_absent absent,flatMap_append]
    exact perm_append_singleton ..
  | some entry =>
    obtain ⟨member,rfl⟩ := pending.find_some.mp found
    have after := (upsert_delete pending ⟨entry.id,entry.channels ++ [channel]⟩).flatMap_right fun e : Entry => e.channels.map (Waiter.mk e.id)
    have before := (rows_delete member).flatMap_right fun e : Entry => e.channels.map (Waiter.mk e.id)
    refine after.trans ((List.Perm.trans ?_ (before.symm.cons _)))
    rw [flatMap_cons,map_append,append_assoc]
    exact perm_middle

variable {w : Waiter} {loader n : Nat} {tl : TenantLoader} {new : Thread} {phase : Phase} {threads : List Thread}

theorem mem_waiters {pending : Pending} (waits : w ∈ pending.waiters) : w.id ∈ pending.rows.map Entry.id := by
  obtain ⟨entry,member,listed⟩ := mem_flatMap.mp waits
  obtain ⟨channel,_,rfl⟩ := mem_map.mp listed
  exact mem_map.mpr ⟨entry,member,rfl⟩

def Pending.channels (pending : Pending) : List Nat := pending.waiters.map Waiter.channel
def Phase.held : Phase → List Nat
  | .taken _ _ pending | .querying _ pending => pending.channels
  | .sending _ left => left.map Waiter.channel
  | .lookup _ | .register _ _ | .about _ | .done => []
/-- The channels of all requests: pending, in the hands of a goroutine, or answered. -/
def State.pending (s : State) : List Nat := s.loaders.flatMap fun tl => tl.pending.channels
def State.held (s : State) : List Nat := s.threads.flatMap fun thread => thread.phase.held
def State.answered (s : State) : List Nat := s.sent.map Message.channel
/-- Each request has its channel in one place. -/
def Conserved (s : State) : Prop :=
  ∀ c, s.pending.count c+s.held.count c+s.answered.count c = if c < s.requests.length then 1 else 0

theorem count_set {A : Type} {l : List A} {i : Nat} {a : A} (found : l[i]? = some a) (b : A) (f : A → List Nat) (c : Nat) :
    ((l.set i b).flatMap f).count c+(f a).count c = (l.flatMap f).count c+(f b).count c := by
  induction l generalizing i with
  | nil => simp at found
  | cons x rest ih =>
    cases i with
    | zero =>
      cases found
      rw [set_cons_zero,flatMap_cons,flatMap_cons,count_append,count_append]
      omega
    | succ i =>
      have later := ih found
      rw [set_cons_succ,flatMap_cons,flatMap_cons,count_append,count_append]
      omega
theorem pending_set (found : s.loaders[loader]? = some tl) (tl' : TenantLoader) (c : Nat) :
    (State.pending { s with loaders := s.loaders.set loader tl' }).count c+tl.pending.channels.count c = s.pending.count c+tl'.pending.channels.count c :=
  count_set found tl' _ c
@[simp] theorem take_pending (tl : TenantLoader) : tl.take.pending = .empty := by
  unfold TenantLoader.take
  split <;> rfl
@[simp] theorem register_pending (tl : TenantLoader) (id : String) (channel : Nat) :
    (tl.register maxBatch id channel).1.pending = tl.pending.append id channel := rfl
private theorem pending_getOrCreate (kind : Kind) (tenantID : String) : (getOrCreateLoader s kind tenantID).1.pending = s.pending := by
  unfold getOrCreateLoader
  split
  · rfl
  · show flatMap _ (s.loaders ++ [_]) = _
    rw [flatMap_append]
    exact append_nil _
private theorem others_getOrCreate (s : State) (kind : Kind) (tenantID : String) :
    (getOrCreateLoader s kind tenantID).1.sent = s.sent ∧ (getOrCreateLoader s kind tenantID).1.requests = s.requests ∧
      (getOrCreateLoader s kind tenantID).1.queries = s.queries := by
  unfold getOrCreateLoader
  split <;> exact ⟨rfl,rfl,rfl⟩

theorem Goes.channels (goes : Goes maxBatch s thread t after) (c : Nat) :
    t.pending.count c+after.phase.held.count c+t.answered.count c+(if c < s.requests.length then 1 else 0) =
      s.pending.count c+thread.phase.held.count c+s.answered.count c+(if c < t.requests.length then 1 else 0) := by
  cases goes with
  | lookup request todo =>
    obtain ⟨sent,requests,_⟩ := others_getOrCreate s request.kind request.tenantID
    rw [pending_getOrCreate,State.answered,sent,requests]
    rfl
  | @register loader request todo tl found =>
    have moved := pending_set found (tl.register maxBatch request.id s.requests.length).1 c
    have added := ((waiters_append tl.pending request.id s.requests.length).map Waiter.channel).count_eq c
    have nothing : (if (tl.register maxBatch request.id s.requests.length).2 then Phase.about loader else .done).held = [] := by split <;> rfl
    have larger : (if c < s.requests.length+1 then 1 else 0) = (if c < s.requests.length then 1 else 0)+(if s.requests.length = c then 1 else 0) := by
      split_ifs <;> omega
    rw [register_pending] at moved
    rw [map_cons,count_cons] at added
    simp only [beq_iff_eq] at added
    simp only [nothing,length_append,length_singleton,larger]
    simp only [Pending.channels,State.pending,State.answered,Phase.held] at moved added ⊢
    omega
  | idle todo found nothing => rfl
  | @take loader todo tl found =>
    have moved := pending_set found tl.take c
    rw [take_pending] at moved
    simp only [State.pending,State.answered,Phase.held,Pending.channels,Pending.waiters,empty,flatMap_nil,map_nil,
      count_nil] at moved ⊢
    omega
  | issue | reply => rfl
  | @send query todo left w waits =>
    have one := ((perm_cons_erase waits).map Waiter.channel).count_eq c
    rw [map_cons,count_cons] at one
    simp only [State.pending,State.answered,Phase.held,map_append,map_cons,map_nil,count_append,count_singleton]
    omega
  | finish | next => rfl

private theorem held_begun (threads : List Thread) (nothing : new.phase.held = []) :
    ((threads ++ [new]).flatMap fun thread => thread.phase.held) = threads.flatMap fun thread => thread.phase.held := by
  rw [flatMap_append,flatMap_singleton,nothing,append_nil]
theorem Steps.conserved (steps : Steps maxBatch s t) (conserved : Conserved s) : Conserved t := by
  intro c
  have before := conserved c
  cases steps with
  | refused => exact before
  | load | dispatch =>
    rw [State.held,held_begun s.threads rfl]
    exact before
  | @fire loader n tl found =>
    have same := pending_set found { tl with timers := tl.timers.set n .fired } c
    rw [State.held,held_begun s.threads rfl]
    simp only [State.pending,State.held,State.answered] at before same ⊢
    omega
  | @go n thread after t found goes =>
    have moved := goes.channels c
    have held := count_set found after (fun thread => thread.phase.held) c
    simp only [State.pending,State.answered,State.held] at before moved held ⊢
    omega

/-- A timer that has not fired, or a goroutine that is about to dispatch. -/
def Awaited (s : State) (loader : Nat) (tl : TenantLoader) : Prop :=
  (∃ n, tl.timer = some n ∧ tl.timers[n]? = some .active) ∨ ∃ thread ∈ s.threads, thread.phase = .about loader
def Woken (s : State) : Prop := ∀ loader tl, s.loaders[loader]? = some tl → tl.pending.rows ≠ [] → Awaited s loader tl

theorem Awaited.more {loaders : List TenantLoader} (awaited : Awaited s loader tl) :
    Awaited { s with loaders, threads := s.threads ++ [new] } loader tl := by
  obtain timer | ⟨thread,member,about⟩ := awaited
  · exact .inl timer
  · exact .inr ⟨thread,mem_append_left _ member,about⟩
theorem fire_woken (woken : Woken s) :
    Woken { s with loaders := s.loaders.set loader { tl with timers := tl.timers.set n .fired }, threads := s.threads ++ [⟨.about loader,[]⟩] } := by
  intro loader' tl' found' some_
  by_cases same : loader = loader'
  · cases same
    exact .inr ⟨_,mem_append_right _ (mem_singleton_self _),rfl⟩
  · rw [getElem?_set_ne same] at found'
    exact (woken loader' tl' found' some_).more
theorem Awaited.go (awaited : Awaited s loader tl) (found : s.threads[n]? = some thread) (other : thread.phase ≠ .about loader) {u : State}
    (threads : u.threads = s.threads.set n after) : Awaited u loader tl := by
  obtain timer | ⟨thread',member,about⟩ := awaited
  · exact .inl timer
  · obtain ⟨n',found'⟩ := mem_iff_getElem?.mp member
    have different : n ≠ n' := by
      rintro rfl
      rw [found] at found'
      cases found'
      exact other about
    refine .inr ⟨thread',?_,about⟩
    rw [threads]
    exact mem_iff_getElem?.mpr ⟨n',by rw [getElem?_set_ne different,found']⟩

variable {request : Request} {kind : Kind} {tenantID : String} {tl' : TenantLoader} {requests : List Request}

private theorem register_awaited (awaited : tl.pending.rows ≠ [] → Awaited s loader tl) :
    Awaited s loader (tl.register maxBatch request.id s.requests.length).1 := by
  unfold TenantLoader.register
  by_cases first : (tl.pending.append request.id s.requests.length).rows.length = 1
  · simp only [first,↓reduceIte]
    exact .inl ⟨tl.timers.length,rfl,by simp⟩
  · simp only [first,↓reduceIte]
    exact awaited (rows_append.2 first)
theorem loaders_getOrCreate (found : (getOrCreateLoader s kind tenantID).1.loaders[loader]? = some tl) (some_ : tl.pending.rows ≠ []) :
    s.loaders[loader]? = some tl := by
  unfold getOrCreateLoader at found
  split at found
  · exact found
  · rw [getElem?_append] at found
    split at found
    · exact found
    · have new := mem_singleton.mp (mem_of_getElem? found)
      rw [new] at some_
      exact absurd rfl some_
theorem Goes.woken (goes : Goes maxBatch s thread t after) (found : s.threads[n]? = some thread) (woken : Woken s) :
    Woken { t with threads := s.threads.set n after } := by
  intro loader tl listed some_
  cases goes with
  | lookup request todo =>
    exact (woken loader tl (loaders_getOrCreate listed some_) some_).go found nofun rfl
  | @register changed request todo old known =>
    by_cases same : changed = loader
    · cases same
      rw [List.getElem?_set_self (List.getElem?_eq_some_iff.mp known).1] at listed
      cases listed
      exact (register_awaited (woken loader old known)).go found nofun rfl
    · rw [getElem?_set_ne same] at listed
      exact (woken loader tl listed some_).go found nofun rfl
  | @idle taken todo old known nothing =>
    refine (woken loader tl listed some_).go found ?_ rfl
    rintro ⟨⟩
    rw [known] at listed
    cases listed
    exact some_ nothing
  | @take taken todo old known =>
    by_cases same : taken = loader
    · cases same
      rw [List.getElem?_set_self (List.getElem?_eq_some_iff.mp known).1] at listed
      cases listed
      rw [take_pending] at some_
      exact absurd rfl some_
    · rw [getElem?_set_ne same] at listed
      refine (woken loader tl listed some_).go found ?_ rfl
      rintro ⟨⟩
      exact same rfl
  | issue | reply | send | finish | next => exact (woken loader tl listed some_).go found nofun rfl
theorem Steps.woken (steps : Steps maxBatch s t) (woken : Woken s) : Woken t := by
  cases steps with
  | refused => exact woken
  | load | dispatch => exact fun loader tl found some_ => (woken loader tl found some_).more
  | fire found => exact fire_woken woken
  | go found goes => exact goes.woken found woken

/-! ### What is sent -/

/-- What a caller is to be sent for an ID, when a batch has come back. -/
inductive Answers {Row : Type} (key : Row → String) (id : String) : Except RepoError (List Row) → Except RepoError Row → Prop
  | failed (e : RepoError) : Answers key id (.error e) (.error e)
  | row {rows : List Row} {row : Row} (returned : row ∈ rows) (own : key row = id) : Answers key id (.ok rows) (.ok row)
  | notFound {rows : List Row} (missing : ∀ row ∈ rows, key row ≠ id) : Answers key id (.ok rows) (.error .notFound)

theorem result_answers {Row : Type} {key : Row → String} {reply : Except RepoError (List Row)} {id : String} :
    Answers key id reply (result key reply id) := by
  cases reply with
  | error e => exact .failed e
  | ok rows =>
    unfold result
    dsimp only
    cases found : rows.reverse.find? fun row => key row = id with
    | none =>
      refine .notFound fun row returned => ?_
      simpa using find?_eq_none.mp found row (mem_reverse.mpr returned)
    | some row =>
      refine .row (mem_reverse.mp (mem_of_find?_eq_some found)) ?_
      simpa using find?_some found

section
variable (s : State)
def Registered (kind : Kind) (tenantID : String) (w : Waiter) : Prop := s.requests[w.channel]? = some ⟨kind,tenantID,w.id⟩
/-- The query asks for the request, and was issued after it was registered. -/
def Asked (issued : Issued) (w : Waiter) : Prop :=
  ∃ tenantID, Registered s issued.kind tenantID w ∧ issued.call = batchCall issued.kind tenantID ∧ w.id ∈ issued.ids ∧ w.channel < issued.after
def Listed (loader : Nat) (kind : Kind) (tenantID : String) : Prop :=
  ∃ tl, s.loaders[loader]? = some tl ∧ tl.kind = kind ∧ tl.tenantID = tenantID
def Phase.Sound : Phase → Prop
  | .register loader request => Listed s loader request.kind request.tenantID
  | .taken kind tenantID pending => ∀ w ∈ pending.waiters, Registered s kind tenantID w
  | .querying issued pending => ∀ w ∈ pending.waiters, Asked s issued w
  | .sending query left => query ∈ s.queries ∧ ∀ w ∈ left, Asked s query.issued w
  | .lookup _ | .about _ | .done => True
def Told (m : Message) : Prop :=
  ∃ query ∈ s.queries, ∃ w res, Asked s query.issued w ∧ m = ⟨w.channel,query.issued.kind,res⟩ ∧ Answers (rowID query.issued.kind) w.id query.reply res

structure Sound (s : State) : Prop where
  listed : ∀ listing ∈ s.directory, Listed s listing.loader listing.kind listing.tenantID
  pending : ∀ tl ∈ s.loaders, ∀ w ∈ tl.pending.waiters, Registered s tl.kind tl.tenantID w
  threads : ∀ thread ∈ s.threads, thread.phase.Sound s
  messages : ∀ m ∈ s.sent, Told s m

structure Later (s t : State) : Prop where
  requests : s.requests <+: t.requests
  queries : s.queries ⊆ t.queries
  loaders : ∀ loader kind tenantID, Listed s loader kind tenantID → Listed t loader kind tenantID

theorem Later.refl : Later s s := ⟨prefix_refl _,List.Subset.refl _,fun _ _ _ listed => listed⟩
end
theorem Registered.later (later : Later s t) (registered : Registered s kind tenantID w) : Registered t kind tenantID w := by
  obtain ⟨more,is⟩ := later.requests
  unfold Registered at registered ⊢
  rw [← is,List.getElem?_append_left (List.getElem?_eq_some_iff.mp registered).1,registered]
theorem Asked.later {issued : Issued} (later : Later s t) (asked : Asked s issued w) : Asked t issued w := by
  obtain ⟨tenantID,registered,rest⟩ := asked
  exact ⟨tenantID,registered.later later,rest⟩
theorem Phase.Sound.later (later : Later s t) (sound : phase.Sound s) : phase.Sound t := by
  cases phase with
  | register loader request => exact later.loaders _ _ _ sound
  | taken | querying => exact fun w waits => (sound w waits).later later
  | sending query left => exact ⟨later.queries sound.1,fun w waits => (sound.2 w waits).later later⟩
  | lookup | about | done => trivial
theorem Told.later {m : Message} (later : Later s t) (told : Told s m) : Told t m := by
  obtain ⟨query,answered,w,res,asked,rest⟩ := told
  exact ⟨query,later.queries answered,w,res,asked.later later,rest⟩
theorem later_set (found : s.loaders[loader]? = some tl) (kind : tl'.kind = tl.kind) (tenant : tl'.tenantID = tl.tenantID)
    (more : s.requests <+: requests) :
    Later s { s with loaders := s.loaders.set loader tl', requests, threads } := by
  refine ⟨more,List.Subset.refl _,?_⟩
  rintro loader' _ _ ⟨old,found',rfl,rfl⟩
  by_cases same : loader = loader'
  · cases same
    rw [found] at found'
    cases found'
    exact ⟨tl',List.getElem?_set_self (List.getElem?_eq_some_iff.mp found).1,kind,tenant⟩
  · exact ⟨old,by rw [List.getElem?_set_ne same,found'],rfl,rfl⟩

structure Kept (s t : State) (phase : Phase) : Prop where
  later : Later s t
  listed : ∀ listing ∈ t.directory, Listed t listing.loader listing.kind listing.tenantID
  pending : ∀ tl ∈ t.loaders, ∀ w ∈ tl.pending.waiters, Registered t tl.kind tl.tenantID w
  phase : phase.Sound t
  messages : ∀ m ∈ t.sent, Told t m

section
variable (sound : Sound s)
include sound

theorem Sound.kept (its : phase.Sound s) : Kept s s phase := ⟨.refl s,sound.listed,sound.pending,its,sound.messages⟩
theorem getOrCreate_kept (request : Request) :
    Kept s (getOrCreateLoader s request.kind request.tenantID).1 (.register (getOrCreateLoader s request.kind request.tenantID).2 request) := by
  unfold getOrCreateLoader
  cases found : s.directory.find (request.kind,request.tenantID) with
  | some listing =>
    obtain ⟨member,name⟩ := s.directory.find_some.mp found
    obtain ⟨kind,tenant⟩ := Prod.mk.inj name
    have own := sound.listed listing member
    rw [kind,tenant] at own
    exact sound.kept own
  | none =>
    let t : State := { s with
      loaders := s.loaders ++ [⟨request.kind,request.tenantID,.empty,[],none⟩],
      directory := s.directory.upsert ⟨request.kind,request.tenantID,s.loaders.length⟩ }
    have later : Later s t := by
      refine ⟨prefix_refl _,List.Subset.refl _,?_⟩
      rintro loader _ _ ⟨tl,found,rfl,rfl⟩
      exact ⟨tl,by rw [List.getElem?_append_left (List.getElem?_eq_some_iff.mp found).1,found],rfl,rfl⟩
    have new : Listed t s.loaders.length request.kind request.tenantID := ⟨_,List.getElem?_concat_length,rfl,rfl⟩
    refine ⟨later,?_,?_,new,fun m member => (sound.messages m member).later later⟩
    · exact forall_upsert new fun listing member => later.loaders _ _ _ (sound.listed listing member)
    · intro tl member w waits
      obtain old | is := mem_append.mp member
      · exact (sound.pending tl old w waits).later later
      · cases mem_singleton.mp is
        cases waits
section
variable (found : s.loaders[loader]? = some tl)
include found
theorem set_kept (kind : tl'.kind = tl.kind) (tenant : tl'.tenantID = tl.tenantID)
    (more : s.requests <+: requests) (pending : ∀ w ∈ tl'.pending.waiters, requests[w.channel]? = some ⟨tl'.kind,tl'.tenantID,w.id⟩)
    (its : phase.Sound { s with loaders := s.loaders.set loader tl', requests, threads }) :
    Kept s { s with loaders := s.loaders.set loader tl', requests, threads } phase := by
  have later : Later s { s with loaders := s.loaders.set loader tl', requests, threads } := later_set found kind tenant more
  refine ⟨later,?_,?_,its,fun m member => (sound.messages m member).later later⟩
  · exact fun listing member => later.loaders _ _ _ (sound.listed listing member)
  · intro old member w waits
    obtain kept | rfl := mem_or_eq_of_mem_set member
    · exact (sound.pending old kept w waits).later later
    · exact pending w waits
private theorem register_kept (own : Listed s loader request.kind request.tenantID) (its : ∀ t, phase.Sound t) :
    Kept s { s with
      loaders := s.loaders.set loader (tl.register maxBatch request.id s.requests.length).1, requests := s.requests ++ [request] } phase := by
  obtain ⟨tl',found',kind,tenant⟩ := own
  rw [found] at found'
  cases found'
  have same : (tl.register maxBatch request.id s.requests.length).1.kind = tl.kind ∧
      (tl.register maxBatch request.id s.requests.length).1.tenantID = tl.tenantID := by
    unfold TenantLoader.register
    dsimp only
    split <;> exact ⟨rfl,rfl⟩
  refine set_kept sound found same.1 same.2 (prefix_append ..) ?_ (its _)
  intro w waits
  rw [same.1,same.2]
  obtain rfl | old := mem_cons.mp ((waiters_append ..).subset waits)
  · rw [kind,tenant]
    exact getElem?_concat_length
  · have registered := sound.pending tl (List.mem_of_getElem? found) w old
    rw [List.getElem?_append_left (List.getElem?_eq_some_iff.mp registered).1,registered]
private theorem take_kept :
    Kept s { s with loaders := s.loaders.set loader tl.take } (.taken tl.kind tl.tenantID tl.pending) := by
  have same : tl.take.kind = tl.kind ∧ tl.take.tenantID = tl.tenantID := by
    unfold TenantLoader.take
    split <;> exact ⟨rfl,rfl⟩
  refine set_kept sound found same.1 same.2 (prefix_refl _) ?_ (sound.pending tl (mem_of_getElem? found))
  intro w waits
  rw [take_pending] at waits
  cases waits
end
theorem Goes.kept (goes : Goes maxBatch s thread t after) (its : thread.phase.Sound s) : Kept s t after.phase := by
  cases goes with
  | lookup request todo => exact getOrCreate_kept sound request
  | register request todo found =>
    refine register_kept sound found its fun t => ?_
    split <;> trivial
  | idle todo found nothing => exact sound.kept trivial
  | take todo found => exact take_kept sound found
  | issue kind tenantID todo order =>
    refine sound.kept fun w waits => ⟨tenantID,its w waits,rfl,order.symm.subset (mem_waiters waits),?_⟩
    exact (List.getElem?_eq_some_iff.mp (its w waits)).1
  | reply query pending todo =>
    have later : Later s { s with queries := s.queries ++ [query] } := ⟨prefix_refl _,subset_append_left ..,fun _ _ _ listed => listed⟩
    exact ⟨later,sound.listed,sound.pending,⟨mem_append_right _ (mem_singleton_self _),its⟩,
      fun m member => (sound.messages m member).later later⟩
  | @send query todo left w waits =>
    have told : Told s ⟨w.channel,query.issued.kind,result (rowID query.issued.kind) query.reply w.id⟩ :=
      ⟨query,its.1,w,_,its.2 w waits,rfl,result_answers⟩
    refine ⟨⟨prefix_refl _,List.Subset.refl _,fun _ _ _ listed => listed⟩,sound.listed,sound.pending,
      ⟨its.1,fun w' waits' => its.2 w' (mem_of_mem_erase waits')⟩,?_⟩
    intro m member
    obtain old | is := mem_append.mp member
    · exact sound.messages m old
    · cases mem_singleton.mp is
      exact told
  | finish | next => exact sound.kept trivial
end

theorem Kept.sound (sound : Sound s) (kept : Kept s t phase) (phases : ∀ thread ∈ threads, thread ∈ s.threads ∨ thread.phase = phase) :
    Sound { t with threads } where
  listed := kept.listed
  pending := kept.pending
  threads := by
    intro thread member
    obtain old | is := phases thread member
    · exact ((sound.threads thread old).later kept.later).later ⟨prefix_refl _,List.Subset.refl _,fun _ _ _ listed => listed⟩
    · rw [is]
      exact kept.phase.later ⟨prefix_refl _,List.Subset.refl _,fun _ _ _ listed => listed⟩
  messages := kept.messages
private theorem phases_begun : ∀ thread ∈ threads ++ [new], thread ∈ threads ∨ thread.phase = new.phase := by
  intro thread member
  obtain old | is := mem_append.mp member
  · exact .inl old
  · exact .inr (congrArg Thread.phase (mem_singleton.mp is))
theorem Steps.sound (steps : Steps maxBatch s t) (sound : Sound s) : Sound t := by
  cases steps with
  | refused => exact sound
  | load request =>
    have kept : Kept s s (.lookup request) := sound.kept trivial
    exact kept.sound sound phases_begun
  | dispatch todo =>
    have kept : Kept s s .done := sound.kept trivial
    exact kept.sound sound phases_begun
  | @fire loader n tl found =>
    have pending := sound.pending tl (mem_of_getElem? found)
    have kept : Kept s { s with loaders := s.loaders.set loader { tl with timers := tl.timers.set n .fired } } (.about loader) := by
      refine set_kept sound found ?_ ?_ (prefix_refl _) ?_ ?_
      · rfl
      · rfl
      · exact pending
      · trivial
    exact kept.sound sound phases_begun
  | @go n thread after t found goes =>
    have kept := goes.kept sound (sound.threads thread (mem_of_getElem? found))
    refine kept.sound sound fun thread' member => ?_
    obtain old | is := mem_or_eq_of_mem_set member
    · exact .inl old
    · exact .inr (congrArg Thread.phase is)

end

theorem start_sound : Sound start := ⟨nofun,nofun,nofun,nofun⟩

/-- In every run, no channel is sent two results; a result is what the repository returned for the ID and tenant of the
    request in a query issued after it was registered; and what is pending has an active timer or a goroutine about to
    dispatch it. -/
theorem loads_answered (maxBatch : Int) (s : State) (run : Reach (step maxBatch) Any start s) : (s.sent.map Message.channel).Nodup ∧
      (∀ m ∈ s.sent, ∃ request query res, s.requests[m.channel]? = some request ∧ query ∈ s.queries ∧ m.channel < query.issued.after ∧
        query.issued.kind = request.kind ∧ query.issued.call = batchCall request.kind request.tenantID ∧ request.id ∈ query.issued.ids ∧
        m = ⟨m.channel,query.issued.kind,res⟩ ∧ Answers (rowID query.issued.kind) request.id query.reply res) ∧
      ∀ loader tl, s.loaders[loader]? = some tl → tl.pending.rows ≠ [] →
        (∃ n, tl.timer = some n ∧ tl.timers[n]? = some .active) ∨ ∃ thread ∈ s.threads, thread.phase = .about loader := by
  have conserved : Conserved s := run.invariant (fun _ => rfl) fun conserved _ stepped => (step_steps stepped).conserved conserved
  have woken : Woken s := run.invariant (by rintro _ _ ⟨⟩) fun woken _ stepped => (step_steps stepped).woken woken
  have sound : Sound s := run.invariant start_sound fun sound _ stepped => (step_steps stepped).sound sound
  refine ⟨nodup_iff_count_le_one.mpr fun c => ?_,?_,woken⟩
  · have once := conserved c
    rw [State.answered] at once
    split at once <;> omega
  · intro m member
    obtain ⟨query,answered,w,res,⟨tenantID,registered,call,listed,after⟩,rfl,answers⟩ := sound.messages m member
    exact ⟨_,query,res,registered,answered,after,rfl,call,listed,rfl,answers⟩

def halfway : (kind : Kind) → Except RepoError (List (Row kind))
  | .plan => .ok [⟨"basic","acme","Basic","10","EUR","month","",0,1⟩]
  | .subscription => .error (.failed "timeout")

/-- Two requests for a plan that start two timers, of which the first fires; both are answered by it. -/
theorem loads_answered_twice : ∃ s, Reach (step 2) Any start s ∧ s.sent.map Message.channel = [1,0] ∧ (s.sent.map Message.channel).Nodup := by
  let basic : Request := ⟨.plan,"acme","basic"⟩
  exact reach_seen [.load basic,.load basic,.go 0 .lookup,.go 1 .lookup,.go 0 .register,.go 1 .register,.fire 0 0,.go 2 .take,
    .go 2 (.issue ["basic"]),.go 2 (.reply halfway),.go 2 (.send ⟨"basic",1⟩),.go 2 (.send ⟨"basic",0⟩)] (by decide +kernel) (along_any _ _)
    (fun s run _ => (loads_answered 2 s run).1)

/-! ### One database -/

/-- `FindByIDs` is `FindByIDsAndTenant` for the empty tenant. -/
def RepositoryCall.tenantID : RepositoryCall → String
  | .findByIDs => ""
  | .findByIDsAndTenant tenantID => tenantID
section
variable (db : Database)
def ask (issued : Issued) : (kind : Kind) → Except RepoError (List (Row kind))
  | .plan => findByIDsAndTenant db.plans PlanRow.tenantID db.plansFault issued.call.tenantID issued.ids
  | .subscription => findByIDsAndTenant db.subscriptions SubscriptionRow.tenantID db.subscriptionsFault issued.call.tenantID issued.ids
/-- What the model of `GetDetail` takes `LoadPlan` and `LoadSubscription` to return. -/
def loaded (l : Loader) (request : Request) : (kind : Kind) → Except RepoError (Row kind)
  | .plan => lookupPlan db (some l) request.tenantID request.id
  | .subscription => lookupSubscription db (some l) request.tenantID request.id
end

/-- What is sent for an ID does not depend on the rest of the batch. -/
theorem answers_findByIDs {Row : Type} {key tenantOf : Row → String} (table : Table key) {fault : Option String} {tenantID id : String}
    {ids : List String} {res : Except RepoError Row} (asked : id ∈ ids)
    (answers : Answers key id (findByIDsAndTenant table tenantOf fault tenantID ids) res) :
    res = fetched fault ((table.find id).filter fun row => tenantID = "" ∨ tenantOf row = tenantID) := by
  unfold findByIDsAndTenant at answers
  rw [if_neg (ne_nil_of_mem asked)] at answers
  cases fault with
  | some message => cases answers; rfl
  | none =>
    cases answers with
    | row returned own =>
      obtain ⟨member,kept⟩ := mem_filter.mp returned
      rw [table.find_some.mpr ⟨member,own⟩,Option.filter_some,if_pos (decide_eq_true (of_decide_eq_true kept).2)]
      rfl
    | notFound missing =>
      cases found : table.find id with
      | none => rfl
      | some row =>
        obtain ⟨member,rfl⟩ := table.find_some.mp found
        have other : ¬ (tenantID = "" ∨ tenantOf row = tenantID) :=
          fun own => missing row (mem_filter.mpr ⟨member,by simp [asked,own]⟩) rfl
        rw [Option.filter_some,if_neg (by simpa using other)]
        rfl
private theorem batchCall_tenantID (kind : Kind) (tenantID : String) : (batchCall kind tenantID).tenantID = tenantID := by
  cases kind with
  | plan => by_cases all : tenantID = "" <;> simp [batchCall,all,RepositoryCall.tenantID]
  | subscription => rfl
/-- Where all queries are answered from one database, each result is the one that the loader is taken to give. -/
theorem run_served (db : Database) (l : Loader) (maxBatch : Int) (s : State) (run : Reach (step maxBatch) Any start s)
    (steady : ∀ query ∈ s.queries, query.reply = ask db query.issued query.issued.kind) :
    ∀ m ∈ s.sent, ∃ request, s.requests[m.channel]? = some request ∧ m.kind = request.kind ∧
      (request.id ≠ "" → m.result = loaded db l request m.kind) := by
  have sound : Sound s := run.invariant start_sound fun sound _ stepped => (step_steps stepped).sound sound
  intro m member
  obtain ⟨query,answered,w,res,⟨tenantID,registered,call,listed,_⟩,rfl,answers⟩ := sound.messages m member
  refine ⟨_,registered,rfl,fun given => ?_⟩
  rw [steady query answered] at answers
  obtain ⟨⟨kind,call',ids,after⟩,reply⟩ := query
  obtain rfl : call' = batchCall kind tenantID := call
  cases kind with
  | plan =>
    have found := answers_findByIDs db.plans listed answers
    rw [batchCall_tenantID] at found
    exact found.trans (loadPlan_eq given).symm
  | subscription => exact (answers_findByIDs db.subscriptions listed answers).trans (loadSubscription_eq given).symm
theorem run_served_globex : ∃ s, Reach (step 1) Any start s ∧ s.sent.map Message.channel = [0] ∧
    ∀ m ∈ s.sent, ∃ request, s.requests[m.channel]? = some request ∧ m.kind = request.kind ∧
      (request.id ≠ "" → m.result = loaded foreignPlan ⟨[],[]⟩ request m.kind) := by
  have run := run_any (show run (step 1) start [.load ⟨.plan,"globex","plan-1"⟩,.go 0 .lookup,.go 0 .register,.go 0 .take,.go 0 (.issue ["plan-1"]),
    .go 0 (.reply (ask foreignPlan ⟨.plan,batchCall .plan "globex",["plan-1"],1⟩)),.go 0 (.send ⟨"plan-1",0⟩)] = some _ from rfl)
  refine ⟨_,run,rfl,run_served foreignPlan ⟨[],[]⟩ 1 _ run ?_⟩
  rintro query (_ | ⟨_,⟨⟩⟩)
  rfl

end Stellabill.LoaderBatches

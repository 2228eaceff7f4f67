import Mathlib.Data.List.Dedup
import Stellabill.AdvisoryLocks
import Stellabill.ShardedDispatcher

/-!
Who owns a shard. The instances of the sharded dispatcher take an advisory lock for
every shard in a session of their own, keep the shards they got in memory, and go by
that list until a heartbeat finds the session dead.
-/
namespace Stellabill.ShardOwnership
open Keyed Transitions Uuid Outbox AdvisoryLocks ShardedDispatcher Function
open Dispatcher (Loop publisherNames)
open Program (Reply)

structure Config where
  dispatcher : ShardedDispatcher.Config
  ownedShards : List Int

/-- Where an instance stands: down, in `acquireShardLocks`, running, in `Stop` until the goroutines have ended, in
    `releaseAllLocks`, or left by a `Start` that failed. -/
inductive Phase
  | down
  | acquiring (rest : List Int)
  | running
  | stopping
  | releasing (rest : List Int) (failed : Bool)
  | broken
  deriving DecidableEq

/-- The keys of `ownedShards`, the session of `lockConn`, whether the heartbeat goes, and the drain loops, whose state
    has `ownedShardsList`. -/
structure Instance where
  phase : Phase
  ownedShards : List Int
  lockConn : Option Nat
  beating : Bool
  drains : ShardedDispatcher.State

def Instance.ownedShardsList (inst : Instance) : List Int := inst.drains.ownedShards

/-- The tables, the locks, the sessions that have ended, and the instances. -/
structure World (n : Nat) where
  db : Tables
  locks : Locks Int
  ended : Nat → Bool
  instances : Fin n → Instance

def newShardedDispatcher (cfg : Config) : Instance where
  phase := .down
  ownedShards := cfg.ownedShards.dedup
  lockConn := none
  beating := false
  drains :=
    { Dispatcher.init cfg.dispatcher.toConfig with
      cancelled := true
      loops := fun _ => .stopped
      ownedShards := cfg.ownedShards }
def init {n : Nat} (cfg : Fin n → Config) : World n where
  db := .empty
  locks _ := none
  ended _ := false
  instances i := newShardedDispatcher (cfg i)

/-- The tables change, a session ends, `Start` gets a session or none, asks for one lock, and goes on; a drain loop goes
    on; the heartbeat checks the session or ends; `Stop` is called, has waited, gives up one lock, and closes the
    connection. -/
inductive Action (n : Nat)
  | tables (db : Tables)
  | lose (session : Nat)
  | start (i : Fin n) (session : Option Nat)
  | acquire (i : Fin n) (reply : Reply)
  | launch (i : Fin n) (created : Bool)
  | drain (i : Fin n) (a : ShardedDispatcher.Action)
  | heartbeat (i : Fin n) (pings : Bool)
  | rest (i : Fin n)
  | stop (i : Fin n)
  | waited (i : Fin n)
  | release (i : Fin n) (reply : Reply)
  | close (i : Fin n)

variable {n : Nat}

section
variable (w : World n)
def World.set (i : Fin n) (inst : Instance) : World n := { w with instances := Function.update w.instances i inst }

def World.Free (session : Nat) : Prop := ∀ i, (w.instances i).lockConn ≠ some session
  deriving Decidable

/-- `acquireShardLocks` for one shard. An error ends `Start`, which closes the connection but not its session. -/
def acquire (i : Fin n) (shard : Int) (rest : List Int) (session : Nat) (reply : Reply) : World n :=
  let inst := w.instances i
  let granted := tryLock w.locks session shard
  match reply.error with
  | some _ => { w with locks := if reply.effective then granted.getD w.locks else w.locks }.set i { inst with phase := .broken, lockConn := none }
  | none =>
    match granted with
    | some locks => { w with locks }.set i { inst with phase := .acquiring rest }
    | none => w.set i { inst with phase := .acquiring rest, ownedShards := inst.ownedShards.filter (· ≠ shard) }
/-- `Start` after the locks: the list is built again, and the goroutines are started. -/
def launch (cfg : Config) (inst : Instance) (created : Bool) : Instance :=
  let ownedShardsList := inst.ownedShards.insertionSort (· ≤ ·)
  let drains := { inst.drains with ownedShards := ownedShardsList }
  if ownedShardsList.isEmpty then { inst with drains, phase := .broken, lockConn := none }
  else if created then
    let fresh := Dispatcher.init cfg.dispatcher.toConfig
    { inst with
      phase := .running
      beating := true
      drains := { drains with
        cancelled := false
        loops := fresh.loops
        publisherFailCount := fresh.publisherFailCount
        publisherNextAttempt := fresh.publisherNextAttempt } }
  else { inst with drains, phase := .releasing ownedShardsList true }
/-- The step is one of a drain loop, or of a `Publish` that nobody waits for. -/
def isDrain : ShardedDispatcher.Action → Bool
  | .tick .. | .publish .. | .acknowledge .. | .fail .. | .orphan .. | .exit _ => true
  | .store _ | .requeue .. | .cleanup _ | .heartbeat _ | .stop => false

def step (cfg : Fin n → Config) (w : World n) : Action n → Option (World n)
  | .tables db => some { w with db }
  | .lose session =>
    some { w with locks := endSession w.locks session, ended := Function.update w.ended session true }
  | .start i session =>
    let inst := w.instances i
    if inst.phase = .down then
      match session with
      | none => some (w.set i { inst with phase := .broken })
      | some session =>
        -- A new session, or one that the pool has back.
        if w.ended session = false ∧ w.Free session then
          some (w.set i { inst with phase := .acquiring inst.ownedShardsList, lockConn := some session })
        else none
    else none
  | .acquire i reply =>
    match (w.instances i).phase,(w.instances i).lockConn with
    | .acquiring (shard :: rest),some session =>
      if w.ended session ∧ reply.effective then none else some (acquire w i shard rest session reply)
    | _,_ => none
  | .launch i created =>
    if (w.instances i).phase = .acquiring [] then some (w.set i (launch (cfg i) (w.instances i) created)) else none
  | .drain i a =>
    if isDrain a then
      (ShardedDispatcher.step (cfg i).dispatcher { (w.instances i).drains with db := w.db } a).map
        (fun drains => { w with db := drains.db }.set i { w.instances i with drains })
    else none
  | .heartbeat i pings =>
    let inst := w.instances i
    if inst.beating then
      if pings then
        if inst.drains.cancelled = false ∧ inst.lockConn.all (fun session => !w.ended session) then some w else none
      else some (w.set i { inst with ownedShards := [], drains := { inst.drains with ownedShards := [] } })
    else none
  | .rest i =>
    let inst := w.instances i
    if inst.beating ∧ inst.drains.cancelled then some (w.set i { inst with beating := false }) else none
  | .stop i =>
    let inst := w.instances i
    match inst.phase with
    | .running => some (w.set i { inst with phase := .stopping, drains := { inst.drains with cancelled := true } })
    | .broken => some (w.set i { inst with phase := .down })
    | _ => none
  | .waited i =>
    let inst := w.instances i
    if inst.phase = .stopping ∧ (∀ name ∈ publisherNames (cfg i).dispatcher.toConfig, inst.drains.loops name = .stopped) ∧
        inst.beating = false then
      some (w.set i { inst with phase := .releasing inst.ownedShardsList false })
    else none
  | .release i reply =>
    match (w.instances i).phase,(w.instances i).lockConn with
    | .releasing (shard :: rest) failed,some session =>
      if w.ended session ∧ reply.effective then none
      else some ({ w with locks := if reply.effective then unlock w.locks session shard else w.locks }.set i
        { w.instances i with phase := .releasing rest failed })
    | _,_ => none
  | .close i =>
    match (w.instances i).phase with
    | .releasing [] failed => some (w.set i { w.instances i with phase := if failed then .broken else .down, lockConn := none })
    | _ => none

def StoredIn (db : Tables) (shard : Int) (id : UUID) : Prop := ∃ row ∈ db.events, row.id = id ∧ row.partition = shard
def Publishes (i : Fin n) (shard : Int) : Prop :=
  (∃ name event rest, (w.instances i).drains.loops name = .draining event rest ∧ (event.partition = shard ∨ StoredIn w.db shard event.id)) ∨
    ∃ name id, (name,id) ∈ (w.instances i).drains.orphans ∧ StoredIn w.db shard id
/-- No two instances publish events of a shard that both list. -/
def Exclusive : Prop :=
  ∀ i j shard, i ≠ j → shard ∈ (w.instances i).ownedShards → shard ∈ (w.instances j).ownedShards → Publishes w i shard →
    ¬ Publishes w j shard

/-- The instance lists the shard, and has its lock if its session lives. -/
def Owns (inst : Instance) (shard : Int) : Prop :=
  shard ∈ inst.ownedShards ∧ match inst.phase with
    | .acquiring rest => shard ∉ rest
    | .running | .stopping => True
    | .down | .releasing .. | .broken => False

/-- When an instance gets a lock, the sessions of the shard's other owners live; when it gives up its locks, no
    `Publish` is left. -/
def Attended : Action n → Prop
  | .acquire i reply =>
    match (w.instances i).phase with
    | .acquiring (shard :: _) =>
      reply = .done → ∀ j, j ≠ i → Owns (w.instances j) shard → (w.instances j).lockConn.all (fun session => !w.ended session)
    | _ => True
  | .waited i => (w.instances i).drains.orphans = []
  | _ => True

instance (inst : Instance) (shard : Int) : Decidable (Owns inst shard) := by
  unfold Owns
  split <;> infer_instance
instance (a : Action n) : Decidable (Attended w a) := by
  unfold Attended
  split <;> try split
  all_goals infer_instance
end

/-! ### One instance -/

def Phase.connects : Phase → Bool
  | .acquiring _ | .running | .stopping | .releasing .. => true
  | .down | .broken => false
def Phase.runs : Phase → Bool
  | .running | .stopping => true
  | .down | .acquiring _ | .releasing .. | .broken => false

/-- An instance asks for all shards that it lists, and has drain loops and publishes events only while it runs. -/
structure Steady (cfg : Config) (inst : Instance) : Prop where
  connected : inst.phase.connects = true → inst.lockConn.isSome
  covered : ∀ shard ∈ inst.ownedShards, shard ∈ inst.ownedShardsList
  quiet : inst.phase.runs = false → (∀ name, inst.drains.loops name = .stopped) ∧ inst.drains.orphans = []
  known : ∀ name, inst.drains.loops name ≠ .stopped → name ∈ publisherNames cfg.dispatcher.toConfig

section
variable {cfg : Config} {inst : Instance} {shard : Int}

theorem Owns.connects (owns : Owns inst shard) : inst.phase.connects = true := by
  have phase := owns.2
  cases at_ : inst.phase with
  | acquiring rest | running | stopping => rfl
  | down | releasing rest failed | broken =>
    rw [at_] at phase
    exact phase.elim
theorem owns_of_runs (listed : shard ∈ inst.ownedShards) (runs : inst.phase.runs = true) : Owns inst shard := by
  refine ⟨listed,?_⟩
  cases at_ : inst.phase with
  | running | stopping => trivial
  | down | acquiring rest | releasing rest failed | broken =>
    rw [at_] at runs
    cases runs

theorem steady_new (cfg : Config) : Steady cfg (newShardedDispatcher cfg) where
  connected connects := by cases connects
  covered shard listed := List.mem_dedup.mp listed
  quiet _ := ⟨fun _ => rfl,rfl⟩
  known name goes := absurd rfl goes
theorem Steady.change (steady : Steady cfg inst) (calm : inst.phase.runs = false) {phase : Phase} {lockConn : Option Nat}
    {ownedShards : List Int} (connected : phase.connects = true → lockConn.isSome) (fewer : ∀ shard ∈ ownedShards, shard ∈ inst.ownedShards) :
    Steady cfg { inst with phase, lockConn, ownedShards } where
  connected := connected
  covered shard listed := steady.covered shard (fewer shard listed)
  quiet _ := steady.quiet calm
  known := steady.known
theorem steady_launch (steady : Steady cfg inst) (at_ : inst.phase = .acquiring []) (created : Bool) :
    Steady cfg (launch cfg inst created) := by
  have calm := steady.quiet (by rw [at_]; rfl)
  have connected := steady.connected (by rw [at_]; rfl)
  have covered : ∀ shard ∈ inst.ownedShards, shard ∈ inst.ownedShards.insertionSort (· ≤ ·) :=
    fun shard listed => (List.mem_insertionSort _).mpr listed
  simp only [launch]
  split
  · exact ⟨by simp [Phase.connects],covered,fun _ => calm,steady.known⟩
  · split
    · refine ⟨fun _ => connected,covered,by simp [Phase.runs],?_⟩
      intro name goes
      by_contra unlisted
      exact goes (if_neg unlisted)
    · exact ⟨fun _ => connected,covered,fun _ => calm,steady.known⟩
theorem owns_launch (at_ : inst.phase = .acquiring []) (created : Bool) (owns : Owns (launch cfg inst created) shard) : Owns inst shard := by
  have listed : shard ∈ inst.ownedShards := by
    have listed := owns.1
    simp only [launch] at listed
    split at listed
    · exact listed
    · split at listed
      · exact listed
      · exact listed
  exact ⟨listed,by rw [at_]; exact List.not_mem_nil⟩
theorem lockConn_launch {session : Nat} {created : Bool} (conn : (launch cfg inst created).lockConn = some session) :
    inst.lockConn = some session := by
  simp only [launch] at conn
  split at conn
  · cases conn
  · split at conn
    · exact conn
    · exact conn

private theorem loops_went {s t : Dispatcher.State} {name : String} (went : s.loops name ≠ .stopped)
    (others : ∀ other, other ≠ name → t.loops other = s.loops other) (other : String) (goes : t.loops other ≠ .stopped) :
    s.loops other ≠ .stopped := by
  by_cases same : other = name
  · rwa [same]
  · rwa [others other same] at goes
private theorem goto_others (s : Dispatcher.State) (name : String) (loop : Loop) (other : String) (different : other ≠ name) :
    (s.goto name loop).loops other = s.loops other := update_of_ne different ..
private theorem fetch_cases (cfg : ShardedDispatcher.Config) (s : ShardedDispatcher.State) (name : String) (reads : Bool) (now : Time) :
    fetch cfg s name reads now = s ∨ ∃ events, fetch cfg s name reads now = s.on (s.toState.goto name (.proceed events)) := by
  unfold fetch
  split
  · exact .inl rfl
  · split
    · exact .inl rfl
    · split
      · split
        · exact .inl rfl
        · exact .inr ⟨_,rfl⟩
      · exact .inl rfl
private theorem publish_others (cfg : ShardedDispatcher.Config) (s : Dispatcher.State) (name : String) (event : Event) (rest : List Event)
    (outcome : Dispatcher.Outcome) (now : Time) (other : String) (different : other ≠ name) :
    (publish cfg s name event rest outcome now).loops other = s.loops other := by
  cases outcome with
  | success | permanent message | timeout => exact update_of_ne different ..
  | transient message =>
    simp only [publish,Dispatcher.retryLater]
    split
    · exact update_of_ne different ..
    · exact update_of_ne different ..
/-- The drain loops leave the list of shards alone; a step takes a loop or a `Publish` that has not ended. -/
theorem drain_effect {cfg : ShardedDispatcher.Config} {s t : ShardedDispatcher.State} {a : ShardedDispatcher.Action}
    (drains : isDrain a = true) (stepped : ShardedDispatcher.step cfg s a = some t) :
    t.ownedShards = s.ownedShards ∧ (∀ name, t.loops name ≠ .stopped → s.loops name ≠ .stopped) ∧
      ¬ ((∀ name, s.loops name = .stopped) ∧ s.orphans = []) := by
  -- A loop named `name` goes on.
  have goes : ∀ {t : ShardedDispatcher.State} name, s.loops name ≠ .stopped → t.ownedShards = s.ownedShards →
      (∀ other, other ≠ name → t.loops other = s.loops other) → t.ownedShards = s.ownedShards ∧
        (∀ name, t.loops name ≠ .stopped → s.loops name ≠ .stopped) ∧ ¬ ((∀ name, s.loops name = .stopped) ∧ s.orphans = []) :=
    fun name went same others => ⟨same,loops_went went others,fun quiet => went (quiet.1 name)⟩
  cases a with
  | tick name reads now =>
    obtain ⟨idle,rfl⟩ := guarded stepped
    obtain same | ⟨events,same⟩ := fetch_cases cfg s name reads now
    · rw [same]
      exact goes name (by simp [idle]) rfl (fun _ _ => rfl)
    · rw [same]
      exact goes name (by simp [idle]) rfl (goto_others _ name _)
  | publish name outcome now =>
    simp only [ShardedDispatcher.step] at stepped
    split at stepped <;> cases stepped
    next event rest at_ =>
    exact goes name (by simp [at_]) rfl (publish_others cfg s.toState name event rest outcome now)
  | acknowledge name commits now =>
    simp only [ShardedDispatcher.step] at stepped
    split at stepped <;> cases stepped
    next event rest at_ =>
    exact goes name (by simp [at_]) rfl (goto_others _ name _)
  | fail name updates now =>
    simp only [ShardedDispatcher.step] at stepped
    split at stepped <;> cases stepped
    next event message rest at_ =>
    exact goes name (by simp [at_]) rfl (goto_others _ name _)
  | orphan name id succeeds =>
    obtain ⟨left,rfl⟩ := guarded stepped
    refine ⟨rfl,fun _ goes => goes,fun quiet => ?_⟩
    rw [quiet.2] at left
    cases left
  | exit name =>
    obtain ⟨ends,rfl⟩ := guarded stepped
    exact goes name (by simp [ends.1]) rfl (goto_others _ name _)
  | store | requeue | cleanup | heartbeat | stop => cases drains
theorem steady_drain {db : Tables} {a : ShardedDispatcher.Action} {t : ShardedDispatcher.State} (steady : Steady cfg inst)
    (drains : isDrain a = true) (stepped : ShardedDispatcher.step cfg.dispatcher { inst.drains with db } a = some t) :
    Steady cfg { inst with drains := t } := by
  obtain ⟨same,went,active⟩ := drain_effect drains stepped
  refine ⟨steady.connected,?_,?_,?_⟩
  · intro shard listed
    have covered : shard ∈ inst.drains.ownedShards := steady.covered shard listed
    rw [Instance.ownedShardsList,same]
    exact covered
  · intro calm
    exact absurd (steady.quiet calm) active
  · intro name goes
    exact steady.known name (went name goes)
end

/-! ### All instances -/

variable {cfg : Fin n → Config} {w w' : World n} {a : Action n} {i : Fin n}

/-- Sessions are not shared, an owner whose session lives has the lock, and a shard has one owner. -/
structure Inv (cfg : Fin n → Config) (w : World n) : Prop where
  steady : ∀ i, Steady (cfg i) (w.instances i)
  conns : ∀ i j session, (w.instances i).lockConn = some session → (w.instances j).lockConn = some session → i = j
  held : ∀ i shard session, Owns (w.instances i) shard → (w.instances i).lockConn = some session → w.ended session = false →
    Holds w.locks session shard
  apart : ∀ i j shard, Owns (w.instances i) shard → Owns (w.instances j) shard → i = j

variable {inst : Instance} {session : Nat} {shard : Int} {rest : List Int}

private theorem forall_set {P : Fin n → Instance → Prop} (own : P i inst) (others : ∀ j, j ≠ i → P j (w.instances j)) (j : Fin n) :
    P j ((w.set i inst).instances j) := by
  by_cases same : j = i
  · subst same
    simpa [World.set] using own
  · simpa [World.set,same] using others j same
private theorem unique_set {P : Instance → Prop} (unique : ∀ j k, P (w.instances j) → P (w.instances k) → j = k)
    (own : ∀ j, j ≠ i → P inst → ¬ P (w.instances j)) (j k : Fin n) (first : P ((w.set i inst).instances j))
    (second : P ((w.set i inst).instances k)) : j = k := by
  by_cases here : j = i <;> by_cases there : k = i
  · exact here.trans there.symm
  · subst here
    simp only [World.set,update_self] at first
    simp only [World.set,update_of_ne there] at second
    exact absurd second (own k there first)
  · subst there
    simp only [World.set,update_of_ne here] at first
    simp only [World.set,update_self] at second
    exact absurd first (own j here second)
  · simp only [World.set,update_of_ne here] at first
    simp only [World.set,update_of_ne there] at second
    exact unique j k first second
section
variable (inv : Inv cfg w)
include inv
/-- An instance goes on: its session is its own, it has the locks of its shards, and they have no other owner. -/
theorem Inv.put (steady : Steady (cfg i) inst)
    (conn : ∀ j, j ≠ i → ∀ session, inst.lockConn = some session → (w.instances j).lockConn ≠ some session)
    (held : ∀ shard session, Owns inst shard → inst.lockConn = some session → w.ended session = false → Holds w.locks session shard)
    (apart : ∀ j, j ≠ i → ∀ shard, Owns inst shard → ¬ Owns (w.instances j) shard) : Inv cfg (w.set i inst) where
  steady := forall_set (P := fun j inst => Steady (cfg j) inst) steady (fun j _ => inv.steady j)
  conns j k session := unique_set (P := fun inst => inst.lockConn = some session) (fun j k => inv.conns j k session)
    (fun j different => conn j different session) j k
  held j shard session := forall_set
    (P := fun _ inst => Owns inst shard → inst.lockConn = some session → w.ended session = false → Holds w.locks session shard)
    (held shard session) (fun j _ => inv.held j shard session) j
  apart j k shard := unique_set (P := fun inst => Owns inst shard) (fun j k => inv.apart j k shard)
    (fun j different => apart j different shard) j k
theorem Inv.set (steady : Steady (cfg i) inst) (conn : ∀ session, inst.lockConn = some session → (w.instances i).lockConn = some session)
    (owns : ∀ shard, Owns inst shard → Owns (w.instances i) shard) : Inv cfg (w.set i inst) := by
  refine inv.put steady ?_ ?_ ?_
  · intro j different session its others
    exact different (inv.conns j i session others (conn session its))
  · intro shard session its at_ lives
    exact inv.held i shard session (owns shard its) (conn session at_) lives
  · intro j different shard its others
    exact different (inv.apart j i shard others (owns shard its))
theorem Inv.retire (calm : (w.instances i).phase.runs = false) {phase : Phase} {lockConn : Option Nat}
    (connected : phase.connects = true → lockConn.isSome)
    (conn : ∀ session, lockConn = some session → (w.instances i).lockConn = some session)
    (none : ∀ shard, ¬ Owns { w.instances i with phase, lockConn } shard) : Inv cfg (w.set i { w.instances i with phase, lockConn }) :=
  inv.set ((inv.steady i).change calm connected (fun _ listed => listed)) conn (fun shard owns => absurd owns (none shard))
theorem Inv.withLocks {locks : Locks Int} {ended : Nat → Bool}
    (held : ∀ i shard session, Owns (w.instances i) shard → (w.instances i).lockConn = some session → ended session = false →
      Holds locks session shard) : Inv cfg { w with locks, ended } :=
  ⟨inv.steady,inv.conns,held,inv.apart⟩
theorem inv_start (at_ : (w.instances i).phase = .down) (free : w.Free session) :
    Inv cfg (w.set i { w.instances i with phase := .acquiring (w.instances i).ownedShardsList, lockConn := some session }) := by
  have nothing : ∀ shard, ¬ Owns { w.instances i with phase := .acquiring (w.instances i).ownedShardsList, lockConn := some session } shard :=
    fun shard owns => owns.2 ((inv.steady i).covered shard owns.1)
  refine inv.put ?_ ?_ ?_ ?_
  · exact (inv.steady i).change (by rw [at_]; rfl) (fun _ => rfl) (fun _ listed => listed)
  · rintro j _ _ ⟨⟩
    exact free j
  · exact fun shard _ owns => absurd owns (nothing shard)
  · exact fun _ _ shard owns => absurd owns (nothing shard)
section
variable (at_ : (w.instances i).phase = .acquiring (shard :: rest))
include at_
private theorem inv_granted {locks : Locks Int}
    (conn : (w.instances i).lockConn = some session) (granted : tryLock w.locks session shard = some locks)
    (noticed : ∀ j, j ≠ i → Owns (w.instances j) shard → (w.instances j).lockConn.all (fun session => !w.ended session)) :
    Inv cfg ({ w with locks }.set i { w.instances i with phase := .acquiring rest }) := by
  have kept : Inv cfg { w with locks } := inv.withLocks (fun j other session' owns its lives =>
    tryLock_kept granted (inv.held j other session' owns its lives))
  -- The shard that was asked for, or one that the instance had got before.
  have before : ∀ other, Owns { w.instances i with phase := .acquiring rest } other → other = shard ∨ Owns (w.instances i) other := by
    rintro other ⟨listed,asked⟩
    by_cases same : other = shard
    · exact .inl same
    · refine .inr ⟨listed,?_⟩
      rw [at_]
      exact List.not_mem_cons_of_ne_of_not_mem same asked
  refine kept.put ?_ ?_ ?_ ?_
  · exact (inv.steady i).change (by rw [at_]; rfl) (fun _ => (inv.steady i).connected (by rw [at_]; rfl)) (fun _ listed => listed)
  · intro j different other its others
    exact different (inv.conns j i other others its)
  · intro other session' owns its lives
    obtain rfl | owned := before other owns
    · rw [conn] at its
      cases its
      exact tryLock_holds granted
    · exact kept.held i other session' owned its lives
  · intro j different other owns others
    obtain rfl | owned := before other owns
    · obtain ⟨session',its⟩ := Option.isSome_iff_exists.mp ((inv.steady j).connected others.connects)
      have lives := noticed j different others
      rw [its] at lives
      have held := inv.held j other session' others its (by simpa using lives)
      have sessions : session' ≠ session := fun same => different (inv.conns j i session (same ▸ its) conn)
      rw [tryLock_refused held sessions] at granted
      cases granted
    · exact different (inv.apart j i other others owned)
private theorem inv_refused :
    Inv cfg (w.set i { w.instances i with
      phase := .acquiring rest, ownedShards := (w.instances i).ownedShards.filter (· ≠ shard) }) := by
  refine inv.set ?_ (fun _ same => same) ?_
  · exact (inv.steady i).change (by rw [at_]; rfl) (fun _ => (inv.steady i).connected (by rw [at_]; rfl))
      (fun _ listed => (List.mem_filter.mp listed).1)
  · rintro other ⟨listed,asked⟩
    obtain ⟨listed,different⟩ := List.mem_filter.mp listed
    refine ⟨listed,?_⟩
    rw [at_]
    exact List.not_mem_cons_of_ne_of_not_mem (by simpa using different) asked
private theorem inv_acquire {reply : Reply}
    (conn : (w.instances i).lockConn = some session) (attended : Attended w (.acquire i reply)) : Inv cfg (acquire w i shard rest session reply) := by
  simp only [acquire]
  split
  · -- The lock may have been taken in a session that the pool has back.
    have kept : Inv cfg { w with locks := if reply.effective then (tryLock w.locks session shard).getD w.locks else w.locks } := by
      refine inv.withLocks fun j other session' owns its lives => ?_
      have held := inv.held j other session' owns its lives
      split
      · cases granted : tryLock w.locks session shard with
        | none => exact held
        | some locks => exact tryLock_kept granted held
      · exact held
    exact kept.retire (by rw [at_]; rfl) (by simp [Phase.connects]) (by rintro _ ⟨⟩) (fun _ owns => owns.2)
  · next done =>
    have answered : reply = .done := by
      cases reply with
      | done => rfl
      | failed | lost => cases done
    simp only [Attended,at_] at attended
    split
    · next granted => exact inv_granted inv at_ conn granted (attended answered)
    · exact inv_refused inv at_
end
theorem inv_release {failed : Bool} {reply : Reply} (at_ : (w.instances i).phase = .releasing (shard :: rest) failed)
    (conn : (w.instances i).lockConn = some session) :
    Inv cfg ({ w with locks := if reply.effective then unlock w.locks session shard else w.locks }.set i
      { w.instances i with phase := .releasing rest failed }) := by
  have kept : Inv cfg { w with locks := if reply.effective then unlock w.locks session shard else w.locks } := by
    refine inv.withLocks fun j other session' owns its lives => ?_
    have held := inv.held j other session' owns its lives
    have different : session' ≠ session := by
      rintro rfl
      have phase := owns.2
      rw [inv.conns j i session' its conn,at_] at phase
      exact phase
    split
    · exact unlock_kept held different
    · exact held
  exact kept.retire (by rw [at_]; rfl) (fun _ => (inv.steady i).connected (by rw [at_]; rfl)) (fun _ same => same) (fun _ owns => owns.2)
theorem inv_step (attended : Attended w a) (stepped : step cfg w a = some w') : Inv cfg w' := by
  cases a with
  | tables db =>
    cases stepped
    exact ⟨inv.steady,inv.conns,inv.held,inv.apart⟩
  | lose session =>
    cases stepped
    refine inv.withLocks fun i shard other owns conn lives => ?_
    by_cases same : other = session
    · rw [same,update_self] at lives
      cases lives
    · rw [update_of_ne same] at lives
      exact endSession_kept (inv.held i shard other owns conn lives) same
  | start i session =>
    simp only [step] at stepped
    split at stepped <;> try cases stepped
    next at_ =>
      split at stepped
      next =>
        cases stepped
        exact inv.retire (by rw [at_]; rfl) (by simp [Phase.connects]) (fun _ same => same) (fun _ owns => owns.2)
      next =>
        obtain ⟨free,rfl⟩ := guarded stepped
        exact inv_start inv at_ free.2
  | acquire i reply =>
    simp only [step] at stepped
    split at stepped <;> try cases stepped
    next at_ conn =>
      split_ifs at stepped
      cases stepped
      exact inv_acquire inv at_ conn attended
  | launch i created =>
    obtain ⟨at_,rfl⟩ := guarded stepped
    exact inv.set (steady_launch (inv.steady i) at_ created) (fun _ => lockConn_launch) (fun _ => owns_launch at_ created)
  | drain i a =>
    simp only [step] at stepped
    split_ifs at stepped with drains
    obtain ⟨t,went,rfl⟩ := Option.map_eq_some_iff.mp stepped
    have same : Inv cfg { w with db := t.db } := ⟨inv.steady,inv.conns,inv.held,inv.apart⟩
    exact same.set (steady_drain (inv.steady i) drains went) (fun _ its => its) (fun _ owns => owns)
  | heartbeat i pings =>
    simp only [step] at stepped
    split_ifs at stepped <;> cases stepped
    · exact inv
    · refine inv.set ?_ (fun _ same => same) ?_
      · exact ⟨(inv.steady i).connected,by simp,(inv.steady i).quiet,(inv.steady i).known⟩
      · intro shard owns
        cases owns.1
  | rest i =>
    obtain ⟨_,rfl⟩ := guarded stepped
    exact inv.set ⟨(inv.steady i).connected,(inv.steady i).covered,(inv.steady i).quiet,(inv.steady i).known⟩ (fun _ same => same)
      (fun _ owns => owns)
  | stop i =>
    simp only [step] at stepped
    split at stepped <;> cases stepped
    next at_ =>
      refine inv.set ?_ (fun _ same => same) ?_
      · exact ⟨fun _ => (inv.steady i).connected (by rw [at_]; rfl),(inv.steady i).covered,by simp [Phase.runs],(inv.steady i).known⟩
      · exact fun shard owns => owns_of_runs owns.1 (by rw [at_]; rfl)
    next at_ => exact inv.retire (by rw [at_]; rfl) (by simp [Phase.connects]) (fun _ same => same) (fun _ owns => owns.2)
  | waited i =>
    obtain ⟨⟨at_,stopped,_⟩,rfl⟩ := guarded stepped
    refine inv.set ⟨?_,(inv.steady i).covered,fun _ => ⟨?_,attended⟩,(inv.steady i).known⟩ (fun _ same => same) ?_
    · exact fun _ => (inv.steady i).connected (by rw [at_]; rfl)
    · intro name
      by_contra goes
      exact goes (stopped name ((inv.steady i).known name goes))
    · exact fun shard owns => owns.2.elim
  | release i reply =>
    simp only [step] at stepped
    split at stepped <;> try cases stepped
    next at_ conn =>
      split at stepped <;> cases stepped
      exact inv_release inv at_ conn
  | close i =>
    simp only [step] at stepped
    split at stepped <;> cases stepped
    next failed at_ =>
      refine inv.retire (by rw [at_]; rfl) ?_ nofun ?_
      · cases failed <;> simp [Phase.connects]
      · intro shard owns
        cases failed <;> exact owns.2
end

private theorem inv_init (cfg : Fin n → Config) : Inv cfg (init cfg) where
  steady i := steady_new (cfg i)
  conns i j session conn := by cases conn
  held i shard session owns := owns.2.elim
  apart i j shard owns := owns.2.elim

private theorem runs_of_publishes (steady : Steady (cfg i) (w.instances i)) (publishes : Publishes w i shard) :
    (w.instances i).phase.runs = true := by
  by_contra calm
  obtain ⟨stopped,none⟩ := steady.quiet (by simpa using calm)
  obtain ⟨name,event,rest,at_,_⟩ | ⟨name,id,left,_⟩ := publishes
  · rw [stopped name] at at_
    cases at_
  · rw [none] at left
    cases left
def bothFirst : Fin 2 → Config := fun _ => ⟨withPublishers .console,[0]⟩
def started (i : Fin 2) (session : Nat) : List (Action 2) := [.start i (some session),.acquire i .done,.launch i true]
/-- The session of the first instance ends, and the second takes over before the heartbeat of the first. -/
def takenOver : List (Action 2) :=
  .tables oneEvent :: started 0 0 ++ [.lose 0] ++ started 1 1 ++ [.drain 0 (.tick "console" true 1),.drain 1 (.tick "console" true 1)]
/-- The first instance publishes the event and stops, and the second one takes over. -/
def handedOver : List (Action 2) :=
  .tables oneEvent :: started 0 0 ++
    [.drain 0 (.tick "console" true 1),.drain 0 (.publish "console" (.transient "refused") 1),.stop 0,.drain 0 (.exit "console"),.rest 0,
      .waited 0,.release 0 .done,.close 0] ++ started 1 0 ++ [.drain 1 (.tick "console" true 1)]
end Stellabill.ShardOwnership

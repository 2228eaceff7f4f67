import Stellabill.Program
import Mathlib.Logic.Function.Basic

/-!
Sessions that change shared data in transactions, each under a lock that only one
transaction has at a time and keeps until its end. What is shown of a session on its
own holds of the sessions together, whatever fails and whoever crashes.
-/
namespace Stellabill.LockedSessions
open Transitions Program Function

abbrev Statement (Data : Type) := Data → Except String Data

/-- The calls of a session. `create` makes what is locked if it is missing. -/
inductive Call (Data : Type)
  | begin
  | create (present : Data → Bool) (change : Data → Data)
  | lock
  | query
  | exec (statement : Statement Data)
  | commit
  | rollback

abbrev Answer {Data : Type} : Call Data → Type
  | .query => Except String Data
  | .rollback => Unit
  | .begin | .create _ _ | .lock | .exec _ | .commit => Except String Unit

/-- A connection: without a transaction, with one that has done `effect`, or with a failed one. -/
inductive Link (Data : Type)
  | idle | active (effect : Statement Data) | aborted

structure World (Data : Type) where
  durable : Data
  /-- Who has the lock. -/
  holder : Option Nat
  links : Nat → Link Data

section
variable {Data : Type}

section
variable (w : World Data) (n : Nat)
def World.put (link : Link Data) : World Data := { w with links := update w.links n link }
def World.acquired : World Data := { w with holder := some n }
def World.over : World Data where
  durable := w.durable
  holder := if w.holder = some n then none else w.holder
  links := update w.links n .idle
def World.Free : Prop := w.holder = none ∨ w.holder = some n
  deriving Decidable
end

def inTx {α : Type} (n : Nat) (w : World Data) (reply : Reply)
    (statement : Statement Data → Data → Option (Except String α × World Data)) : Option (Except String α × World Data) :=
  match w.links n with
  | .idle => some (.error "sql: transaction has already been committed or rolled back",w)
  | .aborted => some (.error "pq: current transaction is aborted, commands ignored until end of transaction block",w)
  | .active effect =>
    match reply.error with
    | some message => some (.error message,w.put n .aborted)
    | none => match effect w.durable with
      | .error message => some (.error message,w.put n .aborted)
      | .ok data => statement effect data

def told (reply : Reply) : Except String Unit :=
  match reply.error with
  | some message => .error message
  | none => .ok ()

/-- A call is served; `none` where it waits for the lock. -/
def perform (n : Nat) (w : World Data) : (c : Call Data) → Reply → Option (Answer c × World Data)
  | .begin, reply =>
    match reply.error with
    | some message => some (.error message,w)
    | none => some (.ok (),w.put n (.active .ok))
  | .create present change, reply => inTx n w reply (fun effect data =>
      if present data then some (.ok (),w)
      else if w.Free n then some (.ok (),(w.put n (.active (fun d => (effect d).map change))).acquired n)
      else none)
  | .lock, reply => inTx n w reply (fun _ _ => if w.Free n then some (.ok (),w.acquired n) else none)
  | .query, reply => inTx n w reply (fun _ data => some (.ok data,w))
  | .exec statement, reply => inTx n w reply (fun effect data =>
      match statement data with
      | .error message => some (.error message,w.put n .aborted)
      | .ok _ => some (.ok (),w.put n (.active (fun d => (effect d).bind statement))))
  | .commit, reply =>
    match w.links n with
    | .idle => some (.error "sql: transaction has already been committed or rolled back",w)
    | .aborted => some (.error "pq: Could not complete operation in a failed transaction",w.over n)
    | .active effect =>
      if reply.effective then
        match effect w.durable with
        | .error message => some (.error message,w.over n)
        | .ok data => some (told reply,{ w.over n with durable := data })
      else some (told reply,w.over n)
  | .rollback, _ => some ((),w.over n)

abbrev Script (Data Value : Type) := Prog (Call Data) Answer Value

def begin : Script Data (Except String Unit) := .call .begin .done
def create (present : Data → Bool) (change : Data → Data) : Script Data (Except String Unit) := .call (.create present change) .done
def lock : Script Data (Except String Unit) := .call .lock .done
def query : Script Data (Except String Data) := .call .query .done
def exec (statement : Statement Data) : Script Data (Except String Unit) := .call (.exec statement) .done
def commit : Script Data (Except String Unit) := .call .commit .done
def rollback : Script Data Unit := .call .rollback .done
def andThen {α β : Type} (p : Script Data (Except String α)) (f : α → Script Data (Except String β)) : Script Data (Except String β) :=
  p >>= fun
    | .error message => pure (.error message)
    | .ok value => f value

structure State (Data Entry Value : Type) where
  world : World Data
  /-- The sessions, each with the entry it was started for. -/
  sessions : Nat → Option (Entry × Script Data Value)
  /-- The entries so far, the last one first. -/
  used : List Entry

inductive Action (Entry : Type)
  | start (n : Nat) (entry : Entry) | answer (n : Nat) (reply : Reply) | crash (n : Nat)

variable {Entry Value : Type}

def Vacant : Option (Entry × Script Data Value) → Bool
  | none | some (_,.done _) => true
  | some (_,.call ..) => false

/-- A session starts, has a call answered, or ends in a crash, which rolls its transaction back. -/
def step (program : Entry → Script Data Value) (s : State Data Entry Value) : Action Entry → Option (State Data Entry Value)
  | .start n entry =>
    if Vacant (s.sessions n) then
      some { s with sessions := update s.sessions n (some (entry,program entry)), used := entry :: s.used }
    else none
  | .answer n reply =>
    match s.sessions n with
    | none => none
    | some (entry,p) =>
      (answer (fun w c reply => perform n w c reply) s.world reply p).map
        (fun (w,p') => { s with world := w, sessions := update s.sessions n (some (entry,p')) })
  | .crash n =>
    match s.sessions n with
    | some (_,.call _ _) => some { s with world := s.world.over n, sessions := update s.sessions n none }
    | none | some (_,.done _) => none

def initial (durable : Data) : State Data Entry Value := ⟨⟨durable,none,fun _ => .idle⟩,fun _ => none,[]⟩

/-- A session as it sees itself. -/
inductive View (Data : Type)
  | idle | opened | holding (data : Data) | aborted | committed (data : Data)

def View.Over : View Data → Prop
  | .idle | .committed _ => True
  | .opened | .holding _ | .aborted => False

variable (inv : Data → Prop)

def attempt {α : Type} (reply : Reply) (served : Except String α × View Data) : Option (Except String α × View Data) :=
  match reply.error with
  | some message => some (.error message,.aborted)
  | none => some served
/-- A call as the session sees it: the durable data is some data that meets the invariant. -/
def act (v : View Data) : (c : Call Data) → Reply × { data : Data // inv data } → Option (Answer c × View Data)
  | .begin, (reply,_) =>
    match v, reply.error with
    | .idle, some message => some (.error message,.idle)
    | .idle, none => some (.ok (),.opened)
    | _, _ => none
  | .create present change, (reply,⟨durable,_⟩) =>
    match v with
    | .opened => attempt reply (.ok (),if present durable then .opened else .holding (change durable))
    | _ => none
  | .lock, (reply,⟨durable,_⟩) =>
    match v with
    | .opened => attempt reply (.ok (),.holding durable)
    | .holding data => attempt reply (.ok (),.holding data)
    | _ => none
  | .query, (reply,_) =>
    match v with
    | .holding data => attempt reply (.ok data,.holding data)
    | _ => none
  | .exec statement, (reply,_) =>
    match v with
    | .holding data => attempt reply (match statement data with
      | .error message => (.error message,.aborted)
      | .ok changed => (.ok (),.holding changed))
    | _ => none
  | .commit, (reply,_) =>
    match v with
    | .holding data => some (told reply,if reply.effective then .committed data else .idle)
    | _ => none
  | .rollback, _ => some ((),.idle)

/-- A session changes data only under the lock, and commits only what meets the invariant. -/
def Guard (v : View Data) : Call Data → Prop
  | .begin => v = .idle
  | .create _ _ => v = .opened
  | .lock => v = .opened ∨ ∃ data, v = .holding data
  | .query | .exec _ => ∃ data, v = .holding data
  | .commit => ∃ data, v = .holding data ∧ inv data
  | .rollback => True

/-- The session keeps to the guard from the view on, and `post` holds when it ends. -/
def Keeps (post : Value → View Data → Prop) (p : Script Data Value) (v : View Data) : Prop := Safe (act inv) (Guard inv) post p v
end

section
variable {Data Value : Type} {inv : Data → Prop} {post : Value → View Data → Prop}

/-- What is left to show after an error, and after a value. -/
def orElse {α β : Type} (inv : Data → Prop) (post : Except String β → View Data → Prop) (f : α → Script Data (Except String β)) :
    Except String α → View Data → Prop
  | .error message, v => post (.error message) v
  | .ok value, v => Keeps inv post (f value) v

variable {v : View Data} {α : Type} {next : Except String Unit → Script Data Value}

theorem keeps_call {c : Call Data} {next : Answer c → Script Data Value} (guarded : Guard inv v c)
    (after : ∀ chance answer v', act inv v c chance = some (answer,v') → Keeps inv post (next answer) v') :
    Keeps inv post (.call c next) v := ⟨guarded,after⟩
theorem keeps_bind {p : Script Data α} {f : α → Script Data Value} (keeps : Keeps inv (fun value v => Keeps inv post (f value) v) p v) :
    Keeps inv post (p >>= f) v := safe_bind keeps
theorem keeps_andThen {β : Type} {post : Except String β → View Data → Prop} {p : Script Data (Except String α)}
    {f : α → Script Data (Except String β)} (keeps : Keeps inv (orElse inv post f) p v) : Keeps inv post (andThen p f) v := by
  refine keeps_bind (keeps.mono (fun result v holds => ?_))
  cases result with
  | error | ok => exact holds

theorem attempt_some {reply : Reply} {served result : Except String α × View Data} (attempted : attempt reply served = some result) :
    (∃ message, result = (.error message,.aborted)) ∨ result = served := by
  unfold attempt at attempted
  split at attempted
  · cases attempted
    exact .inl ⟨_,rfl⟩
  · cases attempted
    exact .inr rfl

theorem keeps_attempt {next : Except String α → Script Data Value} {reply : Reply} {served : Except String α × View Data}
    {answer : Except String α} (attempted : attempt reply served = some (answer,v))
    (failed : ∀ message, Keeps inv post (next (.error message)) .aborted) (after : Keeps inv post (next served.1) served.2) :
    Keeps inv post (next answer) v := by
  obtain ⟨message,same⟩ | rfl := attempt_some attempted
  · cases same
    exact failed message
  · exact after

theorem keeps_begin (opened : Keeps inv post (next (.ok ())) .opened) (failed : ∀ message, Keeps inv post (next (.error message)) .idle) :
    Keeps inv post (begin >>= next) .idle := by
  refine keeps_call rfl (fun chance answer v' acted => ?_)
  cases told : chance.1.error with
  | none =>
    simp only [act,told] at acted
    cases acted
    exact opened
  | some message =>
    simp only [act,told] at acted
    cases acted
    exact failed message

variable {data : Data}

theorem keeps_query {next : Except String Data → Script Data Value} (failed : ∀ message, Keeps inv post (next (.error message)) .aborted)
    (found : Keeps inv post (next (.ok data)) (.holding data)) : Keeps inv post (query >>= next) (.holding data) :=
  keeps_call ⟨data,rfl⟩ (fun _ _ _ acted => keeps_attempt acted failed found)

section
variable (failed : ∀ message, Keeps inv post (next (.error message)) .aborted)
include failed
theorem keeps_create {present : Data → Bool} {change : Data → Data} (found : Keeps inv post (next (.ok ())) .opened)
    (made : ∀ data, inv data → present data = false → Keeps inv post (next (.ok ())) (.holding (change data))) :
    Keeps inv post (create present change >>= next) .opened := by
  refine keeps_call rfl (fun chance answer v' acted => keeps_attempt acted failed ?_)
  split
  · exact found
  · exact made chance.2.1 chance.2.2 (by simp_all)
theorem keeps_lock (taken : ∀ data, inv data → Keeps inv post (next (.ok ())) (.holding data)) : Keeps inv post (lock >>= next) .opened :=
  keeps_call (.inl rfl) (fun chance _ _ acted => keeps_attempt acted failed (taken chance.2.1 chance.2.2))
theorem keeps_relock (held : Keeps inv post (next (.ok ())) (.holding data)) : Keeps inv post (lock >>= next) (.holding data) :=
  keeps_call (.inr ⟨data,rfl⟩) (fun _ _ _ acted => keeps_attempt acted failed held)
theorem keeps_exec {statement : Statement Data}
    (done : ∀ changed, statement data = .ok changed → Keeps inv post (next (.ok ())) (.holding changed)) :
    Keeps inv post (exec statement >>= next) (.holding data) := by
  refine keeps_call ⟨data,rfl⟩ (fun chance answer v' acted => keeps_attempt acted failed ?_)
  cases result : statement data with
  | error message => exact failed message
  | ok changed => exact done changed result
end
theorem keeps_commit (meets : inv data) (done : Keeps inv post (next (.ok ())) (.committed data))
    (lost : ∀ message, Keeps inv post (next (.error message)) (.committed data))
    (failed : ∀ message, Keeps inv post (next (.error message)) .idle) : Keeps inv post (commit >>= next) (.holding data) := by
  refine keeps_call ⟨data,rfl,meets⟩ (fun chance answer v' acted => ?_)
  obtain ⟨reply,durable⟩ := chance
  cases acted
  cases reply with
  | done => exact done
  | failed message => exact failed message
  | lost message => exact lost message
theorem keeps_rollback {next : Unit → Script Data Value} (after : Keeps inv post (next ()) .idle) :
    Keeps inv post (rollback >>= next) v := by
  refine keeps_call trivial (fun chance answer v' acted => ?_)
  cases acted
  exact after
end

/-! ### From one session to all of them -/

section
variable {Data Entry Value : Type} {inv : Data → Prop} {w w' : World Data} {n m : Nat} {v : View Data}

def World.Shows (w : World Data) (n : Nat) : View Data → Prop
  | .idle | .committed _ => w.links n = .idle ∧ w.holder ≠ some n
  | .opened => w.links n = .active .ok ∧ w.holder ≠ some n
  | .holding data => (∃ effect, w.links n = .active effect ∧ effect w.durable = .ok data) ∧ w.holder = some n
  | .aborted => w.links n = .aborted
/-- What the others keep when a session makes a call: data changes only under its lock. -/
structure Others (n : Nat) (w w' : World Data) : Prop where
  links : ∀ m, m ≠ n → w'.links m = w.links m
  holder : ∀ m, m ≠ n → (w'.holder = some m ↔ w.holder = some m)
  durable : w'.durable = w.durable ∨ w.holder = some n

theorem Others.refl (w : World Data) : Others n w w := ⟨fun _ _ => rfl,fun _ _ => .rfl,.inl rfl⟩
theorem Others.put (w : World Data) (link : Link Data) : Others n w (w.put n link) :=
  ⟨fun _ other => update_of_ne other ..,fun _ _ => .rfl,.inl rfl⟩
theorem Others.acquired (kept : Others n w w') (free : w.Free n) : Others n w (w'.acquired n) := by
  refine ⟨kept.links,fun m other => ⟨fun held => ?_,fun held => ?_⟩,kept.durable⟩
  · exact absurd (Option.some.inj held).symm other
  · obtain nobody | self := free
    · rw [nobody] at held
      cases held
    · rw [self] at held
      exact absurd (Option.some.inj held).symm other
theorem Others.over (w : World Data) : Others n w (w.over n) := by
  refine ⟨fun _ other => update_of_ne other ..,fun m other => ?_,.inl rfl⟩
  simp only [World.over]
  split
  · next held =>
    rw [held]
    exact ⟨nofun,fun same => absurd (Option.some.inj same).symm other⟩
  · rfl
theorem Others.shows (kept : Others n w w') (other : m ≠ n) (shows_ : w.Shows m v) : w'.Shows m v := by
  cases v with
  | idle | committed _ | opened => exact ⟨(kept.links m other).trans shows_.1,fun held => shows_.2 ((kept.holder m other).mp held)⟩
  | aborted => exact (kept.links m other).trans shows_
  | holding data =>
    obtain ⟨⟨effect,active,seen⟩,held⟩ := shows_
    refine ⟨⟨effect,(kept.links m other).trans active,?_⟩,(kept.holder m other).mpr held⟩
    obtain same | self := kept.durable
    · rw [same]
      exact seen
    · rw [self] at held
      exact absurd (Option.some.inj held).symm other

theorem over_shows (w : World Data) (n : Nat) : (w.over n).Shows n .idle := by
  refine ⟨update_self ..,fun held => ?_⟩
  simp only [World.over] at held
  split at held
  · cases held
  · next other => exact other held
private theorem put_aborted (w : World Data) (n : Nat) : (w.put n .aborted).Shows n .aborted := update_self ..

/-- A call of a session that keeps to the guard: the world serves it as the session sees it. -/
structure Served (inv : Data → Prop) (n : Nat) (w w' : World Data) (meets : inv w.durable) (v v' : View Data) (c : Call Data)
    (answer : Answer c) (reply : Reply) : Prop where
  acts : act inv v c (reply,⟨w.durable,meets⟩) = some (answer,v')
  shows_ : w'.Shows n v'
  others : Others n w w'
  meets : inv w'.durable
  commits : ∀ data, v' = .committed data → w'.durable = data

variable {α : Type} {reply : Reply} {durable : Data}

theorem inTx_cases {statement : Statement Data → Data → Option (Except String α × World Data)} {effect : Statement Data} {data : Data}
    {result : Except String α × World Data} (active : w.links n = .active effect) (seen : effect w.durable = .ok data)
    (served : inTx n w reply statement = some result) :
    (∃ message, reply.error = some message ∧ result = (.error message,w.put n .aborted)) ∨
      reply.error = none ∧ statement effect data = some result := by
  unfold inTx at served
  rw [active] at served
  cases told : reply.error with
  | some message =>
    simp only [told,Option.some.injEq] at served
    exact .inl ⟨message,rfl,served.symm⟩
  | none =>
    simp only [told,seen] at served
    exact .inr ⟨rfl,served⟩
private theorem attempt_failed {message : String} (told : reply.error = some message) (served : Except String α × View Data) :
    attempt reply served = some (.error message,.aborted) := by
  simp [attempt,told]
private theorem attempt_done (told : reply.error = none) (served : Except String α × View Data) : attempt reply served = some served := by
  simp [attempt,told]

variable {c : Call Data} {entry : Entry} {a : Action Entry} {ok : State Data Entry Value → Action Entry → Prop}

theorem perform_served {answer : Answer c} (meets : inv w.durable) (shows_ : w.Shows n v) (guarded : Guard inv v c)
    (performed : perform n w c reply = some (answer,w')) : ∃ v', Served inv n w w' meets v v' c answer reply := by
  cases c with
  | begin =>
    obtain rfl : v = .idle := guarded
    cases told : reply.error with
    | some message =>
      simp only [perform,told] at performed
      cases performed
      exact ⟨.idle,by simp [act,told],shows_,.refl w,meets,nofun⟩
    | none =>
      simp only [perform,told] at performed
      cases performed
      exact ⟨.opened,by simp [act,told],⟨update_self ..,shows_.2⟩,.put w _,meets,nofun⟩
  | create present change =>
    obtain rfl : v = .opened := guarded
    obtain ⟨message,told,same⟩ | ⟨told,served⟩ := inTx_cases shows_.1 rfl performed
    · cases same
      exact ⟨.aborted,attempt_failed told _,put_aborted w n,.put w _,meets,nofun⟩
    · split at served
      · next found =>
        cases served
        exact ⟨.opened,by simp [act,attempt_done told,found],shows_,.refl w,meets,nofun⟩
      · next missing =>
        split at served <;> cases served
        next free =>
        refine ⟨.holding (change w.durable),by simp [act,attempt_done told,missing],⟨⟨_,update_self ..,rfl⟩,rfl⟩,
          (Others.put w _).acquired free,meets,nofun⟩
  | lock =>
    obtain rfl | ⟨data,rfl⟩ := guarded
    · obtain ⟨message,told,same⟩ | ⟨told,served⟩ := inTx_cases shows_.1 rfl performed
      · cases same
        exact ⟨.aborted,attempt_failed told _,put_aborted w n,.put w _,meets,nofun⟩
      · split at served <;> cases served
        next free =>
        exact ⟨.holding w.durable,attempt_done told _,⟨⟨_,shows_.1,rfl⟩,rfl⟩,(Others.refl w).acquired free,meets,nofun⟩
    · obtain ⟨⟨effect,active,seen⟩,held⟩ := shows_
      obtain ⟨message,told,same⟩ | ⟨told,served⟩ := inTx_cases active seen performed
      · cases same
        exact ⟨.aborted,attempt_failed told _,put_aborted w n,.put w _,meets,nofun⟩
      · rw [if_pos (.inr held)] at served
        cases served
        exact ⟨.holding data,attempt_done told _,⟨⟨effect,active,seen⟩,rfl⟩,(Others.refl w).acquired (.inr held),meets,nofun⟩
  | query =>
    obtain ⟨data,rfl⟩ := guarded
    obtain ⟨⟨effect,active,seen⟩,held⟩ := shows_
    obtain ⟨message,told,same⟩ | ⟨told,served⟩ := inTx_cases active seen performed
    · cases same
      exact ⟨.aborted,attempt_failed told _,put_aborted w n,.put w _,meets,nofun⟩
    · cases served
      exact ⟨.holding data,attempt_done told _,⟨⟨effect,active,seen⟩,held⟩,.refl w,meets,nofun⟩
  | exec statement =>
    obtain ⟨data,rfl⟩ := guarded
    obtain ⟨⟨effect,active,seen⟩,held⟩ := shows_
    obtain ⟨message,told,same⟩ | ⟨told,served⟩ := inTx_cases active seen performed
    · cases same
      exact ⟨.aborted,attempt_failed told _,put_aborted w n,.put w _,meets,nofun⟩
    · cases result : statement data with
      | error message =>
        simp only [result] at served
        cases served
        exact ⟨.aborted,by simp [act,attempt_done told,result],put_aborted w n,.put w _,meets,nofun⟩
      | ok changed =>
        simp only [result] at served
        cases served
        refine ⟨.holding changed,by simp [act,attempt_done told,result],⟨⟨_,update_self ..,?_⟩,held⟩,.put w _,meets,nofun⟩
        show (effect w.durable).bind statement = .ok changed
        rw [seen]
        exact result
  | commit =>
    obtain ⟨data,rfl,good⟩ := guarded
    obtain ⟨⟨effect,active,seen⟩,held⟩ := shows_
    simp only [perform,active,seen] at performed
    split at performed
    · next effective =>
      cases performed
      have idle := over_shows w n
      refine ⟨.committed data,by simp [act,effective],⟨idle.1,idle.2⟩,?_,good,fun _ same => by cases same; rfl⟩
      exact ⟨(Others.over w).links,(Others.over w).holder,.inr held⟩
    · next ineffective =>
      cases performed
      exact ⟨.idle,by simp [act,ineffective],over_shows w n,.over w,meets,nofun⟩
  | rollback =>
    cases performed
    exact ⟨.idle,rfl,over_shows w n,.over w,meets,nofun⟩

variable {s t : State Data Entry Value} {program : Entry → Script Data Value} {post : Entry → Value → View Data → Prop}

/-- The durable data meets the invariant, and every session is on its way to what is shown of it. -/
structure Kept (inv : Data → Prop) (post : Entry → Value → View Data → Prop) (s : State Data Entry Value) : Prop where
  meets : inv s.world.durable
  vacant : ∀ n, s.sessions n = none → s.world.Shows n .idle
  session : ∀ n entry p, s.sessions n = some (entry,p) →
    ∃ v, s.world.Shows n v ∧ Keeps inv (fun value v => v.Over ∧ post entry value v) p v

theorem step_answer (stepped : step program s (.answer n reply) = some t) :
    ∃ entry c next, ∃ (answer : Answer c), ∃ w', s.sessions n = some (entry,.call c next) ∧ perform n s.world c reply = some (answer,w') ∧
      t = ⟨w',update s.sessions n (some (entry,next answer)),s.used⟩ := by
  simp only [step] at stepped
  cases here : s.sessions n with
  | none => simp [here] at stepped
  | some session =>
    obtain ⟨entry,p⟩ := session
    cases p with
    | done value => simp [here,Program.answer] at stepped
    | call c next =>
      simp only [here,Program.answer,Option.map_map,Option.map_eq_some_iff] at stepped
      obtain ⟨⟨answer,w'⟩,performed,rfl⟩ := stepped
      exact ⟨entry,c,next,answer,w',rfl,performed,rfl⟩
theorem initial_kept (meets : inv durable) : Kept inv post (initial durable : State Data Entry Value) :=
  ⟨meets,fun _ _ => ⟨rfl,nofun⟩,nofun⟩
section
variable (kept : Kept inv post s)
include kept
theorem Kept.idle (vacant : Vacant (s.sessions n) = true) : s.world.Shows n .idle := by
  cases here : s.sessions n with
  | none => exact kept.vacant n here
  | some session =>
    obtain ⟨entry,p⟩ := session
    obtain ⟨v,shows_,keeps⟩ := kept.session n entry p here
    cases p with
    | call c next => simp [here,Vacant] at vacant
    | done value =>
      obtain ⟨ended,_⟩ : v.Over ∧ post entry value v := keeps
      cases v with
      | idle | committed _ => exact shows_
      | opened | holding _ | aborted => exact ended.elim
theorem Kept.moved {session : Option (Entry × Script Data Value)} {used : List Entry}
    (others : Others n s.world w') (meets : inv w'.durable) (vacant : session = none → w'.Shows n .idle)
    (going : ∀ entry p, session = some (entry,p) → ∃ v, w'.Shows n v ∧ Keeps inv (fun value v => v.Over ∧ post entry value v) p v) :
    Kept inv post ⟨w',update s.sessions n session,used⟩ := by
  refine ⟨meets,fun m none_ => ?_,fun m entry p some_ => ?_⟩
  · by_cases same : m = n
    · subst same
      exact vacant (by simpa using none_)
    · exact others.shows same (kept.vacant m (by simpa [same] using none_))
  · by_cases same : m = n
    · subst same
      exact going entry p (by simpa using some_)
    · obtain ⟨v,shows_,keeps⟩ := kept.session m entry p (by simpa [same] using some_)
      exact ⟨v,others.shows same shows_,keeps⟩
theorem Kept.answered {next : Answer c → Script Data Value} {answer : Answer c}
    (here : s.sessions n = some (entry,.call c next)) (performed : perform n s.world c reply = some (answer,w')) :
    ∃ v v', Served inv n s.world w' kept.meets v v' c answer reply ∧
      Keeps inv (fun value v => v.Over ∧ post entry value v) (next answer) v' := by
  obtain ⟨v,shows_,keeps⟩ := kept.session n entry _ here
  obtain ⟨v',served⟩ := perform_served kept.meets shows_ keeps.1 performed
  exact ⟨v,v',served,keeps.2 _ _ _ served.acts⟩
theorem Kept.step (enters : ∀ n entry, a = .start n entry → Keeps inv (fun value v => v.Over ∧ post entry value v) (program entry) .idle)
    (stepped : step program s a = some t) : Kept inv post t := by
  cases a with
  | start n entry =>
    obtain ⟨vacant,rfl⟩ := guarded stepped
    refine kept.moved (Others.refl s.world) kept.meets nofun (fun entry' p same => ?_)
    cases same
    exact ⟨.idle,kept.idle vacant,enters n entry rfl⟩
  | answer n reply =>
    obtain ⟨entry,c,next,answer,w',here,performed,rfl⟩ := step_answer stepped
    obtain ⟨v,v',served,keeps⟩ := kept.answered here performed
    refine kept.moved served.others served.meets nofun (fun entry' p same => ?_)
    cases same
    exact ⟨v',served.shows_,keeps⟩
  | crash n =>
    simp only [LockedSessions.step] at stepped
    split at stepped <;> cases stepped
    exact kept.moved (Others.over s.world) kept.meets (fun _ => over_shows s.world n) nofun
theorem Kept.ended {p : Script Data Value} {value : Value} (here : s.sessions n = some (entry,p))
    (stepped : LockedSessions.step program s (.answer n reply) = some t) (ended : t.sessions n = some (entry,.done value)) :
    ∃ v, post entry value v ∧ ∀ data, v = .committed data → t.world.durable = data := by
  obtain ⟨entry',c,next,answer,w',here',performed,rfl⟩ := step_answer stepped
  rw [here] at here'
  cases here'
  obtain ⟨v,v',served,keeps⟩ := kept.answered here performed
  have last : next answer = .done value := by simpa using ended
  rw [last] at keeps
  exact ⟨v',keeps.2,served.commits⟩
end
theorem reach_kept (meets : inv durable)
    (enters : ∀ s n entry, ok s (.start n entry) → Keeps inv (fun value v => v.Over ∧ post entry value v) (program entry) .idle)
    (run : Reach (step program) ok (initial durable) s) : Kept inv post s :=
  run.invariant (initial_kept meets) (fun kept allowed stepped =>
    kept.step (fun n entry same => enters _ n entry (same ▸ allowed)) stepped)
def Action.entries : Action Entry → List Entry
  | .start _ entry => [entry]
  | .answer _ _ | .crash _ => []
theorem step_used (stepped : step program s a = some t) : t.used = a.entries ++ s.used := by
  cases a with
  | start n entry =>
    obtain ⟨_,rfl⟩ := guarded stepped
    rfl
  | answer n reply =>
    obtain ⟨_,_,_,_,_,_,_,rfl⟩ := step_answer stepped
    rfl
  | crash n =>
    simp only [step] at stepped
    split at stepped <;> cases stepped
    rfl
theorem reach_used (run : Reach (step program) ok (initial durable) s) :
    Reach (step program) (fun _ a => ∀ entry ∈ a.entries, entry ∈ s.used) (initial durable) s := by
  induction run with
  | start => exact .start
  | next _ _ stepped ih =>
    rw [step_used stepped]
    refine (ih.mono (fun _ _ allowed entry member => List.mem_append_right _ (allowed entry member))).next ?_ stepped
    exact fun entry member => List.mem_append_left _ member
end

end Stellabill.LockedSessions

import Stellabill.Program
import Mathlib.Logic.Function.Basic

/-!
Connections to a database that callers take from a pool and give back. A transaction
object goes on to name its connection when that has long been given back, so who acts on
which connection has to be proved: each caller has a view of the connection it holds.
-/
namespace Stellabill.Connections
open Program Function

variable {Data : Type}

/-- A statement, which may depend on the setting it is executed under. -/
abbrev Statement (Data : Type) := Option String → Data → Except String Data

/-- What the server has for a connection: no transaction, one with its setting and its statements' effect, or nothing any more. -/
inductive Link (Data : Type)
  | idle
  | inTx (setting : Option String) (aborted : Bool) (effect : Data → Except String Data)
  | dead

def Link.setting : Link Data → Option String
  | .inTx setting _ _ => setting
  | .idle | .dead => none
def Link.Quiet : Link Data → Prop
  | .inTx .. => False
  | .idle | .dead => True
/-- What becomes of a connection that is given back: one that is not idle is destroyed. -/
def Link.returned : Link Data → Link Data
  | .idle => .idle
  | .inTx .. | .dead => .dead

theorem Link.returned_quiet (link : Link Data) : link.returned.Quiet := by cases link <;> trivial

/-- A caller's transaction object; a closed one sends nothing. -/
inductive TxObject
  | absent | live | closed
  deriving DecidableEq, Repr

structure Conn (Data : Type) where
  link : Link Data
  holder : Option Nat
/-- A caller's objects: the connection they name and the transaction object. -/
structure Lease where
  conn : Option Nat
  tx : TxObject
  deriving DecidableEq
structure Executed where
  lease : Nat
  setting : Option String
  deriving DecidableEq

/-- The database, its connections, the leases and the statements executed so far. -/
structure World (Data : Type) where
  durable : Data
  conns : Nat → Conn Data
  leases : Nat → Lease
  log : List Executed

def World.start (durable : Data) : World Data := ⟨durable,fun _ => ⟨.idle,none⟩,fun _ => ⟨none,.absent⟩,[]⟩

inductive Call (Data : Type)
  | acquire
  | begin
  | setLocal (value : String)
  | statement (s : Statement Data)
  | commit
  | rollback
  | release
abbrev Answer (_ : Call Data) : Type := Except String Unit

/-- How a call goes: carried out, refused, the connection breaks before or after, or (for an acquisition) a connection is found. -/
inductive Choice
  | done
  | refused (message : String)
  | broken (executed : Bool) (message : String)
  | conn (c : Nat)
  deriving DecidableEq

structure Served (Data : Type) where
  answer : Except String Unit
  tx : TxObject
  link : Link Data
  durable : Data
  executed : Bool

def applied (change : Data → Except String Data) (data : Data) : Data := (change data).toOption.getD data

section
variable (durable : Data)
/-- `BEGIN`. A connection on which it fails is closed. -/
def serveBegin (tx : TxObject) (link : Link Data) : Choice → Option (Served Data)
  | .conn _ => none
  | .done => match link with
    | .dead => some ⟨.error "conn closed",tx,.dead,durable,false⟩
    | .idle => some ⟨.ok (),.live,.inTx none false .ok,durable,false⟩
    | .inTx setting aborted effect => some ⟨.ok (),.live,.inTx setting aborted effect,durable,false⟩
  | .refused message | .broken _ message => some ⟨.error message,tx,.dead,durable,false⟩
/-- `SET LOCAL`, which has no effect outside of a transaction. -/
def serveSetLocal (value : String) (durable : Data) (link : Link Data) : Choice → Option (Served Data)
  | .conn _ => none
  | .done => match link with
    | .dead => some ⟨.error "conn closed",.live,.dead,durable,false⟩
    | .idle => some ⟨.ok (),.live,.idle,durable,false⟩
    | .inTx setting true effect => some ⟨.error "current transaction is aborted",.live,.inTx setting true effect,durable,false⟩
    | .inTx _ false effect => some ⟨.ok (),.live,.inTx (some value) false effect,durable,false⟩
  | .refused message => match link with
    | .dead => some ⟨.error "conn closed",.live,.dead,durable,false⟩
    | .idle => some ⟨.error message,.live,.idle,durable,false⟩
    | .inTx setting _ effect => some ⟨.error message,.live,.inTx setting true effect,durable,false⟩
  | .broken _ message => some ⟨.error message,.live,.dead,durable,false⟩
/-- A statement. One that fails aborts its transaction; outside of one it is durable at once. -/
def serveStatement (s : Statement Data) (durable : Data) (link : Link Data) : Choice → Option (Served Data)
  | .conn _ => none
  | .done => match link with
    | .dead => some ⟨.error "conn closed",.live,.dead,durable,false⟩
    | .idle => match s none durable with
      | .error message => some ⟨.error message,.live,.idle,durable,true⟩
      | .ok data => some ⟨.ok (),.live,.idle,data,true⟩
    | .inTx setting true effect => some ⟨.error "current transaction is aborted",.live,.inTx setting true effect,durable,false⟩
    | .inTx setting false effect => match (effect durable).bind (s setting) with
      | .error message => some ⟨.error message,.live,.inTx setting true effect,durable,true⟩
      | .ok _ => some ⟨.ok (),.live,.inTx setting false (fun data => (effect data).bind (s setting)),durable,true⟩
  | .refused message => match link with
    | .dead => some ⟨.error "conn closed",.live,.dead,durable,false⟩
    | .idle => some ⟨.error message,.live,.idle,durable,true⟩
    | .inTx setting aborted effect => some ⟨.error message,.live,.inTx setting true effect,durable,!aborted⟩
  | .broken executed message => match link with
    | .dead => some ⟨.error "conn closed",.live,.dead,durable,false⟩
    | .idle => some ⟨.error message,.live,.dead,if executed then applied (s none) durable else durable,executed⟩
    | .inTx _ aborted _ => some ⟨.error message,.live,.dead,durable,executed && !aborted⟩
/-- `COMMIT`, which closes the transaction object however it goes. -/
def serveCommit (link : Link Data) : Choice → Option (Served Data)
  | .conn _ => none
  | .done => match link with
    | .dead => some ⟨.error "conn closed",.closed,.dead,durable,false⟩
    | .idle => some ⟨.ok (),.closed,.idle,durable,false⟩
    | .inTx _ true _ => some ⟨.error "commit unexpectedly resulted in rollback",.closed,.idle,durable,false⟩
    | .inTx _ false effect => match effect durable with
      | .error message => some ⟨.error message,.closed,.idle,durable,false⟩
      | .ok data => some ⟨.ok (),.closed,.idle,data,false⟩
  | .refused message => match link with
    | .dead => some ⟨.error "conn closed",.closed,.dead,durable,false⟩
    | .idle | .inTx .. => some ⟨.error message,.closed,.idle,durable,false⟩
  | .broken executed message => match link with
    | .inTx _ false effect => some ⟨.error message,.closed,.dead,if executed then applied effect durable else durable,false⟩
    | .inTx _ true _ | .idle | .dead => some ⟨.error message,.closed,.dead,durable,false⟩
/-- `ROLLBACK`, which closes the transaction object too. A connection on which it fails is closed. -/
def serveRollback (link : Link Data) : Choice → Option (Served Data)
  | .conn _ => none
  | .done => match link with
    | .dead => some ⟨.error "conn closed",.closed,.dead,durable,false⟩
    | .idle | .inTx .. => some ⟨.ok (),.closed,.idle,durable,false⟩
  | .refused message | .broken _ message => some ⟨.error message,.closed,.dead,durable,false⟩

/-- A call on the connection of a lease. But for `BEGIN` it goes through the transaction object. -/
def serve (tx : TxObject) (link : Link Data) (call : Call Data) (choice : Choice) : Option (Served Data) :=
  let closed : Served Data := ⟨.error "tx is closed",tx,link,durable,false⟩
  match call with
  | .acquire | .release => none
  | .begin => serveBegin durable tx link choice
  | .setLocal value => if tx = .live then serveSetLocal value durable link choice else some closed
  | .statement s => if tx = .live then serveStatement s durable link choice else some closed
  | .commit => if tx = .live then serveCommit durable link choice else some closed
  | .rollback => if tx = .live then serveRollback durable link choice else some closed
end

def World.holds (w : World Data) (n : Nat) : Bool := (w.leases n).conn.any (fun c => (w.conns c).holder = some n)

def perform (n : Nat) (w : World Data) (c : Call Data) (choice : Choice) : Option (Answer c × World Data) :=
  match c with
  | .acquire =>
    if w.holds n then none
    else match choice with
      | .conn c =>
        if (w.conns c).holder = none then
          some (.ok (),{ w with
            conns := update w.conns c ⟨(w.conns c).link,some n⟩
            leases := update w.leases n ⟨some c,(w.leases n).tx⟩ })
        else none
      | .refused message | .broken _ message => some (.error message,w)
      | .done => none
  | .release =>
    match (w.leases n).conn with
    | none => some (.ok (),w)
    | some c =>
      if (w.conns c).holder = some n then
        some (.ok (),{ w with conns := update w.conns c ⟨(w.conns c).link.returned,none⟩ })
      else some (.ok (),w)
  | call =>
    match (w.leases n).conn with
    | none => none
    | some c => (serve w.durable (w.leases n).tx (w.conns c).link call choice).map (fun served =>
      (served.answer,{
        durable := served.durable
        conns := update w.conns c ⟨served.link,(w.conns c).holder⟩
        leases := update w.leases n ⟨some c,served.tx⟩
        log := if served.executed then ⟨n,(w.conns c).link.setting⟩ :: w.log else w.log }))

/-- What a lease has in hand: its transaction object and the connection it holds. -/
structure View (Data : Type) where
  tx : TxObject
  link : Option (Link Data)

def World.view (w : World Data) (n : Nat) : View Data where
  tx := (w.leases n).tx
  link := (w.leases n).conn.bind (fun c => if (w.conns c).holder = some n then some (w.conns c).link else none)

/-- A choice as one lease sees it: with the data at the time and the connection that was found. -/
structure Chance (Data : Type) where
  choice : Choice
  durable : Data
  found : Link Data

def act (v : View Data) (c : Call Data) (chance : Chance Data) : Option (Answer c × View Data) :=
  match c with
  | .acquire =>
    match v.link, chance.choice with
    | none, .conn _ => some (.ok (),{ v with link := some chance.found.returned })
    | none, .refused message | none, .broken _ message => some (.error message,v)
    | _, _ => none
  | .release => some (.ok (),{ v with link := none })
  | call =>
    match v.link with
    | some link => (serve chance.durable v.tx link call chance.choice).map (fun served => (served.answer,⟨served.tx,some served.link⟩))
    | none => if v.tx = .live then none else some (.error "tx is closed",v)

/-- Connections that nobody holds have no transaction, and who holds a connection names it. -/
structure World.Clean (w : World Data) : Prop where
  quiet : ∀ c, (w.conns c).holder = none → (w.conns c).link.Quiet
  named : ∀ c n, (w.conns c).holder = some n → (w.leases n).conn = some c
theorem World.start_clean (durable : Data) : (World.start durable).Clean := ⟨fun _ _ => trivial,by simp [World.start]⟩

/-- Before a call: it begins on a connection it holds, holds that of a live transaction, and has a setting that meets `ok`. -/
def Guard (ok : Option String → Prop) (v : View Data) : Call Data → Prop
  | .acquire | .release => True
  | .begin => v.link ≠ none
  | .statement _ => v.tx = .live → ∃ link, v.link = some link ∧ (link = .dead ∨ ok link.setting)
  | .setLocal _ | .commit | .rollback => v.tx = .live → v.link ≠ none

/-! ### The calls of one lease as the others see them -/

def Call.Sent : Call Data → Prop
  | .acquire | .release => False
  | .begin | .setLocal _ | .statement _ | .commit | .rollback => True

def World.after (w : World Data) (n c : Nat) (served : Served Data) : World Data where
  durable := served.durable
  conns := update w.conns c ⟨served.link,(w.conns c).holder⟩
  leases := update w.leases n ⟨some c,served.tx⟩
  log := if served.executed then ⟨n,(w.conns c).link.setting⟩ :: w.log else w.log

section
variable {ok : Option String → Prop} {w w' : World Data} {n c : Nat} {call : Call Data} {choice : Choice}
  {answer : Except String Unit} {served : Served Data}

theorem perform_sent (sent : call.Sent) (performed : perform n w call choice = some (answer,w')) :
    ∃ c served, (w.leases n).conn = some c ∧ serve w.durable (w.leases n).tx (w.conns c).link call choice = some served ∧
      answer = served.answer ∧ w' = w.after n c served := by
  cases call with
  | acquire | release => exact sent.elim
  | begin | setLocal | statement | commit | rollback =>
    simp only [perform] at performed
    split at performed
    · cases performed
    · next c named =>
      obtain ⟨served,serves,same⟩ := Option.map_eq_some_iff.mp performed
      cases same
      exact ⟨c,served,named,serves,rfl,rfl⟩
theorem act_sent (sent : call.Sent) (v : View Data) (chance : Chance Data) : act v call chance =
    match v.link with
    | some link => (serve chance.durable v.tx link call chance.choice).map (fun served => (served.answer,⟨served.tx,some served.link⟩))
    | none => if v.tx = .live then none else some (.error "tx is closed",v) := by
  cases call with
  | acquire | release => exact sent.elim
  | begin | setLocal | statement | commit | rollback => rfl

variable {durable : Data} {tx : TxObject} {link : Link Data}

theorem serve_closed (sent : call.Sent) (closed : tx ≠ .live) (other : call ≠ .begin) :
    serve durable tx link call choice = some ⟨.error "tx is closed",tx,link,durable,false⟩ := by
  cases call with
  | acquire | release => exact sent.elim
  | begin => exact absurd rfl other
  | setLocal | statement | commit | rollback => simp [serve,closed]
theorem serve_cases (serves : serve durable tx link call choice = some served) :
    served = ⟨.error "tx is closed",tx,link,durable,false⟩ ∨ match call with
      | .acquire | .release => False
      | .begin => serveBegin durable tx link choice = some served
      | .setLocal value => serveSetLocal value durable link choice = some served
      | .statement s => tx = .live ∧ serveStatement s durable link choice = some served
      | .commit => serveCommit durable link choice = some served
      | .rollback => serveRollback durable link choice = some served := by
  by_cases live : tx = .live
  · cases call with
    | acquire | release => cases serves
    | begin => exact .inr serves
    | setLocal | commit | rollback => exact .inr (by simpa [serve,live] using serves)
    | statement s => exact .inr ⟨live,by simpa [serve,live] using serves⟩
  · cases call with
    | acquire | release => cases serves
    | begin => exact .inr serves
    | setLocal | statement | commit | rollback =>
      simp only [serve,live,if_false,Option.some.injEq] at serves
      exact .inl serves.symm
theorem serve_executed (serves : serve durable tx link call choice = some served) (executed : served.executed = true) :
    ∃ s, call = .statement s ∧ tx = .live ∧ link ≠ .dead := by
  rcases serve_cases serves with rfl | answered
  · cases executed
  · cases call with
    | acquire | release => exact answered.elim
    | begin | rollback => cases choice <;> cases link <;> cases answered <;> cases executed
    | setLocal => cases choice <;> rcases link with _ | ⟨setting,_ | _,effect⟩ | _ <;> cases answered <;> cases executed
    | statement s =>
      refine ⟨s,rfl,answered.1,?_⟩
      rintro rfl
      have refused := answered.2
      cases choice <;> cases refused <;> cases executed
    | commit =>
      cases choice <;> rcases link with _ | ⟨setting,_ | _,effect⟩ | _ <;> simp only [serveCommit] at answered <;>
        (try split at answered) <;> cases answered <;> cases executed

theorem view_held (named : (w.leases n).conn = some c) (held : (w.conns c).holder = some n) :
    w.view n = ⟨(w.leases n).tx,some (w.conns c).link⟩ := by
  simp [World.view,named,held]
theorem view_unheld (named : (w.leases n).conn = some c) (unheld : (w.conns c).holder ≠ some n) : w.view n = ⟨(w.leases n).tx,none⟩ := by
  simp [World.view,named,unheld]
theorem view_congr {m : Nat} (same : w'.leases m = w.leases m)
    (apart : ∀ c, w'.conns c = w.conns c ∨ ((w'.conns c).holder ≠ some m ∧ (w.conns c).holder ≠ some m)) : w'.view m = w.view m := by
  unfold World.view
  rw [same]
  cases named : (w.leases m).conn with
  | none => simp
  | some c =>
    rcases apart c with equal | ⟨after,before⟩
    · simp [equal]
    · simp [after,before]

theorem unheld_of_held (held : (w.conns c).holder = some n) (m : Nat) (other : m ≠ n) : (w.conns c).holder ≠ some m := by
  rw [held]
  exact fun same => other (Option.some.inj same).symm
/-- What a call of lease `n` comes to: the pool stays clean, the lease sees what `act` says, the others nothing, and at
    most one statement is executed, under a setting that meets `ok`. -/
structure Performed (ok : Option String → Prop) (n : Nat) (w : World Data) (call : Call Data) (answer : Except String Unit)
    (w' : World Data) : Prop where
  clean : w'.Clean
  own : ∃ chance, act (w.view n) call chance = some (answer,w'.view n)
  others : ∀ m, m ≠ n → w'.view m = w.view m
  log : w'.log = w.log ∨ ∃ setting, ok setting ∧ w'.log = ⟨n,setting⟩ :: w.log
section
variable (clean : w.Clean)
include clean
theorem World.Clean.alone (named : (w.leases n).conn = some c) (c' : Nat) (holder : (w.conns c').holder = some n) :
    c' = c := Option.some.inj ((clean.named c' n holder).symm.trans named)
theorem performed_change {conn : Conn Data} (conns : w'.conns = update w.conns c conn)
    (leases : ∀ m, m ≠ n → w'.leases m = w.leases m) (alone : ∀ c', (w.conns c').holder = some n → c' = c)
    (unheld : ∀ m, m ≠ n → (w.conns c).holder ≠ some m) (quiet : conn.holder = none → conn.link.Quiet)
    (named : ∀ m, conn.holder = some m → m = n ∧ (w'.leases n).conn = some c)
    (own : ∃ chance, act (w.view n) call chance = some (answer,w'.view n))
    (log : w'.log = w.log ∨ ∃ setting, ok setting ∧ w'.log = ⟨n,setting⟩ :: w.log) : Performed ok n w call answer w' := by
  refine ⟨⟨?_,?_⟩,own,?_,log⟩
  · intro c' free
    rw [conns] at free ⊢
    by_cases same : c' = c
    · subst same
      simpa using quiet (by simpa using free)
    · rw [update_of_ne same] at free ⊢
      exact clean.quiet c' free
  · intro c' m holder
    rw [conns] at holder
    by_cases same : c' = c
    · subst same
      obtain ⟨rfl,own⟩ := named m (by simpa using holder)
      exact own
    · rw [update_of_ne same] at holder
      have other : m ≠ n := by
        rintro rfl
        exact same (alone c' holder)
      rw [leases m other]
      exact clean.named c' m holder
  · intro m other
    refine view_congr (leases m other) (fun c' => ?_)
    rw [conns]
    by_cases same : c' = c
    · subst same
      exact .inr ⟨fun holder => other (named m (by simpa using holder)).1,unheld m other⟩
    · exact .inl (by simp [same])
theorem performed_acquire (performed : perform n w .acquire choice = some (answer,w')) : Performed ok n w .acquire answer w' := by
  simp only [perform] at performed
  split at performed
  · cases performed
  · next free =>
    have empty : (w.view n).link = none := by
      cases named : (w.leases n).conn with
      | none => simp [World.view,named]
      | some c =>
        have unheld : (w.conns c).holder ≠ some n := by simpa [World.holds,named] using free
        rw [view_unheld named unheld]
    split at performed
    · next c =>
      split at performed <;> cases performed
      next loose =>
      have alone : ∀ c', (w.conns c').holder = some n → c' = c := by
        intro c' holder
        simp [World.holds,clean.named c' n holder,holder] at free
      have kept : (w.conns c).link.returned = (w.conns c).link := by
        have quiet := clean.quiet c loose
        revert quiet
        cases (w.conns c).link <;> simp [Link.Quiet,Link.returned]
      refine performed_change clean rfl (fun m other => by simp [other]) alone (by simp [loose]) (by simp) ?_
        ⟨⟨.conn c,w.durable,(w.conns c).link⟩,?_⟩ (.inl rfl)
      · intro m holder
        exact ⟨(Option.some.inj holder).symm,by simp⟩
      · rw [act,empty]
        simp [World.view,kept]
    · next message =>
      cases performed
      exact ⟨clean,⟨⟨.refused message,w.durable,.dead⟩,by simp [act,empty]⟩,fun _ _ => rfl,.inl rfl⟩
    · next executed message =>
      cases performed
      exact ⟨clean,⟨⟨.refused message,w.durable,.dead⟩,by simp [act,empty]⟩,fun _ _ => rfl,.inl rfl⟩
    · cases performed
private theorem performed_release (performed : perform n w .release choice = some (answer,w')) : Performed ok n w .release answer w' := by
  simp only [perform] at performed
  split at performed
  · next unnamed =>
    cases performed
    exact ⟨clean,⟨⟨.done,w.durable,.dead⟩,by simp [act,World.view,unnamed]⟩,fun _ _ => rfl,.inl rfl⟩
  · next c named =>
    split at performed
    · next held =>
      cases performed
      exact performed_change clean rfl (fun _ _ => rfl) (clean.alone named) (unheld_of_held held)
        (fun _ => Link.returned_quiet _) (by simp) ⟨⟨.done,w.durable,.dead⟩,by simp [act,World.view,named]⟩ (.inl rfl)
    · next unheld =>
      cases performed
      exact ⟨clean,⟨⟨.done,w.durable,.dead⟩,by simp [act,view_unheld named unheld]⟩,fun _ _ => rfl,.inl rfl⟩
variable (guarded : Guard ok (w.view n) call) (performed : perform n w call choice = some (answer,w'))
include guarded performed
private theorem performed_sent (sent : call.Sent) : Performed ok n w call answer w' := by
  obtain ⟨c,served,named,serves,rfl,rfl⟩ := perform_sent sent performed
  by_cases held : (w.conns c).holder = some n
  · refine performed_change clean rfl (fun m other => by simp [World.after,other]) (clean.alone named) (unheld_of_held held)
      (by simp [held]) ?_ ⟨⟨choice,w.durable,.dead⟩,?_⟩ ?_
    · intro m holder
      exact ⟨Option.some.inj (holder.symm.trans held),by simp [World.after]⟩
    · rw [act_sent sent,view_held named held,view_held (c := c) (by simp [World.after]) (by simp [World.after,held])]
      simp [serves,World.after]
    · cases executed : served.executed with
      | false => exact .inl (by simp [World.after,executed])
      | true =>
        obtain ⟨s,rfl,live,alive⟩ := serve_executed serves executed
        rw [view_held named held] at guarded
        obtain ⟨link,same,dead | meets⟩ := guarded live
        · exact absurd ((Option.some.inj same).trans dead) alive
        · cases same
          exact .inr ⟨_,meets,by simp [World.after,executed]⟩
  · -- a lease that has given its connection back sends nothing over it
    have view := view_unheld named held
    have closed : (w.leases n).tx ≠ .live ∧ call ≠ .begin := by
      cases call <;> simp_all [Guard,Call.Sent]
    rw [serve_closed sent closed.1 closed.2] at serves
    cases serves
    have unchanged : w.after n c ⟨.error "tx is closed",(w.leases n).tx,(w.conns c).link,w.durable,false⟩ = w := by
      have lease : (⟨some c,(w.leases n).tx⟩ : Lease) = w.leases n := by rw [← named]
      simp [World.after,lease]
    rw [unchanged]
    refine ⟨clean,⟨⟨.done,w.durable,.dead⟩,?_⟩,fun _ _ => rfl,.inl rfl⟩
    rw [act_sent sent,view]
    simp [closed.1]
theorem perform_performed : Performed ok n w call answer w' := by
  cases call with
  | acquire => exact performed_acquire clean performed
  | release => exact performed_release clean performed
  | begin | setLocal | statement | commit | rollback => exact performed_sent clean guarded performed trivial
end
end

/-! ### Rules for programs -/

def View.Free (v : View Data) : Prop := v.tx ≠ .live ∧ v.link = none
def View.Quiet (v : View Data) : Prop := v.tx ≠ .live ∧ ∃ link, v.link = some link ∧ link.Quiet
/-- A live transaction has its connection, dead or in a transaction under a setting that meets `ok`. -/
def View.Open (ok : Option String → Prop) (v : View Data) : Prop :=
  v.tx = .live ∧ ∃ link, v.link = some link ∧ (link = .dead ∨ ∃ setting aborted effect, link = .inTx setting aborted effect ∧ ok setting)

section
variable {Value : Type} {ok ok' : Option String → Prop} {post : Value → View Data → Prop} {v : View Data}

theorem View.Open.mono (isOpen : v.Open ok) (weaker : ∀ setting, ok setting → ok' setting) : v.Open ok' := by
  obtain ⟨live,link,here,dead | ⟨setting,aborted,effect,same,meets⟩⟩ := isOpen
  · exact ⟨live,link,here,.inl dead⟩
  · exact ⟨live,link,here,.inr ⟨setting,aborted,effect,same,weaker setting meets⟩⟩
theorem View.Open.guard (isOpen : v.Open ok) : v.tx = .live → v.link ≠ none := by
  obtain ⟨_,link,here,_⟩ := isOpen
  simp [here]

abbrev P (Data Value : Type) := Prog (Call Data) Answer Value
/-- The program makes its calls as `Guard` asks for, however they go, and ends with `post`. -/
abbrev Keeps (ok : Option String → Prop) (post : Value → View Data → Prop) (p : P Data Value) (v : View Data) : Prop :=
  Safe act (Guard ok) post p v

variable {next : Except String Unit → P Data Value} {link : Link Data} {c : Call Data} {answer : Except String Unit} {durable : Data}
  {choice : Choice} {served : Served Data}

theorem keeps_acquire (free : v.Free) (found : ∀ v : View Data, v.Quiet → Keeps ok post (next (.ok ())) v)
    (failed : ∀ message, Keeps ok post (next (.error message)) v) : Keeps ok post (call .acquire >>= next) v := by
  refine safe_call_bind trivial (fun chance answer v' acted => ?_)
  rw [act,free.2] at acted
  cases choice : chance.choice with
  | done => simp [choice] at acted
  | refused message =>
    simp only [choice,Option.some.injEq,Prod.mk.injEq] at acted
    obtain ⟨rfl,rfl⟩ := acted
    exact failed message
  | broken executed message =>
    simp only [choice,Option.some.injEq,Prod.mk.injEq] at acted
    obtain ⟨rfl,rfl⟩ := acted
    exact failed message
  | conn c =>
    simp only [choice,Option.some.injEq,Prod.mk.injEq] at acted
    obtain ⟨rfl,rfl⟩ := acted
    exact found _ ⟨free.1,_,rfl,chance.found.returned_quiet⟩
theorem keeps_release (ended : v.tx ≠ .live)
    (after : ∀ (answer : Except String Unit) (v : View Data), v.Free → Keeps ok post (next answer) v) :
    Keeps ok post (call .release >>= next) v := by
  refine safe_call_bind trivial (fun chance answer v' acted => ?_)
  cases acted
  exact after _ _ ⟨ended,rfl⟩

variable {chance : Chance Data} {v' : View Data} {tx : TxObject} {value : String} {s : Statement Data} {p : P Data Value}
  {w w' : World Data} {n : Nat}

theorem act_held (here : v.link = some link) (acted : act v c chance = some (answer,v')) (sent : c.Sent) :
    ∃ served, serve chance.durable v.tx link c chance.choice = some served ∧ answer = served.answer ∧
      v' = ⟨served.tx,some served.link⟩ := by
  rw [act_sent sent,here] at acted
  obtain ⟨served,serves,same⟩ := Option.map_eq_some_iff.mp acted
  cases same
  exact ⟨served,serves,rfl,rfl⟩
theorem act_ended (sent : c.Sent) (other : c ≠ .begin) (ended : v.tx ≠ .live) (acted : act v c chance = some (answer,v')) :
    answer = .error "tx is closed" ∧ v' = v := by
  rw [act_sent sent] at acted
  cases here : v.link with
  | none =>
    simp only [here,ended,if_false,Option.some.injEq,Prod.mk.injEq] at acted
    exact ⟨acted.1.symm,acted.2.symm⟩
  | some link =>
    simp only [here,serve_closed sent ended other,Option.map_some,Option.some.injEq,Prod.mk.injEq] at acted
    refine ⟨acted.1.symm,?_⟩
    rw [← acted.2,← here]

private theorem serveBegin_spec (quiet : link.Quiet) (serves : serveBegin durable tx link choice = some served) :
    (served.answer = .ok () ∧ served.tx = .live ∧ ∃ setting aborted effect, served.link = .inTx setting aborted effect) ∨
      ((∃ message, served.answer = .error message) ∧ served.tx = tx ∧ served.link = .dead) := by
  cases choice <;> cases link <;> cases serves <;> simp_all [Link.Quiet]
private theorem serveSetLocal_spec (kept : link = .dead ∨ ∃ setting aborted effect, link = .inTx setting aborted effect)
    (serves : serveSetLocal value durable link choice = some served) :
    served.tx = .live ∧ (served.answer = .ok () → ∃ aborted effect, served.link = .inTx (some value) aborted effect) ∧
      (served.link = .dead ∨ ∃ setting aborted effect, served.link = .inTx setting aborted effect) := by
  cases choice <;> rcases link with _ | ⟨setting,_ | _,effect⟩ | _ <;> cases serves <;> simp_all
private theorem serveStatement_spec (kept : link = .dead ∨ ∃ setting aborted effect, link = .inTx setting aborted effect ∧ ok setting)
    (serves : serveStatement s durable link choice = some served) :
    served.tx = .live ∧ (served.link = .dead ∨ ∃ setting aborted effect, served.link = .inTx setting aborted effect ∧ ok setting) := by
  cases choice <;> rcases link with _ | ⟨setting,_ | _,effect⟩ | _ <;> simp only [serveStatement] at serves <;>
    (try split at serves) <;> cases serves <;> simp_all
theorem serveCommit_spec (serves : serveCommit durable link choice = some served) : served.tx = .closed ∧ served.link.Quiet := by
  cases choice <;> rcases link with _ | ⟨setting,_ | _,effect⟩ | _ <;> simp only [serveCommit] at serves <;>
    (try split at serves) <;> cases serves <;> simp [Link.Quiet]
theorem serveRollback_spec (serves : serveRollback durable link choice = some served) : served.tx = .closed ∧ served.link.Quiet := by
  cases choice <;> cases link <;> cases serves <;> simp [Link.Quiet]

theorem keeps_begin (quiet : v.Quiet) (begun : ∀ v : View Data, v.Open (fun _ => True) → Keeps ok post (next (.ok ())) v)
    (failed : ∀ message (v : View Data), v.Quiet → Keeps ok post (next (.error message)) v) : Keeps ok post (call .begin >>= next) v := by
  obtain ⟨ended,link,here,still⟩ := quiet
  refine safe_call_bind (by simp [Guard,here]) (fun chance answer v' acted => ?_)
  obtain ⟨served,serves,rfl,rfl⟩ := act_held here acted trivial
  rcases serveBegin_spec still serves with ⟨good,live,setting,aborted,effect,inside⟩ | ⟨⟨message,bad⟩,same,dead⟩
  · rw [good]
    exact begun _ ⟨live,_,rfl,.inr ⟨setting,aborted,effect,inside,trivial⟩⟩
  · rw [bad]
    exact failed message _ ⟨by simpa [same] using ended,_,rfl,by simp [dead,Link.Quiet]⟩
theorem keeps_setLocal (isOpen : v.Open (fun _ => True))
    (set : ∀ v : View Data, v.Open (fun setting => setting = some value) → Keeps ok post (next (.ok ())) v)
    (failed : ∀ message (v : View Data), v.Open (fun _ => True) → Keeps ok post (next (.error message)) v) :
    Keeps ok post (call (.setLocal value) >>= next) v := by
  refine safe_call_bind isOpen.guard (fun chance answer v' acted => ?_)
  obtain ⟨live,link,here,kept⟩ := isOpen
  obtain ⟨served,serves,rfl,rfl⟩ := act_held here acted trivial
  rw [serve,if_pos live] at serves
  obtain ⟨still,good,any⟩ := serveSetLocal_spec (by simpa using kept) serves
  cases answer : served.answer with
  | ok =>
    obtain ⟨aborted,effect,inside⟩ := good answer
    exact set _ ⟨still,_,rfl,.inr ⟨_,aborted,effect,inside,rfl⟩⟩
  | error message => exact failed message _ ⟨still,_,rfl,by simpa using any⟩
theorem keeps_statement (isOpen : v.Open ok)
    (after : ∀ (answer : Except String Unit) (v : View Data), v.Open ok → Keeps ok post (next answer) v) :
    Keeps ok post (call (.statement s) >>= next) v := by
  obtain ⟨live,link,here,kept⟩ := isOpen
  have guarded : Guard ok v (.statement s) := by
    refine fun _ => ⟨link,here,kept.imp id ?_⟩
    rintro ⟨setting,aborted,effect,rfl,meets⟩
    exact meets
  refine safe_call_bind guarded (fun chance answer v' acted => ?_)
  obtain ⟨served,serves,rfl,rfl⟩ := act_held here acted trivial
  rw [serve,if_pos live] at serves
  obtain ⟨still,same⟩ := serveStatement_spec kept serves
  exact after _ _ ⟨still,_,rfl,same⟩

section
variable (isOpen : v.Open (fun _ => True))
  (after : ∀ (answer : Except String Unit) (v : View Data), v.Quiet → Keeps ok post (next answer) v)
include isOpen after
theorem keeps_closing (sent : c.Sent) (guarded : Guard ok v c)
    (closes : ∀ {durable : Data} {link : Link Data} {choice : Choice} {served : Served Data},
      serve durable .live link c choice = some served → served.tx = .closed ∧ served.link.Quiet) : Keeps ok post (call c >>= next) v := by
  refine safe_call_bind guarded (fun chance answer v' acted => ?_)
  obtain ⟨live,link,here,_⟩ := isOpen
  obtain ⟨served,serves,rfl,rfl⟩ := act_held here acted sent
  rw [live] at serves
  obtain ⟨closed,quiet⟩ := closes serves
  exact after _ _ ⟨by simp [closed],_,rfl,quiet⟩
theorem keeps_commit : Keeps ok post (call .commit >>= next) v :=
  keeps_closing isOpen after trivial isOpen.guard serveCommit_spec
theorem keeps_rollback : Keeps ok post (call .rollback >>= next) v :=
  keeps_closing isOpen after trivial isOpen.guard serveRollback_spec
end

theorem keeps_ended (sent : c.Sent) (other : c ≠ .begin) (ended : v.tx ≠ .live) (after : Keeps ok post (next (.error "tx is closed")) v) :
    Keeps ok post (call c >>= next) v := by
  have guarded : Guard ok v c := by
    cases c with
    | acquire | release => trivial
    | begin => exact absurd rfl other
    | setLocal | statement | commit | rollback => exact fun live => absurd live ended
  refine safe_call_bind guarded (fun chance answer v' acted => ?_)
  obtain ⟨rfl,rfl⟩ := act_ended sent other ended acted
  exact after

def Uncommitted : P Data Value → Prop
  | .done _ => True
  | .call c next => c ≠ .commit ∧ ∀ answer, Uncommitted (next answer)

theorem uncommitted_bind {Value' : Type} {f : Value → P Data Value'} (first : Uncommitted p) (rest : ∀ value, Uncommitted (f value)) :
    Uncommitted (p >>= f) := by
  induction p with
  | done value => exact rest value
  | call c next ih => exact ⟨first.1,fun answer => ih answer (first.2 answer)⟩
theorem uncommitted_call (other : c ≠ .commit) (rest : ∀ answer, Uncommitted (next answer)) : Uncommitted (call c >>= next) := ⟨other,rest⟩

private theorem serve_durable (other : c ≠ .commit) (inside : (∃ s, c = .statement s) → tx = .live → link = .dead ∨ link.setting ≠ none)
    (serves : serve durable tx link c choice = some served) : served.durable = durable := by
  rcases serve_cases serves with rfl | answered
  · rfl
  · cases c with
    | acquire | release => exact answered.elim
    | commit => exact absurd rfl other
    | begin | rollback => cases choice <;> cases link <;> cases answered <;> rfl
    | setLocal value => cases choice <;> rcases link with _ | ⟨setting,_ | _,effect⟩ | _ <;> cases answered <;> rfl
    | statement s =>
      obtain ⟨live,answered⟩ := answered
      cases choice <;> rcases link with _ | ⟨setting,_ | _,effect⟩ | _ <;> simp only [serveStatement] at answered <;>
        (try split at answered) <;> cases answered <;> simp_all [Link.setting]
private theorem perform_durable (set : ∀ setting, ok setting → setting ≠ none) (other : c ≠ .commit) (guarded : Guard ok (w.view n) c)
    (performed : perform n w c choice = some (answer,w')) : w'.durable = w.durable := by
  have sent : c.Sent → w'.durable = w.durable := by
    intro sent
    obtain ⟨k,served,named,serves,rfl,rfl⟩ := perform_sent sent performed
    refine serve_durable other ?_ serves
    rintro ⟨s,rfl⟩ live
    obtain ⟨link,here,meets⟩ := guarded live
    by_cases held : (w.conns k).holder = some n
    · rw [view_held named held] at here
      cases here
      exact meets.imp id (fun good => set _ good)
    · rw [view_unheld named held] at here
      cases here
  cases c with
  | acquire =>
    simp only [perform] at performed
    split at performed
    · cases performed
    · split at performed
      · split at performed <;> cases performed
        rfl
      · cases performed
        rfl
      · cases performed
        rfl
      · cases performed
  | release =>
    simp only [perform] at performed
    split at performed
    · cases performed
      rfl
    · split at performed <;> cases performed <;> rfl
  | begin | setLocal | statement | commit | rollback => exact sent trivial
theorem answers_durable {choices : List Choice} {p' : P Data Value} (set : ∀ setting, ok setting → setting ≠ none) (clean : w.Clean)
    (keeps : Keeps ok post p (w.view n)) (pure : Uncommitted p) (answered : answers (perform n) w choices p = some (w',p')) : w'.durable = w.durable := by
  induction choices generalizing w p with
  | nil =>
    cases answered
    rfl
  | cons choice rest ih =>
    obtain ⟨⟨w₁,p₁⟩,first,later⟩ := Option.bind_eq_some_iff.mp answered
    cases p with
    | done value => cases first
    | call c next =>
      obtain ⟨⟨reply,w₂⟩,performed,same⟩ := Option.map_eq_some_iff.mp first
      cases same
      obtain ⟨clean',⟨chance,own⟩,_,_⟩ := perform_performed clean keeps.1 performed
      rw [ih clean' (keeps.2 chance reply _ own) (pure.2 reply) later]
      exact perform_durable set pure.1 keeps.1 performed
end

end Stellabill.Connections

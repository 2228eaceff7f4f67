import Mathlib.Logic.Function.Basic

/-!
Advisory locks of database sessions. A lock is held by one session at a time, which
may take it again and then has to give it up as often; the locks of a session end
with it.
-/
namespace Stellabill.AdvisoryLocks
open Function
universe u

structure Hold where
  session : Nat
  count : Nat
  deriving DecidableEq, Repr

abbrev Locks (Key : Type u) := Key → Option Hold

variable {Key : Type u} [DecidableEq Key]

section
variable (locks : Locks Key) (session : Nat)
/-- `pg_try_advisory_lock`; none if another session holds the lock. -/
def tryLock (key : Key) : Option (Locks Key) :=
  match locks key with
  | none => some (update locks key (some ⟨session,1⟩))
  | some hold => if hold.session = session then some (update locks key (some ⟨session,hold.count+1⟩)) else none
/-- `pg_advisory_unlock`, which does nothing for a lock of another session. -/
def unlock (key : Key) : Locks Key :=
  match locks key with
  | none => locks
  | some hold =>
    if hold.session = session then
      update locks key (if hold.count ≤ 1 then none else some ⟨session,hold.count-1⟩)
    else locks
def endSession : Locks Key := fun key => (locks key).filter (fun hold => hold.session ≠ session)

def Holds (key : Key) : Prop := ∃ hold, locks key = some hold ∧ hold.session = session
end

variable {locks locks' : Locks Key} {session other : Nat} {key key' : Key}

omit [DecidableEq Key] in
theorem Holds.unique (first : Holds locks session key) (second : Holds locks other key) : session = other := by
  obtain ⟨hold,held,rfl⟩ := first
  obtain ⟨hold',held',rfl⟩ := second
  rw [held] at held'
  cases held'
  rfl
theorem tryLock_holds (taken : tryLock locks session key = some locks') : Holds locks' session key := by
  unfold tryLock at taken
  split at taken
  · cases taken
    exact ⟨_,update_self ..,rfl⟩
  · split at taken <;> cases taken
    exact ⟨_,update_self ..,rfl⟩
theorem tryLock_refused (held : Holds locks other key) (different : other ≠ session) : tryLock locks session key = none := by
  obtain ⟨hold,held,rfl⟩ := held
  simp [tryLock,held,different]
theorem tryLock_kept (taken : tryLock locks session key = some locks') (held : Holds locks other key') : Holds locks' other key' := by
  by_cases same : key' = key
  · subst same
    have own : other = session := by
      by_contra different
      rw [tryLock_refused held different] at taken
      cases taken
    rw [own]
    exact tryLock_holds taken
  · unfold tryLock at taken
    split at taken
    · cases taken
      rwa [Holds,update_of_ne same]
    · split at taken <;> cases taken
      rwa [Holds,update_of_ne same]
theorem unlock_kept (held : Holds locks other key') (different : other ≠ session) : Holds (unlock locks session key) other key' := by
  unfold unlock
  split
  · exact held
  · next hold its =>
    split
    · next own =>
      have apart : key' ≠ key := by
        rintro rfl
        exact different (held.unique ⟨hold,its,own⟩)
      rwa [Holds,update_of_ne apart]
    · exact held
omit [DecidableEq Key] in
theorem endSession_kept (held : Holds locks other key) (different : other ≠ session) : Holds (endSession locks session) other key := by
  obtain ⟨hold,its,rfl⟩ := held
  exact ⟨hold,by simp [endSession,its,different],rfl⟩

end Stellabill.AdvisoryLocks

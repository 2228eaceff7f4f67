import Stellabill.Idempotency

/-!
What the idempotency middleware guarantees for the requests with one key, while
no reservation of the key has expired: one handler at a time, at most one
success, and replays of that success only.
-/
namespace Stellabill.Replays
open ByteStrings Transitions Idempotency

variable {hash : Bytes → String} {scope key : String} {s t : State} {a : Action}

section
variable (scope key : String) (phase : Phase)
def Handling : Prop :=
  ∃ call, phase = .handling call ∧ call.scope = scope ∧ call.key = key
/-- The request is about the key, and its handler has ended with this response of a 2xx status. -/
def Succeeded (call : Call) (statusCode : Int) (body : Bytes) : Prop :=
  (phase = .storing call statusCode body ∨ phase = .answered call (.executed statusCode body)) ∧
    Success statusCode ∧ call.scope = scope ∧ call.key = key
/-- The request is about the key and was answered with this stored response. -/
def Replayed (call : Call) (statusCode : Int) (body : Bytes) : Prop :=
  phase = .answered call (.replayed statusCode body) ∧ call.scope = scope ∧ call.key = key
end

/-- The step is taken within the lifetime of the first reservation of the key. -/
def InTime (scope key : String) (s : State) : Prop :=
  ∀ first ∈ s.firstReserved (mapKey scope key), s.now ≤ first+defaultIdempotencyTTL
  deriving Decidable
section
variable (hash : Bytes → String) (scope key : String)
/-- A request with another scope or key has another entry in the store. -/
def Apart : Action → Prop
  | .request _ r =>
    match begin hash r with
    | .checking call => call.mapKey = mapKey scope key → call.scope = scope ∧ call.key = key
    | _ => True
  | _ => True
def Within (s : State) (a : Action) : Prop :=
  InTime scope key s ∧ Apart hash scope key a

instance (a : Action) : Decidable (Apart hash scope key a) := by
  unfold Apart
  split <;> try split
  all_goals infer_instance
instance (s : State) (a : Action) : Decidable (Within hash scope key s a) :=
  inferInstanceAs (Decidable (_ ∧ _))
end

def Reserves (phase : Phase) (call : Call) : Prop := phase = .handling call ∨ ∃ statusCode body, phase = .storing call statusCode body
def Completes (phase : Phase) (call : Call) (statusCode : Int) (body : Bytes) : Prop :=
  phase = .answered call (.executed statusCode body) ∧ Success statusCode
def MadeFor (entry : Entry) (call : Call) : Prop :=
  entry.method = call.method ∧ entry.path = call.path ∧ entry.payloadHash = call.payloadHash

/-- The key has one response, of one call, for all its requests. -/
structure Single (k : String) (s : State) : Prop where
  /-- The first reservation has been made and outlasts none of the later ones. -/
  lasting : ∀ entry ∈ s.store k, ∃ first ∈ s.firstReserved k, first+defaultIdempotencyTTL ≤ entry.expiresAt
  past : ∀ first ∈ s.firstReserved k, first ≤ s.now
  reserved : ∀ n call, Reserves (s.requests n) call → call.mapKey = k →
    (∃ entry ∈ s.store k, entry.statusCode = 0 ∧ MadeFor entry call) ∧
      ∀ m call', Reserves (s.requests m) call' → call'.mapKey = k → m = n
  completed : ∀ n call statusCode body, Completes (s.requests n) call statusCode body → call.mapKey = k →
    (∃ entry ∈ s.store k, entry.statusCode = statusCode ∧ entry.responseBody = body ∧ MadeFor entry call) ∧
      ∀ m call' statusCode' body', Completes (s.requests m) call' statusCode' body' → call'.mapKey = k → m = n
  stored : ∀ entry ∈ s.store k, entry.statusCode ≠ 0 → ∃ n call, Completes (s.requests n) call entry.statusCode entry.responseBody ∧
    call.mapKey = k ∧ MadeFor entry call
  replayed : ∀ n call statusCode body, s.requests n = .answered call (.replayed statusCode body) → call.mapKey = k →
    ∃ m call', Completes (s.requests m) call' statusCode body ∧ call'.mapKey = k ∧ call'.method = call.method ∧
      call'.path = call.path ∧ call'.payloadHash = call.payloadHash

theorem single_init (k : String) (now : Time) : Single k (init now) := by
  constructor <;> simp [init,Reserves,Completes]

variable {k : String} {n m : Nat} {call call' : Call} {statusCode : Int} {body : Bytes} {phase : Phase}

/-- A step that leaves the entry alone and does not change what a request holds or has completed. -/
theorem single_frame (single : Single k s) (later : s.now ≤ t.now) (store : t.store k = s.store k)
    (first : t.firstReserved k = s.firstReserved k) (others : ∀ m, m ≠ n → t.requests m = s.requests m)
    (reserves : ∀ call, call.mapKey = k → Reserves (t.requests n) call → Reserves (s.requests n) call)
    (completes : ∀ call statusCode body, call.mapKey = k →
      (Completes (t.requests n) call statusCode body ↔ Completes (s.requests n) call statusCode body))
    (replays : ∀ call statusCode body, call.mapKey = k → t.requests n = .answered call (.replayed statusCode body) →
      s.requests n = .answered call (.replayed statusCode body) ∨
        ∃ entry ∈ s.store k, entry.statusCode = statusCode ∧ entry.responseBody = body ∧ entry.statusCode ≠ 0 ∧ MadeFor entry call) :
    Single k t := by
  have reserves' : ∀ m call, call.mapKey = k → Reserves (t.requests m) call → Reserves (s.requests m) call := by
    intro m call same held
    by_cases self : m = n
    · subst self; exact reserves call same held
    · rwa [others m self] at held
  have completes' : ∀ m call statusCode body, call.mapKey = k →
      (Completes (t.requests m) call statusCode body ↔ Completes (s.requests m) call statusCode body) := by
    intro m call statusCode body same
    by_cases self : m = n
    · subst self; exact completes call statusCode body same
    · rw [others m self]
  refine ⟨?_,?_,?_,?_,?_,?_⟩
  · rw [store,first]; exact single.lasting
  · rw [first]; exact fun at_ made => Int.le_trans (single.past at_ made) later
  · intro m call held same
    rw [store]
    obtain ⟨entry,unique⟩ := single.reserved m call (reserves' m call same held) same
    exact ⟨entry,fun m' call' held' same' => unique m' call' (reserves' m' call' same' held') same'⟩
  · intro m call statusCode body done same
    rw [store]
    obtain ⟨entry,unique⟩ := single.completed m call statusCode body ((completes' m _ _ _ same).mp done) same
    exact ⟨entry,fun m' call' statusCode' body' done' same' =>
      unique m' call' statusCode' body' ((completes' m' _ _ _ same').mp done') same'⟩
  · intro entry there final
    rw [store] at there
    obtain ⟨m,call,done,same,made⟩ := single.stored entry there final
    exact ⟨m,call,(completes' m _ _ _ same).mpr done,same,made⟩
  · intro m call statusCode body replayed same
    have from_ : s.requests m = .answered call (.replayed statusCode body) ∨
        ∃ entry ∈ s.store k, entry.statusCode = statusCode ∧ entry.responseBody = body ∧ entry.statusCode ≠ 0 ∧
          MadeFor entry call := by
      by_cases self : m = n
      · subst self; exact replays call statusCode body same replayed
      · rw [others m self] at replayed; exact .inl replayed
    rcases from_ with before | ⟨entry,there,rfl,rfl,final,method,path,payloadHash⟩
    · obtain ⟨m',call',done,same',equal⟩ := single.replayed m call statusCode body before same
      exact ⟨m',call',(completes' m' _ _ _ same').mpr done,same',equal⟩
    · obtain ⟨m',call',done,same',made⟩ := single.stored entry there final
      exact ⟨m',call',(completes' m' _ _ _ same').mpr done,same',made.1.symm.trans method,made.2.1.symm.trans path,
        made.2.2.symm.trans payloadHash⟩

/-! ### Reservations and responses -/

theorem unexpired (single : Single (mapKey scope key) s) (inTime : InTime scope key s) :
    (s.store (mapKey scope key)).filter (fun entry => ¬ s.now > entry.expiresAt) = s.store (mapKey scope key) := by
  cases there : s.store (mapKey scope key) with
  | none => rfl
  | some entry =>
    obtain ⟨first,made,lasts⟩ := single.lasting entry there
    have valid : ¬ s.now > entry.expiresAt := Int.not_lt.mpr (Int.le_trans (inTime first made) lasts)
    simp [Option.filter,valid]
theorem requests_goto : (s.goto n phase).requests n = phase := Function.update_self ..
theorem requests_goto_of_ne (s : State) (phase : Phase) (other : m ≠ n) :
    (s.goto n phase).requests m = s.requests m := Function.update_of_ne other ..
theorem mem_or_some {first : Option Time} {now at_ : Time} (made : at_ ∈ first.or (some now)) : at_ ∈ first ∨ first = none ∧ at_ = now := by
  cases first with
  | none => exact .inr ⟨rfl,by simpa using made.symm⟩
  | some earlier => exact .inl made

theorem single_reserve (call : Call) (single : Single k s) (free : s.store k = none)
    (store : t.store k = some (placeholder call defaultIdempotencyTTL s.now)) (now : t.now = s.now)
    (first : t.firstReserved k = (s.firstReserved k).or (some s.now)) (new : t.requests n = .handling call)
    (others : ∀ m, m ≠ n → t.requests m = s.requests m) : Single k t := by
  have nobody : ∀ m call', Reserves (s.requests m) call' → call'.mapKey ≠ k := by
    intro m call' held same'
    obtain ⟨⟨entry,there,_⟩,_⟩ := single.reserved m call' held same'
    simp [free] at there
  have nothing : ∀ m call' statusCode body, Completes (t.requests m) call' statusCode body → call'.mapKey ≠ k := by
    intro m call' statusCode body done same'
    by_cases self : m = n
    · subst self; rw [new] at done; cases done.1
    · rw [others m self] at done
      obtain ⟨⟨entry,there,_⟩,_⟩ := single.completed m call' statusCode body done same'
      simp [free] at there
  have only : ∀ m call', Reserves (t.requests m) call' → call'.mapKey = k → m = n := by
    intro m call' held same'
    by_contra other
    rw [others m other] at held
    exact nobody m call' held same'
  refine ⟨?_,?_,?_,?_,?_,?_⟩
  · intro entry there
    rw [store] at there
    cases there
    rw [first]
    cases earlier : s.firstReserved k with
    | none => exact ⟨s.now,rfl,Int.le_refl _⟩
    | some at_ => exact ⟨at_,rfl,Int.add_le_add_right (single.past at_ earlier) _⟩
  · intro at_ made
    rw [first] at made
    rw [now]
    rcases mem_or_some made with earlier | ⟨_,rfl⟩
    · exact single.past at_ earlier
    · exact Int.le_refl _
  · intro m call' held same'
    have self := only m call' held same'
    subst self
    rw [new] at held
    rcases held with ⟨⟨⟩⟩ | ⟨_,_,⟨⟩⟩
    exact ⟨⟨_,store,rfl,rfl,rfl,rfl⟩,fun m' call'' held' same'' => only m' call'' held' same''⟩
  · intro m call' statusCode body done same'
    exact absurd same' (nothing m call' statusCode body done)
  · intro entry there final
    rw [store] at there
    cases there
    exact absurd rfl final
  · intro m call' statusCode body replayed same'
    by_cases self : m = n
    · subst self; rw [new] at replayed; cases replayed
    · rw [others m self] at replayed
      obtain ⟨m',call'',done,same'',_⟩ := single.replayed m call' statusCode body replayed same'
      obtain ⟨⟨entry,there,_⟩,_⟩ := single.completed m' call'' statusCode body done same''
      simp [free] at there

section
variable (single : Single k s)
include single
section
variable (held : Reserves (s.requests n) call) (same : call.mapKey = k)
include held same
theorem nothing_completed (done : Completes (s.requests m) call' statusCode body) : call'.mapKey ≠ k := by
  intro same'
  obtain ⟨⟨entry,there,inFlight,_⟩,_⟩ := single.reserved n call held same
  obtain ⟨⟨entry',there',final,_⟩,_⟩ := single.completed m call' statusCode body done same'
  rw [there] at there'
  cases there'
  have code := done.2.1
  omega
private theorem nothing_replayed (replayed : s.requests m = .answered call' (.replayed statusCode body)) : call'.mapKey ≠ k := by
  intro same'
  obtain ⟨m',call'',done,same'',_⟩ := single.replayed m call' statusCode body replayed same'
  exact nothing_completed single held same done same''
variable (new : t.requests n = .answered call (.executed statusCode body)) (others : ∀ m, m ≠ n → t.requests m = s.requests m)
include new others
/-- Once the request that holds the key is answered with its own response, nobody holds the key. -/
theorem answered_free (held' : Reserves (t.requests m) call') : call'.mapKey ≠ k := by
  intro same'
  by_cases self : m = n
  · subst self
    rw [new] at held'
    rcases held' with ⟨⟨⟩⟩ | ⟨_,_,⟨⟩⟩
  · rw [others m self] at held'
    exact self ((single.reserved n call held same).2 m call' held' same')
private theorem answered_unreplayed
    {statusCode' : Int} {body' : Bytes} (replayed : t.requests m = .answered call' (.replayed statusCode' body')) : call'.mapKey ≠ k := by
  by_cases self : m = n
  · subst self
    rw [new] at replayed
    cases replayed
  · rw [others m self] at replayed
    exact nothing_replayed single held same replayed
end
theorem single_answered {entry : Entry} (at_ : s.requests n = .storing call statusCode body) (same : call.mapKey = k)
    (there : s.store k = some entry)
    (store : t.store k = if Success statusCode then some { entry with statusCode, responseBody := body } else none) (now : t.now = s.now)
    (first : t.firstReserved k = s.firstReserved k) (new : t.requests n = .answered call (.executed statusCode body))
    (others : ∀ m, m ≠ n → t.requests m = s.requests m) : Single k t := by
  have held : Reserves (s.requests n) call := .inr ⟨statusCode,body,at_⟩
  obtain ⟨⟨entry',there',_,made⟩,_⟩ := single.reserved n call held same
  cases there.symm.trans there'
  have kept : ∀ e ∈ t.store k, Success statusCode ∧ e = { entry with statusCode, responseBody := body } := by
    intro e listed
    rw [store] at listed
    split at listed <;> cases listed
    next success => exact ⟨success,rfl⟩
  have only : ∀ m call' statusCode' body', Completes (t.requests m) call' statusCode' body' → call'.mapKey = k → m = n := by
    intro m call' statusCode' body' done same'
    by_contra other
    rw [others m other] at done
    exact nothing_completed single held same done same'
  refine ⟨?_,?_,?_,?_,?_,?_⟩
  · intro e listed
    obtain ⟨_,rfl⟩ := kept e listed
    rw [first]
    exact single.lasting entry there
  · rw [first,now]; exact single.past
  · intro m call' held' same'
    exact absurd same' (answered_free single held same new others held')
  · intro m call' statusCode' body' done same'
    obtain rfl := only m call' statusCode' body' done same'
    rw [new] at done
    obtain ⟨⟨⟩,success⟩ := done
    exact ⟨⟨_,store.trans (if_pos success),rfl,rfl,made⟩,only⟩
  · intro e listed _
    obtain ⟨success,rfl⟩ := kept e listed
    exact ⟨n,call,⟨new,success⟩,same,made⟩
  · intro m call' statusCode' body' replayed same'
    exact absurd same' (answered_unreplayed single held same new others replayed)
end

/-! ### Runs -/

theorem check_requests : (check s n call).requests n = looked call (getOrInsert s.store call defaultIdempotencyTTL s.now).2 := requests_goto
theorem check_requests_other (other : m ≠ n) : (check s n call).requests m = s.requests m :=
  requests_goto_of_ne _ _ other
theorem single_check_taken {entry : Entry} (single : Single call.mapKey s)
    (current : (s.store call.mapKey).filter (fun entry => ¬ s.now > entry.expiresAt) = some entry)
    (there : s.store call.mapKey = some entry) (at_ : s.requests n = .checking call) : Single call.mapKey (check s n call) := by
  have taken := getOrInsert_taken defaultIdempotencyTTL current
  have answered : (check s n call).requests n = looked call (entry.lookup call) := by rw [check_requests,taken]
  refine single_frame single (Int.le_refl _) (by simp [check,taken,State.goto])
    (by simp [check,taken,State.goto,lookup_ne_reserved]) (fun _ => check_requests_other) ?_ ?_ ?_
  · intro call' _ held
    rw [answered] at held
    cases looking : entry.lookup call with
    | reserved => exact absurd looking (lookup_ne_reserved entry call)
    | inFlight | mismatch | replay => simp [looking,looked,Reserves] at held
  · rw [answered,at_]
    cases entry.lookup call <;> simp [looked,Completes]
  · intro call' statusCode body _ replayed
    rw [answered] at replayed
    cases looking : entry.lookup call with
    | reserved => exact absurd looking (lookup_ne_reserved entry call)
    | inFlight | mismatch => rw [looking] at replayed; cases replayed
    | replay statusCode' body' =>
      rw [looking] at replayed
      cases replayed
      obtain ⟨final,code,sameBody,made⟩ := lookup_replay looking
      exact .inr ⟨entry,there,code,sameBody,final,made⟩
theorem single_check_other (single : Single k s) (other : call.mapKey ≠ k) (at_ : s.requests n = .checking call) : Single k (check s n call) := by
  have about : ∀ call' : Call, call'.mapKey = k → call ≠ call' := fun call' same equal => other (equal ▸ same)
  refine single_frame single (Int.le_refl _) (getOrInsert_other s.store call defaultIdempotencyTTL s.now (Ne.symm other)) ?_
    (fun _ => check_requests_other) ?_ ?_ ?_
  · simp only [check,State.goto]
    split
    · exact Function.update_of_ne (Ne.symm other) ..
    · rfl
  · intro call' same held
    rw [check_requests] at held
    cases looking : (getOrInsert s.store call defaultIdempotencyTTL s.now).2 <;>
      simp [looking,looked,Reserves,about call' same] at held
  · rw [check_requests,at_]
    cases looking : (getOrInsert s.store call defaultIdempotencyTTL s.now).2 <;> simp [looked,Completes]
  · intro call' statusCode body same replayed
    rw [check_requests] at replayed
    cases looking : (getOrInsert s.store call defaultIdempotencyTTL s.now).2 <;>
      simp [looking,looked,about call' same] at replayed
theorem single_goto (single : Single k s) (reserves : ∀ call, Reserves phase call → Reserves (s.requests n) call)
    (completes : ∀ call statusCode body, Completes phase call statusCode body ↔ Completes (s.requests n) call statusCode body)
    (replays : ∀ call statusCode body, phase ≠ .answered call (.replayed statusCode body)) : Single k (s.goto n phase) := by
  refine single_frame (n := n) single (Int.le_refl _) rfl rfl (fun m other => requests_goto_of_ne _ _ other) ?_ ?_ ?_
  · rw [requests_goto]
    exact fun call _ => reserves call
  · rw [requests_goto]
    exact fun call statusCode body _ => completes call statusCode body
  · rw [requests_goto]
    exact fun call statusCode body _ replayed => absurd replayed (replays call statusCode body)
section
variable (single : Single (mapKey scope key) s)
include single
private theorem single_check (inTime : InTime scope key s) (at_ : s.requests n = .checking call) :
    Single (mapKey scope key) (check s n call) := by
  by_cases same : call.mapKey = mapKey scope key
  · have current := unexpired single inTime
    rw [← same] at single current ⊢
    cases there : s.store call.mapKey with
    | none =>
      have free := getOrInsert_free defaultIdempotencyTTL (current.trans there)
      refine single_reserve call single there ?_ rfl ?_ ?_ (fun _ => check_requests_other)
      · simp [check,free,State.goto]
      · simp [check,free,State.goto]
      · rw [check_requests,free]; rfl
    | some entry => exact single_check_taken single (current.trans there) there at_
  · exact single_check_other single same at_
private theorem single_keep (at_ : s.requests n = .storing call statusCode body) : Single (mapKey scope key)
      ({ s with store := keep s.store call statusCode body }.goto n (.answered call (.executed statusCode body))) := by
  have others : ∀ m, m ≠ n → Function.update s.requests n (.answered call (.executed statusCode body)) m = s.requests m :=
    fun m other => Function.update_of_ne other ..
  have new := Function.update_self n (.answered call (.executed statusCode body)) s.requests
  by_cases same : call.mapKey = mapKey scope key
  · rw [← same] at single ⊢
    obtain ⟨⟨entry,there,_⟩,_⟩ := single.reserved n call (.inr ⟨statusCode,body,at_⟩) rfl
    refine single_answered single at_ rfl there ?_ rfl rfl new others
    have there' : s.store (Idempotency.mapKey call.scope call.key) = some entry := there
    by_cases success : Success statusCode <;> simp [State.goto,keep,success,updateResponse,delete,Call.mapKey,there']
  · refine single_frame single (Int.le_refl _) (keep_other s.store call statusCode body (Ne.symm same)) rfl others ?_ ?_ ?_
    · intro call' same' held
      simp [State.goto,Reserves] at held
    · intro call' statusCode' body' same'
      have about : call ≠ call' := fun equal => same (equal ▸ same')
      simp [State.goto,Completes,at_,about]
    · intro call' statusCode' body' same' replayed
      simp [State.goto] at replayed
theorem single_step (within : Within hash scope key s a) (stepped : step hash s a = some t) : Single (mapKey scope key) t := by
  cases a with
  | advance elapsed =>
    cases stepped
    exact single_frame (n := 0) single (le_later ..) rfl rfl (fun _ _ => rfl) (fun _ _ held => held) (fun _ _ _ _ => Iff.rfl)
      (fun _ _ _ _ replayed => .inl replayed)
  | request n r =>
    simp only [step] at stepped
    split at stepped <;> cases stepped
    next at_ =>
      refine single_goto single ?_ ?_ ?_
      all_goals rcases begin_cases hash r with begun | ⟨response,begun⟩ | ⟨call,begun⟩ <;> simp [begun,at_,Reserves,Completes]
  | check n =>
    simp only [step] at stepped
    split at stepped <;> cases stepped
    next at_ => exact single_check single within.1 at_
  | respond | panic =>
    simp only [step] at stepped
    split at stepped <;> cases stepped
    next at_ => exact single_goto single (by simp [at_,Reserves]) (by simp [at_,Completes]) (by simp)
  | store n =>
    simp only [step] at stepped
    split at stepped <;> cases stepped
    next at_ => exact single_keep single at_
  | cleanup keys =>
    cases stepped
    refine single_frame (n := 0) single (Int.le_refl _) ?_ rfl (fun _ _ => rfl) (fun _ _ held => held) (fun _ _ _ _ => Iff.rfl)
      (fun _ _ _ _ replayed => .inl replayed)
    simp only [deleteExpired]
    split
    · exact unexpired single within.1
    · rfl
end

def callOf : Phase → Option Call
  | .checking call | .handling call | .storing call _ _ | .answered call _ | .panicked call => some call
  | .absent | .rejected _ | .bypassing => none
/-- The requests under the entry are those with the scope and the key. -/
def Aligned (scope key : String) (s : State) : Prop :=
  ∀ n, ∀ call ∈ callOf (s.requests n), call.mapKey = mapKey scope key → call.scope = scope ∧ call.key = key

private theorem callOf_looked (lookup : Lookup) : callOf (looked call lookup) = some call := by cases lookup <;> rfl
theorem aligned_goto (aligned : Aligned scope key s)
    (new : ∀ call ∈ callOf phase, call.mapKey = mapKey scope key → call.scope = scope ∧ call.key = key) :
    Aligned scope key (s.goto n phase) := by
  intro m call about
  by_cases self : m = n
  · subst self
    rw [requests_goto] at about
    exact new call about
  · rw [requests_goto_of_ne s phase self] at about
    exact aligned m call about
theorem aligned_on (aligned : Aligned scope key s) (on : callOf phase = callOf (s.requests n)) : Aligned scope key (s.goto n phase) :=
  aligned_goto aligned (fun call about => aligned n call (on ▸ about))
private theorem aligned_step (aligned : Aligned scope key s) (apart : Apart hash scope key a) (stepped : step hash s a = some t) :
    Aligned scope key t := by
  cases a with
  | advance | cleanup => cases stepped; exact aligned
  | request n r =>
    simp only [step] at stepped
    split at stepped <;> cases stepped
    refine aligned_goto aligned ?_
    rcases begin_cases hash r with begun | ⟨response,begun⟩ | ⟨call,begun⟩
    · simp [begun,callOf]
    · simp [begun,callOf]
    · simp only [Apart,begun] at apart
      simpa [begun,callOf] using apart
  | check n =>
    simp only [step] at stepped
    split at stepped <;> cases stepped
    next at_ =>
      refine aligned_on (s := { s with store := _,firstReserved := _ }) aligned ?_
      rw [callOf_looked]
      simp [at_,callOf]
  | respond | panic | store =>
    simp only [step] at stepped
    split at stepped <;> cases stepped
    next at_ => exact aligned_on (s := { s with store := _ }) aligned (by simp [at_,callOf])

private theorem succeeded_cases (succeeded : Succeeded scope key phase call statusCode body) :
    (Reserves phase call ∨ Completes phase call statusCode body) ∧ call.mapKey = mapKey scope key := by
  obtain ⟨ended,success,rfl,rfl⟩ := succeeded
  refine ⟨?_,rfl⟩
  rcases ended with storing | answered
  · exact .inl (.inr ⟨statusCode,body,storing⟩)
  · exact .inr ⟨answered,success⟩
private theorem single_run {now : Time} (reached : Reach (step hash) (Within hash scope key) (init now) s) :
    Single (mapKey scope key) s ∧ Aligned scope key s := by
  refine reached.invariant (I := fun s => Single (mapKey scope key) s ∧ Aligned scope key s) ⟨single_init _ now,?_⟩ ?_
  · intro n call about
    cases about
  · intro s a t ⟨single,aligned⟩ within stepped
    exact ⟨single_step single within stepped,aligned_step aligned within.2 stepped⟩
/-- Within the lifetime of the first reservation of a key, no two of its handlers run at a time, at most one succeeds,
    and every replay is of that response to the same request. -/
theorem handled_once (hash : Bytes → String) (scope key : String) (now : Time)
    (reached : Reach (step hash) (Within hash scope key) (init now) s) :
    (∀ n m, Handling scope key (s.requests n) → Handling scope key (s.requests m) → n = m) ∧
    (∀ n m call call' statusCode statusCode' body body', Succeeded scope key (s.requests n) call statusCode body →
      Succeeded scope key (s.requests m) call' statusCode' body' → n = m) ∧
    ∀ n call statusCode body, Replayed scope key (s.requests n) call statusCode body →
      (∃ m call', Succeeded scope key (s.requests m) call' statusCode body) ∧
      ∀ m call' statusCode' body', Succeeded scope key (s.requests m) call' statusCode' body' →
        statusCode' = statusCode ∧ body' = body ∧ call'.method = call.method ∧ call'.path = call.path ∧
          call'.payloadHash = call.payloadHash := by
  obtain ⟨single,aligned⟩ := single_run reached
  have once : ∀ n m call call' statusCode statusCode' body body', Succeeded scope key (s.requests n) call statusCode body →
      Succeeded scope key (s.requests m) call' statusCode' body' → n = m := by
    intro n m call call' statusCode statusCode' body body' first second
    obtain ⟨held | done,same⟩ := succeeded_cases first <;> obtain ⟨held' | done',same'⟩ := succeeded_cases second
    · exact (single.reserved m call' held' same').2 n call held same
    · exact absurd same' (nothing_completed single held same done')
    · exact absurd same (nothing_completed single held' same' done)
    · exact (single.completed m call' statusCode' body' done' same').2 n call statusCode body done same
  refine ⟨?_,once,?_⟩
  · rintro n m ⟨call,handling,rfl,rfl⟩ ⟨call',handling',scopes,keys⟩
    have same' : call'.mapKey = call.mapKey := by simp [Call.mapKey,scopes,keys]
    exact (single.reserved m call' (.inl handling') same').2 n call (.inl handling) rfl
  · rintro n call statusCode body ⟨replayed,rfl,rfl⟩
    obtain ⟨m,call',done,same',equal⟩ := single.replayed n call statusCode body replayed rfl
    obtain ⟨scopes,keys⟩ := aligned m call' (by simp [done.1,callOf]) same'
    have succeeded : Succeeded call.scope call.key (s.requests m) call' statusCode body := ⟨.inr done.1,done.2,scopes,keys⟩
    refine ⟨⟨m,call',succeeded⟩,?_⟩
    intro m' call'' statusCode' body' other
    have self := once m' m call'' call' statusCode' statusCode body' body other succeeded
    subst self
    obtain ⟨ended,_⟩ := other
    rw [done.1] at ended
    rcases ended with ⟨⟨⟩⟩ | ⟨⟨⟩⟩
    exact ⟨rfl,rfl,equal⟩

def emptyHash : Bytes → String := fun _ => "e3b0c44298fc1c149afbf4c8996fb92427ae41e4649b934ca495991b7852b855"
def cancellation : Request := ⟨"POST","/api/v1/subscriptions/sub-1/cancel","key-1",some "tenant-1",some "caller-1",.ok []⟩
def cancellationCall : Call := ⟨"tenant-1:caller-1","key-1","POST","/api/v1/subscriptions/sub-1/cancel",emptyHash []⟩
/-- The first attempt fails, the second succeeds while a third is refused, and a fourth gets its response. -/
def retriedAndReplayed : List Action :=
  [.request 0 cancellation,.check 0,.respond 0 503 [],.store 0,.request 1 cancellation,.check 1,.request 2 cancellation,.check 2,
    .respond 1 200 [123,125],.store 1,.advance 1000,.request 3 cancellation,.check 3]
theorem handled_once_retriedAndReplayed : ∃ s, Reach (step emptyHash) (Within emptyHash "tenant-1:caller-1" "key-1") (init 0) s ∧
    Replayed "tenant-1:caller-1" "key-1" (s.requests 3) cancellationCall 200 [123,125] ∧
    ∃ m call, Succeeded "tenant-1:caller-1" "key-1" (s.requests m) call 200 [123,125] := by
  refine exists_reach retriedAndReplayed (fun s => s.requests 3 = .answered cancellationCall (.replayed 200 [123,125])) (by decide +kernel)
    (by decide +kernel) ?_
  intro s reached replayed
  have shown : Replayed "tenant-1:caller-1" "key-1" (s.requests 3) cancellationCall 200 [123,125] := ⟨replayed,rfl,rfl⟩
  exact ⟨shown,((handled_once emptyHash "tenant-1:caller-1" "key-1" 0 reached).2.2 3 _ _ _ shown).1⟩

end Stellabill.Replays

import Stellabill.EventEncryption

/-!
Webhook deliveries. `Receive` looks the event ID up in its replay cache, stores an
outbox event under that ID and then records the ID; other requests run in between. Any
answer in the 200s is an acknowledgement.
-/
namespace Stellabill.Webhooks
open Json Transitions Uuid Outbox Function
open EventEncryption (EventData Draws envelope)
open Program (Reply)

abbrev Cache := String → Option Time

def Cache.has (cache : Cache) (eventID : String) (now : Time) : Bool := (cache eventID).any (fun expiry => now < expiry)
def Cache.cleanupExpired (cache : Cache) (now : Time) : Cache := fun id => (cache id).filter (fun expiry => ¬ expiry < now)
def Cache.checkAndStore (cache : Cache) (ttl : Time) (eventID : String) (now : Time) : Cache :=
  if eventID = "" then cache
  else
    let cache := cache.cleanupExpired now
    if cache.has eventID now then cache else update cache eventID (some (now+ttl))
def fiveMinutes : Time := 300000000000

/-- A verified delivery: the provider, the event ID of its header, and what `json.Unmarshal` reads in its body. -/
structure Delivery where
  provider : String
  header : String
  body : Option Value

def Delivery.payload (d : Delivery) : Option Value :=
  match d.body with
  | some (.obj fields) => some (.obj fields)
  | some .null => some .null
  | _ => none
def text (payload : Value) (key : String) : String :=
  match payload.get key with
  | some (.str s) => s
  | _ => ""
def firstOf (a b : String) : String := if a ≠ "" then a else b
def Delivery.eventID (d : Delivery) : String :=
  firstOf d.header (match d.payload with
    | none => ""
    | some payload => firstOf (text payload "id") (text payload "event_id"))
def eventType (payload : Value) : String := firstOf (text payload "type") (text payload "event_type")

structure Response where
  status : Nat
  body : Value
def Response.Acknowledges (r : Response) : Prop := 200 ≤ r.status ∧ r.status < 300

def unavailable : Response :=
  ⟨503,.obj [("error",.str "outbox_unavailable"),("message",.str "webhook persistence is not configured")]⟩
def invalidPayload : Response := ⟨400,.obj [("error",.str "invalid_payload"),("message",.str "invalid JSON payload")]⟩
def missingIdentifiers : Response :=
  ⟨400,.obj [("error",.str "missing_tracking_identifiers"),("message",.str "event ID and provider are required")]⟩
def duplicate (eventID : String) : Response :=
  ⟨200,.obj [("deduplicated",.bool true),("event_id",.str eventID),("message",.str "duplicate event id"),
    ("status",.str "accepted")]⟩
def alreadyProcessed : Response := ⟨200,.obj [("message",.str "event already processed"),("status",.str "accepted")]⟩
def accepted (event : Event) : Response :=
  ⟨202,.obj [("event_id",.str (String.ofList (string event.id))),("event_type",.str event.eventType),("status",.str "accepted")]⟩

section
variable (codec : Codec)

def eventData (payload : Value) (draws : Draws) : String :=
  codec.encode (({ envelope (eventType payload) draws with data := some payload } : EventData).toJson codec)
/-- The event `Receive` builds; what was decoded can always be encoded. -/
def webhookEvent (d : Delivery) (payload : Value) (draws : Draws) : Event :=
  newEventWithDeduplication draws.id draws.now (eventType payload) (eventData codec payload draws) none none (some d.eventID)
def beforeInsert (configured : Bool) (cache : Cache) (d : Delivery) (draws : Draws) : Except Response Event :=
  if ¬ configured then .error unavailable
  else match d.payload with
    | none => .error invalidPayload
    | some payload =>
      if d.eventID = "" ∨ d.provider = "" then .error missingIdentifiers
      else if cache.has d.eventID draws.now then .error (duplicate d.eventID)
      else .ok (webhookEvent codec d payload draws)

structure Request where
  delivery : Delivery
  event : Event
  stored : Bool

/-- The outbox, the handler with its requests by number, and the deliveries so far with their answers. -/
structure State where
  db : Tables
  now : Time
  cache : Cache
  requests : Nat → Option Request
  received : List Delivery
  answers : List (Delivery × Response)

/-- A delivery comes in; its event is stored, with an outcome; its ID is recorded; time passes; or the process restarts. -/
inductive Action
  | receive (n : Nat) (d : Delivery) (id envelopeID : UUID)
  | store (n : Nat) (reply : Reply)
  | record (n : Nat)
  | wait (elapsed : Nat)
  | restart

/-- The INSERT with its outcome; a violated unique index is an error as any other. -/
def insert (db : Tables) (event : Event) (reply : Reply) : Option String × Tables :=
  if reply.effective then
    match Outbox.store db event with
    | none => (some "failed to store outbox event: pq: duplicate key value violates unique constraint",db)
    | some db' => (reply.error,db')
  else (reply.error,db)

def State.set (s : State) (n : Nat) (request : Option Request) : State :=
  { s with requests := update s.requests n request }
def State.answer (s : State) (d : Delivery) (r : Response) : State := { s with answers := (d,r) :: s.answers }

def step (configured : Bool) (s : State) : Action → Option State
  | .receive n d id envelopeID =>
    match s.requests n with
    | some _ => none
    | none =>
      let s := { s with received := d :: s.received }
      match beforeInsert codec configured s.cache d ⟨id,envelopeID,s.now,0⟩ with
      | .error response => some (s.answer d response)
      | .ok event => some (s.set n (some ⟨d,event,false⟩))
  | .store n reply =>
    match s.requests n with
    | some ⟨d,event,false⟩ =>
      match insert s.db event reply with
      | (some _,db) => some (({ s with db := db } : State).set n none |>.answer d alreadyProcessed)
      | (none,db) => some (({ s with db := db } : State).set n (some ⟨d,event,true⟩))
    | _ => none
  | .record n =>
    match s.requests n with
    | some ⟨d,event,true⟩ =>
      some (({ s with cache := s.cache.checkAndStore fiveMinutes d.eventID s.now } : State).set n none |>.answer d (accepted event))
    | _ => none
  | .wait elapsed => some { s with now := s.now+elapsed }
  | .restart => some { s with cache := fun _ => none, requests := fun _ => none }
end

def start (db : Tables) (now : Time) : State := ⟨db,now,fun _ => none,fun _ => none,[],[]⟩

def Taken (db : Tables) (id : String) : Prop := ∃ row ∈ db.events, row.deduplicationID = some id
  deriving Decidable
/-- The row has the payload of the delivery. -/
def Carries (codec : Codec) (row : Event) (d : Delivery) : Prop :=
  ∃ payload ∈ d.payload, ∃ draws, row.eventData = eventData codec payload draws
/-- The outbox has an event with a payload that the provider delivered under the same event ID. -/
def Kept (codec : Codec) (s : State) (d : Delivery) : Prop :=
  ∃ row ∈ s.db.events, row.deduplicationID = some d.eventID ∧
    ∃ d' ∈ s.received, d'.provider = d.provider ∧ d'.eventID = d.eventID ∧ Carries codec row d'

/-- A delivery shares its event ID with no other provider's, and an INSERT takes effect or finds the row of its event ID. -/
def Lossless (s : State) : Action → Prop
  | .receive _ d _ _ => ∀ other ∈ s.received, other.eventID = d.eventID → other.provider = d.provider
  | .store n reply => ∀ r ∈ s.requests n,
    (reply.effective = true ∧ (Outbox.store s.db r.event).isSome = true) ∨ Taken s.db r.delivery.eventID
  | _ => True

instance (s : State) (a : Action) : Decidable (Lossless s a) := by
  unfold Lossless
  split <;> infer_instance

/-! ### Every acknowledged delivery has its row -/

section
variable {codec : Codec} {configured : Bool} {s t : State} {db : Tables} {event row : Event} {reply : Reply}

private theorem insert_mem (member : row ∈ db.events) : row ∈ (insert db event reply).2.events := by
  unfold insert
  split
  · split
    · exact member
    · next db' stored => exact ((store_some stored).2.2 row).mpr (.inl member)
  · exact member
theorem mem_insert (member : row ∈ (insert db event reply).2.events) : row ∈ db.events ∨ row = inserted event := by
  revert member
  fun_cases insert db event reply
  · exact .inl
  · next stored => exact ((store_some stored).2.2 row).mp
  · exact .inl

variable {id : String} {cache : Cache} {d : Delivery}

theorem taken_insert (taken : Taken db id) : Taken (insert db event reply).2 id := by
  obtain ⟨row,member,named⟩ := taken
  exact ⟨row,insert_mem member,named⟩
theorem insert_taken (named : event.deduplicationID = some id) (effective : reply.effective = true)
    (free : (Outbox.store db event).isSome = true) : Taken (insert db event reply).2 id := by
  obtain ⟨db',stored⟩ := Option.isSome_iff_exists.mp free
  have here : inserted event ∈ db'.events := ((store_some stored).2.2 _).mpr (.inr rfl)
  exact ⟨inserted event,by simpa [insert,effective,stored] using here,named⟩
theorem insert_silent (silent : (insert db event reply).1 = none) : reply.effective = true ∧ (Outbox.store db event).isSome = true := by
  revert silent
  fun_cases insert db event reply
  all_goals intro silent
  · cases silent
  · next effective _ stored => exact ⟨effective,by simp [stored]⟩
  · next ineffective => exact absurd (Reply.effective_of_error silent) ineffective

/-- The rows hold what was delivered under their IDs, and what is cached, recorded or acknowledged has a row. -/
structure Sound (codec : Codec) (s : State) : Prop where
  rows : ∀ row ∈ s.db.events, ∀ id, row.deduplicationID = some id → ∃ d ∈ s.received, d.eventID = id ∧ Carries codec row d
  cached : ∀ id expiry, s.cache id = some expiry → Taken s.db id
  requests : ∀ n r, s.requests n = some r → r.delivery ∈ s.received ∧ r.event.deduplicationID = some r.delivery.eventID ∧
    Carries codec r.event r.delivery ∧ (r.stored = true → Taken s.db r.delivery.eventID)
  answers : ∀ d r, (d,r) ∈ s.answers → r.Acknowledges → d ∈ s.received ∧ Taken s.db d.eventID
  providers : ∀ d ∈ s.received, ∀ d' ∈ s.received, d'.eventID = d.eventID → d'.provider = d.provider

variable {now : Time} {r : Response} {draws : Draws}

theorem checkAndStore_some {ttl expiry : Time} {eventID : String} (entry : cache.checkAndStore ttl eventID now id = some expiry) :
    id = eventID ∨ ∃ expiry, cache id = some expiry := by
  unfold Cache.checkAndStore at entry
  have cleaned : ∀ {expiry}, cache.cleanupExpired now id = some expiry → ∃ expiry, cache id = some expiry :=
    fun found => ⟨_,(Option.filter_eq_some_iff.mp found).1⟩
  split at entry
  · exact .inr ⟨_,entry⟩
  · dsimp only at entry
    split at entry
    · exact .inr (cleaned entry)
    · by_cases same : id = eventID
      · exact .inl same
      · rw [update_of_ne same] at entry
        exact .inr (cleaned entry)

section
variable (sound : Sound codec s)
include sound
theorem Sound.receive (single : ∀ other ∈ s.received, other.eventID = d.eventID → other.provider = d.provider) :
    Sound codec { s with received := d :: s.received } where
  rows row member id named := by
    obtain ⟨d',received,rest⟩ := sound.rows row member id named
    exact ⟨d',List.mem_cons_of_mem _ received,rest⟩
  cached := sound.cached
  requests n r found := by
    obtain ⟨received,rest⟩ := sound.requests n r found
    exact ⟨List.mem_cons_of_mem _ received,rest⟩
  answers d' r answered acknowledged := by
    obtain ⟨received,taken⟩ := sound.answers d' r answered acknowledged
    exact ⟨List.mem_cons_of_mem _ received,taken⟩
  providers a first b second same := by
    rcases List.mem_cons.mp first with rfl | old
    · rcases List.mem_cons.mp second with rfl | old'
      · rfl
      · exact single b old' same
    · rcases List.mem_cons.mp second with rfl | old'
      · exact (single a old same.symm).symm
      · exact sound.providers a old b old' same
theorem Sound.answer (covered : r.Acknowledges → d ∈ s.received ∧ Taken s.db d.eventID) : Sound codec (s.answer d r) where
  rows := sound.rows
  cached := sound.cached
  requests := sound.requests
  answers d' r' answered acknowledged := by
    rcases List.mem_cons.mp answered with same | earlier
    · cases same
      exact covered acknowledged
    · exact sound.answers d' r' earlier acknowledged
  providers := sound.providers
theorem Sound.set {n : Nat} {request : Option Request}
    (fits : ∀ r, request = some r → r.delivery ∈ s.received ∧ r.event.deduplicationID = some r.delivery.eventID ∧
      Carries codec r.event r.delivery ∧ (r.stored = true → Taken s.db r.delivery.eventID)) : Sound codec (s.set n request) where
  rows := sound.rows
  cached := sound.cached
  requests m r found := by
    simp only [State.set,update_apply] at found
    split at found
    · exact fits r found
    · exact sound.requests m r found
  answers := sound.answers
  providers := sound.providers
theorem Sound.insert (received : d ∈ s.received) (named : event.deduplicationID = some d.eventID)
    (carries : Carries codec event d) (reply : Reply) :
    Sound codec { s with db := (insert s.db event reply).2 } where
  rows row member id owned := by
    rcases mem_insert member with old | rfl
    · exact sound.rows row old id owned
    · obtain rfl : d.eventID = id := Option.some.inj (named.symm.trans owned)
      exact ⟨d,received,rfl,carries⟩
  cached id expiry entry := taken_insert (sound.cached id expiry entry)
  requests n r found := by
    obtain ⟨here,own,holds,stored⟩ := sound.requests n r found
    exact ⟨here,own,holds,fun done => taken_insert (stored done)⟩
  answers d' r answered acknowledged := by
    obtain ⟨here,taken⟩ := sound.answers d' r answered acknowledged
    exact ⟨here,taken_insert taken⟩
  providers := sound.providers
theorem Sound.record (taken : Taken s.db d.eventID) :
    Sound codec { s with cache := s.cache.checkAndStore fiveMinutes d.eventID s.now } where
  rows := sound.rows
  cached id expiry entry := by
    rcases checkAndStore_some entry with rfl | ⟨old,before⟩
    · exact taken
    · exact sound.cached id old before
  requests := sound.requests
  answers := sound.answers
  providers := sound.providers
end

/-- What `Receive` decides before the INSERT: an answer that acknowledges comes from the cache. -/
theorem beforeInsert_error (answered : beforeInsert codec configured cache d draws = .error r) (acknowledges : r.Acknowledges) :
    ∃ expiry, cache d.eventID = some expiry := by
  unfold beforeInsert at answered
  split at answered
  next => cases answered; simp [Response.Acknowledges,unavailable] at acknowledges
  split at answered
  next => cases answered; simp [Response.Acknowledges,invalidPayload] at acknowledges
  split_ifs at answered with missing seen <;> cases answered
  · simp [Response.Acknowledges,missingIdentifiers] at acknowledges
  · obtain ⟨expiry,entry,_⟩ := (Option.any_eq_true ..).mp seen
    exact ⟨expiry,entry⟩
private theorem beforeInsert_ok (passed : beforeInsert codec configured cache d draws = .ok event) :
    event.deduplicationID = some d.eventID ∧ Carries codec event d := by
  revert passed
  fun_cases beforeInsert codec configured cache d draws
  all_goals intro passed; cases passed
  next payload read _ _ => exact ⟨rfl,payload,read,draws,rfl⟩

private theorem sound_step {a : Action} (sound : Sound codec s) (lossless : Lossless s a) (stepped : step codec configured s a = some t) :
    Sound codec t := by
  cases a with
  | receive n d =>
    simp only [step] at stepped
    split at stepped <;> try cases stepped
    split at stepped <;> cases stepped
    next r answered =>
      refine (sound.receive lossless).answer (fun acknowledges => ⟨List.mem_cons_self,?_⟩)
      obtain ⟨expiry,entry⟩ := beforeInsert_error answered acknowledges
      exact sound.cached _ _ entry
    next event passed =>
      obtain ⟨named,carries⟩ := beforeInsert_ok passed
      refine (sound.receive lossless).set (fun r same => ?_)
      cases same
      exact ⟨List.mem_cons_self,named,carries,by simp⟩
  | store n reply =>
    simp only [step] at stepped
    split at stepped <;> try cases stepped
    next d event current =>
      obtain ⟨received,named,carries,_⟩ := sound.requests n _ current
      have inserted := sound.insert received named carries reply
      split at stepped <;> cases stepped
      next message db eq =>
        have covered : Taken (insert s.db event reply).2 d.eventID := by
          rcases lossless _ current with ⟨effective,free⟩ | taken
          · exact insert_taken named effective free
          · exact taken_insert taken
        rw [eq] at inserted covered
        exact (inserted.set (by simp)).answer (fun _ => ⟨received,covered⟩)
      next db eq =>
        obtain ⟨effective,free⟩ := insert_silent (by rw [eq])
        have covered := insert_taken named effective free
        rw [eq] at inserted covered
        refine inserted.set (fun r same => ?_)
        cases same
        exact ⟨received,named,carries,fun _ => covered⟩
  | record n =>
    simp only [step] at stepped
    split at stepped <;> cases stepped
    next d event current =>
      obtain ⟨received,_,_,stored⟩ := sound.requests n _ current
      exact ((sound.record (stored rfl)).set (by simp)).answer (fun _ => ⟨received,stored rfl⟩)
  | wait elapsed =>
    cases stepped
    exact ⟨sound.rows,sound.cached,sound.requests,sound.answers,sound.providers⟩
  | restart =>
    cases stepped
    exact ⟨sound.rows,by simp,by simp,sound.answers,sound.providers⟩

private theorem sound_start (unused : ∀ row ∈ db.events, row.deduplicationID = none) : Sound codec (start db now) :=
  ⟨fun row member id named => by simp [unused row member] at named,by simp [start],by simp [start],by simp [start],by simp [start]⟩

/-- In every lossless run, each acknowledged delivery has its event in the outbox. -/
theorem acknowledged_kept (codec : Codec) (configured : Bool) (db : Tables) (now : Time)
    (unused : ∀ row ∈ db.events, row.deduplicationID = none) {s : State}
    (run : Reach (step codec configured) Lossless (start db now) s) {d : Delivery} {r : Response} (answered : (d,r) ∈ s.answers)
    (acknowledges : r.Acknowledges) : Kept codec s d := by
  have sound : Sound codec s := run.invariant (sound_start unused) sound_step
  obtain ⟨received,row,member,named⟩ := sound.answers d r answered acknowledges
  obtain ⟨d',received',same,carries⟩ := sound.rows row member _ named
  exact ⟨row,member,named,d',received',sound.providers d received d' received' same,same,carries⟩

def payment : Delivery := ⟨"stripe","",some (.obj [("id",.str "evt_1"),("type",.str "payment.processed")])⟩
/-- It is delivered three times: it is stored, found in the cache, and after a restart found in the outbox. -/
def redelivered : List Action :=
  [.receive 0 payment 1 2,.store 0 .done,.record 0,.receive 1 payment 3 4,.restart,.receive 2 payment 5 6,.store 2 .done]

theorem acknowledged_kept_redelivered :
    ∃ s, Reach (step strokeCodec true) Lossless (start .empty 0) s ∧ s.answers.map (fun a => a.2.status) = [200,200,202] ∧
      ∀ d r, (d,r) ∈ s.answers → r.Acknowledges → Kept strokeCodec s d :=
  reach_seen redelivered (by decide +kernel) (by decide +kernel) (fun _ run _ d r =>
    acknowledged_kept strokeCodec true .empty 0 Keyed.Table.forall_mem_empty run)
/-- The INSERT fails, the delivery is acknowledged, and the outbox is empty. -/
theorem acknowledged_lost :
    ¬ ∀ (codec : Codec) (configured : Bool) (db : Tables) (now : Time) (_ : ∀ row ∈ db.events, row.deduplicationID = none)
      (s : State) (_ : Reach (step codec configured) Any (start db now) s) (d : Delivery) (r : Response) (_ : (d,r) ∈ s.answers)
      (_ : r.Acknowledges), Kept codec s d := by
  intro claim
  obtain ⟨s,ran,empty,answered⟩ := run_seen (step strokeCodec true) (start .empty 0)
    [.receive 0 payment 1 2,.store 0 (.failed "connection reset by peer")]
    (fun s => s.db.events.rows = [] ∧ ∃ a ∈ s.answers, a.2.status = 200) (by decide +kernel)
  obtain ⟨⟨d,r⟩,member,status⟩ := answered
  obtain ⟨row,stored,_⟩ := claim strokeCodec true .empty 0 Keyed.Table.forall_mem_empty s
    (run_any ran) d r member (by dsimp only at status; unfold Response.Acknowledges; omega)
  rw [Keyed.Table.mem_def,empty] at stored
  cases stored
end

end Stellabill.Webhooks

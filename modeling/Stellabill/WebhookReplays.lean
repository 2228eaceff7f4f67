import Stellabill.WebhookVerification

/-!
Requests that are sent again. A request is refused as a replay for five minutes after it was
accepted; its timestamp may be accepted for longer, since the tolerance counts on both sides of
the clock.
-/
namespace Stellabill.WebhookReplays
open ByteStrings Calendar Transitions WebhookVerification Function

/-- The middleware with its clock, and the requests that it has accepted. -/
structure State where
  cache : EventIDCache
  now : Int
  accepted : List (Request × Int)

def start (now : Int) : State := ⟨fun _ => none,now,[]⟩
def step (lib : Library) (cfg : WebhookConfig) (s : State) (a : Request × Int) : Option State :=
  if s.now ≤ a.2 ∧ Int64 (a.2/second) then
    match verify lib cfg s.cache a.1 a.2 with
    | (.ok _,cache) => some ⟨cache,a.2,a :: s.accepted⟩
    | (.error _,cache) => some ⟨cache,a.2,s.accepted⟩
  else none

/-- A middleware made from the configuration accepts no request twice. -/
def NeverTwice (lib : Library) (config : WebhookConfig) : Prop :=
  ∀ cfg, config.validate = .ok cfg → ∀ now s, Reach (step lib cfg) Any (start now) s → (s.accepted.map Prod.fst).Nodup

/-- The configuration asks for all that stops a replay. -/
structure Guarded (cfg : WebhookConfig) : Prop where
  timestamp : cfg.requireTimestamp = true
  eventID : cfg.requireEventID = true
  replay : cfg.enableReplayProtection = true
  timestampHeader : cfg.timestampHeader ≠ ""
  eventIDHeader : cfg.eventIDHeader ≠ ""

/-- Replays are checked for. -/
def Checks (cfg : WebhookConfig) : Prop := (cfg.requireEventID = true ∧ cfg.eventIDHeader ≠ "") ∧ cfg.enableReplayProtection = true
  deriving Decidable

section
variable (lib : Library) (cfg : WebhookConfig) (r : Request)

structure Passes : Prop where
  fits : r.contentLength ≤ int64 cfg.maxBodySize
  signed : ∃ rawBody, r.body = .ok rawBody ∧ r.header lib cfg.signatureHeader ≠ [] ∧
    verifySignature lib cfg 0 2 rawBody (r.header lib cfg.signatureHeader) = .ok ()
  named : r.header lib cfg.eventIDHeader ≠ []
def InTime (n : Int) : Prop :=
  r.header lib cfg.timestampHeader ≠ [] ∧ verifyTimestamp lib (r.header lib cfg.timestampHeader) cfg.tolerance n = .ok ()
end

/-- No timestamp is accepted at two instants with five minutes between them. -/
def Expires (lib : Library) (cfg : WebhookConfig) : Prop :=
  ∀ r, Passes lib cfg r → ∀ n m, Int64 n → Int64 m → InTime lib cfg r n → InTime lib cfg r m → m < n+300

section
variable {lib : Library} {cfg : WebhookConfig} {cache : EventIDCache} {r : Request} {now : Int} {s t : State}

theorem verifySignature_now (named : cfg.timestampHeader ≠ "") (now now' : Int) (nested : Nat) (payload signature : Bytes) :
    verifySignature lib cfg now nested payload signature = verifySignature lib cfg now' nested payload signature := by
  induction nested generalizing payload signature with
  | zero => rfl
  | succ nested ih => simp [verifySignature,named,ih]

def Forgotten (cache : EventIDCache) (eventID : Bytes) (now : Int) : Prop := ∀ expiry, cache eventID = some expiry → expiry ≤ now

variable {eventID : Bytes} {a : Request × Int}

theorem cleanupExpired_any :
    ((cache.cleanupExpired now) eventID).any (fun expiry => now < expiry) = true ↔ ¬ Forgotten cache eventID now := by
  unfold EventIDCache.cleanupExpired Forgotten
  cases cache eventID with
  | none => simp
  | some expiry =>
    by_cases live : now < expiry
    · simp [Option.filter,live,Int.not_lt.mpr (Int.le_of_lt live)]
    · by_cases gone : expiry < now <;> simp [Option.filter,gone,live]
private theorem cleanupExpired_some {expiry : Int} (cached : cache eventID = some expiry) :
    cache.cleanupExpired now eventID = some expiry ∨ expiry < now := by
  by_cases gone : expiry < now
  · exact .inr gone
  · exact .inl (by simp [EventIDCache.cleanupExpired,cached,Option.filter,gone])
section
variable {id k : Bytes} {t ttl : Int}
theorem checkAndStore_seen (given : id ≠ []) (live : ¬ Forgotten cache id now) :
    cache.checkAndStore ttl id now = (.error "event ID already seen",cache.cleanupExpired now) := by
  simp [EventIDCache.checkAndStore,given,cleanupExpired_any.mpr live]
theorem checkAndStore_new (given : id ≠ []) (new : Forgotten cache id now) :
    cache.checkAndStore ttl id now = (.ok (),update (cache.cleanupExpired now) id (some (now+ttl))) := by
  simp [EventIDCache.checkAndStore,given,mt cleanupExpired_any.mp (not_not.mpr new)]
private theorem forgotten_cleanup (later : now ≤ t) : Forgotten (cache.cleanupExpired now) k t ↔ Forgotten cache k t := by
  constructor
  · intro kept expiry held
    rcases cleanupExpired_some held with stays | gone
    · exact kept expiry stays
    · omega
  · exact fun kept expiry held => kept expiry (Option.filter_eq_some_iff.mp held).1
theorem forgotten_store (given : id ≠ []) (later : now ≤ t) : Forgotten (cache.checkAndStore ttl id now).2 k t ↔
    Forgotten cache k t ∧ (k = id → Forgotten cache id now → now+ttl ≤ t) := by
  by_cases new : Forgotten cache id now
  · rw [checkAndStore_new given new]
    by_cases own : k = id
    · subst own
      have past : Forgotten cache k t := fun expiry held => Int.le_trans (new expiry held) later
      have stored : Forgotten (update (cache.cleanupExpired now) k (some (now+ttl))) k t ↔ now+ttl ≤ t := by simp [Forgotten]
      simp [stored,past,new]
    · have other : Forgotten (update (cache.cleanupExpired now) id (some (now+ttl))) k t ↔ Forgotten cache k t := by
        rw [Forgotten,update_of_ne own]
        exact forgotten_cleanup later
      simp [other,own]
  · rw [checkAndStore_seen given new]
    simp [new,forgotten_cleanup later]
end
theorem checkEventID_ok (checks : Checks cfg) : (checkEventID lib cfg cache r now).1 = .ok () ↔
    r.header lib cfg.eventIDHeader ≠ [] ∧ Forgotten cache (r.header lib cfg.eventIDHeader) now := by
  rw [checkEventID,if_pos checks.1,if_pos checks.2]
  by_cases absent : r.header lib cfg.eventIDHeader = []
  · simp [absent]
  · rw [if_neg absent]
    by_cases live : Forgotten cache (r.header lib cfg.eventIDHeader) now
    · simp [checkAndStore_new absent live,absent,live]
    · simp [checkAndStore_seen absent live,live]
/-- After a request the same is forgotten, but for the event ID of one that is accepted. -/
theorem forgotten_verify {t : Int} (checks : Checks cfg) (later : now ≤ t) : Forgotten (verify lib cfg cache r now).2 eventID t ↔
    Forgotten cache eventID t ∧ (Accepts lib cfg cache r now → r.header lib cfg.eventIDHeader = eventID → now+fiveMinutes ≤ t) := by
  rw [accepts_iff,checkEventID_ok checks]
  cases checked : checkRequest lib cfg r now with
  | error rejection => simp [verify,checked]
  | ok _ =>
    simp only [verify,checked,checkEventID,if_pos checks.1,if_pos checks.2]
    by_cases absent : r.header lib cfg.eventIDHeader = []
    · simp [absent]
    · have stored : Forgotten (cache.checkAndStore fiveMinutes (r.header lib cfg.eventIDHeader) now).2 eventID t ↔ _ :=
        forgotten_store absent later
      rw [if_neg absent]
      by_cases live : Forgotten cache (r.header lib cfg.eventIDHeader) now
      · rw [checkAndStore_new absent live] at stored ⊢
        simp [stored,live,absent,eq_comm]
      · rw [checkAndStore_seen absent live] at stored ⊢
        simp [stored,live]
section
variable (guarded : Guarded cfg)
include guarded
theorem Guarded.checks : Checks cfg := ⟨⟨guarded.eventID,guarded.eventIDHeader⟩,guarded.replay⟩
private theorem checkTimestamp_guarded : checkTimestamp lib cfg r now = .ok () ↔ InTime lib cfg r (now/second) := by
  rw [checkTimestamp,if_pos ⟨guarded.timestamp,guarded.timestampHeader⟩,InTime]
  split <;> simp [*]
theorem accepts_guarded : Accepts lib cfg cache r now ↔
      Passes lib cfg r ∧ InTime lib cfg r (now/second) ∧ Forgotten cache (r.header lib cfg.eventIDHeader) now := by
  rw [accepts_iff,checkRequest_ok,checkEventID_ok guarded.checks,checkTimestamp_guarded guarded]
  simp only [verifySignature_now guarded.timestampHeader (now/second) 0]
  constructor
  · rintro ⟨⟨fits,signed,inTime⟩,named,forgotten⟩
    exact ⟨⟨fits,signed,named⟩,inTime,forgotten⟩
  · rintro ⟨⟨fits,signed,named⟩,inTime,forgotten⟩
    exact ⟨⟨fits,signed,inTime⟩,named,forgotten⟩
end

/-! ### All requests -/

theorem step_cases (stepped : step lib cfg s a = some t) :
    s.now ≤ a.2 ∧ Int64 (a.2/second) ∧ t.now = a.2 ∧ t.cache = (verify lib cfg s.cache a.1 a.2).2 ∧
      ((Accepts lib cfg s.cache a.1 a.2 ∧ t.accepted = a :: s.accepted) ∨ (¬ Accepts lib cfg s.cache a.1 a.2 ∧ t.accepted = s.accepted)) := by
  unfold step at stepped
  unfold Accepts
  split at stepped
  · next later =>
    split at stepped
    · next cache verified =>
      cases stepped
      exact ⟨later.1,later.2,rfl,by rw [verified],.inl ⟨by rw [verified],rfl⟩⟩
    · next error cache verified =>
      cases stepped
      exact ⟨later.1,later.2,rfl,by rw [verified],.inr ⟨by rw [verified]; simp,rfl⟩⟩
  · cases stepped

theorem step_accepts (later : s.now ≤ a.2) (fits : Int64 (a.2/second)) (accepted : Accepts lib cfg s.cache a.1 a.2) :
    step lib cfg s a = some ⟨(verify lib cfg s.cache a.1 a.2).2,a.2,a :: s.accepted⟩ := by
  rw [step,if_pos ⟨later,fits⟩]
  unfold Accepts at accepted
  split
  · next cache verified => rw [verified]
  · next error cache verified => simp [verified] at accepted

/-- Where replays are checked for, an event ID is remembered for five minutes after every accepted request. -/
def Recalls (lib : Library) (cfg : WebhookConfig) (s : State) : Prop := Checks cfg → ∀ eventID t, s.now ≤ t →
  (Forgotten s.cache eventID t ↔ ∀ b ∈ s.accepted, b.1.header lib cfg.eventIDHeader = eventID → b.2+fiveMinutes ≤ t)
theorem recalls_start (now : Int) : Recalls lib cfg (start now) := fun _ _ _ _ => by simp [start,Forgotten]
theorem recalls_step (recalls : Recalls lib cfg s) (stepped : step lib cfg s a = some t) : Recalls lib cfg t := by
  obtain ⟨later,_,clock,cache,outcome⟩ := step_cases stepped
  intro checks eventID u after
  rw [clock] at after
  rw [cache,forgotten_verify checks after,recalls checks eventID u (Int.le_trans later after)]
  obtain ⟨accepted,list⟩ | ⟨refused,list⟩ := outcome
  · simp only [list,List.forall_mem_cons,accepted,forall_const,and_comm]
  · simp [list,refused]

/-- An accepted request was in time, and it is remembered until five minutes have passed. -/
structure Remembered (lib : Library) (cfg : WebhookConfig) (s : State) : Prop where
  passes : ∀ a ∈ s.accepted, Passes lib cfg a.1
  inTime : ∀ a ∈ s.accepted, Int64 (a.2/second) ∧ InTime lib cfg a.1 (a.2/second)
  cached : ∀ a ∈ s.accepted, (∃ expiry, s.cache (a.1.header lib cfg.eventIDHeader) = some expiry ∧ a.2+fiveMinutes ≤ expiry) ∨
    a.2+fiveMinutes ≤ s.now

private theorem cached_of_recalls (checks : Checks cfg) (recalls : Recalls lib cfg s) {b : Request × Int} (listed : b ∈ s.accepted) :
    (∃ expiry, s.cache (b.1.header lib cfg.eventIDHeader) = some expiry ∧ b.2+fiveMinutes ≤ expiry) ∨ b.2+fiveMinutes ≤ s.now := by
  by_contra neither
  obtain ⟨none_,recent⟩ := not_or.mp neither
  -- Forgotten just before the five minutes are over.
  have forgotten : Forgotten s.cache (b.1.header lib cfg.eventIDHeader) (b.2+fiveMinutes-1) := fun expiry cached =>
    Int.not_lt.mp (fun long => none_ ⟨expiry,cached,by omega⟩)
  have over_ := (recalls checks _ _ (by omega)).mp forgotten b listed rfl
  omega
private theorem remembered_step (guarded : Guarded cfg) (remembered : Remembered lib cfg s) (recalls : Recalls lib cfg t)
    (stepped : step lib cfg s a = some t) : Remembered lib cfg t := by
  obtain ⟨later,fits,clock,cache,⟨accepted,list⟩ | ⟨_,list⟩⟩ := step_cases stepped
  · obtain ⟨passes,inTime,_⟩ := (accepts_guarded guarded).mp accepted
    refine ⟨?_,?_,fun b listed => cached_of_recalls guarded.checks recalls listed⟩ <;> rw [list]
    · exact List.forall_mem_cons.mpr ⟨passes,remembered.passes⟩
    · exact List.forall_mem_cons.mpr ⟨⟨fits,inTime⟩,remembered.inTime⟩
  · refine ⟨?_,?_,fun b listed => cached_of_recalls guarded.checks recalls listed⟩ <;> rw [list]
    · exact remembered.passes
    · exact remembered.inTime
theorem apart (guarded : Guarded cfg) (remembered : Remembered lib cfg s) (later : s.now ≤ a.2) (accepted : Accepts lib cfg s.cache a.1 a.2)
    {b : Request × Int} (listed : b ∈ s.accepted) (same : b.1 = a.1) : b.2+fiveMinutes ≤ a.2 := by
  have forgotten := ((accepts_guarded guarded).mp accepted).2.2
  obtain ⟨expiry,cached,long⟩ | passed := remembered.cached b listed
  · rw [same] at cached
    have gone := forgotten expiry cached
    omega
  · omega
theorem nodup_run (guarded : Guarded cfg) (expires : Expires lib cfg) (run : Reach (step lib cfg) Any (start now) s) :
    (s.accepted.map Prod.fst).Nodup := by
  refine (run.invariant (I := fun s => Recalls lib cfg s ∧ Remembered lib cfg s ∧ (s.accepted.map Prod.fst).Nodup)
    ⟨recalls_start now,⟨by simp [start],by simp [start],by simp [start]⟩,by simp [start]⟩ ?_).2.2
  intro s a t ⟨recalls,remembered,nodup⟩ _ stepped
  have recalls := recalls_step recalls stepped
  refine ⟨recalls,remembered_step guarded remembered recalls stepped,?_⟩
  obtain ⟨later,fits,_,_,⟨accepted,list⟩ | ⟨_,list⟩⟩ := step_cases stepped
  · rw [list,List.map_cons,List.nodup_cons]
    refine ⟨fun again => ?_,nodup⟩
    obtain ⟨b,listed,same⟩ := List.mem_map.mp again
    obtain ⟨passes,inTime,_⟩ := (accepts_guarded guarded).mp accepted
    obtain ⟨fits',inTime'⟩ := remembered.inTime b listed
    have soon := expires a.1 passes _ _ fits' fits (same ▸ inTime') inTime
    have late := apart guarded remembered later accepted listed same
    unfold second at soon
    unfold fiveMinutes at late
    omega
  · rwa [list]
theorem accepted_again {n m : Int} (guarded : Guarded cfg) (passes : Passes lib cfg r) (fits : Int64 n) (fits' : Int64 m)
    (inTime : InTime lib cfg r n) (inTime' : InTime lib cfg r m) (late : n+300 ≤ m) :
    ∃ s, Reach (step lib cfg) Any (start (n*second)) s ∧ s.accepted = [(r,m*second),(r,n*second)] := by
  have whole : ∀ k : Int, k*second/second = k := fun k => Int.mul_ediv_cancel k (by decide)
  have later : n*second ≤ m*second := Int.mul_le_mul_of_nonneg_right (by omega) (by decide)
  have first : Accepts lib cfg (start (n*second)).cache r (n*second) :=
    (accepts_guarded guarded).mpr ⟨passes,by rwa [whole],nofun⟩
  have again : Accepts lib cfg (verify lib cfg (start (n*second)).cache r (n*second)).2 r (m*second) := by
    refine (accepts_guarded guarded).mpr ⟨passes,by rwa [whole],(forgotten_verify guarded.checks later).mpr ⟨nofun,fun _ _ => ?_⟩⟩
    unfold fiveMinutes second
    omega
  refine ⟨_,(Reach.start.next trivial (step_accepts (a := (r,n*second)) (Int.le_refl _) ?_ first)).next trivial
    (step_accepts (a := (r,m*second)) later ?_ again),rfl⟩
  · rwa [whole]
  · rwa [whole]
end

theorem expires_short {lib : Library} {cfg : WebhookConfig} (nonneg : 0 ≤ cfg.tolerance) (short : cfg.tolerance < 150) : Expires lib cfg := by
  intro r _ n m fits fits' inTime inTime'
  obtain ⟨secs,parsed,_,new⟩ := verifyTimestamp_ok.mp inTime.2
  obtain ⟨secs',parsed',old,_⟩ := verifyTimestamp_ok.mp inTime'.2
  obtain rfl : secs = secs' := Except.ok.inj (parsed.symm.trans parsed')
  obtain ⟨low,high⟩ := fits
  obtain ⟨low',high'⟩ := fits'
  have above := int64_le (n := n+cfg.tolerance) (by omega)
  have below := le_int64 (n := m-cfg.tolerance) (by omega)
  omega

/-- No request is accepted twice exactly when no timestamp is accepted at two instants five minutes apart, for instance
    with a tolerance below two and a half minutes. -/
theorem accepted_once_iff {lib : Library} {config cfg : WebhookConfig} (valid : config.validate = .ok cfg) (guarded : Guarded cfg) :
    (NeverTwice lib config ↔ Expires lib cfg) ∧ (0 ≤ cfg.tolerance → cfg.tolerance < 150 → NeverTwice lib config) := by
  have enough : Expires lib cfg → NeverTwice lib config := by
    intro expires cfg' valid' now s run
    obtain rfl : cfg = cfg' := Except.ok.inj (valid.symm.trans valid')
    exact nodup_run guarded expires run
  refine ⟨⟨fun once r passes n m fits fits' inTime inTime' => ?_,enough⟩,fun nonneg short => enough (expires_short nonneg short)⟩
  by_contra late
  obtain ⟨s,run,list⟩ := accepted_again guarded passes fits fits' inTime inTime' (by omega)
  have nodup := once cfg valid _ s run
  simp [list] at nodup

theorem accepted_once_iff_two_minutes : NeverTwice (library fun _ secret payload => secret ++ payload) { withSecret with tolerance := 120 } :=
  (accepted_once_iff rfl ⟨rfl,rfl,rfl,by decide,by decide⟩).2 (by decide) (by decide)

/-- With the defaults, a request whose timestamp is five minutes ahead is accepted, and again after those. -/
theorem five_minutes_ahead (mac : Algorithm → Bytes → Bytes → Bytes) :
    ∃ cfg s, withSecret.validate = .ok cfg ∧ Guarded cfg ∧ Reach (step (library mac) cfg) Any (start 1700000000000000000) s ∧
      s.accepted.map Prod.snd = [1700000300000000000,1700000000000000000] ∧ ¬ (s.accepted.map Prod.fst).Nodup := by
  have parsed : parseUnixTimestamp (library mac) (text "1700000300") = .ok 1700000300 := by
    have read : parseInt64 (text "1700000300") = some 1700000300 := by decide +kernel
    simp [parseUnixTimestamp,read]
  have guarded : Guarded withSecret := ⟨rfl,rfl,rfl,by decide,by decide⟩
  let r := signedEvent mac withSecret "1700000300" "evt_1" "x"
  have passes : Passes (library mac) withSecret r := by
    have present : signatureOf (library mac) withSecret (text "x") ≠ [] := List.cons_ne_nil _ _
    refine ⟨(by decide +kernel : ((text "x").length : Int) ≤ int64 5242880),
      ⟨text "x",rfl,present,verifySignature_signatureOf nofun present⟩,?_⟩
    exact (by decide +kernel : text "evt_1" ≠ [])
  have inTime : ∀ n, 1700000000 ≤ n → n ≤ 1700000300 → InTime (library mac) withSecret r n := by
    intro n low high
    refine ⟨(by decide +kernel : text "1700000300" ≠ []),verifyTimestamp_ok.mpr ⟨1700000300,parsed,?_,?_⟩⟩
    · rw [int64_of_fits ⟨by simp [withSecret,defaultWebhookConfig]; omega,by simp [withSecret,defaultWebhookConfig]; omega⟩]
      simp [withSecret,defaultWebhookConfig]
      omega
    · rw [int64_of_fits ⟨by simp [withSecret,defaultWebhookConfig]; omega,by simp [withSecret,defaultWebhookConfig]; omega⟩]
      simp [withSecret,defaultWebhookConfig]
      omega
  obtain ⟨s,run,list⟩ := accepted_again guarded passes (by decide) (by decide) (inTime 1700000000 (by decide) (by decide))
    (inTime 1700000300 (by decide) (by decide)) (by decide)
  exact ⟨withSecret,s,rfl,guarded,run,by rw [list]; rfl,by simp [list]⟩

theorem accepted_twice : ¬ ∀ (lib : Library) (config cfg : WebhookConfig), config.validate = .ok cfg → Guarded cfg → NeverTwice lib config := by
  intro claim
  obtain ⟨cfg,s,valid,guarded,run,_,twice⟩ := five_minutes_ahead fun _ secret payload => secret ++ payload
  exact twice (claim _ withSecret cfg valid guarded cfg valid _ s run)

/-! ### Deliveries that failed -/

/-- The middleware before a handler, with the event IDs of the deliveries answered with a 2xx status. -/
structure Handled extends State where
  succeeded : List Bytes

/-- A delivery at an instant, and the answer of the handler to a delivery that got to it. -/
inductive Event
  | deliver (a : Request × Int) | answer (n status : Nat)

section
variable (lib : Library) (cfg : WebhookConfig) (s : Handled)

def handle : Event → Option Handled
  | .deliver a => (step lib cfg s.toState a).map (⟨·,s.succeeded⟩)
  | .answer n status => s.accepted[n]?.map (fun a =>
    if 200 ≤ status ∧ status ≤ 299 then { s with succeeded := a.1.header lib cfg.eventIDHeader :: s.succeeded } else s)

/-- A validly signed delivery of an event ID for which none was answered with a 2xx status. -/
def Due : Event → Prop
  | .deliver (r,now) => s.now ≤ now ∧ checkRequest lib cfg r now = .ok () ∧ r.header lib cfg.eventIDHeader ≠ [] ∧
    r.header lib cfg.eventIDHeader ∉ s.succeeded
  | .answer .. => False
/-- A delivered request is accepted. -/
def LetThrough : Event → Prop
  | .deliver (r,now) => Accepts lib cfg s.cache r now
  | .answer .. => True
/-- Five minutes have passed since every delivery of the event ID that got to the handler. -/
def Patient : Event → Prop
  | .deliver (r,now) => ∀ b ∈ s.accepted, b.1.header lib cfg.eventIDHeader = r.header lib cfg.eventIDHeader → b.2+fiveMinutes ≤ now
  | .answer .. => True
end

/-- No due delivery is rejected as a replay exactly when none comes within five minutes of one of its event ID that got
    to the handler, whatever that answered, unless replays are not checked for. -/
theorem redelivered_iff (lib : Library) (cfg : WebhookConfig) (now : Int) (events : List Event) :
    Along (handle lib cfg) (fun s e => Due lib cfg s e → LetThrough lib cfg s e) ⟨start now,[]⟩ events ↔
      Along (handle lib cfg) (fun s e => Due lib cfg s e → Checks cfg → Patient lib cfg s e) ⟨start now,[]⟩ events := by
  refine along_congr (I := fun s => Recalls lib cfg s.toState) (recalls_start now) ?_ ?_ events
  · intro s e recalls
    refine forall_congr' (fun due => ?_)
    cases e with
    | answer n status => exact due.elim
    | deliver a =>
      obtain ⟨later,checked,present,_⟩ := due
      simp only [LetThrough,accepts_iff,checked,true_and]
      by_cases checks : Checks cfg
      · rw [checkEventID_ok checks,recalls checks _ a.2 later]
        simp [checks,present,Patient]
      · simp only [checkEventID,checks,false_implies,iff_true]
        split_ifs with required enabled
        · exact absurd ⟨required,enabled⟩ checks
        · rfl
        · rfl
  · intro s e t recalls _ stepped
    cases e with
    | deliver a =>
      obtain ⟨u,went,rfl⟩ := Option.map_eq_some_iff.mp stepped
      exact recalls_step recalls went
    | answer n status =>
      obtain ⟨a,_,rfl⟩ := Option.map_eq_some_iff.mp stepped
      split <;> exact recalls

def joined : Library := library fun _ secret payload => secret ++ payload
instance (s : Handled) (e : Event) : Decidable (Due joined withSecret s e → LetThrough joined withSecret s e) := by
  rcases e with ⟨r,now⟩ | _ <;> unfold Due LetThrough Accepts <;> infer_instance
def sentAgain (r : Request) : List Event := [.deliver (r,1700000000000000000),.answer 0 500,.deliver (r,1700000001000000000)]
/-- The handler fails, and the provider sends the event again after a second. -/
theorem redelivery_refused : ¬ Along (handle joined withSecret) (fun s e => Due joined withSecret s e → LetThrough joined withSecret s e)
      ⟨start 1700000000000000000,[]⟩ (sentAgain (signedEvent joined.mac withSecret "1700000000" "evt_1" "x")) := by
  decide +kernel

end Stellabill.WebhookReplays

import Mathlib.Data.List.Sort
import Stellabill.WebhookReplays

/-!
Signed admin requests. `AdminSigningMiddleware` remembers the ID of a request before it looks
at the signature, so that a request nobody has signed can use up the ID of one that is signed.
-/
namespace Stellabill.AdminSigning
open ByteStrings Calendar WebhookVerification Function
open WebhookReplays (Forgotten checkAndStore_seen checkAndStore_new forgotten_store)

structure Request where
  method : Bytes
  path : Bytes
  query : List (Bytes × Bytes)
  date : Bytes
  requestID : Bytes
  signature : Bytes
  body : Except String Bytes
/-- The secret, and what is taken from outside: the library, `url.QueryEscape` and the SHA-256. -/
structure AdminSigningConfig where
  secretKey : Bytes
  lib : Library
  escape : Bytes → Bytes
  sha256 : Bytes → Bytes

section
variable (cfg : AdminSigningConfig)

def line (data : Bytes) : Bytes := data ++ [0x0A]
def buildCanonicalRequest (r : Request) (body : Bytes) : Bytes :=
  let sortedQuery := (r.query.map (fun (key,value) => cfg.escape key ++ text "=" ++ cfg.escape value)).insertionSort (· ≤ ·)
  line r.method ++ line (if r.path = [] then text "/" else r.path) ++ line ((text "&").intercalate sortedQuery) ++
    line (line (text "x-stellabill-date:" ++ trimSpace r.date) ++ line (text "x-stellabill-request-id:" ++ trimSpace r.requestID)) ++
    line (text "x-stellabill-date;x-stellabill-request-id") ++ hexEncode (cfg.sha256 body)
def verifyAdminTimestamp (date : Bytes) (now : Int) : Except String Unit :=
  match parseUnixTimestamp cfg.lib date with
  | .error message => .error ("invalid admin request signature: " ++ message)
  | .ok secs => if secs < now-60 ∨ secs > now+60 then .error "timestamp skew exceeds 60 seconds" else .ok ()
def verifyAdminSignature (canonicalRequest signature : Bytes) : Except String Unit :=
  let signature := trimPrefix signature (text "v1=")
  match hexDecode signature with
  | none => .error ("invalid admin request signature: invalid hex encoding: " ++ cfg.lib.hexError signature)
  | some sigBytes =>
    if sigBytes = cfg.lib.mac .hmacSHA256 cfg.secretKey canonicalRequest then .ok () else .error "invalid admin request signature"
/-- The checks before the replay cache. -/
def checkHeaders (r : Request) (now : Int) : Except Rejection Unit :=
  if r.date = [] then .error ⟨401,"missing X-Stellabill-Date header"⟩
  else if r.requestID = [] then .error ⟨401,"missing X-Stellabill-Request-ID header"⟩
  else if r.signature = [] then .error ⟨401,"missing admin request signature"⟩
  else (verifyAdminTimestamp cfg r.date (now/second)).mapError (fun message => ⟨401,message⟩)
/-- The checks after it. -/
def checkSignature (r : Request) : Except Rejection Unit :=
  match r.body with
  | .error message => .error ⟨400,"failed to read request body: " ++ message⟩
  | .ok rawBody => (verifyAdminSignature cfg (buildCanonicalRequest cfg r rawBody) r.signature).mapError (fun message => ⟨401,message⟩)
/-- The handler of `AdminSigningMiddleware`, for a request at an instant. -/
def admin (cache : EventIDCache) (r : Request) (now : Int) : Except Rejection Unit × EventIDCache :=
  match checkHeaders cfg r now with
  | .error rejection => (.error rejection,cache)
  | .ok _ =>
    match cache.checkAndStore fiveMinutes r.requestID now with
    | (.error "event ID already seen",cache) => (.error ⟨401,"request replay detected"⟩,cache)
    | (.error message,cache) => (.error ⟨400,message⟩,cache)
    | (.ok _,cache) => (checkSignature cfg r,cache)

def Verified (r : Request) : Prop := checkSignature cfg r = .ok ()
  deriving Decidable
/-- The answers to the requests of a history whose signature verifies. -/
def answers (cache : EventIDCache) : List (Request × Int) → List (Except Rejection Unit)
  | [] => []
  | (r,now) :: rest =>
    let (answer,cache) := admin cfg cache r now
    if Verified cfg r then answer :: answers cache rest else answers cache rest

/-- The request gets to the cache, which does not know its ID and stores it. -/
def Stored (cache : EventIDCache) (r : Request) (now : Int) : Prop :=
  checkHeaders cfg r now = .ok () ∧ Forgotten cache r.requestID now
/-- No request that verifies comes within five minutes after one with its ID that was stored and does not verify. -/
def Undisturbed (cache : EventIDCache) : List (Request × Int) → Prop
  | [] => True
  | (r,now) :: rest =>
    (¬ Verified cfg r → Stored cfg cache r now → ∀ b ∈ rest, Verified cfg b.1 → checkHeaders cfg b.1 b.2 = .ok () →
      b.1.requestID = r.requestID → now+fiveMinutes ≤ b.2) ∧ Undisturbed (admin cfg cache r now).2 rest
end

/-! ### Histories -/

variable {cache cache' : EventIDCache} {k : Bytes} {now t : Int} {cfg : AdminSigningConfig} {r : Request}
  {history : List (Request × Int)} {clear : Bytes → Int → Prop}

theorem checkHeaders_named (passes : checkHeaders cfg r now = .ok ()) : r.requestID ≠ [] := by
  intro absent
  unfold checkHeaders at passes
  split_ifs at passes
theorem forgotten_mono (forgotten : Forgotten cache k now) (later : now ≤ t) : Forgotten cache k t :=
  fun expiry held => (forgotten expiry held).trans later
private theorem admin_new (passes : checkHeaders cfg r now = .ok ()) (new : Forgotten cache r.requestID now) :
    (admin cfg cache r now).1 = checkSignature cfg r := by
  simp only [admin,passes,checkAndStore_new (checkHeaders_named passes) new]
theorem admin_seen (passes : checkHeaders cfg r now = .ok ()) (seen : ¬ Forgotten cache r.requestID now) :
    (admin cfg cache r now).1 = .error ⟨401,"request replay detected"⟩ := by
  simp only [admin,passes,checkAndStore_seen (checkHeaders_named passes) seen]
theorem forgotten_admin (later : now ≤ t) : Forgotten (admin cfg cache r now).2 k t ↔ Forgotten cache k t ∧
    (k = r.requestID → checkHeaders cfg r now = .ok () → Forgotten cache r.requestID now → now+fiveMinutes ≤ t) := by
  cases passes : checkHeaders cfg r now with
  | error rejection => simp [admin,passes]
  | ok _ =>
    have stored : (admin cfg cache r now).2 = (cache.checkAndStore fiveMinutes r.requestID now).2 := by
      simp only [admin,passes]
      split <;> simp [*]
    simp only [stored,forgotten_store (checkHeaders_named passes) later,forall_const]

/-- The caches with and without the requests that do not verify; `clear` says that no such request keeps an ID. -/
structure Beside (cache cache' : EventIDCache) (clear : Bytes → Int → Prop) (now : Int) : Prop where
  alike : ∀ id t, now ≤ t → (Forgotten cache id t ↔ Forgotten cache' id t ∧ clear id t)
  apart : ∀ id t, now ≤ t → Forgotten cache' id t ∨ clear id t

section
variable (beside : Beside cache cache' clear now)
include beside

/-- A request that verifies is answered alike just when no other keeps its ID. -/
theorem Beside.answer (verified : Verified cfg r) : (admin cfg cache r now).1 = (admin cfg cache' r now).1 ↔
    (checkHeaders cfg r now = .ok () → clear r.requestID now) := by
  cases passes : checkHeaders cfg r now with
  | error rejection => simp [admin,passes]
  | ok _ =>
    have alike := beside.alike r.requestID now le_rfl
    by_cases new : Forgotten cache r.requestID now
    · rw [admin_new passes new,admin_new passes (alike.mp new).1]
      simp [(alike.mp new).2]
    · by_cases new' : Forgotten cache' r.requestID now
      · rw [admin_seen passes new,admin_new passes new',show checkSignature cfg r = .ok () from verified]
        simpa using fun its => new (alike.mpr ⟨new',its⟩)
      · rw [admin_seen passes new,admin_seen passes new']
        simp [(beside.apart r.requestID now le_rfl).resolve_left new']
theorem Beside.verified (given : checkHeaders cfg r now = .ok () → clear r.requestID now) :
    Beside (admin cfg cache r now).2 (admin cfg cache' r now).2 clear now := by
  have here := beside.alike r.requestID now le_rfl
  refine ⟨fun id t later => ?_,fun id t later => ?_⟩
  · rw [forgotten_admin later,forgotten_admin later,beside.alike id t later,and_right_comm]
    refine and_congr_left fun _ => and_congr_right fun _ => forall_congr' fun _ => forall_congr' fun passes => ?_
    rw [here,and_iff_left (given passes)]
  · rw [forgotten_admin later]
    by_cases known : clear id t
    · exact .inr known
    · have forgotten := (beside.apart id t later).resolve_right known
      refine .inl ⟨forgotten,?_⟩
      rintro rfl passes new
      exact absurd ((beside.alike _ t later).mp (forgotten_mono (here.mpr ⟨new,given passes⟩) later)).2 known
theorem Beside.unverified : Beside (admin cfg cache r now).2 cache'
    (fun id t => clear id t ∧ (id = r.requestID → Stored cfg cache r now → now+fiveMinutes ≤ t)) now := by
  refine ⟨fun id t later => ?_,fun id t later => ?_⟩
  · rw [forgotten_admin later,beside.alike id t later,and_assoc]
    simp [Stored]
  · by_cases forgotten : Forgotten cache' id t
    · exact .inl forgotten
    · refine .inr ⟨(beside.apart id t later).resolve_left forgotten,?_⟩
      rintro rfl ⟨_,new⟩
      exact absurd (forgotten_mono ((beside.alike _ now le_rfl).mp new).1 later) forgotten
theorem Beside.later (later : now ≤ t) : Beside cache cache' clear t :=
  ⟨fun id u after => beside.alike id u (later.trans after),fun id u after => beside.apart id u (later.trans after)⟩
end

/-- Side by side, with and without the requests that do not verify. -/
theorem answers_filter (cfg : AdminSigningConfig) (ordered : history.Pairwise (fun a b => a.2 ≤ b.2)) (started : ∀ a ∈ history, now ≤ a.2)
    (beside : Beside cache cache' clear now) : answers cfg cache history = answers cfg cache' (history.filter (fun a => Verified cfg a.1)) ↔
      (∀ b ∈ history, Verified cfg b.1 → checkHeaders cfg b.1 b.2 = .ok () → clear b.1.requestID b.2) ∧ Undisturbed cfg cache history := by
  induction history generalizing cache cache' clear now with
  | nil => simp [answers,Undisturbed]
  | cons a rest ih =>
    obtain ⟨first,ordered⟩ := List.pairwise_cons.mp ordered
    have here := beside.later (started a List.mem_cons_self)
    by_cases verified : Verified cfg a.1
    · simp only [answers,List.filter_cons,verified,decide_true,if_true,List.cons.injEq,List.forall_mem_cons,Undisturbed,forall_const,
        not_true_eq_false,false_implies,true_and,here.answer verified,and_assoc]
      exact and_congr_right fun given => ih ordered first (here.verified given)
    · simp only [answers,List.filter_cons,verified,decide_false,if_false,Bool.false_eq_true,List.forall_mem_cons,Undisturbed,forall_const,
        not_false_eq_true,false_implies,true_and]
      rw [ih ordered first here.unverified,← and_assoc]
      refine and_congr_left fun _ => ⟨fun both => ⟨fun b listed valid passes => (both b listed valid passes).1,?_⟩,?_⟩
      · exact fun stored b listed valid passes same => (both b listed valid passes).2 same stored
      · exact fun ⟨clears,spares⟩ b listed valid passes => ⟨clears b listed valid passes,fun same stored => spares stored b listed valid passes same⟩

/-- In a history in order of time, the requests that fail to verify change no other answer exactly where it is undisturbed. -/
theorem answers_kept_iff (cfg : AdminSigningConfig) (history : List (Request × Int)) (ordered : history.Pairwise (fun a b => a.2 ≤ b.2)) :
    answers cfg (fun _ => none) history = answers cfg (fun _ => none) (history.filter (fun a => Verified cfg a.1)) ↔
      Undisturbed cfg (fun _ => none) history := by
  cases history with
  | nil => simp [answers,Undisturbed]
  | cons a rest =>
    have started : ∀ b ∈ a :: rest, a.2 ≤ b.2 := List.forall_mem_cons.mpr ⟨Int.le_refl _,(List.pairwise_cons.mp ordered).1⟩
    have beside : Beside (fun _ => none) (fun _ => none) (fun _ _ => True) a.2 := ⟨fun _ _ _ => by simp,fun _ _ _ => .inr trivial⟩
    simpa using answers_filter cfg ordered started beside

def plain : AdminSigningConfig := ⟨text "k",library (fun _ _ data => data),fun data => data,fun data => data⟩
def unsigned (requestID : String) : Request := ⟨text "POST",text "/admin",[],text "1700000000",text requestID,text "00",.ok []⟩
def signed (requestID : String) : Request :=
  { unsigned requestID with signature := hexEncode (buildCanonicalRequest plain (unsigned requestID) []) }
def seconds (n : Int) : Int := (1700000000+n)*Calendar.second
/-- A request that is not signed has the ID of one before it and is not stored. -/
def afterwards : List (Request × Int) := [(signed "r1",seconds 0),(unsigned "r1",seconds 1),(signed "r2",seconds 2)]
theorem answers_kept_afterwards : answers plain (fun _ => none) afterwards =
    answers plain (fun _ => none) (afterwards.filter (fun a => Verified plain a.1)) := by
  refine (answers_kept_iff plain afterwards (by decide +kernel)).mpr ⟨fun fails => ?_,fun _ stored => ?_,fun fails => ?_,trivial⟩
  · exact absurd (by decide +kernel) fails
  · exact absurd (stored.2 (seconds 300) (by decide +kernel)) (by decide)
  · exact absurd (by decide +kernel) fails
theorem request_blocked : let history := [(unsigned "r1",seconds 0),(signed "r1",seconds 0)]
    answers plain (fun _ => none) history ≠ answers plain (fun _ => none) (history.filter (fun a => Verified plain a.1)) := by
  decide +kernel

end Stellabill.AdminSigning

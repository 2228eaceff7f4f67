import Stellabill.WebhookVerification

/-!
What the signature of a webhook vouches for. It is one over the payload alone, so that whoever
has seen a request can send its payload again with another event ID; an accepted request only
has a payload that was signed.
-/
namespace Stellabill.WebhookAuthenticity
open ByteStrings Calendar Transitions WebhookVerification

/-- The timestamp that a signature carries, if it is composite, and the text of its HMAC. -/
def signatureParts (cfg : WebhookConfig) (signature : Bytes) : Bytes × Bytes :=
  let signature := trimPrefix signature cfg.signatureVersion
  if 0x2C ∈ signature then ((compositeParts cfg signature).1,trimPrefix (compositeParts cfg signature).2 cfg.signatureVersion)
  else ([],signature)
def payloadOf (cfg : WebhookConfig) (signature body : Bytes) : Bytes :=
  if (signatureParts cfg signature).1 = [] then body else (signatureParts cfg signature).1 ++ text "." ++ body

section
variable (lib : Library) (cfg : WebhookConfig)

def signatureHeader (r : Request) : Bytes := r.header lib cfg.signatureHeader
def covered (r : Request) : Except String Bytes := r.body.map (payloadOf cfg (signatureHeader lib cfg r))
/-- The timestamp of the header, or of the signature where there is no header for it. -/
def timestampOf (r : Request) : Bytes :=
  if cfg.timestampHeader = "" then (signatureParts cfg (signatureHeader lib cfg r)).1 else r.header lib cfg.timestampHeader
def eventIDOf (r : Request) : Bytes := r.header lib cfg.eventIDHeader

/-- What can be sent without the secret: an HMAC that the request shows is one of a signed payload. -/
def Derivable (signed : List Request) (r : Request) : Prop :=
  ∀ payload, hexDecode (signatureParts cfg (signatureHeader lib cfg r)).2 = some (lib.mac cfg.algorithm cfg.secretKey payload) →
    ∃ q ∈ signed, covered lib cfg q = .ok payload

/-- The body, timestamp and event ID are the same. -/
structure Agrees (q r : Request) : Prop where
  body : q.body = r.body
  timestamp : timestampOf lib cfg q = timestampOf lib cfg r
  eventID : eventIDOf lib cfg q = eventIDOf lib cfg r

/-- An accepted request agrees with one that was signed. -/
def Authentic (signed : List Request) : Prop :=
  ∀ cache r now, Derivable lib cfg signed r → Accepts lib cfg cache r now → ∃ q ∈ signed, Agrees lib cfg q r

/-- An HMAC is one of one payload, and is not empty. -/
structure Unforgeable : Prop where
  injective : ∀ algorithm secret, Function.Injective (lib.mac algorithm secret)
  present : ∀ algorithm secret payload, lib.mac algorithm secret payload ≠ []
/-- The signature, the timestamp and the event ID have headers of their own, the algorithm is known, and the tolerance
    and the limit are not negative as machine numbers. -/
structure Ordinary : Prop where
  named : cfg.eventIDHeader ≠ ""
  signature : lib.canonical cfg.eventIDHeader ≠ lib.canonical cfg.signatureHeader
  timestamp : lib.canonical cfg.eventIDHeader ≠ lib.canonical cfg.timestampHeader
  apart : lib.canonical cfg.signatureHeader ≠ lib.canonical cfg.timestampHeader
  known : ∀ name, cfg.algorithm ≠ .other name
  tolerance : 0 ≤ cfg.tolerance ∧ Int64 cfg.tolerance
  limit : Int64 cfg.maxBodySize

/-- A payload with its HMAC, sent in chunks under a timestamp and an event ID of the sender's. -/
def forged (payload timestamp eventID : Bytes) : Request where
  contentLength := -1
  headers := Function.update (Function.update (fun _ => signatureOf lib cfg payload) (lib.canonical cfg.timestampHeader) timestamp)
    (lib.canonical cfg.eventIDHeader) eventID
  body := .ok payload
end

section
variable {lib : Library} {cfg : WebhookConfig} {r : Request} {cache : EventIDCache} {now : Int} {signed : List Request}
  {payload signature : Bytes}

theorem verifyHex_ok (verified : verifyHex lib cfg payload signature = .ok ()) :
    hexDecode signature = some (lib.mac cfg.algorithm cfg.secretKey payload) := by
  unfold verifyHex at verified
  split at verified
  · cases verified
  · next sigBytes decoded =>
    split at verified
    · cases verified
    · split at verified
      · next same => rw [decoded,same]
      · cases verified
theorem verifySignature_inner (verified : verifySignature lib cfg now 1 payload signature = .ok ()) :
    hexDecode (trimPrefix signature cfg.signatureVersion) = some (lib.mac cfg.algorithm cfg.secretKey payload) := by
  unfold verifySignature at verified
  split at verified
  · cases verified
  by_cases composite : 0x2C ∈ trimPrefix signature cfg.signatureVersion
  · simp only [composite,↓reduceIte,verifySignature] at verified
    split at verified
    · cases verified
    split at verified <;> cases verified
  · simp only [composite,↓reduceIte] at verified
    exact verifyHex_ok verified
private theorem verifySignature_ok (verified : verifySignature lib cfg now 2 payload signature = .ok ()) :
    hexDecode (signatureParts cfg signature).2 = some (lib.mac cfg.algorithm cfg.secretKey (payloadOf cfg signature payload)) := by
  unfold verifySignature at verified
  unfold payloadOf signatureParts
  split at verified
  · cases verified
  by_cases composite : 0x2C ∈ trimPrefix signature cfg.signatureVersion
  · simp only [composite,↓reduceIte] at verified ⊢
    split at verified
    · cases verified
    split at verified
    · cases verified
    · have decoded := verifySignature_inner verified
      simpa only [ite_not] using decoded
  · simp only [composite,↓reduceIte] at verified ⊢
    exact verifyHex_ok verified

theorem covered_signed (derivable : Derivable lib cfg signed r) (accepted : Accepts lib cfg cache r now) :
    ∃ q ∈ signed, covered lib cfg q = covered lib cfg r := by
  obtain ⟨_,⟨rawBody,read,_,verified⟩,_⟩ := checkRequest_ok.mp (accepts_iff.mp accepted).1
  obtain ⟨q,listed,same⟩ := derivable _ (verifySignature_ok verified)
  exact ⟨q,listed,by rw [same,covered,read]; rfl⟩
theorem body_of_covered {q : Request} (same : covered lib cfg q = covered lib cfg r)
    (stamp : (signatureParts cfg (signatureHeader lib cfg q)).1 = (signatureParts cfg (signatureHeader lib cfg r)).1) : q.body = r.body := by
  unfold covered payloadOf at same
  rw [stamp] at same
  cases read : q.body <;> cases read' : r.body <;> simp only [read,read',Except.map,reduceCtorEq,Except.error.injEq,Except.ok.injEq] at same ⊢
  · exact same
  · split at same
    · exact same
    · exact List.append_cancel_left same

/-! ### A payload sent again -/

theorem parts_signatureOf : signatureParts cfg (signatureOf lib cfg payload) = ([],hexEncode (lib.mac cfg.algorithm cfg.secretKey payload)) := by
  simp [signatureParts,signatureOf,trimPrefix_append,hexEncode_comma]
section
variable (ordinary : Ordinary lib cfg) {eventID timestamp : Bytes}
include ordinary

theorem forged_signature : signatureHeader lib cfg (forged lib cfg payload timestamp eventID) = signatureOf lib cfg payload := by
  simp [signatureHeader,Request.header,forged,ordinary.signature.symm,ordinary.apart]
private theorem forged_timestamp : (forged lib cfg payload timestamp eventID).header lib cfg.timestampHeader = timestamp := by
  simp [Request.header,forged,ordinary.timestamp.symm]
omit ordinary in
theorem forged_eventID : eventIDOf lib cfg (forged lib cfg payload timestamp eventID) = eventID := Function.update_self _ _ _
theorem forged_derivable (unforgeable : Unforgeable lib) {q : Request} (listed : q ∈ signed) (its : covered lib cfg q = .ok payload) :
    Derivable lib cfg signed (forged lib cfg payload timestamp eventID) := by
  intro other shown
  rw [forged_signature ordinary,parts_signatureOf,hexDecode_encode] at shown
  rw [← unforgeable.injective _ _ (Option.some.inj shown)]
  exact ⟨q,listed,its⟩
private theorem checkTimestamp_epoch : checkTimestamp lib cfg (forged lib cfg payload (text "0") eventID) 0 = .ok () := by
  have read : parseUnixTimestamp lib (text "0") = .ok 0 := by
    have value : parseInt64 (text "0") = some 0 := by decide +kernel
    simp [parseUnixTimestamp,value]
  obtain ⟨positive,_,high⟩ := ordinary.tolerance
  rw [checkTimestamp,forged_timestamp ordinary]
  split
  · rw [if_neg (by decide),verifyTimestamp_ok]
    refine ⟨0,read,le_trans (int64_le ?_) ?_,le_trans ?_ (le_int64 ?_)⟩ <;> simp [second] <;> omega
  · rfl
/-- The middleware accepts it in 1970, whatever the event ID. -/
theorem forged_accepted (unforgeable : Unforgeable lib) (present : eventID ≠ []) :
    Accepts lib cfg (fun _ => none) (forged lib cfg payload (text "0") eventID) 0 := by
  have header : (forged lib cfg payload (text "0") eventID).header lib cfg.eventIDHeader = eventID := forged_eventID
  have signature : (forged lib cfg payload (text "0") eventID).header lib cfg.signatureHeader = signatureOf lib cfg payload :=
    forged_signature ordinary
  have given : signatureOf lib cfg payload ≠ [] := by
    have digits := hexDecode_encode (lib.mac cfg.algorithm cfg.secretKey payload)
    intro empty
    rw [(List.append_eq_nil_iff.mp empty).2] at digits
    exact unforgeable.present _ _ _ (Option.some.inj digits).symm
  refine accepts_iff.mpr ⟨checkRequest_ok.mpr ⟨?_,⟨payload,rfl,?_⟩,checkTimestamp_epoch ordinary⟩,?_⟩
  · rw [int64_of_fits ordinary.limit]
    exact le_trans (show (-1 : Int) ≤ 0 by decide) (Int.natCast_nonneg _)
  · rw [signature]
    exact ⟨given,verifySignature_signatureOf ordinary.known given⟩
  · unfold checkEventID
    rw [header]
    by_cases required : cfg.requireEventID = true ∧ cfg.eventIDHeader ≠ ""
    · rw [if_pos required,if_neg present]
      split
      · simp [EventIDCache.checkAndStore,EventIDCache.cleanupExpired,present]
      · rfl
    · rw [if_neg required]
end
end

private theorem fresh_eventID (lib : Library) (cfg : WebhookConfig) (signed : List Request) :
    ∃ eventID, eventID ≠ [] ∧ ∀ q ∈ signed, eventIDOf lib cfg q ≠ eventID := by
  refine ⟨0x78 :: (signed.map (eventIDOf lib cfg)).flatten,List.cons_ne_nil _ _,fun q listed same => ?_⟩
  have short := (List.sublist_flatten_of_mem (List.mem_map_of_mem (f := eventIDOf lib cfg) listed)).length_le
  rw [same,List.length_cons] at short
  omega

/-- The payload of every accepted request was signed, and with the same timestamp in the signature it has the same body.
    But in an ordinary configuration accepted requests agree with signed ones just when nothing that can be read was
    signed. -/
theorem authentic_iff (lib : Library) (cfg : WebhookConfig) (signed : List Request) :
    (∀ cache r now, Derivable lib cfg signed r → Accepts lib cfg cache r now → ∃ q ∈ signed, covered lib cfg q = covered lib cfg r ∧
        ((signatureParts cfg (signatureHeader lib cfg q)).1 = (signatureParts cfg (signatureHeader lib cfg r)).1 → q.body = r.body)) ∧
    (Unforgeable lib → Ordinary lib cfg → (Authentic lib cfg signed ↔ ∀ q ∈ signed, ∀ body, q.body ≠ .ok body)) := by
  refine ⟨fun cache r now derivable accepted => ?_,fun unforgeable ordinary => ⟨fun authentic q listed body read => ?_,?_⟩⟩
  · obtain ⟨q,listed,same⟩ := covered_signed derivable accepted
    exact ⟨q,listed,same,body_of_covered same⟩
  · obtain ⟨eventID,present,fresh⟩ := fresh_eventID lib cfg signed
    have its : covered lib cfg q = .ok (payloadOf cfg (signatureHeader lib cfg q) body) := by rw [covered,read]; rfl
    obtain ⟨p,among,agrees⟩ := authentic _ _ 0 (forged_derivable ordinary unforgeable listed its)
      (forged_accepted ordinary unforgeable present)
    exact fresh p among (agrees.eventID.trans forged_eventID)
  · intro unread cache r now derivable accepted
    obtain ⟨q,listed,same⟩ := covered_signed derivable accepted
    obtain ⟨_,⟨rawBody,read,_⟩,_⟩ := checkRequest_ok.mp (accepts_iff.mp accepted).1
    cases got : q.body with
    | ok body => exact absurd got (unread q listed body)
    | error message => simp [covered,read,got,Except.map] at same

/-- A code that shows what it was made of. -/
def shown (_ : Algorithm) (secret payload : Bytes) : Bytes := 0 :: secret ++ payload
def captured : Request := signedEvent shown withSecret "1700000000" "evt_1" "x"
theorem shown_injective (algorithm : Algorithm) (secret : Bytes) : Function.Injective (shown algorithm secret) :=
  fun _ _ same => List.append_cancel_left (List.cons.inj same).2
theorem authentic_iff_captured : ¬ Authentic (library shown) withSecret [captured] := by
  have ordinary : Ordinary (library shown) withSecret :=
    ⟨by decide,by decide,by decide,by decide,nofun,by decide,by decide⟩
  rw [(authentic_iff (library shown) withSecret [captured]).2 ⟨shown_injective,fun _ _ _ => List.cons_ne_nil _ _⟩ ordinary]
  exact fun unread => unread captured (List.mem_singleton_self _) _ rfl
theorem captured_accepted : ¬ ∀ (lib : Library) (config cfg : WebhookConfig) (signed : List Request), config.validate = .ok cfg →
    cfg.requireTimestamp = true → cfg.requireEventID = true → (∀ algorithm secret, Function.Injective (lib.mac algorithm secret)) →
    Authentic lib cfg signed := by
  intro claim
  let sent := signedEvent shown withSecret "1700000900" "evt_2" "x"
  have derivable : Derivable (library shown) withSecret [captured] sent := by
    intro payload shows_
    have decoded : hexDecode (signatureParts withSecret (signatureHeader (library shown) withSecret sent)).2 =
      some (shown .hmacSHA256 withSecret.secretKey (text "x")) := by decide +kernel
    obtain rfl : text "x" = payload := shown_injective _ _ (Option.some.inj (decoded.symm.trans shows_))
    exact ⟨captured,List.mem_singleton_self _,by rfl⟩
  have accepted : Accepts (library shown) withSecret (fun _ => none) sent 1700000900000000000 := by
    unfold Accepts
    decide +kernel
  obtain ⟨q,listed,agrees⟩ := claim (library shown) withSecret withSecret [captured] rfl rfl rfl shown_injective _ sent _ derivable accepted
  obtain rfl := List.mem_singleton.mp listed
  exact (by decide +kernel : text "evt_1" ≠ text "evt_2") agrees.eventID

end Stellabill.WebhookAuthenticity

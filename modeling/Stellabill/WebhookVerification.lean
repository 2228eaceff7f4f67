import Mathlib.Logic.Function.Basic
import Stellabill.ByteStrings
import Stellabill.Calendar

/-!
The middleware that verifies webhooks. The signature is one over the body, or over the body
with the timestamp of a composite signature; the timestamp and the event ID that are checked
come from headers of their own, which no signature covers.
-/
namespace Stellabill.WebhookVerification
open ByteStrings Calendar Transitions

inductive Algorithm
  | hmacSHA256 | hmacSHA384 | hmacSHA512 | other (name : String)
  deriving DecidableEq

inductive Provider
  | generic | stripe | payPal | square | gitHub | custom | other (name : String)
  deriving DecidableEq
def Provider.string : Provider → String
  | .generic => "generic"
  | .stripe => "stripe"
  | .payPal => "paypal"
  | .square => "square"
  | .gitHub => "github"
  | .custom => "custom"
  | .other name => name

structure WebhookConfig where
  provider : Provider
  secretKey : Bytes
  signatureHeader : String
  timestampHeader : String
  eventIDHeader : String
  signatureVersion : Bytes
  algorithm : Algorithm
  tolerance : Int
  maxBodySize : Nat
  requireTimestamp : Bool
  requireEventID : Bool
  enableReplayProtection : Bool

def defaultWebhookConfig : WebhookConfig where
  provider := .generic
  secretKey := []
  signatureHeader := "X-Webhook-Signature"
  timestampHeader := "X-Webhook-Timestamp"
  eventIDHeader := "X-Webhook-Event-Id"
  signatureVersion := text "v2"
  algorithm := .hmacSHA256
  tolerance := 300
  maxBodySize := 5242880
  requireTimestamp := true
  requireEventID := true
  enableReplayProtection := true

/-- `Validate`: the configuration with its defaults. -/
def WebhookConfig.validate (c : WebhookConfig) : Except String WebhookConfig :=
  if c.secretKey = [] then .error "invalid webhook configuration: secret key is required"
  else if c.provider.string = "" then .error "invalid webhook configuration: provider must be specified"
  else match c.algorithm with
    | .other name => .error ("invalid webhook configuration: unsupported algorithm: " ++ name)
    | _ => .ok { c with
        maxBodySize := if c.maxBodySize = 0 then 5242880 else c.maxBodySize
        tolerance := if c.tolerance = 0 then 300 else c.tolerance }

/-- The event IDs that are remembered, with the instants they expire at. -/
abbrev EventIDCache := Bytes → Option Int

def EventIDCache.cleanupExpired (cache : EventIDCache) (now : Int) : EventIDCache :=
  fun id => (cache id).filter (fun expiry => ¬ expiry < now)
def EventIDCache.checkAndStore (cache : EventIDCache) (ttl : Int) (eventID : Bytes) (now : Int) : Except String Unit × EventIDCache :=
  if eventID = [] then (.error "event ID cannot be empty",cache)
  else
    let cache := cache.cleanupExpired now
    if (cache eventID).any (fun expiry => now < expiry) then (.error "event ID already seen",cache)
    else (.ok (),Function.update cache eventID (some (now+ttl)))
def fiveMinutes : Int := 300000000000

/-- The HMACs, the canonical names of headers, RFC 3339 as Unix seconds, and the texts of the errors of `encoding/hex`. -/
structure Library where
  mac : Algorithm → Bytes → Bytes → Bytes
  canonical : String → String
  parseRFC3339 : Bytes → Except String Int
  hexError : Bytes → String

def isDigit (byte : UInt8) : Bool := 0x30 ≤ byte ∧ byte ≤ 0x39
def skipSpace : Nat → Bytes → Option Bytes
  | 0, data => some data
  | fuel+1, data =>
    if data.head? = some 0x0A then none
    else match spaceWidth data with
      | none => some data
      | some width => skipSpace fuel (data.drop width)
/-- `parseInt64`: the integer at the beginning, whatever follows. -/
def parseInt64 (data : Bytes) : Option Int := do
  let data ← skipSpace data.length data
  let (negative,data) := match data with
    | 0x2D :: rest => (true,rest)
    | 0x2B :: rest => (false,rest)
    | rest => (false,rest)
  let digits := data.takeWhile isDigit
  if digits = [] then none
  let size : Nat := digits.foldl (fun n byte => 10*n+(byte.toNat-48)) 0
  let value : Int := if negative then -(size : Int) else size
  if Int64 value then some value else none
def parseUnixTimestamp (lib : Library) (timestamp : Bytes) : Except String Int :=
  match parseInt64 timestamp with
  | some secs =>
    if secs > 10000000000 then
      if secs > 1000000000000 then .ok (secs/1000000000) else .ok (secs/1000)
    else .ok secs
  | none => lib.parseRFC3339 timestamp
def verifyTimestamp (lib : Library) (timestamp : Bytes) (tolerance now : Int) : Except String Unit :=
  match parseUnixTimestamp lib timestamp with
  | .error message => .error ("invalid webhook signature: invalid timestamp format: " ++ message)
  | .ok secs =>
    if secs < int64 (now-tolerance) then .error "webhook timestamp too old"
    else if secs > int64 (now+tolerance) then .error "webhook timestamp too new"
    else .ok ()

example : parseInt64 (text "1700000000") = some 1700000000 ∧ parseInt64 (text " -12x") = some (-12) ∧ parseInt64 (text "T1") = none := by
  decide +kernel

/-! ### Signatures -/

def trimPrefix (data front : Bytes) : Bytes := if front.isPrefixOf data then data.drop front.length else data

section
variable (lib : Library) (cfg : WebhookConfig)

/-- The timestamp and the signature of a composite signature; of several the last. -/
def compositeParts (signature : Bytes) : Bytes × Bytes :=
  (signature.splitOn 0x2C).foldl (fun (timestamp,sig) part =>
    if (text "t=").isPrefixOf part then (trimPrefix part (text "t="),sig)
    else if (cfg.signatureVersion ++ text "=").isPrefixOf part then (timestamp,trimPrefix part (cfg.signatureVersion ++ text "="))
    else if (text "v1=").isPrefixOf part then (timestamp,trimPrefix part (text "v1="))
    else (timestamp,sig)) ([],[])
def verifyHex (payload signature : Bytes) : Except String Unit :=
  match hexDecode signature with
  | none => .error ("invalid webhook signature: invalid hex encoding: " ++ lib.hexError signature)
  | some sigBytes =>
    match cfg.algorithm with
    | .other _ => .error "invalid webhook signature: unsupported algorithm"
    | algorithm => if sigBytes = lib.mac algorithm cfg.secretKey payload then .ok () else .error "invalid webhook signature"
/-- `verifySignature` and `verifyCompositeSignature`; a part of a composite has no comma, so that they nest once. -/
def verifySignature (now : Int) : Nat → Bytes → Bytes → Except String Unit
  | 0, _, _ => .error "invalid webhook signature"
  | nested+1, payload, signature =>
    if signature = [] then .error "missing webhook signature"
    else
      let signature := trimPrefix signature cfg.signatureVersion
      if 0x2C ∈ signature then
        let (timestamp,sig) := compositeParts cfg signature
        if sig = [] then .error "invalid webhook signature: no signature found in composite signature"
        else match (if cfg.timestampHeader = "" ∧ timestamp ≠ [] then verifyTimestamp lib timestamp cfg.tolerance now else .ok ()) with
          | .error message => .error message
          | .ok _ => verifySignature now nested (if timestamp ≠ [] then timestamp ++ text "." ++ payload else payload) sig
      else verifyHex lib cfg payload signature

/-- What the middleware reads: the headers by their canonical names, and the body or the error of reading it. -/
structure Request where
  contentLength : Int
  headers : String → Bytes
  body : Except String Bytes

structure Rejection where
  status : Nat
  error : String
  deriving DecidableEq

def Request.header (r : Request) (name : String) : Bytes := r.headers (lib.canonical name)

def checkTimestamp (r : Request) (now : Int) : Except String Unit :=
  if cfg.requireTimestamp ∧ cfg.timestampHeader ≠ "" then
    if r.header lib cfg.timestampHeader = [] then .error "missing webhook timestamp"
    else verifyTimestamp lib (r.header lib cfg.timestampHeader) cfg.tolerance (now/second)
  else .ok ()
def checkEventID (cache : EventIDCache) (r : Request) (now : Int) : Except String Unit × EventIDCache :=
  if cfg.requireEventID ∧ cfg.eventIDHeader ≠ "" then
    if r.header lib cfg.eventIDHeader = [] then (.error "missing webhook event ID",cache)
    else if cfg.enableReplayProtection then
      match cache.checkAndStore fiveMinutes (r.header lib cfg.eventIDHeader) now with
      | (.error _,cache) => (.error "webhook replay attack detected",cache)
      | (.ok _,cache) => (.ok (),cache)
    else (.ok (),cache)
  else (.ok (),cache)
def checkRequest (r : Request) (now : Int) : Except Rejection Unit :=
  if r.contentLength > int64 cfg.maxBodySize then .error ⟨413,"webhook body too large"⟩
  else match r.body with
    | .error message => .error ⟨400,"failed to read request body: " ++ message⟩
    | .ok rawBody =>
      if r.header lib cfg.signatureHeader = [] then .error ⟨401,"missing webhook signature"⟩
      else match verifySignature lib cfg (now/second) 2 rawBody (r.header lib cfg.signatureHeader) with
        | .error message => .error ⟨401,message⟩
        | .ok _ => (checkTimestamp lib cfg r now).mapError (fun message => ⟨401,message⟩)
/-- The handler of `WebhookVerificationMiddleware`, for a request at an instant. -/
def verify (cache : EventIDCache) (r : Request) (now : Int) : Except Rejection Unit × EventIDCache :=
  match checkRequest lib cfg r now with
  | .error rejection => (.error rejection,cache)
  | .ok _ => ((checkEventID lib cfg cache r now).1.mapError (fun message => ⟨401,message⟩),(checkEventID lib cfg cache r now).2)
end

section
variable {lib : Library} {cfg : WebhookConfig} {cache : EventIDCache} {r : Request} {now : Int}

def Accepts (lib : Library) (cfg : WebhookConfig) (cache : EventIDCache) (r : Request) (now : Int) : Prop :=
  (verify lib cfg cache r now).1 = .ok ()

theorem verifyTimestamp_ok {timestamp : Bytes} {tolerance : Int} : verifyTimestamp lib timestamp tolerance now = .ok () ↔
    ∃ secs, parseUnixTimestamp lib timestamp = .ok secs ∧ int64 (now-tolerance) ≤ secs ∧ secs ≤ int64 (now+tolerance) := by
  unfold verifyTimestamp
  cases parseUnixTimestamp lib timestamp with
  | error message => simp
  | ok secs =>
    by_cases old : secs < int64 (now-tolerance)
    · simp [old,Int.not_le.mpr old]
    · by_cases new : secs > int64 (now+tolerance)
      · simp [old,new,Int.not_le.mpr new]
      · simp [old,new,Int.not_lt.mp old,Int.not_lt.mp new]
theorem mapError_ok {ε ε' : Type} {f : ε → ε'} {x : Except ε Unit} : x.mapError f = .ok () ↔ x = .ok () := by
  cases x <;> simp [Except.mapError]
theorem checkRequest_ok : checkRequest lib cfg r now = .ok () ↔ r.contentLength ≤ int64 cfg.maxBodySize ∧
      (∃ rawBody, r.body = .ok rawBody ∧ r.header lib cfg.signatureHeader ≠ [] ∧
        verifySignature lib cfg (now/second) 2 rawBody (r.header lib cfg.signatureHeader) = .ok ()) ∧
      checkTimestamp lib cfg r now = .ok () := by
  unfold checkRequest
  by_cases large : r.contentLength > int64 cfg.maxBodySize
  · have tooLong : ¬ r.contentLength ≤ int64 cfg.maxBodySize := Int.not_le.mpr large
    simp [large,tooLong]
  · rw [if_neg large]
    cases read : r.body with
    | error message => simp
    | ok rawBody =>
      by_cases unsigned : r.header lib cfg.signatureHeader = []
      · simp [unsigned]
      · cases verified : verifySignature lib cfg (now/second) 2 rawBody (r.header lib cfg.signatureHeader) with
        | error message => simp [unsigned,verified]
        | ok _ => simp [unsigned,verified,mapError_ok,Int.not_lt.mp large]
theorem accepts_iff : Accepts lib cfg cache r now ↔ checkRequest lib cfg r now = .ok () ∧ (checkEventID lib cfg cache r now).1 = .ok () := by
  unfold Accepts verify
  cases checkRequest lib cfg r now with
  | error rejection => simp
  | ok _ => simp [mapError_ok]

def signatureOf (lib : Library) (cfg : WebhookConfig) (payload : Bytes) : Bytes :=
  cfg.signatureVersion ++ hexEncode (lib.mac cfg.algorithm cfg.secretKey payload)

theorem hexEncode_comma (data : Bytes) : 0x2C ∉ hexEncode data := fun listed => absurd (hexEncode_digits data _ listed) (by decide)
theorem trimPrefix_append (front rest : Bytes) : trimPrefix (front ++ rest) front = rest := by
  simp [trimPrefix]
theorem verifySignature_signatureOf {nested : Nat} {payload : Bytes} (known : ∀ name, cfg.algorithm ≠ .other name)
    (present : signatureOf lib cfg payload ≠ []) :
    verifySignature lib cfg now (nested+1) payload (signatureOf lib cfg payload) = .ok () := by
  rw [verifySignature,if_neg present]
  simp only [signatureOf,trimPrefix_append,hexEncode_comma,↓reduceIte,verifyHex,hexDecode_encode]
end

def library (mac : Algorithm → Bytes → Bytes → Bytes) : Library := ⟨mac,id,fun _ => .error "",fun _ => ""⟩
def signedEvent (mac : Algorithm → Bytes → Bytes → Bytes) (cfg : WebhookConfig) (timestamp eventID body : String) : Request where
  contentLength := (text body).length
  headers name :=
    if name = cfg.signatureHeader then signatureOf (library mac) cfg (text body)
    else if name = cfg.timestampHeader then text timestamp
    else if name = cfg.eventIDHeader then text eventID
    else []
  body := .ok (text body)

def withSecret : WebhookConfig := { defaultWebhookConfig with secretKey := text "whsec_1" }

end Stellabill.WebhookVerification

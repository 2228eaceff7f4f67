import Stellabill.Json
import Stellabill.ByteStrings
import Stellabill.OutboxService
import Stellabill.Parsing

/-!
Sensitive events: how the service encrypts their data before it stores them, and
how `JWEPublisher` encrypts them again on the way to the subscriber. The cipher is
ideal: the holder of the subscriber's key gets back what was encrypted.
-/
namespace Stellabill.EventEncryption
open Json Transitions Uuid Outbox ByteStrings
open OutboxService (Payload)

/-- `EventData`; `data` is absent when the interface is nil. -/
structure EventData where
  type : String
  data : Option Value
  timestamp : Time
  id : String
  encrypted : Bool
  jwe : String
  keyID : String
  subscriberID : String

def EventData.toJson (codec : Codec) (e : EventData) : Value :=
  .obj ([("type",.str e.type)] ++ (e.data.map (fun data => ("data",data))).toList ++
    [("timestamp",.str (codec.formatTime e.timestamp)),("id",.str e.id)] ++
    (if e.encrypted then [("encrypted",.bool true)] else []) ++
    omitEmpty "jwe" e.jwe ++ omitEmpty "key_id" e.keyID ++ omitEmpty "subscriber_id" e.subscriberID)

def zeroTime : Time := -62135596800000000000
def boolMember (value : Value) (key : String) : Option Bool :=
  match value.get key with
  | none | some .null => some false
  | some (.bool b) => some b
  | some _ => none
def timeMember (codec : Codec) (value : Value) (key : String) : Option Time :=
  match value.get key with
  | none | some .null => some zeroTime
  | some (.str s) => codec.parseTime s
  | some _ => none
/-- What an `interface{}` holds after a value was read into it: null leaves it nil. -/
def nonNull : Value → Option Value
  | .null => none
  | value => some value
def EventData.ofJson (codec : Codec) (value : Value) : Option EventData :=
  match value with
  | .null | .obj _ => do
    let type ← stringMember value "type"
    let timestamp ← timeMember codec value "timestamp"
    let id ← stringMember value "id"
    let encrypted ← boolMember value "encrypted"
    let jwe ← stringMember value "jwe"
    let keyID ← stringMember value "key_id"
    let subscriberID ← stringMember value "subscriber_id"
    pure ⟨type,(value.get "data").bind nonNull,timestamp,id,encrypted,jwe,keyID,subscriberID⟩
  | _ => none
def unmarshal (codec : Codec) (text : String) : Option EventData := (codec.decode text).bind (EventData.ofJson codec)

/-- The `data` of a publish call: what `json.Marshal` makes of it (nothing for nil), and its text members if it is a map. -/
structure Data where
  encoding : Except String (Option Value)
  member : String → Option String
  encoded : ∀ value, encoding = .ok (some value) → ∀ key s, member key = some s → value.get key = some (.str s)

def Data.ofValue (value : Value) : Data := ⟨.ok (some value),fun _ => none,by simp⟩

inductive KeyStatus
  | active | revoked | expired
  deriving DecidableEq, Repr

/-- `SubscriberKey`; its private half is with the subscriber. -/
structure SubscriberKey where
  subscriberID : String
  keyID : String
  jwk : String
  status : KeyStatus
  expiresAt : Option Time
  createdAt : Time
  deriving DecidableEq

/-- `subscriber_keys`, and the error a query ends with. -/
structure KeyStore where
  keys : List SubscriberKey
  fault : Option String

/-- `GetActiveKey`: the newest usable key. -/
def KeyStore.getActiveKey (store : KeyStore) (subscriberID : String) (now : Time) : Except String SubscriberKey :=
  match store.fault with
  | some message => .error ("get active subscriber key: " ++ message)
  | none =>
    let usable := store.keys.filter (fun key =>
      key.subscriberID = subscriberID ∧ key.status = .active ∧ key.expiresAt.all (fun expires => now < expires))
    match (usable.insertionSort (fun a b => b.createdAt ≤ a.createdAt)).head? with
    | none => .error "missing subscriber encryption key"
    | some key => .ok key

structure Registry where
  types : List Bytes
def defaultSensitiveEventTypes : List String := ["webhook.received","payment.processed"]
def newSensitiveEventRegistry (eventTypes : List String) : Registry :=
  let eventTypes := if eventTypes.isEmpty then defaultSensitiveEventTypes else eventTypes
  ⟨eventTypes.map (fun t => trimSpace (text t))⟩
def Registry.isSensitive (registry : Registry) (eventType : String) : Bool := registry.types.contains (text eventType)

/-- An ideal cipher, for keys that are known by their public half; `random` is what it draws. -/
structure Encryption where
  encrypt : (jwk plaintext : String) → (random : Nat) → Except String String
  decrypt : (jwk compact : String) → Option String
  decrypt_encrypt : ∀ jwk plaintext random compact,
    encrypt jwk plaintext random = .ok compact → decrypt jwk compact = some plaintext
  encrypt_nonempty : ∀ jwk plaintext random compact, encrypt jwk plaintext random = .ok compact → compact ≠ ""

/-- A cipher that hides nothing behind a mark. -/
def marking : Encryption where
  encrypt _ plaintext _ := .ok ("." ++ plaintext)
  decrypt _ compact := some (String.ofList (compact.toList.drop 1))
  decrypt_encrypt := by
    rintro jwk plaintext random compact ⟨⟩
    simp
  encrypt_nonempty := by
    rintro jwk plaintext random compact ⟨⟩ empty
    simpa using congrArg String.length empty

/-- An error of the encryption; a `PermanentPublishError` is not tried again. -/
inductive Failure
  | permanent (message : String) | transient (message : String)

structure JWEConfig where
  enabled : Bool
  keys : Option KeyStore
  registry : Option Registry
def JWEConfig.sensitive (jwe : JWEConfig) : Registry := jwe.registry.getD (newSensitiveEventRegistry [])

/-- The arguments of `PublishEvent`, with the tenant of its context. -/
structure Call where
  eventType : String
  data : Data
  aggregateID : Option String
  aggregateType : Option String
  tenantID : Option String

structure Draws where
  id : UUID
  envelopeID : UUID
  now : Time
  random : Nat

section
variable (codec : Codec) (enc : Encryption)

def encrypt (payload : Except String Value) (jwk : String) (random : Nat) : Except String String :=
  match payload with
  | .error message => .error ("marshal payload: " ++ message)
  | .ok value => enc.encrypt jwk (codec.encode value) random

variable (eventType : String)
def envelope (draws : Draws) : EventData :=
  ⟨eventType,none,draws.now,String.ofList (string draws.envelopeID),false,"","",""⟩
def marshal (e : EventData) (data : Data) : Except String String :=
  data.encoding.map (fun value => codec.encode (({ e with data := value } : EventData).toJson codec))
/-- `mustMarshalEventData`; nil, here empty, when the data cannot be encoded. -/
def mustMarshalEventData (data : Data) (draws : Draws) : String :=
  (marshal codec (envelope eventType draws) data).toOption.getD ""
def Data.plaintext (data : Data) : Except String Value := data.encoding.map (fun value => value.getD .null)

def prepareEncryptedEventData (data : Data) (subscriberID : String) (keys : KeyStore)
    (sensitive : Registry) (draws : Draws) : Except Failure String :=
  let eventData := { envelope eventType draws with subscriberID }
  if ¬ sensitive.isSensitive eventType then (marshal codec eventData data).mapError .transient
  else if subscriberID = "" then .error (.permanent "missing subscriber id for sensitive event")
  else match keys.getActiveKey subscriberID draws.now with
    | .error message => .error (.permanent ("missing subscriber encryption key: " ++ message))
    | .ok key =>
      match encrypt codec enc data.plaintext key.jwk draws.random with
      | .error message => .error (.transient ("encrypt event data: " ++ message))
      | .ok compact =>
        .ok (codec.encode (({ eventData with encrypted := true, jwe := compact, keyID := key.keyID } : EventData).toJson codec))

/-- The subscriber `buildEvent` encrypts for. -/
def Call.subscriberID (call : Call) : String :=
  let named := fun key => (call.data.member key).filter (fun s => s ≠ "")
  match (named "subscriber_id").or (named "customer_id") with
  | some id => id
  | none => if call.aggregateType = some "subscriber" then call.aggregateID.getD "" else ""

variable (jwe : Option JWEConfig) (call : Call) (draws : Draws)
def payload : Payload :=
  match jwe.bind (fun jwe => if jwe.enabled then jwe.keys.map (fun keys => (jwe,keys)) else none) with
  | none => .plain (marshal codec (envelope call.eventType draws) call.data)
  | some (jwe,keys) =>
    match prepareEncryptedEventData codec enc call.eventType call.data call.subscriberID keys jwe.sensitive draws with
    | .ok text => .encrypted text
    | .error (.permanent message) => .permanent message (mustMarshalEventData codec call.eventType call.data draws)
    | .error (.transient message) => .refused message
def buildEvent : Except String Event :=
  OutboxService.buildEvent
    ⟨draws.id,draws.now,call.eventType,payload codec enc jwe call draws,call.aggregateID,call.aggregateType,call.tenantID⟩ none
/-- The row a call offers to the outbox; `event_data` must not be NULL. -/
def written : Option Event :=
  (buildEvent codec enc jwe call draws).toOption.filter (fun event => event.eventData ≠ "")

/-- Lower case, for the comparison with words of ASCII letters; U+017F folds to s and U+212A to k. -/
def foldRune (c : Char) : Char :=
  if c = '\u017f' then 's' else if c = '\u212a' then 'k' else c.toLower
/-- `strings.EqualFold`, with a word of ASCII letters. -/
def equalFold (s word : String) : Bool := s.toList.map foldRune = word.toList.map foldRune

def resolveSubscriberID (event : Event) : String :=
  match event.aggregateType, event.aggregateID with
  | some type, some id => if equalFold type "subscriber" ∧ id ≠ "" then id else fromData
  | _, _ => fromData
where
  fromData : String :=
    match unmarshal codec event.eventData with
    | none => ""
    | some e =>
      if e.subscriberID ≠ "" then e.subscriberID
      else
        let named := fun key =>
          match e.data.bind (Value.get key) with
          | some (.str s) => if s ≠ "" then some s else none
          | _ => none
        ((named "subscriber_id").or (named "customer_id")).getD ""

def nullable : Option String → Value
  | none => .null
  | some s => .str s
def message (event : Event) (data : Option Value) : List (String × Value) :=
  [("aggregate_id",nullable event.aggregateID),("aggregate_type",nullable event.aggregateType),("data",data.getD .null),
    ("id",.str (String.ofList (string event.id))),("occurred_at",.str (codec.formatTime event.occurredAt))]

/-- `JWEPublisher.Publish`: the event its inner publisher is handed. -/
def publish (sensitive : Registry) (keys : KeyStore) (now : Time) (random : Nat) (event : Event) : Except Failure Event :=
  if ¬ sensitive.isSensitive event.eventType then .ok event
  else
    let subscriberID := resolveSubscriberID codec event
    if subscriberID = "" then .error (.permanent "missing subscriber id for sensitive event")
    else match keys.getActiveKey subscriberID now with
      | .error message => .error (.permanent ("missing subscriber encryption key: " ++ message))
      | .ok key =>
        match unmarshal codec event.eventData with
        | none => .error (.transient "unmarshal event data")
        | some e =>
          let payload := message codec event e.data ++
            [("subscriber_id",.str subscriberID),("type",.str event.eventType),("version",.num event.version 0)]
          match encrypt codec enc (.ok (.obj payload)) key.jwk random with
          | .error message => .error (.transient ("encrypt sensitive payload: " ++ message))
          | .ok compact =>
            let sealed : EventData := ⟨event.eventType,none,e.timestamp,e.id,true,compact,key.keyID,subscriberID⟩
            .ok { event with eventData := codec.encode (sealed.toJson codec) }

structure Message where
  contentType : String
  body : String

def httpMessage (event : Event) : Except Failure Message :=
  match unmarshal codec event.eventData with
  | none => .error (.transient "failed to unmarshal event data")
  | some e =>
    if e.encrypted ∧ e.jwe ≠ "" then .ok ⟨"application/jose+json",e.jwe⟩
    else .ok ⟨"application/json",codec.encode (.obj (message codec event e.data ++
      [("type",.str event.eventType),("version",.num event.version 0)]))⟩
def deliver (sensitive : Registry) (keys : KeyStore) (now : Time) (random : Nat) (event : Event) : Except Failure Message :=
  (publish codec enc sensitive keys now random event).bind (httpMessage codec)

def receivedData (jwk : String) (message : Message) : Option Value :=
  ((enc.decrypt jwk message.body).bind codec.decode).bind (Value.get "data")
end

/-! ### Envelopes are read back -/

section
variable {codec : Codec} {enc : Encryption}

private theorem lookup_flag (key : String) (flag : Bool) :
    lookup key (if flag then [("encrypted",.bool true)] else []) = if "encrypted" = key ∧ flag then some (.bool true) else none := by
  cases flag
  · simp [lookup_nil]
  · simp [lookup_single]
private theorem lookup_data (key : String) (data : Option Value) :
    lookup key (data.map (fun data => ("data",data))).toList = if "data" = key then data else none := by
  cases data with
  | none => simp [lookup_nil]
  | some value => simp [lookup_single]

theorem get_toJson (e : EventData) (key : String) : (e.toJson codec).get key =
    (((((((if "type" = key then some (.str e.type) else none).or (if "data" = key then e.data else none)).or
      ((if "timestamp" = key then some (.str (codec.formatTime e.timestamp)) else none).or
        (if "id" = key then some (.str e.id) else none))).or
      (if "encrypted" = key ∧ e.encrypted then some (.bool true) else none)).or
      (if "jwe" = key ∧ e.jwe ≠ "" then some (.str e.jwe) else none)).or
      (if "key_id" = key ∧ e.keyID ≠ "" then some (.str e.keyID) else none)).or
      (if "subscriber_id" = key ∧ e.subscriberID ≠ "" then some (.str e.subscriberID) else none) : Option Value) := by
  have two : ∀ a b : String × Value, [a,b] = [a] ++ [b] := fun _ _ => rfl
  simp only [EventData.toJson,Value.get,two,lookup_append,lookup_single,lookup_omitEmpty,lookup_flag,lookup_data]
theorem unmarshal_toJson (e : EventData) : unmarshal codec (codec.encode (e.toJson codec)) =
    some { e with data := e.data.bind (fun data => nonNull (data.reread codec.float)) } := by
  have members : ∀ key, ((e.toJson codec).reread codec.float).get key = ((e.toJson codec).get key).map (Value.reread codec.float) :=
    fun key => get_reread codec.float key _
  obtain ⟨fields,same⟩ : ∃ fields, (e.toJson codec).reread codec.float = .obj fields := ⟨_,by rw [EventData.toJson,Value.reread]⟩
  simp only [same,get_toJson] at members
  have type : stringMember (.obj fields) "type" = some e.type := by simp [stringMember,members,Value.reread]
  have id : stringMember (.obj fields) "id" = some e.id := by simp [stringMember,members,Value.reread]
  have timestamp : timeMember codec (.obj fields) "timestamp" = some e.timestamp := by
    simp [timeMember,members,Value.reread,codec.parseTime_formatTime]
  have encrypted : boolMember (.obj fields) "encrypted" = some e.encrypted := by
    cases flag : e.encrypted <;> simp [boolMember,members,Value.reread,flag]
  have jwe : stringMember (.obj fields) "jwe" = some e.jwe := stringMember_omitEmpty (by
    by_cases empty : e.jwe = "" <;> simp [members,empty,Value.reread])
  have keyID : stringMember (.obj fields) "key_id" = some e.keyID := stringMember_omitEmpty (by
    by_cases empty : e.keyID = "" <;> simp [members,empty,Value.reread])
  have subscriberID : stringMember (.obj fields) "subscriber_id" = some e.subscriberID := stringMember_omitEmpty (by
    by_cases empty : e.subscriberID = "" <;> simp [members,empty,Value.reread])
  have data : ((Value.obj fields).get "data").bind nonNull = e.data.bind (fun data => nonNull (data.reread codec.float)) := by
    cases present : e.data <;> simp [members,present]
  rw [unmarshal,codec.decode_encode,Option.bind_some,same]
  simp only [EventData.ofJson,type,id,timestamp,encrypted,jwe,keyID,subscriberID,data]
  rfl

theorem get_data (e : EventData) : (e.toJson codec).get "data" = e.data := by simp [get_toJson]

/-- The call can be encrypted: there is a key store, a subscriber and a key for it. -/
def Protected (jwe : JWEConfig) (call : Call) (now : Time) : Prop :=
  ∃ keys ∈ jwe.keys, call.subscriberID ≠ "" ∧ (keys.getActiveKey call.subscriberID now).isOk = true
def sealed (call : Call) (draws : Draws) (key : SubscriberKey) (compact : String) : EventData :=
  { envelope call.eventType draws with
    encrypted := true, jwe := compact, keyID := key.keyID, subscriberID := call.subscriberID }
/-- Two texts of envelopes that differ in their ciphertexts at most. -/
def SameUpToCiphertext (codec : Codec) (a b : String) : Prop :=
  ∃ (e : EventData) (first second : String),
    a = codec.encode (({ e with jwe := first } : EventData).toJson codec) ∧
      b = codec.encode (({ e with jwe := second } : EventData).toJson codec)

variable {jwe : JWEConfig} {call : Call} {draws : Draws} {event : Event} {config : Option JWEConfig} {registry : Registry} {e : EventData}
  {delivery : Message}

theorem written_some (offered : written codec enc config call draws = some event) :
    buildEvent codec enc config call draws = .ok event ∧ event.eventData ≠ "" := by
  obtain ⟨built,nonempty⟩ := Option.filter_eq_some_iff.mp offered
  cases result : buildEvent codec enc config call draws with
  | error message => simp [result,Except.toOption] at built
  | ok other => simp_all [Except.toOption]

private theorem mustMarshalEventData_nonempty {eventType : String} {data : Data}
    (nonempty : mustMarshalEventData codec eventType data draws ≠ "") : ∃ value, data.encoding = .ok value ∧
      mustMarshalEventData codec eventType data draws =
        codec.encode (({ envelope eventType draws with data := value } : EventData).toJson codec) := by
  cases encoding : data.encoding with
  | error message => simp [mustMarshalEventData,marshal,encoding,Except.map,Except.toOption] at nonempty
  | ok value => exact ⟨value,rfl,by simp [mustMarshalEventData,marshal,encoding,Except.map,Except.toOption]⟩

section
variable (enabled : jwe.enabled = true) (sensitive : jwe.sensitive.isSensitive call.eventType = true)
include enabled sensitive

/-- The data of a sensitive event are stored sealed when they can be encrypted, else as they are. -/
theorem written_sensitive (offered : written codec enc (some jwe) call draws = some event) :
    (Protected jwe call draws.now ∧ ∃ keys ∈ jwe.keys, ∃ key compact,
      keys.getActiveKey call.subscriberID draws.now = .ok key ∧
      encrypt codec enc call.data.plaintext key.jwk draws.random = .ok compact ∧
      event.eventData = codec.encode ((sealed call draws key compact).toJson codec)) ∨
    (¬ Protected jwe call draws.now ∧ ∃ value, call.data.encoding = .ok value ∧
      event.eventData = codec.encode (({ envelope call.eventType draws with data := value } : EventData).toJson codec)) := by
  obtain ⟨built,nonempty⟩ := written_some offered
  unfold buildEvent payload at built
  cases store : jwe.keys with
  | none =>
    right
    refine ⟨by simp [Protected,store],?_⟩
    cases encoding : call.data.encoding with
    | error message => simp [enabled,store,marshal,encoding,OutboxService.buildEvent,Except.map] at built
    | ok value =>
      simp only [enabled,store,marshal,encoding,OutboxService.buildEvent,Except.map,Option.bind_some,if_true,Option.map_none,
        Except.ok.injEq] at built
      exact ⟨value,rfl,by rw [← built]; rfl⟩
  | some keys =>
    simp only [enabled,store,Option.bind_some,if_true,Option.map_some,prepareEncryptedEventData,sensitive,not_true,
      if_false] at built
    by_cases anonymous : call.subscriberID = ""
    · simp only [anonymous,if_true,OutboxService.buildEvent,Except.ok.injEq] at built
      rw [← built] at nonempty ⊢
      exact .inr ⟨by simp [Protected,anonymous],mustMarshalEventData_nonempty nonempty⟩
    · cases found : keys.getActiveKey call.subscriberID draws.now with
      | error message =>
        simp only [anonymous,if_false,found,OutboxService.buildEvent,Except.ok.injEq] at built
        rw [← built] at nonempty ⊢
        exact .inr ⟨by simp [Protected,store,found,Except.isOk,Except.toBool],mustMarshalEventData_nonempty nonempty⟩
      | ok key =>
        left
        cases encrypted : encrypt codec enc call.data.plaintext key.jwk draws.random with
        | error message => simp [anonymous,found,encrypted,OutboxService.buildEvent] at built
        | ok compact =>
          simp only [anonymous,if_false,found,encrypted,OutboxService.buildEvent,Except.ok.injEq] at built
          refine ⟨⟨keys,store,anonymous,by simp [found,Except.isOk,Except.toBool]⟩,keys,rfl,key,compact,found,encrypted,?_⟩
          rw [← built]
          rfl

variable {keys : KeyStore} {key : SubscriberKey} {now : Time} {random : Nat}

theorem written_of_key {compact : String} (store : jwe.keys = some keys) (named : call.subscriberID ≠ "") (found : keys.getActiveKey call.subscriberID draws.now = .ok key)
    (encrypted : encrypt codec enc call.data.plaintext key.jwk draws.random = .ok compact) :
    ∃ event, written codec enc (some jwe) call draws = some event ∧ event.aggregateID = call.aggregateID ∧
      event.aggregateType = call.aggregateType := by
  simp [written,buildEvent,payload,enabled,store,prepareEncryptedEventData,sensitive,named,found,encrypted,
    OutboxService.buildEvent,Except.toOption,newEventWithDeduplication,codec.encode_nonempty]
theorem written_of_no_key {message : String} {value : Option Value} (store : jwe.keys = some keys) (named : call.subscriberID ≠ "")
    (missing : keys.getActiveKey call.subscriberID draws.now = .error message) (encoded : call.data.encoding = .ok value) :
    ∃ event, written codec enc (some jwe) call draws = some event := by
  simp [written,buildEvent,payload,enabled,store,prepareEncryptedEventData,sensitive,named,missing,mustMarshalEventData,marshal,
    encoded,Except.map,OutboxService.buildEvent,Except.toOption,newEventWithDeduplication,codec.encode_nonempty]
end

theorem sameUpToCiphertext_plain_iff (e : EventData) (first second : Option Value) :
    SameUpToCiphertext codec (codec.encode (({ e with data := first } : EventData).toJson codec))
      (codec.encode (({ e with data := second } : EventData).toJson codec)) ↔ first = second := by
  constructor
  · rintro ⟨shared,one,two,same,same'⟩
    have data := congrArg (Value.get "data") (codec.encode_injective same)
    have data' := congrArg (Value.get "data") (codec.encode_injective same')
    rw [get_data,get_data] at data data'
    exact data.trans data'.symm
  · rintro rfl
    exact ⟨{ e with data := first },e.jwe,e.jwe,rfl,rfl⟩

/-- Calls that differ in their data alone store the same up to the ciphertext exactly when these can be encrypted or are
    encoded alike. -/
theorem stored_alike_iff (codec : Codec) (enc : Encryption) (jwe : JWEConfig) (enabled : jwe.enabled = true) (call : Call)
    (sensitive : jwe.sensitive.isSensitive call.eventType = true) (other : Data)
    (same : ({ call with data := other } : Call).subscriberID = call.subscriberID) (draws : Draws) (random : Nat)
    {event event' : Event} (first : written codec enc (some jwe) call draws = some event)
    (second : written codec enc (some jwe) { call with data := other } { draws with random := random } = some event') :
    SameUpToCiphertext codec event.eventData event'.eventData ↔
      Protected jwe call draws.now ∨ call.data.encoding = other.encoding := by
  have alike : Protected jwe { call with data := other } draws.now ↔ Protected jwe call draws.now := by
    unfold Protected
    rw [same]
  have sensitive' : jwe.sensitive.isSensitive ({ call with data := other } : Call).eventType = true := sensitive
  rcases written_sensitive enabled sensitive first with ⟨guarded,keys,stored,key,compact,found,_,text⟩ | ⟨bare,value,encoding,text⟩
  · rcases written_sensitive enabled sensitive' second with ⟨_,keys',stored',key',compact',found',_,text'⟩ | ⟨bare,_⟩
    · obtain rfl : keys = keys' := Option.some.inj (stored.symm.trans stored')
      rw [same] at found'
      obtain rfl : key = key' := Except.ok.inj (found.symm.trans found')
      refine iff_of_true ⟨sealed call draws key "",compact,compact',text,?_⟩ (.inl guarded)
      rw [text']
      simp only [sealed,same]
      rfl
    · exact absurd (alike.mpr guarded) bare
  · rcases written_sensitive enabled sensitive' second with ⟨guarded,_⟩ | ⟨_,value',encoding',text'⟩
    · exact absurd (alike.mp guarded) bare
    · rw [text,text',encoding,encoding']
      refine (sameUpToCiphertext_plain_iff (envelope call.eventType draws) value value').trans ?_
      simp [bare]

/-- A key, a configuration with the default registry, what is drawn, and a call of a subscriber. -/
def subscribersKey : SubscriberKey := ⟨"sub-1","key-1","jwk",.active,none,0⟩
def encrypting (keys : List SubscriberKey) : JWEConfig := ⟨true,some ⟨keys,none⟩,none⟩
def draw (random : Nat) : Draws := ⟨1,2,0,random⟩
def payment (data : Data) : Call := ⟨"payment.processed",data,some "sub-1",some "subscriber",none⟩

theorem payment_sensitive (keys : List SubscriberKey) (data : Data) :
    (encrypting keys).sensitive.isSensitive (payment data).eventType = true := by
  show (newSensitiveEventRegistry []).isSensitive "payment.processed" = true
  decide +kernel
theorem payment_subscriberID (value : Value) : (payment (.ofValue value)).subscriberID = "sub-1" := by
  simp [Call.subscriberID,payment,Data.ofValue]
theorem subscribersKey_found : (KeyStore.mk [subscribersKey] none).getActiveKey "sub-1" 0 = .ok subscribersKey := by rfl
theorem payment_written (codec : Codec) (value : Value) (random : Nat) :
    ∃ event, written codec marking (some (encrypting [subscribersKey])) (payment (.ofValue value)) (draw random) = some event ∧
      event.aggregateID = some "sub-1" ∧ event.aggregateType = some "subscriber" :=
  written_of_key rfl (payment_sensitive _ _) rfl (by simp [payment_subscriberID])
    subscribersKey_found rfl

theorem payment_protected (value : Value) : Protected (encrypting [subscribersKey]) (payment (.ofValue value)) (draw 0).now :=
  ⟨_,rfl,by simp [payment_subscriberID],by rfl⟩

theorem stored_alike_with_key :
    ∃ event event', written strokeCodec marking (some (encrypting [subscribersKey])) (payment (.ofValue (.str "a"))) (draw 0) = some event ∧
      written strokeCodec marking (some (encrypting [subscribersKey])) (payment (.ofValue (.str "b"))) (draw 7) = some event' ∧
        SameUpToCiphertext strokeCodec event.eventData event'.eventData := by
  obtain ⟨event,first,_⟩ := payment_written strokeCodec (.str "a") 0
  obtain ⟨event',second,_⟩ := payment_written strokeCodec (.str "b") 7
  refine ⟨event,event',first,second,?_⟩
  refine (stored_alike_iff strokeCodec marking (encrypting [subscribersKey]) rfl (payment (.ofValue (.str "a"))) (payment_sensitive _ _)
    (.ofValue (.str "b")) (by rw [payment_subscriberID]; exact payment_subscriberID _) (draw 0) 7 first second).mpr (.inl ?_)
  exact payment_protected _
/-- Without a key the data of an event are stored as they are. -/
theorem stored_plain :
    ¬ ∀ (codec : Codec) (enc : Encryption) (jwe : JWEConfig) (_ : jwe.enabled = true) (call : Call)
      (_ : jwe.sensitive.isSensitive call.eventType = true) (other : Data)
      (_ : ({ call with data := other } : Call).subscriberID = call.subscriberID) (draws : Draws) (random : Nat)
      (event event' : Event) (_ : written codec enc (some jwe) call draws = some event)
      (_ : written codec enc (some jwe) { call with data := other } { draws with random := random } = some event'),
      SameUpToCiphertext codec event.eventData event'.eventData := by
  intro claim
  have missing : ∀ value, (KeyStore.mk [] none).getActiveKey (payment (.ofValue value)).subscriberID (draw 0).now =
      .error "missing subscriber encryption key" := by
    intro value
    rfl
  have offers : ∀ value, ∃ event, written strokeCodec marking (some (encrypting [])) (payment (.ofValue value)) (draw 0) = some event :=
    fun value => written_of_no_key rfl (payment_sensitive _ _) rfl (by simp [payment_subscriberID]) (missing value) rfl
  obtain ⟨event,first⟩ := offers (.str "a")
  obtain ⟨event',second⟩ := offers (.str "b")
  have alike := claim strokeCodec marking (encrypting []) rfl (payment (.ofValue (.str "a"))) (payment_sensitive _ _)
    (.ofValue (.str "b")) (by rw [payment_subscriberID]; exact payment_subscriberID _) (draw 0) 0 event event' first second
  have bare : ∀ value, ¬ Protected (encrypting []) (payment (.ofValue value)) (draw 0).now := by
    rintro value ⟨keys,⟨⟩,_,found⟩
    cases found
  rcases written_sensitive rfl (payment_sensitive _ _) first with ⟨guarded,_⟩ | ⟨_,value,⟨⟩,text⟩
  · exact bare _ guarded
  · rcases written_sensitive rfl (payment_sensitive _ _) second with ⟨guarded,_⟩ | ⟨_,value',⟨⟩,text'⟩
    · exact bare _ guarded
    · rw [text,text'] at alike
      have same := (sameUpToCiphertext_plain_iff (envelope "payment.processed" (draw 0)) _ _).mp alike
      simp at same

/-! ### What is received -/

private theorem deliver_received (sensitive : registry.isSensitive event.eventType = true) (read : unmarshal codec event.eventData = some e)
    (found : keys.getActiveKey (resolveSubscriberID codec event) now = .ok key)
    (delivered : deliver codec enc registry keys now random event = .ok delivery) :
    receivedData codec enc key.jwk delivery = some ((e.data.getD .null).reread codec.float) := by
  obtain ⟨event',published,posted⟩ := Parsing.bind_ok.mp delivered
  simp only [publish,sensitive,not_true,if_false,found,read] at published
  split at published
  · cases published
  · split at published <;> cases published
    next compact encrypted =>
    simp only [httpMessage,unmarshal_toJson,Option.bind_none,enc.encrypt_nonempty _ _ _ _ encrypted,ne_eq,not_false_eq_true,
      and_self,if_true,Except.ok.injEq] at posted
    rw [← posted,receivedData,enc.decrypt_encrypt _ _ _ _ encrypted,Option.bind_some,codec.decode_encode,Option.bind_some,
      get_reread]
    simp [Value.get,message,lookup]

theorem fetched_eventType (stored : written codec enc config call draws = some event) :
    (scanEvent (inserted event)).eventType = call.eventType := by
  have built := (written_some stored).1
  unfold buildEvent OutboxService.buildEvent at built
  split at built <;> cases built <;> rfl
theorem deliver_of_key (sensitive : registry.isSensitive event.eventType = true) (read : unmarshal codec event.eventData = some e)
    (named : resolveSubscriberID codec event ≠ "") (found : keys.getActiveKey (resolveSubscriberID codec event) now = .ok key)
    (works : ∀ plaintext, ∃ compact, enc.encrypt key.jwk plaintext random = .ok compact) :
    ∃ delivery, deliver codec enc registry keys now random event = .ok delivery := by
  obtain ⟨compact,encrypted⟩ := works (codec.encode (.obj (message codec event e.data ++
    [("subscriber_id",.str (resolveSubscriberID codec event)),("type",.str event.eventType),("version",.num event.version 0)])))
  simp only [deliver,publish,sensitive,not_true,if_false,named,found,read,encrypt,encrypted,Except.bind,httpMessage,
    unmarshal_toJson,enc.encrypt_nonempty _ _ _ _ encrypted,ne_eq,not_false_eq_true,and_self,if_true]
  exact ⟨_,rfl⟩

section
variable (enabled : jwe.enabled = true) (sensitive : jwe.sensitive.isSensitive call.eventType = true) (registered : Protected jwe call draws.now)
  (stored : written codec enc (some jwe) call draws = some event)
include enabled sensitive registered stored
theorem stored_empty : ∃ e, unmarshal codec (scanEvent (inserted event)).eventData = some e ∧ e.data = none := by
  rcases written_sensitive enabled sensitive stored with ⟨_,_,_,key,compact,_,_,text⟩ | ⟨bare,_⟩
  · refine ⟨sealed call draws key compact,?_,rfl⟩
    show unmarshal codec event.eventData = _
    rw [text,unmarshal_toJson]
    rfl
  · exact absurd registered bare
theorem received_null (found : keys.getActiveKey (resolveSubscriberID codec (scanEvent (inserted event))) now = .ok key)
    (delivered : deliver codec enc jwe.sensitive keys now random (scanEvent (inserted event)) = .ok delivery) :
    receivedData codec enc key.jwk delivery = some .null := by
  obtain ⟨e,read,empty⟩ := stored_empty enabled sensitive registered stored
  rw [deliver_received (by rw [fetched_eventType stored]; exact sensitive) read found delivered,empty]
  simp [Value.reread]
end

/-- For a subscriber with a key, the decrypted message holds the published data exactly when these are null. -/
theorem decrypted_data_iff (codec : Codec) (enc : Encryption) (jwe : JWEConfig) (enabled : jwe.enabled = true) (call : Call)
    (sensitive : jwe.sensitive.isSensitive call.eventType = true) (draws : Draws) (registered : Protected jwe call draws.now)
    {event : Event} (stored : written codec enc (some jwe) call draws = some event) (keys : KeyStore) (now : Time) (random : Nat)
    {key : SubscriberKey} (found : keys.getActiveKey (resolveSubscriberID codec (scanEvent (inserted event))) now = .ok key)
    {delivery : Message} (delivered : deliver codec enc jwe.sensitive keys now random (scanEvent (inserted event)) = .ok delivery) :
    receivedData codec enc key.jwk delivery = call.data.plaintext.toOption ↔ call.data.plaintext = .ok .null := by
  rw [received_null enabled sensitive registered stored found delivered]
  cases call.data.plaintext <;> simp [Except.toOption,eq_comm]

theorem payment_delivered (codec : Codec) (value : Value) {event : Event}
    (stored : written codec marking (some (encrypting [subscribersKey])) (payment (.ofValue value)) (draw 0) = some event)
    (id : event.aggregateID = some "sub-1") (type : event.aggregateType = some "subscriber") :
    (KeyStore.mk [subscribersKey] none).getActiveKey (resolveSubscriberID codec (scanEvent (inserted event))) 0 = .ok subscribersKey ∧
      ∃ delivery, deliver codec marking (encrypting [subscribersKey]).sensitive ⟨[subscribersKey],none⟩ 0 0
        (scanEvent (inserted event)) = .ok delivery := by
  have subscriber : resolveSubscriberID codec (scanEvent (inserted event)) = "sub-1" := by
    have fold : equalFold "subscriber" "subscriber" = true := by decide +kernel
    simp [resolveSubscriberID,scanEvent,inserted,id,type,fold]
  obtain ⟨e,read,_⟩ := stored_empty rfl (payment_sensitive _ _) (payment_protected value) stored
  refine ⟨by rw [subscriber]; exact subscribersKey_found,?_⟩
  exact deliver_of_key (by rw [fetched_eventType stored]; exact payment_sensitive _ _) read (by simp [subscriber])
    (by rw [subscriber]; exact subscribersKey_found) (fun plaintext => ⟨_,rfl⟩)

theorem decrypted_data_null :
    ∃ event delivery, written strokeCodec marking (some (encrypting [subscribersKey])) (payment (.ofValue .null)) (draw 0) = some event ∧
      deliver strokeCodec marking (encrypting [subscribersKey]).sensitive ⟨[subscribersKey],none⟩ 0 0 (scanEvent (inserted event)) =
        .ok delivery ∧ receivedData strokeCodec marking "jwk" delivery = some .null := by
  obtain ⟨event,stored,id,type⟩ := payment_written strokeCodec .null 0
  obtain ⟨found,delivery,delivered⟩ := payment_delivered strokeCodec .null stored id type
  refine ⟨event,delivery,stored,delivered,?_⟩
  exact (decrypted_data_iff strokeCodec marking (encrypting [subscribersKey]) rfl (payment (.ofValue .null)) (payment_sensitive _ _)
    (draw 0) (payment_protected .null) stored ⟨[subscribersKey],none⟩ 0 0 found delivered).mpr rfl
/-- The data of an encrypted event do not reach the subscriber. -/
theorem decrypted_data_lost : ¬ ∀ (codec : Codec) (enc : Encryption) (jwe : JWEConfig) (_ : jwe.enabled = true) (call : Call)
      (_ : jwe.sensitive.isSensitive call.eventType = true) (draws : Draws) (_ : Protected jwe call draws.now)
      (event : Event) (_ : written codec enc (some jwe) call draws = some event) (keys : KeyStore) (now : Time) (random : Nat)
      (key : SubscriberKey) (_ : keys.getActiveKey (resolveSubscriberID codec (scanEvent (inserted event))) now = .ok key)
      (delivery : Message) (_ : deliver codec enc jwe.sensitive keys now random (scanEvent (inserted event)) = .ok delivery),
      receivedData codec enc key.jwk delivery = call.data.plaintext.toOption := by
  intro claim
  obtain ⟨event,stored,id,type⟩ := payment_written strokeCodec (.str "a") 0
  obtain ⟨found,delivery,delivered⟩ := payment_delivered strokeCodec (.str "a") stored id type
  have whole := claim strokeCodec marking (encrypting [subscribersKey]) rfl (payment (.ofValue (.str "a"))) (payment_sensitive _ _)
    (draw 0) (payment_protected _) event stored ⟨[subscribersKey],none⟩ 0 0 subscribersKey found delivery delivered
  have null := received_null rfl (payment_sensitive _ _) (payment_protected _) stored found delivered
  rw [null] at whole
  cases whole

end

end Stellabill.EventEncryption

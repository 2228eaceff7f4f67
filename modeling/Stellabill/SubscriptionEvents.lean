import Stellabill.Outbox
import Stellabill.Program

/-!
Live updates of subscriptions over WebSockets. A publisher of the outbox hands the
events of type SubscriptionStatusChanged to a hub, which passes them on to the
clients that asked for the subscription. In the model a client and a message carry the
tenant they come from, which no step looks at.
-/
namespace Stellabill.SubscriptionEvents
open Transitions Program List
open Outbox (Event newEventWithDeduplication)

structure SubscriptionEvent where
  subscriptionID : String
  status : String
  timestamp : String
  tenantID : String
  deriving DecidableEq

/-- An event in a channel, with the event of the outbox it was made from. -/
structure Message where
  event : SubscriptionEvent
  source : Event
  deriving DecidableEq

/-- A client: the tenant of its request, the subscription it asked for, its `Send` channel, whether the hub has it, and
    whether `writePump` runs. -/
structure WsClient where
  tenantID : String
  subscriptionID : String
  send : List Message
  registered : Bool
  writing : Bool
  deriving DecidableEq

structure Delivery where
  tenantID : String
  subscriptionID : String
  message : Message
  deriving DecidableEq

structure State where
  clients : List WsClient
  broadcast : List Message
  delivered : List Delivery
  deriving DecidableEq
def init : State := ⟨[],[],[]⟩

/-- The status in the JSON of an event, if that can be decoded, and `Format(time.RFC3339)`. -/
structure Encoding where
  statusOf : String → Option String
  format : Time → String

def wsEvent (enc : Encoding) (event : Event) : Option SubscriptionEvent :=
  if event.eventType ≠ "SubscriptionStatusChanged" then none
  else (enc.statusOf event.eventData).map (fun status => ⟨event.aggregateID.getD "",status,enc.format event.occurredAt,""⟩)
/-- A message goes to the clients of the subscription, and one whose buffer is full is dropped. -/
def receive (m : Message) (c : WsClient) : WsClient :=
  if c.registered ∧ c.subscriptionID = m.event.subscriptionID then
    if c.send.length < 256 then { c with send := c.send ++ [m] } else { c with registered := false }
  else c

inductive Action
  | connect (tenantID subscriptionID : String) (upgraded : Bool)
  | unregister (client : Nat)
  | publish (event : Event)
  | broadcast
  | write (client : Nat) (reply : Reply)
  | stop (client : Nat)
  deriving DecidableEq

def step (enc : Encoding) (s : State) : Action → Option State
  -- `GetSubscriptionEvents`.
  | .connect tenantID subscriptionID upgraded =>
    if subscriptionID = "" ∨ upgraded = false then some s
    else some { s with clients := s.clients ++ [⟨tenantID,subscriptionID,[],true,true⟩] }
  -- `readPump` has ended. The channel is closed; what is in it can still be written.
  | .unregister i => (s.clients[i]?).map (fun c => { s with clients := s.clients.set i { c with registered := false } })
  -- `Publish`, which gives up on a buffer that stays full.
  | .publish event =>
    match wsEvent enc event with
    | none => some s
    | some made => if s.broadcast.length < 100 then some { s with broadcast := s.broadcast ++ [⟨made,event⟩] } else some s
  | .broadcast =>
    match s.broadcast with
    | [] => none
    | m :: rest => some { s with clients := s.clients.map (receive m), broadcast := rest }
  -- A turn of `writePump`, which ends at an error.
  | .write i reply =>
    match s.clients[i]? with
    | none => none
    | some c =>
      if c.writing then
        match c.send with
        | [] => none
        | m :: rest => some { s with
          clients := s.clients.set i { c with send := rest, writing := reply.error.isNone }
          delivered := if reply.effective then s.delivered ++ [⟨c.tenantID,c.subscriptionID,m⟩] else s.delivered }
      else none
  | .stop i => (s.clients[i]?).map (fun c => { s with clients := s.clients.set i { c with writing := false } })

/-! ### What is delivered -/

section
variable (enc : Encoding) (clients : String → String → Prop) (events : Event → Prop)

/-- The inputs of a run: which tenants connect for which subscriptions, and which events are published. -/
def From (_ : State) : Action → Prop
  | .connect tenantID subscriptionID _ => clients tenantID subscriptionID
  | .publish event => events event
  | .unregister _ | .broadcast | .write .. | .stop _ => True
/-- `GetSubscriptionEvents` lets the tenant in. -/
def Connects (tenantID subscriptionID : String) : Prop := clients tenantID subscriptionID ∧ subscriptionID ≠ ""
/-- The message was made from one of the events. -/
def Made (m : Message) : Prop := events m.source ∧ wsEvent enc m.source = some m.event

/-- The subscription is all that a client and a message in its channel, or a delivery and its message, have in common. -/
structure Sound (s : State) : Prop where
  connected : ∀ c ∈ s.clients, Connects clients c.tenantID c.subscriptionID
  queued : ∀ m ∈ s.broadcast, Made enc events m
  sent : ∀ c ∈ s.clients, ∀ m ∈ c.send, Made enc events m ∧ m.event.subscriptionID = c.subscriptionID
  written : ∀ d ∈ s.delivered, Connects clients d.tenantID d.subscriptionID ∧ Made enc events d.message ∧
    d.message.event.subscriptionID = d.subscriptionID
end

section
variable {enc : Encoding} {clients : String → String → Prop} {events : Event → Prop} {s t : State} {a : Action}

theorem sound_init : Sound enc clients events init := ⟨by simp [init],by simp [init],by simp [init],by simp [init]⟩
/-- A client may change where it stands and lose messages. -/
theorem Sound.set (sound : Sound enc clients events s) {i : Nat} {c c' : WsClient} (at_i : s.clients[i]? = some c)
    (tenant : c'.tenantID = c.tenantID) (subscription : c'.subscriptionID = c.subscriptionID) (fewer : ∀ m ∈ c'.send, m ∈ c.send) :
    Sound enc clients events { s with clients := s.clients.set i c' } := by
  have known := mem_of_getElem? at_i
  refine ⟨?_,sound.queued,?_,sound.written⟩
  · intro d member
    obtain member | rfl := mem_or_eq_of_mem_set member
    · exact sound.connected d member
    · rw [tenant,subscription]
      exact sound.connected c known
  · intro d member m inside
    obtain member | rfl := mem_or_eq_of_mem_set member
    · exact sound.sent d member m inside
    · rw [subscription]
      exact sound.sent c known m (fewer m inside)
@[simp] theorem receive_tenantID (m : Message) (c : WsClient) : (receive m c).tenantID = c.tenantID := by
  rw [receive]
  split_ifs <;> rfl
@[simp] theorem receive_subscriptionID (m : Message) (c : WsClient) : (receive m c).subscriptionID = c.subscriptionID := by
  rw [receive]
  split_ifs <;> rfl
private theorem mem_receive {m m' : Message} {c : WsClient} (inside : m' ∈ (receive m c).send) :
    m' ∈ c.send ∨ (m' = m ∧ c.subscriptionID = m.event.subscriptionID) := by
  rw [receive] at inside
  split_ifs at inside with matching room
  · obtain inside | last := mem_append.mp inside
    · exact .inl inside
    · exact .inr ⟨mem_singleton.mp last,matching.2⟩
  · exact .inl inside
  · exact .inl inside
/-- The hub takes the first message of its queue. -/
theorem Sound.receive (sound : Sound enc clients events s) {m : Message} {rest : List Message} (queue : s.broadcast = m :: rest) :
    Sound enc clients events { s with clients := s.clients.map (receive m), broadcast := rest } := by
  have queued := queue ▸ sound.queued
  refine ⟨?_,fun m member => queued m (mem_cons_of_mem _ member),?_,sound.written⟩
  · intro _ member
    obtain ⟨c,known,rfl⟩ := mem_map.mp member
    simpa using sound.connected c known
  · intro _ member m' inside
    obtain ⟨c,known,rfl⟩ := mem_map.mp member
    rw [receive_subscriptionID]
    obtain inside | ⟨rfl,asked⟩ := mem_receive inside
    · exact sound.sent c known m' inside
    · exact ⟨queued m' mem_cons_self,asked.symm⟩
private theorem sound_step (sound : Sound enc clients events s) (given : From clients events s a) (stepped : step enc s a = some t) :
    Sound enc clients events t := by
  cases a with
  | connect tenantID subscriptionID upgraded =>
    simp only [step] at stepped
    split at stepped <;> cases stepped
    · exact sound
    · next asks =>
      have connects : Connects clients tenantID subscriptionID := ⟨given,fun empty => asks (.inl empty)⟩
      refine ⟨?_,sound.queued,?_,sound.written⟩
      · intro c member
        obtain member | new := mem_append.mp member
        · exact sound.connected c member
        · exact mem_singleton.mp new ▸ connects
      · intro c member m inside
        obtain member | new := mem_append.mp member
        · exact sound.sent c member m inside
        · rw [mem_singleton.mp new] at inside
          cases inside
  | unregister i | stop i =>
    obtain ⟨c,at_i,rfl⟩ := Option.map_eq_some_iff.mp stepped
    exact sound.set at_i rfl rfl (fun _ inside => inside)
  | publish event =>
    simp only [step] at stepped
    split at stepped
    · cases stepped
      exact sound
    · next made is =>
      split at stepped <;> cases stepped
      · refine ⟨sound.connected,?_,sound.sent,sound.written⟩
        intro m member
        obtain member | last := mem_append.mp member
        · exact sound.queued m member
        · exact mem_singleton.mp last ▸ ⟨given,is⟩
      · exact sound
  | broadcast =>
    simp only [step] at stepped
    split at stepped <;> cases stepped
    next queue => exact sound.receive queue
  | write i reply =>
    simp only [step] at stepped
    split at stepped
    · cases stepped
    · next c at_i =>
      split at stepped
      · split at stepped <;> cases stepped
        next m rest queue =>
        have known := mem_of_getElem? at_i
        have fewer : Sound enc clients events { s with clients := s.clients.set i { c with send := rest, writing := reply.error.isNone } } :=
          sound.set at_i rfl rfl (fun m inside => queue ▸ mem_cons_of_mem _ inside)
        obtain ⟨connected,queued,sent,written⟩ := fewer
        refine ⟨connected,queued,sent,?_⟩
        intro d member
        split at member
        · obtain member | last := mem_append.mp member
          · exact written d member
          · rw [mem_singleton.mp last]
            exact ⟨sound.connected c known,sound.sent c known m (queue ▸ mem_cons_self)⟩
        · exact written d member
      · cases stepped
theorem run_sound (run : Reach (step enc) (From clients events) init s) : Sound enc clients events s :=
  run.invariant sound_init sound_step
end

section
variable {enc : Encoding} {s : State}

/-- In every run: a client gets nothing but events of the subscription it asked for. -/
theorem delivered_asked (run : Reach (step enc) Any init s) :
    ∀ d ∈ s.delivered, d.message.source.eventType = "SubscriptionStatusChanged" ∧ d.message.source.aggregateID.getD "" = d.subscriptionID := by
  have free : Reach (step enc) (From (fun _ _ => True) (fun _ => True)) init s :=
    run.mono (fun _ a _ => by cases a <;> trivial)
  intro d member
  obtain ⟨_,⟨_,made⟩,same⟩ := (run_sound free).written d member
  rw [wsEvent] at made
  split at made
  · cases made
  · rename_i kind
    obtain ⟨status,_,is⟩ := Option.map_eq_some_iff.mp made
    exact ⟨not_not.mp kind,by rw [← same,← is]⟩
end

def Isolated (s : State) : Prop := ∀ d ∈ s.delivered, d.message.source.tenantID = d.tenantID
  deriving Decidable

/-- A tenant connects, an event is published for its subscription, and is written to its connection. -/
theorem reach_delivered {enc : Encoding} {clients : String → String → Prop} {events : Event → Prop} {tenantID : String} {event : Event}
    {made : SubscriptionEvent} (connects : Connects clients tenantID made.subscriptionID) (published : events event)
    (is : wsEvent enc event = some made) : ∃ s, Reach (step enc) (From clients events) init s ∧
      s.delivered = [⟨tenantID,made.subscriptionID,⟨made,event⟩⟩] := by
  let actions : List Action := [.connect tenantID made.subscriptionID true,.publish event,.broadcast,.write 0 .done]
  have ran : ∃ s, run (step enc) init actions = some s ∧ s.delivered = [⟨tenantID,made.subscriptionID,⟨made,event⟩⟩] := by
    simp [actions,run,step,init,connects.2,is,receive,Reply.effective]
  obtain ⟨s,reached,delivered⟩ := ran
  refine ⟨s,run_reach reached ?_,delivered⟩
  simp [actions,Along,step,From,init,connects.1,connects.2,published,is,receive]

/-- Runs with the given inputs keep tenants apart just when every event passed on has the tenant of every client that
    connects for its subscription. -/
theorem events_isolated_iff (enc : Encoding) (clients : String → String → Prop) (events : Event → Prop) :
    (∀ s, Reach (step enc) (From clients events) init s → Isolated s) ↔
      ∀ tenantID subscriptionID, clients tenantID subscriptionID → subscriptionID ≠ "" → ∀ event made, events event →
        wsEvent enc event = some made → made.subscriptionID = subscriptionID → event.tenantID = tenantID := by
  constructor
  · rintro isolated tenantID _ asks named event made published is rfl
    obtain ⟨s,run,delivered⟩ := reach_delivered ⟨asks,named⟩ published is
    exact isolated s run _ (delivered ▸ mem_singleton_self _)
  · intro owned s run d member
    obtain ⟨⟨asks,named⟩,⟨published,is⟩,same⟩ := (run_sound run).written d member
    exact owned d.tenantID d.subscriptionID asks named d.message.source d.message.event published is same

def raw : Encoding := ⟨some,fun _ => ""⟩
def activated (tenantID : String) : Event :=
  { newEventWithDeduplication 1 0 "SubscriptionStatusChanged" "active" (some "sub-1") none none with tenantID }
theorem delivered_asked_acme : ∃ s, Reach (step raw) Any init s ∧ s.delivered.length = 1 ∧
    ∀ d ∈ s.delivered, d.message.source.aggregateID.getD "" = d.subscriptionID :=
  reach_seen [.connect "acme" "sub-1" true,.publish (activated "acme"),.broadcast,.write 0 .done] (by decide +kernel)
    (along_any ..) (fun _ run _ d member => (delivered_asked run d member).2)
/-- A client of another tenant that asks for sub-1 gets the event of acme. -/
theorem event_crosses : ¬ ∀ (enc : Encoding) (s : State), Reach (step enc) Any init s → Isolated s := by
  intro isolated
  obtain ⟨s,ran,crossed⟩ := run_seen (step raw) init [.connect "globex" "sub-1" true,.publish (activated "acme"),.broadcast,.write 0 .done]
    (fun s => ¬ Isolated s) (by decide +kernel)
  exact crossed (isolated raw s (run_any ran))

end Stellabill.SubscriptionEvents

import Stellabill.Keyed
import Stellabill.Program

/-!
The repository of subscriptions that the billing reads: the operations that write
a subscription, and the query for those that are due.
-/
namespace Stellabill.Billing
open Keyed Transitions Program Table List

structure Subscription where
  id : String
  planID : String
  customerID : String
  merchantID : String
  status : String
  amount : String
  currency : String
  interval : String
  currentPeriodStart : Time
  currentPeriodEnd : Time
  cancelAtPeriodEnd : Bool
  canceledAt : Option Time
  endedAt : Option Time
  trialStart : Option Time
  trialEnd : Option Time
  createdAt : Time
  updatedAt : Time
  deriving DecidableEq, Repr

abbrev Rows := Table Subscription.id

/-- `Create`; `generated` is the new UUID. -/
def create (rows : Rows) (subscription : Subscription) (generated : String) (now : Time) (reply : Reply) : Option String × Rows :=
  let subscription := { subscription with
    id := if subscription.id = "" then generated else subscription.id, createdAt := now, updatedAt := now }
  if reply.effective then
    match rows.insert subscription with
    | none => (some "failed to create subscription: pq: duplicate key value violates unique constraint \"subscriptions_pkey\"",rows)
    | some rows' => (reply.error.map ("failed to create subscription: " ++ ·),rows')
  else (reply.error.map ("failed to create subscription: " ++ ·),rows)

/-- `UPDATE subscriptions SET ... WHERE id = ...`, which has to find a row. -/
def updateRow (rows : Rows) (id : String) (set : Subscription → Subscription) (keeps : ∀ s, (set s).id = s.id) (failure : String)
    (reply : Reply) : Option String × Rows :=
  if reply.effective then
    let rows' := rows.update (fun s => s.id = id) set keeps
    match reply.error with
    | some message => (some (failure ++ message),rows')
    | none => if (rows.find id).isNone then (some "subscription not found",rows') else (none,rows')
  else (reply.error.map (failure ++ ·),rows)

def update (rows : Rows) (subscription : Subscription) (now : Time) (reply : Reply) : Option String × Rows :=
  updateRow rows subscription.id (fun s => { s with
      status := subscription.status, currentPeriodStart := subscription.currentPeriodStart
      currentPeriodEnd := subscription.currentPeriodEnd, cancelAtPeriodEnd := subscription.cancelAtPeriodEnd
      canceledAt := subscription.canceledAt, endedAt := subscription.endedAt, trialStart := subscription.trialStart
      trialEnd := subscription.trialEnd, updatedAt := now })
    (fun _ => rfl) "failed to update subscription: " reply
def updateStatus (rows : Rows) (id status : String) (now : Time) (reply : Reply) : Option String × Rows :=
  updateRow rows id (fun s => { s with status := status, updatedAt := now }) (fun _ => rfl) "failed to update subscription status: " reply
/-- `Cancel`; the clock is read a second time for `updated_at`. -/
def cancel (rows : Rows) (id : String) (cancelAtPeriodEnd : Bool) (now later : Time) (reply : Reply) : Option String × Rows :=
  updateRow rows id (fun s => { s with cancelAtPeriodEnd := cancelAtPeriodEnd, canceledAt := some now, updatedAt := later })
    (fun _ => rfl) "failed to cancel subscription: " reply

/-- The subscription is to be billed. -/
def Due (now : Time) (s : Subscription) : Prop :=
  s.status ∈ ["active","trialing"] ∧ s.currentPeriodEnd ≤ now ∧ (s.cancelAtPeriodEnd = false ∨ s.canceledAt = none)
  deriving Decidable
/-- `GetSubscriptionsDueForBilling`; subscriptions whose periods end together keep their order. -/
def getSubscriptionsDueForBilling (rows : Rows) (now : Time) (limit : Int) (reply : Reply) : Except String (List Subscription) :=
  match reply.error with
  | some message => .error ("failed to get subscriptions due for billing: " ++ message)
  | none =>
    if limit < 0 then .error "failed to get subscriptions due for billing: pq: LIMIT must not be negative"
    else .ok (((rows.rows.filter (fun s => Due now s)).mergeSort (fun s t => s.currentPeriodEnd ≤ t.currentPeriodEnd)).take limit.toNat)

inductive Operation
  | create (subscription : Subscription) (generated : String)
  | update (subscription : Subscription)
  | updateStatus (id status : String)
  | cancel (id : String) (cancelAtPeriodEnd : Bool)
/-- An operation, the instants it reads, and how the database replies. -/
structure Call where
  op : Operation
  now : Time
  later : Time
  reply : Reply

def Call.run (c : Call) (rows : Rows) : Option String × Rows :=
  match c.op with
  | .create subscription generated => create rows subscription generated c.now c.reply
  | .update subscription => update rows subscription c.now c.reply
  | .updateStatus id status => updateStatus rows id status c.now c.reply
  | .cancel id cancelAtPeriodEnd => cancel rows id cancelAtPeriodEnd c.now c.later c.reply
def history (rows : Rows) (calls : List Call) : Rows := calls.foldl (fun rows c => (c.run rows).2) rows

def NoUpdate (id : String) (calls : List Call) : Prop := ∀ c ∈ calls, ∀ subscription, c.op = .update subscription → subscription.id ≠ id
/-- From the first call on the subscription is never due, at any later time and for any limit. -/
def NeverBilled (id : String) (rows : Rows) (first : Call) (calls : List Call) : Prop :=
  ∀ earlier rest, calls = earlier ++ rest → ∀ now, (∀ c ∈ first :: earlier, c.now ≤ now) → ∀ limit reply due,
    getSubscriptionsDueForBilling (history rows (first :: earlier)) now limit reply = .ok due → ∀ s ∈ due, s.id ≠ id

/-- The status that the calls leave, where it was `status` before. -/
def statusAfter (id : String) : String → List Call → String
  | status, [] => status
  | status, c :: rest => match c.op with
    | .updateStatus id' new => statusAfter id (if id' = id ∧ c.reply.effective then new else status) rest
    | _ => statusAfter id status rest
/-- Whether the last cancellation is one at the end of the period; `flag` says so for those before. -/
def endsWithPeriod (id : String) : Bool → List Call → Bool
  | flag, [] => flag
  | flag, c :: rest => match c.op with
    | .cancel id' new => endsWithPeriod id (if id' = id ∧ c.reply.effective then new else flag) rest
    | _ => endsWithPeriod id flag rest

section
variable {id : String} {rows rows' : Rows} {row : Subscription} {reply : Reply} {now : Time} {flag : Bool}

theorem updateRow_find {id' failure : String} {set : Subscription → Subscription} {keeps : ∀ s, (set s).id = s.id}
    (found : rows.find id = some row) :
    (updateRow rows id' set keeps failure reply).2.find id = some (if id' = id ∧ reply.effective then set row else row) := by
  have same := (rows.find_some.mp found).2
  have updated : (rows.update (fun s => s.id = id') set keeps).find id = some (if id' = id then set row else row) := by
    rw [find_update,found]
    by_cases its : id' = id
    · simp [same,its]
    · simp [same,its,Ne.symm its]
  unfold updateRow
  cases effective : reply.effective with
  | false => simpa [effective] using found
  | true =>
    simp only [if_true,and_true]
    split
    · exact updated
    · split <;> exact updated
private theorem create_find {subscription : Subscription} {generated : String} (found : rows.find id = some row) :
    (create rows subscription generated now reply).2.find id = some row := by
  obtain ⟨member,same⟩ := rows.find_some.mp found
  simp only [create]
  split
  · split
    · exact found
    · next inserted => exact find_some _ |>.mpr ⟨((insert_some inserted).2 row).mpr (.inl member),same⟩
  · exact found

/-- A subscription with a date of cancellation, its status and whether it ends with its period. -/
structure Cancelled (id : String) (rows : Rows) (status : String) (flag : Bool) : Prop where
  row : ∃ row, rows.find id = some row ∧ row.status = status ∧ row.cancelAtPeriodEnd = flag ∧ row.canceledAt ≠ none

variable {status : String} {calls : List Call} {s : Subscription}

private theorem cancelled_run {c : Call} (cancelled : Cancelled id rows status flag)
    (other : ∀ subscription, c.op = .update subscription → subscription.id ≠ id) :
    Cancelled id (c.run rows).2 (statusAfter id status [c]) (endsWithPeriod id flag [c]) := by
  obtain ⟨row,found,rfl,rfl,dated⟩ := cancelled.row
  obtain ⟨op,now,later,reply⟩ := c
  cases op with
  | create subscription generated => exact ⟨row,create_find found,rfl,rfl,dated⟩
  | update subscription =>
    refine ⟨_,updateRow_find found,?_,?_,?_⟩ <;> rw [if_neg (fun both => other subscription rfl both.1)]
    · rfl
    · rfl
    · exact dated
  | updateStatus id' new =>
    refine ⟨_,updateRow_find found,?_,?_,?_⟩
    · simp only [statusAfter]
      split <;> rfl
    · split <;> rfl
    · split <;> exact dated
  | cancel id' new =>
    refine ⟨_,updateRow_find found,?_,?_,?_⟩
    · split <;> rfl
    · simp only [endsWithPeriod]
      split <;> rfl
    · split
      · exact nofun
      · exact dated
private theorem statusAfter_cons (c : Call) (rest : List Call) :
    statusAfter id status (c :: rest) = statusAfter id (statusAfter id status [c]) rest := by
  simp only [statusAfter]
  split <;> rfl
theorem endsWithPeriod_cons (c : Call) (rest : List Call) :
    endsWithPeriod id flag (c :: rest) = endsWithPeriod id (endsWithPeriod id flag [c]) rest := by
  simp only [endsWithPeriod]
  split <;> rfl
theorem cancelled_history (cancelled : Cancelled id rows status flag) (noUpdate : NoUpdate id calls) :
    Cancelled id (history rows calls) (statusAfter id status calls) (endsWithPeriod id flag calls) := by
  induction calls generalizing rows status flag with
  | nil => exact cancelled
  | cons c rest ih =>
    obtain ⟨first,others⟩ := forall_mem_cons.mp noUpdate
    rw [statusAfter_cons,endsWithPeriod_cons]
    exact ih (cancelled_run cancelled first) others

/-! ### When it is due -/

theorem due_member {limit : Int} {due : List Subscription} (listed : getSubscriptionsDueForBilling rows now limit reply = .ok due)
    (member : s ∈ due) : s ∈ rows ∧ Due now s := by
  unfold getSubscriptionsDueForBilling at listed
  split at listed
  · cases listed
  · split at listed <;> cases listed
    have selected := mem_mergeSort.mp (mem_of_mem_take member)
    simpa [mem_def] using mem_filter.mp selected
theorem listed_due (member : s ∈ rows) (is_due : Due now s) :
    ∃ limit due, getSubscriptionsDueForBilling rows now limit .done = .ok due ∧ s ∈ due := by
  let selected := (rows.rows.filter (fun s => Due now s)).mergeSort (fun s t => s.currentPeriodEnd ≤ t.currentPeriodEnd)
  refine ⟨rows.rows.length,selected.take rows.rows.length,?_,?_⟩
  · rfl
  · have few : selected.length ≤ rows.rows.length := by
      rw [length_mergeSort]
      exact length_filter_le ..
    rw [take_of_length_le few]
    exact mem_mergeSort.mpr (mem_filter.mpr ⟨member,decide_eq_true is_due⟩)
theorem later_time (calls : List Call) (ending : Time) : ∃ now, ending ≤ now ∧ ∀ c ∈ calls, c.now ≤ now := by
  induction calls with
  | nil => exact ⟨ending,Int.le_refl _,by simp⟩
  | cons c rest ih =>
    obtain ⟨now,after,all⟩ := ih
    refine ⟨max c.now now,Int.le_trans after (Int.le_max_right ..),forall_mem_cons.mpr ⟨Int.le_max_left ..,fun d member => ?_⟩⟩
    exact Int.le_trans (all d member) (Int.le_max_right ..)
/-- A cancellation at the end of the period stays one until the subscription is cancelled at once. -/
theorem endsWithPeriod_kept (atEnd : ∀ c ∈ calls, c.op ≠ .cancel id false) : endsWithPeriod id true calls = true := by
  induction calls with
  | nil => rfl
  | cons c rest ih =>
    obtain ⟨first,others⟩ := forall_mem_cons.mp atEnd
    have kept : endsWithPeriod id true [c] = true := by
      simp only [endsWithPeriod]
      split
      · next id' new cancels =>
        cases new with
        | true => simp
        | false =>
          have other : id' ≠ id := fun same => first (same ▸ cancels)
          simp [other]
      · rfl
    rw [endsWithPeriod_cons,kept]
    exact ih others
theorem cancel_cancelled {later : Time} (found : rows.find id = some row) (succeeded : (cancel rows id flag now later reply).1 = none) :
    Cancelled id (cancel rows id flag now later reply).2 row.status flag := by
  have effective : reply.effective = true := by
    by_contra ineffective
    simp only [cancel,updateRow,if_neg ineffective,Option.map_eq_none_iff] at succeeded
    exact ineffective (Reply.effective_of_error succeeded)
  refine ⟨_,updateRow_find found,?_⟩
  rw [if_pos ⟨rfl,effective⟩]
  exact ⟨rfl,rfl,Option.some_ne_none now⟩

/-- A cancelled subscription is never billed exactly when its last cancellation is always one at the end of the period
    or its status is not billed. -/
theorem never_billed_iff (id : String) (rows : Rows) (row : Subscription) (found : rows.find id = some row) (flag : Bool)
    (now later : Time) (reply : Reply) (succeeded : (cancel rows id flag now later reply).1 = none) (calls : List Call)
    (noUpdate : NoUpdate id calls) : NeverBilled id rows ⟨.cancel id flag,now,later,reply⟩ calls ↔
      ∀ earlier rest, calls = earlier ++ rest →
        endsWithPeriod id flag earlier = true ∨ statusAfter id row.status earlier ∉ ["active","trialing"] := by
  have moment : ∀ earlier rest, calls = earlier ++ rest →
      Cancelled id (history rows (⟨.cancel id flag,now,later,reply⟩ :: earlier)) (statusAfter id row.status earlier) (endsWithPeriod id flag earlier) := by
    rintro earlier rest rfl
    exact cancelled_history (cancel_cancelled found succeeded) (fun c member => noUpdate c (mem_append_left _ member))
  constructor
  · intro never earlier rest split
    obtain ⟨row',found',status,ends,_⟩ := (moment earlier rest split).row
    obtain ⟨member,same⟩ := (find_some _).mp found'
    by_contra billed
    obtain ⟨immediate,active⟩ := not_or.mp billed
    obtain ⟨time,after,all⟩ := later_time (⟨.cancel id flag,now,later,reply⟩ :: earlier) row'.currentPeriodEnd
    have is_due : Due time row' := by
      refine ⟨?_,after,.inl ?_⟩
      · rw [status]
        exact not_not.mp active
      · rw [ends]
        exact Bool.eq_false_iff.mpr immediate
    obtain ⟨limit,due,listed,inside⟩ := listed_due member is_due
    exact never earlier rest split time all limit .done due listed row' inside same
  · intro condition earlier rest split time _ limit reply' due listed s inside same
    obtain ⟨row',found',status,ends,dated⟩ := (moment earlier rest split).row
    obtain ⟨member,active,_,open_⟩ := due_member listed inside
    obtain rfl : s = row' := by
      have its := (find_some _).mpr ⟨member,same⟩
      exact Option.some.inj (its.symm.trans found')
    obtain atEnd | inactive := condition earlier rest split
    · obtain immediate | undated := open_
      · rw [ends,atEnd] at immediate
        cases immediate
      · exact dated undated
    · rw [status] at active
      exact inactive active
end

def gold : Subscription :=
  ⟨"sub-1","plan-1","ann","acme","active","10","USD","month",0,100,false,none,none,none,none,0,0⟩
private theorem gold_unique : ([gold].map Subscription.id).Nodup := nodup_singleton ..
def goldRows : Rows := ⟨[gold],gold_unique⟩

/-- Cancelled at the end of the period and then paused and resumed, it is not billed. -/
theorem never_billed_iff_resumed : NeverBilled "sub-1" goldRows ⟨.cancel "sub-1" true,50,50,.done⟩
    [⟨.updateStatus "sub-1" "paused",60,60,.done⟩,⟨.updateStatus "sub-1" "active",70,70,.done⟩] := by
  refine (never_billed_iff "sub-1" goldRows gold (by decide) true 50 50 .done (by decide) _ (by simp [NoUpdate])).mpr ?_
  intro earlier rest split
  have atEnd : ∀ c ∈ earlier ++ rest, c.op ≠ .cancel "sub-1" false := by
    rw [← split]
    simp
  exact .inl (endsWithPeriod_kept (fun c member => atEnd c (mem_append_left _ member)))
theorem cancelled_billed : ¬ ∀ (id : String) (rows : Rows) (flag : Bool) (now later : Time) (reply : Reply),
    (cancel rows id flag now later reply).1 = none → ∀ calls, NoUpdate id calls →
    NeverBilled id rows ⟨.cancel id flag,now,later,reply⟩ calls := by
  intro never
  have member : { gold with canceledAt := some 50, updatedAt := 50 } ∈ history goldRows [⟨.cancel "sub-1" false,50,50,.done⟩] :=
    mem_cons_self
  obtain ⟨limit,due,listed,inside⟩ := listed_due member (by decide : Due 100 { gold with canceledAt := some 50, updatedAt := 50 })
  exact never "sub-1" goldRows false 50 50 .done (by decide) [] (by simp [NoUpdate]) [] [] rfl 100 (by simp) limit .done due listed _ inside rfl

end Stellabill.Billing

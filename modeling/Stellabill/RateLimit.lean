import Stellabill.Calendar

/-!
The token bucket of the rate limiter. A request first credits the tokens of the time since
the last credit, rounded down, and then takes one; where nothing is credited the time goes
on counting from the same instant. Instants are in nanoseconds.
-/
namespace Stellabill.RateLimit
open Transitions Calendar

structure TokenBucket where
  capacity : Int
  tokens : Int
  refillRate : Int
  lastRefill : Int
  burstCapacity : Int
  deriving DecidableEq

/-- The conversion of a number to an `int64`, which is exact where the number fits. -/
structure Conversion where
  toInt64 : Int → Int
  exact : ∀ n, Int64 n → toInt64 n = n

def newTokenBucket (capacity refillRate burstCapacity : Int) (now : Int) : TokenBucket where
  capacity := capacity
  tokens := burstCapacity
  refillRate := refillRate
  lastRefill := now
  burstCapacity := burstCapacity

/-- The elapsed time times the rate, without its fraction. -/
def TokenBucket.earned (tb : TokenBucket) (now : Int) : Int := (since now tb.lastRefill * tb.refillRate).tdiv second

section
variable (conv : Conversion)

def refill (tb : TokenBucket) (now : Int) : TokenBucket :=
  let tokensToAdd := conv.toInt64 (tb.earned now)
  if tokensToAdd > 0 then
    let tokens := int64 (tb.tokens+tokensToAdd)
    { tb with tokens := if tokens > tb.burstCapacity then tb.burstCapacity else tokens, lastRefill := now }
  else tb
def allowRequest (tb : TokenBucket) (now : Int) : Bool × TokenBucket :=
  let tb := refill conv tb now
  if tb.tokens ≥ 1 then (true,{ tb with tokens := tb.tokens-1 }) else (false,tb)

/-- The bucket, the time of the last request, and the requests so far with their outcomes. -/
structure State where
  bucket : TokenBucket
  now : Int
  served : List (Int × Bool)

def start (capacity refillRate burstCapacity : Int) (now : Int) : State :=
  ⟨newTokenBucket capacity refillRate burstCapacity now,now,[]⟩
def step (s : State) (now : Int) : Option State :=
  if s.now ≤ now then
    let (allowed,bucket) := allowRequest conv s.bucket now
    some ⟨bucket,now,(now,allowed) :: s.served⟩
  else none
end

def allowedIn (first last : Int) (served : List (Int × Bool)) : Nat :=
  served.countP (fun request => request.2 ∧ first ≤ request.1 ∧ request.1 ≤ last)
/-- The tokens with what is earned fit 64 bits. -/
def Fits (s : State) (now : Int) : Prop := s.bucket.tokens+s.bucket.earned now < 9223372036854775808
  deriving Decidable

section
variable {conv : Conversion} {tb : TokenBucket} {now first last : Int} {rate burst : Int} {s t : State}

section
variable (positive : 1 ≤ tb.refillRate) (ordered : tb.lastRefill ≤ now)
include positive ordered
theorem earned_le : 0 ≤ tb.earned now ∧ second*tb.earned now ≤ tb.refillRate*(now-tb.lastRefill) := by
  have elapsed := since_nonneg ordered
  have product : 0 ≤ since now tb.lastRefill*tb.refillRate := Int.mul_nonneg elapsed (by omega)
  have below : since now tb.lastRefill*tb.refillRate ≤ (now-tb.lastRefill)*tb.refillRate :=
    Int.mul_le_mul_of_nonneg_right (since_le ordered) (by omega)
  rw [TokenBucket.earned,Int.tdiv_eq_ediv_of_nonneg product,Int.mul_comm tb.refillRate]
  unfold second
  exact ⟨by omega,by omega⟩
theorem earned_zero (none : tb.earned now ≤ 0) : tb.refillRate*(now-tb.lastRefill) < second := by
  have elapsed := since_nonneg ordered
  have product : 0 ≤ since now tb.lastRefill*tb.refillRate := Int.mul_nonneg elapsed (by omega)
  rw [TokenBucket.earned,Int.tdiv_eq_ediv_of_nonneg product] at none
  have less : since now tb.lastRefill*tb.refillRate < second := by
    unfold second at none ⊢
    omega
  have short : since now tb.lastRefill ≤ since now tb.lastRefill*tb.refillRate := by
    simpa using Int.mul_le_mul_of_nonneg_left positive elapsed
  rw [since_eq ordered (by unfold second at less; omega)] at less
  rwa [Int.mul_comm]

theorem refill_cases (conv : Conversion) (nonneg : 0 ≤ tb.tokens) (fits : tb.tokens+tb.earned now < 9223372036854775808) :
    (tb.earned now ≤ 0 ∧ refill conv tb now = tb) ∨
      (0 < tb.earned now ∧
        refill conv tb now = { tb with tokens := min (tb.tokens+tb.earned now) tb.burstCapacity, lastRefill := now }) := by
  have earned := (earned_le positive ordered).1
  have converted : conv.toInt64 (tb.earned now) = tb.earned now := conv.exact _ ⟨by omega,by omega⟩
  rw [refill,converted]
  by_cases credited : tb.earned now > 0
  · refine .inr ⟨credited,?_⟩
    have added : int64 (tb.tokens+tb.earned now) = tb.tokens+tb.earned now := int64_of_fits ⟨by omega,by omega⟩
    simp only [if_pos credited,added]
    congr 1
    split <;> omega
  · exact .inl ⟨by omega,if_neg credited⟩
end

theorem allowRequest_eq (conv : Conversion) (tb : TokenBucket) (now : Int) :
    ∃ allowed : Bool, (allowed = true ↔ 1 ≤ (refill conv tb now).tokens) ∧
      allowRequest conv tb now = (allowed,{ refill conv tb now with tokens := (refill conv tb now).tokens-allowed.toNat }) := by
  unfold allowRequest
  by_cases enough : (refill conv tb now).tokens ≥ 1
  · exact ⟨true,by simpa using enough,by simp [enough]⟩
  · exact ⟨false,by simpa using enough,by simp [enough]⟩

/-- The bucket is neither overdrawn nor overfull. -/
structure Filled (rate burst : Int) (s : State) : Prop where
  sameRate : s.bucket.refillRate = rate
  sameBurst : s.bucket.burstCapacity = burst
  nonneg : 0 ≤ s.bucket.tokens
  full : s.bucket.tokens ≤ burst
  ordered : s.bucket.lastRefill ≤ s.now
  served : ∀ request ∈ s.served, request.1 ≤ s.now

theorem filled_start (capacity : Int) (nonneg : 0 ≤ burst) (now : Int) : Filled rate burst (start capacity rate burst now) :=
  ⟨rfl,rfl,nonneg,Int.le_refl _,Int.le_refl _,by simp [start]⟩

/-- What a request does to the bucket: without a credit the last one was recent, and a credit is cut at the burst. -/
structure Request (s : State) (now : Int) (allowed : Bool) (t : State) : Prop where
  later : s.now ≤ now
  clock : t.now = now
  served : t.served = (now,allowed) :: s.served
  sameRate : t.bucket.refillRate = s.bucket.refillRate
  sameBurst : t.bucket.burstCapacity = s.bucket.burstCapacity
  nonneg : 0 ≤ t.bucket.tokens
  credit :
    (t.bucket.tokens+allowed.toNat = s.bucket.tokens ∧ t.bucket.lastRefill = s.bucket.lastRefill ∧
      s.bucket.refillRate*(now-s.bucket.lastRefill) < second) ∨
    (t.bucket.tokens+allowed.toNat = min (s.bucket.tokens+s.bucket.earned now) s.bucket.burstCapacity ∧ t.bucket.lastRefill = now)

theorem step_request (positive : 1 ≤ rate) (filled : Filled rate burst s) (fits : Fits s now) (stepped : step conv s now = some t) :
    ∃ allowed, Request s now allowed t := by
  unfold step at stepped
  split at stepped
  · next later =>
    obtain ⟨allowed,enough,taken⟩ := allowRequest_eq conv s.bucket now
    simp only [taken,Option.some.injEq] at stepped
    subst stepped
    have ordered : s.bucket.lastRefill ≤ now := Int.le_trans filled.ordered later
    have positive : 1 ≤ s.bucket.refillRate := filled.sameRate ▸ positive
    have sameBurst := filled.sameBurst
    have full := filled.full
    have nonneg := filled.nonneg
    obtain ⟨none,kept⟩ | ⟨_,credited⟩ := refill_cases positive ordered conv nonneg fits
    · rw [kept] at enough ⊢
      refine ⟨allowed,later,rfl,rfl,rfl,rfl,?_,.inl ⟨by simp,rfl,earned_zero positive ordered none⟩⟩
      cases allowed <;> simp at enough ⊢ <;> omega
    · rw [credited] at enough ⊢
      refine ⟨allowed,later,rfl,rfl,rfl,rfl,?_,.inr ⟨by simp,rfl⟩⟩
      cases allowed <;> simp at enough ⊢ <;> omega
  · cases stepped

theorem filled_step (filled : Filled rate burst s) {allowed : Bool} (request : Request s now allowed t) : Filled rate burst t := by
  obtain ⟨later,clock,served,sameRate,sameBurst,nonneg,credit⟩ := request
  have full := filled.full
  have ordered := filled.ordered
  have burst := filled.sameBurst
  refine ⟨sameRate.trans filled.sameRate,sameBurst.trans filled.sameBurst,nonneg,?_,?_,?_⟩
  · obtain ⟨tokens,_⟩ | ⟨tokens,_⟩ := credit <;> omega
  · obtain ⟨_,same,_⟩ | ⟨_,same⟩ := credit
    · rw [same,clock]
      exact Int.le_trans ordered later
    · rw [same,clock]
  · rw [served,clock]
    intro r listed
    obtain rfl | listed := List.mem_cons.mp listed
    · exact Int.le_refl _
    · exact Int.le_trans (filled.served r listed) later

/-! ### A window of time -/

private theorem allowedIn_cons (first last now : Int) (allowed : Bool) (served : List (Int × Bool)) :
    allowedIn first last ((now,allowed) :: served) =
      allowedIn first last served+(if first ≤ now ∧ now ≤ last then allowed.toNat else 0) := by
  unfold allowedIn
  cases allowed <;> by_cases inside : first ≤ now ∧ now ≤ last <;> simp [inside]
theorem allowedIn_before {served : List (Int × Bool)} (before : ∀ request ∈ served, request.1 < first) : allowedIn first last served = 0 := by
  refine List.countP_eq_zero.mpr fun request listed => ?_
  have early := before request listed
  simp only [decide_eq_true_eq,not_and]
  omega

/-- Once a request of the window is allowed: the bound, and until the window ends the allowed and the left together. -/
def Bounded (rate burst : Int) (first last : Int) (s : State) : Prop :=
  allowedIn first last s.served = 0 ∨
    second*allowedIn first last s.served ≤ second*burst+rate*(last-first)+second ∧
    (s.now ≤ last → second*(allowedIn first last s.served+s.bucket.tokens) ≤ second*burst+rate*(s.bucket.lastRefill-first)+second)

theorem bounded_of_total (positive : 1 ≤ rate) (nonneg : 0 ≤ s.bucket.tokens) (within : s.bucket.lastRefill ≤ last)
    (total : second*(allowedIn first last s.served+s.bucket.tokens) ≤ second*burst+rate*(s.bucket.lastRefill-first)+second) :
    Bounded rate burst first last s := by
  refine .inr ⟨?_,fun _ => total⟩
  have spent : 0 ≤ second*s.bucket.tokens := Int.mul_nonneg (by decide) nonneg
  have longer : rate*(s.bucket.lastRefill-first) ≤ rate*(last-first) := Int.mul_le_mul_of_nonneg_left (by omega) (by omega)
  rw [Int.mul_add] at total
  omega
theorem bounded_step (positive : 1 ≤ rate) (filled : Filled rate burst s) {allowed : Bool} (request : Request s now allowed t)
    (bounded : Bounded rate burst first last s) : Bounded rate burst first last t := by
  have kept := filled_step filled request
  obtain ⟨later,clock,served,_,_,nonneg,credit⟩ := request
  have count := allowedIn_cons first last now allowed s.served
  rw [← served] at count
  by_cases late : last < now
  -- the window is over
  · rw [if_neg (by omega)] at count
    obtain none | ⟨bound,_⟩ := bounded
    · exact .inl (count.trans none)
    · exact .inr ⟨by rw [count]; exact bound,fun inside => by omega⟩
  by_cases early : now < first
  -- the window has not begun
  · refine .inl (allowedIn_before fun r listed => ?_)
    have before := kept.served r listed
    omega
  rw [if_pos ⟨by omega,by omega⟩] at count
  have ordered := kept.ordered
  have full := filled.full
  have sameBurst := filled.sameBurst
  by_cases quiet : allowedIn first last t.served = 0
  · exact .inl quiet
  refine bounded_of_total positive nonneg (by omega) ?_
  have parts : rate*(now-first) = rate*(now-s.bucket.lastRefill)+rate*(s.bucket.lastRefill-first) := by
    rw [← Int.mul_add]
    exact congrArg (rate*·) (by omega)
  have passed : 0 ≤ rate*(now-first) := Int.mul_nonneg (by omega) (by omega)
  have earned := earned_le (filled.sameRate ▸ positive) (Int.le_trans filled.ordered later)
  rw [filled.sameRate] at earned credit
  rcases bounded with none | ⟨_,total⟩ <;> rcases credit with ⟨tokens,same,recent⟩ | ⟨tokens,same⟩
  all_goals
    rw [same]
    unfold second at *
    omega
end

private theorem bounded_start (rate burst : Int) (capacity : Int) (now first last : Int) :
    Bounded rate burst first last (start capacity rate burst now) := .inl rfl

/-- Where no sum overflows, the tokens stay between 0 and the burst, and every window allows at most the burst, what the
    rate gives for its length (in nanoseconds), and one more. -/
theorem rate_bounded {conv : Conversion} {capacity rate burst : Int} {created : Int} {s : State} (positive : 1 ≤ rate) (nonneg : 0 ≤ burst)
    (run : Reach (step conv) Fits (start capacity rate burst created) s) : 0 ≤ s.bucket.tokens ∧ s.bucket.tokens ≤ burst ∧
      ∀ first length, 0 ≤ length → second*allowedIn first (first+length) s.served ≤ second*burst+rate*length+second := by
  obtain ⟨filled,bounded⟩ : Filled rate burst s ∧ ∀ first last, Bounded rate burst first last s := by
    refine run.invariant (I := fun s => Filled rate burst s ∧ ∀ first last, Bounded rate burst first last s)
      ⟨filled_start capacity nonneg created,bounded_start rate burst capacity created⟩ ?_
    intro s now t ⟨filled,bounded⟩ fits stepped
    obtain ⟨allowed,request⟩ := step_request positive filled fits stepped
    exact ⟨filled_step filled request,fun first last => bounded_step positive filled request (bounded first last)⟩
  refine ⟨filled.nonneg,filled.full,fun first length nonneg => ?_⟩
  have gain : 0 ≤ rate*length := Int.mul_nonneg (by omega) nonneg
  obtain none | ⟨bound,_⟩ := bounded first (first+length)
  · unfold second
    omega
  · rwa [show first+length-first = length by omega] at bound

def truncating : Conversion := ⟨int64,fun _ => int64_of_fits⟩

/-- A burst of two and one token for a second: three requests at once, and one a second later. -/
theorem rate_bounded_two : ∃ s, Reach (step truncating) Fits (start 1 1 2 0) s ∧
    s.served = [(1000000000,true),(0,false),(0,true),(0,true)] ∧ second*allowedIn 0 1000000000 s.served ≤ second*2+1*1000000000+second :=
  reach_seen [0,0,0,1000000000] (by decide +kernel) (by decide +kernel)
    (fun _ run _ => (rate_bounded (by decide) (by decide) run).2.2 0 1000000000 (by decide))

/-- With the largest burst the first token that is earned makes the number of tokens negative. -/
theorem tokens_negative : ¬ ∀ (conv : Conversion) (capacity rate burst created : Int) (s : State), 1 ≤ rate → 0 ≤ burst → burst < 9223372036854775808 →
    Reach (step conv) Any (start capacity rate burst created) s → 0 ≤ s.bucket.tokens := by
  intro claim
  obtain ⟨s,ran,negative⟩ := run_seen (step truncating) (start 1 1 9223372036854775807 0) [1000000000]
    (fun s => s.bucket.tokens < 0) (by decide +kernel)
  have nonneg := claim truncating 1 1 9223372036854775807 0 s (by decide) (by decide) (by decide) (run_any ran)
  omega

/-- The level of the bucket that keeps fractions of tokens, `second` to the token; it is full before the first request. -/
def idealLevel (rate burst : Int) : List (Int × Bool) → Int → Int
  | [], _ => second*burst
  | (last,_) :: served, now =>
    let level := idealLevel rate burst served last
    min (second*burst) ((if second ≤ level then level-second else level)+rate*(now-last))
/-- A refill that rounds nothing off: a whole number of tokens is earned, more than fits, or none with room for the fraction. -/
def Lossless (s : State) (now : Int) : Prop :=
  Fits s now ∧ (second*s.bucket.earned now = s.bucket.refillRate*(now-s.bucket.lastRefill) ∨
    (0 < s.bucket.earned now ∧ s.bucket.burstCapacity ≤ s.bucket.tokens+s.bucket.earned now) ∨
    (s.bucket.earned now = 0 ∧ s.bucket.tokens < s.bucket.burstCapacity))
  deriving Decidable

section
variable {conv : Conversion} {rate burst now : Int} {s t : State}

theorem level_refill (conv : Conversion) (positive : 1 ≤ rate) (filled : Filled rate burst s) (later : s.now ≤ now) (lossless : Lossless s now) :
    min (second*burst) (second*s.bucket.tokens+rate*(now-s.bucket.lastRefill)) =
      second*(refill conv s.bucket now).tokens+rate*(now-(refill conv s.bucket now).lastRefill) ∧
    rate*(now-(refill conv s.bucket now).lastRefill) < second := by
  obtain ⟨rfl,rfl,nonneg,full,ordered,_⟩ := filled
  have ordered := Int.le_trans ordered later
  have earned := earned_le positive ordered
  obtain ⟨none,kept⟩ | ⟨some_,credited⟩ := refill_cases positive ordered conv nonneg lossless.1
  · have recent := earned_zero positive ordered none
    rw [kept]
    refine ⟨?_,recent⟩
    obtain whole | fills | ⟨_,room⟩ := lossless.2 <;> unfold second at * <;> omega
  · rw [credited]
    simp only [Int.sub_self,Int.mul_zero]
    refine ⟨?_,by decide⟩
    obtain whole | fills | ⟨_,room⟩ := lossless.2 <;> unfold second at * <;> omega

/-- Every request that the ideal bucket allows is allowed. -/
def Spared (rate burst : Int) (served : List (Int × Bool)) : Prop :=
  ∀ now allowed rest, (now,allowed) :: rest <:+ served → second ≤ idealLevel rate burst rest now → allowed = true
/-- The level of the ideal bucket is what the tokens and the time since the last refill are worth. -/
structure Ideal (rate burst : Int) (s : State) : Prop extends Filled rate burst s where
  level : ∀ now, s.now ≤ now → idealLevel rate burst s.served now = min (second*burst) (second*s.bucket.tokens+rate*(now-s.bucket.lastRefill))
  spared : Spared rate burst s.served

theorem ideal_step (positive : 1 ≤ rate) (ideal : Ideal rate burst s) (lossless : Lossless s now) (stepped : step conv s now = some t) :
    Ideal rate burst t := by
  obtain ⟨_,request⟩ := step_request positive ideal.toFilled lossless.1 stepped
  have filled := filled_step ideal.toFilled request
  have later := request.later
  obtain ⟨same,recent⟩ := level_refill conv positive ideal.toFilled later lossless
  rw [← ideal.level now later] at same
  obtain ⟨allowed,enough,taken⟩ := allowRequest_eq conv s.bucket now
  simp only [step,if_pos later,taken,Option.some.injEq] at stepped
  subst stepped
  have passed : 0 ≤ rate*(now-(refill conv s.bucket now).lastRefill) := Int.mul_nonneg (by omega) (Int.sub_nonneg_of_le filled.ordered)
  have decided : second ≤ idealLevel rate burst s.served now ↔ allowed = true := by
    rw [same,enough]
    unfold second at *
    omega
  refine ⟨filled,?_,?_⟩
  · intro next _
    have parts : rate*(next-(refill conv s.bucket now).lastRefill) = rate*(next-now)+rate*(now-(refill conv s.bucket now).lastRefill) := by
      rw [← Int.mul_add]
      exact congrArg (rate*·) (by omega)
    simp only [idealLevel,decided,parts]
    rw [same]
    cases allowed <;> simp <;> unfold second <;> omega
  · intro request served rest listed allows
    obtain first | listed := List.suffix_cons_iff.mp listed
    · cases first
      exact decided.mp allows
    · exact ideal.spared request served rest listed allows

end

/-- Where no refill rounds anything off, every request that the ideal bucket allows is allowed. -/
theorem ideal_allowed {conv : Conversion} {capacity rate burst created : Int} {s : State} (positive : 1 ≤ rate) (room : 1 ≤ burst)
    (run : Reach (step conv) Lossless (start capacity rate burst created) s) : Spared rate burst s.served := by
  have full : Ideal rate burst (start capacity rate burst created) := by
    refine ⟨filled_start capacity (by omega) created,fun now later => ?_,by simp [start,Spared]⟩
    have passed : 0 ≤ rate*(now-created) := Int.mul_nonneg (by omega) (Int.sub_nonneg_of_le later)
    simp only [start,idealLevel,newTokenBucket]
    omega
  exact (run.invariant full (fun ideal lossless stepped => ideal_step positive ideal lossless stepped)).spared

/-- Requests at whole seconds, and one in between that finds no token. -/
theorem ideal_allowed_whole : ∃ s, Reach (step truncating) Lossless (start 1 1 2 0) s ∧
    s.served = [(2000000000,true),(1000000000,true),(500000000,false),(0,true),(0,true)] ∧ Spared 1 2 s.served :=
  reach_seen [0,0,500000000,1000000000,2000000000] (by decide +kernel) (by decide +kernel)
    (fun _ run _ => ideal_allowed (by decide) (by decide) run)

/-- A request after one and a half seconds takes the half token with it. -/
theorem half_token_lost : ¬ ∀ (conv : Conversion) (capacity rate burst created : Int) (s : State), 1 ≤ rate → 1 ≤ burst →
    Reach (step conv) Any (start capacity rate burst created) s → Spared rate burst s.served := by
  intro claim
  obtain ⟨s,ran,seen⟩ := run_seen (step truncating) (start 1 1 2 0) [0,0,1500000000,2000000000]
    (fun s => s.served = [(2000000000,false),(1500000000,true),(0,true),(0,true)]) (by decide +kernel)
  have spared := claim truncating 1 1 2 0 s (by decide) (by decide) (run_any ran)
  rw [seen] at spared
  exact absurd (spared 2000000000 false _ (List.suffix_refl _) (by decide +kernel)) (by decide)

end Stellabill.RateLimit

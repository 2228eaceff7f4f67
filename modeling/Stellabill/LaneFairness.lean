import Stellabill.JobStore

/-!
How fair the scheduler is to its lanes. `Next` goes through the lanes in a weighted
round robin; after `starvationLimit` jobs in a row from the lanes High and Normal it
turns to the lane Low. The count is reset by a job of the lane Low only.
-/
namespace Stellabill.LaneFairness
open Keyed Transitions JobStore

/-- Positive weights of the three lanes, and a starvation limit. -/
structure Config where
  high : Int
  normal : Int
  low : Int
  starvationLimit : Int
  high_pos : 0 < high
  normal_pos : 0 < normal
  low_pos : 0 < low
  limit_pos : 1 ≤ starvationLimit

def Config.weights (c : Config) : List (Priority × Int) := [(priorityHigh,c.high),(priorityNormal,c.normal),(priorityLow,c.low)]
def Config.total (c : Config) : Int := c.high+c.normal+c.low

structure Scheduler where
  counter : Int
  starvationCount : Int

def Answers (jobs : Jobs) (now : Time) (priority : Priority) : Option Job → Prop
  | none => lane jobs now priority = []
  | some job => firstPending jobs now priority job

/-- What a call of `Next` finds in `tryLane`, and for each lane in `pickHighestPriority`; jobs may come and go in between. -/
structure Reads where
  jobs : Jobs
  now : Time
  first : Priority → Option Job
  jobs' : Priority → Jobs
  now' : Priority → Time
  second : Priority → Option Job
  answers : ∀ p, Answers jobs now p (first p)
  answers' : ∀ p, Answers (jobs' p) (now' p) p (second p)

def pickHighestPriority (r : Reads) : Option Job := laneOrder.findSome? r.second
section
variable (c : Config) (s : Scheduler)
def laneAt : Priority := laneOf c.weights (s.counter+1) s.starvationCount c.starvationLimit
def next (r : Reads) : Option Job × Scheduler :=
  match r.first (laneAt c s) with
  | some job => (some job,⟨s.counter+1,if laneAt c s ≠ priorityLow then s.starvationCount+1 else 0⟩)
  | none => (pickHighestPriority r,⟨s.counter+1,s.starvationCount⟩)

def stateAt (c : Config) (s : Scheduler) (calls : Nat → Reads) : Nat → Scheduler
  | 0 => s
  | n+1 => (next c (stateAt c s calls n) (calls n)).2
def Supplies (r : Reads) (p : Priority) : Prop := ∃ job, (next c s r).1 = some job ∧ job.priority = p
end
/-- The lane is not empty, whenever the call looks at it. -/
def Occupied (r : Reads) (p : Priority) : Prop := lane r.jobs r.now p ≠ [] ∧ lane (r.jobs' p) (r.now' p) p ≠ []

/-- Among any `bound` calls in a row during which the lane is not empty, one returns a job of it. -/
def Fair (ok : Config → Scheduler → Reads → Prop) (c : Config) (bound : Nat) (p : Priority) : Prop :=
  ∀ (s : Scheduler) (calls : Nat → Reads), 0 ≤ s.counter → (∀ n, ok c (stateAt c s calls n) (calls n)) →
    ∀ n, (∀ i < bound, Occupied (calls (n+i)) p) → ∃ i < bound, Supplies c (stateAt c s calls (n+i)) (calls (n+i)) p

section
variable {c : Config} {s : Scheduler} {r : Reads} {p : Priority} {jobs : Jobs} {now : Time} {job : Job} {a n : Int}

theorem answers_priority (answers : Answers jobs now p (some job)) : job.priority = p :=
  (of_decide_eq_true (List.mem_filter.mp answers.1).2).1
theorem first_priority (answered : r.first p = some job) : job.priority = p :=
  answers_priority (answered ▸ r.answers p)
theorem second_priority (answered : r.second p = some job) : job.priority = p :=
  answers_priority (answered ▸ r.answers' p)
theorem answers_none {answer : Option Job} (answers : Answers jobs now p answer) : answer = none ↔ lane jobs now p = [] := by
  cases answer with
  | none => exact ⟨fun _ => answers,fun _ => rfl⟩
  | some job =>
    constructor
    · intro none
      cases none
    · intro empty
      have member := answers.1
      rw [empty] at member
      cases member
theorem first_none : r.first p = none ↔ lane r.jobs r.now p = [] := answers_none (r.answers p)
theorem second_none : r.second p = none ↔ lane (r.jobs' p) (r.now' p) p = [] := answers_none (r.answers' p)
theorem Occupied.first (occupied : Occupied r p) : ∃ job, r.first p = some job :=
  Option.ne_none_iff_exists'.mp (mt first_none.mp occupied.1)
theorem Occupied.second (occupied : Occupied r p) : ∃ job, r.second p = some job :=
  Option.ne_none_iff_exists'.mp (mt second_none.mp occupied.2)

section
variable (c : Config)
def Config.place (s : Scheduler) : Int := s.counter % c.total

theorem Config.sizes : (0 < c.high ∧ 0 < c.normal ∧ 0 < c.low) ∧ c.total = c.high+c.normal+c.low ∧ 1 ≤ c.starvationLimit :=
  ⟨⟨c.high_pos,c.normal_pos,c.low_pos⟩,rfl,c.limit_pos⟩
theorem total_pos : 0 < c.total := by
  have sizes := c.sizes
  omega
theorem place_lt (s : Scheduler) : c.place s < c.total := Int.emod_lt_of_pos _ (total_pos c)
private theorem pick_weights (idx : Int) : laneForIdx.pick c.weights idx 0 laneOrder =
    if idx < c.high then priorityHigh
    else if idx < c.high+c.normal then priorityNormal
    else if idx < c.total then priorityLow
    else priorityNormal := by
  have high : c.weights.lookup priorityHigh = some c.high := rfl
  have normal : c.weights.lookup priorityNormal = some c.normal := rfl
  have low : c.weights.lookup priorityLow = some c.low := rfl
  simp only [laneForIdx.pick,laneOrder,high,normal,low,Option.getD_some,Config.total,Int.zero_add]
  rfl
end
theorem laneAt_eq (counted : 0 ≤ s.counter) : laneAt c s =
    if c.starvationLimit ≤ s.starvationCount then priorityLow
    else if c.place s < c.high then priorityHigh
    else if c.place s < c.high+c.normal then priorityNormal
    else priorityLow := by
  have total : recalcWeight c.weights = c.total := by simp [recalcWeight,Config.weights,Config.total]
  have weighed : c.total ≠ 0 := Int.ne_of_gt (total_pos c)
  have place : (s.counter+1-1).tmod c.total = c.place s := by
    rw [Int.add_sub_cancel,Int.tmod_eq_emod_of_nonneg counted]
    rfl
  simp only [laneAt,laneOf,total,weighed,if_false,place,laneForIdx,ge_iff_le,decide_eq_true_eq,pick_weights,if_pos (place_lt c s)]
theorem next_counter : (next c s r).2.counter = s.counter+1 := by
  rw [next]
  split <;> rfl
theorem count_low (turned : laneAt c s = priorityLow) (answered : r.first priorityLow = some job) :
    (next c s r).2.starvationCount = 0 := by
  rw [next,turned,answered]
  rfl
section
variable (turned : laneAt c s = p)
include turned
theorem supplies_tried (answered : r.first p = some job) : Supplies c s r p := by
  refine ⟨job,?_,first_priority answered⟩
  rw [next,turned,answered]
theorem count_tried (other : p ≠ priorityLow) (answered : r.first p = some job) :
    (next c s r).2.starvationCount = s.starvationCount+1 := by
  rw [next,turned,answered]
  exact if_pos other
section
variable (empty : r.first p = none)
include empty
theorem supplies_fallback (picked : pickHighestPriority r = some job) : Supplies c s r job.priority := by
  refine ⟨job,?_,rfl⟩
  rw [next,turned,empty]
  exact picked
private theorem supplies_high (answered : r.second priorityHigh = some job) : Supplies c s r priorityHigh := by
  have picked : pickHighestPriority r = some job := by simp [pickHighestPriority,laneOrder,answered]
  exact second_priority answered ▸ supplies_fallback turned empty picked
theorem supplies_normal (free : r.second priorityHigh = none) (occupied : Occupied r priorityNormal) : Supplies c s r priorityNormal := by
  obtain ⟨job,answered⟩ := occupied.second
  have picked : pickHighestPriority r = some job := by simp [pickHighestPriority,laneOrder,free,answered]
  exact second_priority answered ▸ supplies_fallback turned empty picked
theorem count_fallback : (next c s r).2.starvationCount = s.starvationCount := by
  rw [next,turned,empty]
end
end

theorem emod_succ (positive : 0 < n) (within : a%n+1 < n) : (a+1)%n = a%n+1 := by
  have first := Int.emod_nonneg a (Int.ne_of_gt positive)
  rw [← Int.emod_add_emod,Int.emod_eq_of_lt (by omega) within]
theorem emod_wrap (last : a%n+1 = n) : (a+1)%n = 0 := by
  rw [← Int.emod_add_emod,last,Int.emod_self]
theorem place_succ (within : c.place s+1 < c.total) : c.place (next c s r).2 = c.place s+1 := by
  rw [Config.place,next_counter]
  exact emod_succ (total_pos c) within
theorem place_wrap (last : c.place s+1 = c.total) : c.place (next c s r).2 = 0 := by
  rw [Config.place,next_counter]
  exact emod_wrap last
section
variable (c : Config) (s : Scheduler) (calls : Nat → Reads)
theorem counter_stateAt (n : Nat) : (stateAt c s calls n).counter = s.counter+n := by
  induction n with
  | zero => simp [stateAt]
  | succ n ih =>
    rw [stateAt,next_counter]
    omega
theorem stateAt_add (n i : Nat) : stateAt c s calls (n+i) = stateAt c (stateAt c s calls n) (fun i => calls (n+i)) i := by
  induction i with
  | zero => rfl
  | succ i ih => rw [← Nat.add_assoc,stateAt,ih,stateAt]
theorem place_stateAt (n : Nat) : c.place (stateAt c s calls n) = (c.place s+n)%c.total := by
  rw [Config.place,counter_stateAt,Config.place,Int.emod_add_emod]
theorem place_comes (place : Int) (positive : 0 ≤ place) (within : place < c.total) :
    ∃ i : Nat, i < c.total.toNat ∧ c.place (stateAt c s calls i) = place := by
  have total := total_pos c
  have first := Int.emod_nonneg (place-s.counter) (Int.ne_of_gt total)
  have last := Int.emod_lt_of_pos (place-s.counter) total
  refine ⟨((place-s.counter)%c.total).toNat,by omega,?_⟩
  have there : s.counter+(place-s.counter) = place := by omega
  rw [Config.place,counter_stateAt,Int.toNat_of_nonneg first,Int.add_emod_emod,there,Int.emod_eq_of_lt positive within]
end
theorem counted_stateAt (counted : 0 ≤ s.counter) (calls : Nat → Reads) (n : Nat) : 0 ≤ (stateAt c s calls n).counter := by
  rw [counter_stateAt]
  omega

variable {calls : Nat → Reads}

/-- The last call of a round turns to the lane Low, forced or not. -/
theorem laneAt_last (counted : 0 ≤ s.counter) (last : c.place s+1 = c.total) : laneAt c s = priorityLow := by
  have sizes := c.sizes
  rw [laneAt_eq counted]
  split
  · rfl
  · rw [if_neg (by omega),if_neg (by omega)]
theorem last_comes (c : Config) (s : Scheduler) (calls : Nat → Reads) :
    ∃ i : Nat, i < c.total.toNat ∧ c.place (stateAt c s calls i)+1 = c.total := by
  have total := total_pos c
  obtain ⟨i,within,last⟩ := place_comes c s calls (c.total-1) (by omega) (by omega)
  exact ⟨i,within,by omega⟩
theorem low_supplied (counted : 0 ≤ s.counter) (occupied : ∀ i < 2*c.total.toNat, Occupied (calls i) priorityLow) :
    ∃ i < 2*c.total.toNat, Supplies c (stateAt c s calls i) (calls i) priorityLow := by
  obtain ⟨i,within,last⟩ := last_comes c s calls
  obtain ⟨job,answered⟩ := (occupied i (by omega)).first
  exact ⟨i,by omega,supplies_tried (laneAt_last (counted_stateAt counted calls i) last) answered⟩
/-- After a job of Low the round begins with High; without one, High is taken instead. -/
theorem high_supplied (counted : 0 ≤ s.counter) (occupied : ∀ i < 2*c.total.toNat, Occupied (calls i) priorityHigh) :
    ∃ i < 2*c.total.toNat, Supplies c (stateAt c s calls i) (calls i) priorityHigh := by
  have sizes := c.sizes
  obtain ⟨i,within,last⟩ := last_comes c s calls
  have turned := laneAt_last (counted_stateAt counted calls i) last
  cases answered : (calls i).first priorityLow with
  | none =>
    obtain ⟨job,second⟩ := (occupied i (by omega)).second
    exact ⟨i,by omega,supplies_high turned answered second⟩
  | some job =>
    have reset : (stateAt c s calls (i+1)).starvationCount = 0 := count_low turned answered
    have begins : c.place (stateAt c s calls (i+1)) = 0 := place_wrap last
    have lane : laneAt c (stateAt c s calls (i+1)) = priorityHigh := by
      rw [laneAt_eq (counted_stateAt counted calls (i+1)),begins,if_neg (by omega),if_pos c.high_pos]
    obtain ⟨job,first⟩ := (occupied (i+1) (by omega)).first
    exact ⟨i+1,by omega,supplies_tried lane first⟩

/-! ### The lane Normal -/

/-- Where the scheduler is forced to Low, that lane is not empty or High is; and where it finds High empty, that lane stays so. -/
structure Steady (c : Config) (s : Scheduler) (r : Reads) : Prop where
  forced : c.starvationLimit ≤ s.starvationCount →
    lane r.jobs r.now priorityLow ≠ [] ∨ lane (r.jobs' priorityHigh) (r.now' priorityHigh) priorityHigh = []
  stays : laneAt c s = priorityHigh → lane r.jobs r.now priorityHigh = [] → lane (r.jobs' priorityHigh) (r.now' priorityHigh) priorityHigh = []

/-- Since a job of Low was taken at or after the place of Normal, all calls have taken a job of the lane they turned to. -/
def Tracked (c : Config) (s : Scheduler) : Prop :=
  s.starvationCount = if c.place s ≤ c.high then c.place s % (c.starvationLimit+1) else 0
/-- The reads of a store that does not change, with all its jobs scheduled for one instant. -/
def unchanged (jobs : Jobs) (now : Time) (together : ∀ job ∈ jobs.rows, ∀ other ∈ jobs.rows, job.scheduledAt ≤ other.scheduledAt) : Reads :=
  have answers : ∀ p, Answers jobs now p (lane jobs now p).head? := by
    intro p
    cases listed : (lane jobs now p).head? with
    | none => exact List.head?_eq_none_iff.mp listed
    | some job =>
      have member := List.mem_of_mem_head? listed
      refine ⟨member,fun other listed => ?_⟩
      exact together job (List.mem_filter.mp member).1 other (List.mem_filter.mp listed).1
  { jobs := jobs
    now := now
    first := fun p => (lane jobs now p).head?
    jobs' := fun _ => jobs
    now' := fun _ => now
    second := fun p => (lane jobs now p).head?
    answers := answers
    answers' := answers }
def waiting (id : String) (priority : Priority) : Job :=
  ⟨id,"sub_1","charge",.pending,priority,0,none,none,0,3,"",none,0,0,""⟩
def eachLane : Reads :=
  unchanged ⟨[waiting "charge-1" priorityHigh,waiting "charge-2" priorityNormal,waiting "charge-3" priorityLow],by decide⟩ 0 (by decide)
/-- A job in the lane High, one in the lane Normal, and none in the lane Low. -/
def withoutLow : Reads :=
  unchanged ⟨[waiting "charge-1" priorityHigh,waiting "charge-2" priorityNormal],by decide⟩ 0 (by decide)
/-- With a job in each lane a call takes one of the lane that it turns to. -/
theorem eachLane_tried (c : Config) (counted : 0 ≤ s.counter) (supplied : Supplies c s eachLane priorityNormal) :
    laneAt c s = priorityNormal := by
  obtain ⟨job,returned,normal⟩ := supplied
  have answered : ∃ job, eachLane.first (laneAt c s) = some job := by
    rw [laneAt_eq counted]
    split_ifs
    all_goals exact ⟨_,rfl⟩
  obtain ⟨first,answered⟩ := answered
  rw [next,answered] at returned
  cases returned
  rw [← first_priority answered,normal]
theorem eachLane_steady (c : Config) (s : Scheduler) : Steady c s eachLane where
  forced _ := .inl (by decide)
  stays _ empty := absurd empty (by decide)
section
variable (counted : 0 ≤ s.counter)
include counted
section
variable (occupied : Occupied r priorityNormal)
include occupied
/-- A forced call takes a job of the lane Low, or one of the lane Normal. -/
theorem forced_call (steady : Steady c s r) (forced : c.starvationLimit ≤ s.starvationCount) : Supplies c s r priorityNormal ∨ (next c s r).2.starvationCount = 0 := by
  have turned : laneAt c s = priorityLow := by rw [laneAt_eq counted,if_pos forced]
  cases answered : r.first priorityLow with
  | some job => exact .inr (count_low turned answered)
  | none =>
    have free := (steady.forced forced).resolve_left (not_not.mpr (first_none.mp answered))
    exact .inl (supplies_normal turned answered (second_none.mpr free) occupied)
theorem normal_call (beyond : c.high ≤ c.place s)
    (before : c.place s < c.high+c.normal) (unforced : s.starvationCount < c.starvationLimit) : Supplies c s r priorityNormal := by
  have turned : laneAt c s = priorityNormal := by
    rw [laneAt_eq counted,if_neg (by omega),if_neg (by omega),if_pos before]
  obtain ⟨job,answered⟩ := occupied.first
  exact supplies_tried turned answered
private theorem tracked_high (tracked : Tracked c s) (steady : Steady c s r) (before : c.place s < c.high) :
    Supplies c s r priorityNormal ∨ Tracked c (next c s r).2 := by
  have sizes := c.sizes
  have last := Int.emod_lt_of_pos (c.place s) (show 0 < c.starvationLimit+1 by omega)
  have count : s.starvationCount = c.place s % (c.starvationLimit+1) := by rw [tracked,if_pos (by omega)]
  unfold Tracked
  rw [place_succ (by omega),if_pos (by omega)]
  by_cases forced : c.starvationLimit ≤ s.starvationCount
  · refine (forced_call counted occupied steady forced).imp_right fun reset => ?_
    rw [reset,emod_wrap (by omega)]
  · have turned : laneAt c s = priorityHigh := by rw [laneAt_eq counted,if_neg forced,if_pos before]
    cases answered : r.first priorityHigh with
    | some job =>
      refine .inr ?_
      rw [count_tried turned (by decide) answered,count,emod_succ (by omega) (by omega)]
    | none =>
      have free := steady.stays turned (first_none.mp answered)
      exact .inl (supplies_normal turned answered (second_none.mpr free) occupied)
theorem tracked_forced (steady : Steady c s r) (single : c.normal = 1) (slot : c.place s = c.high) (forced : c.starvationLimit ≤ s.starvationCount) :
    Supplies c s r priorityNormal ∨ Tracked c (next c s r).2 := by
  have sizes := c.sizes
  refine (forced_call counted occupied steady forced).imp_right fun reset => ?_
  rw [Tracked,reset,place_succ (by omega),if_neg (by omega)]
theorem tracked_low (tracked : Tracked c s) (single : c.normal = 1) (beyond : c.high < c.place s) : Supplies c s r priorityNormal ∨ Tracked c (next c s r).2 := by
  have sizes := c.sizes
  have count : s.starvationCount = 0 := by rw [tracked,if_neg (by omega)]
  have later : (if c.place (next c s r).2 ≤ c.high then c.place (next c s r).2 % (c.starvationLimit+1) else 0) = 0 := by
    by_cases last : c.place s+1 = c.total
    · rw [place_wrap last,if_pos (by omega)]
      exact Int.zero_emod _
    · have within := place_lt c s
      rw [place_succ (by omega),if_neg (by omega)]
  have turned : laneAt c s = priorityLow := by
    rw [laneAt_eq counted,if_neg (by omega),if_neg (by omega),if_neg (by omega)]
  unfold Tracked
  rw [later]
  cases answered : r.first priorityLow with
  | some job => exact .inr (count_low turned answered)
  | none =>
    cases free : r.second priorityHigh with
    | some job => exact .inr ((count_fallback turned answered).trans count)
    | none => exact .inl (supplies_normal turned answered free occupied)
/-- One call keeps the scheduler on track, or takes a job of the lane Normal. -/
theorem tracked_next (tracked : Tracked c s) (steady : Steady c s r) (single : c.normal = 1)
    (slot : c.place s = c.high → c.starvationLimit ≤ s.starvationCount) : Supplies c s r priorityNormal ∨ Tracked c (next c s r).2 := by
  by_cases before : c.place s < c.high
  · exact tracked_high counted occupied tracked steady before
  · by_cases here : c.place s = c.high
    · exact tracked_forced counted occupied steady single here (slot here)
    · exact tracked_low counted occupied tracked single (by omega)
end
section
variable (steady : ∀ i, Steady c (stateAt c s calls i) (calls i))
include steady
/-- From the place after Normal the scheduler stays on track for the round, unless a job of that lane is taken. -/
theorem tracked_round (single : c.normal = 1) {n : Nat} (occupied : ∀ i < n, Occupied (calls i) priorityNormal) (tracked : Tracked c s)
    (elsewhere : ∀ i < n, c.place (stateAt c s calls i) ≠ c.high) :
    (∃ i < n, Supplies c (stateAt c s calls i) (calls i) priorityNormal) ∨ Tracked c (stateAt c s calls n) := by
  induction n with
  | zero => exact .inr tracked
  | succ n ih =>
    obtain ⟨i,within,supplied⟩ | tracked := ih (fun i within => occupied i (by omega)) (fun i within => elsewhere i (by omega))
    · exact .inl ⟨i,by omega,supplied⟩
    · have step := tracked_next (counted_stateAt counted calls n) (occupied n (by omega)) tracked (steady n) single
        (fun here => absurd here (elsewhere n (by omega)))
      exact step.imp_left fun supplied => ⟨n,by omega,supplied⟩
/-- On track after the only call for Normal, the scheduler gets back to that place with a count below the limit. -/
theorem single_supplied (single : c.normal = 1)
    (uneven : c.high % (c.starvationLimit+1) ≠ c.starvationLimit) (tracked : Tracked c s) (after : c.place s = c.high+1)
    (occupied : ∀ i < c.total.toNat, Occupied (calls i) priorityNormal) :
    ∃ i < c.total.toNat, Supplies c (stateAt c s calls i) (calls i) priorityNormal := by
  have sizes := c.sizes
  have around : ∀ i < c.total.toNat, c.place (stateAt c s calls i) = c.high ↔ i = c.total.toNat-1 := by
    intro i within
    rw [place_stateAt,after]
    by_cases wrapped : c.high+1+i < c.total
    · rw [Int.emod_eq_of_lt (by omega) wrapped]
      omega
    · rw [← Int.sub_emod_right,Int.emod_eq_of_lt (by omega) (by omega)]
      omega
  obtain ⟨i,within,supplied⟩ | tracked := tracked_round counted steady single (n := c.total.toNat-1)
    (fun i within => occupied i (by omega)) tracked (fun i within => by have := around i (by omega); omega)
  · exact ⟨i,by omega,supplied⟩
  · have slot := (around (c.total.toNat-1) (by omega)).mpr rfl
    have last := Int.emod_lt_of_pos c.high (show 0 < c.starvationLimit+1 by omega)
    rw [Tracked,slot] at tracked
    refine ⟨c.total.toNat-1,by omega,?_⟩
    exact normal_call (counted_stateAt counted calls _) (occupied _ (by omega)) (by omega) (by omega) (by omega)
private theorem normal_supplied (bounded : 2 ≤ c.normal ∨ c.high % (c.starvationLimit+1) ≠ c.starvationLimit)
    (occupied : ∀ i < 2*c.total.toNat, Occupied (calls i) priorityNormal) :
    ∃ i < 2*c.total.toNat, Supplies c (stateAt c s calls i) (calls i) priorityNormal := by
  have sizes := c.sizes
  obtain ⟨i,within,slot⟩ := place_comes c s calls c.high (by omega) (by omega)
  by_cases unforced : (stateAt c s calls i).starvationCount < c.starvationLimit
  · exact ⟨i,by omega,normal_call (counted_stateAt counted calls i) (occupied i (by omega)) (by omega) (by omega) unforced⟩
  obtain supplied | reset := forced_call (counted_stateAt counted calls i) (occupied i (by omega)) (steady i) (by omega)
  · exact ⟨i,by omega,supplied⟩
  have after : c.place (stateAt c s calls (i+1)) = c.high+1 := by
    rw [stateAt,place_succ (by omega),slot]
  have counted' := counted_stateAt (c := c) counted calls (i+1)
  by_cases several : 2 ≤ c.normal
  · have unforced : (stateAt c s calls (i+1)).starvationCount < c.starvationLimit := by
      rw [stateAt]
      omega
    exact ⟨i+1,by omega,normal_call counted' (occupied (i+1) (by omega)) (by omega) (by omega) unforced⟩
  · have tracked : Tracked c (stateAt c s calls (i+1)) := by
      rw [Tracked,if_neg (by omega),stateAt,reset]
    obtain ⟨k,within',supplied⟩ := @single_supplied c (stateAt c s calls (i+1)) (fun k => calls (i+1+k)) counted'
      (fun k => stateAt_add c s calls (i+1) k ▸ steady (i+1+k)) (by omega) (bounded.resolve_left several) tracked after
      (fun k within => occupied (i+1+k) (by omega))
    rw [← stateAt_add] at supplied
    exact ⟨i+1+k,by omega,supplied⟩
end
/-- On track, with one call for Normal and the forced call in its place, that lane is never turned to. -/
theorem tracked_elsewhere (single : c.normal = 1) (even : c.high % (c.starvationLimit+1) = c.starvationLimit)
    (tracked : Tracked c s) : laneAt c s ≠ priorityNormal := by
  rw [laneAt_eq counted]
  split_ifs with forced before here
  · decide
  · decide
  · have slot : c.place s = c.high := by omega
    rw [Tracked,slot] at tracked
    omega
  · decide
end
private theorem eachLane_tracked (single : c.normal = 1) (even : c.high % (c.starvationLimit+1) = c.starvationLimit) (n : Nat) :
    Tracked c (stateAt c ⟨0,0⟩ (fun _ => eachLane) n) := by
  induction n with
  | zero =>
    have high := c.high_pos
    simp [Tracked,stateAt,Config.place,Int.le_of_lt high]
  | succ n ih =>
    have counted := counted_stateAt (c := c) (Int.le_refl (0 : Int)) (s := ⟨0,0⟩) (fun _ => eachLane) n
    have slot : c.place (stateAt c ⟨0,0⟩ (fun _ => eachLane) n) = c.high →
        c.starvationLimit ≤ (stateAt c ⟨0,0⟩ (fun _ => eachLane) n).starvationCount := by
      intro slot
      exact Int.le_of_eq (by rw [ih,slot,if_pos (Int.le_refl _),even])
    refine (tracked_next counted ⟨by decide,by decide⟩ ih (eachLane_steady c _) single slot).resolve_left fun supplied => ?_
    exact tracked_elsewhere counted single even ih (eachLane_tried c counted supplied)

/-- Forced to an empty lane Low, a call takes a job of High and the next call is forced again. -/
theorem starved (c : Config) (s : Scheduler) (counted : 0 ≤ s.counter) (forced : c.starvationLimit ≤ s.starvationCount) :
    ¬ Supplies c s withoutLow priorityNormal ∧ (next c s withoutLow).2.starvationCount = s.starvationCount := by
  have turned : laneAt c s = priorityLow := by rw [laneAt_eq counted,if_pos forced]
  refine ⟨?_,count_fallback turned rfl⟩
  rintro ⟨job,returned,normal⟩
  rw [next,turned] at returned
  cases returned
  exact absurd normal (by decide)
theorem starved_run (c : Config) (s : Scheduler) (counted : 0 ≤ s.counter) (forced : c.starvationLimit ≤ s.starvationCount) (n : Nat) :
    c.starvationLimit ≤ (stateAt c s (fun _ => withoutLow) n).starvationCount := by
  induction n with
  | zero => exact forced
  | succ n ih =>
    rw [stateAt,(starved c _ (counted_stateAt counted _ n) ih).2]
    exact ih
def defaultConfig : Config := ⟨3,2,1,10,by decide,by decide,by decide,by decide⟩

end

end Stellabill.LaneFairness

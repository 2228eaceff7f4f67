import Mathlib.Data.List.Sort
import Stellabill.ByteStrings
import Stellabill.Calendar
import Stellabill.Keyed
import Stellabill.Program

/-!
The rollover of monthly partitions. A cycle creates the partitions of the months to come and
detaches those whose name is that of a month which began before a threshold.
-/
namespace Stellabill.PartitionRollover
open ByteStrings Calendar Keyed Program List

structure PartitionRolloverConfig where
  pollInterval : Int
  rolloverTimeout : Int
  shutdownTimeout : Int
  lookaheadMonths : Int
  detachThresholdMonths : Int
  parentTable : Bytes
  partitionPrefix : Bytes
  cooldown : Int

def defaultPartitionRolloverConfig : PartitionRolloverConfig where
  pollInterval := 24*3600*second
  rolloverTimeout := 5*60*second
  shutdownTimeout := 30*second
  lookaheadMonths := 1
  detachThresholdMonths := 24
  parentTable := text "statements_partitioned"
  partitionPrefix := text "statements_p"
  cooldown := 3600*second

def orDefault (n d : Int) : Int := if n ≤ 0 then d else n
def withDefaults (c : PartitionRolloverConfig) : PartitionRolloverConfig where
  pollInterval := orDefault c.pollInterval defaultPartitionRolloverConfig.pollInterval
  rolloverTimeout := orDefault c.rolloverTimeout defaultPartitionRolloverConfig.rolloverTimeout
  shutdownTimeout := orDefault c.shutdownTimeout defaultPartitionRolloverConfig.shutdownTimeout
  lookaheadMonths := orDefault c.lookaheadMonths defaultPartitionRolloverConfig.lookaheadMonths
  detachThresholdMonths := orDefault c.detachThresholdMonths defaultPartitionRolloverConfig.detachThresholdMonths
  parentTable := if c.parentTable = [] then defaultPartitionRolloverConfig.parentTable else c.parentTable
  partitionPrefix := if c.partitionPrefix = [] then defaultPartitionRolloverConfig.partitionPrefix else c.partitionPrefix
  cooldown := orDefault c.cooldown defaultPartitionRolloverConfig.cooldown

/-- The months of which the first is an instant that the library can represent. -/
def Supported (month : Int) : Prop := -292277022399 ≤ month/12 ∧ month/12 ≤ 292277022399
/-- `time.Date`: the first of a month, and a time after it. Outside of what can be represented any instant may come out. -/
structure TimeLibrary where
  date : Int → Int → Int
  exact : ∀ month offset, Supported month → date month offset = monthStart month+offset

def digitByte (n : Nat) : UInt8 := 0x30+UInt8.ofNat n
def digitOf (byte : UInt8) : Option Int := if 0x30 ≤ byte ∧ byte ≤ 0x39 then some (byte.toNat-0x30) else none

section
variable (cfg : PartitionRolloverConfig)

def partitionName (t : Int) : Bytes :=
  let month := (monthOf t % 12).toNat+1
  cfg.partitionPrefix ++ text (toString (monthOf t/12)) ++ [0x5F,digitByte (month/10),digitByte (month % 10)]
def defaultPartitionName : Bytes := (cfg.partitionPrefix.reverse.dropWhile fun byte => byte = 0x5F).reverse ++ text "_default"
def parseMonth : Bytes → Option Int
  | [a,b,c,d,sep,e,f] => do
    let year := 1000*(← digitOf a)+100*(← digitOf b)+10*(← digitOf c)+(← digitOf d)
    let month := 10*(← digitOf e)+(← digitOf f)
    if sep = 0x5F ∧ 1 ≤ month ∧ month ≤ 12 then some (12*year+month-1) else none
  | _ => none
def parsePartitionDate (name : Bytes) : Option Int :=
  if cfg.partitionPrefix.isPrefixOf name then parseMonth (name.drop cfg.partitionPrefix.length) else none
end

/-- What a partition covers: from the lower bound up to the upper one, if there are any; or what no other covers. -/
inductive Bounds
  | range (lower upper : Option Int)
  | default_
  deriving DecidableEq
structure Partition where
  name : Bytes
  bounds : Bounds
  deriving DecidableEq
abbrev Partitions := Table Partition.name

/-- The partitions of the table, the names of other relations, and the last rollover, if any. -/
structure Store where
  partitions : Partitions
  relations : List Bytes
  lastRolloverAt : Option Int

def Bounds.contains : Bounds → Int → Bool
  | .range lower upper,x => lower.all (· ≤ x) && upper.all (x < ·)
  | .default_,_ => false
/-- Rows of the instant go to the partition. -/
def Covers (partitions : Partitions) (p : Partition) (x : Int) : Prop :=
  p.bounds.contains x = true ∨ (p.bounds = .default_ ∧ ∀ q ∈ partitions, q.bounds.contains x = false)
def Bounds.overlaps (lower upper : Int) : Bounds → Bool
  | .range lower' upper' => lower'.all (· < upper) && upper'.all (lower < ·)
  | .default_ => false

structure World where
  store : Store
  detached : List Partition

inductive Call
  | lastRolloverAt
  | partitionExists (name : Bytes)
  | createPartition (name : Bytes) (lower upper : Int)
  | listPartitions
  | detachPartition (name : Bytes)
  | markRolloverDone (at_ : Int)
abbrev Answer : Call → Type
  | .lastRolloverAt => Except String (Option Int)
  | .partitionExists _ => Except String Bool
  | .listPartitions => Except String (List Bytes)
  | .createPartition .. | .detachPartition _ | .markRolloverDone _ => Option String

def read {A : Type} (reply : Reply) (value : A) : Except String A :=
  match reply.error with
  | some message => .error message
  | none => .ok value
/-- A partition can be created under a new name for a range that is free. -/
def Store.create (s : Store) (name : Bytes) (lower upper : Int) : Option Store :=
  if s.relations.contains name ∨ s.partitions.rows.any (fun p => p.name = name ∨ p.bounds.overlaps lower upper) then none
  else some { s with partitions := s.partitions.upsert ⟨name,.range (some lower) (some upper)⟩ }
def World.detach (w : World) (p : Partition) : World :=
  ⟨{ w.store with partitions := w.store.partitions.delete (fun q => q.name = p.name), relations := w.store.relations ++ [p.name] },w.detached ++ [p]⟩

def perform (w : World) : (c : Call) → Reply → Option (Answer c × World)
  | .lastRolloverAt,reply => some (read reply w.store.lastRolloverAt,w)
  | .partitionExists name,reply => some (read reply (w.store.partitions.find name).isSome,w)
  | .createPartition name lower upper,reply =>
    match w.store.create name lower upper with
    | some store => some (reply.error,if reply.effective then { w with store } else w)
    | none => some (some "relation exists or partition would overlap",w)
  | .listPartitions,reply => some (read reply ((w.store.partitions.rows.map Partition.name).insertionSort (fun a b => a ≤ b)),w)
  | .detachPartition name,reply =>
    match w.store.partitions.find name with
    | some p => some (reply.error,if reply.effective then w.detach p else w)
    | none => some (some "relation is not a partition",w)
  | .markRolloverDone at_,reply => some (reply.error,if reply.effective then { w with store := { w.store with lastRolloverAt := some at_ } } else w)

section
variable (lib : TimeLibrary) (cfg : PartitionRolloverConfig) (now : Int)

def nextMonth (m : Nat) : Int := lib.date (monthOf now+m) 0
def monthAfter (t : Int) : Int := lib.date (monthOf t+1) (t-monthStart (monthOf t))
def createPartitions : List Nat → Nat → Prog Call Answer (Except Bytes Nat)
  | [],created => pure (.ok created)
  | m :: rest,created => do
    let next := nextMonth lib now m
    let name := partitionName cfg next
    match ← call (Call.partitionExists name) with
    | .error message => pure (.error (text "check partition " ++ name ++ text ": " ++ text message))
    | .ok true => createPartitions rest created
    | .ok false =>
      match ← call (Call.createPartition name next (monthAfter lib next)) with
      | some message => pure (.error (text "create partition " ++ name ++ text ": " ++ text message))
      | none => createPartitions rest (created+1)

def threshold : Int := lib.date (monthOf now-cfg.detachThresholdMonths) (now-monthStart (monthOf now))
/-- The partition is recognised as one of a month that began before the threshold. -/
def due (name : Bytes) : Bool :=
  name ≠ defaultPartitionName cfg && match parsePartitionDate cfg name with
    | some month => monthStart month < threshold lib cfg now
    | none => false
def detachPartitions : List Bytes → Nat → Prog Call Answer (Except Bytes Nat)
  | [],detached => pure (.ok detached)
  | name :: rest,detached =>
    if due lib cfg now name then do
      match ← call (Call.detachPartition name) with
      | some message => pure (.error (text "detach partition " ++ name ++ text ": " ++ text message))
      | none => detachPartitions rest (detached+1)
    else detachPartitions rest detached

def monthsAhead : List Nat := (List.range cfg.lookaheadMonths.toNat).map (·+1)
def doRollover : Prog Call Answer (Except Bytes (Nat × Nat)) := do
  match ← createPartitions lib cfg now (monthsAhead cfg) 0 with
  | .error message => pure (.error message)
  | .ok created =>
    if cfg.detachThresholdMonths > 0 then
      match ← call Call.listPartitions with
      | .error message => pure (.error (text "list partitions: " ++ text message))
      | .ok partitions =>
        match ← detachPartitions lib cfg now partitions 0 with
        | .error message => pure (.error message)
        | .ok detached => pure (.ok (created,detached))
    else pure (.ok (created,0))
/-- `runRolloverCycle`, with the numbers that it adds to the statistics if it ran. -/
def runRolloverCycle : Prog Call Answer (Except Bytes (Option (Nat × Nat))) := do
  match ← call Call.lastRolloverAt with
  | .error message => pure (.error (text "read last rollover time: " ++ text message))
  | .ok lastRun =>
    if lastRun.any (fun at_ => since now at_ < cfg.cooldown) then pure (.ok none)
    else match ← doRollover lib cfg now with
      | .error message => pure (.error (text "rollover: " ++ message))
      | .ok counts =>
        match ← call (Call.markRolloverDone now) with
        | some message => pure (.error (text "mark rollover done: " ++ text message))
        | none => pure (.ok (some counts))
end

/-- A cycle of a job with the configuration `c`, from its start to some call or to its end. -/
def Runs (lib : TimeLibrary) (c : PartitionRolloverConfig) (now : Int) (s : Store) (w : World) : Prop :=
  ∃ replies p, answers perform ⟨s,[]⟩ replies (runRolloverCycle lib (withDefaults c) now) = some (w,p)

/-! ### The condition -/

/-- The store after the partitions of the months to come were created, unless one of them cannot be. -/
def prepare (lib : TimeLibrary) (cfg : PartitionRolloverConfig) (now : Int) : List Nat → Store → Option Store
  | [],s => some s
  | m :: rest,s =>
    let next := nextMonth lib now m
    if (s.partitions.find (partitionName cfg next)).isSome then prepare lib cfg now rest s
    else (s.create (partitionName cfg next) next (monthAfter lib next)).bind (prepare lib cfg now rest)

/-- Only instants before the configured number of months are covered, and the detaching is not disabled. -/
def Spared (c : PartitionRolloverConfig) (now : Int) (s : Store) (p : Partition) : Prop :=
  c.detachThresholdMonths ≠ 0 ∧ ∀ x, Covers s.partitions p x → x < addMonths now (-c.detachThresholdMonths)
/-- The cycle is skipped, or every partition whose month began before the threshold may be detached. -/
def Careful (lib : TimeLibrary) (c : PartitionRolloverConfig) (now : Int) (s : Store) : Prop :=
  (∃ at_ ∈ s.lastRolloverAt, since now at_ < (withDefaults c).cooldown) ∨
    ∀ s', prepare lib (withDefaults c) now (monthsAhead (withDefaults c)) s = some s' →
      ∀ p ∈ s'.partitions, due lib (withDefaults c) now p.name → Spared c now s p

section
variable {lib : TimeLibrary} {cfg c : PartitionRolloverConfig} {now : Int} {s s' : Store} {w : World} {good : Partition → Prop}

abbrev Detaches (good : Partition → Prop) {A : Type} (p : Prog Call Answer A) (post : A → World → Prop) (w : World) : Prop :=
  Safe perform (fun w _ => ∀ p ∈ w.detached, good p) (fun value w => (∀ p ∈ w.detached, good p) ∧ post value w) p w

theorem read_ok {A : Type} {reply : Reply} {value value' : A} (ok : read reply value = .ok value') : value = value' := by
  unfold read at ok
  split at ok
  · cases ok
  · exact Except.ok.inj ok
theorem createPartitions_safe (months : List Nat) (created : Nat) (fine : ∀ p ∈ w.detached, good p) :
    Detaches good (createPartitions lib cfg now months created)
      (fun result w' => ∀ n, result = .ok n → prepare lib cfg now months w.store = some w'.store) w := by
  induction months generalizing w created with
  | nil => exact ⟨fine,fun _ _ => rfl⟩
  | cons m rest ih =>
    refine safe_call_bind fine ?_
    intro reply answer w' performed
    cases performed
    cases known : read reply (w.store.partitions.find (partitionName cfg (nextMonth lib now m))).isSome with
    | error message => exact ⟨fine,nofun⟩
    | ok exists_ =>
      have is := read_ok known
      cases exists_ with
      | true =>
        refine (ih created fine).mono fun result w' ⟨fine',ends⟩ => ⟨fine',fun n ok => ?_⟩
        rw [prepare,if_pos is]
        exact ends n ok
      | false =>
        refine safe_call_bind fine ?_
        intro reply' answer' w' performed'
        rw [perform] at performed'
        cases fits : w.store.create (partitionName cfg (nextMonth lib now m)) (nextMonth lib now m) (monthAfter lib (nextMonth lib now m)) with
        | none =>
          rw [fits] at performed'
          cases performed'
          exact ⟨fine,nofun⟩
        | some store =>
          rw [fits] at performed'
          cases performed'
          cases silent : reply'.error with
          | some message =>
            refine ⟨?_,nofun⟩
            split <;> exact fine
          | none =>
            rw [if_pos (Reply.effective_of_error silent)]
            refine (ih (w := { w with store }) (created+1) fine).mono fun result w' ⟨fine',ends⟩ => ⟨fine',fun n ok => ?_⟩
            rw [prepare,if_neg (by simp [is]),fits]
            exact ends n ok
private theorem detachPartitions_safe (names : List Bytes) (detached : Nat) (fine : ∀ p ∈ w.detached, good p)
    (allowed : ∀ p ∈ w.store.partitions, due lib cfg now p.name → good p) :
    Detaches good (detachPartitions lib cfg now names detached) (fun _ _ => True) w := by
  induction names generalizing w detached with
  | nil => exact ⟨fine,trivial⟩
  | cons name rest ih =>
    rw [detachPartitions]
    split
    · next is =>
      refine safe_call_bind fine ?_
      intro reply answer w' performed
      rw [perform] at performed
      cases found : w.store.partitions.find name with
      | none =>
        rw [found] at performed
        cases performed
        exact ⟨fine,trivial⟩
      | some p =>
        obtain ⟨member,rfl⟩ := w.store.partitions.find_some.mp found
        have fine' : ∀ q ∈ (w.detach p).detached, good q := by
          intro q listed
          obtain old | new := mem_append.mp listed
          · exact fine q old
          · rw [mem_singleton.mp new]
            exact allowed p member is
        rw [found] at performed
        cases performed
        cases silent : reply.error with
        | some message =>
          refine ⟨?_,trivial⟩
          split
          · exact fine'
          · exact fine
        | none =>
          rw [if_pos (Reply.effective_of_error silent)]
          exact ih (detached+1) fine' fun q kept isDue => allowed q (Table.mem_delete.mp kept).1 isDue
    · exact ih detached fine allowed

theorem doRollover_safe (allowed : ∀ s', prepare lib cfg now (monthsAhead cfg) s = some s' → ∀ p ∈ s'.partitions, due lib cfg now p.name → good p) :
    Detaches good (doRollover lib cfg now) (fun _ _ => True) ⟨s,[]⟩ := by
  refine safe_bind ((createPartitions_safe _ 0 nofun).mono ?_)
  rintro result w' ⟨fine,prepared⟩
  cases result with
  | error message => exact ⟨fine,trivial⟩
  | ok created =>
    have allowed := allowed w'.store (prepared created rfl)
    dsimp only
    split
    · refine safe_call_bind fine ?_
      intro reply answer w' performed
      cases performed
      cases read reply _ with
      | error message => exact ⟨fine,trivial⟩
      | ok names =>
        refine safe_bind ((detachPartitions_safe names 0 fine allowed).mono ?_)
        rintro result w' ⟨fine,_⟩
        cases result with
        | error | ok => exact ⟨fine,trivial⟩
    · exact ⟨fine,trivial⟩
theorem runRolloverCycle_safe (careful : Careful lib c now s) :
    Detaches (Spared c now s) (runRolloverCycle lib (withDefaults c) now) (fun _ _ => True) ⟨s,[]⟩ := by
  have none_ : ∀ p ∈ ([] : List Partition), Spared c now s p := by rintro _ ⟨⟩
  refine safe_call_bind none_ ?_
  intro reply answer w' performed
  cases performed
  cases known : read reply s.lastRolloverAt with
  | error message => exact ⟨none_,trivial⟩
  | ok lastRun =>
    cases read_ok known
    dsimp only
    split
    · exact ⟨none_,trivial⟩
    · next elapsed =>
      obtain ⟨at_,last,soon⟩ | allowed := careful
      · rw [Option.mem_def] at last
        simp [last,soon] at elapsed
      · refine safe_bind ((doRollover_safe allowed).mono ?_)
        rintro result w' ⟨fine,_⟩
        cases result with
        | error message => exact ⟨fine,trivial⟩
        | ok counts =>
          refine safe_call_bind fine ?_
          intro reply answer w' performed
          cases performed
          have fine : ∀ p ∈ (if reply.effective then { w' with store := { w'.store with lastRolloverAt := some now } } else w').detached,
              Spared c now s p := by
            split <;> exact fine
          cases reply.error with
          | none | some => exact ⟨fine,trivial⟩

theorem createPartitions_ends {months : List Nat} (created : Nat) (prepared : prepare lib cfg now months w.store = some s') :
    ∃ n, Ends perform (createPartitions lib cfg now months created) w (.ok n) ⟨s',w.detached⟩ := by
  induction months generalizing w created with
  | nil =>
    cases prepared
    exact ⟨created,ends_pure⟩
  | cons m rest ih =>
    have asked : perform w (.partitionExists (partitionName cfg (nextMonth lib now m))) .done =
      some (.ok (w.store.partitions.find (partitionName cfg (nextMonth lib now m))).isSome,w) := rfl
    rw [prepare] at prepared
    cases exists_ : (w.store.partitions.find (partitionName cfg (nextMonth lib now m))).isSome with
    | true =>
      rw [if_pos exists_] at prepared
      obtain ⟨n,ends⟩ := ih created prepared
      rw [exists_] at asked
      exact ⟨n,ends_call_bind asked ends⟩
    | false =>
      rw [if_neg (by simp [exists_])] at prepared
      obtain ⟨store,fits,later⟩ := Option.bind_eq_some_iff.mp prepared
      obtain ⟨n,ends⟩ := ih (w := { w with store }) (created+1) later
      have made : perform w (.createPartition (partitionName cfg (nextMonth lib now m)) (nextMonth lib now m)
          (monthAfter lib (nextMonth lib now m))) .done = some (none,{ w with store }) := by
        rw [perform,fits]
        rfl
      rw [exists_] at asked
      exact ⟨n,ends_call_bind asked (ends_call_bind made ends)⟩
private theorem detachPartitions_ends {names : List Bytes} (detached : Nat) (distinct : names.Nodup)
    (listed : ∀ name ∈ names, ∃ p ∈ w.store.partitions, p.name = name) :
    ∃ n w', Ends perform (detachPartitions lib cfg now names detached) w (.ok n) w' ∧ w.detached ⊆ w'.detached ∧
      ∀ p ∈ w.store.partitions, p.name ∈ names → due lib cfg now p.name → p ∈ w'.detached := by
  induction names generalizing w detached with
  | nil => exact ⟨detached,w,ends_pure,List.Subset.refl _,nofun⟩
  | cons name rest ih =>
    obtain ⟨absent,distinct'⟩ := nodup_cons.mp distinct
    rw [detachPartitions]
    by_cases isDue : due lib cfg now name = true
    · rw [if_pos isDue]
      obtain ⟨p,member,rfl⟩ := listed name mem_cons_self
      have done_ : perform w (.detachPartition p.name) .done = some (none,w.detach p) := by
        rw [perform,w.store.partitions.find_some.mpr ⟨member,rfl⟩]
        rfl
      have others : ∀ name ∈ rest, ∃ q ∈ (w.detach p).store.partitions, q.name = name := by
        intro name later
        obtain ⟨q,present,rfl⟩ := listed name (mem_cons_of_mem _ later)
        have other : q.name ≠ p.name := by
          intro same
          rw [same] at later
          exact absent later
        exact ⟨q,Table.mem_delete.mpr ⟨present,by simpa using other⟩,rfl⟩
      obtain ⟨n,w',ends,kept,taken⟩ := ih (detached+1) distinct' others
      have grown : w.detached ⊆ w'.detached := fun q old => kept (mem_append_left _ old)
      refine ⟨n,w',ends_call_bind done_ ends,grown,?_⟩
      intro q present named isDue'
      by_cases same : q.name = p.name
      · rw [w.store.partitions.eq_of_key present member same]
        exact kept (mem_append_right _ (mem_singleton_self p))
      · obtain head | later := mem_cons.mp named
        · exact absurd head same
        · exact taken q (Table.mem_delete.mpr ⟨present,by simpa using same⟩) later isDue'
    · rw [if_neg isDue]
      obtain ⟨n,w',ends,kept,taken⟩ := ih detached distinct' fun name later => listed name (mem_cons_of_mem _ later)
      refine ⟨n,w',ends,kept,?_⟩
      intro q present named isDue'
      obtain head | later := mem_cons.mp named
      · rw [head] at isDue'
        exact absurd isDue' isDue
      · exact taken q present later isDue'
private theorem runRolloverCycle_ends (elapsed : s.lastRolloverAt.any (fun at_ => since now at_ < cfg.cooldown) = false)
    (enabled : cfg.detachThresholdMonths > 0) (prepared : prepare lib cfg now (monthsAhead cfg) s = some s') :
    ∃ value w', Ends perform (runRolloverCycle lib cfg now) ⟨s,[]⟩ value w' ∧ ∀ p ∈ s'.partitions, due lib cfg now p.name → p ∈ w'.detached := by
  let names := (s'.partitions.rows.map Partition.name).insertionSort (fun a b => a ≤ b)
  have same : names.Perm (s'.partitions.rows.map Partition.name) := perm_insertionSort ..
  have asked : perform ⟨s,[]⟩ .lastRolloverAt .done = some (.ok s.lastRolloverAt,⟨s,[]⟩) := rfl
  have listing : perform ⟨s',[]⟩ .listPartitions .done = some (.ok names,⟨s',[]⟩) := rfl
  obtain ⟨created,creates⟩ := @createPartitions_ends lib cfg now s' ⟨s,[]⟩ _ 0 prepared
  obtain ⟨detached,w',detaches,_,taken⟩ := @detachPartitions_ends lib cfg now ⟨s',[]⟩ names 0 (same.symm.nodup s'.partitions.unique)
    fun name listed => mem_map.mp (same.subset listed)
  have marked : perform w' (.markRolloverDone now) .done = some (none,{ w' with store := { w'.store with lastRolloverAt := some now } }) := rfl
  have rolls : Ends perform (doRollover lib cfg now) ⟨s,[]⟩ (.ok (created,detached)) w' := by
    refine creates.bind ?_
    dsimp only
    rw [if_pos enabled]
    exact ends_call_bind listing (detaches.bind ends_pure)
  refine ⟨.ok (some (created,detached)),{ w' with store := { w'.store with lastRolloverAt := some now } },ends_call_bind asked ?_,
    fun p listed isDue => taken p listed ?_ isDue⟩
  · dsimp only
    rw [if_neg (by simp [elapsed])]
    exact rolls.bind (ends_call_bind marked ends_pure)
  · exact same.symm.subset (mem_map_of_mem listed)
private theorem withDefaults_enabled (c : PartitionRolloverConfig) : (withDefaults c).detachThresholdMonths > 0 := by
  unfold withDefaults orDefault
  dsimp only
  split
  · decide
  · omega

end

/-- A cycle detaches only what may be detached, if and only if it is skipped or the partitions named after a month
    before the threshold cover nothing after the configured number of months, none of them when the detaching is
    disabled. -/
theorem rollover_spares_iff (lib : TimeLibrary) (c : PartitionRolloverConfig) (now : Int) (s : Store) :
    (∀ w, Runs lib c now s w → ∀ p ∈ w.detached, Spared c now s p) ↔ Careful lib c now s := by
  constructor
  · intro spares
    by_cases skipped : s.lastRolloverAt.any (fun at_ => since now at_ < (withDefaults c).cooldown) = true
    · obtain ⟨at_,last,soon⟩ := (Option.any_eq_true ..).mp skipped
      exact .inl ⟨at_,last,by simpa using soon⟩
    · refine .inr fun s' prepared p listed isDue => ?_
      obtain ⟨value,w',⟨replies,ran⟩,detached⟩ := runRolloverCycle_ends (by simpa using skipped) (withDefaults_enabled c) prepared
      exact spares w' ⟨replies,_,ran⟩ p (detached p listed isDue)
  · rintro careful w ⟨replies,p,ran⟩
    let fine (w : World) : Prop := ∀ p ∈ w.detached, Spared c now s p
    have safe : Detaches (Spared c now s) p (fun _ _ => True) w := safe_answers (runRolloverCycle_safe careful) ran
    have kept : fine w := safe.kept (fun _ _ holds => holds) (fun _ _ holds => holds.1)
    exact kept

def exactTime : TimeLibrary := ⟨fun month offset => monthStart month+offset,fun _ _ _ => rfl⟩
def march : Partition := ⟨text "statements_p2026_03",.range (some (monthStart (12*2026+2))) (some (monthStart (12*2026+3)))⟩
def marchOnly : Store := ⟨⟨[march],by decide⟩,[],none⟩
def lastOfMarch : Int := monthStart (12*2026+2)+30*dayLength
def detachAfter (months : Int) : PartitionRolloverConfig := { defaultPartitionRolloverConfig with detachThresholdMonths := months }

/-- With one month the current partition is detached on the 31st of March, as a month before is the 3rd of March; with
    zero months, two years later. -/
theorem current_month_detached :
    (∃ w, Runs exactTime (detachAfter 1) lastOfMarch marchOnly w ∧ w.detached = [march]) ∧ Covers marchOnly.partitions march lastOfMarch ∧
      (∃ w, Runs exactTime (detachAfter 0) (monthStart (12*2028+4)) marchOnly w ∧ w.detached = [march]) ∧
      ¬ ∀ lib c now s w, Runs lib c now s w → ∀ p ∈ w.detached, Spared c now s p := by
  obtain ⟨_,w,ran,early⟩ := answers_seen perform ⟨marchOnly,[]⟩ (List.replicate 6 .done)
    (runRolloverCycle exactTime (withDefaults (detachAfter 1)) lastOfMarch) (fun _ w => w.detached = [march]) (by decide +kernel)
  obtain ⟨_,w',ran',disabled⟩ := answers_seen perform ⟨marchOnly,[]⟩ (List.replicate 6 .done)
    (runRolloverCycle exactTime (withDefaults (detachAfter 0)) (monthStart (12*2028+4))) (fun _ w => w.detached = [march]) (by decide +kernel)
  refine ⟨⟨w,⟨_,_,ran⟩,early⟩,.inl (by decide +kernel),⟨w',⟨_,_,ran'⟩,disabled⟩,fun claim => ?_⟩
  have spared := claim _ _ _ _ w' ⟨_,_,ran'⟩ march (by rw [disabled]; exact mem_singleton_self march)
  exact spared.1 rfl

/-! ### The partition of a statement -/

/-- `Month.String`; January is 0. -/
def monthNames : List String :=
  ["January","February","March","April","May","June","July","August","September","October","November","December"]
/-- The name in `EnsureMonthPartition`, whose format breaks off before the verb of the month. -/
def ensureName (month : Int) : Bytes :=
  text "statements_p" ++ text (toString (month/12)) ++ text "_%!(NOVERB)%!(EXTRA time.Month=" ++
    text (monthNames.getD (month % 12).toNat "") ++ [0x29]
/-- What PostgreSQL reads as a name where there are no quotes. -/
def unquoted (name : Bytes) : Bool := name.all fun byte => (digitOf byte).isSome || byte = 0x5F || (0x61 ≤ byte && byte ≤ 0x7A)
/-- `EnsureMonthPartition` on a partitioned table. The month is that of the instant in its zone. The name stands in the
    CREATE TABLE without quotes; a statement with another text there is refused. -/
def ensureMonthPartition (instant offset : Int) (s : Store) : Option Store :=
  let month := monthOf (instant+offset)
  if (s.partitions.find (ensureName month)).isSome ∨ s.relations.contains (ensureName month) then some s
  else if unquoted (ensureName month) then s.create (ensureName month) (monthStart month) (monthStart (month+1))
  else none

/-- A partition contains the instant and has the name that the rollover gives to the partition of its month. -/
def Agrees (instant offset : Int) (s : Store) : Prop :=
  ∃ t p month, ensureMonthPartition instant offset s = some t ∧ t.partitions.find (ensureName (monthOf (instant+offset))) = some p ∧
    p.bounds = .range (some (monthStart month)) (some (monthStart (month+1))) ∧ p.bounds.contains instant = true ∧
    p.name = partitionName defaultPartitionRolloverConfig (monthStart month)

private theorem digitByte_ne : ∀ n < 10, digitByte n ≠ 0x29 := by decide
/-- Every name of the rollover ends in a digit, and every other name in a bracket. -/
theorem ensureName_ne (cfg : PartitionRolloverConfig) (month t : Int) : ensureName month ≠ partitionName cfg t := by
  intro same
  have last := congrArg List.getLast? same
  simp only [ensureName,partitionName,getLast?_append,getLast?_singleton,getLast?_cons_cons,Option.some_or,
    Option.some.injEq] at last
  exact digitByte_ne _ (Nat.mod_lt _ (by decide)) last.symm

theorem ensureName_quoted (month : Int) : unquoted (ensureName month) = false := by
  have percent : 0x25 ∈ text "_%!(NOVERB)%!(EXTRA time.Month=" := by decide +kernel
  exact all_eq_false.mpr ⟨0x25,by simp [ensureName,percent],by decide⟩

/-- At every instant, in every zone and state of the table, nothing is created and the two components do not agree. -/
theorem never_agrees (instant offset : Int) (s : Store) :
    (∀ t, ensureMonthPartition instant offset s = some t → t = s) ∧ ¬ Agrees instant offset s := by
  constructor
  · intro t ensured
    simp only [ensureMonthPartition,ensureName_quoted,Bool.false_eq_true,if_false] at ensured
    split at ensured <;> cases ensured
    rfl
  · rintro ⟨t,p,month,_,found,_,_,named⟩
    rw [(t.partitions.find_some.mp found).2] at named
    exact ensureName_ne _ _ _ named
/-- Half an hour into the first of February, an hour east of Greenwich: the statement is refused. Its range would have
    been February, while the instant is in January. -/
theorem february_refused :
    let instant := monthStart (12*2026+1)-1800*second
    ensureName (monthOf (instant+3600*second)) = text "statements_p2026_%!(NOVERB)%!(EXTRA time.Month=February)" ∧
      partitionName defaultPartitionRolloverConfig instant = text "statements_p2026_01" ∧
      ensureMonthPartition instant (3600*second) ⟨.empty,[],none⟩ = none ∧ ¬ Agrees instant (3600*second) ⟨.empty,[],none⟩ := by
  have refused : ensureMonthPartition (monthStart (12*2026+1)-1800*second) (3600*second) ⟨.empty,[],none⟩ = none := by
    simp [ensureMonthPartition,ensureName_quoted,Table.find,Table.empty]
  refine ⟨by decide +kernel,by decide +kernel,refused,?_⟩
  rintro ⟨t,_,_,ensured,_⟩
  cases refused.symm.trans ensured

end Stellabill.PartitionRollover

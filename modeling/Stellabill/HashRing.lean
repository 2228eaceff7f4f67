import Stellabill.ByteStrings
import Mathlib.Data.List.Sort

/-!
The consistent hash ring that maps tenants to partitions. Every partition has a
number of virtual nodes; a tenant belongs to the partition of the first node at or
after its own hash, going around the ring.
-/
namespace Stellabill.HashRing
open ByteStrings List

/-- `sort.Search`: the bounds of the binary search close in on the first index with the property. -/
def searchLoop (f : Nat → Bool) : Nat → Nat → Nat → Nat
  | 0, i, _ => i
  | fuel+1, i, j =>
    if i < j then
      let h := (i+j)/2
      if f h then searchLoop f fuel i h else searchLoop f fuel (h+1) j
    else i
def search (n : Nat) (f : Nat → Bool) : Nat := searchLoop f n 0 n

/-- `fnv.New32a` with the data written to it, and its sum. -/
def fnv32a (data : Bytes) : UInt32 := data.foldl (fun h byte => (h ^^^ byte.toUInt32)*16777619) 2166136261
def appendUint32 (buf : Bytes) (v : UInt32) : Bytes :=
  buf ++ [(v >>> 24).toUInt8,(v >>> 16).toUInt8,(v >>> 8).toUInt8,v.toUInt8]

/-- `ConsistentHashRing`. The map `ring` has its newest entries first. -/
structure ConsistentHashRing where
  ring : List (UInt32 × Int)
  sorted : List UInt32
  partitions : Nat
  replicas : Nat

def ConsistentHashRing.at (r : ConsistentHashRing) (position : UInt32) : Int :=
  ((r.ring.find? (fun entry => entry.1 = position)).map Prod.snd).getD 0

section
variable (hash : Bytes → UInt32)

def position (partition i : Nat) : UInt32 :=
  hash (appendUint32 (appendUint32 [] (UInt32.ofNat partition)) (UInt32.ofNat i))
def addPartition (r : ConsistentHashRing) (partition : Nat) : ConsistentHashRing :=
  (List.range r.replicas).foldl (fun r i =>
    { r with
      ring := (position hash partition i,(partition : Int)) :: r.ring
      sorted := r.sorted ++ [position hash partition i] }) r
def newConsistentHashRing (partitions replicas : Int) : ConsistentHashRing :=
  let partitions := if partitions ≤ 0 then 1 else partitions.toNat
  let replicas := if replicas ≤ 0 then 150 else replicas.toNat
  let r := (List.range partitions).foldl (addPartition hash) ⟨[],[],partitions,replicas⟩
  { r with sorted := r.sorted.insertionSort (fun a b => a ≤ b) }
def ConsistentHashRing.getPartition (r : ConsistentHashRing) (tenantID : String) : Int :=
  if r.sorted.isEmpty then 0
  else
    let h := hash (text tenantID)
    let idx := search r.sorted.length (fun i => h ≤ r.sorted[i]?.getD 0)
    r.at (r.sorted[if idx ≥ r.sorted.length then 0 else idx]?.getD 0)
end

variable {n : Nat} {f : Nat → Bool}

/-- The loop closes in on the first index: everything below `i` fails, everything from `j` on holds. -/
theorem searchLoop_spec (mono : ∀ a b, a ≤ b → b < n → f a = true → f b = true) {fuel i j : Nat} (enough : j-i ≤ fuel) (ordered : i ≤ j)
    (within : j ≤ n) (below : ∀ k, k < i → f k = false) (above : ∀ k, j ≤ k → k < n → f k = true) :
    searchLoop f fuel i j ≤ n ∧ (∀ k, k < searchLoop f fuel i j → f k = false) ∧ ∀ k, searchLoop f fuel i j ≤ k → k < n → f k = true := by
  induction fuel generalizing i j with
  | zero =>
    obtain rfl : i = j := by omega
    exact ⟨within,below,above⟩
  | succ fuel ih =>
    rw [searchLoop]
    by_cases more : i < j
    · rw [if_pos more]
      by_cases holds : f ((i+j)/2) = true
      · rw [if_pos holds]
        refine ih (by omega) (by omega) (by omega) below ?_
        intro k from_ inside
        exact mono _ k from_ inside holds
      · rw [if_neg holds]
        refine ih (by omega) (by omega) within ?_ above
        intro k before
        rw [Bool.eq_false_iff]
        exact fun later => holds (mono k _ (by omega) (by omega) later)
    · rw [if_neg more]
      obtain rfl : i = j := by omega
      exact ⟨within,below,above⟩
theorem search_spec (mono : ∀ a b, a ≤ b → b < n → f a = true → f b = true) :
    search n f ≤ n ∧ (∀ k, k < search n f → f k = false) ∧ ∀ k, search n f ≤ k → k < n → f k = true :=
  searchLoop_spec mono (by omega) (by omega) (by omega) (by omega) (by omega)

section
variable {α : Type} [LE α]

/-- The first of the positions at or after `h`; past the last one it is the first of all. -/
structure Next (positions : List α) (h p : α) : Prop where
  member : p ∈ positions
  first : (h ≤ p ∧ ∀ q ∈ positions, h ≤ q → p ≤ q) ∨ ((∀ q ∈ positions, ¬ h ≤ q) ∧ ∀ q ∈ positions, p ≤ q)

variable {positions : List α}

theorem Next.subset {fewer : List α} {h p : α} (next : Next positions h p) (fewer_subset : fewer ⊆ positions) (here : p ∈ fewer) : Next fewer h p := by
  refine ⟨here,?_⟩
  rcases next.first with ⟨after,least⟩ | ⟨before,least⟩
  · exact .inl ⟨after,fun q member => least q (fewer_subset member)⟩
  · exact .inr ⟨fun q member => before q (fewer_subset member),fun q member => least q (fewer_subset member)⟩
theorem Next.unique {h p q : α} (antisymm : ∀ a b : α, a ≤ b → b ≤ a → a = b) (next : Next positions h p) (next' : Next positions h q) : p = q := by
  rcases next.first with ⟨after,least⟩ | ⟨before,least⟩
  · rcases next'.first with ⟨after',least'⟩ | ⟨before',_⟩
    · exact antisymm p q (least q next'.member after') (least' p next.member after)
    · exact absurd after (before' p next.member)
  · rcases next'.first with ⟨after',_⟩ | ⟨_,least'⟩
    · exact absurd after' (before q next'.member)
    · exact antisymm p q (least q next'.member) (least' p next.member)
end

/-- What `GetPartition` looks up in the map is the next position. -/
theorem getPartition_next (hash : Bytes → UInt32) (r : ConsistentHashRing) (tenantID : String)
    (sorted : r.sorted.Pairwise (fun a b => a ≤ b)) (some_ : r.sorted ≠ []) :
    ∃ p, Next r.sorted (hash (text tenantID)) p ∧ r.getPartition hash tenantID = r.at p := by
  set h := hash (text tenantID) with named
  have size : 0 < r.sorted.length := length_pos_iff.mpr some_
  have ordered : ∀ i j, i ≤ j → j < r.sorted.length → r.sorted[i]?.getD 0 ≤ r.sorted[j]?.getD 0 := by
    intro i j le inside
    rw [getElem?_eq_getElem inside,getElem?_eq_getElem (by omega)]
    rcases Nat.lt_or_eq_of_le le with lt | rfl
    · exact pairwise_iff_getElem.mp sorted i j (by omega) inside lt
    · exact UInt32.le_refl _
  have mono : ∀ a b, a ≤ b → b < r.sorted.length → decide (h ≤ r.sorted[a]?.getD 0) = true → decide (h ≤ r.sorted[b]?.getD 0) = true := by
    intro a b le inside holds
    exact decide_eq_true (UInt32.le_trans (of_decide_eq_true holds) (ordered a b le inside))
  obtain ⟨bound,below,above⟩ := search_spec mono
  set idx := search r.sorted.length (fun i => decide (h ≤ r.sorted[i]?.getD 0)) with found
  have entry : ∀ q ∈ r.sorted, ∃ i, i < r.sorted.length ∧ r.sorted[i]?.getD 0 = q := by
    intro q member
    obtain ⟨i,inside,same⟩ := mem_iff_getElem.mp member
    exact ⟨i,inside,by rw [getElem?_eq_getElem inside]; exact same⟩
  have member : ∀ i, i < r.sorted.length → r.sorted[i]?.getD 0 ∈ r.sorted := by
    intro i inside
    rw [getElem?_eq_getElem inside]
    exact getElem_mem inside
  have unfolded : r.getPartition hash tenantID = r.at (r.sorted[if idx ≥ r.sorted.length then 0 else idx]?.getD 0) := by
    rw [ConsistentHashRing.getPartition,if_neg (by simpa using some_)]
  refine ⟨_,?_,unfolded⟩
  by_cases past : idx ≥ r.sorted.length
  · rw [if_pos past]
    refine ⟨member 0 size,.inr ⟨?_,?_⟩⟩
    · intro q inside
      obtain ⟨i,lt,rfl⟩ := entry q inside
      exact of_decide_eq_false (below i (by omega))
    · intro q inside
      obtain ⟨i,lt,rfl⟩ := entry q inside
      exact ordered 0 i (by omega) lt
  · rw [if_neg past]
    have inside : idx < r.sorted.length := by omega
    refine ⟨member idx inside,.inl ⟨of_decide_eq_true (above idx (Nat.le_refl _) inside),?_⟩⟩
    intro q here after
    obtain ⟨i,lt,rfl⟩ := entry q here
    refine ordered idx i ?_ lt
    by_contra before
    exact absurd after (of_decide_eq_false (below i (by omega)))

/-! ### One more partition -/

section
variable {hash : Bytes → UInt32} {replicas n : Nat} {p : UInt32}

def nodes (hash : Bytes → UInt32) (replicas partition : Nat) : List UInt32 := (List.range replicas).map (position hash partition)
/-- The positions of all nodes of the first `n` partitions, in the order they are added. -/
def positions (hash : Bytes → UInt32) (replicas n : Nat) : List UInt32 := (List.range n).flatMap (nodes hash replicas)
def entries (hash : Bytes → UInt32) (replicas : Nat) : Nat → List (UInt32 × Int)
  | 0 => []
  | n+1 => ((nodes hash replicas n).map (fun p => (p,(n : Int)))).reverse ++ entries hash replicas n

private theorem addPartition_eq (r : ConsistentHashRing) (partition : Nat) : addPartition hash r partition =
    { r with
      ring := ((nodes hash r.replicas partition).map (fun p => (p,(partition : Int)))).reverse ++ r.ring
      sorted := r.sorted ++ nodes hash r.replicas partition } := by
  -- the loop adds one node after the other, to the front of the map and to the end of the positions
  have loop : ∀ (indices : List Nat) (r : ConsistentHashRing), indices.foldl (fun r i =>
      { r with
        ring := (position hash partition i,(partition : Int)) :: r.ring
        sorted := r.sorted ++ [position hash partition i] }) r =
      { r with
        ring := ((indices.map (position hash partition)).map (fun p => (p,(partition : Int)))).reverse ++ r.ring
        sorted := r.sorted ++ indices.map (position hash partition) } := by
    intro indices
    induction indices with
    | nil => simp
    | cons i rest ih =>
      intro r
      rw [foldl_cons,ih]
      simp
  exact loop (List.range r.replicas) r
private theorem addPartitions_eq (partitions : Nat) : (List.range n).foldl (addPartition hash) ⟨[],[],partitions,replicas⟩ =
    ⟨entries hash replicas n,positions hash replicas n,partitions,replicas⟩ := by
  induction n with
  | zero => rfl
  | succ n ih =>
    rw [range_succ,foldl_append,ih,foldl_cons,addPartition_eq]
    simp [entries,positions,range_succ]

variable {partitions count : Int}

theorem newConsistentHashRing_eq (positive : 1 ≤ partitions) :
    newConsistentHashRing hash partitions count =
      let replicas := if count ≤ 0 then 150 else count.toNat
      ⟨entries hash replicas partitions.toNat,(positions hash replicas partitions.toNat).insertionSort (fun a b => a ≤ b),
        partitions.toNat,replicas⟩ := by
  rw [newConsistentHashRing,if_neg (by omega)]
  simp only [addPartitions_eq]

def valueAt (map : List (UInt32 × Int)) (p : UInt32) : Int := ((map.find? (fun entry => entry.1 = p)).map Prod.snd).getD 0

/-- A node of the last partition belongs to it, also where it falls on a node of another one. -/
theorem valueAt_new (new : p ∈ nodes hash replicas n) : valueAt (entries hash replicas (n+1)) p = n := by
  have added : (p,(n : Int)) ∈ ((nodes hash replicas n).map (fun p => (p,(n : Int)))).reverse := by
    simpa using new
  have some_ : (((nodes hash replicas n).map (fun p => (p,(n : Int)))).reverse.find? (fun entry => entry.1 = p)).isSome = true :=
    find?_isSome.mpr ⟨(p,(n : Int)),added,decide_eq_true rfl⟩
  obtain ⟨entry,found⟩ := Option.isSome_iff_exists.mp some_
  have last : entry.2 = n := by
    obtain ⟨q,_,rfl⟩ := mem_map.mp (mem_reverse.mp (mem_of_find?_eq_some found))
    rfl
  rw [valueAt,entries,find?_append,found]
  exact last
theorem valueAt_old (old : p ∉ nodes hash replicas n) : valueAt (entries hash replicas (n+1)) p = valueAt (entries hash replicas n) p := by
  have absent : ((nodes hash replicas n).map (fun p => (p,(n : Int)))).reverse.find? (fun entry => entry.1 = p) = none := by
    refine find?_eq_none.mpr ?_
    intro entry member same
    obtain ⟨q,node,rfl⟩ := mem_map.mp (mem_reverse.mp member)
    exact old (of_decide_eq_true same ▸ node)
  rw [valueAt,entries,find?_append,absent,Option.none_or,valueAt]
theorem valueAt_range (n : Nat) (p : UInt32) : 0 ≤ valueAt (entries hash replicas (n+1)) p ∧ valueAt (entries hash replicas (n+1)) p ≤ n := by
  induction n with
  | zero =>
    by_cases new : p ∈ nodes hash replicas 0
    · simp [valueAt_new new]
    · rw [valueAt_old new]
      exact ⟨Int.le_refl _,Int.le_refl _⟩
  | succ n ih =>
    by_cases new : p ∈ nodes hash replicas (n+1)
    · rw [valueAt_new new]
      omega
    · rw [valueAt_old new]
      omega

variable (hash : Bytes → UInt32)
private theorem getPartition_eq (count : Int) (positive : 1 ≤ partitions) (tenantID : String) :
    ∃ p, Next (positions hash (if count ≤ 0 then 150 else count.toNat) partitions.toNat) (hash (text tenantID)) p ∧
      (newConsistentHashRing hash partitions count).getPartition hash tenantID =
        valueAt (entries hash (if count ≤ 0 then 150 else count.toNat) partitions.toNat) p := by
  rw [newConsistentHashRing_eq positive]
  set replicas := if count ≤ 0 then 150 else count.toNat with counted
  have several : 0 < replicas := by
    rw [counted]
    split
    · decide
    · omega
  have some_ : (positions hash replicas partitions.toNat).insertionSort (fun a b => a ≤ b) ≠ [] := by
    intro none_
    have empty : positions hash replicas partitions.toNat = [] := by
      have same := perm_insertionSort (fun a b => a ≤ b) (positions hash replicas partitions.toNat)
      rw [none_] at same
      exact nil_perm.mp same
    have here : position hash 0 0 ∈ positions hash replicas partitions.toNat := by
      refine mem_flatMap.mpr ⟨0,mem_range.mpr (by omega),?_⟩
      exact mem_map.mpr ⟨0,mem_range.mpr several,rfl⟩
    rw [empty] at here
    cases here
  obtain ⟨p,next,same⟩ := getPartition_next hash
    ⟨entries hash replicas partitions.toNat,(positions hash replicas partitions.toNat).insertionSort (fun a b => a ≤ b),
      partitions.toNat,replicas⟩ tenantID (pairwise_insertionSort _ _) some_
  have member : ∀ q, q ∈ (positions hash replicas partitions.toNat).insertionSort (fun a b => a ≤ b) ↔
      q ∈ positions hash replicas partitions.toNat := fun q => mem_insertionSort _
  exact ⟨p,next.subset (fun q inside => (member q).mpr inside) ((member p).mp next.member),same⟩
/-- One more partition takes tenants only to itself. -/
theorem getPartition_monotone (partitions count : Int) (tenantID : String) (positive : 1 ≤ partitions) :
    ((newConsistentHashRing hash (partitions+1) count).getPartition hash tenantID = partitions ∨
      (newConsistentHashRing hash (partitions+1) count).getPartition hash tenantID =
        (newConsistentHashRing hash partitions count).getPartition hash tenantID) ∧
    0 ≤ (newConsistentHashRing hash (partitions+1) count).getPartition hash tenantID ∧
    (newConsistentHashRing hash (partitions+1) count).getPartition hash tenantID ≤ partitions := by
  obtain ⟨p,next,same⟩ := getPartition_eq hash count positive tenantID
  obtain ⟨p',next',same'⟩ := getPartition_eq hash count (show 1 ≤ partitions+1 by omega) tenantID
  rw [same,same']
  obtain ⟨n,rfl⟩ := Int.eq_ofNat_of_zero_le (show 0 ≤ partitions by omega)
  have more : ((n : Int)+1).toNat = n+1 := by omega
  rw [Int.toNat_natCast] at next ⊢
  rw [more] at next' ⊢
  set replicas := if count ≤ 0 then 150 else count.toNat
  refine ⟨?_,valueAt_range n p'⟩
  by_cases new : p' ∈ nodes hash replicas n
  · exact .inl (valueAt_new new)
  · right
    have split_ : positions hash replicas (n+1) = positions hash replicas n ++ nodes hash replicas n := by
      simp [positions,range_succ]
    have old : p' ∈ positions hash replicas n := by
      have member := next'.member
      rw [split_] at member
      exact (mem_append.mp member).resolve_right new
    have still : Next (positions hash replicas n) (hash (text tenantID)) p' :=
      next'.subset (by rw [split_]; exact subset_append_left _ _) old
    rw [valueAt_old new,still.unique (fun _ _ => UInt32.le_antisymm) next]
theorem getPartition_monotone_acme : 1 ≤ (2 : Int) ∧ ((newConsistentHashRing fnv32a 3 4).getPartition fnv32a "acme" = 2 ∨
      (newConsistentHashRing fnv32a 3 4).getPartition fnv32a "acme" = (newConsistentHashRing fnv32a 2 4).getPartition fnv32a "acme") ∧
    0 ≤ (newConsistentHashRing fnv32a 3 4).getPartition fnv32a "acme" ∧
    (newConsistentHashRing fnv32a 3 4).getPartition fnv32a "acme" ≤ 2 :=
  ⟨by decide,getPartition_monotone fnv32a 2 4 "acme" (by decide)⟩
end

end Stellabill.HashRing

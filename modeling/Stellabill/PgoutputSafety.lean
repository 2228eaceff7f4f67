import Stellabill.PgoutputFraming

/-!
The decoder on arbitrary bytes. No index and no slice is out of range, and every turn of
the loop of `decodeWAL` moves the offset on. Positions are plain numbers: a length is below
2^32 and an offset passes the end of the data by at most ten.
-/
namespace Stellabill.PgoutputSafety
open ByteStrings Pgoutput PgoutputFraming List

section
variable {data : Bytes} {pos : Nat}

section
variable (data : Bytes) (pos : Nat)
theorem le_nulFrom : pos ≤ nulFrom data pos := Nat.le_add_right ..
theorem nulFrom_le : nulFrom data pos ≤ max pos data.length := by
  have short := (takeWhile_sublist (l := data.drop pos) (fun byte => decide (byte ≠ 0))).length_le
  rw [length_drop] at short
  rw [nulFrom]
  omega
theorem safe_fail {α : Type} {good : α → Prop} (message : String) : Safe (fail message) good := trivial

private theorem take_nulFrom : (data.take (nulFrom data pos)).drop pos = (data.drop pos).takeWhile (fun byte => decide (byte ≠ 0)) := by
  rw [nulFrom,drop_take,Nat.add_sub_cancel_left]
  exact (prefix_iff_eq_take.mp ( takeWhile_prefix _)).symm
end
/-- The loop stays inside of the message and adds columns; the name of the first goes up to the next NUL. -/
theorem decodeColumns_safe (count : Nat) (cols : List ColMeta) (inside : pos ≤ data.length) :
    Safe (decodeColumns data count pos cols) (fun read => pos ≤ read.2 ∧ read.2 ≤ data.length ∧
      ∃ more, read.1 = cols ++ more ∧ ∀ c, more.head? = some c → c.name = (data.drop pos).takeWhile (fun byte => decide (byte ≠ 0))) := by
  have noMore : ∃ more, cols = cols ++ more ∧ ∀ c : ColMeta, more.head? = some c →
      c.name = (data.drop pos).takeWhile (fun byte => decide (byte ≠ 0)) := ⟨[],by simp,by simp⟩
  induction count generalizing pos cols with
  | zero => exact safe_pure ⟨Nat.le_refl _,inside,noMore⟩
  | succ count ih =>
    have after := le_nulFrom data pos
    have within := nulFrom_le data pos
    rw [Nat.max_eq_right inside] at within
    refine safe_ite (fun _ => safe_pure ⟨Nat.le_refl _,inside,noMore⟩) fun _ => ?_
    refine safe_ite (fun _ => safe_pure ⟨after,within,noMore⟩) fun unterminated => ?_
    refine (safe_slice after within).bind fun name named => ?_
    refine safe_ite (fun _ => safe_pure ⟨by omega,by omega,noMore⟩) fun long => ?_
    refine (safe_slice (by omega) (by omega)).bind fun oid _ => ?_
    refine safe_ite (fun _ => safe_pure ⟨by omega,by omega,noMore⟩) fun flagged => ?_
    refine (safe_index (by omega)).bind fun flags _ => ?_
    refine (ih _ (by omega) ⟨[],by simp,by simp⟩).mono fun read bounds => ⟨by omega,bounds.2.1,?_⟩
    obtain ⟨more,extends_,_⟩ := bounds.2.2
    refine ⟨_ :: more,by rw [extends_,append_assoc,singleton_append],?_⟩
    rintro c ⟨⟩
    rw [← take_nulFrom,named]
theorem decodeRelation_safe (data : Bytes) : Safe (decodeRelation data) (fun read => 1 ≤ read.2 ∧ read.2 ≤ data.length) := by
  refine safe_ite (fun _ => safe_fail _) fun long => ?_
  refine (safe_slice (by omega) (by omega)).bind fun relID _ => ?_
  have afterSchema := le_nulFrom data 5
  refine safe_ite (fun _ => safe_fail _) fun schema => ?_
  refine (safe_slice afterSchema (by omega)).bind fun namespace_ _ => ?_
  have afterName := le_nulFrom data (nulFrom data 5+1)
  refine safe_ite (fun _ => safe_fail _) fun named => ?_
  refine (safe_slice afterName (by omega)).bind fun name _ => ?_
  refine safe_ite (fun _ => safe_fail _) fun identity => ?_
  refine safe_ite (fun _ => safe_fail _) fun counted => ?_
  refine (safe_slice (by omega) (by omega)).bind fun colCount _ => ?_
  refine (decodeColumns_safe _ _ (by omega)).bind fun read bounds => ?_
  exact safe_pure ⟨by omega,bounds.2.1⟩

private theorem decodeValues_safe (count : Nat) (columns : List ColMeta) (i : Nat) (row : Row) (inside : pos ≤ data.length) :
    Safe (decodeValues data count columns i pos row) (fun read => pos ≤ read.2 ∧ read.2 ≤ data.length) := by
  induction count generalizing columns i pos row with
  | zero => exact safe_pure ⟨Nat.le_refl _,inside⟩
  | succ count ih =>
    cases columns with
    | nil => exact safe_pure ⟨Nat.le_refl _,inside⟩
    | cons col columns =>
      have later : ∀ {pos' : Nat} {row : Row}, pos ≤ pos' → pos' ≤ data.length →
          Safe (decodeValues data count columns (i+1) pos' row) (fun read => pos ≤ read.2 ∧ read.2 ≤ data.length) :=
        fun after within => (ih _ _ _ within).mono fun read bounds => ⟨Nat.le_trans after bounds.1,bounds.2⟩
      refine safe_ite (fun _ => safe_pure ⟨Nat.le_refl _,inside⟩) fun more => ?_
      refine (safe_index (by omega)).bind fun marker _ => ?_
      refine safe_ite (fun _ => later (by omega) (by omega)) fun _ => safe_ite (fun _ => ?_) fun _ => safe_fail _
      refine safe_ite (fun _ => safe_pure ⟨by omega,by omega⟩) fun long => ?_
      refine (safe_slice (by omega) (by omega)).bind fun valLen _ => ?_
      refine safe_ite (fun _ => safe_pure ⟨by omega,by omega⟩) fun whole => ?_
      refine (safe_slice (by omega) (by omega)).bind fun value _ => ?_
      exact later (by omega) (by omega)
theorem decodeTuple_safe (data : Bytes) (columns : List ColMeta) : Safe (decodeTuple data columns) (fun read => read.2 ≤ data.length) := by
  refine safe_ite (fun _ => safe_fail _) fun long => ?_
  refine (safe_slice (by omega) (by omega)).bind fun colCount _ => ?_
  exact (decodeValues_safe _ _ _ _ (by omega)).mono fun read bounds => bounds.2
variable (columns : List ColMeta)
theorem rest_safe {rest : Bytes} (same : rest = (data.take data.length).drop pos) (inside : pos ≤ data.length) :
    Safe (decodeTuple rest columns) (fun read => pos+read.2 ≤ data.length) := by
  refine (decodeTuple_safe rest columns).mono fun read bound => ?_
  rw [same,take_length,length_drop] at bound
  omega
theorem lookupRelation_safe (relations : Relations) (relID : Nat) : Safe (lookupRelation relations relID) (fun _ => True) := by
  rw [lookupRelation]
  split
  · exact safe_pure trivial
  · exact safe_fail _
theorem decodeInsert_safe (relations : Relations) (data : Bytes) :
    Safe (decodeInsert relations data) (fun read => 1 ≤ read.2 ∧ read.2 ≤ data.length) := by
  refine safe_ite (fun _ => safe_fail _) fun long => ?_
  refine (safe_slice (by omega) (by omega)).bind fun relID _ => ?_
  refine (safe_index (by omega)).bind fun marker _ => ?_
  refine safe_ite (fun _ => safe_fail _) fun _ => ?_
  refine (lookupRelation_safe relations _).bind fun rel _ => ?_
  refine (safe_slice (by omega) (by omega)).bind fun rest same => ?_
  refine (rest_safe rel.columns same (by omega)).bind fun read bound => ?_
  exact safe_pure ⟨by omega,bound⟩
theorem optional_safe (mark : UInt8 → Prop) [DecidablePred mark] (inside : pos ≤ data.length) :
    Safe (do
      if pos < data.length then
        let marker ← index data pos
        if mark marker then
          let (row,n) ← decodeTuple (← slice data (pos+1) data.length) columns
          return (some row,pos+(1+n))
        else return (none,pos)
      else return (none,pos)) (fun read => pos ≤ read.2 ∧ read.2 ≤ data.length) := by
  refine safe_ite (fun more => ?_) fun _ => safe_pure ⟨Nat.le_refl _,inside⟩
  refine (safe_index more).bind fun marker _ => ?_
  refine safe_ite (fun _ => ?_) fun _ => safe_pure ⟨Nat.le_refl _,inside⟩
  refine (safe_slice (by omega) (by omega)).bind fun rest same => ?_
  refine (rest_safe columns same (by omega)).bind fun read bound => ?_
  exact safe_pure ⟨by omega,by omega⟩
theorem decodeUpdate_safe (relations : Relations) (data : Bytes) :
    Safe (decodeUpdate relations data) (fun read => 1 ≤ read.2 ∧ read.2 ≤ data.length) := by
  refine safe_ite (fun _ => safe_fail _) fun long => ?_
  refine (safe_slice (by omega) (by omega)).bind fun relID _ => ?_
  refine (lookupRelation_safe relations _).bind fun rel _ => ?_
  refine (optional_safe rel.columns _ (by omega)).bind fun old bounds => ?_
  refine (optional_safe rel.columns _ bounds.2).bind fun new bounds' => ?_
  exact safe_pure ⟨by omega,bounds'.2⟩
theorem decodeDelete_safe (relations : Relations) (data : Bytes) :
    Safe (decodeDelete relations data) (fun read => 1 ≤ read.2 ∧ read.2 ≤ data.length) := by
  refine safe_ite (fun _ => safe_fail _) fun long => ?_
  refine (safe_slice (by omega) (by omega)).bind fun relID _ => ?_
  refine (lookupRelation_safe relations _).bind fun rel _ => ?_
  refine (optional_safe rel.columns _ (by omega)).bind fun old bounds => ?_
  exact safe_pure ⟨by omega,bounds.2⟩
end

/-! ### The stream -/

/-- A turn does not panic, and takes at least one byte and at most ten more than there are. -/
def Advances (remaining : Bytes) (m : Message) : Prop :=
  m ≠ .failed .panic ∧ ∀ taken, width m = some taken → 1 ≤ taken ∧ taken ≤ remaining.length+10

section
variable {remaining : Bytes}

private theorem advances_cut : Advances remaining .cut := ⟨by simp,by simp [width]⟩
theorem advances_skipped {taken : Nat} (one : 1 ≤ taken) (few : taken ≤ remaining.length+10) : Advances remaining (.skipped taken) := by
  refine ⟨by simp,?_⟩
  rintro _ ⟨⟩
  exact ⟨one,few⟩
private theorem advances_ofResult {α : Type} {kind : String} {ok : α × Nat → Message} {result : Result (α × Nat)}
    (safe : Safe result (fun read => 1 ≤ read.2 ∧ read.2 ≤ remaining.length)) (width_ok : ∀ read, width (ok read) = some read.2) :
    Advances remaining (.ofResult kind ok result) := by
  match result,safe with
  | .ok read,bounds =>
    refine ⟨fun failed => ?_,fun taken takes => ?_⟩
    · have none : width (ok read) = none := by
        rw [show ok read = .failed .panic from failed]
        rfl
      rw [width_ok] at none
      cases none
    · obtain rfl : read.2 = taken := Option.some.inj ((width_ok read).symm.trans takes)
      exact ⟨bounds.1,Nat.le_add_right_of_le bounds.2⟩
  | .error (.error _),_ => exact ⟨by simp [Message.ofResult],by simp [Message.ofResult,width]⟩
theorem decodeMessage_advances (relations : Relations) (remaining : Bytes) : Advances remaining (decodeMessage relations remaining) := by
  by_cases empty : remaining = []
  · rw [empty]
    exact advances_cut
  have more : 1 ≤ remaining.length := length_pos_of_ne_nil empty
  rw [decodeMessage]
  split
  · exact advances_cut
  · split
    · exact advances_cut
    · exact advances_skipped (by omega) (by omega)
  · by_cases long : remaining.length < 26
    · rw [if_pos long]
      exact advances_cut
    · have read : slice remaining 2 10 = .ok ((remaining.take 10).drop 2) := if_pos ⟨by omega,by omega⟩
      rw [if_neg long,read]
      refine ⟨by simp,?_⟩
      rintro _ ⟨⟩
      omega
  · exact advances_ofResult (decodeRelation_safe remaining) (fun _ => rfl)
  · exact advances_ofResult (decodeInsert_safe relations remaining) (fun _ => rfl)
  · exact advances_ofResult (decodeUpdate_safe relations remaining) (fun _ => rfl)
  · exact advances_ofResult (decodeDelete_safe relations remaining) (fun _ => rfl)
  · have within := nulFrom_le remaining 9
    exact advances_skipped (by omega) (by omega)
  · have schema := nulFrom_le remaining 5
    have name := nulFrom_le remaining (nulFrom remaining 5+1)
    have bound : (if (if 5 < remaining.length then nulFrom remaining 5+1 else 5) < remaining.length then
        nulFrom remaining (if 5 < remaining.length then nulFrom remaining 5+1 else 5)+1
        else if 5 < remaining.length then nulFrom remaining 5+1 else 5) ≤ remaining.length+9 := by
      by_cases long : 5 < remaining.length
      · rw [if_pos long]
        split <;> omega
      · rw [if_neg long,if_neg long]
        omega
    exact advances_skipped (by omega) (by omega)
  · exact advances_skipped more (by omega)

structure Loop where
  offset : Nat
  relations : Relations
  changes : List Change
  maxLSN : Nat

/-- How a turn of the loop ends: the next one follows, or the function returns. -/
inductive Turn
  | again (next : Loop)
  | returns (relations : Relations) (result : Result (List Change × Nat))

def turn (walData : Bytes) (baseLSN : Nat) (l : Loop) : Turn :=
  if l.offset < walData.length then
    match slice walData l.offset walData.length with
    | .error failure => .returns l.relations (.error failure)
    | .ok remaining =>
      match decodeMessage l.relations remaining with
      | .cut => .returns l.relations (.ok (l.changes,l.maxLSN))
      | .failed failure => .returns l.relations (.error failure)
      | .skipped width => .again { l with offset := l.offset+width }
      | .commit lsn width => .again { l with offset := l.offset+width, maxLSN := max l.maxLSN lsn }
      | .relation rel width =>
        .again { l with offset := l.offset+width, relations := Function.update l.relations rel.id (some rel) }
      | .change change width => .again { l with offset := l.offset+width, changes := l.changes ++ [change] }
  else .returns l.relations (.ok (l.changes,if l.maxLSN = 0 then baseLSN else l.maxLSN))

end

section
variable {walData : Bytes} {baseLSN : Nat} {l l' : Loop}

theorem slice_from {offset : Nat} (inside : offset ≤ walData.length) : slice walData offset walData.length = .ok (walData.drop offset) := by
  rw [slice,if_pos ⟨inside,Nat.le_refl _⟩,take_length]
theorem turn_again (again : turn walData baseLSN l = .again l') :
    l.offset < walData.length ∧ ∃ taken, width (decodeMessage l.relations (walData.drop l.offset)) = some taken ∧
      l' = ⟨l.offset+taken,announced l.relations (decodeMessage l.relations (walData.drop l.offset)),
        l.changes ++ changesOf (decodeMessage l.relations (walData.drop l.offset)),
        max l.maxLSN (lsnOf (decodeMessage l.relations (walData.drop l.offset)))⟩ := by
  by_cases more : l.offset < walData.length
  · refine ⟨more,?_⟩
    rw [turn,if_pos more,slice_from (Nat.le_of_lt more)] at again
    cases message : decodeMessage l.relations (walData.drop l.offset) with
    | cut | failed _ => simp [message] at again
    | skipped taken | commit _ taken | relation _ taken | change _ taken =>
      simp only [message,Turn.again.injEq] at again
      exact ⟨taken,rfl,by simp [← again,announced,changesOf,lsnOf]⟩
  · rw [turn,if_neg more] at again
    cases again

variable {relations : Relations} {result : Result (List Change × Nat)}

theorem turn_returns (returns : turn walData baseLSN l = .returns relations result) : result ≠ .error .panic ∧
      ∀ fuel, decodeLoop baseLSN (fuel+1) l.relations (walData.drop l.offset) l.changes l.maxLSN = (relations,result) := by
  by_cases more : l.offset < walData.length
  · have left : walData.drop l.offset ≠ [] := mt drop_eq_nil_iff.mp (Nat.not_le_of_lt more)
    have safe := (decodeMessage_advances l.relations (walData.drop l.offset)).1
    rw [turn,if_pos more,slice_from (Nat.le_of_lt more)] at returns
    cases message : decodeMessage l.relations (walData.drop l.offset) with
    | cut =>
      simp only [message,Turn.returns.injEq] at returns
      obtain ⟨rfl,rfl⟩ := returns
      exact ⟨by simp,fun fuel => by rw [decodeLoop,if_neg left,message]⟩
    | failed failure =>
      simp only [message,Turn.returns.injEq] at returns
      obtain ⟨rfl,rfl⟩ := returns
      refine ⟨?_,fun fuel => by rw [decodeLoop,if_neg left,message]⟩
      rintro ⟨⟩
      exact safe message
    | skipped _ | commit _ _ | relation _ _ | change _ _ => simp [message] at returns
  · rw [turn,if_neg more] at returns
    obtain ⟨rfl,rfl⟩ := returns
    refine ⟨by simp,fun fuel => ?_⟩
    rw [drop_eq_nil_of_le (by omega),decodeLoop_end]
theorem turn_advances (again : turn walData baseLSN l = .again l') : l.offset < l'.offset ∧ l'.offset ≤ walData.length+10 := by
  obtain ⟨more,taken,takes,rfl⟩ := turn_again again
  obtain ⟨one,few⟩ := (decodeMessage_advances l.relations (walData.drop l.offset)).2 taken takes
  rw [length_drop] at few
  show l.offset < l.offset+taken ∧ l.offset+taken ≤ walData.length+10
  omega

def loop (walData : Bytes) (baseLSN : Nat) (l : Loop) : Relations × Result (List Change × Nat) :=
  match _again : turn walData baseLSN l with
  | .again next => loop walData baseLSN next
  | .returns relations result => (relations,result)
termination_by walData.length-l.offset
decreasing_by
  have advances := turn_advances _again
  have more := (turn_again _again).1
  omega

theorem loop_again (again : turn walData baseLSN l = .again l') : loop walData baseLSN l = loop walData baseLSN l' := by
  rw [loop]
  split
  · rename_i next turned
    obtain rfl : next = l' := Turn.again.inj (turned.symm.trans again)
    rfl
  · rename_i turned
    cases turned.symm.trans again
theorem loop_returns (returns : turn walData baseLSN l = .returns relations result) : loop walData baseLSN l = (relations,result) := by
  rw [loop]
  split
  · rename_i turned
    cases turned.symm.trans returns
  · rename_i turned
    cases turned.symm.trans returns
    rfl
private theorem decodeLoop_loop {fuel : Nat} (enough : walData.length-l.offset ≤ fuel) :
    decodeLoop baseLSN fuel l.relations (walData.drop l.offset) l.changes l.maxLSN = loop walData baseLSN l := by
  induction fuel generalizing l with
  | zero =>
    have returns : turn walData baseLSN l = .returns l.relations (.ok (l.changes,if l.maxLSN = 0 then baseLSN else l.maxLSN)) :=
      if_neg (by omega)
    rw [loop_returns returns,decodeLoop]
  | succ fuel ih =>
    cases turned : turn walData baseLSN l with
    | again next =>
      have advances := (turn_advances turned).1
      obtain ⟨more,taken,takes,rfl⟩ := turn_again turned
      have left : walData.drop l.offset ≠ [] := mt drop_eq_nil_iff.mp (Nat.not_le_of_lt more)
      rw [loop_again turned,← ih (by omega),decodeLoop_turn left rfl takes,drop_drop]
    | returns relations result => rw [loop_returns turned,(turn_returns turned).2]
private theorem decodeWAL_loop (relations : Relations) (walData : Bytes) (baseLSN : Nat) :
    decodeWAL relations walData baseLSN = loop walData baseLSN ⟨0,relations,[],0⟩ :=
  decodeLoop_loop (l := ⟨0,relations,[],0⟩) (Nat.sub_le ..)
private theorem loop_ne_panic (walData : Bytes) (baseLSN : Nat) (l : Loop) : (loop walData baseLSN l).2 ≠ .error .panic := by
  induction l using loop.induct walData baseLSN with
  | case1 l next again ih =>
    rw [loop_again again]
    exact ih
  | case2 l relations result returns =>
    rw [loop_returns returns]
    exact (turn_returns returns).1
end

/-- Whatever the bytes and relations, `decode` has no index out of range; it is the loop without fuel, each turn of
    which moves on. -/
theorem decode_total (relations : Relations) (data : Bytes) : (decode relations data).2 ≠ .error .panic ∧
      ∀ walData baseLSN, decodeWAL relations walData baseLSN = loop walData baseLSN ⟨0,relations,[],0⟩ ∧
        ∀ l l', turn walData baseLSN l = .again l' → l.offset < l'.offset ∧ l'.offset ≤ walData.length+10 := by
  refine ⟨?_,fun walData baseLSN => ⟨decodeWAL_loop relations walData baseLSN,fun _ _ => turn_advances⟩⟩
  have stream : ∀ walData baseLSN, (decodeWAL relations walData baseLSN).2 ≠ .error .panic := fun walData baseLSN => by
    rw [decodeWAL_loop]
    exact loop_ne_panic walData baseLSN _
  rw [decode]
  by_cases short : data.length < 25
  · simp [short,fail]
  · have lsn : slice data 1 9 = .ok ((data.take 9).drop 1) := if_pos ⟨by omega,by omega⟩
    rw [if_neg short,lsn]
    split
    · exact stream data 0
    · exact stream _ _

end Stellabill.PgoutputSafety

import Stellabill.AuditLog

/-!
What the last hash of a log vouches for. Two logs that are accepted and end with the same hash
hold the same events: the hash of an event determines what is written for it, which holds the hash
of the event before, back to the first event, which has none before it.
-/
namespace Stellabill.AuditChain
open ByteStrings JsonText AuditLog List

def events (lib : Library) (data : Bytes) : List AuditEvent := (scanLines data).filterMap (decode lib)

section
variable {lib : Library} {e e' : AuditEvent}

structure Written (e : AuditEvent) : Prop where
  timestamp : ∃ literal, e.timestamp = .ok literal ∧ IsLiteral literal
  metadata : ∃ members, e.metadata = .ok members ∧ CleanMembers members

theorem written_zero : Written zeroEvent :=
  ⟨⟨_,rfl,(scans_plain (by decide +kernel)).isLiteral⟩,_,rfl,cleanMembers_nil⟩

variable {field other : Field} {chain : List AuditEvent}

theorem written_setField {doc : Doc} (written : Written e) (set : setField lib e doc field = some e') : Written e' := by
  obtain ⟨time,members,kept,clean⟩ := written
  cases field with
  | timestamp =>
    obtain ⟨timestamp,found,rfl⟩ := Option.map_eq_some_iff.mp set
    refine ⟨?_,members,kept,clean⟩
    unfold setTime at found
    split at found
    · cases found
      exact time
    · next literal =>
      obtain ⟨again,read,rfl⟩ := Option.map_eq_some_iff.mp found
      exact ⟨again,rfl,(scans_plain (lib.writesTimes literal again read)).isLiteral⟩
    · cases found
  | metadata =>
    obtain ⟨metadata,found,rfl⟩ := Option.map_eq_some_iff.mp set
    refine ⟨time,?_⟩
    unfold setMetadata at found
    split at found
    · cases found
      exact ⟨_,rfl,cleanMembers_nil⟩
    · obtain ⟨again,read,rfl⟩ := Option.map_eq_some_iff.mp found
      rw [kept] at read
      exact ⟨again,rfl,rereadMembers_clean lib.writesNumbers _ _ clean read⟩
    · cases found
  | _ =>
    obtain ⟨_,_,rfl⟩ := Option.map_eq_some_iff.mp set
    exact ⟨time,members,kept,clean⟩
private theorem written_setMembers {members : Members} (written : Written e) (set : setMembers lib e members = some e') : Written e' := by
  induction members generalizing e with
  | nil =>
    cases set
    exact written
  | cons member rest ih =>
    rw [setMembers,Option.bind_eq_some_iff] at set
    obtain ⟨next,first,later⟩ := set
    refine ih ?_ later
    unfold setMember at first
    split at first
    · cases first
      exact written
    · exact written_setField written first
theorem written_decode {line : Bytes} (read : decode lib line = some e) : Written e := by
  unfold decode at read
  split at read
  · cases read
    exact written_zero
  · exact written_setMembers written_zero read
  · cases read

def memberOf (field : Field) (members : Members) : Option (Bytes × Doc) := members.find? (fun member => member.1 = field.name)

private theorem name_ne (different : field ≠ other) : field.name ≠ other.name := by
  intro same
  have found := fieldOf_name field
  rw [same,fieldOf_name] at found
  exact different (Option.some.inj found).symm
private theorem memberOf_other (different : field ≠ other) (doc : Doc) (rest : Members) :
    memberOf other ((field.name,doc) :: rest) = memberOf other rest := by
  simp [memberOf,name_ne different]
private theorem memberOf_optional (value : Bytes) :
    memberOf field (optionalMember field value) = if value = [] then none else some (stringMember field value) := by
  unfold optionalMember
  split <;> simp [memberOf,stringMember]
private theorem memberOf_prevHash {timestamp : Bytes} {metadata : Members} :
    memberOf .prevHash (AuditEvent.members { e with hash := [] } timestamp metadata) =
      if e.prevHash = [] then none else some (stringMember .prevHash e.prevHash) := by
  have rest : memberOf .prevHash (metadataMember metadata ++ (optionalMember .prevHash e.prevHash ++ optionalMember .hash [])) =
      memberOf .prevHash (optionalMember .prevHash e.prevHash) := by
    rw [show optionalMember .hash [] = [] from rfl,append_nil]
    unfold metadataMember
    split
    · rw [nil_append]
    · rw [singleton_append,memberOf_other (by decide)]
  rw [← memberOf_optional,← rest,AuditEvent.members]
  simp only [stringMember,cons_append,nil_append]
  rw [memberOf_other (by decide),memberOf_other (by decide),memberOf_other (by decide),memberOf_other (by decide),memberOf_other (by decide),
    memberOf_other (by decide)]
private theorem members_hash (timestamp : Bytes) (metadata : Members) :
    e.members timestamp metadata = AuditEvent.members { e with hash := [] } timestamp metadata ++ optionalMember .hash e.hash := by
  simp [AuditEvent.members,optionalMember]

/-- Events with the same hashed text have the same previous hash, and with the same hash the same text. -/
theorem hashed_inj (written : Written e) (written' : Written e') (same : e.hashed = e'.hashed) :
    (validString e.prevHash = true → validString e'.prevHash = true → e.prevHash = e'.prevHash) ∧ (e.hash = e'.hash → e.marshal = e'.marshal) := by
  obtain ⟨⟨timestamp,time,literal⟩,metadata,kept,clean⟩ := written
  obtain ⟨⟨timestamp',time',literal'⟩,metadata',kept',clean'⟩ := written'
  have documents : AuditEvent.members { e with hash := [] } timestamp metadata = AuditEvent.members { e' with hash := [] } timestamp' metadata' := by
    unfold AuditEvent.hashed AuditEvent.marshal AuditEvent.document at same
    simp only [time,kept,time',kept',Except.map,Except.toOption,Option.getD_some] at same
    exact Doc.obj.inj (render_injective (clean_members literal clean) (clean_members literal' clean') same)
  constructor
  · intro valid valid'
    have found := @memberOf_prevHash e timestamp metadata
    rw [documents,memberOf_prevHash] at found
    split at found <;> split at found
    · next empty empty' => rw [empty,empty']
    · cases found
    · cases found
    · simp only [stringMember,Option.some.injEq,Prod.mk.injEq,Doc.str.injEq,true_and] at found
      rw [← unquote_quote valid,← found,unquote_quote valid']
  · intro hash
    unfold AuditEvent.marshal AuditEvent.document
    simp only [time,kept,time',kept']
    rw [members_hash,members_hash timestamp' metadata',documents,hash]

/-! ### Back along the chain -/

def headHash (chain : List AuditEvent) : Bytes := (chain.head?.map AuditEvent.hash).getD []
/-- Events, the last first, each with the hash of the one before it. -/
def Back (lib : Library) : List AuditEvent → Prop
  | [] => True
  | e :: earlier => Written e ∧ computeHash lib e = e.hash ∧ e.prevHash = headHash earlier ∧ Back lib earlier

theorem back_verify {lines : List Bytes} {lineNum : Nat} (back : Back lib chain)
    (accepted : verifyLines lib lineNum (headHash chain) lines = .ok ()) : Back lib ((lines.filterMap (decode lib)).reverse ++ chain) := by
  induction lines generalizing chain lineNum with
  | nil => exact back
  | cons line rest ih =>
    rw [verifyLines] at accepted
    split at accepted
    · next empty =>
      have skipped : decode lib line = none := by rw [empty]; rfl
      rw [filterMap_cons_none skipped]
      exact ih back accepted
    · split at accepted
      · cases accepted
      · next e read =>
        split at accepted
        · cases accepted
        · next linked =>
          split at accepted
          · cases accepted
          · next hashed =>
            rw [filterMap_cons_some read,reverse_cons,append_assoc]
            have longer : Back lib (e :: chain) := ⟨written_decode read,not_not.mp hashed,not_not.mp linked,back⟩
            exact ih longer accepted
private theorem back_valid (back : Back lib chain) : validString (headHash chain) = true := by
  cases chain with
  | nil => rfl
  | cons e earlier =>
    have hashed : computeHash lib e = headHash (e :: earlier) := back.2.1
    rw [← hashed]
    exact hexEncode_valid _
theorem back_unique {chain' : List AuditEvent} (injective : Function.Injective lib.sha256) (nonempty : ∀ data, lib.sha256 data ≠ [])
    (back : Back lib chain) (back' : Back lib chain') (same : headHash chain = headHash chain') :
    chain.map AuditEvent.marshal = chain'.map AuditEvent.marshal := by
  have present : ∀ e, computeHash lib e ≠ [] := by
    intro e empty
    exact nonempty e.hashed (hexEncode_injective empty)
  induction chain generalizing chain' with
  | nil =>
    cases chain' with
    | nil => rfl
    | cons e' earlier' => exact absurd (back'.2.1.trans same.symm) (present e')
  | cons e earlier ih =>
    cases chain' with
    | nil => exact absurd (back.2.1.trans same) (present e)
    | cons e' earlier' =>
      obtain ⟨written,hashed,linked,before⟩ := back
      obtain ⟨written',hashed',linked',before'⟩ := back'
      have hashes : e.hash = e'.hash := same
      have texts : e.hashed = e'.hashed := injective (hexEncode_injective (hashed.trans (hashes.trans hashed'.symm)))
      obtain ⟨prev,marshal⟩ := hashed_inj written written' texts
      rw [linked,linked'] at prev
      rw [map_cons,map_cons,marshal hashes,ih before before' (prev (back_valid before) (back_valid before'))]
end

theorem back_events {lib : Library} {data : Bytes} (accepted : verify lib (some data) = .ok ()) : Back lib (events lib data).reverse := by
  unfold verify at accepted
  split at accepted
  · cases accepted
  · next data' same =>
    cases same
    split at accepted
    · cases accepted
    · next checked =>
      have nothing : Back lib [] := trivial
      have back := back_verify nothing checked
      rwa [append_nil] at back

/-- With an injective hash that is never empty, accepted files whose last events have the same hash hold the same events. -/
theorem last_hash_determines {lib : Library} {data data' : Bytes} (injective : Function.Injective lib.sha256)
    (nonempty : ∀ data, lib.sha256 data ≠ []) (accepted : verify lib (some data) = .ok ()) (accepted' : verify lib (some data') = .ok ())
    (same : (events lib data).getLast?.map AuditEvent.hash = (events lib data').getLast?.map AuditEvent.hash) :
    (events lib data).map AuditEvent.marshal = (events lib data').map AuditEvent.marshal ∧ (events lib data).length = (events lib data').length := by
  have heads : headHash (events lib data).reverse = headHash (events lib data').reverse := by
    rw [headHash,headHash,head?_reverse,head?_reverse,same]
  have reversed := back_unique injective nonempty (back_events accepted) (back_events accepted') heads
  rw [map_reverse,map_reverse,reverse_inj] at reversed
  refine ⟨reversed,?_⟩
  have lengths := congrArg List.length reversed
  simpa using lengths

def markedLibrary : Library := { plainLibrary with sha256 := fun data => 0x61 :: data }
/-- Somebody logs in, and out again. -/
def loginFile : Bytes :=
  let first := (writeEvent markedLibrary start { zeroEvent with action := text "login" } sound).2
  (writeEvent markedLibrary first { zeroEvent with action := text "logout" } sound).2.file.getD []

/-- A file, and the same with an empty line in front. -/
theorem last_hash_determines_login : (events markedLibrary loginFile).length = 2 ∧
    (events markedLibrary loginFile).map AuditEvent.marshal = (events markedLibrary (0x0A :: loginFile)).map AuditEvent.marshal := by
  refine ⟨by decide +kernel,(last_hash_determines ?_ ?_ ?_ ?_ ?_).1⟩
  · exact cons_injective
  · exact fun data => cons_ne_nil _ _
  · decide +kernel
  · decide +kernel
  · decide +kernel

end Stellabill.AuditChain

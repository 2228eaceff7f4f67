import Stellabill.Joins
import Stellabill.Pagination

/-!
Cursors that are bound to a tenant by a signature. What is signed is the ID, the sort
value and the tenant joined with bars: whoever has seen a cursor can divide its text
elsewhere, and the signature is one of the other parts too.
-/
namespace Stellabill.ScopedCursors
open Json Joins Pagination

structure ScopedCursor where
  id : String
  sortValue : String
  tenantID : String
  sig : String

def ScopedCursor.toJson (sc : ScopedCursor) : Value :=
  .obj ([("id",.str sc.id)] ++ omitEmpty "sort_value" sc.sortValue ++ [("tenant_id",.str sc.tenantID)] ++ [("sig",.str sc.sig)])
def ScopedCursor.ofJson (value : Value) : Option ScopedCursor :=
  match value with
  | .null | .obj _ => do
    let id ← stringMember value "id"
    let sortValue ← stringMember value "sort_value"
    let tenantID ← stringMember value "tenant_id"
    let sig ← stringMember value "sig"
    pure ⟨id,sortValue,tenantID,sig⟩
  | _ => none

structure Scope where
  id : String
  sortValue : String
  tenantID : String
  deriving DecidableEq

def Scope.message (x : Scope) : String := x.id ++ "|" ++ x.sortValue ++ "|" ++ x.tenantID
def Scope.Given (x : Scope) : Prop := ¬ (x.id = "" ∧ x.sortValue = "")

section
variable (json : Codec) (base64 : Base64) (mac : String → String)

/-- `signCursor`; `mac` is the HMAC with the secret, in hexadecimal. -/
def signCursor (x : Scope) : String := mac x.message
def encodeScopedCursor (x : Scope) : String :=
  if x.id = "" ∧ x.sortValue = "" then ""
  else base64.encode (json.encode (ScopedCursor.toJson ⟨x.id,x.sortValue,x.tenantID,signCursor mac x⟩))
def read (encoded : String) : Option ScopedCursor :=
  ((base64.decode encoded).bind json.decode).bind ScopedCursor.ofJson
def decodeScopedCursor (encoded expectedTenantID : String) : Except String Cursor :=
  if encoded = "" then .ok ⟨"",""⟩
  else match read json base64 encoded with
    | none => .error "invalid cursor format"
    | some sc =>
      if sc.sig ≠ signCursor mac ⟨sc.id,sc.sortValue,sc.tenantID⟩ then .error "cursor signature invalid"
      else if sc.tenantID ≠ expectedTenantID then .error "cursor does not belong to this tenant"
      else .ok ⟨sc.id,sc.sortValue⟩

/-- What can be sent without the secret: a signature that the text shows is one of an issued cursor. -/
def Derivable (issued : List Scope) (encoded : String) : Prop :=
  ∀ sc message, read json base64 encoded = some sc → sc.sig = mac message → ∃ x ∈ issued, x.Given ∧ x.message = message
/-- Only a cursor that was issued to the tenant is accepted. -/
def Unforgeable (issued : List Scope) : Prop :=
  ∀ encoded tenantID c, Derivable json base64 mac issued encoded → decodeScopedCursor json base64 mac encoded tenantID = .ok c →
    c ≠ ⟨"",""⟩ → ⟨c.id,c.sortValue,tenantID⟩ ∈ issued
end

/-- What is signed for a cursor is signed for no other one, or for one that was issued too. -/
def Undivided (issued : List Scope) : Prop :=
  ∀ x ∈ issued, x.Given → ∀ y : Scope, y.Given → y.message = x.message → y ∈ issued

variable {json : Codec} {base64 : Base64} {mac : String → String} {issued : List Scope}

theorem decode_ok {encoded tenantID : String} {c : Cursor} (accepted : decodeScopedCursor json base64 mac encoded tenantID = .ok c)
    (given : c ≠ ⟨"",""⟩) : read json base64 encoded = some ⟨c.id,c.sortValue,tenantID,signCursor mac ⟨c.id,c.sortValue,tenantID⟩⟩ := by
  revert accepted
  fun_cases decodeScopedCursor json base64 mac encoded tenantID
  all_goals intro accepted; cases accepted
  · exact absurd rfl given
  · next sc found signed own => rw [found,← not_not.mp own,← not_not.mp signed]
section
variable (sc : ScopedCursor)
private theorem get_toJson (key : String) : sc.toJson.get key =
    (((if "id" = key then some (.str sc.id) else none).or
      (if "sort_value" = key ∧ sc.sortValue ≠ "" then some (.str sc.sortValue) else none)).or
      (if "tenant_id" = key then some (.str sc.tenantID) else none)).or (if "sig" = key then some (.str sc.sig) else none) := by
  simp only [ScopedCursor.toJson,Value.get,lookup_append,lookup_single,lookup_omitEmpty]
private theorem ofJson_toJson : ScopedCursor.ofJson (sc.toJson.reread json.float) = some sc := by
  have reread : ∀ key, stringMember (sc.toJson.reread json.float) key = stringMember sc.toJson key := stringMember_reread json.float _
  have member : ∀ key text, sc.toJson.get key = some (.str text) → stringMember sc.toJson key = some text := by
    intro key text found
    rw [stringMember,found]
  have id := member "id" sc.id (by simp [get_toJson])
  have sortValue : stringMember sc.toJson "sort_value" = some sc.sortValue := stringMember_omitEmpty (by simp [get_toJson])
  have tenantID := member "tenant_id" sc.tenantID (by simp [get_toJson])
  have sig := member "sig" sc.sig (by simp [get_toJson])
  obtain ⟨fields,same⟩ : ∃ fields, sc.toJson.reread json.float = .obj fields := ⟨_,by rw [ScopedCursor.toJson,Value.reread]⟩
  rw [same] at reread
  simp [same,ScopedCursor.ofJson,reread,id,sortValue,tenantID,sig]

def forged (json : Codec) (base64 : Base64) (sc : ScopedCursor) : String := base64.encode (json.encode sc.toJson)

theorem read_forged : read json base64 (forged json base64 sc) = some sc := by
  simp only [read,forged,base64.decode_encode,Option.bind_some,json.decode_encode,ofJson_toJson]
theorem forged_ne : forged json base64 sc ≠ "" := by
  intro empty
  have decoded := base64.decode_encode (json.encode sc.toJson)
  rw [show base64.encode (json.encode sc.toJson) = "" from empty,base64.decode_empty,Option.some.injEq] at decoded
  exact json.encode_nonempty sc.toJson decoded.symm
end
theorem decode_forged {x y : Scope} (same : y.message = x.message) :
    decodeScopedCursor json base64 mac (forged json base64 ⟨y.id,y.sortValue,y.tenantID,signCursor mac x⟩) y.tenantID =
      .ok ⟨y.id,y.sortValue⟩ := by
  have signed : signCursor mac x = signCursor mac ⟨y.id,y.sortValue,y.tenantID⟩ := congrArg mac same.symm
  simp [decodeScopedCursor,forged_ne,read_forged,signed]
/-- A cursor can be read by the tenant that it was issued to, and by no other. -/
theorem decode_encodeScopedCursor (x : Scope) (tenantID : String) :
    decodeScopedCursor json base64 mac (encodeScopedCursor json base64 mac x) tenantID =
      if x.id = "" ∧ x.sortValue = "" then .ok ⟨"",""⟩
      else if x.tenantID = tenantID then .ok ⟨x.id,x.sortValue⟩
      else .error "cursor does not belong to this tenant" := by
  by_cases empty : x.id = "" ∧ x.sortValue = ""
  · simp [encodeScopedCursor,decodeScopedCursor,empty]
  · have issued : encodeScopedCursor json base64 mac x = forged json base64 ⟨x.id,x.sortValue,x.tenantID,signCursor mac x⟩ := if_neg empty
    simp [issued,decodeScopedCursor,forged_ne,read_forged,empty]

/-- With an HMAC that cannot be forged, every accepted cursor was issued exactly where what was signed cannot be divided
    into another. -/
theorem unforgeable_iff (json : Codec) (base64 : Base64) {mac : String → String} (injective : Function.Injective mac) (issued : List Scope) :
    Unforgeable json base64 mac issued ↔ Undivided issued := by
  constructor
  · intro unforgeable x member given y nonempty same
    refine unforgeable _ y.tenantID _ ?_ (decode_forged same) (fun empty => nonempty (by simpa using empty))
    intro sc message found shown
    obtain rfl := Option.some.inj ((read_forged _).symm.trans found)
    exact ⟨x,member,given,injective shown⟩
  · intro undivided encoded tenantID c derivable accepted given
    obtain ⟨x,member,nonempty,same⟩ := derivable _ _ (decode_ok accepted given) rfl
    exact undivided x member nonempty _ (fun empty => given (by cases c; simp_all)) same.symm

theorem message_own {x y : Scope} (id : ∀ a b, x.id ≠ a ++ "|" ++ b) (sortValue : ∀ a b, x.sortValue ≠ a ++ "|" ++ b)
    (tenantID : ∀ a b, x.tenantID ≠ a ++ "|" ++ b) (same : y.message = x.message) : y = x := by
  have bar : "|" = String.singleton '|' := rfl
  have first : ∀ rest, y.id ++ "|" ++ rest = x.id ++ "|" ++ x.sortValue → y.id = x.id ∧ rest = x.sortValue := by
    intro rest joined
    rcases (join_eq_iff bar).mp joined with equal | ⟨u,_,within⟩ | ⟨u,within,_⟩
    · exact equal
    · exact absurd within (sortValue u rest)
    · exact absurd within (id y.id u)
  rcases (join_eq_iff bar).mp same with ⟨joined,equal⟩ | ⟨u,_,within⟩ | ⟨u,joined,_⟩
  · obtain ⟨names,values⟩ := first _ joined
    cases y; simp_all
  · exact absurd within (tenantID u _)
  · obtain ⟨_,within⟩ := first (y.sortValue ++ "|" ++ u) (by simpa only [String.append_assoc] using joined.symm)
    exact absurd within.symm (sortValue _ u)
theorem unforgeable_plain : Unforgeable strokeCodec plain id [⟨"sub_1","2024","acme"⟩] := by
  refine (unforgeable_iff strokeCodec plain Function.injective_id _).mpr ?_
  rintro x member _ y _ same
  obtain rfl := List.mem_singleton.mp member
  have bar : "|" = String.singleton '|' := rfl
  have own := message_own (free_of_not_mem bar (by decide)) (free_of_not_mem bar (by decide)) (free_of_not_mem bar (by decide)) same
  exact List.mem_singleton.mpr own
/-- The signature of ID `a` with sort value `b|c` is one of ID `a|b` with sort value `c`. -/
theorem cursor_divided : Derivable strokeCodec plain id [⟨"a","b|c","acme"⟩] (forged strokeCodec plain ⟨"a|b","c","acme","a|b|c|acme"⟩) ∧
    decodeScopedCursor strokeCodec plain id (forged strokeCodec plain ⟨"a|b","c","acme","a|b|c|acme"⟩) "acme" = .ok ⟨"a|b","c"⟩ ∧
    (⟨"a|b","c","acme"⟩ : Scope) ∉ [(⟨"a","b|c","acme"⟩ : Scope)] := by
  refine ⟨?_,decode_forged (x := ⟨"a","b|c","acme"⟩) (y := ⟨"a|b","c","acme"⟩) rfl,by decide⟩
  intro sc message found shown
  obtain rfl := Option.some.inj ((read_forged _).symm.trans found)
  exact ⟨_,List.mem_singleton_self _,by simp [Scope.Given],shown⟩

end Stellabill.ScopedCursors

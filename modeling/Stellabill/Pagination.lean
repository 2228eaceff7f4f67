import Mathlib.Algebra.Group.Nat.Defs
import Stellabill.Json

/-!
Cursor pagination over a sorted slice, and the walk of a client that follows the next
cursor from page to page. Strings are compared by their bytes. Positions are plain numbers:
a start plus a limit of at most 2^31 stays far below the largest `int`.
-/
namespace Stellabill.Pagination
open Json List

structure Cursor where
  id : String
  sortValue : String
  deriving DecidableEq, Repr

structure Base64 where
  encode : String → String
  decode : String → Option String
  decode_encode : ∀ text, decode (encode text) = some text
  decode_empty : decode "" = some ""

def Cursor.toJson (c : Cursor) : Value := .obj ([("id",.str c.id)] ++ omitEmpty "sort_value" c.sortValue)
def Cursor.ofJson (value : Value) : Option Cursor :=
  match value with
  | .null | .obj _ => do
    let id ← stringMember value "id"
    let sortValue ← stringMember value "sort_value"
    pure ⟨id,sortValue⟩
  | _ => none

section
variable (json : Codec) (base64 : Base64)

def encode (c : Cursor) : String :=
  if c.id = "" ∧ c.sortValue = "" then "" else base64.encode (json.encode c.toJson)
def decode (s : String) : Except String Cursor :=
  if s = "" then .ok ⟨"",""⟩
  else match base64.decode s with
    | none => .error "invalid cursor format"
    | some text => match (json.decode text).bind Cursor.ofJson with
      | none => .error "invalid cursor format"
      | some c => .ok c
end

class Item (T : Type) where
  getID : T → String
  getSortValue : T → String
open Item (getID getSortValue)

structure Page (T : Type) where
  items : List T
  nextCursor : String
  previousCursor : String
  hasMore : Bool

def bytes (s : String) : List UInt8 := s.toByteArray.data.toList

section
variable {T : Type} [Item T]

def cursorOf (item : T) : Cursor := ⟨getID item,getSortValue item⟩
def After (item : T) (c : Cursor) : Prop :=
  bytes c.sortValue < bytes (getSortValue item) ∨ getSortValue item = c.sortValue ∧ bytes c.id < bytes (getID item)
  deriving Decidable

variable (json : Codec) (base64 : Base64)

variable (items : List T)
/-- `previousCursor`. The anchor is in the slice where the start is. -/
def previousCursor (startIdx limit : Nat) : String :=
  if startIdx = 0 then ""
  else if startIdx ≤ limit then ""
  else match items[startIdx-limit-1]? with
    | some anchor => encode json base64 (cursorOf anchor)
    | none => ""
def pageFrom (startIdx limit : Nat) : Page T :=
  let hasMore := decide (startIdx+limit < items.length)
  let endIdx := if startIdx+limit ≥ items.length then items.length else startIdx+limit
  let pageItems := (items.take endIdx).drop startIdx
  let nextCursorStr := match pageItems.getLast? with
    | some lastItem => if hasMore then encode json base64 (cursorOf lastItem) else ""
    | none => ""
  ⟨pageItems,nextCursorStr,previousCursor json base64 items startIdx limit,hasMore⟩
def paginateSlice (cursor : Cursor) (limit : Int) : Page T :=
  let limit := if limit ≤ 0 then 10 else limit.toNat
  if cursor.id ≠ "" ∨ cursor.sortValue ≠ "" then
    match items.findIdx? (fun item => After item cursor) with
    | none => ⟨[],"","",false⟩
    | some startIdx => pageFrom json base64 items startIdx limit
  else pageFrom json base64 items 0 limit

/-- The pages of a client that follows the next cursor until there is none. -/
def walk (items : List T) (limit : Int) : Nat → Cursor → Option (List (Page T))
  | 0, _ => none
  | fuel+1, cursor =>
    let page := paginateSlice json base64 items cursor limit
    if page.nextCursor = "" then some [page]
    else match decode json base64 page.nextCursor with
      | .ok next => (walk items limit fuel next).map (page :: ·)
      | .error _ => none

def Sorted : Prop :=
  items.Pairwise (fun a b => bytes (getSortValue a) < bytes (getSortValue b) ∨
    getSortValue a = getSortValue b ∧ bytes (getID a) ≤ bytes (getID b))
def Distinct : Prop := items.Pairwise (fun a b => cursorOf a ≠ cursorOf b)
/-- Starting with the empty cursor the client gets these pages, and a page's decoded previous cursor gives the page before it. -/
structure Walked (items : List T) (limit : Int) (pages : List (Page T)) : Prop where
  walk : ∀ fuel, pages.length ≤ fuel → walk json base64 items limit fuel ⟨"",""⟩ = some pages
  visited : pages.flatMap Page.items = items
  ended : ∃ last, pages.getLast? = some last ∧ last.hasMore = false
  back : ∀ k page before, 1 < k → pages[k]? = some page → pages[k-1]? = some before →
    ∃ cursor, decode json base64 page.previousCursor = .ok cursor ∧ paginateSlice json base64 items cursor limit = before
end

section
variable {json : Codec} {base64 : Base64}

private theorem get_toJson (c : Cursor) (key : String) : c.toJson.get key =
    (if "id" = key then some (.str c.id) else none).or
      (if "sort_value" = key ∧ c.sortValue ≠ "" then some (.str c.sortValue) else none) := by
  simp only [Cursor.toJson,Value.get,lookup_append,lookup_single,lookup_omitEmpty]
private theorem ofJson_toJson (c : Cursor) : Cursor.ofJson (c.toJson.reread json.float) = some c := by
  have reread : ∀ key, stringMember (c.toJson.reread json.float) key = stringMember c.toJson key := stringMember_reread json.float _
  have id : stringMember c.toJson "id" = some c.id := by simp [stringMember,get_toJson]
  have sortValue : stringMember c.toJson "sort_value" = some c.sortValue := stringMember_omitEmpty (by simp [get_toJson])
  obtain ⟨fields,same⟩ : ∃ fields, c.toJson.reread json.float = .obj fields := ⟨_,by rw [Cursor.toJson,Value.reread]⟩
  rw [same] at reread
  simp [same,Cursor.ofJson,reread,id,sortValue]
theorem encode_ne {c : Cursor} (named : c.id ≠ "") : encode json base64 c ≠ "" := by
  intro empty
  rw [encode,if_neg (fun both => named both.1)] at empty
  have decoded := base64.decode_encode (json.encode c.toJson)
  rw [empty,base64.decode_empty,Option.some.injEq] at decoded
  exact json.encode_nonempty c.toJson decoded.symm
theorem decode_encode {c : Cursor} (named : c.id ≠ "") : decode json base64 (encode json base64 c) = .ok c := by
  rw [decode,if_neg (encode_ne named),encode,if_neg (fun both => named both.1),base64.decode_encode]
  simp only [json.decode_encode,Option.bind_some,ofJson_toJson]
end

section
variable {T : Type} [Item T] {json : Codec} {base64 : Base64} {items : List T}

private theorem bytes_injective {s t : String} (same : bytes s = bytes t) : s = t :=
  String.toByteArray_inj.mp (ByteArray.ext (Array.toList_inj.mp same))
private theorem after_asymm {a b : T} (after : After b (cursorOf a)) : ¬ After a (cursorOf b) := by
  simp only [After,cursorOf] at after ⊢
  rintro (less | ⟨same,less⟩)
  · obtain greater | ⟨same,_⟩ := after
    · exact List.lt_asymm greater less
    · rw [same] at less
      exact List.lt_irrefl _ less
  · obtain greater | ⟨_,greater⟩ := after
    · rw [same] at greater
      exact List.lt_irrefl _ greater
    · exact List.lt_asymm greater less
theorem Sorted.after (sorted : Sorted items) (distinct : Distinct items) : items.Pairwise (fun a b => After b (cursorOf a)) := by
  refine (sorted.and distinct).imp (fun {a b} both => ?_)
  obtain ⟨less | ⟨same,notGreater⟩,differ⟩ := both
  · exact .inl less
  · refine .inr ⟨same.symm,Std.lt_of_le_of_ne notGreater (fun alike => differ ?_)⟩
    have names : getID a = getID b := bytes_injective alike
    simp [cursorOf,same,names]
private theorem findIdx_after (ordered : items.Pairwise (fun a b => After b (cursorOf a))) {i : Nat} {anchor : T}
    (at_i : items[i]? = some anchor) (inside : i+1 < items.length) :
    items.findIdx? (fun item => After item (cursorOf anchor)) = some (i+1) := by
  obtain ⟨below,rfl⟩ := List.getElem?_eq_some_iff.mp at_i
  rw [List.pairwise_iff_getElem] at ordered
  rw [findIdx?_eq_some_iff_getElem]
  refine ⟨inside,decide_eq_true (ordered i (i+1) below inside (by omega)),fun j before found => ?_⟩
  have after : After items[j] (cursorOf items[i]) := of_decide_eq_true found
  obtain earlier | rfl : j < i ∨ j = i := by omega
  · exact after_asymm (ordered j i _ below earlier) after
  · exact after_asymm after after

variable {limit start : Nat}

theorem paginateSlice_after (ordered : items.Pairwise (fun a b => After b (cursorOf a))) (named : ∀ item ∈ items, getID item ≠ "")
    (positive : 1 ≤ limit) {i : Nat} {anchor : T} (at_i : items[i]? = some anchor) (inside : i+1 < items.length) :
    paginateSlice json base64 items (cursorOf anchor) limit = pageFrom json base64 items (i+1) limit := by
  have hasID : (cursorOf anchor).id ≠ "" := named anchor (mem_of_getElem? at_i)
  simp only [paginateSlice]
  rw [if_pos (Or.inl hasID),findIdx_after ordered at_i inside,if_neg (by omega)]
  rfl
theorem paginateSlice_first (positive : 1 ≤ limit) :
    paginateSlice json base64 items ⟨"",""⟩ limit = pageFrom json base64 items 0 limit := by
  simp only [paginateSlice]
  rw [if_neg (by simp),if_neg (by omega)]
  rfl

/-! ### The page from a position -/

theorem pageFrom_items : (pageFrom json base64 items start limit).items = (items.take (start+limit)).drop start := by
  simp only [pageFrom]
  split
  case isTrue beyond => rw [take_of_length_le (Nat.le_refl _),take_of_length_le beyond]
  case isFalse => rfl
section
variable (json : Codec) (base64 : Base64)
theorem pageFrom_last (beyond : items.length ≤ start+limit) :
    (pageFrom json base64 items start limit).nextCursor = "" ∧ (pageFrom json base64 items start limit).hasMore = false := by
  have none_left : decide (start+limit < items.length) = false := decide_eq_false (by omega)
  refine ⟨?_,none_left⟩
  simp only [pageFrom,none_left]
  split <;> rfl
theorem pageFrom_next (positive : 1 ≤ limit) (more : start+limit < items.length) : ∃ anchor, items[start+limit-1]? = some anchor ∧
      (pageFrom json base64 items start limit).nextCursor = encode json base64 (cursorOf anchor) := by
  have below : start+limit-1 < items.length := by omega
  refine ⟨items[start+limit-1],getElem?_eq_getElem below,?_⟩
  have last : ((items.take (start+limit)).drop start).getLast? = some items[start+limit-1] := by
    rw [getLast?_eq_getElem?,getElem?_drop,length_drop,length_take,Nat.min_eq_left (by omega),getElem?_take_of_lt (by omega)]
    rw [show start+(start+limit-start-1) = start+limit-1 by omega,getElem?_eq_getElem below]
  have left : decide (start+limit < items.length) = true := decide_eq_true more
  simp only [pageFrom]
  rw [if_neg (by omega),last]
  simp only [left,if_true]
theorem pageFrom_previous (later : limit < start) (inside : start < items.length) : ∃ anchor, items[start-limit-1]? = some anchor ∧
      (pageFrom json base64 items start limit).previousCursor = encode json base64 (cursorOf anchor) := by
  have below : start-limit-1 < items.length := by omega
  refine ⟨items[start-limit-1],getElem?_eq_getElem below,?_⟩
  show previousCursor json base64 items start limit = _
  rw [previousCursor,if_neg (by omega),if_neg (by omega),getElem?_eq_getElem below]

def pagesFrom (items : List T) (limit start more : Nat) : List (Page T) :=
  (List.range (more+1)).map (fun k => pageFrom json base64 items (start+k*limit) limit)

private theorem pagesFrom_succ (limit start more : Nat) : pagesFrom json base64 items limit start (more+1) =
      pageFrom json base64 items start limit :: pagesFrom json base64 items limit (start+limit) more := by
  rw [pagesFrom,range_succ_eq_map,map_cons,map_map,Nat.zero_mul]
  refine congrArg _ (map_congr_left (fun k _ => ?_))
  show pageFrom json base64 items (start+(k+1)*limit) limit = _
  rw [Nat.succ_mul,Nat.add_comm (k*limit),Nat.add_assoc]
end

/-- The walk from a cursor that leads to the start, by induction on the pages that follow. -/
theorem walk_from (ordered : items.Pairwise (fun a b => After b (cursorOf a))) (named : ∀ item ∈ items, getID item ≠ "")
    (positive : 1 ≤ limit) {more fuel : Nat} {cursor : Cursor}
    (begins : paginateSlice json base64 items cursor limit = pageFrom json base64 items start limit)
    (inside : more = 0 ∨ start+more*limit < items.length) (last : items.length ≤ start+(more+1)*limit) (enough : more < fuel) :
    walk json base64 items limit fuel cursor = some (pagesFrom json base64 items limit start more) := by
  induction more generalizing start fuel cursor with
  | zero =>
    obtain ⟨fuel,rfl⟩ : ∃ left, fuel = left+1 := ⟨fuel-1,by omega⟩
    have final : (pageFrom json base64 items start limit).nextCursor = "" := (pageFrom_last json base64 (by omega)).1
    simp [walk,begins,final,pagesFrom]
  | succ more ih =>
    obtain ⟨fuel,rfl⟩ : ∃ left, fuel = left+1 := ⟨fuel-1,by omega⟩
    have split : (more+1)*limit = more*limit+limit := Nat.succ_mul ..
    have ahead : start+limit < items.length := by omega
    obtain ⟨anchor,at_end,next⟩ := pageFrom_next json base64 positive ahead
    have hasID : (cursorOf anchor).id ≠ "" := named anchor (mem_of_getElem? at_end)
    have follows : paginateSlice json base64 items (cursorOf anchor) limit = pageFrom json base64 items (start+limit-1+1) limit :=
      paginateSlice_after ordered named positive at_end (by omega)
    rw [Nat.sub_add_cancel (by omega)] at follows
    have left : items.length ≤ start+limit+(more+1)*limit := by
      rw [Nat.succ_mul] at last
      omega
    have rest : walk json base64 items limit fuel (cursorOf anchor) = _ := ih follows (.inr (by omega)) left (by omega)
    rw [walk,begins]
    simp only [next]
    rw [if_neg (encode_ne hasID),decode_encode hasID,pagesFrom_succ]
    simp only [rest,Option.map_some]

section
variable (json : Codec) (base64 : Base64) (items : List T)
theorem flatMap_pages (limit count : Nat) :
    ((List.range count).map (fun k => pageFrom json base64 items (k*limit) limit)).flatMap Page.items = items.take (count*limit) := by
  induction count with
  | zero => simp
  | succ count ih =>
    have front : items.take (count*limit) = (items.take (count*limit+limit)).take (count*limit) := by
      rw [take_take,Nat.min_eq_left (by omega)]
    rw [range_succ,map_append,flatMap_append,ih,map_singleton,flatMap_singleton,pageFrom_items,front,take_append_drop,Nat.succ_mul]

theorem getElem_pages (limit more k : Nat) :
    (pagesFrom json base64 items limit 0 more)[k]? =
      if k < more+1 then some (pageFrom json base64 items (k*limit) limit) else none := by
  simp only [pagesFrom,getElem?_map,Nat.zero_add]
  split <;> simp_all
private theorem length_pages (limit start more : Nat) : (pagesFrom json base64 items limit start more).length = more+1 := by
  simp [pagesFrom]
end
theorem paginateSlice_previous (ordered : items.Pairwise (fun a b => After b (cursorOf a))) (named : ∀ item ∈ items, getID item ≠ "")
    (positive : 1 ≤ limit) {k : Nat} (later : 1 < k) (inside : k*limit < items.length) :
    ∃ cursor, decode json base64 (pageFrom json base64 items (k*limit) limit).previousCursor = .ok cursor ∧
      paginateSlice json base64 items cursor limit = pageFrom json base64 items ((k-1)*limit) limit := by
  have before : (k-1)*limit = k*limit-limit := by rw [Nat.sub_mul,Nat.one_mul]
  have room : limit < k*limit := by
    have twice : 2*limit ≤ k*limit := Nat.mul_le_mul_right limit later
    omega
  obtain ⟨anchor,at_anchor,previous⟩ := pageFrom_previous json base64 room inside
  have follows : paginateSlice json base64 items (cursorOf anchor) limit = pageFrom json base64 items (k*limit-limit-1+1) limit :=
    paginateSlice_after ordered named positive at_anchor (by omega)
  rw [Nat.sub_add_cancel (by omega)] at follows
  refine ⟨cursorOf anchor,?_,?_⟩
  · rw [previous]
    exact decode_encode (named anchor (mem_of_getElem? at_anchor))
  · rw [before,follows]
private theorem pages_count (n : Nat) (positive : 1 ≤ limit) : (n-1)/limit+1 = max 1 ((n+limit-1)/limit) := by
  obtain rfl | some : n = 0 ∨ 0 < n := Nat.eq_zero_or_pos n
  · rw [Nat.zero_div,Nat.div_eq_of_lt (by omega)]
    rfl
  · rw [show n+limit-1 = n-1+limit by omega,Nat.add_div_right _ positive]
    exact (Nat.max_eq_right (Nat.le_add_left 1 _)).symm

/-- A walk visits every item once and in order, and stops; an empty slice is one empty page. -/
theorem walk_pages (json : Codec) (base64 : Base64) (items : List T) (sorted : Sorted items) (distinct : Distinct items)
    (named : ∀ item ∈ items, getID item ≠ "") (limit : Nat) (positive : 1 ≤ limit) :
    ∃ pages, Walked json base64 items limit pages ∧ pages.length = max 1 ((items.length+limit-1)/limit) := by
  have ordered := sorted.after distinct
  obtain ⟨more,count⟩ : ∃ more, more = (items.length-1)/limit := ⟨_,rfl⟩
  have below : more*limit ≤ items.length-1 := count ▸ Nat.div_mul_le_self _ _
  have above : items.length ≤ more*limit+limit := by
    have beyond := Nat.lt_mul_div_succ (items.length-1) positive
    rw [← count,Nat.mul_comm,Nat.succ_mul] at beyond
    omega
  have inside : more = 0 ∨ more*limit < items.length := by
    obtain rfl | some : more = 0 ∨ 0 < more := Nat.eq_zero_or_pos more
    · exact .inl rfl
    · have := Nat.mul_pos some positive
      exact .inr (by omega)
  refine ⟨pagesFrom json base64 items limit 0 more,⟨?_,?_,?_,?_⟩,?_⟩
  · intro fuel enough
    rw [length_pages] at enough
    exact walk_from ordered named positive (paginateSlice_first positive) (by omega) (by rw [Nat.succ_mul]; omega) enough
  · simp only [pagesFrom,Nat.zero_add]
    rw [flatMap_pages,take_of_length_le (by rw [Nat.succ_mul]; omega)]
  · refine ⟨pageFrom json base64 items (more*limit) limit,?_,(pageFrom_last json base64 above).2⟩
    rw [getLast?_eq_getElem?,length_pages,getElem_pages,if_pos (by omega),Nat.add_sub_cancel]
  · intro k page before later found earlier
    have reached : k < more+1 := by
      by_contra beyond
      rw [getElem_pages,if_neg beyond] at found
      cases found
    rw [getElem_pages,if_pos reached] at found
    rw [getElem_pages,if_pos (by omega)] at earlier
    obtain rfl := Option.some.inj found
    obtain rfl := Option.some.inj earlier
    have start : k*limit ≤ more*limit := Nat.mul_le_mul_right limit (by omega)
    exact paginateSlice_previous ordered named positive later (by omega)
  · rw [length_pages,count,pages_count items.length positive]

end

structure Entry where
  id : String
  name : String
instance : Item Entry := ⟨Entry.id,Entry.name⟩
def plain : Base64 := ⟨id,some,fun _ => rfl,rfl⟩

/-- Five entries, two of them with the same sort value, in pages of two. -/
theorem walk_pages_five : ∃ pages, Walked strokeCodec plain
    [(⟨"a",""⟩ : Entry),⟨"p1","basic"⟩,⟨"p2","basic"⟩,⟨"é","pro"⟩,⟨"z","team"⟩] (2 : Nat) pages ∧ pages.length = 3 :=
  walk_pages strokeCodec plain _
    (by simp only [Sorted]; decide) (by simp only [Distinct]; decide) (by decide) 2 (by decide)

/-- The empty slice is a page of its own, where no page is needed for its items. -/
theorem walk_empty : ¬ ∀ (json : Codec) (base64 : Base64) (items : List Entry), Sorted items → Distinct items →
    (∀ item ∈ items, getID item ≠ "") → ∀ limit : Nat, 1 ≤ limit → limit ≤ 2^31 →
    ∃ pages, Walked json base64 items limit pages ∧ pages.length = (items.length+limit-1)/limit := by
  intro all
  obtain ⟨pages,walked,count⟩ := all strokeCodec plain [] .nil .nil (by simp) 1 (by decide) (by decide)
  have none : pages = [] := length_eq_zero_iff.mp count
  have one : walk strokeCodec plain ([] : List Entry) 1 1 ⟨"",""⟩ = some [⟨[],"","",false⟩] := by
    simp [walk,paginateSlice,pageFrom,previousCursor]
  have zero : walk strokeCodec plain ([] : List Entry) 1 1 ⟨"",""⟩ = some [] := none ▸ walked.walk 1 (by simp [none])
  cases zero

end Stellabill.Pagination

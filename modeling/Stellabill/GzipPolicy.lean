import Mathlib.Data.Int.Log
import Mathlib.Data.Rat.Floor
import Stellabill.ByteStrings
import Stellabill.Calendar

/-!
Requests with a compressed body. The middleware reads the decompressed body into memory, with
both limits merged into one, and hands over what it has read.
-/
namespace Stellabill.GzipPolicy
open ByteStrings Calendar

structure GzipPolicyConfig where
  maxUncompressedBytes : Int
  maxCompressedBytes : Int
  maxRatio : Rat
  fits : Int64 maxUncompressedBytes

/-- A number rounded to 53 binary digits, half way to the even one; what is too large for the format stays as it is. -/
def float64 (x : Rat) : Rat :=
  let unit : Rat := 2^(max (Int.log 2 x-52) (-1074))
  let below := (x/unit).floor
  let rest := x/unit-below
  (if rest < 1/2 ∨ (rest = 1/2 ∧ below % 2 = 0) then below else below+1)*unit

/-- A reader of a body, unless its header is invalid, with what it delivers and its error; and the conversion to 64 bits. -/
structure Library where
  newReader : Bytes → Option (Bytes × Option String)
  toInt64 : Rat → Int
  exact : ∀ x, 0 ≤ x → x < 9223372036854775808 → toInt64 x = x.floor
  range : ∀ x, Int64 (toInt64 x)

inductive Rejection
  | unsupportedEncoding (encoding : String)
  | badRequest
  | requestTooLarge (compressedSize maxCompressed : Int)
  | invalidGzip
  | decompressionBomb (decompressedSize maxUncompressed compressedSize : Int)

section
variable (lib : Library) (cfg : GzipPolicyConfig)

def maxCompressed : Int := if cfg.maxCompressedBytes = 0 then cfg.maxUncompressedBytes else cfg.maxCompressedBytes
/-- The size that the ratio allows, as the machine computes it. -/
def allowed (compressedLen : Nat) : Rat := float64 (float64 compressedLen*cfg.maxRatio)
def maxDestSize (compressedLen : Nat) : Int :=
  if 0 < cfg.maxRatio ∧ 0 < compressedLen then
    let ratioLimit := lib.toInt64 (allowed cfg compressedLen)
    if cfg.maxUncompressedBytes = 0 ∨ ratioLimit < cfg.maxUncompressedBytes then ratioLimit else cfg.maxUncompressedBytes
  else cfg.maxUncompressedBytes

/-- The body that the handler reads, for an encoding in lower case without blanks around it. -/
def gzipPolicy (encoding : String) (body : Option Bytes) : Except Rejection (Option Bytes) :=
  if encoding = "" ∨ encoding = "identity" then .ok body
  else if encoding ≠ "gzip" then .error (.unsupportedEncoding encoding)
  else match body with
    | none => .error .badRequest
    | some body =>
      if 0 < maxCompressed cfg ∧ maxCompressed cfg < body.length then .error (.requestTooLarge body.length (maxCompressed cfg))
      else match lib.newReader body with
        | none => .error .invalidGzip
        | some (content,_) =>
          let limit := maxDestSize lib cfg body.length
          -- The error that ends the copying is not looked at.
          let decompressed := if 0 < limit then content.take (int64 (limit+1)).toNat else content
          if 0 < limit ∧ limit < decompressed.length then .error (.decompressionBomb decompressed.length limit body.length)
          else .ok (some decompressed)

/-- The content keeps both limits. -/
def Within (body content : Bytes) : Prop :=
  (0 < cfg.maxUncompressedBytes → content.length ≤ cfg.maxUncompressedBytes) ∧ (0 < cfg.maxRatio → content.length ≤ body.length*cfg.maxRatio)
/-- What the handler reads is a whole stream that keeps to the limits. -/
def Sound (body : Bytes) : Prop :=
  ∀ read, gzipPolicy lib cfg "gzip" (some body) = .ok read → ∃ content, read = some content ∧ lib.newReader body = some (content,none) ∧ Within cfg body content

/-- The limits survive the merging: none is negative, and what the ratio allows is a byte at least, can be counted and
    is not rounded up. -/
def Mergeable (body : Bytes) : Prop :=
  0 ≤ cfg.maxUncompressedBytes ∧ (0 < cfg.maxRatio → 1 ≤ allowed cfg body.length ∧ allowed cfg body.length < 9223372036854775808 ∧
    (allowed cfg body.length).floor ≤ body.length*cfg.maxRatio)
/-- The limit and one more byte can be counted. -/
def Countable (body : Bytes) : Prop := maxDestSize lib cfg body.length < 9223372036854775807
  deriving Decidable
/-- The request is refused for the size of its body or of its content. -/
def Refused (body content : Bytes) : Prop :=
  (0 < maxCompressed cfg ∧ maxCompressed cfg < body.length) ∨
    (0 < maxDestSize lib cfg body.length ∧ Countable lib cfg body ∧ maxDestSize lib cfg body.length < content.length)
end

example : float64 (2^53+1) = 2^53 ∧ float64 (10*(5404319552844595/18014398509481984)) = 3 := by decide +kernel

variable {lib : Library} {cfg : GzipPolicyConfig} {body content : Bytes} {error : Option String}

private theorem float64_zero : float64 0 = 0 := by decide +kernel
theorem maxDestSize_le (compressedLen : Nat) : maxDestSize lib cfg compressedLen ≤ 9223372036854775807 := by
  have fits := cfg.fits.2
  have range := (lib.range (allowed cfg compressedLen)).2
  simp only [maxDestSize]
  split_ifs <;> omega
theorem within_merged (mergeable : Mergeable cfg body) (short : 0 < maxDestSize lib cfg body.length → content.length ≤ maxDestSize lib cfg body.length) :
    Within cfg body content := by
  obtain ⟨nonneg,ratio⟩ := mergeable
  by_cases limited : 0 < cfg.maxRatio
  · obtain ⟨some_byte,fits,down⟩ := ratio limited
    have floor := lib.exact _ (by linarith) fits
    have positive : 0 < (allowed cfg body.length).floor := Int.lt_of_lt_of_le Int.zero_lt_one (Rat.le_floor_iff.mpr some_byte)
    have nonempty : 0 < body.length := by
      rcases Nat.eq_zero_or_pos body.length with empty | nonempty
      · rw [empty,allowed,Nat.cast_zero,float64_zero,zero_mul,float64_zero] at some_byte
        exact absurd some_byte (by decide)
      · exact nonempty
    have few : content.length ≤ (allowed cfg body.length).floor ∧ (0 < cfg.maxUncompressedBytes → content.length ≤ cfg.maxUncompressedBytes) := by
      simp only [maxDestSize,limited,nonempty,and_self,if_true,floor] at short
      split_ifs at short with lower
      · omega
      · omega
    refine ⟨few.2,fun _ => le_trans ?_ down⟩
    exact_mod_cast few.1
  · refine ⟨fun positive => ?_,fun ratio => absurd ratio limited⟩
    simp only [maxDestSize,limited,false_and,if_false] at short
    exact short positive
private theorem gzipPolicy_ok {read : Option Bytes} (stream : lib.newReader body = some (content,error)) :
    gzipPolicy lib cfg "gzip" (some body) = .ok read ↔
      ¬ Refused lib cfg body content ∧ some (if Countable lib cfg body then content else []) = read := by
  unfold Refused Countable
  simp only [gzipPolicy,stream]
  by_cases large : 0 < maxCompressed cfg ∧ maxCompressed cfg < body.length
  · simp [large]
  by_cases limited : 0 < maxDestSize lib cfg body.length
  · by_cases countable : maxDestSize lib cfg body.length < 9223372036854775807
    · rw [int64_of_fits ⟨by omega,by omega⟩]
      by_cases long : maxDestSize lib cfg body.length < content.length
      · simp [large,limited,countable,long]
      · have whole : content.take (maxDestSize lib cfg body.length+1).toNat = content := List.take_of_length_le (by omega)
        simp [large,limited,countable,long,whole]
    · -- One more than the largest number is the smallest one: nothing is read.
      have last : maxDestSize lib cfg body.length = 9223372036854775807 := Int.le_antisymm (maxDestSize_le _) (Int.not_lt.mp countable)
      have wraps : int64 9223372036854775808 = -9223372036854775808 := by decide
      simp [large,last,wraps]
  · have countable : maxDestSize lib cfg body.length < 9223372036854775807 := by omega
    simp [large,limited,countable]

/-- A body is treated soundly just when it is refused, or its stream is complete, the limit can be counted or there is
    nothing to read, and the limits survive the merging or are kept anyway. -/
theorem sound_iff (lib : Library) (cfg : GzipPolicyConfig) (body : Bytes) : Sound lib cfg body ↔
    ∀ content error, lib.newReader body = some (content,error) → Refused lib cfg body content ∨
      (error = none ∧ (Countable lib cfg body ∨ content = []) ∧ (Mergeable cfg body ∨ Within cfg body content)) := by
  constructor
  · intro sound content error stream
    by_cases refused : Refused lib cfg body content
    · exact .inl refused
    · obtain ⟨content',same,whole,within⟩ := sound _ ((gzipPolicy_ok stream).mpr ⟨refused,rfl⟩)
      cases stream.symm.trans whole
      refine .inr ⟨rfl,?_,.inr within⟩
      by_cases countable : Countable lib cfg body
      · exact .inl countable
      · rw [if_neg countable] at same
        exact .inr (Option.some.inj same).symm
  · intro fine read passed
    cases stream : lib.newReader body with
    | none =>
      simp only [gzipPolicy,stream] at passed
      split_ifs at passed
      simp_all
    | some delivered =>
      obtain ⟨content,error⟩ := delivered
      obtain ⟨accepted,rfl⟩ := (gzipPolicy_ok stream).mp passed
      obtain ⟨rfl,readable,kept⟩ := (fine content error stream).resolve_left accepted
      have all : (if Countable lib cfg body then content else []) = content := by
        rcases readable with countable | empty
        · exact if_pos countable
        · simp [empty]
      have short : 0 < maxDestSize lib cfg body.length → content.length ≤ maxDestSize lib cfg body.length := by
        intro positive
        rcases readable with countable | rfl
        · exact Int.not_lt.mp fun longer => accepted (.inr ⟨positive,countable,longer⟩)
        · exact Int.le_of_lt positive
      exact ⟨content,by rw [all],rfl,kept.elim (within_merged · short) id⟩
/-- A stream breaks off after a byte. -/
def breaking : Library where
  newReader _ := some ([1],some "unexpected EOF")
  toInt64 x := max (-9223372036854775808) (min 9223372036854775807 x.floor)
  exact x nonneg small := by
    have low : 0 ≤ x.floor := Rat.le_floor_iff.mpr nonneg
    have high : x.floor < 9223372036854775808 := Rat.floor_lt_iff.mpr small
    omega
  range x := ⟨by omega,by omega⟩
/-- What could be read of it is handed over. -/
theorem truncated_passed : ¬ ∀ lib cfg body, Sound lib cfg body := by
  intro sound
  obtain ⟨content,_,whole,_⟩ := sound breaking ⟨0,0,0,by decide⟩ [0x1F] (some [1]) rfl
  cases whole

end Stellabill.GzipPolicy

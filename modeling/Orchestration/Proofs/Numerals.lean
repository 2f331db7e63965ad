import Mathlib.Data.List.TakeDrop
import Mathlib.Data.List.TakeWhile
import Orchestration.Json.Printer
import Orchestration.Json.Token
import Orchestration.Proofs.Digits
import Orchestration.Proofs.Rate

/-! Numbers in JSON texts. A number's text is one word; an integer of 64 bits is read back from it;
and whatever number a word is read as is such an integer or a finite double. -/
namespace Orchestration

namespace Binary64

theorem pack_neg (m : Nat) (e : Int) : pack true m e = (pack false m e).neg := by
  unfold pack
  split <;> rfl

theorem ofQuotient_neg (n d : Nat) : ofQuotient true n d = (ofQuotient false n d).neg := by
  unfold ofQuotient
  split
  · rfl
  · dsimp only
    split <;> exact pack_neg _ _

theorem isFinite_neg (x : Binary64) : x.neg.isFinite = x.isFinite := by
  cases x <;> rfl

theorem ofInt_eq (i : Int) : ofInt i = if i < 0 then (ofNat i.natAbs).neg else ofNat i.natAbs := by
  unfold ofInt ofNat
  by_cases negative : i < 0
  · rw [decide_eq_true negative, if_pos negative, ofQuotient_neg]
  · rw [decide_eq_false negative, if_neg negative]

theorem ofNat_finite {n : Nat} (small : n < twoTo 64) : (ofNat n).isFinite = true := by
  by_cases zero : n = 0
  · subst zero
    rfl
  · obtain ⟨m, e, canonical, _, eq⟩ :=
      ofNat_positive (Nat.pos_of_ne_zero zero) (Nat.lt_trans small (twoTo_lt (by decide)))
    rw [eq]
    rfl

theorem ofInt_finite {i : Int} (small : i.natAbs < twoTo 64) : (ofInt i).isFinite = true := by
  rw [ofInt_eq]
  split
  · rw [isFinite_neg, ofNat_finite small]
  · exact ofNat_finite small

end Binary64

namespace Number

def Word (cs : List Char) : Prop := ∀ c ∈ cs, Json.isWordChar c = true

theorem Word.of_sublist {a b : List Char} (within : a.Sublist b) (word : Word b) : Word a :=
  fun c member => word c (within.subset member)

theorem word_toDigits (n : Nat) : Word (Nat.toDigits 10 n) := by
  intro c member
  have digit := Nat.isDigit_of_mem_toDigits (by decide) (by decide) member
  simp [Json.isWordChar, Char.isAlphanum, digit]

theorem word_zeros (n : Nat) : Word (Binary64.zeros n) := by
  intro c member
  rw [(List.mem_replicate.mp member).2]
  decide

theorem word_positional {digits : List Char} (word : Word digits) (pointZero : Bool) (first : Int) :
    Word (Binary64.positionalText pointZero digits first) := by
  have point : Json.isWordChar '.' = true := by decide
  have zero : Json.isWordChar '0' = true := by decide
  unfold Word Binary64.positionalText
  split
  · rw [List.forall_mem_cons, List.forall_mem_cons, List.forall_mem_append]
    exact ⟨zero, point, word_zeros _, word⟩
  · dsimp only
    split
    · rw [List.forall_mem_append, List.forall_mem_append]
      refine ⟨⟨word, word_zeros _⟩, ?_⟩
      split
      · simp [point, zero]
      · simp
    · rw [List.forall_mem_append, List.forall_mem_cons]
      exact ⟨word.of_sublist (List.take_sublist _ _), point,
        word.of_sublist (List.drop_sublist _ _)⟩

theorem word_exponent {digits : List Char} (word : Word digits) (first : Int) :
    Word (Binary64.exponentText digits first) := by
  unfold Word Binary64.exponentText
  dsimp only
  rw [List.forall_mem_append, List.forall_mem_append, List.forall_mem_cons, List.forall_mem_cons]
  refine ⟨⟨word.of_sublist (List.take_sublist _ _), ?_⟩, by decide, ?_, word_toDigits _⟩
  · split
    · simp
    · rw [List.forall_mem_cons]
      exact ⟨by decide, word.of_sublist (List.drop_sublist _ _)⟩
  · split <;> decide

theorem text_int (i : Int) : (Number.int i).text =
    if i < 0 then '-' :: Nat.toDigits 10 i.natAbs else Nat.toDigits 10 i.natAbs := by
  cases i with
  | ofNat n =>
    have text : (Number.int (.ofNat n)).text = n.repr.toList := rfl
    rw [text, Nat.toList_repr, if_neg (by simp)]
    rfl
  | negSucc n =>
    have text : (Number.int (.negSucc n)).text = ("-" ++ (n + 1).repr).toList := rfl
    rw [text, String.toList_append, Nat.toList_repr, if_pos (Int.negSucc_lt_zero n)]
    rfl

theorem text_word (n : Number) : Word n.text := by
  have null : Word "null".toList := List.all_eq_true.mp (by decide)
  have minus : Json.isWordChar '-' = true := by decide
  cases n with
  | int i =>
    rw [text_int]
    split
    · exact List.forall_mem_cons.mpr ⟨minus, word_toDigits _⟩
    · exact word_toDigits _
  | float x =>
    cases x with
    | nan => exact null
    | infinite s => exact null
    | finite s m e h =>
      unfold Word Number.text Binary64.text
      simp only [Binary64.isFinite, if_true]
      split
      · rw [List.forall_mem_append]
        refine ⟨?_, word_positional (by simp [Word]; decide) _ _⟩
        split <;> simp [minus]
      · rw [List.forall_mem_append]
        constructor
        · split <;> simp [minus]
        · split
          · exact word_positional (word_toDigits _) _ _
          · exact word_exponent (word_toDigits _) _

/-! ### Integers are read back -/

theorem span_digits {cs : List Char} (digits : ∀ c ∈ cs, isDigit c = true) :
    cs.span isDigit = (cs, []) := by
  rw [List.span_eq_takeWhile_dropWhile, List.takeWhile_eq_self_iff.mpr digits,
    List.dropWhile_eq_nil_iff.mpr digits]

theorem le_foldl_digits (cs : List Char) (n : Nat) :
    n ≤ cs.foldl (fun n c => n * 10 + digitValue c) n := by
  induction cs generalizing n with
  | nil => exact Nat.le_refl n
  | cons c rest ih => exact Nat.le_trans (by omega) (ih (n * 10 + digitValue c))

theorem gather_fits {cs : List Char} {n : Nat}
    (fits : cs.foldl (fun n c => n * 10 + digitValue c) n < significandLimit) :
    gather n cs = (cs.foldl (fun n c => n * 10 + digitValue c) n, []) := by
  induction cs generalizing n with
  | nil => rfl
  | cons c rest ih =>
    have below := le_foldl_digits rest (n * 10 + digitValue c)
    unfold gather
    dsimp only
    rw [if_pos (Nat.lt_of_le_of_lt below fits)]
    exact ih fits

/-- No number is written with a zero before its other digits. -/
theorem toDigits_lead {n : Nat} {more : List Char} (zero : Nat.toDigits 10 n = '0' :: more) :
    more = [] := by
  cases more with
  | nil => rfl
  | cons c rest =>
    have value := Decimal.natOf_toDigits n
    have digits : ∀ d ∈ c :: rest, isDigit d = true := by
      intro d member
      apply toDigits_digits (n := n)
      rw [zero]
      exact List.mem_cons_of_mem _ member
    have small := Decimal.natOf_lt digits
    rw [zero, Decimal.natOf_cons] at value
    have none : digitValue '0' = 0 := rfl
    have short := (Nat.length_toDigits_le_iff (b := 10) (n := n) (by decide)
      (show 0 < (c :: rest).length by simp)).mpr (by rw [← value, none]; omega)
    rw [zero] at short
    simp at short

theorem read?_int {i : Int} (low : -(twoTo 63 : Int) ≤ i) (high : i < (twoTo 64 : Int)) :
    read? (Number.int i).text = some (.int i) := by
  have sixty : twoTo 64 = 2 * twoTo 63 := twoTo_succ 63
  have value : (Nat.toDigits 10 i.natAbs).foldl (fun n c => n * 10 + digitValue c) 0 = i.natAbs :=
    Decimal.natOf_toDigits i.natAbs
  have gathered : gather 0 (Nat.toDigits 10 i.natAbs) = (i.natAbs, []) := by
    rw [gather_fits, value]
    rw [value]
    unfold significandLimit
    omega
  have digits : ∀ c ∈ Nat.toDigits 10 i.natAbs, isDigit c = true := fun c => toDigits_digits
  have lead (more : List Char) : Nat.toDigits 10 i.natAbs = '0' :: more → more = [] := toDigits_lead
  have filled : Nat.toDigits 10 i.natAbs ≠ [] := Nat.toDigits_ne_nil
  obtain ⟨first, more, written⟩ := List.exists_cons_of_ne_nil filled
  rw [text_int]
  rw [written] at gathered digits lead ⊢
  have split := span_digits digits
  have plain : ¬ (first = '0' ∧ more ≠ []) := by
    rintro ⟨rfl, long⟩
    exact long (lead more rfl)
  have unsigned (negative : Bool) : unsigned? negative (first :: more) =
      some (whole negative i.natAbs) := by
    unfold unsigned?
    rw [split]
    dsimp only
    rw [if_neg plain, gathered]
    rfl
  by_cases negative : i < 0
  · rw [if_pos negative]
    change unsigned? true (first :: more) = _
    rw [unsigned, whole, if_neg (by simp), if_neg (by omega)]
    congr
    omega
  · rw [if_neg negative]
    unfold read?
    split
    · rename_i sign
      rw [(List.cons.inj sign).1] at digits
      exact absurd (digits '-' List.mem_cons_self) (by decide)
    · rw [unsigned, whole, if_pos (by simp)]
      congr
      omega

/-! ### What is read is an integer of 64 bits or a finite double -/

/-- What a record or a text can hold: an integer of 64 bits, or a finite double. -/
def Sound : Number → Prop
  | .int i => -(twoTo 63 : Int) ≤ i ∧ i < (twoTo 64 : Int)
  | .float x => x.isFinite = true

theorem Sound.size {i : Int} (sound : (int i).Sound) : i.natAbs < twoTo 64 := by
  obtain ⟨low, high⟩ := sound
  have sixty : twoTo 64 = 2 * twoTo 63 := twoTo_succ 63
  omega

theorem Sound.isFinite {n : Number} (sound : n.Sound) : n.toBinary64.isFinite = true := by
  cases n with
  | int i => exact Binary64.ofInt_finite sound.size
  | float x => exact sound

theorem gather_lt (n : Nat) (cs : List Char) (small : n < significandLimit) :
    (gather n cs).1 < significandLimit := by
  induction cs generalizing n with
  | nil => exact small
  | cons c rest ih =>
    unfold gather
    dsimp only
    split
    · rename_i next
      exact ih _ next
    · exact small

theorem scaled?_finite {steps : Nat} {x y : Binary64} {exponent : Int}
    (scaled : scaled? steps x exponent = some y) : y.isFinite = true := by
  induction steps generalizing x exponent with
  | zero =>
    obtain rfl := Option.some.inj scaled
    rfl
  | succ steps ih =>
    unfold scaled? at scaled
    split at scaled
    · dsimp only at scaled
      rw [Option.ite_none_right_eq_some] at scaled
      obtain ⟨finite, same⟩ := scaled
      rw [← Option.some.inj same]
      exact finite
    · split at scaled
      · obtain rfl := Option.some.inj scaled
        rfl
      · split at scaled
        · cases scaled
        · exact ih scaled

theorem float?_sound {negative : Bool} {significand : Nat} {exponent : Int} {n : Number}
    (read : float? negative significand exponent = some n) : n.Sound := by
  unfold float? at read
  obtain ⟨x, scaled, rfl⟩ := Option.map_eq_some_iff.mp read
  have finite := scaled?_finite scaled
  unfold Sound
  dsimp only
  split
  · rw [Binary64.isFinite_neg, finite]
  · exact finite

theorem withPower?_sound {negative down : Bool} {significand : Nat} {start : Int}
    {digits : List Char} {n : Number}
    (read : withPower? negative significand start down digits = some n) : n.Sound := by
  unfold withPower? at read
  dsimp only at read
  split at read
  · cases read
  · split at read
    · split at read
      · cases read
      · obtain rfl := Option.some.inj read
        unfold Sound
        dsimp only
        split <;> rfl
    · exact float?_sound read

theorem withExponent?_sound {negative : Bool} {significand : Nat} {start : Int} {cs : List Char}
    {n : Number} (read : withExponent? negative significand start cs = some n) : n.Sound := by
  unfold withExponent? at read
  split at read
  · exact withPower?_sound read
  · exact withPower?_sound read
  · exact withPower?_sound read

theorem finish?_sound {negative : Bool} {significand : Nat} {exponent : Int} {cs : List Char}
    {n : Number} (read : finish? negative significand exponent cs = some n) : n.Sound := by
  unfold finish? at read
  split at read
  · exact float?_sound read
  · split at read
    · exact withExponent?_sound read
    · cases read

theorem withFraction?_sound {negative : Bool} {significand : Nat} {exponent : Int} {cs : List Char}
    {n : Number} (read : withFraction? negative significand exponent cs = some n) : n.Sound := by
  unfold withFraction? at read
  dsimp only at read
  split at read
  · cases read
  · exact finish?_sound read

theorem whole_sound {negative : Bool} {significand : Nat} (small : significand < significandLimit) :
    (whole negative significand).Sound := by
  have sixty : twoTo 64 = 2 * twoTo 63 := twoTo_succ 63
  have bits := twoTo_pos 63
  unfold significandLimit at small
  unfold whole
  split
  · constructor <;> omega
  · split
    · unfold Sound
      dsimp only
      rw [Binary64.isFinite_neg]
      exact Binary64.ofNat_finite small
    · constructor <;> omega

theorem unsigned?_sound {negative : Bool} {cs : List Char} {n : Number}
    (read : unsigned? negative cs = some n) : n.Sound := by
  unfold unsigned? at read
  split at read
  · cases read
  · split at read
    · cases read
    · dsimp only at read
      split at read
      · exact withFraction?_sound read
      · split at read
        · rw [← Option.some.inj read]
          exact whole_sound (gather_lt _ _ (twoTo_pos _))
        · exact float?_sound read
      · exact finish?_sound read

theorem read?_sound {cs : List Char} {n : Number} (read : read? cs = some n) : n.Sound := by
  unfold read? at read
  split at read
  · exact unsigned?_sound read
  · exact unsigned?_sound read

end Number
end Orchestration

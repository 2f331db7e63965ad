import Orchestration.Policy.Condition
import Orchestration.Proofs.Canonical
import Orchestration.Proofs.Verdicts

/-! What conditions take for equal. Two numbers are equal if they have one nearest double, which
merges integers beyond 2⁵³ and is equality of values up to there. Any other two values are equal if
they are built alike and the numbers in them have one value and one kind: within lists and objects
an integer never equals a double. -/
namespace Orchestration

/-! ### Integers that are doubles -/

namespace Binary64

theorem place?_neg (x : Binary64) : x.neg.place? = x.place?.map (- ·) := by
  cases x with
  | finite s m e canonical => cases s <;> simp [neg, place?]
  | infinite s =>
    change some (if !s then -(twoTo 2098 : Int) else twoTo 2098) =
      some (-(if s then -(twoTo 2098 : Int) else twoTo 2098))
    generalize (twoTo 2098 : Int) = far
    cases s <;> simp
  | nan => rfl

theorem place_of_fraction {m n b : Nat} {e : Int} (least : -1074 ≤ e)
    (magnitude : fraction m e = (n * b, b)) :
    m * twoTo (e + 1074).toNat = n * twoTo 1074 := by
  unfold fraction at magnitude
  split at magnitude
  · obtain ⟨rfl, rfl⟩ := Prod.mk.inj magnitude
    rw [Nat.mul_assoc, ← twoTo_add]
    congr 2
    omega
  · obtain ⟨whole, rfl⟩ := Prod.mk.inj magnitude
    have split : (e + 1074).toNat = e.toNat + 1074 := by omega
    rw [split, twoTo_add, ← Nat.mul_assoc, whole, Nat.mul_one]

theorem place?_ofNat_short {n : Nat} (short : n < twoTo 53) :
    (ofNat n).place? = some ((n * twoTo 1074 : Nat) : Int) := by
  obtain ⟨m, e, canonical, b, _, eq, magnitude⟩ := ofNat_exact short
  rw [eq, place?, place_of_fraction canonical.1.2.1 magnitude]
  exact congrArg some (if_neg Bool.false_ne_true)

/-- A number that has the place of some double is not rounded. -/
theorem place?_ofNat_exact {n m : Nat} {e : Int} (small : n < twoTo 1023)
    (canonical : Canonical m e) (same : n * twoTo 1074 = m * twoTo (e + 1074).toNat) :
    (ofNat n).place? = some ((n * twoTo 1074 : Nat) : Int) := by
  by_cases short : n < twoTo 53
  · exact place?_ofNat_short short
  obtain ⟨gap, long, most⟩ := log2_of_long (Nat.le_of_not_lt short) small
  have low := log2_le (Nat.lt_of_lt_of_le (twoTo_pos 53) (Nat.le_of_not_lt short))
  rw [long] at low
  obtain ⟨⟨bits, least, _⟩, _⟩ := canonical
  -- the exponent makes up for what the significand lacks, so it is a multiple of the unit
  have deep : gap + 1 + 1074 ≤ (e + 1074).toNat := by
    refine Nat.le_of_not_lt fun less => ?_
    have near : m * twoTo (e + 1074).toNat < twoTo 53 * twoTo (gap + 1074) :=
      Nat.mul_lt_mul_of_lt_of_le bits (twoTo_le (by omega)) (twoTo_pos _)
    have far := Nat.mul_le_mul_right (twoTo 1074) low
    rw [same, ← twoTo_add] at far
    rw [← twoTo_add] at near
    refine absurd (Nat.lt_of_le_of_lt far near) (Nat.not_lt.mpr (twoTo_le ?_))
    omega
  obtain ⟨rest, split⟩ := Nat.exists_eq_add_of_le deep
  have multiple : n = twoTo (gap + 1) * (m * twoTo rest) := by
    refine Nat.eq_of_mul_eq_mul_right (twoTo_pos 1074) (same.trans ?_)
    rw [split, twoTo_add, twoTo_add]
    generalize twoTo 1074 = unit
    ac_rfl
  obtain ⟨m', e', canonical', _, eq, place⟩ := ofNat_long long most
  have exact_ : roundHalfEven n (twoTo (gap + 1)) * twoTo (gap + 1) = n := by
    rw [multiple, roundHalfEven_self (twoTo_pos _), Nat.mul_comm]
  rw [eq, place?, place, exact_]
  exact congrArg some (if_neg Bool.false_ne_true)

theorem place?_ofInt {i : Int} (kept : (ofNat i.natAbs).place? =
    some ((i.natAbs * twoTo 1074 : Nat) : Int)) : (ofInt i).place? = some (i * twoTo 1074) := by
  have units : ((i.natAbs * twoTo 1074 : Nat) : Int) = i.natAbs * twoTo 1074 := Int.natCast_mul ..
  rw [ofInt_eq]
  split
  · have size : (i.natAbs : Int) = -i := by omega
    rw [place?_neg, kept, units, size, Option.map_some, Int.neg_mul, Int.neg_neg]
  · have size : (i.natAbs : Int) = i := by omega
    rw [kept, units, size]

theorem value?_eq_int {x : Binary64} {i : Int} :
    x.value? = some (i : ℚ) ↔ x.place? = some (i * twoTo 1074) := by
  have unit := unit_pos.ne'
  unfold value?
  rw [Option.map_eq_some_iff]
  constructor
  · rintro ⟨p, place, value⟩
    rw [div_eq_iff unit] at value
    rw [place, show p = i * twoTo 1074 by exact_mod_cast value]
  · intro place
    refine ⟨_, place, ?_⟩
    rw [div_eq_iff unit]
    push_cast
    rfl

theorem value?_of_finite {x : Binary64} (finite : x.isFinite = true) :
    ∃ q, x.value? = some q := by
  cases x with
  | finite s m e canonical => exact ⟨_, rfl⟩
  | infinite s => cases finite
  | nan => cases finite

theorem value?_ofInt {i : Int} (small : i.natAbs ≤ twoTo 53) : (ofInt i).value? = some (i : ℚ) := by
  apply value?_eq_int.mpr
  apply place?_ofInt
  rcases Nat.lt_or_eq_of_le small with short | top
  · exact place?_ofNat_short short
  · have canonical : Canonical (twoTo 52) 1 := by decide
    have size : i.natAbs = twoTo 52 * twoTo 1 := top.trans (twoTo_add 52 1)
    apply place?_ofNat_exact (Nat.lt_of_le_of_lt small (twoTo_lt (by decide))) canonical
    rw [size, Nat.mul_assoc]
    exact congrArg (twoTo 52 * ·) (twoTo_add 1 1074).symm

/-- An integer that is the value of a double is its own nearest double. -/
theorem value?_ofInt_of_double {i : Int} {x : Binary64} (small : i.natAbs < twoTo 64)
    (finite : x.isFinite = true) (value : x.value? = some (i : ℚ)) :
    (ofInt i).value? = some (i : ℚ) := by
  cases x with
  | infinite s => cases finite
  | nan => cases finite
  | finite s m e canonical =>
    have place := value?_eq_int.mp value
    have size : i.natAbs * twoTo 1074 = m * twoTo (e + 1074).toNat := by
      have sizes := congrArg Int.natAbs (Option.some.inj place)
      rw [Int.natAbs_mul, Int.natAbs_natCast] at sizes
      rw [← sizes]
      split
      · rw [Int.natAbs_neg, Int.natAbs_natCast]
      · rw [Int.natAbs_natCast]
    apply value?_eq_int.mpr
    apply place?_ofInt
    exact place?_ofNat_exact (Nat.lt_trans small (twoTo_lt (by decide))) canonical size

theorem related_iff {x y : Binary64} {r : Int → Int → Bool} {s : ℚ → ℚ → Prop}
    (agrees : ∀ {a b}, x.value? = some a → y.value? = some b → (related r x y = true ↔ s a b)) :
    related r x y = true ↔ ∃ a b, x.value? = some a ∧ y.value? = some b ∧ s a b := by
  cases left : x.value? with
  | none =>
    have nan : x = .nan := place?_eq_none.mp (Option.map_eq_none_iff.mp left)
    simp [nan, related_nan_left]
  | some a =>
    cases right : y.value? with
    | none =>
      have nan : y = .nan := place?_eq_none.mp (Option.map_eq_none_iff.mp right)
      simp [nan, related_nan_right]
    | some b => simp [agrees left right]

theorem related_swapped_iff {x y : Binary64} {r : Int → Int → Bool} {s : ℚ → ℚ → Prop}
    (agrees : ∀ {a b}, y.value? = some a → x.value? = some b → (related r y x = true ↔ s a b)) :
    related r y x = true ↔ ∃ a b, x.value? = some a ∧ y.value? = some b ∧ s b a := by
  rw [related_iff agrees, exists_comm]
  simp only [and_left_comm]

end Binary64

/-! ### Numbers -/

namespace Number

def value? : Number → Option ℚ
  | .int i => some i
  | .float x => x.value?

def SameValue (m n : Number) : Prop := ∃ q, m.value? = some q ∧ n.value? = some q

def SameKind : Number → Number → Prop
  | .int _, .int _ => True
  | .float _, .float _ => True
  | _, _ => False

def nearest? (n : Number) : Option ℚ := n.toBinary64.value?

def SameNearest (m n : Number) : Prop := ∃ q, m.nearest? = some q ∧ n.nearest? = some q

def IsDouble (n : Number) : Prop := n.nearest? = n.value?

theorem isDouble_float (x : Binary64) : (float x).IsDouble := rfl

theorem isDouble_int {i : Int} (small : i.natAbs ≤ twoTo 53) : (int i).IsDouble :=
  Binary64.value?_ofInt small

theorem eq_toBinary64 {m n : Number} :
    m.toBinary64.eq n.toBinary64 = true ↔ m.SameNearest n := by
  unfold SameNearest nearest?
  rw [Binary64.eq, Binary64.related_iff Binary64.eq_iff_value?]
  constructor
  · rintro ⟨a, _, left, right, rfl⟩
    exact ⟨a, left, right⟩
  · rintro ⟨a, left, right⟩
    exact ⟨a, a, left, right, rfl⟩

theorem sameNearest_iff {m n : Number} (left : m.IsDouble) (right : n.IsDouble) :
    SameNearest m n ↔ SameValue m n := by
  unfold SameNearest SameValue
  rw [left, right]

theorem sameValue_int {i j : Int} : SameValue (.int i) (.int j) ↔ i = j := by
  constructor
  · rintro ⟨q, left, right⟩
    exact_mod_cast (Option.some.inj left).trans (Option.some.inj right).symm
  · rintro rfl
    exact ⟨i, rfl, rfl⟩

theorem same_iff {m n : Number} : m.same n = true ↔ SameKind m n ∧ SameValue m n := by
  cases m with
  | int i =>
    cases n with
    | int j => simp [same, SameKind, sameValue_int]
    | float y => simp [same, SameKind]
  | float x =>
    cases n with
    | int j => simp [same, SameKind]
    | float y =>
      have equal : (float x).toBinary64.eq (float y).toBinary64 = true ↔ _ := eq_toBinary64
      exact equal.trans (and_iff_right trivial).symm

/-- An integer and a double of one value have one nearest double. -/
theorem SameValue.sameNearest {m n : Number} (same : SameValue m n) (sound : m.Sound)
    (sound' : n.Sound) : SameNearest m n := by
  obtain ⟨q, left, right⟩ := same
  cases m with
  | int i =>
    obtain rfl := Option.some.inj left
    cases n with
    | int j =>
      obtain ⟨r, nearest⟩ := Binary64.value?_of_finite sound.isFinite
      have equal : j = i := by exact_mod_cast Option.some.inj right
      exact ⟨r, nearest, equal ▸ nearest⟩
    | float y => exact ⟨i, Binary64.value?_ofInt_of_double sound.size sound' right, right⟩
  | float x =>
    cases n with
    | int j =>
      obtain rfl := Option.some.inj right
      exact ⟨j, left, Binary64.value?_ofInt_of_double sound'.size sound left⟩
    | float y => exact ⟨q, left, right⟩

end Number

/-! ### Values of any nesting -/

namespace Json

mutual

def Alike (related : Number → Number → Prop) : Json → Json → Prop
  | .null, .null => True
  | .bool a, .bool b => a = b
  | .num m, .num n => related m n
  | .str s, .str t => s = t
  | .arr a, .arr b => AlikeItems related a b
  | .obj a, .obj b => AlikeMembers related a b
  | _, _ => False

def AlikeItems (related : Number → Number → Prop) : List Json → List Json → Prop
  | [], [] => True
  | a :: r, b :: s => Alike related a b ∧ AlikeItems related r s
  | _, _ => False

def AlikeMembers (related : Number → Number → Prop) :
    List (String × Json) → List (String × Json) → Prop
  | [], [] => True
  | (k, a) :: r, (l, b) :: s => k = l ∧ Alike related a b ∧ AlikeMembers related r s
  | _, _ => False

end

section Mono

variable {r r' : Number → Number → Prop}

mutual

theorem Alike.mono : ∀ {a b : Json}, (∀ m ∈ a.numbers, ∀ n ∈ b.numbers, r m n → r' m n) →
    Alike r a b → Alike r' a b
  | a, b, weaker, alike => by
    cases a <;> cases b <;> try exact alike
    case num.num m n =>
      exact weaker m (List.mem_singleton_self m) n (List.mem_singleton_self n) alike
    case arr.arr a b => exact AlikeItems.mono weaker alike
    case obj.obj a b => exact AlikeMembers.mono weaker alike

theorem AlikeItems.mono : ∀ {a b : List Json},
    (∀ m ∈ itemNumbers a, ∀ n ∈ itemNumbers b, r m n → r' m n) →
      AlikeItems r a b → AlikeItems r' a b
  | [], [], _, alike => alike
  | [], _ :: _, _, alike => alike
  | _ :: _, [], _, alike => alike
  | _ :: _, _ :: _, weaker, ⟨first, more⟩ =>
    ⟨Alike.mono (fun m left n right => weaker m (List.mem_append_left _ left) n
      (List.mem_append_left _ right)) first,
    AlikeItems.mono (fun m left n right => weaker m (List.mem_append_right _ left) n
      (List.mem_append_right _ right)) more⟩

theorem AlikeMembers.mono : ∀ {a b : List (String × Json)},
    (∀ m ∈ memberNumbers a, ∀ n ∈ memberNumbers b, r m n → r' m n) →
      AlikeMembers r a b → AlikeMembers r' a b
  | [], [], _, alike => alike
  | [], _ :: _, _, alike => alike
  | _ :: _, [], _, alike => alike
  | (_, _) :: _, (_, _) :: _, weaker, ⟨key, first, more⟩ =>
    ⟨key, Alike.mono (fun m left n right => weaker m (List.mem_append_left _ left) n
      (List.mem_append_left _ right)) first,
    AlikeMembers.mono (fun m left n right => weaker m (List.mem_append_right _ left) n
      (List.mem_append_right _ right)) more⟩

end

end Mono

mutual

theorem same_iff : ∀ {a b : Json},
    a.same b = true ↔ Alike Number.SameKind a b ∧ Alike Number.SameValue a b
  | a, b => by
    cases a <;> cases b <;> try simp [same, Alike]
    case num.num m n => exact Number.same_iff
    case arr.arr a b => exact sameItems_iff
    case obj.obj a b => exact sameMembers_iff

theorem sameItems_iff : ∀ {a b : List Json}, sameItems a b = true ↔
    AlikeItems Number.SameKind a b ∧ AlikeItems Number.SameValue a b
  | [], [] => by simp [sameItems, AlikeItems]
  | [], _ :: _ => by simp [sameItems, AlikeItems]
  | _ :: _, [] => by simp [sameItems, AlikeItems]
  | a :: r, b :: s => by
    rw [sameItems, Bool.and_eq_true, same_iff, sameItems_iff, AlikeItems, AlikeItems]
    exact and_and_and_comm

theorem sameMembers_iff : ∀ {a b : List (String × Json)}, sameMembers a b = true ↔
    AlikeMembers Number.SameKind a b ∧ AlikeMembers Number.SameValue a b
  | [], [] => by simp [sameMembers, AlikeMembers]
  | [], _ :: _ => by simp [sameMembers, AlikeMembers]
  | _ :: _, [] => by simp [sameMembers, AlikeMembers]
  | (k, a) :: r, (l, b) :: s => by
    rw [sameMembers, Bool.and_eq_true, Bool.and_eq_true, beq_iff_eq, same_iff, sameMembers_iff,
      AlikeMembers, AlikeMembers]
    tauto

end

end Json

/-! ### Equality as conditions have it -/

namespace Condition

/-- What a condition takes for equal: of two numbers the nearest doubles, of anything else the
structure and the kind and value of every number within. -/
def Agree (a b : Json) : Prop :=
  match a, b with
  | .num m, .num n => m.SameNearest n
  | _, _ => a.Alike Number.SameKind b ∧ a.Alike Number.SameValue b

theorem agree_of_not_num {a b : Json} (other : a.number? = none ∨ b.number? = none) :
    Agree a b ↔ a.Alike Number.SameKind b ∧ a.Alike Number.SameValue b := by
  unfold Agree
  split
  · rcases other with other | other <;> cases other
  · rfl

theorem equal_iff {a b : Json} : equal a b = true ↔ Agree a b := by
  cases a with
  | num m =>
    cases b with
    | num n => exact Number.eq_toBinary64
    | _ => exact Json.same_iff
  | _ => exact Json.same_iff

theorem eq_matches_iff {a b : Json} : (eq b).matches (some a) = true ↔ Agree a b := equal_iff

theorem oneOf_matches_iff {items : List Json} {a : Json} :
    (oneOf items).matches (some a) = true ↔ ∃ b ∈ items, Agree a b := by
  rw [«matches», holds, List.any_eq_true]
  simp only [equal_iff]

/-- Equality as conditions have it is equality of values here: rounding does not merge two numbers,
and numbers within anything else that have one value are of one kind. -/
def ByValue (a b : Json) : Prop :=
  match a, b with
  | .num m, .num n => m.SameNearest n → m.SameValue n
  | _, _ => a.Alike Number.SameValue b → a.Alike Number.SameKind b

theorem byValue_of_not_num {a b : Json} (other : a.number? = none ∨ b.number? = none) :
    ByValue a b ↔ (a.Alike Number.SameValue b → a.Alike Number.SameKind b) := by
  unfold ByValue
  split
  · rcases other with other | other <;> cases other
  · rfl

/-- Numbers within are compared by value if they are all of one kind. -/
theorem byValue_of_sameKind {a b : Json} (other : a.number? = none ∨ b.number? = none)
    (kind : ∀ m ∈ a.numbers, ∀ n ∈ b.numbers, m.SameKind n) : ByValue a b :=
  (byValue_of_not_num other).mpr (Json.Alike.mono fun m left n right _ => kind m left n right)

/-- Agreement is equality by value for no other values. -/
theorem agree_iff_byValue {a b : Json} (left : a.Clean) (right : b.Clean) :
    (Agree a b ↔ a.Alike Number.SameValue b) ↔ ByValue a b := by
  by_cases other : a.number? = none ∨ b.number? = none
  · rw [agree_of_not_num other, byValue_of_not_num other]
    exact and_iff_right_iff_imp
  · cases a with
    | num m =>
      cases b with
      | num n =>
        have sound : m.Sound := left m (List.mem_singleton_self m)
        have sound' : n.Sound := right n (List.mem_singleton_self n)
        have rounded : m.SameValue n → m.SameNearest n := (·.sameNearest sound sound')
        exact ⟨Iff.mp, fun byValue => ⟨byValue, rounded⟩⟩
      | _ => exact absurd (.inr rfl) other
    | _ => exact absurd (.inl rfl) other

/-- What equality to a value comes to, and when it is equality by value. It is so of two numbers
that are doubles, as the integers up to 2⁵³ are, and of anything else whose numbers are all of one
kind. A list of values is matched if one of them is. -/
theorem equality_by_value (a b : Json) (left : a.Clean) (right : b.Clean) :
    ((eq b).matches (some a) = true ↔ Agree a b) ∧
    (((eq b).matches (some a) = true ↔ a.Alike Number.SameValue b) ↔ ByValue a b) ∧
    (∀ m n, a = .num m → b = .num n → m.IsDouble → n.IsDouble → ByValue a b) ∧
    (∀ i : Int, i.natAbs ≤ twoTo 53 → (Number.int i).IsDouble) ∧
    (a.number? = none ∨ b.number? = none →
      (∀ m ∈ a.numbers, ∀ n ∈ b.numbers, m.SameKind n) → ByValue a b) ∧
    ∀ items, (oneOf items).matches (some a) = true ↔
      ∃ b ∈ items, (eq b).matches (some a) = true := by
  refine ⟨eq_matches_iff, ?_, ?_, fun i => Number.isDouble_int, byValue_of_sameKind, ?_⟩
  · rw [eq_matches_iff]
    exact agree_iff_byValue left right
  · rintro m n rfl rfl double double'
    exact (Number.sameNearest_iff double double').mp
  · intro items
    simp only [oneOf_matches_iff, eq_matches_iff]

/-- The number one agrees with itself of the other kind on its own, and in lists with its own. -/
theorem equality_of_one :
    (Json.Clean (.int 1) ∧ Json.Clean (.float .one)) ∧
    (eq (.float .one)).matches (some (.int 1)) = true ∧
    (eq (.arr [.int 1])).matches (some (.arr [.int 1])) = true := by
  have sound : (Number.int 1).Sound := ⟨by decide, by decide⟩
  have clean : Json.Clean (.int 1) := List.forall_mem_singleton.mpr sound
  have clean' : Json.Clean (.float .one) := List.forall_mem_singleton.mpr rfl
  have listed : Json.Clean (.arr [.int 1]) := List.forall_mem_singleton.mpr sound
  obtain ⟨_, value, doubles, ints, _⟩ := equality_by_value _ _ clean clean'
  obtain ⟨_, value', _, _, kinds, _⟩ := equality_by_value _ _ listed listed
  have double : (Number.int 1).IsDouble := ints 1 (twoTo_pos 53)
  refine ⟨⟨clean, clean'⟩, ?_, ?_⟩
  · refine (value.mpr (doubles _ _ rfl rfl double (Number.isDouble_float _))).mpr ?_
    exact ⟨1, congrArg some Int.cast_one, Binary64.value?_one⟩
  · have kind : ∀ m ∈ [Number.int 1], ∀ n ∈ [Number.int 1], m.SameKind n := by
      simp [Number.SameKind]
    exact (value'.mpr (kinds (.inl rfl) kind)).mpr ⟨Number.sameValue_int.mpr rfl, trivial⟩

/-- In a list one differs from itself of the other kind, and beyond 2⁵³ two integers agree. -/
theorem equality_missed :
    (Json.Alike Number.SameValue (.arr [.float .one]) (.arr [.int 1]) ∧
      (eq (.arr [.int 1])).matches (some (.arr [.float .one])) = false) ∧
    (¬ Json.Alike Number.SameValue (.int 9007199254740992) (.int 9007199254740993) ∧
      (eq (.int 9007199254740993)).matches (some (.int 9007199254740992)) = true) := by
  refine ⟨⟨⟨⟨1, Binary64.value?_one, congrArg some Int.cast_one⟩, trivial⟩, rfl⟩, ?_, ?_⟩
  · exact fun same => absurd (Number.sameValue_int.mp same) (by decide)
  · decide +kernel

end Condition

end Orchestration

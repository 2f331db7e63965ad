import Orchestration.Proofs.Files
import Orchestration.Proofs.Records

/-! Records as texts. What is stored or published is written on one line and given back by it,
exactly when it is nested no deeper than readers go; whatever has been read is given back by the
text that is written for it. Texts of doubles are taken to be exact. -/
namespace Orchestration

namespace Json

/-- Every double within is given back by its text. -/
def Exact (j : Json) : Prop := ∀ x, .float x ∈ j.numbers → (Number.float x).Legible

theorem exact_record {members : List (String × Json)} (inner : ∀ m ∈ members, m.2.Exact) :
    (record members).Exact := by
  intro x member
  obtain ⟨m, inside, found⟩ := numbers_record member
  exact inner m inside x found

theorem Clean.legible {j : Json} (clean : j.Clean) (exactly : j.Exact) :
    ∀ n ∈ j.numbers, n.Legible := by
  intro n member
  cases n with
  | float x => exact exactly x member
  | int i =>
    obtain ⟨low, high⟩ := clean _ member
    exact Number.read?_int low high

theorem chars_flat (j : Json) : '\n' ∉ j.chars ∧ '\r' ∉ j.chars := by
  have visible := visible_chars j
  constructor
  · intro member
    exact absurd (visible _ member) (by decide)
  · intro member
    exact absurd (visible _ member) (by decide)

end Json

namespace Lines

theorem lines_line (j : Json) : Text.lines (line j).toList = [j.chars] := by
  unfold line Text.lines
  rw [String.toList_ofList, Text.splitChars_append, Text.splitChars_of_not_mem j.chars_flat.1]
  simp [Text.splitChars]

theorem chars_solid (members : List (String × Json)) (before : List Char) :
    Text.isBlankLine (before ++ (Json.obj members).chars) = false := by
  have brace : Text.isBlank '{' = false := by decide
  simp [Text.isBlankLine, Json.chars, brace]

theorem filled_line (members : List (String × Json)) :
    filled (line (.obj members)).toList = [(Json.obj members).chars] := by
  rw [line, String.toList_ofList]
  exact filled_feed (Json.chars_flat _).1 (chars_solid members [])

variable {α : Type} {decode : Json → Option α} {text : String}

theorem records?_single {cs : List Char} (one : filled text.toList = [cs]) :
    records? decode text = ((Json.readChars? cs).bind decode).map ([·]) := by
  unfold records?
  rw [one, List.mapM_cons]
  cases (Json.readChars? cs).bind decode with
  | none => rfl
  | some a => rfl

theorem records?_single_iff {cs : List Char} (one : filled text.toList = [cs]) {a : α} :
    records? decode text = some [a] ↔ (Json.readChars? cs).bind decode = some a := by
  rw [records?_single one]
  cases (Json.readChars? cs).bind decode with
  | none => simp
  | some b => simp

end Lines

structure RoundTrips {α : Type} (encode : α → Json) (decode : Json → Option α)
    (Sound : α → Prop) : Prop where
  line : ∀ a, '\n' ∉ (encode a).chars ∧ '\r' ∉ (encode a).chars ∧
    Text.lines (Lines.line (encode a)).toList = [(encode a).chars]
  back : ∀ a, Sound a → (encode a).Exact →
    ((Json.readChars? (encode a).chars).bind decode = some a ↔ (encode a).depth ≤ Json.depthLimit)
  again : ∀ text a, (Json.readChars? text).bind decode = some a → (encode a).Exact →
    (Json.readChars? (encode a).chars).bind decode = some a

theorem Codec.roundTrips {α : Type} {encode : α → Json} {decode : Json → Option α}
    {Sound : α → Prop} (c : Codec encode decode Sound Json.depthLimit) :
    RoundTrips encode decode Sound := by
  have back : ∀ a, Sound a → (encode a).Exact →
      ((Json.readChars? (encode a).chars).bind decode = some a ↔
        (encode a).depth ≤ Json.depthLimit) := by
    intro a sound exactly
    rw [Json.readChars?_chars ((c.clean a sound).legible exactly)]
    by_cases shallow : (encode a).depth ≤ Json.depthLimit
    · simp [shallow, c.back a sound]
    · simp [shallow]
  refine ⟨fun a => ⟨(encode a).chars_flat.1, (encode a).chars_flat.2, Lines.lines_line _⟩, back, ?_⟩
  intro text a read exactly
  obtain ⟨j, found, decoded⟩ := Option.bind_eq_some_iff.mp read
  obtain ⟨sound, shallow⟩ := c.sound j _ a (Json.readChars?_fits found) (Nat.le_refl _) decoded
  exact (back a sound exactly).mpr shallow

theorem Codec.unread {α : Type} {encode : α → Json} {decode : Json → Option α} {Sound : α → Prop}
    {least : Nat} (c : Codec encode decode Sound least) {a : α} (sound : Sound a)
    (exactly : (encode a).Exact) (deep : Json.depthLimit < (encode a).depth) :
    (Json.readChars? (encode a).chars).bind decode = none := by
  rw [Json.readChars?_chars ((c.clean a sound).legible exactly), if_neg (Nat.not_le.mpr deep),
    Option.bind_none]

namespace State

theorem blank_sound (session : String) {iteration : Nat} (small : iteration < twoTo 32)
    (phase : Phase) {t : Timestamp} (shown : t.Shown) :
    (blank session iteration phase t).Sound where
  iteration := small
  input := empty_proper
  observations := by simp [blank]
  timestamp := shown
  metadata := empty_proper

theorem blank_exact (session : String) (iteration : Nat) (phase : Phase) (t : Timestamp) :
    (blank session iteration phase t).toJson.Exact := by
  unfold toJson
  apply Json.exact_record
  simp [blank, Json.Exact, Json.numbers, Json.memberNumbers, Json.nat, Json.ofOption, Phase.toJson,
    Timestamp.toJson]

theorem blank_depth (session : String) (iteration : Nat) (phase : Phase) (t : Timestamp) :
    (blank session iteration phase t).toJson.depth ≤ 1 + 1 := by
  unfold toJson
  apply Json.depth_record
  simp [blank, Json.depth, Json.memberDepth, Json.nat, Json.ofOption, Phase.toJson,
    Timestamp.toJson]

/-- A state of a phase that has nothing to tell can be read back. -/
theorem blank_back (session : String) {iteration : Nat} (small : iteration < twoTo 32)
    (phase : Phase) {t : Timestamp} (shown : t.Shown) :
    (Json.readChars? (blank session iteration phase t).toJson.chars).bind ofJson? =
      some (blank session iteration phase t) := by
  have trips : RoundTrips toJson ofJson? Sound := codec.roundTrips
  apply (trips.back _ (blank_sound session small phase shown) (blank_exact session _ phase t)).mpr
  exact Nat.le_trans (blank_depth session iteration phase t) (by decide)

end State

/-! ### Records nested too deep -/

end Orchestration

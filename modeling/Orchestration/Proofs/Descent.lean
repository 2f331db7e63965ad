import Orchestration.Policy.Condition
import Orchestration.Proofs.Digits
import Orchestration.Proofs.Pieces

/-! Ways down into a value. What keys and positions lead to, one after the other, is found under
the path that joins them with dots; nothing else is found under any path; and a path that goes on
after a dot goes on from what was found before it. -/
namespace Orchestration.Path

/-- A step down that a segment can spell: a key without a dot, or a position that can be counted
in 64 bits, as those of a list in memory can. -/
inductive Step where
  | member (key : String) (plain : '.' ∉ key.toList)
  | item (position : Nat) (counted : position < twoTo 64)

namespace Step

def text : Step → String
  | member key _ => key
  | item position _ => toString position

end Step

inductive Leads : Json → List Step → Json → Prop
  | here (j : Json) : Leads j [] j
  | member {members : Table Json} {key : String} (plain : '.' ∉ key.toList) {j found : Json}
    {steps : List Step} (stands : Table.get? members key = some j) (onward : Leads j steps found) :
    Leads (.obj members) (.member key plain :: steps) found
  | item {items : List Json} {position : Nat} (counted : position < twoTo 64) {j found : Json}
    {steps : List Step} (stands : items[position]? = some j) (onward : Leads j steps found) :
    Leads (.arr items) (.item position counted :: steps) found

/-- The path of some steps. It takes a step to have one: the empty path is that of the empty key. -/
def dotted (steps : List Step) : String := ".".intercalate (steps.map Step.text)

/-! ### Segments -/

theorem index?_toDigits {n : Nat} (counted : n < twoTo 64) : index? (Nat.toDigits 10 n) = some n := by
  have digits : ∀ c ∈ Nat.toDigits 10 n, Number.isDigit c = true :=
    fun _ => Number.toDigits_digits
  have all : (Nat.toDigits 10 n).all (fun c => '0' ≤ c && c ≤ '9') = true :=
    List.all_eq_true.mpr digits
  have value : (Nat.toDigits 10 n).foldl (fun n c => n * 10 + (c.toNat - '0'.toNat)) 0 = n :=
    Decimal.natOf_toDigits n
  -- A sign would be skipped, and there is none.
  have unsigned : ∀ rest, Nat.toDigits 10 n ≠ '+' :: rest := by
    intro rest signed
    rw [signed] at digits
    exact absurd (digits '+' List.mem_cons_self) (by decide)
  have some : (Nat.toDigits 10 n).isEmpty = false := by
    simp [Nat.toDigits_ne_nil]
  unfold index?
  split
  · rename_i rest signed
    exact absurd signed (unsigned rest)
  · simp only [some, all, value, Bool.not_true, Bool.or_self, Bool.false_eq_true, if_false,
      if_pos counted]

theorem index?_counted {segment : List Char} {n : Nat} (read : index? segment = some n) :
    n < twoTo 64 := by
  unfold index? at read
  simp only [Option.ite_none_left_eq_some, Option.ite_none_right_eq_some] at read
  obtain ⟨-, counted, same⟩ := read
  rwa [← Option.some.inj same]

theorem text_item {position : Nat} (counted : position < twoTo 64) :
    (Step.item position counted).text.toList = Nat.toDigits 10 position := Nat.toList_repr

theorem text_free (step : Step) : '.' ∉ step.text.toList := by
  cases step with
  | member key plain => exact plain
  | item position counted =>
    intro dot
    rw [text_item] at dot
    exact absurd (Number.toDigits_digits dot) (by decide)

theorem segments_dotted (first : Step) (steps : List Step) :
    segments (dotted (first :: steps)) = (first :: steps).map fun step => step.text.toList := by
  have free : ∀ piece ∈ (first :: steps).map (fun step => step.text.toList), '.' ∉ piece := by
    intro piece member
    obtain ⟨step, -, rfl⟩ := List.mem_map.mp member
    exact text_free step
  have joined : (dotted (first :: steps)).toList =
      ['.'].intercalate ((first :: steps).map fun step => step.text.toList) := by
    rw [dotted, String.toList_intercalate, List.map_map]
    rfl
  rw [segments, joined, Text.splitChars_intercalate (by simp) free]

theorem segments_append (p q : String) : segments (p ++ "." ++ q) = segments p ++ segments q := by
  have apart : (p ++ "." ++ q).toList = p.toList ++ '.' :: q.toList := by
    simp [String.toList_append]
  rw [segments, apart, Text.splitChars_append]
  rfl

/-! ### What is found -/

theorem Leads.foldlM {root found : Json} {steps : List Step} (leads : Leads root steps found) :
    (steps.map fun step => step.text.toList).foldlM descend? root = some found := by
  induction leads with
  | here => rfl
  | @member members key plain j found steps stands _ ih =>
    have down : descend? (.obj members) (Step.member key plain).text.toList = some j := by
      rw [Step.text, descend?, String.ofList_toList]
      exact stands
    rw [List.map_cons, List.foldlM_cons, down]
    exact ih
  | @item items position counted j found steps stands _ ih =>
    have down : descend? (.arr items) (Step.item position counted).text.toList = some j := by
      rw [text_item, descend?, index?_toDigits counted]
      exact stands
    rw [List.map_cons, List.foldlM_cons, down]
    exact ih

/-- A segment that leads anywhere spells a step. -/
theorem descend?_spells {j found : Json} {segment : List Char} (plain : '.' ∉ segment)
    (down : descend? j segment = some found) : ∃ step, Leads j [step] found := by
  cases j with
  | obj members =>
    have key : '.' ∉ (String.ofList segment).toList := by rwa [String.toList_ofList]
    exact ⟨_, .member key down (.here found)⟩
  | arr items =>
    obtain ⟨position, read, stands⟩ := Option.bind_eq_some_iff.mp down
    exact ⟨_, .item (index?_counted read) stands (.here found)⟩
  | null | bool | num | str => cases down

theorem Leads.cons {root next found : Json} {step : Step} {steps : List Step}
    (first : Leads root [step] next) (onward : Leads next steps found) :
    Leads root (step :: steps) found := by
  cases first with
  | member plain stands done =>
    cases done
    exact .member plain stands onward
  | item counted stands done =>
    cases done
    exact .item counted stands onward

/-- What is found segment by segment is what as many steps lead to. -/
theorem leads_of_foldlM {pieces : List (List Char)} (plain : ∀ piece ∈ pieces, '.' ∉ piece)
    {root found : Json} (down : pieces.foldlM descend? root = some found) :
    ∃ steps, steps.length = pieces.length ∧ Leads root steps found := by
  induction pieces generalizing root with
  | nil =>
    obtain rfl : root = found := Option.some.inj down
    exact ⟨[], rfl, .here root⟩
  | cons piece rest ih =>
    obtain ⟨first, more⟩ := List.forall_mem_cons.mp plain
    rw [List.foldlM_cons] at down
    obtain ⟨next, here, later⟩ := Option.bind_eq_some_iff.mp down
    obtain ⟨step, leads⟩ := descend?_spells first here
    obtain ⟨steps, count, onward⟩ := ih more later
    exact ⟨step :: steps, congrArg Nat.succ count, leads.cons onward⟩

/-- A path goes on after a dot from what was found before it. Whatever keys without dots and
positions lead to is found under the path that they make up, and nothing else is found. -/
theorem resolve_reaches (root : Json) :
    (∀ p q, resolve root (p ++ "." ++ q) = (resolve root p).bind fun found => resolve found q) ∧
    (∀ first steps found, Leads root (first :: steps) found →
      resolve root (dotted (first :: steps)) = some found) ∧
    ∀ path found, resolve root path = some found →
      ∃ first steps, Leads root (first :: steps) found := by
  refine ⟨fun p q => ?_, fun first steps found leads => ?_, fun path found down => ?_⟩
  · unfold resolve
    rw [segments_append, List.foldlM_append]
    rfl
  · unfold resolve
    rw [segments_dotted]
    exact leads.foldlM
  · have plain : ∀ piece ∈ segments path, '.' ∉ piece := fun _ => Text.splitChars_free
    obtain ⟨steps, count, leads⟩ := leads_of_foldlM plain down
    cases steps with
    | nil =>
      have none : segments path = [] := List.length_eq_zero_iff.mp count.symm
      exact absurd none (Text.splitChars_ne_nil '.' path.toList)
    | cons first more => exact ⟨first, more, leads⟩

def shelves : Json :=
  .obj [("a", .obj [("b", .arr [.nat 10, .obj [("0", .bool true)]])])]

theorem shelves_resolved :
    Leads shelves [.member "a" (by decide), .member "b" (by decide), .item 1 (by decide),
      .member "0" (by decide)] (.bool true) ∧
    resolve shelves "a.b.1.0" = some (.bool true) ∧
    resolve shelves "a.b.1.0" = (resolve shelves "a.b").bind fun found => resolve found "1.0" := by
  obtain ⟨composes, reaches, -⟩ := resolve_reaches shelves
  have leads : Leads shelves [.member "a" (by decide), .member "b" (by decide),
      .item 1 (by decide), .member "0" (by decide)] (.bool true) :=
    .member _ rfl (.member _ rfl (.item _ rfl (.member _ rfl (.here _))))
  exact ⟨leads, reaches _ _ _ leads, composes "a.b" "1.0"⟩

end Orchestration.Path

import Orchestration.Proofs.Nesting

/-! Bounds on what is read. A text gives values that are nested no deeper than readers go, and
numbers that are integers of 64 bits or finite doubles: tokens hold nothing else, and every array
or object still open leaves room for those that enclose it. -/
namespace Orchestration.Json

structure Fits (k : Nat) (j : Json) : Prop where
  depth : j.depth ≤ k
  numbers : ∀ n ∈ j.numbers, n.Sound

theorem Fits.mono {k l : Nat} {j : Json} (fits : j.Fits k) (le : k ≤ l) : j.Fits l :=
  ⟨Nat.le_trans fits.depth le, fits.numbers⟩

theorem itemDepth_le_iff {items : List Json} {k : Nat} :
    itemDepth items ≤ k ↔ ∀ j ∈ items, j.depth ≤ k := by
  induction items with
  | nil => simp [itemDepth]
  | cons j rest ih => rw [itemDepth, Nat.max_le, ih, List.forall_mem_cons]

theorem memberDepth_le_iff {members : List (String × Json)} {k : Nat} :
    memberDepth members ≤ k ↔ ∀ m ∈ members, m.2.depth ≤ k := by
  induction members with
  | nil => simp [memberDepth]
  | cons m rest ih => rw [memberDepth, Nat.max_le, ih, List.forall_mem_cons]

theorem mem_itemNumbers {items : List Json} {n : Number} :
    n ∈ itemNumbers items ↔ ∃ j ∈ items, n ∈ j.numbers := by
  induction items with
  | nil => simp [itemNumbers]
  | cons j rest ih => rw [itemNumbers, List.mem_append, ih, List.exists_mem_cons_iff]

theorem mem_memberNumbers {members : List (String × Json)} {n : Number} :
    n ∈ memberNumbers members ↔ ∃ m ∈ members, n ∈ m.2.numbers := by
  induction members with
  | nil => simp [memberNumbers]
  | cons m rest ih => rw [memberNumbers, List.mem_append, ih, List.exists_mem_cons_iff]

theorem fits_arr {items : List Json} {k : Nat} :
    (arr items).Fits (k + 1) ↔ ∀ j ∈ items, j.Fits k := by
  constructor
  · rintro ⟨deep, sound⟩ j member
    exact ⟨itemDepth_le_iff.mp (Nat.le_of_succ_le_succ deep) j member,
      fun n inside => sound n (mem_itemNumbers.mpr ⟨j, member, inside⟩)⟩
  · intro all
    refine ⟨Nat.succ_le_succ (itemDepth_le_iff.mpr fun j member => (all j member).depth), ?_⟩
    intro n member
    obtain ⟨j, inside, found⟩ := mem_itemNumbers.mp member
    exact (all j inside).numbers n found

theorem fits_obj {members : List (String × Json)} {k : Nat} :
    (obj members).Fits (k + 1) ↔ ∀ m ∈ members, m.2.Fits k := by
  constructor
  · rintro ⟨deep, sound⟩ m member
    exact ⟨memberDepth_le_iff.mp (Nat.le_of_succ_le_succ deep) m member,
      fun n inside => sound n (mem_memberNumbers.mpr ⟨m, member, inside⟩)⟩
  · intro all
    refine ⟨Nat.succ_le_succ (memberDepth_le_iff.mpr fun m member => (all m member).depth), ?_⟩
    intro n member
    obtain ⟨m, inside, found⟩ := mem_memberNumbers.mp member
    exact (all m inside).numbers n found

theorem fits_null : null.Fits 0 := ⟨Nat.le_refl _, by simp [numbers]⟩

theorem fits_bool (b : Bool) : (bool b).Fits 0 := ⟨Nat.le_refl _, by simp [numbers]⟩

theorem fits_str (s : String) : (str s).Fits 0 := ⟨Nat.le_refl _, by simp [numbers]⟩

theorem fits_num {n : Number} (sound : n.Sound) : (num n).Fits 0 :=
  ⟨Nat.le_refl _, by simpa [numbers] using sound⟩

def Token.Sound : Token → Prop
  | .atom v => v.Fits 0
  | _ => True

theorem wordValue?_fits {w : List Char} {v : Json} (value : wordValue? w = some v) : v.Fits 0 := by
  unfold wordValue? at value
  split at value
  · obtain rfl := Option.some.inj value
    exact fits_null
  · split at value
    · obtain rfl := Option.some.inj value
      exact fits_bool true
    · split at value
      · obtain rfl := Option.some.inj value
        exact fits_bool false
      · obtain ⟨n, read, rfl⟩ := Option.map_eq_some_iff.mp value
        exact fits_num (Number.read?_sound read)

theorem punctuation?_sound {c : Char} {t : Token} (mark : punctuation? c = some t) : t.Sound := by
  unfold punctuation? at mark
  split at mark
  any_goals
    obtain rfl := Option.some.inj mark
    trivial
  cases mark

/-- A character that ends no token. -/
theorem silent {s next : Lexing} {more : List Token} (only : some (s, []) = some (next, more)) :
    ∀ t ∈ more, t.Sound := by
  obtain ⟨_, rfl⟩ := Prod.mk.inj (Option.some.inj only)
  simp

theorem start?_sound {c : Char} {next : Lexing} {more : List Token}
    (started : Lexing.start? c = some (next, more)) : ∀ t ∈ more, t.Sound := by
  unfold Lexing.start? at started
  split at started
  · exact silent started
  · split at started
    · rename_i mark
      obtain ⟨_, rfl⟩ := Prod.mk.inj (Option.some.inj started)
      exact List.forall_mem_singleton.mpr (punctuation?_sound mark)
    · split at started
      · exact silent started
      · split at started
        · exact silent started
        · cases started

theorem step?_sound {s next : Lexing} {c : Char} {more : List Token}
    (stepped : s.step? c = some (next, more)) : ∀ t ∈ more, t.Sound := by
  cases s with
  | between => exact start?_sound stepped
  | word w =>
    unfold Lexing.step? at stepped
    dsimp only at stepped
    split at stepped
    · exact silent stepped
    · obtain ⟨value, read, rest⟩ := Option.bind_eq_some_iff.mp stepped
      obtain ⟨⟨_, later⟩, started, same⟩ := Option.bind_eq_some_iff.mp rest
      obtain ⟨_, rfl⟩ := Prod.mk.inj (Option.some.inj same)
      exact List.forall_mem_cons.mpr ⟨wordValue?_fits read, start?_sound started⟩
  | text g =>
    unfold Lexing.step? at stepped
    dsimp only at stepped
    split at stepped
    · obtain ⟨_, rfl⟩ := Prod.mk.inj (Option.some.inj stepped)
      exact List.forall_mem_singleton.mpr (fits_str _)
    · split at stepped
      · exact silent stepped
      · split at stepped
        · cases stepped
        · exact silent stepped
  | escape g =>
    unfold Lexing.step? at stepped
    dsimp only at stepped
    split at stepped
    · exact silent stepped
    · obtain ⟨_, _, same⟩ := Option.map_eq_some_iff.mp stepped
      exact silent (congrArg some same)
  | unit g high missing value =>
    unfold Lexing.step? at stepped
    obtain ⟨d, _, rest⟩ := Option.bind_eq_some_iff.mp stepped
    dsimp only at rest
    split at rest
    · obtain ⟨_, _, same⟩ := Option.bind_eq_some_iff.mp rest
      exact silent same
    · exact silent rest
  | partner g high backslash =>
    cases backslash with
    | false =>
      unfold Lexing.step? at stepped
      dsimp only at stepped
      rw [Option.ite_none_right_eq_some] at stepped
      exact silent stepped.2
    | true =>
      unfold Lexing.step? at stepped
      dsimp only at stepped
      rw [Option.ite_none_right_eq_some] at stepped
      exact silent stepped.2

theorem finish?_sound {s : Lexing} {more : List Token} (finished : s.finish? = some more) :
    ∀ t ∈ more, t.Sound := by
  unfold Lexing.finish? at finished
  split at finished
  · obtain rfl := Option.some.inj finished
    simp
  · obtain ⟨v, value, rfl⟩ := Option.map_eq_some_iff.mp finished
    exact List.forall_mem_singleton.mpr (wordValue?_fits value)
  · cases finished

theorem take_sound {l : Lexed} {step : Option (Option Lexing × List Token)}
    (sound : ∀ t ∈ l.found, t.Sound) (new : ∀ next ∈ step, ∀ t ∈ next.2, t.Sound) :
    ∀ t ∈ (l.take step).found, t.Sound := by
  cases step with
  | none => exact sound
  | some next =>
    intro t member
    rcases List.mem_append.mp member with late | early
    · exact new next rfl t (List.mem_reverse.mp late)
    · exact sound t early

theorem advance_sound {l : Lexed} (sound : ∀ t ∈ l.found, t.Sound) (c : Char) :
    ∀ t ∈ (l.advance c).found, t.Sound := by
  unfold Lexed.advance
  split
  · apply take_sound sound
    intro next taken
    obtain ⟨step, stepped, rfl⟩ := Option.map_eq_some_iff.mp taken
    exact step?_sound stepped
  · exact sound

theorem lex_sound (text : List Char) : ∀ t ∈ (lex text).tokens, t.Sound := by
  have all (cs : List Char) (l : Lexed) (sound : ∀ t ∈ l.found, t.Sound) :
      ∀ t ∈ (cs.foldl Lexed.advance l).found, t.Sound := by
    induction cs generalizing l with
    | nil => exact sound
    | cons c rest ih => exact ih _ (advance_sound sound c)
  have read := all text .start (by simp [Lexed.start])
  intro t member
  unfold lex Lexed.finish at member
  split at member
  · refine take_sound read ?_ t (List.mem_reverse.mp member)
    intro next taken
    obtain ⟨more, finished, rfl⟩ := Option.map_eq_some_iff.mp taken
    exact finish?_sound finished
  · exact read t (List.mem_reverse.mp member)

namespace Reading

/-- The parts of open arrays and objects are sound, and leave room for what encloses them. -/
def Stacked : List Frame → Prop
  | [] => True
  | .items done :: rest =>
    (∃ k, k + (rest.length + 1) = depthLimit ∧ ∀ j ∈ done, j.Fits k) ∧ Stacked rest
  | .members done _ :: rest =>
    (∃ k, k + (rest.length + 1) = depthLimit ∧ ∀ m ∈ done, m.2.Fits k) ∧ Stacked rest

structure Bounded (r : Reading) : Prop where
  stack : Stacked r.stack
  value : ∀ j, r.expect = .finish j → j.Fits depthLimit

theorem Stacked.room {stack : List Frame} (stacked : Stacked stack) :
    ∃ k, k + stack.length = depthLimit := by
  cases stack with
  | nil => exact ⟨depthLimit, rfl⟩
  | cons frame rest =>
    cases frame with
    | items done =>
      obtain ⟨⟨k, room, _⟩, _⟩ := stacked
      exact ⟨k, room⟩
    | members done key =>
      obtain ⟨⟨k, room, _⟩, _⟩ := stacked
      exact ⟨k, room⟩

theorem supply?_bounded {stack : List Frame} {j : Json} {next : Reading} {k : Nat}
    (stacked : Stacked stack) (room : k + stack.length = depthLimit) (fits : j.Fits k)
    (supplied : supply? stack j = some next) : next.Bounded := by
  unfold supply? at supplied
  split at supplied
  · obtain rfl := Option.some.inj supplied
    refine ⟨trivial, fun v same => ?_⟩
    cases same
    exact room ▸ fits
  · obtain rfl := Option.some.inj supplied
    obtain ⟨⟨l, room', inside⟩, outer⟩ := stacked
    obtain rfl : k = l := Nat.add_right_cancel (room.trans room'.symm)
    refine ⟨⟨⟨k, room', List.forall_mem_cons.mpr ⟨fits, inside⟩⟩, outer⟩, ?_⟩
    intro v same
    cases same
  · obtain rfl := Option.some.inj supplied
    obtain ⟨⟨l, room', inside⟩, outer⟩ := stacked
    obtain rfl : k = l := Nat.add_right_cancel (room.trans room'.symm)
    refine ⟨⟨⟨k, room', List.forall_mem_cons.mpr ⟨fits, inside⟩⟩, outer⟩, ?_⟩
    intro v same
    cases same
  · cases supplied

theorem close?_bounded {stack : List Frame} {object : Bool} {next : Reading}
    (stacked : Stacked stack) (closed : close? stack object = some next) : next.Bounded := by
  unfold close? at closed
  split at closed
  · obtain ⟨⟨k, room, inside⟩, outer⟩ := stacked
    refine supply?_bounded outer (k := k + 1) (by omega) (fits_arr.mpr ?_) closed
    exact fun j member => inside j (List.mem_reverse.mp member)
  · obtain ⟨⟨k, room, inside⟩, outer⟩ := stacked
    refine supply?_bounded outer (k := k + 1) (by omega) (fits_obj.mpr ?_) closed
    exact fun m member => inside m (List.mem_reverse.mp member)
  · cases closed

theorem Bounded.of_stacked {e : Expect} {stack : List Frame} (stacked : Stacked stack)
    (unfinished : ∀ j, e ≠ .finish j) : Bounded ⟨e, stack⟩ :=
  ⟨stacked, fun j same => absurd same (unfinished j)⟩

theorem step?_bounded {r next : Reading} {t : Token} (bounded : r.Bounded) (sound : t.Sound)
    (stepped : r.step? t = some next) : next.Bounded := by
  obtain ⟨expect, stack⟩ := r
  have stacked := bounded.stack
  obtain ⟨k, room⟩ := stacked.room
  unfold step? at stepped
  dsimp only at stepped stacked room
  split at stepped
  · exact supply?_bounded stacked room (Fits.mono sound (Nat.zero_le k)) stepped
  · split at stepped
    · cases stepped
    · rename_i shallow
      have deeper : depthLimit - (stack.length + 1) + (stack.length + 1) = depthLimit := by omega
      split at stepped
      · obtain rfl := Option.some.inj stepped
        exact .of_stacked ⟨⟨_, deeper, by simp⟩, stacked⟩ (by simp)
      · obtain rfl := Option.some.inj stepped
        exact .of_stacked ⟨⟨_, deeper, by simp⟩, stacked⟩ (by simp)
  · exact close?_bounded stacked stepped
  · split at stepped
    · obtain rfl := Option.some.inj stepped
      exact .of_stacked stacked (by simp)
    · cases stepped
  · exact close?_bounded stacked stepped
  · obtain rfl := Option.some.inj stepped
    exact .of_stacked stacked (by simp)
  · split at stepped
    · obtain rfl := Option.some.inj stepped
      exact .of_stacked stacked (by simp)
    · obtain rfl := Option.some.inj stepped
      exact .of_stacked stacked (by simp)
    · cases stepped
  · exact close?_bounded stacked stepped
  · cases stepped

theorem run_bounded {tokens : List Token} {r : Reading} (bounded : r.Bounded)
    (sound : ∀ t ∈ tokens, t.Sound) : (r.run tokens).1.Bounded := by
  induction tokens generalizing r with
  | nil => exact bounded
  | cons t rest ih =>
    obtain ⟨first, more⟩ := List.forall_mem_cons.mp sound
    unfold run
    split
    · rename_i next step
      exact ih (step?_bounded bounded first step) more
    · exact bounded

end Reading

/-- What is read of a text is nested no deeper than readers go, and its numbers are sound. -/
theorem readChars?_fits {text : List Char} {j : Json} (read : readChars? text = some j) :
    j.Fits depthLimit := by
  obtain ⟨_, stack, ran⟩ := read_tokens read
  have start : Reading.Bounded ⟨.value false, []⟩ := .of_stacked trivial (by simp)
  have last := Reading.run_bounded start (lex_sound text)
  rw [ran] at last
  exact last.value j rfl

end Orchestration.Json

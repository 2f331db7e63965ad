import Orchestration.Json.Reader
import Orchestration.Proofs.Lexing

/-! How deep values are nested, and what follows for reading them. A value is had again from its
text exactly if it is nested no deeper than readers go, and a text that is read to its end is not
read when something follows. -/
namespace Orchestration.Json

mutual

def depth : Json → Nat
  | .arr items => itemDepth items + 1
  | .obj members => memberDepth members + 1
  | .null => 0
  | .bool _ => 0
  | .num _ => 0
  | .str _ => 0

def itemDepth : List Json → Nat
  | [] => 0
  | j :: rest => max (depth j) (itemDepth rest)

def memberDepth : List (String × Json) → Nat
  | [] => 0
  | (_, j) :: rest => max (depth j) (memberDepth rest)

end

namespace Reading

theorem run_cons {r next : Reading} {t : Token} (step : r.step? t = some next) (rest : List Token) :
    r.run (t :: rest) = next.run rest := by
  rw [run, step]

theorem run_stuck {r : Reading} {t : Token} (step : r.step? t = none) (rest : List Token) :
    (r.run (t :: rest)).2 = false := by
  rw [run, step]

theorem step?_open (b : Bool) {stack : List Frame} (room : stack.length < depthLimit) :
    step? ⟨.value b, stack⟩ (.open false) = some ⟨.value true, .items [] :: stack⟩ ∧
      step? ⟨.value b, stack⟩ (.open true) = some ⟨.key true, .members [] none :: stack⟩ := by
  simp [step?, Nat.not_le.mpr room]

/-- A key and its colon lead to the value of a member. -/
theorem run_key (b : Bool) (done : List (String × Json)) (key : String) (stack : List Frame)
    (rest : List Token) :
    run ⟨.key b, .members done none :: stack⟩ (.atom (.str key) :: .colon :: rest) =
      run ⟨.value false, .members done (some key) :: stack⟩ rest := by
  have named : step? ⟨.key b, .members done none :: stack⟩ (.atom (.str key)) =
      some ⟨.colon, .members done (some key) :: stack⟩ := rfl
  rw [run_cons named]
  exact run_cons rfl rest

mutual

/-- The tokens of a value that fits lead to where the value is supplied. -/
theorem run_value : (j : Json) → (b : Bool) → (stack : List Frame) → {next : Reading} →
    (rest : List Token) → stack.length + j.depth ≤ depthLimit → supply? stack j = some next →
    run ⟨.value b, stack⟩ (j.lexemes ++ rest) = next.run rest
  | .null, b, stack, next, rest, _, place => run_cons (by simpa [step?] using place) rest
  | .bool _, b, stack, next, rest, _, place => run_cons (by simpa [step?] using place) rest
  | .num _, b, stack, next, rest, _, place => run_cons (by simpa [step?] using place) rest
  | .str _, b, stack, next, rest, _, place => run_cons (by simpa [step?] using place) rest
  | .arr items, b, stack, next, rest, fits, place => by
    rw [depth] at fits
    have opens := (step?_open b (show stack.length < depthLimit by omega)).1
    rw [lexemes, List.cons_append, run_cons opens, List.append_assoc, List.singleton_append]
    cases items with
    | nil => exact run_cons (by simpa [step?, close?] using place) rest
    | cons j more =>
      rw [run_items (j :: more) true [] stack _ (by simp) (by omega)]
      exact run_cons (by simpa [step?, close?] using place) rest
  | .obj members, b, stack, next, rest, fits, place => by
    rw [depth] at fits
    have opens := (step?_open b (show stack.length < depthLimit by omega)).2
    rw [lexemes, List.cons_append, run_cons opens, List.append_assoc, List.singleton_append]
    cases members with
    | nil => exact run_cons (by simpa [step?, close?] using place) rest
    | cons m more =>
      rw [run_members (m :: more) true [] stack _ (by simp) (by omega)]
      exact run_cons (by simpa [step?, close?] using place) rest

theorem run_items : (items : List Json) → (b : Bool) → (done : List Json) → (stack : List Frame) →
    (rest : List Token) → items ≠ [] → stack.length + 1 + itemDepth items ≤ depthLimit →
    run ⟨.value b, .items done :: stack⟩ (itemLexemes items ++ rest) =
      run ⟨.next, .items (items.reverse ++ done) :: stack⟩ rest
  | [], _, _, _, _, filled, _ => absurd rfl filled
  | [j], b, done, stack, rest, _, fits => by
    rw [itemDepth] at fits
    exact run_value j b (.items done :: stack) rest (by simp; omega) rfl
  | j :: k :: more, b, done, stack, rest, _, fits => by
    rw [itemDepth] at fits
    have comma : step? ⟨.next, .items (j :: done) :: stack⟩ .comma =
        some ⟨.value false, .items (j :: done) :: stack⟩ := rfl
    rw [itemLexemes_cons, List.append_assoc, List.cons_append,
      run_value j b (.items done :: stack) _ (by simp; omega) rfl, run_cons comma,
      run_items (k :: more) false (j :: done) stack rest (by simp) (by omega)]
    simp

theorem run_members : (members : List (String × Json)) → (b : Bool) →
    (done : List (String × Json)) → (stack : List Frame) → (rest : List Token) → members ≠ [] →
    stack.length + 1 + memberDepth members ≤ depthLimit →
    run ⟨.key b, .members done none :: stack⟩ (memberLexemes members ++ rest) =
      run ⟨.next, .members (members.reverse ++ done) none :: stack⟩ rest
  | [], _, _, _, _, filled, _ => absurd rfl filled
  | [(key, j)], b, done, stack, rest, _, fits => by
    rw [memberDepth] at fits
    rw [memberLexemes, List.cons_append, List.cons_append, run_key]
    exact run_value j false (.members done (some key) :: stack) rest (by simp; omega) rfl
  | (key, j) :: m :: more, b, done, stack, rest, _, fits => by
    rw [memberDepth] at fits
    have comma : step? ⟨.next, .members ((key, j) :: done) none :: stack⟩ .comma =
        some ⟨.key false, .members ((key, j) :: done) none :: stack⟩ := rfl
    rw [memberLexemes_cons, List.cons_append, List.cons_append, run_key, List.append_assoc,
      List.cons_append,
      run_value j false (.members done (some key) :: stack) _ (by simp; omega) rfl, run_cons comma,
      run_members (m :: more) false ((key, j) :: done) stack rest (by simp) (by omega)]
    simp

end

mutual

/-- The tokens of a value that does not fit are not read to their end. -/
theorem run_deep : (j : Json) → (b : Bool) → (stack : List Frame) → (rest : List Token) →
    stack.length ≤ depthLimit → depthLimit < stack.length + j.depth →
    (run ⟨.value b, stack⟩ (j.lexemes ++ rest)).2 = false
  | .null, _, _, _, shallow, deep => absurd deep (Nat.not_lt.mpr shallow)
  | .bool _, _, _, _, shallow, deep => absurd deep (Nat.not_lt.mpr shallow)
  | .num _, _, _, _, shallow, deep => absurd deep (Nat.not_lt.mpr shallow)
  | .str _, _, _, _, shallow, deep => absurd deep (Nat.not_lt.mpr shallow)
  | .arr items, b, stack, rest, shallow, deep => by
    rw [depth] at deep
    rw [lexemes, List.cons_append]
    by_cases room : stack.length < depthLimit
    · rw [run_cons (step?_open b room).1, List.append_assoc]
      exact run_items_deep items true [] stack _ room (by omega)
    · exact run_stuck (by simp [step?, Nat.le_of_not_lt room]) _
  | .obj members, b, stack, rest, shallow, deep => by
    rw [depth] at deep
    rw [lexemes, List.cons_append]
    by_cases room : stack.length < depthLimit
    · rw [run_cons (step?_open b room).2, List.append_assoc]
      exact run_members_deep members true [] stack _ room (by omega)
    · exact run_stuck (by simp [step?, Nat.le_of_not_lt room]) _

theorem run_items_deep : (items : List Json) → (b : Bool) → (done : List Json) →
    (stack : List Frame) → (rest : List Token) → stack.length < depthLimit →
    depthLimit < stack.length + 1 + itemDepth items →
    (run ⟨.value b, .items done :: stack⟩ (itemLexemes items ++ rest)).2 = false
  | [], _, _, _, _, room, deep => absurd deep (Nat.not_lt.mpr room)
  | [j], b, done, stack, rest, room, deep => by
    rw [itemDepth, itemDepth] at deep
    exact run_deep j b (.items done :: stack) rest room (by simp; omega)
  | j :: k :: more, b, done, stack, rest, room, deep => by
    rw [itemDepth] at deep
    rw [itemLexemes_cons, List.append_assoc, List.cons_append]
    by_cases fits : stack.length + 1 + j.depth ≤ depthLimit
    · have comma : step? ⟨.next, .items (j :: done) :: stack⟩ .comma =
          some ⟨.value false, .items (j :: done) :: stack⟩ := rfl
      rw [run_value j b (.items done :: stack) _ (by simp; omega) rfl, run_cons comma]
      exact run_items_deep (k :: more) false (j :: done) stack rest room (by omega)
    · exact run_deep j b (.items done :: stack) _ room (by simp; omega)

theorem run_members_deep : (members : List (String × Json)) → (b : Bool) →
    (done : List (String × Json)) → (stack : List Frame) → (rest : List Token) →
    stack.length < depthLimit → depthLimit < stack.length + 1 + memberDepth members →
    (run ⟨.key b, .members done none :: stack⟩ (memberLexemes members ++ rest)).2 = false
  | [], _, _, _, _, room, deep => absurd deep (Nat.not_lt.mpr room)
  | [(key, j)], b, done, stack, rest, room, deep => by
    rw [memberDepth, memberDepth] at deep
    rw [memberLexemes, List.cons_append, List.cons_append, run_key]
    exact run_deep j false (.members done (some key) :: stack) rest room (by simp; omega)
  | (key, j) :: m :: more, b, done, stack, rest, room, deep => by
    rw [memberDepth] at deep
    rw [memberLexemes_cons, List.cons_append, List.cons_append, run_key, List.append_assoc,
      List.cons_append]
    by_cases fits : stack.length + 1 + j.depth ≤ depthLimit
    · have comma : step? ⟨.next, .members ((key, j) :: done) none :: stack⟩ .comma =
          some ⟨.key false, .members ((key, j) :: done) none :: stack⟩ := rfl
      rw [run_value j false (.members done (some key) :: stack) _ (by simp; omega) rfl,
        run_cons comma]
      exact run_members_deep (m :: more) false ((key, j) :: done) stack rest room (by omega)
    · exact run_deep j false (.members done (some key) :: stack) _ room (by simp; omega)

end

end Reading

/-- A value is read back from its text unless it is nested deeper than readers go. -/
theorem readChars?_chars {j : Json} (legible : ∀ n ∈ j.numbers, n.Legible) :
    readChars? j.chars = if j.depth ≤ depthLimit then some j else none := by
  have lexed := Lexed.lex_chars legible
  have tokens : (lex j.chars).tokens = j.lexemes ++ [] := by
    rw [lexed, Lexed.tokens, List.reverse_reverse, List.append_nil]
  have sound : (lex j.chars).isSound = true := by
    rw [lexed]
    rfl
  unfold readChars? contents
  dsimp only
  rw [tokens, sound]
  by_cases fits : j.depth ≤ depthLimit
  · have ran : Reading.run ⟨.value false, []⟩ (j.lexemes ++ []) = (⟨.finish j, []⟩, true) :=
      Reading.run_value j false [] [] (by simpa using fits) rfl
    rw [if_pos fits, ran]
    rfl
  · have stopped := Reading.run_deep j false [] [] (Nat.zero_le _) (by simpa using fits)
    rw [if_neg fits, stopped]
    rfl

/-! ### What is read -/

theorem Reading.run_append {r last : Reading} {tokens : List Token}
    (ran : r.run tokens = (last, true)) (more : List Token) : r.run (tokens ++ more) = last.run more := by
  induction tokens generalizing r with
  | nil => rw [← (Prod.mk.inj ran).1, List.nil_append]
  | cons t rest ih =>
    rw [List.cons_append]
    cases step : r.step? t with
    | none =>
      have stuck := run_stuck step rest
      rw [ran] at stuck
      cases stuck
    | some next =>
      rw [run_cons step] at ran ⊢
      exact ih ran

theorem read_tokens {text : List Char} {j : Json} (read : readChars? text = some j) :
    (lex text).isSound = true ∧ ∃ stack,
      Reading.run ⟨.value false, []⟩ (lex text).tokens = (⟨.finish j, stack⟩, true) := by
  unfold readChars? contents at read
  dsimp only at read
  rw [Option.ite_none_right_eq_some, Bool.and_eq_true, Bool.and_eq_true] at read
  obtain ⟨⟨⟨sound, all⟩, finished⟩, root⟩ := read
  refine ⟨sound, ?_⟩
  cases ran : Reading.run ⟨.value false, []⟩ (lex text).tokens with
  | mk last through =>
    rw [ran] at all finished root
    dsimp only at all finished root
    obtain ⟨expect, stack⟩ := last
    cases expect with
    | finish value =>
      obtain rfl := Option.some.inj root
      exact ⟨stack, by rw [all]; rfl⟩
    | value b => cases finished
    | key b => cases finished
    | colon => cases finished
    | next => cases finished

/-- A text that is read to its end is not read when an opening brace follows. -/
theorem readChars?_append {a : List Char} {j : Json} (read : readChars? a = some j)
    (b : List Char) : readChars? (a ++ '{' :: b) = none := by
  obtain ⟨sound, stack, ran⟩ := read_tokens read
  obtain ⟨more, tokens⟩ := Lexed.lex_append sound b
  have stopped : (Reading.run ⟨.value false, []⟩ (lex (a ++ '{' :: b)).tokens).2 = false := by
    rw [← tokens, List.append_assoc, Reading.run_append ran]
    exact Reading.run_stuck rfl more
  unfold readChars? contents
  dsimp only
  rw [stopped]
  simp

theorem readChars?_blank_append {blanks : List Char} (blank : ∀ c ∈ blanks, isBlank c = true)
    (cs : List Char) : readChars? (blanks ++ cs) = readChars? cs := by
  unfold readChars? contents
  rw [Lexed.lex_blank_append blank]

theorem readChars?_stray {blanks : List Char} (blank : ∀ c ∈ blanks, isBlank c = true) {c : Char}
    (stray : Lexing.start? c = none) (cs : List Char) :
    readChars? (blanks ++ c :: cs) = none := by
  unfold readChars? contents
  dsimp only
  rw [Lexed.lex_stray blank stray]
  simp

end Orchestration.Json

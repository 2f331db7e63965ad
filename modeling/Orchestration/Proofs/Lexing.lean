import Orchestration.Proofs.Numerals

/-! What a written value is read as: its tokens. A pass over a text comes to the end of a word only
with the character after it, so that a value may leave its last word open. A text of a value has
no control character in it, and what is read of a text stays read when the text goes on. -/
namespace Orchestration

def Number.Legible (n : Number) : Prop := Number.read? n.text = some n

namespace Json

mutual

def lexemes : Json → List Token
  | .arr items => .open false :: (itemLexemes items ++ [.close false])
  | .obj members => .open true :: (memberLexemes members ++ [.close true])
  | .null => [.atom .null]
  | .bool b => [.atom (.bool b)]
  | .num n => [.atom (.num n)]
  | .str s => [.atom (.str s)]

def itemLexemes : List Json → List Token
  | [] => []
  | [j] => lexemes j
  | j :: rest => lexemes j ++ .comma :: itemLexemes rest

def memberLexemes : List (String × Json) → List Token
  | [] => []
  | [(k, j)] => .atom (.str k) :: .colon :: lexemes j
  | (k, j) :: rest => .atom (.str k) :: .colon :: (lexemes j ++ .comma :: memberLexemes rest)

end

theorem itemLexemes_cons (j k : Json) (rest : List Json) :
    itemLexemes (j :: k :: rest) = j.lexemes ++ .comma :: itemLexemes (k :: rest) := by
  rw [itemLexemes]
  simp

theorem memberLexemes_cons (key : String) (j : Json) (m : String × Json)
    (rest : List (String × Json)) : memberLexemes ((key, j) :: m :: rest) =
      .atom (.str key) :: .colon :: (j.lexemes ++ .comma :: memberLexemes (m :: rest)) := by
  rw [memberLexemes]
  simp

mutual

def numbers : Json → List Number
  | .num n => [n]
  | .arr items => itemNumbers items
  | .obj members => memberNumbers members
  | .null => []
  | .bool _ => []
  | .str _ => []

def itemNumbers : List Json → List Number
  | [] => []
  | j :: rest => numbers j ++ itemNumbers rest

def memberNumbers : List (String × Json) → List Number
  | [] => []
  | (_, j) :: rest => numbers j ++ memberNumbers rest

end

theorem start?_word {c : Char} (word : isWordChar c = true) :
    Lexing.start? c = some (.word [c], []) := by
  have others : ∀ m ∈ [' ', '\n', '\t', '\r', '{', '}', '[', ']', ',', ':', '"'],
      isWordChar m = false := by
    simp only [List.mem_cons, List.not_mem_nil, or_false, forall_eq_or_imp, forall_eq]
    decide
  have other : ∀ m ∈ [' ', '\n', '\t', '\r', '{', '}', '[', ']', ',', ':', '"'], c ≠ m := by
    rintro m member rfl
    rw [others c member] at word
    cases word
  simp only [List.mem_cons, List.not_mem_nil, or_false, forall_eq_or_imp, forall_eq] at other
  obtain ⟨space, feed, tab, back, left, right, first, last, comma, colon, quote⟩ := other
  simp [Lexing.start?, isBlank, punctuation?, *]

theorem hexDigit?_lowerHex {n : Nat} (digit : n < 16) : Text.hexDigit? (lowerHex n) = some n := by
  have all : ∀ n < 16, Text.hexDigit? (lowerHex n) = some n := by decide
  exact all n digit

namespace Lexed

/-- A pass that has met these tokens, the last of them perhaps an open word. -/
def Met (l : Lexed) (tokens : List Token) : Prop :=
  l = ⟨some .between, tokens.reverse⟩ ∨
    ∃ w v before, l = ⟨some (.word w), before.reverse⟩ ∧ wordValue? w.reverse = some v ∧
      tokens = before ++ [.atom v]

variable {l : Lexed} {met : List Token}

theorem Met.between : Met ⟨some .between, met.reverse⟩ met := .inl rfl

theorem Met.punctuation (m : l.Met met) {c : Char} {t : Token}
    (mark : Json.punctuation? c = some t) (solid : isBlank c = false)
    (apart : isWordChar c = false) :
    l.advance c = ⟨some .between, (met ++ [t]).reverse⟩ := by
  rcases m with rfl | ⟨w, v, before, rfl, value, rfl⟩
  · simp [advance, take, Lexing.step?, Lexing.start?, solid, mark]
  · simp [advance, take, Lexing.step?, Lexing.start?, solid, mark, apart, value]

theorem Met.finish (m : l.Met met) : l.finish = ⟨some .between, met.reverse⟩ := by
  rcases m with rfl | ⟨w, v, before, rfl, value, rfl⟩
  · simp [Lexed.finish, take, Lexing.finish?]
  · simp [Lexed.finish, take, Lexing.finish?, value]

theorem advance_escape (g : List Char) (found : List Token) (c : Char) :
    (escapeChar c).foldl advance ⟨some (.text g), found⟩ = ⟨some (.text (c :: g)), found⟩ := by
  unfold escapeChar
  split
  any_goals rfl
  rename_i unquoted unescaped _ _ _ _ _
  split
  · rename_i control
    have high := hexDigit?_lowerHex (show c.toNat / 16 < 16 by omega)
    have low := hexDigit?_lowerHex (show c.toNat % 16 < 16 by omega)
    have zero : Text.hexDigit? '0' = some 0 := by decide
    have unit : c.toNat / 16 * 16 + c.toNat % 16 = c.toNat := Nat.div_add_mod' _ _
    have same : Char.ofNat c.toNat = c := Char.ofNat_toNat c
    have small : ¬ 0xD800 ≤ c.toNat := by omega
    have single : ¬ 0xDC00 ≤ c.toNat := by omega
    simp [advance, take, Lexing.step?, zero, high, low, unit, Lexing.afterUnit, same, small, single]
  · rename_i plain
    have quote : c ≠ '"' := unquoted
    have backslash : c ≠ '\\' := unescaped
    simp [advance, take, Lexing.step?, quote, backslash, plain]

theorem advance_quote (s : String) (found : List Token) :
    (quote s).foldl advance ⟨some .between, found⟩ =
      ⟨some .between, .atom (.str s) :: found⟩ := by
  have inside (cs g : List Char) : (cs.flatMap escapeChar).foldl advance ⟨some (.text g), found⟩ =
      ⟨some (.text (cs.reverse ++ g)), found⟩ := by
    induction cs generalizing g with
    | nil => rfl
    | cons c rest ih =>
      rw [List.flatMap_cons, List.foldl_append, advance_escape, ih]
      simp
  unfold quote
  rw [List.foldl_cons, List.foldl_append]
  have opened : advance ⟨some .between, found⟩ '"' = ⟨some (.text []), found⟩ := rfl
  rw [opened, inside]
  simp [advance, take, Lexing.step?]

theorem advance_word {w : List Char} (word : ∀ c ∈ w, isWordChar c = true) (g : List Char)
    (found : List Token) :
    w.foldl advance ⟨some (.word g), found⟩ = ⟨some (.word (w.reverse ++ g)), found⟩ := by
  induction w generalizing g with
  | nil => rfl
  | cons c rest ih =>
    have first := word c List.mem_cons_self
    have step : advance ⟨some (.word g), found⟩ c = ⟨some (.word (c :: g)), found⟩ := by
      simp [advance, take, Lexing.step?, first]
    rw [List.foldl_cons, step, ih fun d member => word d (List.mem_cons_of_mem _ member)]
    simp

theorem met_word {w : List Char} {v : Json} (word : ∀ c ∈ w, isWordChar c = true)
    (value : wordValue? w = some v) (before : List Token) :
    Met (w.foldl advance ⟨some .between, before.reverse⟩) (before ++ [.atom v]) := by
  cases w with
  | nil => cases value
  | cons c rest =>
    have step : advance ⟨some .between, before.reverse⟩ c = ⟨some (.word [c]), before.reverse⟩ := by
      simp [advance, take, Lexing.step?, start?_word (word c List.mem_cons_self)]
    rw [List.foldl_cons, step, advance_word fun d member => word d (List.mem_cons_of_mem _ member)]
    exact .inr ⟨_, v, before, rfl, by simpa using value, rfl⟩

theorem advance_key (key : String) (rest : List Char) (before : List Token) :
    (quote key ++ ':' :: rest).foldl advance ⟨some .between, before.reverse⟩ =
      rest.foldl advance ⟨some .between, (before ++ [Token.atom (.str key), .colon]).reverse⟩ := by
  have named : (⟨some .between, .atom (.str key) :: before.reverse⟩ : Lexed).Met
      (before ++ [.atom (.str key)]) := .inl (by simp)
  rw [List.foldl_append, List.foldl_cons, advance_quote,
    named.punctuation rfl (by decide) (by decide)]
  simp

theorem met_number {n : Number} (legible : n.Legible) (before : List Token) :
    Met (n.text.foldl advance ⟨some .between, before.reverse⟩) (before ++ [.atom (.num n)]) := by
  apply met_word n.text_word
  unfold wordValue?
  rw [legible]
  have others : ∀ w ∈ ["null".toList, "true".toList, "false".toList], Number.read? w = none := by
    decide
  have other : ∀ w ∈ ["null".toList, "true".toList, "false".toList], n.text ≠ w := by
    rintro w member same
    rw [Number.Legible, same, others w member] at legible
    cases legible
  simp only [List.mem_cons, List.not_mem_nil, or_false, forall_eq_or_imp, forall_eq] at other
  rw [if_neg other.1, if_neg other.2.1, if_neg other.2.2]
  rfl

mutual

theorem met_chars : (j : Json) → (∀ n ∈ j.numbers, n.Legible) → (before : List Token) →
    Met (j.chars.foldl advance ⟨some .between, before.reverse⟩) (before ++ j.lexemes)
  | .null, _, before => met_word (List.all_eq_true.mp (by decide)) rfl before
  | .bool true, _, before => met_word (List.all_eq_true.mp (by decide)) rfl before
  | .bool false, _, before => met_word (List.all_eq_true.mp (by decide)) rfl before
  | .num n, legible, before => by
    exact met_number (legible n (by simp [numbers])) before
  | .str s, _, before => by
    unfold chars lexemes
    rw [advance_quote]
    exact .inl (by simp)
  | .arr items, legible, before => by
    have opened : advance ⟨some .between, before.reverse⟩ '[' =
        ⟨some .between, (before ++ [Token.open false]).reverse⟩ :=
      Met.between.punctuation rfl (by decide) (by decide)
    have all := met_itemChars items legible (before ++ [Token.open false])
    unfold chars lexemes
    rw [List.foldl_cons, opened, List.foldl_append, List.foldl_cons, List.foldl_nil,
      all.punctuation rfl (by decide) (by decide)]
    exact .inl (by simp)
  | .obj members, legible, before => by
    have opened : advance ⟨some .between, before.reverse⟩ '{' =
        ⟨some .between, (before ++ [Token.open true]).reverse⟩ :=
      Met.between.punctuation rfl (by decide) (by decide)
    have all := met_memberChars members legible (before ++ [Token.open true])
    unfold chars lexemes
    rw [List.foldl_cons, opened, List.foldl_append, List.foldl_cons, List.foldl_nil,
      all.punctuation rfl (by decide) (by decide)]
    exact .inl (by simp)

theorem met_itemChars : (items : List Json) → (∀ n ∈ itemNumbers items, n.Legible) →
    (before : List Token) →
    Met ((itemChars items).foldl advance ⟨some .between, before.reverse⟩)
      (before ++ itemLexemes items)
  | [], _, before => .inl (by simp [itemChars, itemLexemes])
  | [j], legible, before =>
    met_chars j (fun n member => legible n (by simp [itemNumbers, member])) before
  | j :: k :: rest, legible, before => by
    have first := met_chars j (fun n member => legible n (by simp [itemNumbers, member])) before
    have more := met_itemChars (k :: rest)
      (fun n member => legible n (by rw [itemNumbers]; simp [member]))
      (before ++ j.lexemes ++ [.comma])
    unfold itemChars itemLexemes
    rw [List.foldl_append, List.foldl_cons, first.punctuation rfl (by decide) (by decide)]
    simpa using more

theorem met_memberChars : (members : List (String × Json)) →
    (∀ n ∈ memberNumbers members, n.Legible) → (before : List Token) →
    Met ((memberChars members).foldl advance ⟨some .between, before.reverse⟩)
      (before ++ memberLexemes members)
  | [], _, before => .inl (by simp [memberChars, memberLexemes])
  | [(key, j)], legible, before => by
    have value := met_chars j (fun n member => legible n (by simp [memberNumbers, member]))
      (before ++ [Token.atom (.str key), .colon])
    unfold memberChars memberLexemes
    rw [advance_key]
    simpa using value
  | (key, j) :: m :: rest, legible, before => by
    have value := met_chars j (fun n member => legible n (by simp [memberNumbers, member]))
      (before ++ [Token.atom (.str key), .colon])
    have more := met_memberChars (m :: rest)
      (fun n member => legible n (by rw [memberNumbers]; simp [member]))
      (before ++ [Token.atom (.str key), .colon] ++ j.lexemes ++ [.comma])
    unfold memberChars memberLexemes
    rw [advance_key, List.foldl_append, List.foldl_cons,
      value.punctuation rfl (by decide) (by decide)]
    simpa using more

end

/-- The lexical side of reading back: a value's text has the value's tokens. -/
theorem lex_chars {j : Json} (legible : ∀ n ∈ j.numbers, n.Legible) :
    lex j.chars = ⟨some .between, j.lexemes.reverse⟩ :=
  (met_chars j legible []).finish

/-! ### Texts that go on -/

theorem met_of_sound {l : Lexed} (sound : l.finish.isSound = true) : l.Met l.finish.tokens := by
  obtain ⟨state, found⟩ := l
  cases state with
  | none => cases sound
  | some s =>
    cases s with
    | between => exact .inl (by simp [Lexed.finish, take, Lexing.finish?, Lexed.tokens])
    | word w =>
      cases value : wordValue? w.reverse with
      | none => simp [Lexed.finish, take, Lexing.finish?, value, isSound] at sound
      | some v =>
        refine .inr ⟨w, v, found.reverse, by simp, value, ?_⟩
        simp [Lexed.finish, take, Lexing.finish?, value, Lexed.tokens]
    | text g => cases sound
    | escape g => cases sound
    | unit g high missing value => cases sound
    | partner g high backslash => cases sound

theorem found_take (l : Lexed) (step : Option (Option Lexing × List Token)) :
    l.found <:+ (l.take step).found := by
  cases step with
  | none => exact List.suffix_rfl
  | some next => exact List.suffix_append _ _

theorem found_advance (l : Lexed) (c : Char) : l.found <:+ (l.advance c).found := by
  unfold advance
  split
  · exact found_take _ _
  · exact List.suffix_rfl

theorem found_finish (l : Lexed) : l.found <:+ l.finish.found := by
  unfold Lexed.finish
  split
  · exact found_take _ _
  · exact List.suffix_rfl

theorem found_foldl (cs : List Char) (l : Lexed) : l.found <:+ (cs.foldl advance l).found := by
  induction cs generalizing l with
  | nil => exact List.suffix_rfl
  | cons c rest ih => exact (found_advance l c).trans (ih _)

/-- The tokens of a sound text come first in one that goes on with an opening brace. -/
theorem lex_append {a : List Char} (sound : (lex a).isSound = true) (b : List Char) :
    ((lex a).tokens ++ [Token.open true]) <+: (lex (a ++ '{' :: b)).tokens := by
  have met := met_of_sound sound
  have opened : (a.foldl advance .start).advance '{' =
      ⟨some .between, ((lex a).tokens ++ [Token.open true]).reverse⟩ :=
    met.punctuation rfl (by decide) (by decide)
  have whole : lex (a ++ '{' :: b) =
      (b.foldl advance ⟨some .between, ((lex a).tokens ++ [Token.open true]).reverse⟩).finish := by
    rw [← opened]
    unfold lex
    rw [List.foldl_append, List.foldl_cons]
  have later := (found_foldl b _).trans (found_finish
    (b.foldl advance ⟨some .between, ((lex a).tokens ++ [Token.open true]).reverse⟩))
  rw [whole]
  have prefixed := List.reverse_prefix.mpr later
  rwa [List.reverse_reverse] at prefixed

theorem foldl_blank {blanks : List Char} (blank : ∀ c ∈ blanks, isBlank c = true)
    (found : List Token) :
    blanks.foldl advance ⟨some .between, found⟩ = ⟨some .between, found⟩ := by
  induction blanks with
  | nil => rfl
  | cons c rest ih =>
    have first := blank c List.mem_cons_self
    have step : advance ⟨some .between, found⟩ c = ⟨some .between, found⟩ := by
      simp [advance, take, Lexing.step?, Lexing.start?, first]
    rw [List.foldl_cons, step, ih fun d member => blank d (List.mem_cons_of_mem _ member)]

theorem lex_blank_append {blanks : List Char} (blank : ∀ c ∈ blanks, isBlank c = true)
    (cs : List Char) : lex (blanks ++ cs) = lex cs := by
  unfold lex
  rw [List.foldl_append]
  unfold Lexed.start
  rw [foldl_blank blank]

theorem foldl_broken (cs : List Char) (found : List Token) :
    cs.foldl advance ⟨none, found⟩ = ⟨none, found⟩ := by
  induction cs with
  | nil => rfl
  | cons c rest ih => exact ih

/-- A character that no token begins with breaks the text. -/
theorem lex_stray {blanks : List Char} (blank : ∀ c ∈ blanks, isBlank c = true) {c : Char}
    (stray : Lexing.start? c = none) (cs : List Char) :
    (lex (blanks ++ c :: cs)).isSound = false := by
  have step : advance ⟨some .between, []⟩ c = ⟨none, []⟩ := by
    simp [advance, take, Lexing.step?, stray]
  unfold lex
  rw [List.foldl_append, List.foldl_cons]
  unfold Lexed.start
  rw [foldl_blank blank, step, foldl_broken]
  rfl

end Lexed

/-! ### Texts are one line -/

def Visible (cs : List Char) : Prop := ∀ c ∈ cs, 0x20 ≤ c.toNat

theorem visible_of_all {cs : List Char} (all : cs.all (fun c => decide (0x20 ≤ c.toNat)) = true) :
    Visible cs :=
  fun c member => of_decide_eq_true (List.all_eq_true.mp all c member)

theorem visible_word {cs : List Char} (word : Number.Word cs) : Visible cs := by
  have controls : ∀ n < 0x20, isWordChar (Char.ofNat n) = false := by decide
  intro c member
  by_contra control
  have broken := controls c.toNat (Nat.lt_of_not_le control)
  rw [Char.ofNat_toNat, word c member] at broken
  cases broken

theorem visible_escape (c : Char) : Visible (escapeChar c) := by
  have digits : ∀ n < 16, 0x20 ≤ (lowerHex n).toNat := by decide
  unfold Visible escapeChar
  split
  any_goals
    simp only [List.mem_cons, List.not_mem_nil, or_false, forall_eq_or_imp, forall_eq]
    decide
  split
  · rename_i control
    have high := digits (c.toNat / 16) (by omega)
    have low := digits (c.toNat % 16) (by omega)
    simp [high, low]
  · rename_i plain
    simpa using plain

theorem visible_quote (s : String) : Visible (quote s) := by
  have mark : 0x20 ≤ '"'.toNat := by decide
  unfold Visible quote
  rw [List.forall_mem_cons, List.forall_mem_append, List.forall_mem_singleton]
  refine ⟨mark, ?_, mark⟩
  intro c member
  obtain ⟨d, _, escaped⟩ := List.mem_flatMap.mp member
  exact visible_escape d c escaped

mutual

theorem visible_chars : (j : Json) → Visible j.chars
  | .null => by
    exact visible_of_all (by decide)
  | .bool true => by
    exact visible_of_all (by decide)
  | .bool false => by
    exact visible_of_all (by decide)
  | .num n => visible_word n.text_word
  | .str s => visible_quote s
  | .arr items => by
    have inner := visible_itemChars items
    unfold Visible chars
    rw [List.forall_mem_cons, List.forall_mem_append, List.forall_mem_singleton]
    exact ⟨by decide, inner, by decide⟩
  | .obj members => by
    have inner := visible_memberChars members
    unfold Visible chars
    rw [List.forall_mem_cons, List.forall_mem_append, List.forall_mem_singleton]
    exact ⟨by decide, inner, by decide⟩

theorem visible_itemChars : (items : List Json) → Visible (itemChars items)
  | [] => by simp [Visible, itemChars]
  | [j] => visible_chars j
  | j :: k :: rest => by
    have first := visible_chars j
    have more := visible_itemChars (k :: rest)
    unfold Visible itemChars
    rw [List.forall_mem_append, List.forall_mem_cons]
    exact ⟨first, by decide, more⟩

theorem visible_memberChars : (members : List (String × Json)) → Visible (memberChars members)
  | [] => by simp [Visible, memberChars]
  | [(key, j)] => by
    have value := visible_chars j
    unfold Visible memberChars
    rw [List.forall_mem_append, List.forall_mem_cons]
    exact ⟨visible_quote key, by decide, value⟩
  | (key, j) :: m :: rest => by
    have value := visible_chars j
    have more := visible_memberChars (m :: rest)
    unfold Visible memberChars
    rw [List.forall_mem_append, List.forall_mem_cons, List.forall_mem_append, List.forall_mem_cons]
    exact ⟨visible_quote key, by decide, value, by decide, more⟩

end

end Json
end Orchestration

import Mathlib.Data.List.Perm.Subperm
import Mathlib.Data.String.Basic
import Orchestration.Proofs.Answers
import Orchestration.Proofs.Instants
import Orchestration.Proofs.Keeping

/-! What a database answers. It compares timestamps as texts cut to microseconds; for the years of
four digits their order is that of the instants, cut in the same way. So a query chooses what the
filter would choose if nothing were finer than a microsecond, whatever order it gives to rows
that tie, and answers with what is read from the texts of the rows chosen. -/
namespace Orchestration

namespace Timestamp

structure Dated (t : Timestamp) : Prop where
  year : 0 ≤ (Calendar.dateOfDays (t.seconds / 86400)).1 ∧
    (Calendar.dateOfDays (t.seconds / 86400)).1 ≤ 9999
  nanos : t.nanos < tenTo 9 ∨ t.nanos < 2 * tenTo 9 ∧ t.seconds % 60 = 59

def cut (t : Timestamp) : Timestamp := ⟨t.seconds, t.nanos / tenTo 3 * tenTo 3⟩

theorem padded_cons_lt_iff {w n m : Nat} (wide : 0 < w) (fits : n < 10 ^ w) (fits' : m < 10 ^ w)
    (c : Char) (rest more : List Char) :
    padded w n ++ c :: rest < padded w m ++ c :: more ↔ n < m ∨ n = m ∧ rest < more := by
  have same : (padded w n).length = (padded w m).length := by
    rw [length_padded wide fits, length_padded wide fits']
  rw [append_lt_append_iff same, padded_lt_iff wide fits fits', padded_inj, List.cons_lt_cons_iff]
  simp

/-- Clocks are compared by hour, minute, second and millionth of a second, a leap second being
the sixtieth of its minute. -/
theorem clock_lt_iff (n n' k k' : Nat) (leap : k < 1000000000 ∨ k < 2 * 1000000000 ∧ n % 60 = 59)
    (leap' : k' < 1000000000 ∨ k' < 2 * 1000000000 ∧ n' % 60 = 59) :
    (n / 3600 < n' / 3600 ∨ n / 3600 = n' / 3600 ∧
      (n / 60 % 60 < n' / 60 % 60 ∨ n / 60 % 60 = n' / 60 % 60 ∧
        (n % 60 + k / 1000000000 < n' % 60 + k' / 1000000000 ∨
          n % 60 + k / 1000000000 = n' % 60 + k' / 1000000000 ∧
            k % 1000000000 / 1000 < k' % 1000000000 / 1000))) ↔
      n < n' ∨ n = n' ∧ k / 1000 < k' / 1000 := by
  have parts (n : Nat) : n = 3600 * (n / 3600) + 60 * (n / 60 % 60) + n % 60 := by omega
  have first := parts n
  have second := parts n'
  have minutes : n / 60 % 60 < 60 ∧ n' / 60 % 60 < 60 := by omega
  have seconds : n % 60 < 60 ∧ n' % 60 < 60 := by omega
  generalize n / 3600 = h at *
  generalize n' / 3600 = h' at *
  generalize n / 60 % 60 = m at *
  generalize n' / 60 % 60 = m' at *
  generalize n % 60 = s at *
  generalize n' % 60 = s' at *
  omega

end Timestamp

namespace Row

open Timestamp

theorem timeText_lt_iff {s t : Timestamp} (first : s.Dated) (second : t.Dated) :
    timeText s < timeText t ↔ s.cut.lt t.cut = true := by
  rw [Timestamp.lt_iff]
  unfold timeText textWith wholeText cut yearText
  have date := Calendar.dateOfDays_isDate (s.seconds / 86400)
  have date' := Calendar.dateOfDays_isDate (t.seconds / 86400)
  have earlier := Calendar.dateOfDays_earlier_iff (a := s.seconds / 86400) (b := t.seconds / 86400)
  have later := Calendar.dateOfDays_earlier_iff (a := t.seconds / 86400) (b := s.seconds / 86400)
  have most := daysInMonth_le (Calendar.dateOfDays (s.seconds / 86400)).1
    (Calendar.dateOfDays (s.seconds / 86400)).2.1
  have most' := daysInMonth_le (Calendar.dateOfDays (t.seconds / 86400)).1
    (Calendar.dateOfDays (t.seconds / 86400)).2.1
  obtain ⟨year, nanos⟩ := first
  obtain ⟨year', nanos'⟩ := second
  generalize Calendar.dateOfDays (s.seconds / 86400) = a at *
  generalize Calendar.dateOfDays (t.seconds / 86400) = b at *
  obtain ⟨y, m, d⟩ := a
  obtain ⟨y', m', d'⟩ := b
  obtain ⟨month, day⟩ := date
  obtain ⟨month', day'⟩ := date'
  dsimp only [Calendar.Earlier] at *
  rw [if_pos year, if_pos year', ofList_lt_iff]
  have nine : tenTo 9 = 1000000000 := rfl
  have three : tenTo 3 = 1000 := rfl
  simp only [nine, three, Nat.reduceSub] at *
  simp only [List.append_assoc, List.cons_append, Nat.reduceEqDiff, if_false]
  rw [padded_cons_lt_iff (by decide) (by omega) (by omega),
    padded_cons_lt_iff (by decide) (by omega) (by omega),
    padded_cons_lt_iff (by decide) (by omega) (by omega),
    padded_cons_lt_iff (by decide) (by omega) (by omega),
    padded_cons_lt_iff (by decide) (by omega) (by omega),
    padded_cons_lt_iff (by decide) (by omega) (by omega),
    padded_cons_lt_iff (by decide) (by omega) (by omega)]
  have clock := clock_lt_iff (s.seconds % 86400).toNat (t.seconds % 86400).toNat s.nanos t.nanos
    (by omega) (by omega)
  simp only [lt_irrefl, and_false, or_false]
  rw [clock]
  clear clock nanos nanos' day day' month month'
  omega

theorem timeText_eq_iff {s t : Timestamp} (first : s.Dated) (second : t.Dated) :
    timeText s = timeText t ↔ s.cut = t.cut := by
  have less := timeText_lt_iff first second
  have more := timeText_lt_iff second first
  rw [Timestamp.lt_iff] at less more
  have trichotomy : timeText s = timeText t ↔
      ¬ timeText s < timeText t ∧ ¬ timeText t < timeText s := by
    constructor
    · intro same
      rw [same]
      exact ⟨lt_irrefl _, lt_irrefl _⟩
    · rintro ⟨notLess, notMore⟩
      exact le_antisymm (not_lt.mp notMore) (not_lt.mp notLess)
  rw [trichotomy, less, more]
  generalize s.cut = a
  generalize t.cut = b
  obtain ⟨sa, na⟩ := a
  obtain ⟨sb, nb⟩ := b
  rw [Timestamp.mk.injEq]
  dsimp only
  omega

end Row

def DecisionLog.cut (l : DecisionLog) : DecisionLog := { l with timestamp := l.timestamp.cut }

namespace DecisionFilter

def cut (f : DecisionFilter) : DecisionFilter :=
  { f with earliest := f.earliest.map Timestamp.cut, latest := f.latest.map Timestamp.cut }

structure Dated (f : DecisionFilter) : Prop where
  earliest : ∀ t ∈ f.earliest, t.Dated
  latest : ∀ t ∈ f.latest, t.Dated

theorem truncate_map {α β : Type} (f : DecisionFilter) (change : α → β) (found : List α) :
    (f.truncate found).map change = f.truncate (found.map change) := by
  unfold truncate
  split
  · rfl
  · rw [List.map_take]

theorem truncate_sublist {α : Type} (f : DecisionFilter) (found : List α) :
    (f.truncate found).Sublist found := by
  unfold truncate
  split
  · exact List.Sublist.refl found
  · exact List.take_sublist _ found

end DecisionFilter

namespace Database

open DecisionFilter

def firsts : List DecisionLog → List DecisionLog
  | [] => []
  | log :: rest => log :: (firsts rest).filter (·.key ≠ log.key)

/-- The rows after a sequence of calls; a call that is refused leaves them as they are. -/
def appendAll (t : Rows) (calls : List DecisionLog) : Rows :=
  calls.foldl (fun t log => (add t (.log log)).toOption.getD t) t

theorem appendAll_logs (t : Rows) (calls : List DecisionLog) :
    (appendAll t calls).logs =
      t.logs ++ ((firsts calls).filter fun log => !holds t .log log.key).map (Row.of .log) := by
  induction calls generalizing t with
  | nil => simp [appendAll, firsts]
  | cons log rest ih =>
    have next : appendAll t (log :: rest) =
        appendAll ((add t (.log log)).toOption.getD t) rest := rfl
    rw [next, ih, firsts, List.filter_cons, List.filter_filter]
    have key : (Record.log log).key = log.key := rfl
    unfold add
    rw [key, Record.kind]
    cases held : holds t .log log.key with
    | true =>
      have apart : ∀ a ∈ firsts rest, (!holds t .log a.key) =
          (!holds t .log a.key && decide (a.key ≠ log.key)) := by
        intro a _
        by_cases same : a.key = log.key
        · simp [same, held]
        · simp [same]
      simp [Except.toOption, List.filter_congr apart]
    | false =>
      have plus : (t.plus (.log log)).logs = t.logs ++ [Row.of .log log] := rfl
      have apart : ∀ a ∈ firsts rest, (!holds (t.plus (.log log)) .log a.key) =
          (!holds t .log a.key && decide (a.key ≠ log.key)) := by
        intro a _
        simp [holds, Rows.of, plus, Row.of, RecordKind.key, eq_comm]
      simp only [Except.toOption, Option.getD_some, List.filter_congr apart, Bool.not_false,
        if_true, Bool.false_eq_true, if_false]
      rw [plus]
      simp

theorem mem_of_firsts {calls : List DecisionLog} {log : DecisionLog} (member : log ∈ firsts calls) :
    log ∈ calls := by
  induction calls with
  | nil => exact member
  | cons first rest ih =>
    rcases List.mem_cons.mp member with rfl | later
    · exact List.mem_cons_self
    · exact List.mem_cons_of_mem _ (ih (List.mem_of_mem_filter later))

/-! ### The rows chosen -/

theorem all_bound {o : Option Timestamp} {p q : Timestamp → Bool} (dated : ∀ t ∈ o, t.Dated)
    (same : ∀ t, t.Dated → p t = q t.cut) : o.all p = (o.map Timestamp.cut).all q := by
  cases o with
  | none => simp
  | some t => simpa using same t (dated t rfl)

theorem passes_cut {f : DecisionFilter} (bounds : f.Dated) {l : DecisionLog}
    (dated : l.timestamp.Dated) : passes f (.of .log l) = f.cut.matches l.cut := by
  have time : (Row.of .log l).time = Row.timeText l.timestamp := rfl
  have early := all_bound
    (p := fun t => !decide ((Row.of .log l).time < Row.timeText t))
    (q := fun t => t.le l.timestamp.cut) bounds.earliest fun t told => by
      simp [time, Timestamp.le_eq_not_lt, Row.timeText_lt_iff dated told]
  have late := all_bound
    (p := fun t => !decide (Row.timeText t < (Row.of .log l).time))
    (q := fun t => l.timestamp.cut.le t) bounds.latest fun t told => by
      simp [time, Timestamp.le_eq_not_lt, Row.timeText_lt_iff told dated]
  unfold passes DecisionFilter.matches
  rw [early, late]
  rfl

theorem ordered_cut {a b : DecisionLog} (first : a.timestamp.Dated) (second : b.timestamp.Dated) :
    ordered (.of .log a) (.of .log b) = DecisionFilter.ordered a.cut b.cut := by
  have less := Row.timeText_lt_iff first second
  have same := Row.timeText_eq_iff first second
  unfold ordered DecisionFilter.ordered
  rw [Bool.eq_iff_iff]
  simp only [Bool.or_eq_true, Bool.and_eq_true, decide_eq_true_eq, beq_iff_eq]
  exact or_congr less (and_congr same Iff.rfl)

structure Arranges (arrange : List Row → List Row) : Prop where
  perm : ∀ rows, (arrange rows).Perm rows
  inOrder : ∀ rows, (arrange rows).Pairwise fun a b => ordered a b = true

theorem mergeSort_arranges : Arranges (·.mergeSort ordered) where
  perm rows := List.mergeSort_perm rows ordered
  inOrder rows := by
    apply List.pairwise_mergeSort
    · intro a b c first second
      simp only [ordered, Bool.or_eq_true, decide_eq_true_eq, Bool.and_eq_true, beq_iff_eq] at *
      rcases first with less | ⟨same, le⟩ <;> rcases second with more | ⟨equal, ge⟩
      · exact .inl (lt_trans less more)
      · exact .inl (equal ▸ less)
      · exact .inl (same ▸ more)
      · exact .inr ⟨same.trans equal, le_trans le ge⟩
    · intro a b
      simp only [ordered, Bool.or_eq_true, decide_eq_true_eq, Bool.and_eq_true, beq_iff_eq]
      rcases lt_trichotomy a.time b.time with less | same | more
      · exact .inl (.inl less)
      · rcases le_total a.key.iteration b.key.iteration with le | ge
        · exact .inl (.inr ⟨same, le⟩)
        · exact .inr (.inr ⟨same.symm, ge⟩)
      · exact .inr (.inl more)

theorem exists_arranged {arrange : List Row → List Row} (arranges : Arranges arrange)
    (logs : List DecisionLog) :
    ∃ sorted : List DecisionLog, sorted.Perm logs ∧
      arrange (logs.map (Row.of .log)) = sorted.map (Row.of .log) := by
  have through := congrFun₂ (List.eq_map_comp_perm (Row.of .log))
    (arrange (logs.map (Row.of .log))) logs
  obtain ⟨sorted, eq, same⟩ := through.mpr (arranges.perm (logs.map (Row.of .log)))
  exact ⟨sorted, same, eq⟩

/-- Of the same logs, those chosen by their rows are, cut, an answer of the filter, cut. -/
theorem chosen_cut {f : DecisionFilter} {logs sorted : List DecisionLog} (bounds : f.Dated)
    (dated : ∀ log ∈ logs, log.timestamp.Dated)
    (perm : sorted.Perm (logs.filter (passes f ∘ Row.of .log)))
    (inOrder : (sorted.map (Row.of .log)).Pairwise fun a b => ordered a b = true) :
    f.cut.Alike ((logs.map DecisionLog.cut).filter f.cut.matches)
      (f.cut.apply (logs.map DecisionLog.cut)) ((f.truncate sorted).map DecisionLog.cut) := by
  have chosen : (logs.filter (passes f ∘ Row.of .log)).map DecisionLog.cut =
      (logs.map DecisionLog.cut).filter f.cut.matches := by
    have each : ∀ log ∈ logs,
        (passes f ∘ Row.of .log) log = (f.cut.matches ∘ DecisionLog.cut) log :=
      fun log member => passes_cut bounds (dated log member)
    rw [List.filter_map, List.filter_congr each]
  have same := perm.map DecisionLog.cut
  rw [chosen] at same
  have fromLogs : ∀ log ∈ sorted, log.timestamp.Dated :=
    fun log member => dated log (List.mem_of_mem_filter (perm.mem_iff.mp member))
  have cut : (sorted.map DecisionLog.cut).Pairwise
      fun a b => DecisionFilter.ordered a b = true := by
    rw [List.pairwise_map] at inOrder ⊢
    refine inOrder.imp_of_mem fun {a b} first second le => ?_
    rw [← ordered_cut (fromLogs a first) (fromLogs b second)]
    exact le
  rw [truncate_map]
  exact alike_sorted f.cut same cut

/-! ### What is read of them -/

/-- What is answered when these logs have been chosen. -/
structure Reads (chosen : List DecisionLog) (answer : Except Fault (List DecisionLog)) : Prop where
  each : answer = (chosen.map (Row.of .log)).mapM (decode .log)
  whole : (∀ log ∈ chosen, log.Sound ∧ log.toJson.Exact) →
    (∀ log ∈ chosen, log.toJson.depth ≤ Json.depthLimit) → answer = .ok chosen
  corrupt : (∀ log ∈ chosen, log.Sound ∧ log.toJson.Exact) →
    ∀ before log after, chosen = before ++ log :: after →
      (∀ b ∈ before, b.toJson.depth ≤ Json.depthLimit) → Json.depthLimit < log.toJson.depth →
      answer = .error (.corruptRecord none (Json.excess? log.toJson.chars))

theorem legible_of_shallow {logs : List DecisionLog}
    (written : ∀ log ∈ logs, log.Sound ∧ log.toJson.Exact)
    (flat : ∀ log ∈ logs, log.toJson.depth ≤ Json.depthLimit) :
    ∀ log ∈ logs, RecordKind.log.Legible log := by
  intro log member
  obtain ⟨sound, exactly⟩ := written log member
  have trips : RoundTrips DecisionLog.toJson DecisionLog.ofJson? DecisionLog.Sound :=
    DecisionLog.codec.roundTrips
  exact (trips.back log sound exactly).mpr (flat log member)

theorem reads_chosen (chosen : List DecisionLog) :
    Reads chosen ((chosen.map (Row.of .log)).mapM (decode .log)) where
  each := rfl
  whole written flat := decode_all (legible_of_shallow written flat)
  corrupt := by
    rintro written before log after rfl flat deep
    have early := decode_all (k := .log)
      (legible_of_shallow (fun b member => written b (List.mem_append_left _ member)) flat)
    obtain ⟨sound, exactly⟩ := written log (by simp)
    have codec : Codec DecisionLog.toJson DecisionLog.ofJson? DecisionLog.Sound Json.depthLimit :=
      DecisionLog.codec
    rw [List.map_append, List.mapM_append, early, List.map_cons, List.mapM_cons,
      decode_unread (k := .log) (codec.unread sound exactly deep)]
    rfl

/-- A query chooses logs that its filter would answer with if it saw timestamps of whole
microseconds, as they are stored, and answers with what is read of them; or it is refused for a
limit beyond 64 bits with sign. -/
theorem answers_in_microseconds {arrange : List Row → List Row} (arranges : Arranges arrange)
    (calls : List DecisionLog) (f : DecisionFilter)
    (dated : ∀ log ∈ calls, log.timestamp.Dated) (bounds : f.Dated) :
    ((∃ n ∈ f.limit, limitBound ≤ n) ∧
      queryBy arrange (appendAll .empty calls) f = .error (.database "datatype mismatch")) ∨
    ((∀ n ∈ f.limit, n < limitBound) ∧ ∃ chosen : List DecisionLog,
      Reads chosen (queryBy arrange (appendAll .empty calls) f) ∧
      chosen.Subperm (firsts calls) ∧
      f.cut.Alike (((firsts calls).map DecisionLog.cut).filter f.cut.matches)
        (f.cut.apply ((firsts calls).map DecisionLog.cut)) (chosen.map DecisionLog.cut) ∧
      ((∀ log ∈ calls, log.cut = log) → f.cut = f →
        f.Alike ((firsts calls).filter f.matches) (f.apply (firsts calls)) chosen)) := by
  have stored : (appendAll .empty calls).logs = (firsts calls).map (Row.of .log) := by
    rw [appendAll_logs]
    simp [Rows.empty, holds, Rows.of]
  have inFirsts : ∀ log ∈ firsts calls, log.timestamp.Dated :=
    fun log member => dated log (mem_of_firsts member)
  have limited : f.limit.any (limitBound ≤ ·) = true ↔ ∃ n ∈ f.limit, limitBound ≤ n := by
    cases f.limit with
    | none => simp
    | some n => simp
  unfold queryBy
  rw [stored, List.filter_map]
  by_cases large : f.limit.any (limitBound ≤ ·) = true
  · left
    rw [if_pos large]
    exact ⟨limited.mp large, rfl⟩
  · right
    rw [if_neg large]
    rw [limited] at large
    obtain ⟨sorted, perm, eq⟩ :=
      exists_arranged arranges ((firsts calls).filter (passes f ∘ Row.of .log))
    have inOrder := arranges.inOrder (((firsts calls).filter (passes f ∘ Row.of .log)).map (Row.of .log))
    rw [eq] at inOrder
    have alike := chosen_cut bounds inFirsts perm inOrder
    have below : (f.truncate sorted).Subperm (firsts calls) :=
      (f.truncate_sublist _).subperm.trans (perm.subperm.trans List.filter_sublist.subperm)
    have whole : (∀ log ∈ calls, log.cut = log) → ∀ logs : List DecisionLog,
        logs.Subperm (firsts calls) → logs.map DecisionLog.cut = logs := by
      intro micros logs among
      rw [List.map_congr_left fun log member =>
        micros log (mem_of_firsts (among.subset member)), List.map_id']
    refine ⟨fun n limit => Nat.not_le.mp fun le => large ⟨n, limit, le⟩, f.truncate sorted, ?_,
      below, alike, ?_⟩
    · rw [eq, ← truncate_map]
      exact reads_chosen _
    · intro micros fixed
      rw [fixed, whole micros _ (List.Subperm.refl _), whole micros _ below] at alike
      exact alike

def tick (iteration nanos : Nat) : DecisionLog :=
  ⟨"s", iteration, .decision, [], none, .of .retry none, .partial, ⟨0, nanos⟩, none, []⟩

theorem tick_dated (iteration : Nat) {nanos : Nat} (second : nanos < tenTo 9) :
    (tick iteration nanos).timestamp.Dated :=
  ⟨show 0 ≤ (Calendar.dateOfDays (0 / 86400)).1 ∧ (Calendar.dateOfDays (0 / 86400)).1 ≤ 9999 by
    decide, .inl second⟩

theorem tick_sound {iteration nanos : Nat} (small : iteration < twoTo 32) (second : nanos < tenTo 9) :
    (tick iteration nanos).Sound where
  iteration := small
  input := empty_proper
  observations := by simp [tick]
  timestamp := ⟨by simp [tick]; decide, .inl second⟩
  metadata := empty_proper

theorem tick_exact (iteration nanos : Nat) : (tick iteration nanos).toJson.Exact := by
  unfold DecisionLog.toJson
  apply Json.exact_record
  have retry : (Decision.of .retry none).toJson.numbers = [] := by decide
  simp [tick, retry, Json.Exact, Json.numbers, Json.memberNumbers, Json.nat, Json.ofOption,
    Phase.toJson, Outcome.toJson, Timestamp.toJson]

theorem tick_depth (iteration nanos : Nat) : (tick iteration nanos).toJson.depth ≤ 1 + 1 := by
  unfold DecisionLog.toJson
  apply Json.depth_record
  have retry : (Decision.of .retry none).toJson.depth = 1 := by decide
  simp [tick, retry, Json.depth, Json.memberDepth, Json.nat, Json.ofOption, Phase.toJson,
    Outcome.toJson, Timestamp.toJson]

theorem ticks_written {i j m n : Nat} (small : i < twoTo 32) (small' : j < twoTo 32)
    (second : m < tenTo 9) (second' : n < tenTo 9) :
    ∀ log ∈ [tick i m, tick j n], log.Sound ∧ log.toJson.Exact := by
  intro log member
  simp only [List.mem_cons, List.not_mem_nil, or_false] at member
  rcases member with rfl | rfl
  · exact ⟨tick_sound small second, tick_exact i m⟩
  · exact ⟨tick_sound small' second', tick_exact j n⟩

theorem ticks_flat (i j m n : Nat) :
    ∀ log ∈ [tick i m, tick j n], log.toJson.depth ≤ Json.depthLimit := by
  intro log member
  simp only [List.mem_cons, List.not_mem_nil, or_false] at member
  rcases member with rfl | rfl
  · exact Nat.le_trans (tick_depth i m) (by decide)
  · exact Nat.le_trans (tick_depth j n) (by decide)

theorem firsts_ticks {i j m n : Nat} (other : i ≠ j) :
    firsts [tick i m, tick j n] = [tick i m, tick j n] := by
  simp [firsts, tick, DecisionLog.key, Ne.symm other]

def since (nanos : Nat) : DecisionFilter := { any with earliest := some ⟨0, nanos⟩ }

theorem ticks_in_microseconds :
    Arranges (·.mergeSort ordered) ∧
      (∀ log ∈ [tick 0 3000, tick 1 2000], log.timestamp.Dated) ∧ (since 1000).Dated ∧
      query (appendAll .empty [tick 0 3000, tick 1 2000]) (since 1000) =
        .ok [tick 1 2000, tick 0 3000] := by
  have dated : ∀ log ∈ [tick 0 3000, tick 1 2000], log.timestamp.Dated := by
    intro log member
    simp only [List.mem_cons, List.not_mem_nil, or_false] at member
    rcases member with rfl | rfl
    · exact tick_dated _ (by decide)
    · exact tick_dated _ (by decide)
  have bounds : (since 1000).Dated := by
    constructor
    · intro t bound
      obtain rfl := Option.some.inj bound
      exact tick_dated 0 (show 1000 < tenTo 9 by decide)
    · intro t bound
      cases bound
  refine ⟨mergeSort_arranges, dated, bounds, ?_⟩
  rcases answers_in_microseconds mergeSort_arranges _ _ dated bounds with
    ⟨⟨n, limit, _⟩, _⟩ | ⟨_, chosen, reads, _, _, whole⟩
  · cases limit
  · have micros : ∀ log ∈ [tick 0 3000, tick 1 2000], log.cut = log := by
      intro log member
      simp only [List.mem_cons, List.not_mem_nil, or_false] at member
      rcases member with rfl | rfl
      · rfl
      · rfl
    have alike := whole micros rfl
    rw [firsts_ticks (by decide)] at alike
    have apart : (([tick 0 3000, tick 1 2000].filter (since 1000).matches).map
        DecisionLog.place).Nodup := by decide
    obtain rfl := alike.order apart
    have answer : (since 1000).apply [tick 0 3000, tick 1 2000] = [tick 1 2000, tick 0 3000] := by
      simp [DecisionFilter.apply, truncate, since, any, DecisionFilter.matches, mergeSort_pair,
        DecisionFilter.ordered, tick, Timestamp.le, Timestamp.lt]
    rw [answer] at reads
    unfold query
    exact reads.whole (ticks_written (by decide) (by decide) (by decide) (by decide))
      (ticks_flat _ _ _ _)

/-- Within a microsecond a query orders by iteration what came in another order of time. -/
theorem nanoseconds_disordered :
    query (appendAll .empty [tick 0 500, tick 1 100]) any = .ok [tick 0 500, tick 1 100] ∧
      any.apply [tick 0 500, tick 1 100] = [tick 1 100, tick 0 500] := by
  have tied : ordered (.of .log (tick 0 500)) (.of .log (tick 1 100)) = true := by
    rw [ordered_cut (tick_dated _ (by decide)) (tick_dated _ (by decide))]
    decide
  constructor
  · have rows : (appendAll .empty [tick 0 500, tick 1 100]).logs =
        [.of .log (tick 0 500), .of .log (tick 1 100)] := by
      rw [appendAll_logs, firsts_ticks (by decide)]
      rfl
    have passing : [Row.of .log (tick 0 500), .of .log (tick 1 100)].filter (passes any) =
        [.of .log (tick 0 500), .of .log (tick 1 100)] := rfl
    unfold query queryBy
    dsimp only
    rw [rows, if_neg (by decide), passing, mergeSort_pair, if_pos tied]
    have legible : ∀ log ∈ [tick 0 500, tick 1 100], RecordKind.log.Legible log :=
      legible_of_shallow (ticks_written (by decide) (by decide) (by decide) (by decide))
        (ticks_flat _ _ _ _)
    exact @decode_all .log [tick 0 500, tick 1 100] legible
  · have matching : [tick 0 500, tick 1 100].filter any.matches = [tick 0 500, tick 1 100] := rfl
    unfold DecisionFilter.apply
    rw [matching, mergeSort_pair]
    rfl

end Database
end Orchestration

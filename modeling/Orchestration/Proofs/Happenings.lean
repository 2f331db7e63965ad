import Mathlib.Data.List.DropRight
import Orchestration.Proofs.Tables
import Orchestration.World

/-! What happens on a bus, one thing after the other, and what the bus holds by it: a result until
a newer one takes its place or its session is cleared, the mail of a session since it was last
taken out, and the subscriptions that nobody ended. -/
namespace Orchestration

/-- Publications are numbered in their order, from zero. -/
inductive Happening (η : Type) where
  | subscribed (s : Subscription η)
  | unsubscribed (topic : Topic) (id : Nat)
  | published (number : Nat) (m : Message)
  /-- a handler begins with the message of a publication -/
  | handed (number : Nat) (handler : η)
  | answered (number : Nat) (a : Answer Unit)
  /-- a publication is over, and these are the faults that its publisher learns of -/
  | returned (number : Nat) (faults : List Fault)
  | drained (session : String)
  | cleared (session : String)

theorem split_append {α : Type} {front back before after : List α} {x : α} :
    front ++ back = before ++ x :: after ↔
      (∃ rest, front = before ++ x :: rest ∧ after = rest ++ back) ∨
      ∃ rest, before = front ++ rest ∧ back = rest ++ x :: after := by
  constructor
  · intro split
    rcases List.append_eq_append_iff.mp split with ⟨rest, first, last⟩ | ⟨rest, first, last⟩
    · exact .inr ⟨rest, first, last⟩
    · cases rest with
      | nil => exact .inr ⟨[], by simpa using first.symm, by simpa using last.symm⟩
      | cons y rest =>
        obtain ⟨rfl, rfl⟩ := List.cons.inj last
        exact .inl ⟨rest, first, rfl⟩
  · rintro (⟨rest, rfl, rfl⟩ | ⟨rest, rfl, rfl⟩) <;> simp

theorem split_concat {α : Type} {front before after : List α} {last x : α} :
    front ++ [last] = before ++ x :: after ↔
      (∃ rest, front = before ++ x :: rest ∧ after = rest ++ [last]) ∨
      before = front ∧ x = last ∧ after = [] := by
  refine split_append.trans (or_congr_right ⟨?_, ?_⟩)
  · rintro ⟨rest, here, ends⟩
    cases rest with
    | nil =>
      obtain ⟨rfl, rfl⟩ := List.cons.inj ends
      exact ⟨by simpa using here, rfl, rfl⟩
    | cons y rest => simp at ends
  · rintro ⟨rfl, rfl, rfl⟩
    exact ⟨[], by simp, rfl⟩

def Since {α : Type} (past : List α) (first later : α → Prop) : Prop :=
  ∃ before x after, past = before ++ x :: after ∧ first x ∧ ∀ e ∈ after, later e

theorem since_concat {α : Type} {past : List α} {last : α} {first later : α → Prop} :
    Since (past ++ [last]) first later ↔ first last ∨ Since past first later ∧ later last := by
  constructor
  · rintro ⟨before, x, after, split, happened, since⟩
    rcases split_concat.mp split with ⟨rest, old, rfl⟩ | ⟨_, rfl, _⟩
    · refine .inr ⟨⟨before, x, rest, old, happened, fun e member => ?_⟩, ?_⟩
      · exact since e (List.mem_append_left _ member)
      · exact since last (by simp)
    · exact .inl happened
  · rintro (happened | ⟨⟨before, x, after, rfl, happened, since⟩, now⟩)
    · exact ⟨past, last, [], rfl, happened, by simp⟩
    · refine ⟨before, x, after ++ [last], by simp, happened, fun e member => ?_⟩
      rcases List.mem_append.mp member with inside | here
      · exact since e inside
      · rw [List.mem_singleton.mp here]
        exact now

variable {η : Type}

namespace Happening

def subscription? : Happening η → Option (Subscription η)
  | subscribed s => some s
  | _ => none

def message? : Happening η → Option Message
  | published _ m => some m
  | _ => none

def spares (r : TaskResult) : Happening η → Prop
  | published _ (.result q) => q.task ≠ r.task
  | cleared session => session ≠ r.session
  | _ => True

def empties (session : String) : Happening η → Bool
  | drained other | cleared other => other == session
  | _ => false

def ends (s : Subscription η) : Happening η → Bool
  | unsubscribed topic id => s.topic = topic && s.id = id
  | _ => false

end Happening

/-- A result was published, and since then neither another one for its task nor was its session
cleared. -/
def Stands (past : List (Happening η)) (r : TaskResult) : Prop :=
  ∃ before number after, past = before ++ .published number (.result r) :: after ∧
    ∀ e ∈ after, e.spares r

def mailed (past : List (Happening η)) (session : String) : List Message :=
  ((past.rtakeWhile (!·.empties session)).filterMap Happening.message?).filter
    (·.session? = some session)

def standing : List (Happening η) → List (Subscription η)
  | [] => []
  | .subscribed s :: later => if later.any (·.ends s) then standing later else s :: standing later
  | _ :: later => standing later

def listeners (past : List (Happening η)) (topic : Topic) : List η :=
  ((standing past).filter (·.topic = topic)).filterMap (·.handler)

def messages (past : List (Happening η)) : List Message := past.filterMap Happening.message?

def joined (past : List (Happening η)) : List (Subscription η) :=
  past.filterMap Happening.subscription?

theorem stands_iff_since {past : List (Happening η)} {r : TaskResult} :
    Stands past r ↔ Since past (fun e => ∃ number, e = .published number (.result r))
      (·.spares r) := by
  constructor
  · rintro ⟨before, number, after, split, spared⟩
    exact ⟨before, _, after, split, ⟨number, rfl⟩, spared⟩
  · rintro ⟨before, _, after, split, ⟨number, rfl⟩, spared⟩
    exact ⟨before, number, after, split, spared⟩

theorem stands_concat (past : List (Happening η)) (e : Happening η) (r : TaskResult) :
    Stands (past ++ [e]) r ↔
      (∃ number, e = .published number (.result r)) ∨ Stands past r ∧ e.spares r := by
  rw [stands_iff_since, since_concat, ← stands_iff_since]

theorem mailed_concat (past : List (Happening η)) (e : Happening η) (session : String) :
    mailed (past ++ [e]) session = if e.empties session then [] else
      mailed past session ++ e.message?.toList.filter (·.session? = some session) := by
  unfold mailed
  rw [List.rtakeWhile_concat]
  cases emptied : e.empties session with
  | true => simp
  | false =>
    have last : [e].filterMap Happening.message? = e.message?.toList := by
      cases now : e.message? <;> simp [now]
    rw [Bool.not_false, if_pos rfl, List.filterMap_append, List.filter_append, last]
    rfl

theorem standing_concat (past : List (Happening η)) (e : Happening η) :
    standing (past ++ [e]) =
      (standing past).filter (!e.ends ·) ++ e.subscription?.toList := by
  induction past with
  | nil => cases e <;> simp [standing, Happening.subscription?]
  | cons first rest ih =>
    cases first with
    | subscribed s =>
      cases ended : rest.any (·.ends s) <;> cases now : e.ends s <;>
        simp [standing, ended, now, ih]
    | _ => simpa [standing] using ih

theorem subscribed_of_standing {past : List (Happening η)} {s : Subscription η}
    (stands : s ∈ standing past) : ∃ before after, past = before ++ .subscribed s :: after := by
  induction past with
  | nil => cases stands
  | cons first rest ih =>
    have onward (stands : s ∈ standing rest) :
        ∃ before after, first :: rest = before ++ .subscribed s :: after := by
      obtain ⟨before, after, split⟩ := ih stands
      exact ⟨first :: before, after, by rw [split]; rfl⟩
    cases first with
    | subscribed new =>
      unfold standing at stands
      split at stands
      · exact onward stands
      · rcases List.mem_cons.mp stands with rfl | later
        · exact ⟨[], rest, rfl⟩
        · exact onward later
    | _ => exact onward stands

section Concat

variable {past : List (Happening η)} {e : Happening η}

theorem stands_other (silent : e.message? = none) (spares : ∀ r, e.spares r) (r : TaskResult) :
    Stands (past ++ [e]) r ↔ Stands past r := by
  rw [stands_concat]
  constructor
  · rintro (⟨number, rfl⟩ | ⟨old, _⟩)
    · cases silent
    · exact old
  · exact fun old => .inr ⟨old, spares r⟩

theorem mailed_other (silent : e.message? = none) {session : String}
    (fills : e.empties session = false) : mailed (past ++ [e]) session = mailed past session := by
  rw [mailed_concat, fills, silent]
  exact List.append_nil _

theorem standing_other (other : e.subscription? = none) (ends : ∀ s, e.ends s = false) :
    standing (past ++ [e]) = standing past := by
  rw [standing_concat, other]
  simp [ends]

theorem joined_other (other : e.subscription? = none) : joined (past ++ [e]) = joined past := by
  unfold joined
  rw [List.filterMap_append, List.filterMap_cons_none other, List.filterMap_nil, List.append_nil]

end Concat

/-- What a bus holds is what its past makes of an empty one. -/
structure Recounts (past : List (Happening η)) (b : Bus η) : Prop where
  sorted : Table.Sorted b.results
  results : ∀ task r, b.result? task = some r ↔ r.task = task ∧ Stands past r
  mailboxes : ∀ session, b.mailbox session = mailed past session
  subscriptions : b.subscriptions = standing past
  nextId : b.nextId = (joined past).length + 1
  ids : ∀ before s after, past = before ++ .subscribed s :: after →
    s.id = (joined before).length + 1

namespace Recounts

variable {past : List (Happening η)} {b : Bus η}

theorem empty (pollInterval : Nat) : Recounts [] (Bus.empty pollInterval : Bus η) where
  sorted := .nil
  results task r := by
    refine ⟨fun found => (nomatch found), fun ⟨_, _, _, _, split, _⟩ => ?_⟩
    simp at split
  mailboxes _ := rfl
  subscriptions := rfl
  nextId := rfl
  ids before s after split := by simp at split

/-- Whoever joins next gets an id that nobody has. -/
theorem ids_lt (told : Recounts past b) : ∀ s ∈ b.subscriptions, s.id < b.nextId := by
  intro s member
  rw [told.subscriptions] at member
  obtain ⟨before, after, split⟩ := subscribed_of_standing member
  rw [told.ids before s after split, told.nextId, split]
  simp [joined, Happening.subscription?]

theorem handlers_eq (told : Recounts past b) (topic : Topic) :
    b.handlers topic = listeners past topic := by
  unfold Bus.handlers Bus.subscribers listeners
  rw [told.subscriptions]

theorem ids_concat (told : Recounts past b) {e : Happening η} (other : e.subscription? = none)
    (before : List (Happening η)) (s : Subscription η) (after : List (Happening η))
    (split : past ++ [e] = before ++ .subscribed s :: after) :
    s.id = (joined before).length + 1 := by
  rcases split_concat.mp split with ⟨rest, old, _⟩ | ⟨_, rfl, _⟩
  · exact told.ids before s rest old
  · cases other

theorem results_other (told : Recounts past b) {e : Happening η} (silent : e.message? = none)
    (spares : ∀ r, e.spares r) (task : String) (r : TaskResult) :
    b.result? task = some r ↔ r.task = task ∧ Stands (past ++ [e]) r := by
  rw [told.results, stands_other silent spares]

theorem nextId_other (told : Recounts past b) {e : Happening η} (other : e.subscription? = none) :
    b.nextId = (joined (past ++ [e])).length + 1 := by
  rw [told.nextId, joined_other other]

/-- Deliveries and answers change nothing that a bus holds. -/
theorem quiet (told : Recounts past b) {e : Happening η} (other : e.subscription? = none)
    (silent : e.message? = none) (spares : ∀ r, e.spares r)
    (fills : ∀ session, e.empties session = false) (ends : ∀ s, e.ends s = false) :
    Recounts (past ++ [e]) b where
  sorted := told.sorted
  results := told.results_other silent spares
  mailboxes session := by rw [told.mailboxes, mailed_other silent (fills session)]
  subscriptions := by rw [told.subscriptions, standing_other other ends]
  nextId := told.nextId_other other
  ids := told.ids_concat other

theorem handed (told : Recounts past b) (number : Nat) (handler : η) :
    Recounts (past ++ [.handed number handler]) b :=
  told.quiet rfl rfl (fun _ => trivial) (fun _ => rfl) fun _ => rfl

theorem answered (told : Recounts past b) (number : Nat) (a : Answer Unit) :
    Recounts (past ++ [.answered number a]) b :=
  told.quiet rfl rfl (fun _ => trivial) (fun _ => rfl) fun _ => rfl

theorem returned (told : Recounts past b) (number : Nat) (faults : List Fault) :
    Recounts (past ++ [.returned number faults]) b :=
  told.quiet rfl rfl (fun _ => trivial) (fun _ => rfl) fun _ => rfl

theorem subscribe (told : Recounts past b) (topic : Topic) (handler : Option η) :
    Recounts (past ++ [.subscribed ⟨b.nextId, topic, handler⟩]) (b.subscribe topic handler).2 where
  sorted := told.sorted
  results := told.results_other rfl fun _ => trivial
  mailboxes session := (told.mailboxes session).trans (mailed_other rfl rfl).symm
  subscriptions := by
    rw [standing_concat, ← told.subscriptions]
    simp [Happening.ends, Happening.subscription?, Bus.subscribe]
  nextId := by
    unfold joined
    rw [List.filterMap_append, List.length_append]
    exact congrArg (· + 1) told.nextId
  ids before s after split := by
    rcases split_concat.mp split with ⟨rest, old, _⟩ | ⟨rfl, here, _⟩
    · exact told.ids before s rest old
    · obtain rfl := Happening.subscribed.inj here
      exact told.nextId

theorem unsubscribe (told : Recounts past b) (topic : Topic) (id : Nat) :
    Recounts (past ++ [.unsubscribed topic id]) (b.unsubscribe topic id).2 where
  sorted := told.sorted
  results := told.results_other rfl fun _ => trivial
  mailboxes session := (told.mailboxes session).trans (mailed_other rfl rfl).symm
  subscriptions := by
    rw [standing_concat, ← told.subscriptions]
    simp [Happening.ends, Happening.subscription?, Bus.unsubscribe]
  nextId := told.nextId_other rfl
  ids := told.ids_concat rfl

theorem accept (told : Recounts past b) (number : Nat) (m : Message) :
    Recounts (past ++ [.published number m]) (b.accept m) where
  sorted := by
    rw [b.accept_results]
    cases m with
    | result r => exact Table.sorted_put told.sorted _ _
    | dispatch | heartbeat | summary => exact told.sorted
  results task r := by
    have old := told.results task r
    rw [stands_concat, Bus.result?, b.accept_results]
    cases m with
    | result q =>
      change Table.get? (Table.put b.results q.task q) task = some r ↔ _
      -- the newest result takes the place of the one there was for its task
      by_cases same : task = q.task
      · subst same
        rw [Table.get?_put_self]
        constructor
        · intro found
          obtain rfl := Option.some.inj found
          exact ⟨rfl, .inl ⟨number, rfl⟩⟩
        · rintro ⟨own, ⟨_, new⟩ | ⟨_, spared⟩⟩
          · cases new
            rfl
          · exact absurd own.symm spared
      · rw [Table.get?_put_of_ne _ _ same]
        refine old.trans (and_congr_right fun own => ?_)
        have spared : (Happening.published number (.result q) : Happening η).spares r :=
          fun equal => same (own ▸ equal.symm)
        refine ⟨fun stood => .inr ⟨stood, spared⟩, ?_⟩
        rintro (⟨_, new⟩ | ⟨stood, _⟩)
        · cases new
          exact absurd own.symm same
        · exact stood
    | dispatch | heartbeat | summary =>
      simp only [Happening.spares, and_true, Happening.published.injEq, reduceCtorEq, and_false,
        exists_false, false_or]
      exact old
  mailboxes session := by
    rw [b.mailbox_accept, mailed_concat, told.mailboxes]
    rfl
  subscriptions := by
    rw [(b.accept_subscriptions m).1, told.subscriptions]
    exact (standing_other rfl fun _ => rfl).symm
  nextId := by
    rw [(b.accept_subscriptions m).2, told.nextId, joined_other rfl]
  ids := told.ids_concat rfl

theorem mailboxes_emptied (told : Recounts past b) {e : Happening η} (silent : e.message? = none)
    {session : String} (fills : ∀ other, e.empties other = (session == other)) (other : String) :
    (b.emptyMailbox session).mailbox other = mailed (past ++ [e]) other := by
  rw [b.mailbox_emptyMailbox, mailed_concat, fills, silent, told.mailboxes]
  by_cases same : other = session
  · simp [same]
  · simp [same, Ne.symm same]

theorem drain (told : Recounts past b) (session : String) :
    Recounts (past ++ [.drained session]) (b.drain session).2 where
  sorted := told.sorted
  results := told.results_other rfl fun _ => trivial
  mailboxes := told.mailboxes_emptied rfl fun _ => rfl
  subscriptions := told.subscriptions.trans (standing_other rfl fun _ => rfl).symm
  nextId := told.nextId_other rfl
  ids := told.ids_concat rfl

theorem clear (told : Recounts past b) (session : String) :
    Recounts (past ++ [.cleared session]) (b.clearSession session) where
  sorted := List.Pairwise.filter _ told.sorted
  results task r := by
    have left : (b.clearSession session).result? task =
        (b.result? task).filter (·.session != session) :=
      Table.get?_filter told.sorted (·.session != session) task
    rw [left, stands_concat, Option.filter_eq_some_iff, told.results, and_assoc]
    simp only [Happening.spares, bne_iff_ne, ne_comm, reduceCtorEq, exists_false, false_or]
  mailboxes := told.mailboxes_emptied rfl fun _ => rfl
  subscriptions := told.subscriptions.trans (standing_other rfl fun _ => rfl).symm
  nextId := told.nextId_other rfl
  ids := told.ids_concat rfl

end Recounts
end Orchestration

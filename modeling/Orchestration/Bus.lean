import Orchestration.Bus.Message

/-! The bus as it stands: who is subscribed to what, the latest result of each task, and a
mailbox for each session with its messages in the order of their publication. -/
namespace Orchestration

/-- A handler at a topic. One without a handler only takes part in the count. -/
structure Subscription (η : Type) where
  id : Nat
  topic : Topic
  handler : Option η

structure Bus (η : Type) where
  /-- in the order in which they were made -/
  subscriptions : List (Subscription η)
  nextId : Nat
  results : Table TaskResult
  mailboxes : Table (List Message)
  /-- milliseconds between looks at the results -/
  pollInterval : Nat

namespace Bus

variable {η : Type}

def defaultPollInterval : Nat := 100

def empty (pollInterval : Nat) : Bus η := ⟨[], 1, [], [], pollInterval⟩

def subscribe (b : Bus η) (topic : Topic) (handler : Option η) : Nat × Bus η :=
  (b.nextId, { b with
    subscriptions := b.subscriptions ++ [⟨b.nextId, topic, handler⟩]
    nextId := b.nextId + 1 })

def isSubscribed (b : Bus η) (topic : Topic) (id : Nat) : Bool :=
  b.subscriptions.any fun s => s.topic = topic && s.id = id

def unsubscribe (b : Bus η) (topic : Topic) (id : Nat) : Bool × Bus η :=
  (b.isSubscribed topic id,
    { b with subscriptions := b.subscriptions.filter fun s => !(s.topic = topic && s.id = id) })

def subscribers (b : Bus η) (topic : Topic) : List (Subscription η) :=
  b.subscriptions.filter (·.topic = topic)

def count (b : Bus η) (topic : Topic) : Nat := (b.subscribers topic).length

def handlers (b : Bus η) (topic : Topic) : List η := (b.subscribers topic).filterMap (·.handler)

/-- A result takes the place of an earlier one for its task. -/
def storeResult (b : Bus η) : Message → Bus η
  | .result r => { b with results := Table.put b.results r.task r }
  | _ => b

def mailbox (b : Bus η) (session : String) : List Message :=
  (Table.get? b.mailboxes session).getD []

/-- A message of a session goes to the end of its mailbox. -/
def mail (b : Bus η) (m : Message) : Bus η :=
  match m.session? with
  | none => b
  | some session =>
    { b with mailboxes := Table.put b.mailboxes session (b.mailbox session ++ [m]) }

/-- What is kept of a message before any handler sees it. -/
def accept (b : Bus η) (m : Message) : Bus η := (b.storeResult m).mail m

def result? (b : Bus η) (task : String) : Option TaskResult := Table.get? b.results task

def emptyMailbox (b : Bus η) (session : String) : Bus η :=
  { b with mailboxes := Table.erase b.mailboxes session }

def drain (b : Bus η) (session : String) : List Message × Bus η :=
  (b.mailbox session, b.emptyMailbox session)

def clearSession (b : Bus η) (session : String) : Bus η :=
  { b.emptyMailbox session with results := b.results.filter (·.2.session != session) }

theorem accept_results (b : Bus η) (m : Message) :
    (b.accept m).results = (b.storeResult m).results := by
  unfold accept mail
  split <;> rfl

theorem accept_subscriptions (b : Bus η) (m : Message) :
    (b.accept m).subscriptions = b.subscriptions ∧ (b.accept m).nextId = b.nextId := by
  have stored : (b.storeResult m).subscriptions = b.subscriptions ∧
      (b.storeResult m).nextId = b.nextId := by
    cases m <;> exact ⟨rfl, rfl⟩
  unfold accept mail
  split <;> exact stored

theorem mailbox_accept (b : Bus η) (m : Message) (session : String) :
    (b.accept m).mailbox session = b.mailbox session ++ [m].filter (·.session? = some session) := by
  have stored : (b.storeResult m).mailboxes = b.mailboxes := by cases m <;> rfl
  unfold accept mail mailbox
  cases own : m.session? with
  | none => simp [own, stored]
  | some name =>
    by_cases same : session = name
    · subst same
      simp [own, stored]
    · have other : some name ≠ some session := fun eq => same (Option.some.inj eq).symm
      simp [own, stored, Table.get?_put_of_ne _ _ same, other]

theorem mailbox_emptyMailbox (b : Bus η) (session other : String) :
    (b.emptyMailbox session).mailbox other = if other = session then [] else b.mailbox other := by
  unfold emptyMailbox mailbox
  by_cases same : other = session
  · simp [same]
  · simp [same, Table.get?_erase_of_ne]

end Bus
end Orchestration

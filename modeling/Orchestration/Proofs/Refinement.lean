import Orchestration.Proofs.Answers
import Orchestration.Proofs.Folders
import Orchestration.Proofs.Keeping

/-! The store in a directory does what the store in memory does. Two stores are asked the same
things from the beginning on; the files of the one mirror the records of the other, so that
each gives the answers that the other does, up to the order in which logs of one time and
iteration are queried. -/
namespace Orchestration

theorem Ledger.find?_only (l : Ledger) (key : StateKey) :
    (l.only key.session).states.find? (·.key = key) = l.state? key := by
  rw [only, List.find?_filter, state?]
  congr 1
  funext a
  by_cases same : a.key = key
  · have own : a.session = key.session := by rw [← same]; rfl
    simp [same, own]
  · simp [same]

/-- Things that are grouped by a name are all there, if every name is. -/
theorem flatMap_groups_perm {α : Type} (name : α → String) {names : List String}
    (distinct : names.Nodup) {items : List α} (covered : ∀ a ∈ items, name a ∈ names) :
    (names.flatMap fun n => items.filter (name · = n)).Perm items := by
  induction names generalizing items with
  | nil =>
    rw [List.eq_nil_iff_forall_not_mem.mpr fun a member => List.not_mem_nil (covered a member)]
    rfl
  | cons first rest ih =>
    obtain ⟨new, more⟩ := List.nodup_cons.mp distinct
    let others := items.filter (fun a => !decide (name a = first))
    have left : (rest.flatMap fun n => others.filter (name · = n)).Perm others := by
      refine ih more fun a member => ?_
      obtain ⟨inside, other⟩ := List.mem_filter.mp member
      have apart : name a ≠ first := by simpa using other
      exact List.mem_of_ne_of_mem apart (covered a inside)
    have same : (rest.flatMap fun n => others.filter (name · = n)) =
        rest.flatMap fun n => items.filter (name · = n) := by
      refine List.flatMap_congr fun n member => ?_
      have apart : n ≠ first := fun eq => new (eq ▸ member)
      rw [List.filter_filter]
      refine List.filter_congr fun a _ => ?_
      by_cases named : name a = n
      · simp [named, apart]
      · simp [named]
    rw [same] at left
    rw [List.flatMap_cons]
    exact (left.append_left _).trans (List.filter_append_perm _ items)

namespace Folder

theorem stem?_eq_some {k : RecordKind} {name stem : String} :
    stem? k name = some stem ↔ name = stem ++ k.suffix := by
  unfold stem?
  constructor
  · intro found
    split at found
    · rename_i ends
      obtain ⟨front, eq⟩ := List.isSuffixOf_iff_suffix.mp ends
      have size := congrArg List.length eq
      rw [List.length_append, String.length_toList, String.length_toList] at size
      rw [← eq, List.take_left' (by omega)] at found
      rw [← String.toList_inj, ← eq, ← Option.some.inj found]
      simp
    · cases found
  · rintro rfl
    have size : (stem ++ k.suffix).length - k.suffix.length = stem.toList.length := by
      rw [String.length_append, String.length_toList, Nat.add_sub_cancel]
    have ends : k.suffix.toList.isSuffixOf (stem ++ k.suffix).toList = true := by
      rw [List.isSuffixOf_iff_suffix, String.toList_append]
      exact List.suffix_append _ _
    rw [if_pos ends, size, String.toList_append, List.take_left]
    simp

def fileNames (l : Ledger) : List String :=
  l.states.map (·.session ++ RecordKind.state.suffix) ++ l.logs.map (·.session ++ RecordKind.log.suffix)

theorem mem_fileNames {l : Ledger} {k : RecordKind} {session : String} :
    session ++ k.suffix ∈ fileNames l ↔ ∃ a ∈ l.of k, (k.key a).session = session := by
  have ofKind (j : RecordKind) : session ++ k.suffix ∈
      (l.of j).map (fun a => (j.key a).session ++ j.suffix) ↔
        j = k ∧ ∃ a ∈ l.of k, (k.key a).session = session := by
    rw [List.mem_map]
    constructor
    · rintro ⟨a, member, same⟩
      obtain ⟨own, rfl⟩ := name_inj same
      exact ⟨rfl, a, member, own⟩
    · rintro ⟨rfl, a, member, rfl⟩
      exact ⟨a, member, rfl⟩
  have states := ofKind .state
  have logs := ofKind .log
  refine List.mem_append.trans ((or_congr states logs).trans ?_)
  cases k <;> simp

theorem mem_fileNames_plus {l : Ledger} {rec : Record} {name : String} :
    name ∈ fileNames (l.plus rec) ↔ name = rec.session ++ rec.kind.suffix ∨ name ∈ fileNames l := by
  cases rec with
  | state a =>
    change _ ↔ name = a.session ++ _ ∨ _
    simp [fileNames, Ledger.plus, or_left_comm, Record.kind]
  | log log =>
    change _ ↔ name = log.session ++ _ ∨ _
    simp [fileNames, Ledger.plus, or_comm, or_assoc, Record.kind]

/-- A directory holds the records of a ledger, each in the file of its session, in their order,
and nothing else. -/
structure Mirrors (d : Disk) (directory : String) (l : Ledger) : Prop where
  leads : d.Leads (Disk.isRooted directory) [] (Disk.steps directory)
  lists : d.Lists directory (fileNames l)
  keeps : ∀ session, isValid session = true → Keeps d directory session (l.only session)
  legible : ∀ k, ∀ a ∈ l.of k, isValid (k.key a).session = true ∧ k.Legible a

theorem lists_append {d d' : Disk} {directory name : String} {names : List String} {j : Json}
    (leads : d.Leads (Disk.isRooted directory) [] (Disk.steps directory))
    (lists : d.Lists directory names) (step : Disk.IsStep name)
    (added : Lines.append d (Disk.join directory name) j = .ok d') :
    d'.Leads (Disk.isRooted directory) [] (Disk.steps directory) ∧
      d'.Lists directory (name :: names) := by
  obtain ⟨f, wrote⟩ := Lines.append_write added
  obtain ⟨_, _, _, _, place, _, short, _⟩ := Disk.write_eq_ok.mp wrote
  rw [Disk.place?_join directory step] at place
  obtain ⟨rfl, rfl⟩ := Prod.mk.inj (Option.some.inj place)
  obtain ⟨d'', again, listed⟩ := lists.write step short f
  obtain rfl := Except.ok.inj (wrote.symm.trans again)
  refine ⟨fun front back same some => ?_, listed⟩
  rw [Disk.isDirectory_write wrote]
  exact leads front back same some

theorem append_lists {d : Disk} {directory name : String} {names : List String}
    (leads : d.Leads (Disk.isRooted directory) [] (Disk.steps directory))
    (lists : d.Lists directory names) (step : Disk.IsStep name)
    (short : name.utf8ByteSize ≤ Disk.nameLimit) (j : Json) :
    ∃ d', Lines.append d (Disk.join directory name) j = .ok d' ∧
      d'.Leads (Disk.isRooted directory) [] (Disk.steps directory) ∧
      d'.Lists directory (name :: names) := by
  have ⟨f, asWrite⟩ : ∃ f, d.append (Disk.join directory name) (Lines.line j) =
      d.write (Disk.join directory name) f := by
    unfold Disk.append
    split <;> exact ⟨_, rfl⟩
  obtain ⟨d', wrote, _⟩ := lists.write step short f
  have added : Lines.append d (Disk.join directory name) j = .ok d' := by
    unfold Lines.append
    rw [asWrite, wrote]
  exact ⟨d', added, lists_append leads lists step added⟩

theorem open_again {d : Disk} {directory : String}
    (leads : d.Leads (Disk.isRooted directory) [] (Disk.steps directory)) :
    Folder.open d directory = .ok d := by
  have again : d.createAll directory = .ok d := Disk.createAll_of_leads leads
  unfold Folder.open
  rw [again]

theorem stems_nodup (k : RecordKind) {names : List String} (distinct : names.Nodup) :
    (names.filterMap (stem? k)).Nodup := by
  refine distinct.filterMap fun a b stem found found' => ?_
  rw [Option.mem_def, stem?_eq_some] at found found'
  rw [found, found']

/-- The sessions of the states are read off the names of their files. -/
theorem sessions_of_lists {d : Disk} {directory : String} {l : Ledger}
    (lists : d.Lists directory (fileNames l)) : Folder.sessions d directory = .ok l.sessions := by
  unfold Folder.sessions Folder.names Ledger.sessions
  rw [lists.names_eq]
  refine congrArg Except.ok
    (Table.increasing_unique ?_ (Table.distinct_increasing _) fun session => ?_)
  · have distinct := stems_nodup .state (Table.distinct_nodup (fileNames l))
    have sorted : (((Table.distinct (fileNames l)).filterMap (stem? .state)).mergeSort
        (· ≤ ·)).Pairwise fun a b => decide (a ≤ b) = true :=
      List.pairwise_mergeSort (by simpa using fun a b c => String.le_trans)
        (by simpa using String.le_total) _
    exact (sorted.and ((List.mergeSort_perm _ _).nodup_iff.mpr distinct)).imp
      fun ⟨le, ne⟩ => lt_of_le_of_ne (of_decide_eq_true le) ne
  · rw [(List.mergeSort_perm _ _).mem_iff, List.mem_filterMap, Table.mem_distinct, List.mem_map]
    constructor
    · rintro ⟨name, listed, stem⟩
      rw [stem?_eq_some] at stem
      rw [Table.mem_distinct, stem] at listed
      exact mem_fileNames.mp listed
    · intro member
      exact ⟨session ++ RecordKind.state.suffix, Table.mem_distinct.mpr (mem_fileNames.mpr member),
        stem?_eq_some.mpr rfl⟩

namespace Mirrors

variable {d : Disk} {directory : String} {l : Ledger} {rec : Record}

theorem blank {before : Disk} (opened : Folder.open before directory = .ok d)
    (vacant : d.names directory = .ok []) : Mirrors d directory .empty := by
  have made : before.createAll directory = .ok d := by
    unfold Folder.open at opened
    split at opened
    · rename_i eq
      rw [eq]
      simpa using opened
    · cases opened
  have lists := Disk.Lists.of_names_nil vacant
  have absent {name : String} (step : Disk.IsStep name) :
      d.exists (Disk.join directory name) = false := by
    have none : (d.file? (Disk.join directory name)).isSome = false :=
      Bool.eq_false_iff.mpr fun there => List.not_mem_nil ((lists.file?_isSome step).mp there)
    rw [Disk.exists, lists.free step, none]
    rfl
  refine ⟨(Disk.createAll_leads (Disk.steps_normal directory) made).2, lists, ?_, ?_⟩
  · intro session valid
    exact ⟨valid, rfl, fun k => .inl ⟨absent (isStep valid k), by cases k <;> rfl⟩⟩
  · intro k a member
    cases k <;> cases member

variable (mirrors : Mirrors d directory l)
include mirrors

theorem reopened : Folder.open d directory = .ok d := open_again mirrors.leads

theorem read {session : String} (valid : isValid session = true) (k : RecordKind) :
    Folder.read d directory k session = .ok ((l.only session).of k) :=
  (mirrors.keeps session valid).read fun a member => by
    rw [Ledger.of_only] at member
    exact (mirrors.legible k a (List.mem_of_mem_filter member)).2

theorem add_eq (valid : isValid rec.session = true) :
    Folder.add d directory rec =
      if l.holds rec.kind rec.key then .error (rec.kind.duplicate rec.key)
      else Lines.append d (fileOf directory rec.kind rec.session) rec.toJson := by
  rw [Folder.add_eq, mirrors.read valid]
  change (if (l.only rec.key.session).holds rec.kind rec.key then _ else _) = _
  rw [Ledger.holds_only]

/-- A new record is added to the file of its session. -/
theorem add (valid : isValid rec.session = true)
    (short : (rec.session ++ rec.kind.suffix).utf8ByteSize ≤ Disk.nameLimit)
    (legible : rec.kind.Legible rec.content) (new : l.holds rec.kind rec.key = false) :
    ∃ d', Folder.add d directory rec = .ok d' ∧ Mirrors d' directory (l.plus rec) := by
  obtain ⟨d', added, leads, lists⟩ := append_lists mirrors.leads mirrors.lists
    (isStep valid rec.kind) short rec.toJson
  have created : Folder.add d directory rec = .ok d' := by
    rw [mirrors.add_eq valid, new]
    exact added
  refine ⟨d', created, leads, lists.of_mem_iff ?_, fun session other => ?_, fun k a member => ?_⟩
  · intro name
    rw [mem_fileNames_plus, List.mem_cons]
  · have before := mirrors.keeps session other
    by_cases own : rec.session = session
    · rw [Ledger.only_plus own]
      exact before.append own (own ▸ added)
    · rw [Ledger.only_plus_other own]
      exact before.append_other own valid added
  · by_cases same : k = rec.kind
    · subst same
      rw [Ledger.of_plus] at member
      rcases List.mem_append.mp member with old | last
      · exact mirrors.legible _ a old
      · rw [List.mem_singleton.mp last]
        exact ⟨valid, legible⟩
    · rw [Ledger.of_plus_other same] at member
      exact mirrors.legible k a member

theorem state?_eq {key : StateKey} (valid : isValid key.session = true) :
    Folder.state? d directory key = .ok (l.state? key) := by
  unfold Folder.state?
  rw [mirrors.read valid, ← Ledger.find?_only]
  rfl

theorem statesOf_eq {session : String} (valid : isValid session = true) :
    Folder.statesOf d directory session = .ok (l.statesOf session) := by
  unfold Folder.statesOf
  rw [mirrors.read valid]
  rfl

theorem sessions_eq : Folder.sessions d directory = .ok l.sessions :=
  sessions_of_lists mirrors.lists

/-- The files of logs together hold all logs, in some order. -/
theorem allLogs_perm : ∃ logs, Folder.allLogs d directory = .ok logs ∧ logs.Perm l.logs := by
  let files := (Table.distinct (fileNames l)).filter fun name => (stem? .log name).isSome
  let inFile (name : String) : List DecisionLog :=
    l.logs.filter (·.session ++ RecordKind.log.suffix = name)
  have read : ∀ name ∈ files, Lines.read DecisionLog.ofJson? d (Disk.join directory name) =
      .ok (inFile name) := by
    intro name member
    obtain ⟨listed, ends⟩ := List.mem_filter.mp member
    obtain ⟨stem, found⟩ := Option.isSome_iff_exists.mp ends
    obtain rfl := stem?_eq_some.mp found
    obtain ⟨log, inside, rfl⟩ := mem_fileNames.mp (Table.mem_distinct.mp listed)
    have valid := (mirrors.legible .log log inside).1
    have own := mirrors.read valid .log
    unfold Folder.read path at own
    rw [if_pos valid] at own
    have same : inFile ((RecordKind.log.key log).session ++ RecordKind.log.suffix) =
        (l.only (RecordKind.log.key log).session).logs := by
      refine List.filter_congr fun other _ => ?_
      exact decide_eq_decide.mpr ⟨fun eq => (name_inj eq).1, fun eq => by rw [eq]⟩
    rw [same]
    exact own
  refine ⟨files.flatMap inFile, ?_, ?_⟩
  · unfold Folder.allLogs Folder.names
    rw [mirrors.lists.names_eq]
    change (files.mapM fun name => Lines.read DecisionLog.ofJson? d (Disk.join directory name)) >>=
      (fun logs => pure logs.flatten) = Except.ok (files.flatMap inFile)
    have all := mapM_eq_ok.mpr (List.forall₂_map_right_iff.mpr (List.forall₂_same.mpr read))
    rw [all]
    rfl
  · refine flatMap_groups_perm (fun log : DecisionLog => log.session ++ RecordKind.log.suffix)
      ((Table.distinct_nodup _).filter _) ?_
    intro log inside
    refine List.mem_filter.mpr ⟨Table.mem_distinct.mpr (mem_fileNames.mpr ⟨log, inside, rfl⟩), ?_⟩
    rw [stem?_eq_some.mpr rfl]
    rfl

/-- A query is answered alike from the files and from the logs in the order of their keys. -/
theorem query_alike {f : DecisionFilter}
    (valid : ∀ session, f.session = some session → isValid session = true) :
    ∃ answer, Folder.query d directory f = .ok answer ∧
      f.Alike (l.logs.filter f.matches) (f.apply l.logsInOrder) answer := by
  have byKey : l.logs.Perm l.logsInOrder := (List.mergeSort_perm _ _).symm
  have found : ∃ logs, Folder.query d directory f = .ok (f.apply logs) ∧
      (l.logs.filter f.matches).Perm (logs.filter f.matches) := by
    unfold Folder.query
    cases named : f.session with
    | none =>
      obtain ⟨logs, read, perm⟩ := mirrors.allLogs_perm
      refine ⟨logs, ?_, (perm.filter _).symm⟩
      dsimp only
      rw [read]
      rfl
    | some session =>
      refine ⟨(l.only session).logs, ?_, ?_⟩
      · dsimp only
        rw [mirrors.read (valid session named)]
        rfl
      · rw [Ledger.only, List.filter_filter]
        refine List.Perm.of_eq (List.filter_congr fun log _ => ?_)
        by_cases own : log.session = session
        · simp [own]
        · simp [own, DecisionFilter.matches, named]
  obtain ⟨logs, answered, perm⟩ := found
  exact ⟨_, answered, (DecisionFilter.alike (byKey.filter _) f).both (DecisionFilter.alike perm f)⟩

end Mirrors
end Folder

inductive StoreRequest where
  | add (rec : Record)
  | readState (key : StateKey)
  | readSession (session : String)
  | queryLogs (f : DecisionFilter)
  | listSessions
  /-- the store is opened again where it is -/
  | reopen

inductive StoreReply where
  | done
  | state (found : Option State)
  | states (found : List State)
  | logs (found : List DecisionLog)
  | sessions (found : List String)
  | refused (f : Fault)

namespace Storage

def settled (st : Storage) : Except Fault Storage → StoreReply × Storage
  | .ok st' => (.done, st')
  | .error f => (.refused f, st)

def answered {α : Type} (st : Storage) (reply : α → StoreReply) :
    Except Fault α → StoreReply × Storage
  | .ok a => (reply a, st)
  | .error f => (.refused f, st)

def serve (b : Backend) (st : Storage) : StoreRequest → StoreReply × Storage
  | .add rec => st.settled (st.add b rec)
  | .reopen => st.settled (st.open b)
  | .readState key => st.answered .state (st.state? b key)
  | .readSession session => st.answered .states (st.statesOf b session)
  | .queryLogs f => st.answered .logs (st.query b f)
  | .listSessions => st.answered .sessions (st.sessions b)

def served (b : Backend) (st : Storage) (requests : List StoreRequest) : Storage :=
  requests.foldl (fun st q => (st.serve b q).2) st

end Storage

namespace StoreRequest

/-- A request that a store in a directory can serve: its session ids are valid, the files it
writes to have names that are not too long, and what it writes can be read back. -/
def Proper (directory : String) : StoreRequest → Prop
  | add rec => Folder.isValid rec.session = true ∧
    (rec.session ++ rec.kind.suffix).utf8ByteSize ≤ Disk.nameLimit ∧
    (Backend.folder directory).ReadsBack rec
  | readState key => Folder.isValid key.session = true
  | readSession session => Folder.isValid session = true
  | queryLogs f => ∀ session, f.session = some session → Folder.isValid session = true
  | listSessions | reopen => True

inductive Agree (logs : List DecisionLog) : StoreRequest → StoreReply → StoreReply → Prop
  | same (q : StoreRequest) (reply : StoreReply) : Agree logs q reply reply
  | alike {f : DecisionFilter} {a b : List DecisionLog}
    (answers : f.Alike (logs.filter f.matches) a b) :
    Agree logs (queryLogs f) (.logs a) (.logs b)

end StoreRequest

namespace Storage

variable {directory : String} {m s : Storage}

/-- A request is served alike by a directory and by the memory whose records it holds, and
leaves it to hold what the memory does. -/
theorem serve_agrees (mirrors : Folder.Mirrors s.disk directory m.memory) {q : StoreRequest}
    (proper : q.Proper directory) :
    q.Agree m.memory.logs (m.serve .memory q).1 (s.serve (.folder directory) q).1 ∧
      Folder.Mirrors (s.serve (.folder directory) q).2.disk directory
        (m.serve .memory q).2.memory := by
  cases q with
  | add rec =>
    obtain ⟨valid, short, back⟩ := proper
    by_cases held : m.memory.holds rec.kind rec.key = true
    · have refused : Folder.add s.disk directory rec = .error (rec.kind.duplicate rec.key) := by
        rw [mirrors.add_eq valid, if_pos held]
      have inMemory : m.serve .memory (.add rec) = (.refused (rec.kind.duplicate rec.key), m) := by
        simp [serve, Storage.add, Ledger.add, held, Except.map, settled]
      have inFolder : s.serve (.folder directory) (.add rec) =
          (.refused (rec.kind.duplicate rec.key), s) := by
        simp [serve, Storage.add, refused, Except.map, settled]
      rw [inMemory, inFolder]
      exact ⟨.same _ _, mirrors⟩
    · obtain ⟨d', created, after⟩ := mirrors.add valid short back (by simpa using held)
      have inMemory : m.serve .memory (.add rec) =
          (.done, { m with memory := m.memory.plus rec }) := by
        simp [serve, Storage.add, Ledger.add, held, Except.map, settled]
      have inFolder : s.serve (.folder directory) (.add rec) = (.done, s.withDisk d') := by
        simp [serve, Storage.add, created, Except.map, settled]
      rw [inMemory, inFolder]
      exact ⟨.same _ _, after⟩
  | readState key =>
    have inFolder : s.serve (.folder directory) (.readState key) =
        (.state (m.memory.state? key), s) := by
      change s.answered .state (Folder.state? s.disk directory key) = _
      rw [mirrors.state?_eq proper]
      rfl
    rw [inFolder]
    exact ⟨.same _ _, mirrors⟩
  | readSession session =>
    have inFolder : s.serve (.folder directory) (.readSession session) =
        (.states (m.memory.statesOf session), s) := by
      change s.answered .states (Folder.statesOf s.disk directory session) = _
      rw [mirrors.statesOf_eq proper]
      rfl
    rw [inFolder]
    exact ⟨.same _ _, mirrors⟩
  | queryLogs f =>
    obtain ⟨answer, found, alike⟩ := mirrors.query_alike proper
    have inFolder : s.serve (.folder directory) (.queryLogs f) = (.logs answer, s) := by
      change s.answered .logs (Folder.query s.disk directory f) = _
      rw [found]
      rfl
    rw [inFolder]
    exact ⟨.alike alike, mirrors⟩
  | listSessions =>
    have inFolder : s.serve (.folder directory) .listSessions = (.sessions m.memory.sessions, s) := by
      change s.answered .sessions (Folder.sessions s.disk directory) = _
      rw [mirrors.sessions_eq]
      rfl
    rw [inFolder]
    exact ⟨.same _ _, mirrors⟩
  | reopen =>
    have inFolder : s.serve (.folder directory) .reopen = (.done, s) := by
      change s.settled ((Folder.open s.disk directory).map s.withDisk) = _
      rw [mirrors.reopened]
      rfl
    rw [inFolder]
    exact ⟨.same _ _, mirrors⟩

theorem served_mirrors (mirrors : Folder.Mirrors s.disk directory m.memory)
    {requests : List StoreRequest} (proper : ∀ q ∈ requests, q.Proper directory) :
    Folder.Mirrors (s.served (.folder directory) requests).disk directory
      (m.served .memory requests).memory := by
  induction requests generalizing m s with
  | nil => exact mirrors
  | cons q rest ih =>
    exact ih (serve_agrees mirrors (proper q List.mem_cons_self)).2
      fun p member => proper p (List.mem_cons_of_mem _ member)

/-- Started on a directory that holds nothing, a store in it replies to whatever is asked of it
as the memory replies that began empty. -/
theorem folder_refines_memory {before : Disk}
    (opened : Folder.open before directory = .ok s.disk)
    (vacant : s.disk.names directory = .ok []) (blank : m.memory = .empty)
    {requests : List StoreRequest} (proper : ∀ q ∈ requests, q.Proper directory)
    {next : StoreRequest} (last : next.Proper directory) :
    let m' := m.served .memory requests
    let s' := s.served (.folder directory) requests
    next.Agree m'.memory.logs (m'.serve .memory next).1 (s'.serve (.folder directory) next).1 := by
  intro m' s'
  have first : Folder.Mirrors s.disk directory m.memory := blank ▸ .blank opened vacant
  exact (serve_agrees (served_mirrors first proper) last).1

def logOf (phase : Phase) : DecisionLog :=
  ⟨"s", 0, phase, [], none, .of .retry none, .partial, ⟨0, 0⟩, none, []⟩

def vacantStore : Storage := { Storage.empty with disk := [("", []), ("/", []), ("store", [])] }

theorem vacantStore_opened : Folder.open .empty "store" = .ok vacantStore.disk := rfl

theorem vacantStore_vacant : vacantStore.disk.names "store" = .ok [] := rfl

set_option maxRecDepth 4000 in
theorem logOf_proper {phase : Phase} (one : phase ∈ [Phase.decision, .planning]) :
    (StoreRequest.add (.log (logOf phase))).Proper "store" := by
  have read {j : Json} (parsed : Json.readChars? j.chars = some j) {log : DecisionLog}
      (decoded : DecisionLog.ofJson? j = some log) :
      (Json.readChars? j.chars).bind DecisionLog.ofJson? = some log := by
    rw [parsed, Option.bind_some, decoded]
  obtain rfl | rfl : phase = .decision ∨ phase = .planning := by simpa using one
  · exact ⟨by decide, by decide, read (j := (logOf .decision).toJson) rfl rfl⟩
  · exact ⟨by decide, by decide, read (j := (logOf .planning).toJson) rfl rfl⟩

theorem folder_refines_memory_logged :
    (StoreRequest.add (.log (logOf .planning))).Proper "store" ∧
      (StoreRequest.queryLogs .any).Agree
        (Storage.empty.served .memory [.add (.log (logOf .planning))]).memory.logs
        ((Storage.empty.served .memory [.add (.log (logOf .planning))]).serve .memory
          (.queryLogs .any)).1
        ((vacantStore.served (.folder "store") [.add (.log (logOf .planning))]).serve
          (.folder "store") (.queryLogs .any)).1 := by
  have write := logOf_proper (by decide : Phase.planning ∈ [Phase.decision, .planning])
  have proper : ∀ q ∈ [StoreRequest.add (.log (logOf .planning))], q.Proper "store" := by
    simpa using write
  have blank : Storage.empty.memory = .empty := rfl
  have last : (StoreRequest.queryLogs .any).Proper "store" := by
    intro session named
    cases named
  exact ⟨write, folder_refines_memory vacantStore_opened vacantStore_vacant blank proper last⟩

/-- Where the limit parts logs that share time and iteration, the files answer with the one that
came first, the memory with the one whose key does. -/
theorem limited_answers_differ :
    let both : List StoreRequest := [.add (.log (logOf .decision)), .add (.log (logOf .planning))]
    let one : StoreRequest := .queryLogs { DecisionFilter.ofSession "s" with limit := some 1 }
    ((Storage.empty.served .memory both).serve .memory one).1 = .logs [logOf .planning] ∧
      ((vacantStore.served (.folder "store") both).serve (.folder "store") one).1 =
        .logs [logOf .decision] := by
  intro both one
  have stored : (Storage.empty.served .memory both).memory =
      ⟨[], [logOf .decision, logOf .planning]⟩ := rfl
  constructor
  · have byKey : Ledger.logsInOrder ⟨[], [logOf .decision, logOf .planning]⟩ =
        [logOf .planning, logOf .decision] := by
      unfold Ledger.logsInOrder
      rw [DecisionFilter.mergeSort_pair, if_neg (by decide +kernel)]
    have first := DecisionFilter.apply_one (a := logOf .planning) (b := logOf .decision) rfl rfl
    unfold serve query
    rw [stored, byKey]
    exact congrArg StoreReply.logs first
  · have proper : ∀ q ∈ both, q.Proper "store" := by
      simpa [both] using ⟨logOf_proper (by decide), logOf_proper (by decide)⟩
    have blank : Storage.empty.memory = .empty := rfl
    have start : Folder.Mirrors vacantStore.disk "store" Storage.empty.memory :=
      blank ▸ .blank vacantStore_opened vacantStore_vacant
    have read := (served_mirrors start proper).read (by decide : Folder.isValid "s" = true) .log
    rw [stored] at read
    have both_read : Folder.read (vacantStore.served (.folder "store") both).disk "store" .log "s" =
        .ok [logOf .decision, logOf .planning] := read
    have first := DecisionFilter.apply_one (a := logOf .decision) (b := logOf .planning) rfl rfl
    have answer : Folder.query (vacantStore.served (.folder "store") both).disk "store"
        { DecisionFilter.ofSession "s" with limit := some 1 } = .ok [logOf .decision] := by
      rw [← first]
      unfold Folder.query
      change Folder.read _ _ .log "s" >>= (fun logs => pure (DecisionFilter.apply _ logs)) = _
      rw [both_read]
      rfl
    unfold serve query
    dsimp only [one]
    rw [answer]
    rfl

end Storage
end Orchestration

import Orchestration.Proofs.Happenings
import Orchestration.Proofs.Separation

/-! Session ids as names of files. An id is refused before anything is looked at, or its two files
lie in the directory itself, where no other id or kind of record has them; and the ids of the
sessions with a state are read off the names of the files that are there. -/
namespace Orchestration

structure Disk.IsChild (directory path name : String) : Prop where
  rooted : isRooted path = isRooted directory
  steps : steps path = steps directory ++ [name]
  ordinary : IsStep name
  visible : name.toList.head? ≠ some '.'

namespace Folder

structure Plain (session : String) : Prop where
  nonempty : session ≠ ""
  visible : session.toList.head? ≠ some '.'
  alphabet : ∀ c ∈ session.toList, c.isAlphanum = true ∨ c = '-' ∨ c = '_' ∨ c = '.'

theorem isValid_iff_plain {session : String} : isValid session = true ↔ Plain session := by
  have chars (c : Char) : isIdChar c = true ↔
      (c.isAlphanum = true ∨ c = '-' ∨ c = '_' ∨ c = '.') := by simp [isIdChar, or_assoc]
  unfold isValid
  simp only [Bool.and_eq_true, List.all_eq_true, chars, Bool.not_eq_true',
    String.isEmpty_eq_false_iff, bne_iff_ne]
  exact ⟨fun ⟨⟨nonempty, visible⟩, alphabet⟩ => ⟨nonempty, visible, alphabet⟩,
    fun plain => ⟨⟨plain.nonempty, plain.visible⟩, plain.alphabet⟩⟩

theorem path_eq_ok {directory session path : String} {k : RecordKind} :
    Folder.path directory k session = .ok path ↔
      isValid session = true ∧ path = fileOf directory k session := by
  unfold Folder.path
  cases isValid session <;> simp [fileOf, eq_comm]

theorem head_of_valid {session : String} (valid : isValid session = true) (suffix : String) :
    (session ++ suffix).toList.head? ≠ some '.' := by
  have plain := isValid_iff_plain.mp valid
  have nonempty := mt String.toList_eq_nil_iff.mp plain.nonempty
  obtain ⟨c, rest, chars⟩ := List.exists_cons_of_ne_nil nonempty
  rw [String.toList_append, chars, List.cons_append, List.head?_cons]
  simpa [chars] using plain.visible

theorem path_isChild (directory : String) (k : RecordKind) {session : String}
    (valid : isValid session = true) :
    ∃ path, Folder.path directory k session = .ok path ∧
      Disk.IsChild directory path (session ++ k.suffix) := by
  have step := isStep valid k
  refine ⟨_, path_eq_ok.mpr ⟨valid, rfl⟩, ?_⟩
  exact ⟨Disk.isRooted_join directory step, Disk.steps_join directory step, step,
    head_of_valid valid k.suffix⟩

/-- Files of one place belong to one session and are of one kind. -/
theorem path_injective {directory session session' path path' : String} {k k' : RecordKind}
    (first : Folder.path directory k session = .ok path)
    (second : Folder.path directory k' session' = .ok path')
    (same : Disk.place? path = Disk.place? path') : session = session' ∧ k = k' := by
  obtain ⟨valid, rfl⟩ := path_eq_ok.mp first
  obtain ⟨valid', rfl⟩ := path_eq_ok.mp second
  by_contra apart
  exact places_ne valid valid' directory apart same

theorem stem?_suffix (k k' : RecordKind) (session : String) :
    stem? k (session ++ k'.suffix) = if k' = k then some session else none := by
  by_cases same : k' = k
  · rw [if_pos same, same]
    exact stem?_eq_some.mpr rfl
  · rw [if_neg same]
    refine Option.eq_none_iff_forall_ne_some.mpr fun stem found => ?_
    exact same (name_inj (stem?_eq_some.mp found)).2

end Folder

def StoreRequest.session? : StoreRequest → Option String
  | add rec => some rec.session
  | readState key => some key.session
  | readSession session => some session
  | queryLogs f => f.session
  | listSessions | reopen => none

namespace Storage

theorem serve_invalid {directory session : String} (invalid : Folder.isValid session = false)
    {q : StoreRequest} (about : q.session? = some session) (st : Storage) :
    st.serve (.folder directory) q =
      (.refused (.invalidSession (Text.quoted session)), st) := by
  have unread (k : RecordKind) : Folder.read st.disk directory k session =
      .error (.invalidSession (Text.quoted session)) := by simp [Folder.read_eq, invalid]
  cases q with
  | add rec =>
    obtain rfl := Option.some.inj about
    simp [serve, add, Folder.add_eq, unread, Except.bind, Except.map, settled]
  | readState key =>
    obtain rfl := Option.some.inj about
    simp [serve, state?, Folder.state?, unread, bind, Except.bind, answered]
  | readSession other =>
    obtain rfl := Option.some.inj about
    simp [serve, statesOf, Folder.statesOf, unread, bind, Except.bind, answered]
  | queryLogs f =>
    have named : f.session = some session := about
    simp [serve, query, Folder.query, named, unread, bind, Except.bind, answered]
  | listSessions | reopen => cases about

end Storage

namespace Folder

structure Shelves (d : Disk) (directory : String) (l : Ledger) : Prop where
  leads : d.Leads (Disk.isRooted directory) [] (Disk.steps directory)
  lists : d.Lists directory (fileNames l)

namespace Shelves

variable {d d' : Disk} {directory : String} {l : Ledger}

theorem append (shelves : Shelves d directory l) {rec : Record}
    (valid : isValid rec.session = true)
    (added : Lines.append d (fileOf directory rec.kind rec.session) rec.toJson = .ok d') :
    Shelves d' directory (l.plus rec) := by
  obtain ⟨leads, lists⟩ :=
    lists_append shelves.leads shelves.lists (isStep valid rec.kind) added
  refine ⟨leads, lists.of_mem_iff fun name => ?_⟩
  rw [mem_fileNames_plus, List.mem_cons]

end Shelves
end Folder

namespace Storage

variable {directory : String} {st : Storage} {l : Ledger}

def Creates (b : Backend) (st : Storage) (requests : List StoreRequest) (a : State) : Prop :=
  ∃ before after, requests = before ++ .add (.state a) :: after ∧
    ((st.served b before).serve b (.add (.state a))).1 = .done

theorem served_concat (b : Backend) (st : Storage) (requests : List StoreRequest)
    (q : StoreRequest) : st.served b (requests ++ [q]) = ((st.served b requests).serve b q).2 :=
  List.foldl_append

theorem creates_concat {b : Backend} {requests : List StoreRequest} {q : StoreRequest} {a : State} :
    st.Creates b (requests ++ [q]) a ↔ st.Creates b requests a ∨
      q = .add (.state a) ∧ ((st.served b requests).serve b q).1 = .done := by
  constructor
  · rintro ⟨before, after, split, done⟩
    rcases split_concat.mp split with ⟨rest, rfl, _⟩ | ⟨rfl, rfl, _⟩
    · exact .inl ⟨before, rest, rfl, done⟩
    · exact .inr ⟨rfl, done⟩
  · rintro (⟨before, after, rfl, done⟩ | ⟨rfl, done⟩)
    · exact ⟨before, after ++ [q], by simp, done⟩
    · exact ⟨requests, [], rfl, done⟩

/-- A record is added to what a directory holds, or refused. -/
theorem serve_record (shelves : Folder.Shelves st.disk directory l) (rec : Record) :
    (∃ f, st.serve (.folder directory) (.add rec) = (.refused f, st)) ∨
    ∃ d', st.serve (.folder directory) (.add rec) = (.done, st.withDisk d') ∧
      Folder.Shelves d' directory (l.plus rec) := by
  change (∃ f, st.settled ((Folder.add st.disk directory rec).map st.withDisk) = _) ∨
    ∃ d', st.settled ((Folder.add st.disk directory rec).map st.withDisk) = _ ∧ _
  cases result : Folder.add st.disk directory rec with
  | error f => exact .inl ⟨f, rfl⟩
  | ok d' =>
    obtain ⟨valid, added⟩ := Folder.add_ok result
    exact .inr ⟨d', rfl, shelves.append valid added⟩

theorem answered_storage {α : Type} (st : Storage) (reply : α → StoreReply)
    (answer : Except Fault α) : (st.answered reply answer).2 = st := by
  cases answer <;> rfl

/-- Only a request to write changes anything. -/
theorem serve_storage (leads : st.disk.Leads (Disk.isRooted directory) [] (Disk.steps directory))
    {q : StoreRequest} (reads : ∀ rec, q ≠ .add rec) :
    (st.serve (.folder directory) q).2 = st := by
  cases q with
  | add rec => exact absurd rfl (reads rec)
  | reopen =>
    rw [serve, Storage.open, Folder.open_again leads]
    rfl
  | readState | readSession | queryLogs | listSessions =>
    rw [serve]
    exact st.answered_storage _ _

/-- After each request a directory holds what it held, and the file of the record that was
created. -/
theorem serve_shelves (shelves : Folder.Shelves st.disk directory l) (q : StoreRequest) :
    ∃ l', Folder.Shelves (st.serve (.folder directory) q).2.disk directory l' ∧
      ∀ a, a ∈ l'.states ↔ a ∈ l.states ∨
        q = .add (.state a) ∧ (st.serve (.folder directory) q).1 = .done := by
  by_cases writes : ∃ rec, q = .add rec
  · obtain ⟨rec, rfl⟩ := writes
    rcases serve_record shelves rec with ⟨f, refused⟩ | ⟨d', done, after⟩
    · rw [refused]
      exact ⟨l, shelves, fun a => by simp⟩
    · rw [done]
      refine ⟨_, after, fun a => ?_⟩
      cases rec with
      | state b => simp [Ledger.plus, eq_comm]
      | log log => simp [Ledger.plus]
  · have reads (rec : Record) : q ≠ .add rec := fun same => writes ⟨rec, same⟩
    refine ⟨l, by rwa [serve_storage shelves.leads reads], fun a => ?_⟩
    simp [reads (.state a)]

theorem served_shelves (shelves : Folder.Shelves st.disk directory .empty)
    (requests : List StoreRequest) :
    ∃ l, Folder.Shelves (st.served (.folder directory) requests).disk directory l ∧
      ∀ a, a ∈ l.states ↔ st.Creates (.folder directory) requests a := by
  induction requests using List.reverseRecOn with
  | nil => exact ⟨.empty, shelves, fun a => by simp [Ledger.empty, Creates]⟩
  | append_singleton requests q ih =>
    obtain ⟨l, before, created⟩ := ih
    obtain ⟨l', after, added⟩ := serve_shelves before q
    refine ⟨l', by rwa [served_concat], fun a => ?_⟩
    rw [added, created, creates_concat]

/-- For every directory: a session id that is not plain is refused with everything left as it was,
and the files of a plain one are visible things in the directory itself; files of one place are
those of one id and of one kind, and a name gives back the id that it was made from; and whatever a
store that began with a directory that holds nothing was asked, the sessions listed are those of
which a state was created, in order, each for one of the files there. -/
theorem ids_name_files {before : Disk} (opened : Folder.open before directory = .ok st.disk)
    (vacant : st.disk.names directory = .ok []) (requests : List StoreRequest) :
    (∀ session, ¬Folder.Plain session →
      ∀ q : StoreRequest, q.session? = some session → ∀ other : Storage,
        other.serve (.folder directory) q =
          (.refused (.invalidSession (Text.quoted session)), other)) ∧
    (∀ session, Folder.Plain session → ∀ k : RecordKind,
      ∃ path, Folder.path directory k session = .ok path ∧
        Disk.IsChild directory path (session ++ k.suffix)) ∧
    (∀ (k k' : RecordKind) session session' path path',
      Folder.path directory k session = .ok path → Folder.path directory k' session' = .ok path' →
      Disk.place? path = Disk.place? path' → session = session' ∧ k = k') ∧
    (∀ (k : RecordKind) session, Folder.stem? .state (session ++ k.suffix) =
      if k = .state then some session else none) ∧
    let now := st.served (.folder directory) requests
    ∃ ids names, now.serve (.folder directory) .listSessions = (.sessions ids, now) ∧
      ids.Pairwise (· < ·) ∧ now.disk.names directory = .ok names ∧
      ids.Perm (names.filterMap (Folder.stem? .state)) ∧
      ∀ id, id ∈ ids ↔ ∃ a, st.Creates (.folder directory) requests a ∧ a.session = id := by
  refine ⟨fun session odd q about other => ?_, fun session plain k => ?_,
    fun _ _ _ _ _ _ => Folder.path_injective, Folder.stem?_suffix .state, ?_⟩
  · have invalid : Folder.isValid session = false :=
      Bool.eq_false_of_not_eq_true (mt Folder.isValid_iff_plain.mp odd)
    exact serve_invalid invalid about other
  · exact Folder.path_isChild directory k (Folder.isValid_iff_plain.mpr plain)
  · intro now
    have mirrors := Folder.Mirrors.blank opened vacant
    obtain ⟨l, shelves, created⟩ := served_shelves ⟨mirrors.leads, mirrors.lists⟩ requests
    have listed : now.serve (.folder directory) .listSessions = (.sessions l.sessions, now) := by
      change now.answered .sessions (Folder.sessions now.disk directory) = _
      rw [Folder.sessions_of_lists shelves.lists]
      rfl
    have names := shelves.lists.names_eq
    refine ⟨_, _, listed, Table.distinct_increasing _, names, ?_, fun id => ?_⟩
    · have stems : Folder.sessions now.disk directory = .ok
          (((Table.distinct (Folder.fileNames l)).filterMap (Folder.stem? .state)).mergeSort
            (· ≤ ·)) := by
        unfold Folder.sessions Folder.names
        rw [names]
        rfl
      rw [Folder.sessions_of_lists shelves.lists] at stems
      rw [Except.ok.inj stems]
      exact List.mergeSort_perm _ _
    · unfold Ledger.sessions
      simp only [Table.mem_distinct, List.mem_map, created]

/-- An id may end as the names of files do; only the session with a state is listed, under its own
id. -/
theorem suffixed_id_listed :
    let begun : State := .blank "a.states.jsonl" 0 .awareness ⟨0, 0⟩
    let requests : List StoreRequest := [.add (.state begun), .add (.log (logOf .decision))]
    Folder.open .empty "store" = .ok vacantStore.disk ∧ vacantStore.disk.names "store" = .ok [] ∧
      ∃ ids, (vacantStore.served (.folder "store") requests).serve (.folder "store") .listSessions =
          (.sessions ids, vacantStore.served (.folder "store") requests) ∧
        ∀ id, id ∈ ids ↔ id = "a.states.jsonl" := by
  intro begun requests
  have accepted : (vacantStore.serve (.folder "store") (.add (.state begun))).1 = .done := by
    have mirrors := Folder.Mirrors.blank vacantStore_opened vacantStore_vacant
    have valid : Folder.isValid (Record.state begun).session = true := by decide
    obtain ⟨d', added, _⟩ := Folder.append_lists mirrors.leads mirrors.lists
      (Folder.isStep valid .state) (by decide) begun.toJson
    have created : Folder.add vacantStore.disk "store" (.state begun) = .ok d' := by
      rw [mirrors.add_eq valid]
      exact added
    simp [serve, add, created, Except.map, settled]
  have told := ids_name_files vacantStore_opened vacantStore_vacant requests
  obtain ⟨ids, _, listed, _, _, _, sessions⟩ := told.2.2.2.2
  refine ⟨vacantStore_opened, vacantStore_vacant, ids, listed, fun id => ?_⟩
  refine (sessions id).trans ⟨?_, ?_⟩
  · rintro ⟨a, ⟨before, after, split, _⟩, rfl⟩
    have member : StoreRequest.add (.state a) ∈ requests := by
      rw [split]
      exact List.mem_append_right _ List.mem_cons_self
    obtain rfl : a = begun := by simpa [requests] using member
    rfl
  · rintro rfl
    exact ⟨begun, ⟨[], [.add (.log (logOf .decision))], rfl, accepted⟩, rfl⟩

end Storage
end Orchestration

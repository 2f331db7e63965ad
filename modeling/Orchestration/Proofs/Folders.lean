import Orchestration.Proofs.Files
import Orchestration.Proofs.Tables

/-! Directories and what is listed of them. A path has one normal sequence of steps, which is
had again from its spelling; so what lies in a directory can be told from the paths that are
known, opening a directory again changes nothing, and a file that is written shows among the
names of its directory and of no other. -/
namespace Orchestration

namespace Disk

/-- Steps up first, if the path does not begin at the root, and then steps down. -/
def Normal (rooted : Bool) (steps : List String) : Prop :=
  ∃ ups downs, steps = ups ++ downs ∧ (∀ up ∈ ups, up = "..") ∧ (rooted = true → ups = []) ∧
    ∀ down ∈ downs, IsStep down

theorem Normal.nil (rooted : Bool) : Normal rooted [] := ⟨[], [], rfl, by simp, by simp, by simp⟩

theorem IsStep.ne_up {name : String} (step : IsStep name) : name ≠ ".." := by
  intro same
  exact step.down.2.2 (by rw [same]; rfl)

theorem Normal.stepOn {rooted : Bool} {done : List String} (normal : Normal rooted done)
    {step : List Char} (one : '/' ∉ step) : Normal rooted (stepOn rooted done step) := by
  unfold Disk.stepOn
  split
  · exact normal
  · rename_i moves
    obtain ⟨ups, downs, rfl, up, unrooted, down⟩ := normal
    split
    · -- a step up takes the last step down away, or adds to the steps up
      rcases List.eq_nil_or_concat' downs with rfl | ⟨before, last, rfl⟩
      · have onlyUp : (ups ++ []).getLast?.all (· == "..") = true := by
          rw [List.append_nil]
          cases last : ups.getLast? with
          | none => rfl
          | some name => simpa using up name (List.mem_of_getLast? last)
        rw [if_pos onlyUp, List.append_nil]
        split
        · rename_i root
          exact ⟨[], [], unrooted root, by simp, by simp, by simp⟩
        · rename_i root
          refine ⟨ups ++ [".."], [], by simp, ?_, fun yes => absurd yes root, by simp⟩
          simpa [or_imp, forall_and] using up
      · have isDown : (ups ++ (before ++ [last])).getLast?.all (· == "..") ≠ true := by
          rw [← List.append_assoc, List.getLast?_concat]
          simpa using (down last (by simp)).ne_up
        rw [if_neg isDown, ← List.append_assoc, List.dropLast_concat]
        exact ⟨ups, before, rfl, up, unrooted, fun name member => down name (by simp [member])⟩
    · rename_i notUp
      refine ⟨ups, downs ++ [String.ofList step], by simp, up, unrooted, fun name member => ?_⟩
      rcases List.mem_append.mp member with before | here
      · exact down name before
      · rw [List.mem_singleton.mp here]
        obtain ⟨some, notHere⟩ := not_or.mp moves
        exact ⟨by simpa using one, by simpa using ⟨some, notHere, notUp⟩⟩

theorem Normal.foldl {rooted : Bool} {pieces : List (List Char)}
    (free : ∀ piece ∈ pieces, '/' ∉ piece) {done : List String} (normal : Normal rooted done) :
    Normal rooted (pieces.foldl (Disk.stepOn rooted) done) := by
  induction pieces generalizing done with
  | nil => exact normal
  | cons piece rest ih =>
    exact ih (fun p member => free p (List.mem_cons_of_mem _ member))
      (normal.stepOn (free piece List.mem_cons_self))

theorem steps_normal (path : String) : Normal (isRooted path) (steps path) :=
  (Normal.nil _).foldl fun _ member => Text.splitChars_free member

theorem Normal.free {rooted : Bool} {steps : List String} (normal : Normal rooted steps)
    {name : String} (member : name ∈ steps) : '/' ∉ name.toList ∧ name.toList ≠ [] := by
  obtain ⟨ups, downs, rfl, up, _, down⟩ := normal
  rcases List.mem_append.mp member with early | late
  · rw [up name early]
    decide
  · exact ⟨(down name late).one, (down name late).down.1⟩

theorem Normal.prefix {rooted : Bool} {front rest : List String}
    (normal : Normal rooted (front ++ rest)) : Normal rooted front := by
  obtain ⟨ups, downs, same, up, unrooted, down⟩ := normal
  rcases List.append_eq_append_iff.mp same with ⟨more, rfl, rfl⟩ | ⟨more, rfl, rfl⟩
  · refine ⟨front, [], by simp, fun name member => up name (by simp [member]), fun root => ?_,
      by simp⟩
    exact (List.append_eq_nil_iff.mp (unrooted root)).1
  · exact ⟨ups, more, rfl, up, unrooted, fun name member => down name (by simp [member])⟩

theorem Normal.foldl_stepOn {rooted : Bool} {steps : List String} (normal : Normal rooted steps) :
    (steps.map String.toList).foldl (Disk.stepOn rooted) [] = steps := by
  obtain ⟨ups, downs, rfl, up, unrooted, down⟩ := normal
  have climbed (done : List String) (before : ∀ name ∈ done, name = "..")
      (root : ups ≠ [] → rooted = false) :
      (ups.map String.toList).foldl (Disk.stepOn rooted) done = done ++ ups := by
    clear unrooted
    induction ups generalizing done with
    | nil => simp
    | cons first rest ih =>
      have higher : Disk.stepOn rooted done first.toList = done ++ [".."] := by
        have onlyUp : done.getLast?.all (· == "..") = true := by
          cases last : done.getLast? with
          | none => rfl
          | some name => simpa using before name (List.mem_of_getLast? last)
        rw [up first List.mem_cons_self]
        unfold Disk.stepOn
        rw [if_neg (by decide), if_pos (by decide), if_pos onlyUp, root (by simp)]
        rfl
      have onward := ih (fun name member => up name (List.mem_cons_of_mem _ member))
        (done ++ [".."]) (by simpa [or_imp, forall_and] using before) (fun _ => root (by simp))
      rw [List.map_cons, List.foldl_cons, higher, onward, up first List.mem_cons_self]
      simp
  have descended (done : List String) :
      (downs.map String.toList).foldl (Disk.stepOn rooted) done = done ++ downs := by
    clear climbed
    induction downs generalizing done with
    | nil => simp
    | cons first rest ih =>
      rw [List.map_cons, List.foldl_cons, stepOn_down _ _ (down first List.mem_cons_self),
        ih (fun name member => down name (List.mem_cons_of_mem _ member))]
      simp
  have root (some : ups ≠ []) : rooted = false :=
    Bool.eq_false_iff.mpr fun yes => some (unrooted yes)
  rw [List.map_append, List.foldl_append, climbed [] (by simp) root, descended, List.nil_append]

theorem isRooted_keyOf {rooted : Bool} {steps : List String} (normal : Normal rooted steps) :
    isRooted (keyOf rooted steps) = rooted := by
  unfold isRooted keyOf
  cases rooted with
  | true => simp
  | false =>
    cases steps with
    | nil => rfl
    | cons first rest =>
      obtain ⟨free, some⟩ := normal.free List.mem_cons_self
      obtain ⟨c, more, chars⟩ := List.exists_cons_of_ne_nil some
      have other : c ≠ '/' := fun same => free (by simp [chars, same])
      cases rest <;> simp [String.toList_intercalate, chars, other]

/-- The steps of a spelling are those it was spelt from. -/
theorem steps_keyOf {rooted : Bool} {ss : List String} (normal : Normal rooted ss) :
    steps (keyOf rooted ss) = ss := by
  have walk := normal.foldl_stepOn
  have stay (done : List String) : Disk.stepOn rooted done [] = done := by simp [Disk.stepOn]
  unfold steps
  rw [isRooted_keyOf normal]
  unfold keyOf
  rw [String.toList_append, String.toList_intercalate]
  rcases ss with _ | ⟨first, rest⟩
  · cases rooted <;> simp [Text.splitChars, stay]
  · have free : ∀ piece ∈ (first :: rest).map String.toList, '/' ∉ piece := by
      intro piece member
      obtain ⟨name, inside, rfl⟩ := List.mem_map.mp member
      exact (normal.free inside).1
    have pieces := Text.splitChars_intercalate (by simp) free
    have slash : ("/" : String).toList = ['/'] := rfl
    cases rooted with
    | true =>
      rw [if_pos rfl, slash, List.singleton_append, Text.splitChars, if_pos rfl, pieces,
        List.foldl_cons, stay, walk]
    | false =>
      rw [if_neg (by decide), slash, String.toList_empty, List.nil_append, pieces, walk]

theorem directoryKey_keyOf {rooted : Bool} {ss : List String} (normal : Normal rooted ss) :
    directoryKey (keyOf rooted ss) = keyOf rooted ss := by
  unfold directoryKey
  rw [isRooted_keyOf normal, steps_keyOf normal]

theorem place?_keyOf {rooted : Bool} {ss : List String} {name : String}
    (normal : Normal rooted (ss ++ [name])) :
    place? (keyOf rooted (ss ++ [name])) = some (keyOf rooted ss, name) := by
  unfold place?
  rw [isRooted_keyOf normal, steps_keyOf normal, List.getLast?_concat, List.dropLast_concat]
  rfl

section Opening

variable {path : String} {d d' : Disk} {done rest : List String}

def Leads (d : Disk) (rooted : Bool) (done rest : List String) : Prop :=
  ∀ front back, rest = front ++ back → front ≠ [] →
    d.isDirectory (keyOf rooted (done ++ front)) = true

theorem Leads.cons {rooted : Bool} {name : String}
    (here : d.isDirectory (keyOf rooted (done ++ [name])) = true)
    (onward : Leads d rooted (done ++ [name]) rest) : Leads d rooted done (name :: rest) := by
  intro front back same some
  cases front with
  | nil => exact absurd rfl some
  | cons first more =>
    obtain ⟨rfl, rfl⟩ := List.cons.inj same
    cases more with
    | nil => exact here
    | cons second more =>
      have further := onward (second :: more) back rfl (by simp)
      rwa [List.append_assoc] at further

theorem isDirectory_create (key other : String) :
    isDirectory (Table.put d key []) other = (decide (directoryKey other = key) || d.isDirectory other) := by
  unfold isDirectory Table.contains
  by_cases same : directoryKey other = key
  · simp [same]
  · simp [same, Table.get?_put_of_ne]

theorem createAll_leads (normal : Normal (isRooted path) (done ++ rest))
    (made : createAll.go path d done rest = .ok d') :
    (∀ other, d.isDirectory other = true → d'.isDirectory other = true) ∧
      Leads d' (isRooted path) done rest := by
  induction rest generalizing d done with
  | nil =>
    cases made
    refine ⟨fun _ there => there, fun front back same some => ?_⟩
    exact absurd (List.append_eq_nil_iff.mp same.symm).1 some
  | cons name rest ih =>
    have more : Normal (isRooted path) ((done ++ [name]) ++ rest) := by simpa using normal
    unfold createAll.go at made
    dsimp only at made
    split at made
    · rename_i there
      obtain ⟨kept, leads⟩ := ih more made
      exact ⟨kept, .cons (kept _ there) leads⟩
    · split at made
      · cases made
      · split at made
        · cases made
        · obtain ⟨kept, leads⟩ := ih more made
          have new : isDirectory (Table.put d (keyOf (isRooted path) (done ++ [name])) [])
              (keyOf (isRooted path) (done ++ [name])) = true := by
            rw [isDirectory_create, directoryKey_keyOf more.prefix]
            simp
          refine ⟨fun other there => kept other ?_, .cons (kept _ new) leads⟩
          rw [isDirectory_create, there, Bool.or_true]

theorem createAll_of_leads (leads : Leads d (isRooted path) done rest) :
    createAll.go path d done rest = .ok d := by
  induction rest generalizing done with
  | nil => rfl
  | cons name rest ih =>
    have here := leads [name] rest rfl (by simp)
    have onward : Leads d (isRooted path) (done ++ [name]) rest := by
      intro front back same some
      have further := leads (name :: front) back (by rw [same]; rfl) (by simp)
      rwa [List.append_assoc]
    unfold createAll.go
    dsimp only
    rw [if_pos here]
    exact ih onward

end Opening

/-- What a directory holds is known: files of these names, and no directory. -/
structure Lists (d : Disk) (directory : String) (names : List String) : Prop where
  files : ∃ files, Table.get? d (directoryKey directory) = some files ∧
    ∀ name, name ∈ Table.keys files ↔ name ∈ names
  flat : ∀ key ∈ Table.keys d, ∀ name, place? key ≠ some (directoryKey directory, name)

namespace Lists

variable {d : Disk} {directory : String} {names : List String}

theorem of_names_nil (vacant : d.names directory = .ok []) : d.Lists directory [] := by
  unfold Disk.names at vacant
  split at vacant
  · cases vacant
  · rename_i files found
    obtain ⟨noFiles, noInner⟩ :=
      List.append_eq_nil_iff.mp (Table.eq_nil_of_distinct (Except.ok.inj vacant))
    refine ⟨⟨files, found, fun name => by rw [noFiles]⟩, fun key member name place => ?_⟩
    have outside := List.filterMap_eq_nil_iff.mp noInner key member
    simp [place] at outside

theorem of_mem_iff {names' : List String} (lists : d.Lists directory names)
    (same : ∀ name, name ∈ names ↔ name ∈ names') : d.Lists directory names' := by
  obtain ⟨files, found, held⟩ := lists.files
  exact ⟨⟨files, found, fun name => (held name).trans (same name)⟩, lists.flat⟩

theorem names_eq (lists : d.Lists directory names) :
    d.names directory = .ok (Table.distinct names) := by
  obtain ⟨files, found, same⟩ := lists.files
  unfold Disk.names
  rw [found]
  refine congrArg Except.ok (Table.distinct_congr fun name => ?_)
  rw [List.mem_append, same, or_iff_left]
  intro member
  obtain ⟨key, inside, place⟩ := List.mem_filterMap.mp member
  split at place
  · rename_i place' name' heq
    split at place
    · rename_i here
      exact lists.flat key inside name' (by rw [heq, here])
    · cases place
  · cases place

theorem free (lists : d.Lists directory names) {name : String} (step : IsStep name) :
    d.isDirectory (join directory name) = false := by
  have normal := steps_normal (join directory name)
  rw [isRooted_join directory step, steps_join directory step] at normal
  refine Bool.eq_false_iff.mpr fun there => ?_
  have member := Table.mem_keys_iff.mpr there
  unfold directoryKey at member
  rw [isRooted_join directory step, steps_join directory step] at member
  exact lists.flat _ member name (place?_keyOf normal)

theorem file?_isSome (lists : d.Lists directory names) {name : String} (step : IsStep name) :
    (d.file? (join directory name)).isSome = true ↔ name ∈ names := by
  obtain ⟨files, found, same⟩ := lists.files
  rw [← same, Table.mem_keys_iff]
  unfold file? Table.contains
  rw [place?_join directory step]
  simp [found]

/-- A file of any name that is not too long can be written, and shows under that name. -/
theorem write (lists : d.Lists directory names) {name : String} (step : IsStep name)
    (short : name.utf8ByteSize ≤ nameLimit) (f : File) :
    ∃ d', d.write (join directory name) f = .ok d' ∧ d'.Lists directory (name :: names) := by
  obtain ⟨files, found, same⟩ := lists.files
  refine ⟨_, write_eq_ok.mpr ⟨_, name, files, lists.free step, place?_join directory step, found,
    short, rfl⟩, ⟨_, Table.get?_put_self _ _ _, fun other => ?_⟩, fun key member other => ?_⟩
  · rw [Table.mem_keys_put, List.mem_cons, same]
  · have there : directoryKey directory ∈ Table.keys d := by
      rw [Table.mem_keys_iff, Table.contains, found]
      rfl
    rcases Table.mem_keys_put.mp member with rfl | old
    · exact lists.flat _ there other
    · exact lists.flat key old other

end Lists
end Disk
end Orchestration

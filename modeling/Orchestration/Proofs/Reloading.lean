import Orchestration.Policy.Engine
import Orchestration.Proofs.Places

/-! Policies that are loaded again. Files are written and deleted, and loads, reloads and other
policies come in between in any order. As long as a file that is written is newer than what was
there before, a policy is taken for current only where its file still holds it, so a reload
answers what a load would; it parses nothing where nothing was written; and a call that fails
changes nothing and is tried again. -/
namespace Orchestration

inductive PolicyEvent where
  | write (path : String) (content : Content) (time : Int)
  | delete (path : String)
  | load (path : String)
  | reload (path : String)
  | refresh (path : String)
  | set (p : Policy)

namespace PolicyEvent

def written? : PolicyEvent → Option (String × Int)
  | write path _ time => some (path, time)
  | _ => none

def called? : PolicyEvent → Option String
  | load path | reload path | refresh path => some path
  | _ => none

end PolicyEvent

structure Advances (d : Disk) (events : List PolicyEvent) : Prop where
  first : ∀ e ∈ events, ∀ path time, e.written? = some (path, time) →
    ∀ f, d.file? path = some f → f.modified < time
  next : events.Pairwise fun e e' => ∀ path time path' time', e.written? = some (path, time) →
    e'.written? = some (path', time') → Disk.place? path = Disk.place? path' → time < time'

/-! ### Calls -/

section Calls

variable {d : Disk} {path : String} {q : Policy}

theorem Policy.file_of_load (loaded : Policy.load d path = .ok q) :
    ∃ f, d.file? path = some f := by
  unfold Policy.load Disk.read at loaded
  split at loaded
  · cases loaded
  · cases file : d.file? path with
    | some f => exact ⟨f, rfl⟩
    | none =>
      rw [file] at loaded
      cases loaded

/-- What a file holds is the policy that its text and the ending of its name make. -/
theorem Policy.load_congr {d' : Disk} {path' : String}
    (place : Disk.place? path' = Disk.place? path) (file : d'.file? path' = d.file? path)
    (loaded : Policy.load d path = .ok q) : Policy.load d' path' = .ok q := by
  obtain ⟨f, found⟩ := file_of_load loaded
  have ending : Format.ofPath? path' = Format.ofPath? path := by
    unfold Format.ofPath? Disk.extension?
    rw [place]
  unfold Policy.load Disk.read at loaded ⊢
  rw [ending, file, found]
  rw [found] at loaded
  cases format : Format.ofPath? path with
  | none =>
    rw [format] at loaded
    cases loaded
  | some format' =>
    rw [format] at loaded
    obtain ⟨content, modified⟩ := f
    cases content with
    | bytes => cases loaded
    | database records => cases loaded
    | text text =>
      dsimp only at loaded ⊢
      cases parsed : parseText format' text with
      | ok p =>
        rw [parsed] at loaded
        exact loaded
      | error cause =>
        rw [parsed] at loaded
        cases cause <;> cases loaded

namespace PolicyEngine

variable (e : PolicyEngine)

theorem load_eq {f : File} (file : d.file? path = some f) (loaded : Policy.load d path = .ok q) :
    e.load d path = (.ok q, ⟨some ⟨q, some (path, f.modified)⟩, e.parses + 1⟩) := by
  unfold load modified Disk.modified
  rw [file, loaded]

theorem load_fails (fails : ∀ q, Policy.load d path ≠ .ok q) :
    ∃ fault parses, e.load d path = (.error fault, { e with parses := parses }) := by
  unfold load
  cases modified d path with
  | error fault => exact ⟨fault, e.parses, rfl⟩
  | ok t =>
    cases loaded : Policy.load d path with
    | error fault => exact ⟨fault, e.parses + 1, rfl⟩
    | ok q => exact absurd loaded (fails q)

theorem load_cases (d : Disk) (path : String) :
    (∃ q f, d.file? path = some f ∧ Policy.load d path = .ok q ∧
      e.load d path = (.ok q, ⟨some ⟨q, some (path, f.modified)⟩, e.parses + 1⟩)) ∨
    (∀ q, Policy.load d path ≠ .ok q) ∧
      ∃ fault parses, e.load d path = (.error fault, { e with parses := parses }) := by
  by_cases some : ∃ q, Policy.load d path = .ok q
  · obtain ⟨q, loaded⟩ := some
    obtain ⟨f, file⟩ := Policy.file_of_load loaded
    exact .inl ⟨q, f, file, loaded, e.load_eq file loaded⟩
  · have fails : ∀ q, Policy.load d path ≠ .ok q := fun q loaded => some ⟨q, loaded⟩
    exact .inr ⟨fails, e.load_fails fails⟩

theorem load_ok (answered : (e.load d path).1 = .ok q) :
    ∃ f, d.file? path = some f ∧ Policy.load d path = .ok q ∧
      e.load d path = (.ok q, ⟨some ⟨q, some (path, f.modified)⟩, e.parses + 1⟩) := by
  obtain ⟨q', f, file, loaded, eq⟩ | ⟨_, _, _, eq⟩ := e.load_cases d path
  · rw [eq] at answered
    obtain rfl := Except.ok.inj answered
    exact ⟨f, file, loaded, eq⟩
  · rw [eq] at answered
    cases answered

theorem load_error {fault : Fault} (answered : (e.load d path).1 = .error fault) :
    (∀ q, Policy.load d path ≠ .ok q) ∧ (e.load d path).2.loaded = e.loaded := by
  obtain ⟨_, _, _, _, eq⟩ | ⟨fails, _, _, eq⟩ := e.load_cases d path
  · rw [eq] at answered
    cases answered
  · rw [eq]
    exact ⟨fails, rfl⟩

theorem reload_eq {l : LoadedPolicy} {t : Int} (held : e.loaded = some l)
    (there : d.modified path = .ok t) (current : isCurrent l path t = true) :
    e.reload d path = (.ok l.policy, e) := by
  unfold reload modified
  rw [there, held]
  dsimp only
  rw [if_pos current]

theorem reload_missing {cause : SystemError} (missing : d.modified path = .error cause) :
    e.reload d path = (.error (.unavailablePolicy path cause), e) := by
  unfold reload modified
  rw [missing]

/-- A reload is a load, unless the policy is taken for current. -/
theorem reload_cases (d : Disk) (path : String) :
    (∃ l t, e.loaded = some l ∧ d.modified path = .ok t ∧ isCurrent l path t = true ∧
      e.reload d path = (.ok l.policy, e)) ∨
    e.reload d path = e.load d path := by
  cases there : d.modified path with
  | error cause =>
    right
    unfold reload load modified
    rw [there]
  | ok t =>
    cases held : e.loaded with
    | none =>
      right
      unfold reload modified
      rw [there, held]
    | some l =>
      cases current : isCurrent l path t with
      | true => exact .inl ⟨l, t, rfl, rfl, current, e.reload_eq held there current⟩
      | false =>
        right
        unfold reload modified
        rw [there, held]
        dsimp only
        rw [current]
        rfl

theorem isCurrent_iff {l : LoadedPolicy} {t : Int} : isCurrent l path t = true ↔
    ∃ origin known, l.source = some (origin, known) ∧ Disk.samePath origin path = true ∧
      t ≤ known := by
  unfold isCurrent
  rw [Option.any_eq_true]
  simp only [Bool.and_eq_true, decide_eq_true_eq, Prod.exists]

end PolicyEngine

end Calls

structure Served where
  engine : PolicyEngine
  disk : Disk

namespace Served

/-- A write or deletion that fails leaves the disk as it was. -/
def step (s : Served) : PolicyEvent → Served
  | .write path content time =>
    { s with disk := (s.disk.write path ⟨content, time⟩).toOption.getD s.disk }
  | .delete path => { s with disk := (s.disk.remove path).toOption.getD s.disk }
  | .load path => { s with engine := (s.engine.load s.disk path).2 }
  | .reload path => { s with engine := (s.engine.reload s.disk path).2 }
  | .refresh path => { s with engine := (s.engine.refresh s.disk path).2 }
  | .set p => { s with engine := s.engine.set p }

def after (s : Served) (events : List PolicyEvent) : Served := events.foldl step s

/-- What a call answers. A refresh keeps it to itself. -/
def answer? (s : Served) : PolicyEvent → Option (String × Except Fault Policy)
  | .load path => some (path, (s.engine.load s.disk path).1)
  | .reload path | .refresh path => some (path, (s.engine.reload s.disk path).1)
  | .write .. | .delete _ | .set _ => none

theorem after_append (s : Served) (first second : List PolicyEvent) :
    s.after (first ++ second) = (s.after first).after second := List.foldl_append

theorem refresh_engine (e : PolicyEngine) (d : Disk) (path : String) :
    (e.refresh d path).2 = (e.reload d path).2 := by
  unfold PolicyEngine.refresh
  split <;> rename_i again <;> rw [again]

theorem step_refresh (s : Served) (path : String) :
    s.step (.refresh path) = s.step (.reload path) := by
  unfold step
  dsimp only
  rw [refresh_engine]

theorem answer_cases {s : Served} {e : PolicyEvent} {path : String} {a : Except Fault Policy}
    (answer : s.answer? e = some (path, a)) :
    (s.step e = { s with engine := (s.engine.load s.disk path).2 } ∧
      (s.engine.load s.disk path).1 = a) ∨
    (s.step e = { s with engine := (s.engine.reload s.disk path).2 } ∧
      (s.engine.reload s.disk path).1 = a) := by
  cases e with
  | write | delete | set => cases answer
  | load path' =>
    obtain ⟨rfl, answered⟩ := Prod.mk.inj (Option.some.inj answer)
    exact .inl ⟨rfl, answered⟩
  | reload path' =>
    obtain ⟨rfl, answered⟩ := Prod.mk.inj (Option.some.inj answer)
    exact .inr ⟨rfl, answered⟩
  | refresh path' =>
    obtain ⟨rfl, answered⟩ := Prod.mk.inj (Option.some.inj answer)
    exact .inr ⟨s.step_refresh path', answered⟩

/-- What an event makes of the files: at another place nothing, at its own what was written, if
anything. Directories stay. -/
theorem step_disk (s : Served) (e : PolicyEvent) (path : String) :
    (s.step e).disk.isDirectory path = s.disk.isDirectory path ∧
    ((s.step e).disk.file? path = s.disk.file? path ∨ (s.step e).disk.file? path = none ∨
      ∃ written content time, e = .write written content time ∧
        Disk.place? written = Disk.place? path ∧ s.disk.isDirectory written = false ∧
        (s.step e).disk.file? path = some ⟨content, time⟩) := by
  cases e with
  | write written content time =>
    have left : (s.step (.write written content time)).disk =
        (s.disk.write written ⟨content, time⟩).toOption.getD s.disk := rfl
    rw [left]
    cases wrote : s.disk.write written ⟨content, time⟩ with
    | error cause => exact ⟨rfl, .inl rfl⟩
    | ok d =>
      refine ⟨Disk.isDirectory_write wrote path, ?_⟩
      by_cases same : Disk.place? path = Disk.place? written
      · obtain ⟨_, _, _, free, _⟩ := Disk.write_eq_ok.mp wrote
        refine .inr (.inr ⟨written, content, time, rfl, same.symm, free, ?_⟩)
        exact (Disk.file?_of_place d same).trans (Disk.file?_write wrote)
      · exact .inl (Disk.file?_write_of_ne wrote same)
  | delete removed =>
    have left : (s.step (.delete removed)).disk =
        (s.disk.remove removed).toOption.getD s.disk := rfl
    rw [left]
    cases gone : s.disk.remove removed with
    | error cause => exact ⟨rfl, .inl rfl⟩
    | ok d =>
      refine ⟨Disk.isDirectory_remove gone path, ?_⟩
      by_cases same : Disk.place? path = Disk.place? removed
      · exact .inr (.inl ((Disk.file?_of_place d same).trans (Disk.file?_remove gone)))
      · exact .inl (Disk.file?_remove_of_ne gone same)
  | load path | reload path | refresh path | set p => exact ⟨rfl, .inl rfl⟩

/-- What an event makes of the policy in force: nothing, unless one is set or parsed. -/
theorem step_loaded (s : Served) (e : PolicyEvent) :
    (s.step e).engine.loaded = s.engine.loaded ∨
    (s.step e).disk = s.disk ∧ ((∃ p, (s.step e).engine.loaded = some ⟨p, none⟩) ∨
      ∃ path q f, e.called? = some path ∧ s.disk.file? path = some f ∧
        Policy.load s.disk path = .ok q ∧
        (s.step e).engine.loaded = some ⟨q, some (path, f.modified)⟩) := by
  have loads (path : String) :
      (s.engine.load s.disk path).2.loaded = s.engine.loaded ∨
      ∃ q f, s.disk.file? path = some f ∧ Policy.load s.disk path = .ok q ∧
        (s.engine.load s.disk path).2.loaded = some ⟨q, some (path, f.modified)⟩ := by
    obtain ⟨q, f, file, loaded, eq⟩ | ⟨_, _, _, eq⟩ := s.engine.load_cases s.disk path
    · exact .inr ⟨q, f, file, loaded, by rw [eq]⟩
    · exact .inl (by rw [eq])
  have reloads (path : String) :
      (s.engine.reload s.disk path).2.loaded = s.engine.loaded ∨
      ∃ q f, s.disk.file? path = some f ∧ Policy.load s.disk path = .ok q ∧
        (s.engine.reload s.disk path).2.loaded = some ⟨q, some (path, f.modified)⟩ := by
    obtain ⟨_, _, _, _, _, eq⟩ | eq := s.engine.reload_cases s.disk path
    · exact .inl (by rw [eq])
    · rw [eq]
      exact loads path
  cases e with
  | write | delete => exact .inl rfl
  | set p => exact .inr ⟨rfl, .inl ⟨p, rfl⟩⟩
  | load path =>
    refine (loads path).imp_right fun ⟨q, f, file, loaded, eq⟩ => ⟨rfl, .inr ?_⟩
    exact ⟨path, q, f, rfl, file, loaded, eq⟩
  | reload path =>
    refine (reloads path).imp_right fun ⟨q, f, file, loaded, eq⟩ => ⟨rfl, .inr ?_⟩
    exact ⟨path, q, f, rfl, file, loaded, eq⟩
  | refresh path =>
    rw [step_refresh]
    refine (reloads path).imp_right fun ⟨q, f, file, loaded, eq⟩ => ⟨rfl, .inr ?_⟩
    exact ⟨path, q, f, rfl, file, loaded, eq⟩

theorem file?_after {s : Served} {events : List PolicyEvent} {path : String} {f : File}
    (unwritten : ∀ e ∈ events, ∀ path' time, e.written? = some (path', time) →
      Disk.place? path' ≠ Disk.place? path)
    (file : (s.after events).disk.file? path = some f) : s.disk.file? path = some f := by
  induction events generalizing s with
  | nil => exact file
  | cons e rest ih =>
    have after := ih (fun e' member => unwritten e' (List.mem_cons_of_mem _ member)) file
    rcases (s.step_disk e path).2 with same | gone | ⟨written, _, time, rfl, place, _⟩
    · rw [← same]
      exact after
    · rw [gone] at after
      cases after
    · exact absurd place (unwritten _ List.mem_cons_self written time rfl)

end Served

/-- What is known of the file that a policy in force was loaded from, and of what is still to be
written: the file is as it was or newer, and whatever is written will be newer. -/
structure Held (d : Disk) (events : List PolicyEvent) (l : LoadedPolicy) (origin : String)
    (known : Int) : Prop where
  file : d.isDirectory origin = false
  same : ∀ f, d.file? origin = some f → f.modified ≤ known →
    Policy.load d origin = .ok l.policy
  later : ∀ e ∈ events, ∀ path time, e.written? = some (path, time) →
    Disk.place? path = Disk.place? origin → known < time

structure Faithful (s : Served) (events : List PolicyEvent) : Prop where
  sound : s.disk.Sound
  advances : Advances s.disk events
  source : ∀ l, s.engine.loaded = some l → ∀ origin known, l.source = some (origin, known) →
    Held s.disk events l origin known

namespace Faithful

variable {s : Served} {e : PolicyEvent} {events : List PolicyEvent}

theorem sound_step (faithful : Faithful s (e :: events)) : (s.step e).disk.Sound := by
  intro path directory
  obtain ⟨stays, changed⟩ := s.step_disk e path
  rw [stays] at directory
  rcases changed with same | gone | ⟨written, content, time, _, place, free, file⟩
  · rw [same]
    exact faithful.sound path directory
  · exact gone
  · obtain ⟨place', found⟩ := Disk.place?_of_file? file
    rw [Disk.isDirectory_of_place s.disk place (place ▸ found), directory] at free
    cases free

theorem advances_step (faithful : Faithful s (e :: events)) :
    Advances (s.step e).disk events := by
  obtain ⟨newer, ordered⟩ := List.pairwise_cons.mp faithful.advances.next
  refine ⟨fun e' member path time writes f file => ?_, ordered⟩
  rcases (s.step_disk e path).2 with same | gone | ⟨written, content, earlier, rfl, place, _, new⟩
  · rw [same] at file
    exact faithful.advances.first e' (List.mem_cons_of_mem _ member) path time writes f file
  · rw [gone] at file
    cases file
  · rw [new] at file
    obtain rfl := Option.some.inj file
    exact newer e' member written earlier path time rfl writes place

theorem held_step {l : LoadedPolicy} {origin : String} {known : Int}
    (held : Held s.disk (e :: events) l origin known) : Held (s.step e).disk events l origin known where
  file := (s.step_disk e origin).1.trans held.file
  same f file old := by
    rcases (s.step_disk e origin).2 with same | gone | ⟨written, content, time, rfl, place, _, new⟩
    · rw [same] at file
      exact Policy.load_congr rfl same (held.same f file old)
    · rw [gone] at file
      cases file
    · rw [new] at file
      obtain rfl := Option.some.inj file
      -- what is written now is newer than what is known, so nothing is said of it
      have newer := held.later _ List.mem_cons_self written time rfl place
      exact absurd old (Int.not_le.mpr newer)
  later e' member := held.later e' (List.mem_cons_of_mem _ member)

theorem step (faithful : Faithful s (e :: events)) : Faithful (s.step e) events where
  sound := faithful.sound_step
  advances := faithful.advances_step
  source l inForce origin known source := by
    rcases s.step_loaded e with same | ⟨still, ⟨p, set⟩ | ⟨path, q, f, _, file, loaded, parsed⟩⟩
    · rw [same] at inForce
      exact held_step (faithful.source l inForce origin known source)
    · rw [set] at inForce
      obtain rfl := Option.some.inj inForce
      cases source
    · rw [parsed] at inForce
      obtain rfl := Option.some.inj inForce
      obtain ⟨rfl, rfl⟩ := Prod.mk.inj (Option.some.inj source)
      rw [still]
      -- just parsed, it is what the file holds, and what is written from now on is newer
      refine ⟨?_, fun _ _ _ => loaded, fun e' member path' time writes place => ?_⟩
      · refine Bool.eq_false_iff.mpr fun directory => ?_
        rw [faithful.sound path directory] at file
        cases file
      · refine faithful.advances.first e' (List.mem_cons_of_mem _ member) path' time writes f ?_
        rw [Disk.file?_of_place s.disk place, file]

theorem after {before later : List PolicyEvent} (faithful : Faithful s (before ++ later)) :
    Faithful (s.after before) later := by
  induction before generalizing s with
  | nil => exact faithful
  | cons e rest ih => exact ih faithful.step

/-- What is taken for current is what its file holds. -/
theorem current (faithful : Faithful s events) {l : LoadedPolicy} {path : String} {t : Int}
    (inForce : s.engine.loaded = some l) (there : s.disk.modified path = .ok t)
    (current : PolicyEngine.isCurrent l path t = true) :
    (∃ f, s.disk.file? path = some f ∧ f.modified = t) ∧ Policy.load s.disk path = .ok l.policy := by
  obtain ⟨origin, known, source, spelled, old⟩ := PolicyEngine.isCurrent_iff.mp current
  have held := faithful.source l inForce origin known source
  have place := Disk.samePath_place spelled
  have free : s.disk.isDirectory path = false :=
    (Disk.samePath_isDirectory s.disk spelled).symm.trans held.file
  unfold Disk.modified at there
  cases file : s.disk.file? path with
  | none =>
    rw [file, free] at there
    cases there
  | some f =>
    rw [file] at there
    obtain rfl := Except.ok.inj there
    have same := Disk.file?_of_place s.disk place
    exact ⟨⟨f, rfl, rfl⟩, Policy.load_congr place.symm same.symm
      (held.same f (same.trans file) old)⟩

theorem reload_answer (faithful : Faithful s events) (path : String) (q : Policy) :
    ((s.engine.load s.disk path).1 = .ok q ↔ Policy.load s.disk path = .ok q) ∧
    ((s.engine.reload s.disk path).1 = .ok q ↔ Policy.load s.disk path = .ok q) := by
  have loads : (s.engine.load s.disk path).1 = .ok q ↔ Policy.load s.disk path = .ok q := by
    refine ⟨fun answered => ?_, fun loaded => ?_⟩
    · obtain ⟨_, _, loaded, _⟩ := s.engine.load_ok answered
      exact loaded
    · obtain ⟨f, file⟩ := Policy.file_of_load loaded
      rw [s.engine.load_eq file loaded]
  refine ⟨loads, ?_⟩
  obtain ⟨l, t, inForce, there, current, eq⟩ | eq := s.engine.reload_cases s.disk path
  · rw [eq, (faithful.current inForce there current).2]
  · rw [eq]
    exact loads

/-- After a successful call with a file, the policy in force is what the file holds, and from
nothing older. -/
theorem answered (faithful : Faithful s events) {path : String} {q : Policy}
    (answer : s.answer? e = some (path, .ok q)) :
    Policy.load s.disk path = .ok q ∧ (s.step e).disk = s.disk ∧
      ∃ l origin known, (s.step e).engine.loaded = some l ∧ l.policy = q ∧
        l.source = some (origin, known) ∧ Disk.samePath origin path = true ∧
        ∀ f, s.disk.file? path = some f → f.modified ≤ known := by
  have loads (answered : (s.engine.load s.disk path).1 = .ok q) :
      ∃ l origin known, (s.engine.load s.disk path).2.loaded = some l ∧ l.policy = q ∧
        l.source = some (origin, known) ∧ Disk.samePath origin path = true ∧
        ∀ f, s.disk.file? path = some f → f.modified ≤ known := by
    obtain ⟨f, file, _, eq⟩ := s.engine.load_ok answered
    refine ⟨_, path, f.modified, by rw [eq], rfl, rfl, Disk.samePath_refl path, fun g found => ?_⟩
    rw [file] at found
    exact Option.some.inj found ▸ Int.le_refl _
  have answers := faithful.reload_answer path q
  obtain ⟨step, answered⟩ | ⟨step, answered⟩ := Served.answer_cases answer
  · rw [step]
    exact ⟨answers.1.mp answered, rfl, loads answered⟩
  · rw [step]
    refine ⟨answers.2.mp answered, rfl, ?_⟩
    obtain ⟨l, t, inForce, there, current, eq⟩ | eq := s.engine.reload_cases s.disk path
    · obtain ⟨origin, known, source, spelled, old⟩ := PolicyEngine.isCurrent_iff.mp current
      obtain ⟨⟨f, file, rfl⟩, _⟩ := faithful.current inForce there current
      rw [eq] at answered
      refine ⟨l, origin, known, by rw [eq, inForce], Except.ok.inj answered, source, spelled,
        fun g found => ?_⟩
      rw [file] at found
      rwa [← Option.some.inj found]
    · rw [eq] at answered ⊢
      exact loads answered

/-- As long as that policy is in force and nothing is written to its file, a reload has nothing to
parse. -/
theorem reload_unwritten (faithful : Faithful s (e :: events)) {path : String} {q : Policy}
    (answer : s.answer? e = some (path, .ok q))
    (unwritten : ∀ e' ∈ events, ∀ path' time, e'.written? = some (path', time) →
      Disk.place? path' ≠ Disk.place? path)
    (kept : ((s.step e).after events).engine.loaded = (s.step e).engine.loaded) :
    (((s.step e).after events).engine.reload ((s.step e).after events).disk path).2 =
      ((s.step e).after events).engine := by
  obtain ⟨_, still, l, origin, known, inForce, _, source, spelled, old⟩ := faithful.answered answer
  have later : Faithful ((s.step e).after events) [] :=
    Faithful.after (by rw [List.append_nil]; exact faithful.step)
  have unchanged {f : File} := Served.file?_after (s := s.step e) (f := f) unwritten
  generalize (s.step e).after events = now at *
  rw [inForce] at kept
  have free := (Disk.samePath_isDirectory now.disk spelled).symm.trans
    (later.source l kept origin known source).file
  -- a file that is gone by now leaves nothing to parse either
  cases file : now.disk.file? path with
  | none =>
    have missing : now.disk.modified path = .error (now.disk.absence path) := by
      rw [Disk.modified, file, free]
      rfl
    rw [now.engine.reload_missing missing]
  | some f =>
    have there : now.disk.modified path = .ok f.modified := by rw [Disk.modified, file]
    have before := unchanged file
    rw [still] at before
    rw [now.engine.reload_eq kept there
      (PolicyEngine.isCurrent_iff.mpr ⟨origin, known, source, spelled, old f before⟩)]

end Faithful

def Stale (s : Served) (path : String) : Prop :=
  ∀ l, s.engine.loaded = some l → ∀ origin known, l.source = some (origin, known) →
    Disk.samePath origin path = true → ∀ f, s.disk.file? path = some f → known < f.modified

namespace Stale

variable {s : Served} {e : PolicyEvent} {events : List PolicyEvent} {path : String}

theorem step (faithful : Faithful s (e :: events)) (stale : Stale s path)
    (other : ∀ path', e.called? = some path' → Disk.samePath path' path = false) :
    Stale (s.step e) path := by
  intro l inForce origin known source spelled f file
  rcases s.step_loaded e with same | ⟨_, ⟨p, set⟩ | ⟨path', q, _, called, _, _, parsed⟩⟩
  · rw [same] at inForce
    rcases (s.step_disk e path).2 with still | gone | ⟨written, content, time, rfl, place, _, new⟩
    · rw [still] at file
      exact stale l inForce origin known source spelled f file
    · rw [gone] at file
      cases file
    · rw [new] at file
      obtain rfl := Option.some.inj file
      have held := faithful.source l inForce origin known source
      exact held.later _ List.mem_cons_self written time rfl
        (place.trans (Disk.samePath_place spelled).symm)
  · rw [set] at inForce
    obtain rfl := Option.some.inj inForce
    cases source
  · rw [parsed] at inForce
    obtain rfl := Option.some.inj inForce
    obtain ⟨rfl, rfl⟩ := Prod.mk.inj (Option.some.inj source)
    rw [other path' called] at spelled
    cases spelled

theorem after {later : List PolicyEvent} (faithful : Faithful s later) (stale : Stale s path)
    (other : ∀ e ∈ later, ∀ path', e.called? = some path' → Disk.samePath path' path = false) :
    Stale (s.after later) path := by
  induction later generalizing s with
  | nil => exact stale
  | cons e rest ih =>
    refine ih faithful.step (stale.step faithful (other e List.mem_cons_self)) ?_
    exact fun e' member => other e' (List.mem_cons_of_mem _ member)

theorem reload_eq_load (faithful : Faithful s events) (stale : Stale s path) :
    s.engine.reload s.disk path = s.engine.load s.disk path := by
  obtain ⟨l, t, inForce, there, current, _⟩ | eq := s.engine.reload_cases s.disk path
  · obtain ⟨origin, known, source, spelled, old⟩ := PolicyEngine.isCurrent_iff.mp current
    obtain ⟨⟨f, file, rfl⟩, _⟩ := faithful.current inForce there current
    exact absurd old (Int.not_le.mpr (stale l inForce origin known source spelled f file))
  · exact eq

/-- A call that fails leaves the policy in force behind its file, if that is where it is from. -/
theorem of_failed (faithful : Faithful s events) (fails : ∀ q, Policy.load s.disk path ≠ .ok q) :
    Stale s path := by
  intro l inForce origin known source spelled f file
  refine Int.not_le.mp fun old => ?_
  have place := Disk.samePath_place spelled
  have same := Disk.file?_of_place s.disk place
  have held := faithful.source l inForce origin known source
  exact fails l.policy (Policy.load_congr place.symm same.symm
    (held.same f (same.trans file) old))

end Stale

namespace Served

theorem answer_error {s : Served} {e : PolicyEvent} {path : String} {fault : Fault}
    (answer : s.answer? e = some (path, .error fault)) :
    (∀ q, Policy.load s.disk path ≠ .ok q) ∧ (s.step e).disk = s.disk ∧
      (s.step e).engine.loaded = s.engine.loaded := by
  obtain ⟨step, answered⟩ | ⟨step, answered⟩ := answer_cases answer
  · rw [step]
    obtain ⟨fails, same⟩ := s.engine.load_error answered
    exact ⟨fails, rfl, same⟩
  · rw [step]
    obtain ⟨_, _, _, _, _, eq⟩ | eq := s.engine.reload_cases s.disk path
    · rw [eq] at answered
      cases answered
    · rw [eq] at answered ⊢
      obtain ⟨fails, same⟩ := s.engine.load_error answered
      exact ⟨fails, rfl, same⟩

/-- A refresh tells whether a newly parsed policy is in force. -/
theorem refresh_tells (s : Served) (path : String) :
    ((s.engine.refresh s.disk path).1 = true ↔ ∃ q t, Policy.load s.disk path = .ok q ∧
      (s.engine.refresh s.disk path).2 =
        ⟨some ⟨q, some (path, t)⟩, s.engine.parses + 1⟩) ∧
    ((s.engine.refresh s.disk path).1 = false →
      (s.engine.refresh s.disk path).2.loaded = s.engine.loaded) := by
  obtain ⟨_, _, _, _, _, eq⟩ | eq := s.engine.reload_cases s.disk path
  · unfold PolicyEngine.refresh
    rw [eq]
    refine ⟨⟨fun changed => ?_, fun ⟨q, t, _, new⟩ => ?_⟩, fun _ => rfl⟩
    · simp at changed
    · have counted := congrArg PolicyEngine.parses new
      exact absurd counted (Nat.ne_of_lt (Nat.lt_succ_self _))
  · obtain ⟨q, f, _, loaded, parsed⟩ | ⟨fails, _, parses, failed⟩ :=
      s.engine.load_cases s.disk path
    · unfold PolicyEngine.refresh
      rw [eq, parsed]
      refine ⟨⟨fun _ => ⟨q, f.modified, loaded, rfl⟩, fun _ => ?_⟩, fun same => ?_⟩
      · simp
      · simp at same
    · unfold PolicyEngine.refresh
      rw [eq, failed]
      exact ⟨⟨nofun, fun ⟨q, _, loaded, _⟩ => absurd loaded (fails q)⟩, fun _ => rfl⟩

/-- Whatever was written, deleted and called before, as long as each file that was written was
newer than what had been at its place: a call that succeeds puts in force what its file holds now,
and it succeeds wherever the file holds a policy; a reload of the file in force parses nothing
while nothing was written to it; a call that fails leaves the policy in force as it is, with its
file and time, and the next reload tries again; and a refresh tells exactly whether a newly parsed
policy is in force. -/
theorem reload_sound {start : Served} {events : List PolicyEvent}
    (unloaded : start.engine.source? = none) (sound : start.disk.Sound)
    (advances : Advances start.disk events) :
    let s := start.after events
    (∀ call path q, s.answer? call = some (path, .ok q) →
      Policy.load s.disk path = .ok q ∧ (s.step call).engine.current = some q) ∧
    (∀ path q, Policy.load s.disk path = .ok q →
      (s.engine.load s.disk path).1 = .ok q ∧ (s.engine.reload s.disk path).1 = .ok q) ∧
    (∀ before call later path q, events = before ++ call :: later →
      (start.after before).answer? call = some (path, .ok q) →
      (∀ e ∈ later, ∀ path' time, e.written? = some (path', time) →
        Disk.place? path' ≠ Disk.place? path) →
      s.engine.loaded = (start.after (before ++ [call])).engine.loaded →
      (s.engine.reload s.disk path).2 = s.engine) ∧
    (∀ call path fault, s.answer? call = some (path, .error fault) →
      (s.step call).engine.loaded = s.engine.loaded) ∧
    (∀ before call later path fault, events = before ++ call :: later →
      (start.after before).answer? call = some (path, .error fault) →
      (∀ e ∈ later, ∀ path', e.called? = some path' → Disk.samePath path' path = false) →
      s.engine.reload s.disk path = s.engine.load s.disk path) ∧
    ∀ path, ((s.engine.refresh s.disk path).1 = true ↔ ∃ q t, Policy.load s.disk path = .ok q ∧
        (s.engine.refresh s.disk path).2 =
          ⟨some ⟨q, some (path, t)⟩, s.engine.parses + 1⟩) ∧
      ((s.engine.refresh s.disk path).1 = false →
        (s.engine.refresh s.disk path).2.loaded = s.engine.loaded) := by
  intro s
  have first : Faithful start events := by
    refine ⟨sound, advances, fun l inForce origin known source => ?_⟩
    rw [PolicyEngine.source?, inForce, Option.bind_some, source] at unloaded
    cases unloaded
  have last : Faithful s [] := Faithful.after (by rwa [List.append_nil])
  refine ⟨fun call path q answer => ?_, fun path q loaded => ?_, ?_,
    fun _ _ _ answer => (answer_error answer).2.2, ?_, s.refresh_tells⟩
  · obtain ⟨loaded, _, l, _, _, inForce, rfl, _⟩ := last.answered answer
    exact ⟨loaded, by rw [PolicyEngine.current, inForce]; rfl⟩
  · have answers := last.reload_answer path q
    exact ⟨answers.1.mpr loaded, answers.2.mpr loaded⟩
  · rintro before call later path q rfl answer unwritten kept
    have there : s = ((start.after before).step call).after later := start.after_append before _
    rw [after_append] at kept
    rw [there] at kept ⊢
    exact first.after.reload_unwritten answer unwritten kept
  · rintro before call later path fault rfl answer other
    have there : s = ((start.after before).step call).after later := start.after_append before _
    have faithful : Faithful ((start.after before).step call) later := first.after.step
    obtain ⟨fails, still, _⟩ := answer_error answer
    have stale : Stale ((start.after before).step call) path := by
      refine .of_failed faithful ?_
      rwa [still]
    have later' := stale.after faithful other
    rw [← there] at later'
    exact later'.reload_eq_load last

theorem file?_empty (path : String) : Disk.empty.file? path = none := by
  unfold Disk.file?
  cases Disk.place? path with
  | none => rfl
  | some place =>
    simp only [Option.bind_eq_bind, Option.bind_some, Disk.empty, Table.get?_cons, Table.get?_nil]
    split
    · rfl
    · split <;> rfl

def spoiled : List PolicyEvent :=
  [.write "p.json" (.text "\x7b\x7d") 1, .load "p.json", .write "p.json" (.text "\x7b") 2]

theorem spoiled_advances : Advances .empty (spoiled ++ [.reload "p.json"]) where
  first e _ path time _ f file := by
    rw [file?_empty] at file
    cases file
  next := by
    have increasing : List.Pairwise (fun a b => a.2 < b.2)
        ((spoiled ++ [PolicyEvent.reload "p.json"]).filterMap PolicyEvent.written?) := by decide
    refine (List.pairwise_filterMap.mp increasing).imp fun ordered path time path' time' => ?_
    exact fun first second _ => ordered (path, time) first (path', time') second

/-- The policy stays in force, and its file is tried again. -/
theorem spoiled_tried_again :
    let start : Served := ⟨.empty, .empty⟩
    let events := spoiled ++ [.reload "p.json"]
    let s := start.after events
    start.engine.source? = none ∧ start.disk.Sound ∧ Advances start.disk events ∧
      s.engine.current.isSome = true ∧
      s.engine.reload s.disk "p.json" = s.engine.load s.disk "p.json" := by
  intro start events s
  have sound : start.disk.Sound := fun path _ => file?_empty path
  have retried := (@reload_sound start _ rfl sound spoiled_advances).2.2.2.2.1
  have failed : ((start.after spoiled).engine.reload (start.after spoiled).disk
      "p.json").1.toOption.isSome = false := by decide +kernel
  refine ⟨rfl, sound, spoiled_advances, by decide +kernel, ?_⟩
  cases answer : ((start.after spoiled).engine.reload (start.after spoiled).disk "p.json").1 with
  | ok q =>
    rw [answer] at failed
    cases failed
  | error fault =>
    exact retried spoiled (.reload "p.json") [] "p.json" fault rfl
      (congrArg (fun a => some ("p.json", a)) answer) (fun _ none => absurd none List.not_mem_nil)

end Served
end Orchestration

import Orchestration.Proofs.Canonical
import Orchestration.Proofs.Instants
import Orchestration.Proofs.Items

/-! Codecs. A way to write and a way to read belong together if what may be held is read back as
it was written, and whatever is read may be held and is written no deeper than it was read. The
codec of a record follows from those of its fields, in whatever order and form the record came. -/
namespace Orchestration

namespace Json

theorem clean_arr {items : List Json} (clean : ∀ j ∈ items, j.Clean) : (arr items).Clean := by
  intro n member
  obtain ⟨j, inside, found⟩ := mem_itemNumbers.mp member
  exact clean j inside n found

theorem numbers_record {members : List (String × Json)} {n : Number}
    (member : n ∈ (record members).numbers) : ∃ m ∈ members, n ∈ m.2.numbers := by
  obtain ⟨m, inside, found⟩ := mem_memberNumbers.mp member
  exact ⟨m, Table.mem_ofList inside, found⟩

theorem clean_record {members : List (String × Json)} (clean : ∀ m ∈ members, m.2.Clean) :
    (record members).Clean := by
  intro n member
  obtain ⟨m, inside, found⟩ := numbers_record member
  exact clean m inside n found

theorem depth_arr {items : List Json} {k : Nat} (shallow : ∀ j ∈ items, j.depth ≤ k) :
    (arr items).depth ≤ k + 1 := by
  rw [depth]
  exact Nat.succ_le_succ (itemDepth_le_iff.mpr shallow)

theorem depth_record {members : List (String × Json)} {k : Nat}
    (shallow : ∀ m ∈ members, m.2.depth ≤ k) : (record members).depth ≤ k + 1 := by
  apply Nat.succ_le_succ
  exact memberDepth_le_iff.mpr fun m member => shallow m (Table.mem_ofList member)

end Json

/-- What is sound is read back. What is read is sound, and is written no deeper than the value
that it was read from, if that is at least as deep as what has every default written out. -/
structure Codec {α : Type} (encode : α → Json) (decode : Json → Option α) (Sound : α → Prop)
    (least : Nat) : Prop where
  back : ∀ a, Sound a → decode (encode a) = some a
  clean : ∀ a, Sound a → (encode a).Clean
  sound : ∀ j k a, j.Fits k → least ≤ k → decode j = some a → Sound a ∧ (encode a).depth ≤ k

namespace Codec

section Scalars

variable {k : Nat}

theorem string : Codec Json.str Json.string? (fun _ => True) k where
  back _ _ := rfl
  clean _ _ := by simp [Json.Clean, Json.numbers]
  sound _ l _ _ _ _ := ⟨trivial, Nat.zero_le l⟩

theorem bool : Codec Json.bool Json.bool? (fun _ => True) k where
  back _ _ := rfl
  clean _ _ := by simp [Json.Clean, Json.numbers]
  sound _ l _ _ _ _ := ⟨trivial, Nat.zero_le l⟩

theorem natBelow {bits : Nat} (most : bits ≤ 64) :
    Codec Json.nat (Json.natBelow? (twoTo bits)) (· < twoTo bits) k where
  back n small := by
    have fits : (0 : Int) ≤ n ∧ (n : Int) < twoTo bits := by omega
    simp [Json.nat, Json.natBelow?, fits]
  clean n small := by
    have wide := twoTo_le most
    simp only [Json.Clean, Json.nat, Json.numbers, List.forall_mem_singleton, Number.Sound]
    omega
  sound j l n _ _ read := by
    refine ⟨?_, Nat.zero_le l⟩
    unfold Json.natBelow? at read
    split at read
    · rw [Option.ite_none_right_eq_some] at read
      obtain ⟨⟨_, _⟩, same⟩ := read
      obtain rfl := Option.some.inj same
      omega
    · cases read

theorem float : Codec Json.ofFloat Json.float? (fun x => x.isFinite = true) k where
  back x finite := by
    simp [Json.ofFloat, finite, Json.float, Json.float?, Json.number?, Number.toBinary64]
  clean x finite := by
    simp [Json.Clean, Json.ofFloat, finite, Json.float, Json.numbers, Number.Sound]
  sound j l x fits _ read := by
    obtain ⟨n, number, rfl⟩ := Option.map_eq_some_iff.mp read
    have sound : n.Sound := by
      cases j with
      | num m =>
        obtain rfl := Option.some.inj number
        exact fits.numbers m (by simp [Json.numbers])
      | null => cases number
      | bool b => cases number
      | str s => cases number
      | arr items => cases number
      | obj members => cases number
    refine ⟨sound.isFinite, ?_⟩
    rw [Json.ofFloat, if_pos sound.isFinite]
    exact Nat.zero_le l

theorem timestamp : Codec Timestamp.toJson Timestamp.ofJson? Timestamp.Shown k where
  back t shown := Timestamp.read?_text shown
  clean _ _ := by simp [Json.Clean, Json.numbers, Timestamp.toJson]
  sound j l t _ _ read := by
    obtain ⟨s, _, told⟩ := Option.bind_eq_some_iff.mp read
    exact ⟨Timestamp.read?_shown told, Nat.zero_le l⟩

theorem word {α : Type} {text : α → String} {read? : String → Option α}
    (known : ∀ a, read? (text a) = some a) :
    Codec (fun a => .str (text a)) (fun j => j.variant?.bind read?) (fun _ => True) k where
  back a _ := known a
  clean _ _ := by simp [Json.Clean, Json.numbers]
  sound _ l _ _ _ _ := ⟨trivial, Nat.zero_le l⟩

theorem value : Codec id Json.value? Json.Proper k where
  back j proper := congrArg some proper.canonical
  clean j proper := proper.clean
  sound j l a fits _ read := by
    obtain rfl := Option.some.inj read
    exact ⟨fits.proper, (Json.Fits.canonical j fits).depth⟩

theorem table : Codec Json.obj Json.table? (fun t => (Json.obj t).Proper) k where
  back t proper := congrArg some (Json.obj.inj proper.canonical)
  clean t proper := proper.clean
  sound j l t fits _ read := by
    cases j with
    | obj members =>
      obtain rfl := Option.some.inj read
      exact ⟨fits.proper, (Json.Fits.canonical _ fits).depth⟩
    | null => cases read
    | bool b => cases read
    | num n => cases read
    | str s => cases read
    | arr items => cases read

end Scalars

section Compound

variable {α : Type} {encode : α → Json} {decode : Json → Option α} {Sound : α → Prop} {k : Nat}

theorem mapM_back (c : Codec encode decode Sound k) {as : List α} (sound : ∀ a ∈ as, Sound a) :
    (as.map encode).mapM decode = some as := by
  rw [mapM_eq_some, List.forall₂_map_left_iff, List.forall₂_same]
  exact fun a member => c.back a (sound a member)

theorem mapM_sound (c : Codec encode decode Sound k) {items : List Json} {as : List α} {l : Nat}
    (fits : ∀ j ∈ items, j.Fits l) (large : k ≤ l) (read : items.mapM decode = some as) :
    ∀ a ∈ as, Sound a ∧ (encode a).depth ≤ l := by
  induction mapM_eq_some.mp read with
  | nil => simp
  | cons one more ih =>
    obtain ⟨first, others⟩ := List.forall_mem_cons.mp fits
    exact List.forall_mem_cons.mpr ⟨c.sound _ l _ first large one, ih others (mapM_eq_some.mpr more)⟩

theorem list (c : Codec encode decode Sound k) :
    Codec (fun as => .arr (as.map encode)) (Json.listOf? decode) (fun as => ∀ a ∈ as, Sound a)
      (k + 1) where
  back as sound := c.mapM_back sound
  clean as sound := by
    apply Json.clean_arr
    intro j member
    obtain ⟨a, inside, rfl⟩ := List.mem_map.mp member
    exact c.clean a (sound a inside)
  sound j l as fits large read := by
    obtain ⟨items, array, each⟩ := Option.bind_eq_some_iff.mp read
    cases j with
    | arr given =>
      obtain rfl := Option.some.inj array
      obtain ⟨l, rfl, inner⟩ := fits.arr
      have all := c.mapM_sound inner (Nat.le_of_succ_le_succ large) each
      refine ⟨fun a member => (all a member).1, Json.depth_arr fun j member => ?_⟩
      obtain ⟨a, inside, rfl⟩ := List.mem_map.mp member
      exact (all a inside).2
    | null => cases array
    | bool b => cases array
    | num n => cases array
    | str s => cases array
    | obj members => cases array

theorem option (c : Codec encode decode Sound k)
    (filled : ∀ a, Sound a → (encode a).isNull = false) :
    Codec (Json.ofOption encode) (fun j => if j.isNull then some none else (decode j).map some)
      (fun o => ∀ a ∈ o, Sound a) k where
  back o sound := by
    cases o with
    | none => rfl
    | some a => simp [Json.ofOption, filled a (sound a rfl), c.back a (sound a rfl)]
  clean o sound := by
    cases o with
    | none => simp [Json.ofOption, Json.Clean, Json.numbers]
    | some a => exact c.clean a (sound a rfl)
  sound j l o fits large read := by
    cases o with
    | none => exact ⟨by simp, Nat.zero_le l⟩
    | some a =>
      split at read
      · cases read
      · obtain ⟨b, one, same⟩ := Option.map_eq_some_iff.mp read
        obtain rfl := Option.some.inj same
        obtain ⟨sound, shallow⟩ := c.sound j l b fits large one
        exact ⟨by simpa using sound, shallow⟩

end Compound

end Codec

/-! ### Fields of records -/

namespace Fields

theorem repeated_sorted (names : List String) {t : Table Json} (sorted : Table.Sorted t) :
    repeated names t = false := by
  unfold repeated
  rw [List.any_eq_false]
  intro name _ twice
  have once := List.nodup_iff_count_le_one.mp (Table.nodup_keys sorted) name
  rw [List.count, Table.keys, List.countP_map, List.countP_eq_length_filter] at once
  have more : 1 < (t.filter (·.1 == name)).length := of_decide_eq_true twice
  exact absurd once (Nat.not_le.mpr more)

/-- An optional field is one that is nothing where it is absent or null. -/
theorem optional_eq {δ α : Type} [Document δ] (f : Fields δ) (name : String)
    (read : δ → Option α) : f.optional name read =
      f.defaulted name (fun d => if Document.isNull d then some none else (read d).map some)
        none := by
  unfold optional defaulted
  cases f.get? name with
  | none => rfl
  | some d => rfl

section Reading

variable {f : Fields Json}

def Within (f : Fields Json) (k : Nat) : Prop := ∀ m ∈ f.members, m.2.Fits k

theorem named?_within {names : List String} {j : Json} {k : Nat} (fits : j.Fits k)
    (read : named? names j = some f) : ∃ l, k = l + 1 ∧ f.Within l := by
  unfold named? at read
  obtain ⟨members, object, rest⟩ := Option.bind_eq_some_iff.mp read
  rw [Option.ite_none_left_eq_some] at rest
  obtain rfl := Option.some.inj rest.2
  cases j with
  | obj given =>
    obtain rfl := Option.some.inj object
    exact fits.obj
  | null => cases object
  | bool b => cases object
  | num n => cases object
  | str s => cases object
  | arr items => cases object

theorem of?_within {names : List String} {j : Json} {k : Nat} (fits : j.Fits k)
    (read : of? names j = some f) : ∃ l, k = l + 1 ∧ f.Within l := by
  unfold of? at read
  split at read
  · rename_i values row
    obtain rfl := Option.some.inj read
    cases j with
    | arr items =>
      obtain ⟨l, rfl, inner⟩ := fits.arr
      refine ⟨l, rfl, fun m member => inner _ ?_⟩
      have whole : values = items := by
        simp only [Document.row?, Json.row?] at row
        rw [Option.ite_none_right_eq_some] at row
        exact (Option.some.inj row.2).symm
      exact whole ▸ (List.of_mem_zip member).2
    | null => cases row
    | bool b => cases row
    | num n => cases row
    | str s => cases row
    | obj members => cases row
  · exact named?_within fits read

theorem Within.get? {k : Nat} (within : f.Within k) {d : Json} (found : f.get? name = some d) :
    d.Fits k :=
  within _ (Table.mem_of_get? found)

end Reading

/-- A way to read one field, and what a record writes under its name, if anything. -/
structure Entry {α : Type} (name : String) (read : Fields Json → Option α) (write : α → Option Json)
    (Sound : α → Prop) (least : Nat) : Prop where
  back : ∀ f a, Sound a → f.get? name = write a → read f = some a
  clean : ∀ a, Sound a → ∀ j ∈ write a, j.Clean
  sound : ∀ f k a, f.Within k → least ≤ k → read f = some a → Sound a ∧ ∀ j ∈ write a, j.depth ≤ k

namespace Entry

variable {α : Type} {encode : α → Json} {decode : Json → Option α} {Sound : α → Prop} {k : Nat}
  {name : String}

theorem required (c : Codec encode decode Sound k) :
    Entry name (fun f => f.required name decode) (fun a => some (encode a)) Sound k where
  back f a sound found := by
    rw [Fields.required, found]
    exact c.back a sound
  clean a sound j member := by
    obtain rfl := Option.some.inj member
    exact c.clean a sound
  sound f l a within large read := by
    obtain ⟨j, found, decoded⟩ := Option.bind_eq_some_iff.mp read
    obtain ⟨sound, shallow⟩ := c.sound j l a (within.get? found) large decoded
    exact ⟨sound, by simpa using shallow⟩

theorem defaulted (c : Codec encode decode Sound k) {default : α} (fallback : Sound default)
    (small : (encode default).depth ≤ k) :
    Entry name (fun f => f.defaulted name decode default) (fun a => some (encode a)) Sound k where
  back f a sound found := by
    rw [Fields.defaulted, found]
    exact c.back a sound
  clean a sound j member := by
    obtain rfl := Option.some.inj member
    exact c.clean a sound
  sound f l a within large read := by
    unfold Fields.defaulted at read
    split at read
    · obtain rfl := Option.some.inj read
      exact ⟨fallback, by simpa using Nat.le_trans small large⟩
    · rename_i j found
      obtain ⟨sound, shallow⟩ := c.sound j l a (within.get? found) large read
      exact ⟨sound, by simpa using shallow⟩

theorem optional (c : Codec encode decode Sound k)
    (filled : ∀ a, Sound a → (encode a).isNull = false) :
    Entry name (fun f => f.optional name decode) (fun o => some (Json.ofOption encode o))
      (fun o => ∀ a ∈ o, Sound a) k := by
  simp only [optional_eq]
  exact defaulted (c.option filled) (by simp) (Nat.zero_le k)

/-- A field that is left out where there is nothing to write. -/
theorem skipped (c : Codec encode decode Sound k)
    (filled : ∀ a, Sound a → (encode a).isNull = false) :
    Entry name (fun f => f.optional name decode) (fun o => o.map encode)
      (fun o => ∀ a ∈ o, Sound a) k where
  back f o sound found := by
    rw [Fields.optional, found]
    cases o with
    | none => rfl
    | some a =>
      have written : Document.isNull (encode a) = false := filled a (sound a rfl)
      simp [written, c.back a (sound a rfl)]
  clean o sound j member := by
    obtain ⟨a, inside, rfl⟩ := Option.map_eq_some_iff.mp member
    exact c.clean a (sound a inside)
  sound f l o within large read := by
    have spelled : Entry name (fun f => f.optional name decode) _ _ k := optional c filled
    obtain ⟨sound, shallow⟩ := spelled.sound f l o within large read
    refine ⟨sound, fun j member => ?_⟩
    obtain ⟨a, rfl, rfl⟩ := Option.map_eq_some_iff.mp member
    exact shallow _ rfl

end Entry

def write {ρ : Type} (entries : List (String × (ρ → Option Json))) (r : ρ) : List (String × Json) :=
  entries.filterMap fun e => (e.2 r).map fun j => (e.1, j)

theorem keys_write {ρ : Type} (entries : List (String × (ρ → Option Json))) (r : ρ) :
    (Table.keys (write entries r)).Sublist (entries.map (·.1)) := by
  induction entries with
  | nil => exact List.nil_sublist _
  | cons e rest ih =>
    unfold write
    rw [List.filterMap_cons]
    cases e.2 r with
    | none => exact ih.cons _
    | some j => exact ih.cons_cons _

theorem get?_write {ρ : Type} {entries : List (String × (ρ → Option Json))}
    (distinct : (entries.map (·.1)).Nodup) (r : ρ) {e : String × (ρ → Option Json)}
    (member : e ∈ entries) : Table.get? (write entries r) e.1 = e.2 r := by
  induction entries with
  | nil => cases member
  | cons first rest ih =>
    rw [List.map_cons, List.nodup_cons] at distinct
    obtain ⟨fresh, distinct⟩ := distinct
    have absent : first.1 ∉ Table.keys (write rest r) :=
      fun inside => fresh ((keys_write rest r).subset inside)
    unfold write
    rw [List.filterMap_cons]
    rcases List.mem_cons.mp member with rfl | later
    · cases content : e.2 r with
      | none => exact Table.get?_eq_none absent
      | some j => simp [Table.get?_cons]
    · have other : e.1 ≠ first.1 := fun same => fresh (same ▸ List.mem_map_of_mem later)
      cases first.2 r with
      | none => exact ih distinct later
      | some j =>
        rw [Option.map_some, Table.get?_cons, if_neg other]
        exact ih distinct later

structure Entries {ρ : Type} (read : Fields Json → Option ρ)
    (entries : List (String × (ρ → Option Json))) (Known Sound : ρ → Prop) (least : Nat) :
    Prop where
  back : ∀ f r, Known r → Sound r → (∀ e ∈ entries, f.get? e.1 = e.2 r) → read f = some r
  clean : ∀ r, Sound r → ∀ e ∈ entries, ∀ j ∈ e.2 r, j.Clean
  sound : ∀ f k r, f.Within k → least ≤ k → read f = some r →
    Known r ∧ Sound r ∧ ∀ e ∈ entries, ∀ j ∈ e.2 r, j.depth ≤ k

namespace Entries

variable {ρ : Type} {Known Sound : ρ → Prop} {k : Nat}

theorem done {r : ρ} (known : ∀ s, Known s ↔ s = r) (sound : Sound r) :
    Entries (fun _ => pure r) [] Known Sound k where
  back _ s agrees _ _ := by rw [(known s).mp agrees]; rfl
  clean _ _ _ member := by cases member
  sound _ _ s _ _ read := by
    obtain rfl := Option.some.inj read
    exact ⟨(known r).mpr rfl, sound, by simp⟩

/-- One field, and after it the others. -/
theorem cons {α : Type} {name : String} {read : Fields Json → Option α} {write : α → Option Json}
    {Part : α → Prop} (entry : Entry name read write Part k) (part : ρ → α)
    (sure : ∀ r, Sound r → Part (part r)) {next : α → Fields Json → Option ρ}
    {entries : List (String × (ρ → Option Json))}
    (rest : ∀ a, Part a → Entries (next a) entries (fun r => Known r ∧ part r = a) Sound k) :
    Entries (fun f => read f >>= fun a => next a f) ((name, fun r => write (part r)) :: entries)
      Known Sound k where
  back f r known sound found := by
    obtain ⟨first, others⟩ := List.forall_mem_cons.mp found
    have whole := sure r sound
    apply Option.bind_eq_some_iff.mpr
    exact ⟨part r, entry.back f _ whole first, (rest _ whole).back f r ⟨known, rfl⟩ sound others⟩
  clean r sound := by
    have whole := sure r sound
    exact List.forall_mem_cons.mpr ⟨entry.clean _ whole, (rest _ whole).clean r sound⟩
  sound f l r within large all := by
    obtain ⟨a, one, others⟩ := Option.bind_eq_some_iff.mp all
    obtain ⟨whole, shallow⟩ := entry.sound f l a within large one
    obtain ⟨⟨known, rfl⟩, sound, more⟩ := (rest a whole).sound f l r within large others
    exact ⟨known, sound, List.forall_mem_cons.mpr ⟨shallow, more⟩⟩

/-- One field that may hold anything, and after it the others. -/
theorem plain {α : Type} {name : String} {read : Fields Json → Option α} {write : α → Option Json}
    (entry : Entry name read write (fun _ => True) k) (part : ρ → α)
    {next : α → Fields Json → Option ρ} {entries : List (String × (ρ → Option Json))}
    (rest : ∀ a, Entries (next a) entries (fun r => Known r ∧ part r = a) Sound k) :
    Entries (fun f => read f >>= fun a => next a f) ((name, fun r => write (part r)) :: entries)
      Known Sound k :=
  cons entry part (fun _ _ => trivial) fun a _ => rest a

/-- The codec of a record of named fields. -/
theorem codec {names : List String} {read : Fields Json → Option ρ}
    {entries : List (String × (ρ → Option Json))} {encode : ρ → Json}
    (all : Entries read entries (fun _ => True) Sound k) (distinct : (entries.map (·.1)).Nodup)
    (written : ∀ r, encode r = Json.record (write entries r)) :
    Codec encode (fun j => of? names j >>= read) Sound (k + 1) where
  back r sound := by
    have once := repeated_sorted names (Table.sorted_ofList (write entries r))
    have opened : of? names (encode r) = some ⟨Table.ofList (write entries r)⟩ := by
      simp [written, of?, named?, Json.record, Document.row?, Json.row?, Document.members?,
        Json.object?, once, Document.complete]
    apply Option.bind_eq_some_iff.mpr
    refine ⟨_, opened, all.back _ r trivial sound fun e member => ?_⟩
    rw [← get?_write distinct r member]
    exact Table.get?_ofList ((keys_write entries r).nodup distinct) e.1
  clean r sound := by
    rw [written]
    apply Json.clean_record
    intro m member
    obtain ⟨e, inside, content⟩ := List.mem_filterMap.mp member
    obtain ⟨j, wrote, rfl⟩ := Option.map_eq_some_iff.mp content
    exact all.clean r sound e inside j wrote
  sound j l r fits large whole := by
    obtain ⟨f, opened, rest⟩ := Option.bind_eq_some_iff.mp whole
    obtain ⟨l, rfl, within⟩ := of?_within fits opened
    obtain ⟨_, sound, shallow⟩ := all.sound f l r within (by omega) rest
    refine ⟨sound, ?_⟩
    rw [written]
    apply Json.depth_record
    intro m member
    obtain ⟨e, inside, content⟩ := List.mem_filterMap.mp member
    obtain ⟨j, wrote, rfl⟩ := Option.map_eq_some_iff.mp content
    exact shallow e inside j wrote

end Entries

end Fields

end Orchestration

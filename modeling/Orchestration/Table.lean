/-! Tables keyed by text: lists of entries in increasing key order, one entry a key.
Putting and erasing keep that order, and a look-up sees the last value put. -/
namespace Orchestration

abbrev Table (α : Type) := List (String × α)

namespace Table

variable {α β : Type}

def get? : Table α → String → Option α
  | [], _ => none
  | (k, v) :: rest, key => if key = k then some v else get? rest key

def contains (t : Table α) (key : String) : Bool := (get? t key).isSome

/-- The table with `value` under `key`, in place of what was there. -/
def put : Table α → String → α → Table α
  | [], key, value => [(key, value)]
  | (k, v) :: rest, key, value =>
    if key = k then (key, value) :: rest
    else if key < k then (key, value) :: (k, v) :: rest
    else (k, v) :: put rest key value

def erase (t : Table α) (key : String) : Table α := t.filter (·.1 != key)

def keys (t : Table α) : List String := t.map (·.1)

def values (t : Table α) : List α := t.map (·.2)

/-- The table of a list of entries, where a later entry replaces an earlier one. -/
def ofList (entries : List (String × α)) : Table α :=
  entries.foldl (fun t e => put t e.1 e.2) []

/-- The texts of a list in increasing order, each once. -/
def distinct (items : List String) : List String := keys (ofList (items.map (·, ())))

/-- Keys strictly increase. -/
def Sorted (t : Table α) : Prop := t.Pairwise (fun a b => a.1 < b.1)

@[simp] theorem get?_nil (key : String) : get? ([] : Table α) key = none := rfl

theorem get?_cons (k : String) (v : α) (rest : Table α) (key : String) :
    get? ((k, v) :: rest) key = if key = k then some v else get? rest key := rfl

@[simp] theorem get?_put_self (t : Table α) (key : String) (value : α) :
    get? (put t key value) key = some value := by
  induction t with
  | nil => simp [put, get?]
  | cons e rest ih => grind [put, get?]

theorem get?_put_of_ne (t : Table α) {key other : String} (value : α) (h : other ≠ key) :
    get? (put t key value) other = get? t other := by
  induction t with
  | nil => simp [put, get?, h]
  | cons e rest ih => grind [put, get?]

@[simp] theorem get?_erase_self (t : Table α) (key : String) : get? (erase t key) key = none := by
  induction t with
  | nil => rfl
  | cons e rest ih => grind [erase, get?]

theorem get?_erase_of_ne (t : Table α) {key other : String} (h : other ≠ key) :
    get? (erase t key) other = get? t other := by
  induction t with
  | nil => rfl
  | cons e rest ih => grind [erase, get?]

end Table
end Orchestration

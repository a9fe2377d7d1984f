import Mathlib.Data.List.Nodup
import Mathlib.Data.List.Perm.Basic

/-
Dictionaries.

A `dict` is its list of items in insertion order.  Assigning to a key that is
there replaces its value in place, assigning to a new one appends.  Two items
lists are the same mapping when every key reads the same in both, whatever the
order.
-/

namespace Python

abbrev Items (κ ν : Type) := List (κ × ν)

namespace Items

variable {κ ν μ : Type} [DecidableEq κ]

def keys (items : Items κ ν) : List κ := items.map Prod.fst

/-- `items.get(key)`. -/
def get (items : Items κ ν) (key : κ) : Option ν := items.lookup key

/-- `items[key] = value`. -/
def set : Items κ ν → κ → ν → Items κ ν
  | [], key, value => [(key, value)]
  | (other, old) :: rest, key, value =>
      if other = key then (other, value) :: rest else (other, old) :: set rest key value

/-- `{**items, **more}`. -/
def update (items more : Items κ ν) : Items κ ν :=
  more.foldl (fun acc item => acc.set item.1 item.2) items

/-- Equal as mappings: `left == right` on two dictionaries. -/
def Same (left right : Items κ ν) : Prop := ∀ key, left.get key = right.get key

omit [DecidableEq κ] in
@[simp] theorem keys_nil : keys ([] : Items κ ν) = [] := rfl

omit [DecidableEq κ] in
@[simp] theorem keys_cons (key : κ) (value : ν) (rest : Items κ ν) :
    keys ((key, value) :: rest) = key :: keys rest := rfl

@[simp] theorem get_nil (key : κ) : get ([] : Items κ ν) key = none := rfl

theorem get_cons (head : κ × ν) (rest : Items κ ν) (key : κ) :
    get (head :: rest) key = if head.1 = key then some head.2 else get rest key := by
  unfold get
  rw [List.lookup_cons]
  by_cases same : head.1 = key
  · rw [if_pos same, same, beq_self_eq_true]
  · rw [if_neg same, beq_eq_false_iff_ne.mpr (Ne.symm same)]

@[simp] theorem get_cons_self (key : κ) (value : ν) (rest : Items κ ν) :
    get ((key, value) :: rest) key = some value := by
  rw [get_cons, if_pos rfl]

theorem get_cons_ne {other key : κ} (value : ν) (rest : Items κ ν) (different : other ≠ key) :
    get ((other, value) :: rest) key = get rest key := by
  rw [get_cons, if_neg different]

theorem get_eq_none_iff {items : Items κ ν} {key : κ} :
    items.get key = none ↔ key ∉ items.keys := by
  induction items with
  | nil => simp only [get_nil, keys_nil, List.not_mem_nil, not_false_eq_true]
  | cons head rest ih =>
      obtain ⟨other, value⟩ := head
      by_cases same : other = key
      · subst same
        simp only [get_cons_self, reduceCtorEq, keys_cons, List.mem_cons, true_or,
          not_true_eq_false]
      · rw [get_cons_ne value rest same, ih, keys_cons, List.mem_cons, not_or]
        exact ⟨fun absent => ⟨Ne.symm same, absent⟩, And.right⟩

theorem mem_of_get {items : Items κ ν} {key : κ} {value : ν} (found : items.get key = some value) :
    (key, value) ∈ items := by
  induction items with
  | nil => cases found
  | cons head rest ih =>
      obtain ⟨other, held⟩ := head
      by_cases same : other = key
      · subst same
        rw [get_cons_self] at found
        rw [Option.some.inj found]
        exact List.mem_cons_self
      · rw [get_cons_ne held rest same] at found
        exact List.mem_cons_of_mem _ (ih found)

theorem mem_keys_of_get {items : Items κ ν} {key : κ} {value : ν}
    (found : items.get key = some value) : key ∈ items.keys :=
  List.mem_map_of_mem (f := Prod.fst) (mem_of_get found)

theorem get_of_mem {items : Items κ ν} {key : κ} {value : ν} (distinct : items.keys.Nodup)
    (member : (key, value) ∈ items) : items.get key = some value := by
  induction items with
  | nil => cases member
  | cons head rest ih =>
      obtain ⟨other, held⟩ := head
      rw [keys_cons, List.nodup_cons] at distinct
      rcases List.mem_cons.mp member with here | later
      · rw [← here, get_cons_self]
      · have different : other ≠ key := by
          rintro rfl
          exact distinct.1 (List.mem_map_of_mem (f := Prod.fst) later)
        rw [get_cons_ne held rest different, ih distinct.2 later]

theorem get_eq_some_iff {items : Items κ ν} (distinct : items.keys.Nodup) {key : κ} {value : ν} :
    items.get key = some value ↔ (key, value) ∈ items :=
  ⟨mem_of_get, get_of_mem distinct⟩

/-! ### Assignment -/

@[simp] theorem get_set_self (items : Items κ ν) (key : κ) (value : ν) :
    (items.set key value).get key = some value := by
  induction items with
  | nil => exact get_cons_self key value []
  | cons head rest ih =>
      obtain ⟨other, held⟩ := head
      by_cases same : other = key
      · rw [set, if_pos same, same, get_cons_self]
      · rw [set, if_neg same, get_cons_ne held _ same, ih]

theorem get_set_ne {key other : κ} (items : Items κ ν) (value : ν) (different : key ≠ other) :
    (items.set key value).get other = items.get other := by
  induction items with
  | nil => exact get_cons_ne value [] different
  | cons head rest ih =>
      obtain ⟨first, held⟩ := head
      by_cases same : first = key
      · rw [set, if_pos same, get_cons_ne value _ (same ▸ different),
          get_cons_ne held _ (same ▸ different)]
      · rw [set, if_neg same, get_cons, get_cons, ih]

theorem set_cons_ne {other key : κ} (held : ν) (rest : Items κ ν) (different : other ≠ key)
    (value : ν) : set ((other, held) :: rest) key value = (other, held) :: rest.set key value :=
  if_neg different

theorem isSome_get_set_of_mem {items : Items κ ν} {key : κ} (present : key ∈ items.keys)
    (value : ν) (other : κ) :
    ((items.set key value).get other).isSome = (items.get other).isSome := by
  by_cases same : key = other
  · subst same
    rw [get_set_self]
    cases found : items.get key with
    | none => exact absurd present (get_eq_none_iff.mp found)
    | some held => rfl
  · rw [get_set_ne items value same]

/-- What is kept beside a dropped key does not see the assignment to it. -/
theorem filter_set_of_dropped (items : Items κ ν) {key : κ} (value : ν) {keep : κ → Bool}
    (dropped : keep key = false) :
    (items.set key value).filter (fun item => keep item.1) =
      items.filter (fun item => keep item.1) := by
  induction items with
  | nil => rw [set, List.filter_cons_of_neg (by rw [dropped]; exact Bool.false_ne_true)]
  | cons head rest ih =>
      obtain ⟨other, held⟩ := head
      by_cases same : other = key
      · subst same
        rw [set, if_pos rfl, List.filter_cons, List.filter_cons, dropped]
        rfl
      · rw [set, if_neg same, List.filter_cons, List.filter_cons, ih]

theorem get_insert_ne {key other : κ} (front back : Items κ ν) (value : ν)
    (different : key ≠ other) :
    get (front ++ (key, value) :: back) other = get (front ++ back) other := by
  induction front with
  | nil => exact get_cons_ne value back different
  | cons head rest ih =>
      obtain ⟨first, held⟩ := head
      rw [List.cons_append, List.cons_append, get_cons, get_cons, ih]

theorem get_append_of_not_mem {front : Items κ ν} {key : κ} (absent : key ∉ front.keys)
    (back : Items κ ν) : get (front ++ back) key = back.get key := by
  induction front with
  | nil => rfl
  | cons head rest ih =>
      obtain ⟨other, value⟩ := head
      rw [keys_cons, List.mem_cons, not_or] at absent
      rw [List.cons_append, get_cons_ne value _ (Ne.symm absent.1), ih absent.2]

theorem get_filter (items : Items κ ν) (keep : κ → Bool) (key : κ) :
    get (items.filter fun item => keep item.1) key = if keep key then items.get key else none := by
  induction items with
  | nil => exact (ite_self none).symm
  | cons head rest ih =>
      obtain ⟨other, value⟩ := head
      by_cases same : other = key
      · subst same
        rw [List.filter_cons]
        by_cases kept : keep other = true
        · rw [if_pos kept, if_pos kept, get_cons_self, get_cons_self]
        · rw [if_neg kept, if_neg kept, ih, if_neg kept]
      · rw [get_cons_ne value rest same, ← ih, List.filter_cons]
        split
        · exact get_cons_ne value _ same
        · rfl

theorem set_of_fresh {items : Items κ ν} {key : κ} (fresh : key ∉ items.keys) (value : ν) :
    items.set key value = items ++ [(key, value)] := by
  induction items with
  | nil => rfl
  | cons head rest ih =>
      obtain ⟨other, held⟩ := head
      rw [keys_cons, List.mem_cons, not_or] at fresh
      rw [set, if_neg (Ne.symm fresh.1), ih fresh.2]
      rfl

theorem keys_set_of_mem {items : Items κ ν} {key : κ} (present : key ∈ items.keys) (value : ν) :
    (items.set key value).keys = items.keys := by
  induction items with
  | nil => cases present
  | cons head rest ih =>
      obtain ⟨other, held⟩ := head
      by_cases same : other = key
      · rw [set, if_pos same]
        rfl
      · rw [set, if_neg same, keys_cons, keys_cons,
          ih ((List.mem_cons.mp present).resolve_left (Ne.symm same))]

theorem set_of_mem {items : Items κ ν} {key : κ} (distinct : items.keys.Nodup)
    (present : key ∈ items.keys) (value : ν) :
    items.set key value = items.map fun item => if item.1 = key then (key, value) else item := by
  induction items with
  | nil => cases present
  | cons head rest ih =>
      obtain ⟨other, held⟩ := head
      rw [keys_cons, List.nodup_cons] at distinct
      rw [set, List.map_cons]
      by_cases same : other = key
      · subst same
        have untouched : ∀ item ∈ rest,
            (if item.1 = other then (other, value) else item) = id item := by
          intro item member
          apply if_neg
          intro named
          exact distinct.1 (named ▸ List.mem_map_of_mem (f := Prod.fst) member)
        rw [if_pos rfl, if_pos rfl, List.map_congr_left untouched, List.map_id]
      · rw [if_neg same, if_neg same,
          ih distinct.2 ((List.mem_cons.mp present).resolve_left (Ne.symm same))]

theorem get_update_of_not_mem {more : Items κ ν} {key : κ} (absent : key ∉ more.keys)
    (items : Items κ ν) : (items.update more).get key = items.get key := by
  unfold update
  induction more generalizing items with
  | nil => rfl
  | cons head rest ih =>
      obtain ⟨other, value⟩ := head
      rw [keys_cons, List.mem_cons, not_or] at absent
      rw [List.foldl_cons, ih absent.2, get_set_ne items value (Ne.symm absent.1)]

/-! ### Mapping equality -/

/-- Reordering the items of a dictionary leaves it the same mapping. -/
theorem same_of_perm {left right : Items κ ν} (distinct : left.keys.Nodup)
    (perm : left.Perm right) : Same left right := by
  have distinctRight : right.keys.Nodup := (perm.map Prod.fst).nodup_iff.mp distinct
  intro key
  cases found : right.get key with
  | none =>
      rw [get_eq_none_iff] at found ⊢
      exact fun member => found ((perm.map Prod.fst).mem_iff.mp member)
  | some value =>
      rw [get_eq_some_iff distinctRight] at found
      exact get_of_mem distinct (perm.mem_iff.mpr found)

end Items

end Python

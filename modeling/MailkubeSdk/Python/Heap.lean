import MailkubeSdk.Python.Value

/-
Objects by reference.

A dictionary or a list lives at an address, and a slot holds either an immutable
value or an address.  The value of a slot is read through a partial view of the
heap; a view that leaves out the objects still under construction is not changed
by writing to them.
-/

namespace Python

abbrev Address := Nat

inductive Slot where
  | value (value : Value)
  | ref (address : Address)

inductive Object where
  | dict (items : Items Str Slot)
  | list (elements : List Slot)

abbrev Heap := List Object

abbrev View := Address → Option Object

/-- The heap as it is read without the addresses `owned`. -/
def Heap.outside (heap : Heap) (owned : List Address) : View :=
  fun address => if address ∈ owned then none else heap[address]?

/-! ### What a slot reads as -/

mutual

inductive Reads (view : View) : Slot → Value → Prop where
  | none : Reads view (.value .none) .none
  | bool (value : Bool) : Reads view (.value (.bool value)) (.bool value)
  | int (value : Int) : Reads view (.value (.int value)) (.int value)
  | float (literal : Str) : Reads view (.value (.float literal)) (.float literal)
  | str (text : Str) : Reads view (.value (.str text)) (.str text)
  | bytes (octets : Bytes) : Reads view (.value (.bytes octets)) (.bytes octets)
  | datetime (value : Datetime) : Reads view (.value (.datetime value)) (.datetime value)
  | list {address : Address} {slots : List Slot} {elements : List Value}
      (found : view address = some (.list slots)) (all : ReadsList view slots elements) :
      Reads view (.ref address) (.list elements)
  | dict {address : Address} {slots : Items Str Slot} {items : Items Str Value}
      (found : view address = some (.dict slots)) (all : ReadsItems view slots items) :
      Reads view (.ref address) (.dict items)

inductive ReadsList (view : View) : List Slot → List Value → Prop where
  | nil : ReadsList view [] []
  | cons {slot : Slot} {value : Value} {slots : List Slot} {values : List Value}
      (head : Reads view slot value) (tail : ReadsList view slots values) :
      ReadsList view (slot :: slots) (value :: values)

inductive ReadsItems (view : View) : Items Str Slot → Items Str Value → Prop where
  | nil : ReadsItems view [] []
  | cons {key : Str} {slot : Slot} {value : Value} {slots : Items Str Slot}
      {items : Items Str Value} (head : Reads view slot value)
      (tail : ReadsItems view slots items) :
      ReadsItems view ((key, slot) :: slots) ((key, value) :: items)

end

def View.Extends (wide narrow : View) : Prop :=
  ∀ address object, narrow address = some object → wide address = some object

mutual

theorem Reads.extend {wide narrow : View} (wider : wide.Extends narrow) {slot : Slot}
    {value : Value} : Reads narrow slot value → Reads wide slot value
  | .none => .none
  | .bool value => .bool value
  | .int value => .int value
  | .float literal => .float literal
  | .str text => .str text
  | .bytes octets => .bytes octets
  | .datetime value => .datetime value
  | .list found all => .list (wider _ _ found) (ReadsList.extend wider all)
  | .dict found all => .dict (wider _ _ found) (ReadsItems.extend wider all)

theorem ReadsList.extend {wide narrow : View} (wider : wide.Extends narrow) {slots : List Slot}
    {values : List Value} : ReadsList narrow slots values → ReadsList wide slots values
  | .nil => .nil
  | .cons head tail => .cons (Reads.extend wider head) (ReadsList.extend wider tail)

theorem ReadsItems.extend {wide narrow : View} (wider : wide.Extends narrow)
    {slots : Items Str Slot} {items : Items Str Value} :
    ReadsItems narrow slots items → ReadsItems wide slots items
  | .nil => .nil
  | .cons head tail => .cons (Reads.extend wider head) (ReadsItems.extend wider tail)

end

theorem ReadsList.append {view : View} {slots : List Slot} {values : List Value} {slot : Slot}
    {value : Value} (last : Reads view slot value) :
    ReadsList view slots values → ReadsList view (slots ++ [slot]) (values ++ [value])
  | .nil => .cons last .nil
  | .cons head tail => .cons head (ReadsList.append last tail)

theorem ReadsItems.set {view : View} {slots : Items Str Slot} {items : Items Str Value}
    {slot : Slot} {value : Value} (key : Str) (fresh : Reads view slot value)
    (reads : ReadsItems view slots items) :
    ReadsItems view (slots.set key slot) (items.set key value) := by
  induction slots generalizing items with
  | nil =>
      cases reads
      exact .cons fresh .nil
  | cons first rest ih =>
      cases reads with
      | @cons other _ _ _ _ head tail =>
          rw [Items.set, Items.set]
          by_cases same : other = key
          · rw [if_pos same, if_pos same]
            exact .cons fresh tail
          · rw [if_neg same, if_neg same]
            exact .cons head (ih tail)

theorem ReadsItems.get {view : View} {slots : Items Str Slot} {items : Items Str Value}
    (key : Str) (reads : ReadsItems view slots items) :
    Option.Rel (Reads view) (slots.get key) (items.get key) := by
  induction slots generalizing items with
  | nil =>
      cases reads
      exact .none
  | cons first rest ih =>
      cases reads with
      | @cons other _ _ _ _ head tail =>
          rw [Items.get_cons, Items.get_cons]
          by_cases same : other = key
          · rw [if_pos same, if_pos same]
            exact .some head
          · rw [if_neg same, if_neg same]
            exact ih tail

/-! ### Programs on the heap -/

abbrev HeapM (α : Type) := StateT Heap (Except Builtin) α

namespace HeapM

variable {α β : Type}

def alloc (object : Object) : HeapM Address := fun heap => .ok (heap.length, heap ++ [object])

def dictAt (address : Address) : HeapM (Items Str Slot) := fun heap =>
  match heap[address]? with
  | some (.dict items) => .ok (items, heap)
  | _ => .error .typeError

def listAt (address : Address) : HeapM (List Slot) := fun heap =>
  match heap[address]? with
  | some (.list elements) => .ok (elements, heap)
  | _ => .error .typeError

def write (address : Address) (object : Object) : HeapM Unit := fun heap =>
  .ok ((), heap.set address object)

/-- `items[key] = slot`. -/
def setItem (address : Address) (key : Str) (slot : Slot) : HeapM Unit := do
  let items ← dictAt address
  write address (.dict (items.set key slot))

/-- `elements.append(slot)`. -/
def append (address : Address) (slot : Slot) : HeapM Unit := do
  let elements ← listAt address
  write address (.list (elements ++ [slot]))

theorem bind_of_ok {program : HeapM α} {next : α → HeapM β} {heap heap' : Heap} {value : α}
    (ran : program heap = .ok (value, heap')) : (program >>= next) heap = next value heap' := by
  change Except.bind (program heap) _ = _
  rw [ran]
  rfl

theorem alloc_run (object : Object) (heap : Heap) :
    alloc object heap = .ok (heap.length, heap ++ [object]) := rfl

theorem dictAt_of {heap : Heap} {address : Address} {items : Items Str Slot}
    (found : heap[address]? = some (.dict items)) : dictAt address heap = .ok (items, heap) := by
  rw [dictAt, found]

theorem listAt_of {heap : Heap} {address : Address} {elements : List Slot}
    (found : heap[address]? = some (.list elements)) :
    listAt address heap = .ok (elements, heap) := by
  rw [listAt, found]

theorem setItem_of {heap : Heap} {address : Address} {items : Items Str Slot} {key : Str}
    {slot : Slot} (found : heap[address]? = some (.dict items)) :
    setItem address key slot heap = .ok ((), heap.set address (.dict (items.set key slot))) :=
  bind_of_ok (dictAt_of found)

theorem append_of {heap : Heap} {address : Address} {elements : List Slot} {slot : Slot}
    (found : heap[address]? = some (.list elements)) :
    append address slot heap = .ok ((), heap.set address (.list (elements ++ [slot]))) :=
  bind_of_ok (listAt_of found)

end HeapM

/-! ### Objects under construction -/

/-- Writing to an object that is not older than `start` leaves all of `start` as it was. -/
theorem prefix_write {start heap : Heap} {address : Address} (grown : start <+: heap)
    (young : start.length ≤ address) (object : Object) : start <+: heap.set address object := by
  obtain ⟨rest, rfl⟩ := grown
  rw [List.set_append_right _ _ young]
  exact List.prefix_append _ _

theorem prefix_alloc {start heap : Heap} (grown : start <+: heap) (object : Object) :
    start <+: heap ++ [object] :=
  grown.trans (List.prefix_append _ _)

theorem outside_write {heap : Heap} {owned : List Address} {address : Address}
    (member : address ∈ owned) (object : Object) :
    (Heap.outside (heap.set address object) owned) = Heap.outside heap owned := by
  funext other
  unfold Heap.outside
  by_cases inside : other ∈ owned
  · rw [if_pos inside, if_pos inside]
  · have different : address ≠ other := fun same => inside (same ▸ member)
    rw [if_neg inside, if_neg inside, List.getElem?_set_ne different]

/-- What is read outside `owned` is still read after the heap has grown, also
outside of addresses that were not there. -/
theorem outside_grown {heap heap' : Heap} {owned owned' : List Address} (grown : heap <+: heap')
    (young : ∀ address ∈ owned', address ∈ owned ∨ heap.length ≤ address) :
    View.Extends (heap'.outside owned') (heap.outside owned) := by
  intro address object found
  unfold Heap.outside at found ⊢
  by_cases inside : address ∈ owned
  · rw [if_pos inside] at found
    cases found
  · rw [if_neg inside] at found
    obtain ⟨rest, rfl⟩ := grown
    obtain ⟨bound, _⟩ := List.getElem?_eq_some_iff.mp found
    have kept : address ∉ owned' := by
      intro member
      rcases young address member with old | late
      · exact inside old
      · exact absurd bound (Nat.not_lt.mpr late)
    rw [if_neg kept, List.getElem?_append_left bound]
    exact found

theorem outside_of_found {heap : Heap} {owned : List Address} {address : Address} {object : Object}
    (apart : address ∉ owned) (found : heap[address]? = some object) :
    heap.outside owned address = some object := by
  rw [Heap.outside, if_neg apart, found]

theorem found_of_outside {heap : Heap} {owned : List Address} {address : Address} {object : Object}
    (found : heap.outside owned address = some object) : heap[address]? = some object := by
  unfold Heap.outside at found
  split at found
  · cases found
  · exact found

end Python

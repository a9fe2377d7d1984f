import MailkubeSdk.Python.Heap
import MailkubeSdk.SendEncoding

/-
The send encoding on the interpreter's objects.

The body, the headers, the list of encoded attachments and each copied
attachment are new objects; every other value of the parameters is shared with
the body.  The objects that were there before are left as they were, and the new
ones read as the encoding says.
-/

namespace MailkubeSdk

open Python HeapM

/-- The value of a slot, `depth` containers deep. -/
def valueAt (heap : Heap) : Nat → Slot → Option Value
  | _, .value value => some value
  | 0, .ref _ => none
  | depth + 1, .ref address =>
      match heap[address]? with
      | some (.list slots) => (slots.mapM (valueAt heap depth)).map .list
      | some (.dict items) =>
          (items.mapM fun item => (valueAt heap depth item.2).map (item.1, ·)).map .dict
      | none => none

/-- `str(value)`: a container is followed as deep as `repr` goes. -/
def strAt (runtime : Runtime) (slot : Slot) : HeapM Str := fun heap =>
  match valueAt heap runtime.reprDepth slot with
  | some value => (runtime.str value).map (·, heap)
  | none => .error .recursionError

def toIsoAt (runtime : Runtime) : Slot → HeapM Str
  | .value (.datetime value) => pure value.isoformat
  | slot => strAt runtime slot

/-- The raw content of a copied attachment is replaced in the copy. -/
def encodeContentAt (item : Address) (fields : Items Str Slot) : HeapM Unit :=
  match fields.get contentKey with
  | some (.value (.bytes octets)) =>
      setItem item contentKey (.value (.str (Codecs.b64encode octets)))
  | _ => pure ()

/-- `dict(attachment)`, encoded. -/
def encodedCopyAt : Slot → HeapM Address
  | .value _ => fun _ => .error .typeError
  | .ref attachment => do
      let fields ← dictAt attachment
      let item ← alloc (.dict fields)
      encodeContentAt item fields
      pure item

def encodeAttachmentAt (encoded : Address) (attachment : Slot) : HeapM Unit := do
  let item ← encodedCopyAt attachment
  append encoded (.ref item)

def encodeAttachmentsAt : Slot → HeapM Address
  | .value _ => fun _ => .error .typeError
  | .ref attachments => do
      let encoded ← alloc (.list [])
      let given ← listAt attachments
      given.forM (encodeAttachmentAt encoded)
      pure encoded

def sendStepAt (runtime : Runtime) (body headers : Address) (param : Str × Slot) : HeapM Unit :=
  match headerParams.get param.1 with
  | some name => do
      let text ← strAt runtime param.2
      setItem headers name (.value (.str text))
  | none =>
      if param.1 = attachmentsKey then do
        let encoded ← encodeAttachmentsAt param.2
        setItem body attachmentsKey (.ref encoded)
      else if param.1 ∈ isoParams then do
        let text ← toIsoAt runtime param.2
        setItem body param.1 (.value (.str text))
      else setItem body ((wireRenames.get param.1).getD param.1) param.2

/-- `_build_send_body`, given the address of the parameters: the addresses of the
body and of the headers. -/
def buildSendBodyAt (runtime : Runtime) (params : Address) : HeapM (Address × Address) := do
  let body ← alloc (.dict [])
  let headers ← alloc (.dict [])
  let items ← dictAt params
  items.forM (sendStepAt runtime body headers)
  pure (body, headers)

/-! ### Attachments -/

private theorem encodeContentAt_reads (heap : Heap) {view : View} {fields : Items Str Slot}
    {items : Items Str Value} (all : ReadsItems view fields items) :
    ∃ slots encoded, encodeContentAt heap.length fields (heap ++ [.dict fields]) =
        .ok ((), heap ++ [.dict slots]) ∧
      ReadsItems view slots encoded ∧ encodeAttachment (.dict items) = .ok (.dict encoded) := by
  have fresh : (heap ++ [Object.dict fields])[heap.length]? = some (.dict fields) :=
    List.getElem?_concat_length
  have plain : ∀ {value : Option Value}, Items.get items contentKey = value →
      (∀ octets, value ≠ some (.bytes octets)) →
      encodeAttachment (.dict items) = .ok (.dict items) :=
    fun held other => encodeAttachment_plain (fun octets found => other octets (held ▸ found))
  have content := all.get contentKey
  unfold encodeContentAt
  cases held : Items.get items contentKey with
  | none =>
      rw [held] at content
      cases read : fields.get contentKey with
      | none => exact ⟨fields, items, rfl, all, plain held nofun⟩
      | some slot =>
          rw [read] at content
          cases content
  | some value =>
      rw [held] at content
      cases read : fields.get contentKey with
      | none =>
          rw [read] at content
          cases content
      | some slot =>
          rw [read] at content
          obtain ⟨reads⟩ := content
          cases reads with
          | bytes octets =>
              refine ⟨fields.set contentKey (.value (.str (Codecs.b64encode octets))),
                items.set contentKey (.str (Codecs.b64encode octets)), ?_,
                all.set contentKey (.str _), encodeAttachment_octets held⟩
              dsimp only
              rw [setItem_of fresh, List.set_append_right _ _ (Nat.le_refl _), Nat.sub_self]
              rfl
          | _ => exact ⟨fields, items, rfl, all, plain held nofun⟩

private theorem encodedCopyAt_reads {heap : Heap} {owned : List Address} {slot : Slot}
    {value result : Value} (given : Reads (heap.outside owned) slot value)
    (encodes : encodeAttachment value = .ok result) :
    ∃ slots items, encodedCopyAt slot heap = .ok (heap.length, heap ++ [.dict slots]) ∧
      ReadsItems (heap.outside owned) slots items ∧ result = .dict items := by
  cases given with
  | @dict attachment fields items found all =>
      obtain ⟨slots, encoded, ran, reads, same⟩ := encodeContentAt_reads heap all
      rw [same] at encodes
      cases encodes
      refine ⟨slots, encoded, ?_, reads, rfl⟩
      have given := dictAt_of (found_of_outside found)
      exact (bind_of_ok given).trans ((bind_of_ok (alloc_run _ _)).trans (bind_of_ok ran))
  | _ => cases encodes

/-- The list `encoded` under construction, over the heap `start`. -/
structure Encoding (start : Heap) (owned : List Address) (encoded : Address)
    (done : List Value) (heap : Heap) : Prop where
  grown : start <+: heap
  young : start.length ≤ encoded
  listed : ∃ slots, heap[encoded]? = some (.list slots) ∧
    ReadsList (heap.outside (encoded :: owned)) slots done

private theorem encodeAttachmentAt_step {start heap : Heap} {owned : List Address}
    {encoded : Address} {done : List Value} {slot : Slot} {value result : Value}
    (building : Encoding start owned encoded done heap)
    (older : ∀ address ∈ owned, address < start.length)
    (given : Reads (start.outside owned) slot value)
    (encodes : encodeAttachment value = .ok result) :
    ∃ heap', encodeAttachmentAt encoded slot heap = .ok ((), heap') ∧
      Encoding start owned encoded (done ++ [result]) heap' := by
  obtain ⟨slots, listed, reads⟩ := building.listed
  have bound : encoded < heap.length := (List.getElem?_eq_some_iff.mp listed).1
  have young : ∀ address ∈ encoded :: owned, address ∈ owned ∨ start.length ≤ address := by
    intro address member
    rcases List.mem_cons.mp member with rfl | old
    · exact Or.inr building.young
    · exact Or.inl old
  obtain ⟨fields, items, copied, readsCopy, rfl⟩ :=
    encodedCopyAt_reads (given.extend (outside_grown building.grown young)) encodes
  have listed' : (heap ++ [Object.dict fields])[encoded]? = some (.list slots) := by
    rw [List.getElem?_append_left bound, listed]
  refine ⟨_, (bind_of_ok copied).trans (append_of listed'), ?_⟩
  have wider : View.Extends ((heap ++ [Object.dict fields]).outside (encoded :: owned))
      (heap.outside (encoded :: owned)) :=
    outside_grown (List.prefix_append _ _) (fun _ => Or.inl)
  have apart : heap.length ∉ encoded :: owned := by
    intro member
    rcases List.mem_cons.mp member with same | old
    · exact Nat.lt_irrefl _ (same ▸ bound)
    · exact Nat.lt_irrefl _ (Nat.lt_of_lt_of_le (older heap.length old) building.grown.length_le)
  have fresh : (heap ++ [Object.dict fields])[heap.length]? = some (.dict fields) :=
    List.getElem?_concat_length
  refine ⟨prefix_write (prefix_alloc building.grown _) building.young _, building.young,
    slots ++ [.ref heap.length], ?_, ?_⟩
  · apply List.getElem?_set_self
    rw [List.length_append]
    exact Nat.lt_add_right _ bound
  · rw [outside_write List.mem_cons_self]
    exact (reads.extend wider).append
      (.dict (outside_of_found apart fresh) (readsCopy.extend wider))

private theorem encodeAttachments_run {start heap : Heap} {owned : List Address}
    {encoded : Address} {done : List Value} {slots : List Slot} {values results : List Value}
    (building : Encoding start owned encoded done heap)
    (older : ∀ address ∈ owned, address < start.length)
    (given : ReadsList (start.outside owned) slots values)
    (encodes : values.mapM encodeAttachment = .ok results) :
    ∃ heap', slots.forM (encodeAttachmentAt encoded) heap = .ok ((), heap') ∧
      Encoding start owned encoded (done ++ results) heap' := by
  induction values generalizing slots done heap results with
  | nil =>
      cases given
      cases encodes
      exact ⟨heap, rfl, (List.append_nil done).symm ▸ building⟩
  | cons value rest ih =>
      cases given with
      | @cons slot _ slots _ head tail =>
          rw [List.mapM_cons] at encodes
          obtain ⟨result, first, more⟩ := bind_eq_ok_iff.mp encodes
          obtain ⟨later, others, same⟩ := bind_eq_ok_iff.mp more
          cases same
          obtain ⟨heap₁, ran, grown⟩ := encodeAttachmentAt_step building older head first
          obtain ⟨heap₂, ranRest, built⟩ := ih grown tail others
          refine ⟨heap₂, (bind_of_ok ran).trans ranRest, ?_⟩
          rw [List.append_assoc] at built
          exact built

private theorem encodeAttachmentsAt_reads {heap : Heap} {owned : List Address} {slot : Slot}
    {value result : Value} (older : ∀ address ∈ owned, address < heap.length)
    (given : Reads (heap.outside owned) slot value)
    (encodes : encodeAttachments value = .ok result) :
    ∃ encoded heap', encodeAttachmentsAt slot heap = .ok (encoded, heap') ∧ heap <+: heap' ∧
      Reads (heap'.outside owned) (.ref encoded) result := by
  cases given with
  | @list attachments slots values found all =>
      obtain ⟨results, each, same⟩ := bind_eq_ok_iff.mp encodes
      cases same
      have apart : heap.length ∉ owned := fun member => Nat.lt_irrefl _ (older _ member)
      have opened : Encoding heap owned heap.length [] (heap ++ [.list []]) :=
        ⟨List.prefix_append _ _, Nat.le_refl _, [], List.getElem?_concat_length, .nil⟩
      have listed : (heap ++ [Object.list []])[attachments]? = some (.list slots) := by
        have here := found_of_outside found
        rw [List.getElem?_append_left (List.getElem?_eq_some_iff.mp here).1, here]
      obtain ⟨heap', ran, built⟩ := encodeAttachments_run opened older all each
      obtain ⟨done, stored, reads⟩ := built.listed
      refine ⟨heap.length, heap', ?_, built.grown, ?_⟩
      · have given := listAt_of listed
        exact (bind_of_ok (alloc_run _ _)).trans ((bind_of_ok given).trans (bind_of_ok ran))
      · have wider : View.Extends (heap'.outside owned) (heap'.outside (heap.length :: owned)) :=
          outside_grown List.prefix_rfl
            (fun address member => Or.inl (List.mem_cons_of_mem _ member))
        exact .list (outside_of_found apart stored) (reads.extend wider)
  | _ => cases encodes

/-! ### The body and the headers -/

/-- Headers as the values of a dictionary. -/
def textItems (headers : Items Str Str) : Items Str Value :=
  headers.map fun item => (item.1, .str item.2)

private theorem textItems_set (headers : Items Str Str) (name text : Str) :
    textItems (headers.set name text) = (textItems headers).set name (.str text) := by
  induction headers with
  | nil => rfl
  | cons head rest ih =>
      obtain ⟨other, held⟩ := head
      change textItems (Items.set ((other, held) :: rest) name text) =
        Items.set ((other, .str held) :: textItems rest) name (.str text)
      rw [Items.set, Items.set]
      by_cases same : other = name
      · rw [if_pos same, if_pos same]
        rfl
      · rw [if_neg same, if_neg same, ← ih]
        rfl

/-- The two dictionaries under construction, over the heap `start`. -/
structure Building (start : Heap) (body headers : Address)
    (built : Items Str Value × Items Str Str) (heap : Heap) : Prop where
  grown : start <+: heap
  youngBody : start.length ≤ body
  youngHeaders : start.length ≤ headers
  apart : body ≠ headers
  bodyAt : ∃ slots, heap[body]? = some (.dict slots) ∧
    ReadsItems (heap.outside [body, headers]) slots built.1
  headersAt : ∃ slots, heap[headers]? = some (.dict slots) ∧
    ReadsItems (heap.outside [body, headers]) slots (textItems built.2)

namespace Building

variable {start heap : Heap} {body headers : Address} {built : Items Str Value × Items Str Str}

private theorem setBody (building : Building start body headers built heap) (key : Str)
    {slot : Slot} {value : Value} (reads : Reads (heap.outside [body, headers]) slot value) :
    ∃ heap', setItem body key slot heap = .ok ((), heap') ∧
      Building start body headers (built.1.set key value, built.2) heap' := by
  obtain ⟨slots, stored, readsBody⟩ := building.bodyAt
  obtain ⟨names, storedHeaders, readsHeaders⟩ := building.headersAt
  have bound := (List.getElem?_eq_some_iff.mp stored).1
  refine ⟨_, setItem_of stored, ?_⟩
  exact
    { grown := prefix_write building.grown building.youngBody _
      youngBody := building.youngBody
      youngHeaders := building.youngHeaders
      apart := building.apart
      bodyAt := by
        refine ⟨_, List.getElem?_set_self bound, ?_⟩
        rw [outside_write List.mem_cons_self]
        exact readsBody.set key reads
      headersAt := by
        refine ⟨names, ?_, ?_⟩
        · rw [List.getElem?_set_ne building.apart, storedHeaders]
        · rw [outside_write List.mem_cons_self]
          exact readsHeaders }

private theorem setHeader (building : Building start body headers built heap) (name text : Str) :
    ∃ heap', setItem headers name (.value (.str text)) heap = .ok ((), heap') ∧
      Building start body headers (built.1, built.2.set name text) heap' := by
  obtain ⟨slots, stored, readsBody⟩ := building.bodyAt
  obtain ⟨names, storedHeaders, readsHeaders⟩ := building.headersAt
  have bound := (List.getElem?_eq_some_iff.mp storedHeaders).1
  have owned : headers ∈ [body, headers] := List.mem_cons_of_mem _ List.mem_cons_self
  refine ⟨_, setItem_of storedHeaders, ?_⟩
  exact
    { grown := prefix_write building.grown building.youngHeaders _
      youngBody := building.youngBody
      youngHeaders := building.youngHeaders
      apart := building.apart
      bodyAt := by
        refine ⟨slots, ?_, ?_⟩
        · rw [List.getElem?_set_ne (Ne.symm building.apart), stored]
        · rw [outside_write owned]
          exact readsBody
      headersAt := by
        refine ⟨_, List.getElem?_set_self bound, ?_⟩
        rw [outside_write owned, textItems_set]
        exact readsHeaders.set name (.str text) }

private theorem grow (building : Building start body headers built heap) {heap' : Heap}
    (grown : heap <+: heap') : Building start body headers built heap' := by
  obtain ⟨slots, stored, readsBody⟩ := building.bodyAt
  obtain ⟨names, storedHeaders, readsHeaders⟩ := building.headersAt
  have wider : View.Extends (heap'.outside [body, headers]) (heap.outside [body, headers]) :=
    outside_grown grown (fun _ => Or.inl)
  have still : ∀ {address object}, heap[address]? = some object → heap'[address]? = some object :=
    fun found => found_of_outside
      (@outside_grown _ _ [] [] grown (fun _ => Or.inl) _ _
        (outside_of_found List.not_mem_nil found))
  exact
    { grown := building.grown.trans grown
      youngBody := building.youngBody
      youngHeaders := building.youngHeaders
      apart := building.apart
      bodyAt := ⟨slots, still stored, readsBody.extend wider⟩
      headersAt := ⟨names, still storedHeaders, readsHeaders.extend wider⟩ }

end Building

private theorem strAt_text (runtime : Runtime) (heap : Heap) (text : Str) :
    strAt runtime (.value (.str text)) heap = .ok (text, heap) := by
  have here : valueAt heap runtime.reprDepth (.value (.str text)) = some (.str text) := by
    cases runtime.reprDepth <;> rfl
  rw [strAt, here]
  rfl

private theorem toIsoAt_reads (runtime : Runtime) (heap : Heap) {view : View} {slot : Slot}
    {value : Value} (typed : ParamType.textOrInstant.holds value = true)
    (reads : Reads view slot value) :
    ∃ text, toIso runtime value = .ok text ∧ toIsoAt runtime slot heap = .ok (text, heap) := by
  cases reads with
  | str text => exact ⟨text, rfl, strAt_text runtime heap text⟩
  | datetime value => exact ⟨value.isoformat, rfl, rfl⟩
  | _ => cases typed

/-- One parameter: the objects do what the encoding says. -/
private theorem sendStepAt_step (runtime : Runtime) {start heap : Heap} {body headers : Address}
    {built next : Items Str Value × Items Str Str} {key : Str} {slot : Slot} {value : Value}
    (building : Building start body headers built heap)
    (declared : ∃ decl ∈ sendEmailParams, decl.key = key ∧ decl.type.holds value = true)
    (given : Reads (start.outside []) slot value)
    (stepped : sendStep runtime built (key, value) = .ok next) :
    ∃ heap', sendStepAt runtime body headers (key, slot) heap = .ok ((), heap') ∧
      Building start body headers next heap' := by
  have young : ∀ address ∈ [body, headers], address ∈ [] ∨ start.length ≤ address := by
    intro address member
    rcases List.mem_cons.mp member with same | last
    · exact Or.inr (same ▸ building.youngBody)
    · exact Or.inr (List.mem_singleton.mp last ▸ building.youngHeaders)
  have here := given.extend (outside_grown building.grown young)
  obtain ⟨decl, member, named, typed⟩ := declared
  subst named
  unfold sendStepAt
  unfold sendStep at stepped
  rw [headerParams_get] at stepped ⊢
  rcases sendEmailParams_table decl member with
    ⟨isKey, type⟩ | ⟨notKey, isAttachments, type⟩ | ⟨notKey, other, instant, _, type⟩ |
    ⟨notKey, other, noInstant, _⟩
  · rw [if_pos isKey] at stepped ⊢
    rw [type] at typed
    obtain ⟨text, rfl⟩ := isText_str typed
    cases here
    cases stepped
    obtain ⟨heap', stored, after⟩ := building.setHeader idempotencyHeader text
    exact ⟨heap', (bind_of_ok (strAt_text runtime heap text)).trans stored, after⟩
  · rw [if_neg notKey] at stepped ⊢
    dsimp only at stepped ⊢
    rw [if_pos isAttachments] at stepped ⊢
    obtain ⟨encoded, encodes, same⟩ := bind_eq_ok_iff.mp stepped
    cases same
    have older : ∀ address ∈ [body, headers], address < heap.length := by
      obtain ⟨_, storedBody, _⟩ := building.bodyAt
      obtain ⟨_, storedHeaders, _⟩ := building.headersAt
      intro address member
      rcases List.mem_cons.mp member with same | last
      · exact same ▸ (List.getElem?_eq_some_iff.mp storedBody).1
      · exact List.mem_singleton.mp last ▸ (List.getElem?_eq_some_iff.mp storedHeaders).1
    obtain ⟨list, heap₁, ran, grown, reads⟩ := encodeAttachmentsAt_reads older here encodes
    obtain ⟨heap₂, stored, after⟩ := (building.grow grown).setBody attachmentsKey reads
    exact ⟨heap₂, (bind_of_ok ran).trans stored, after⟩
  · rw [if_neg notKey] at stepped ⊢
    dsimp only at stepped ⊢
    rw [if_neg other, if_pos instant] at stepped ⊢
    rw [type] at typed
    obtain ⟨text, rendered, ran⟩ := toIsoAt_reads runtime heap typed here
    rw [rendered] at stepped
    cases stepped
    obtain ⟨heap', stored, after⟩ := building.setBody decl.key (.str text)
    exact ⟨heap', (bind_of_ok ran).trans stored, after⟩
  · rw [if_neg notKey] at stepped ⊢
    dsimp only at stepped ⊢
    rw [if_neg other, if_neg noInstant] at stepped ⊢
    cases stepped
    exact building.setBody _ here

private theorem sendStepAt_run (runtime : Runtime) {start heap : Heap} {body headers : Address}
    {built final : Items Str Value × Items Str Str} {slots : Items Str Slot}
    {params : Items Str Value} (building : Building start body headers built heap)
    (declared : Declared params) (given : ReadsItems (start.outside []) slots params)
    (folded : params.foldlM (sendStep runtime) built = .ok final) :
    ∃ heap', slots.forM (sendStepAt runtime body headers) heap = .ok ((), heap') ∧
      Building start body headers final heap' := by
  induction params generalizing slots built heap with
  | nil =>
      cases given
      cases folded
      exact ⟨heap, rfl, building⟩
  | cons param rest ih =>
      cases given with
      | @cons key slot value slots _ head tail =>
          rw [List.foldlM_cons] at folded
          obtain ⟨next, stepped, more⟩ := bind_eq_ok_iff.mp folded
          obtain ⟨heap₁, ran, after⟩ := sendStepAt_step runtime building
            (declared (key, value) List.mem_cons_self) head stepped
          obtain ⟨heap₂, ranRest, done⟩ := ih after
            (fun param member => declared param (List.mem_cons_of_mem _ member)) tail more
          exact ⟨heap₂, (bind_of_ok ran).trans ranRest, done⟩

/-- What `_build_send_body` leaves behind: two new objects that read as the
encoding, and every object that was there as it was. -/
def EncodesApart (runtime : Runtime) (heap : Heap) (params : Address) (body : Items Str Value)
    (headers : Items Str Str) : Prop :=
  ∃ bodyAt headersAt heap',
    buildSendBodyAt runtime params heap = .ok ((bodyAt, headersAt), heap') ∧
      heap <+: heap' ∧ heap.length ≤ bodyAt ∧ heap.length ≤ headersAt ∧
        Reads (heap'.outside []) (.ref bodyAt) (.dict body) ∧
          Reads (heap'.outside []) (.ref headersAt) (.dict (textItems headers))

theorem buildSendBodyAt_apart (runtime : Runtime) {heap : Heap} {address : Address}
    {params body : Items Str Value} {headers : Items Str Str} (declared : Declared params)
    (given : Reads (heap.outside []) (.ref address) (.dict params))
    (folded : params.foldlM (sendStep runtime) ([], []) = .ok (body, headers)) :
    EncodesApart runtime heap address body headers := by
  cases given with
  | @dict _ slots _ found all =>
      have first : (heap ++ [Object.dict []])[heap.length]? = some (.dict []) :=
        List.getElem?_concat_length
      have grown : heap.length < (heap ++ [Object.dict []]).length := by
        rw [List.length_append]
        exact Nat.lt_succ_self _
      have kept : ∀ {address : Address} {object : Object},
          (heap ++ [Object.dict []])[address]? = some object →
            ((heap ++ [Object.dict []]) ++ [Object.dict []])[address]? = some object := by
        intro address object found
        rw [List.getElem?_append_left (List.getElem?_eq_some_iff.mp found).1, found]
      have opened : Building heap heap.length (heap ++ [Object.dict []]).length ([], [])
          ((heap ++ [Object.dict []]) ++ [Object.dict []]) :=
        { grown := prefix_alloc (List.prefix_append _ _) _
          youngBody := Nat.le_refl _
          youngHeaders := Nat.le_of_lt grown
          apart := Nat.ne_of_lt grown
          bodyAt := ⟨[], kept first, .nil⟩
          headersAt := ⟨[], List.getElem?_concat_length, .nil⟩ }
      have here := found_of_outside found
      have older : (heap ++ [Object.dict []])[address]? = some (.dict slots) := by
        rw [List.getElem?_append_left (List.getElem?_eq_some_iff.mp here).1, here]
      obtain ⟨heap', ran, built⟩ := sendStepAt_run runtime opened declared all folded
      obtain ⟨bodySlots, bodyStored, bodyReads⟩ := built.bodyAt
      obtain ⟨names, headersStored, headersReads⟩ := built.headersAt
      have wider : View.Extends (heap'.outside [])
          (heap'.outside [heap.length, (heap ++ [Object.dict []]).length]) :=
        outside_grown List.prefix_rfl nofun
      refine ⟨_, _, heap', ?_, built.grown, built.youngBody, built.youngHeaders, ?_, ?_⟩
      · apply (bind_of_ok (alloc_run _ _)).trans
        apply (bind_of_ok (alloc_run _ _)).trans
        exact (bind_of_ok (dictAt_of (kept older))).trans (bind_of_ok ran)
      · exact .dict (outside_of_found List.not_mem_nil bodyStored) (bodyReads.extend wider)
      · exact .dict (outside_of_found List.not_mem_nil headersStored) (headersReads.extend wider)

/-- The send encoding is lossless: a decoder reads the parameters back from the
headers and the body, the mapping does not depend on the order of the keys, and
the parameters and their attachments are left as they were. -/
theorem send_lossless (runtime : Runtime) (params : Items Str Value)
    (wellTyped : WellTyped sendEmailParams params) :
    ∃ spec body, buildSendBody runtime params = .ok spec ∧ CarriesParams params spec body ∧
      (∀ params' : Items Str Value, params.Perm params' →
        ∃ spec' body', buildSendBody runtime params' = .ok spec' ∧
          CarriesParams params' spec' body' ∧ Items.Same body body' ∧
            spec'.headers = spec.headers) ∧
      (∀ heap address, Reads (Heap.outside heap []) (.ref address) (.dict params) →
        EncodesApart runtime heap address body spec.headers) := by
  have declared : Declared params := wellTyped.fits
  have distinct := wellTyped.distinct
  refine ⟨_, _, buildSendBody_eq runtime declared distinct, carriesParams_written declared distinct,
    ?_, ?_⟩
  · intro params' perm
    have declared' : Declared params' :=
      fun param member => declared param (perm.mem_iff.mpr member)
    have distinct' : params'.keys.Nodup := (perm.map Prod.fst).nodup_iff.mp distinct
    exact ⟨_, _, buildSendBody_eq runtime declared' distinct',
      carriesParams_written declared' distinct', written_of_perm declared distinct perm⟩
  · intro heap address given
    exact buildSendBodyAt_apart runtime declared given (foldlM_written runtime declared distinct)

def sampleAttachment : Items Str Value :=
  [(str "filename", .str (str "a.bin")), (contentKey, .bytes [Utf8.octet 0, Utf8.octet 255])]

def sampleParams : Items Str Value :=
  [(str "idempotency_key", .str (str "k-1")), (str "from_", .str (str "a@example.com")),
    (str "to", .list [.str (str "b@example.com")]), (str "subject", .str (str "s")),
    (str "attachments", .list [.dict sampleAttachment])]

/-- The sample's objects: the parameters, the recipients, the attachments and the one
attachment. -/
def sampleHeap : Heap :=
  [.dict [(str "idempotency_key", .value (.str (str "k-1"))),
      (str "from_", .value (.str (str "a@example.com"))), (str "to", .ref 1),
      (str "subject", .value (.str (str "s"))), (str "attachments", .ref 2)],
    .list [.value (.str (str "b@example.com"))],
    .list [.ref 3],
    .dict [(str "filename", .value (.str (str "a.bin"))),
      (contentKey, .value (.bytes [Utf8.octet 0, Utf8.octet 255]))]]

theorem send_lossless_sample :
    ∃ spec body, buildSendBody Runtime.ascii sampleParams = .ok spec ∧
      CarriesParams sampleParams spec body ∧
      EncodesApart Runtime.ascii sampleHeap 0 body spec.headers := by
  obtain ⟨spec, body, built, carries, _, apart⟩ := send_lossless Runtime.ascii sampleParams
    ⟨by decide, by decide, by decide⟩
  have recipients : Reads (sampleHeap.outside []) (.ref 1) (.list [.str (str "b@example.com")]) :=
    .list rfl (.cons (.str _) .nil)
  have attachment : Reads (sampleHeap.outside []) (.ref 3) (.dict sampleAttachment) :=
    .dict rfl (.cons (.str _) (.cons (.bytes _) .nil))
  have params : Reads (sampleHeap.outside []) (.ref 0) (.dict sampleParams) :=
    .dict rfl (.cons (.str _) (.cons (.str _) (.cons recipients (.cons (.str _)
      (.cons (.list rfl (.cons attachment .nil)) .nil)))))
  exact ⟨spec, body, built, carries, apart sampleHeap 0 params⟩

end MailkubeSdk

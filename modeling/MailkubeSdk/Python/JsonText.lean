import MailkubeSdk.Python.Json

/-
What a JSON text says.

The limits of a reader decide whether it reads a text, never what it reads there:
under tighter limits the reading is the same or stops at a limit.  A text then
denotes the value it is read as under limits that suffice.
-/

namespace Python.Json

/-- A reading under tighter limits against one under wider limits. -/
def Cut {α : Type} (tight wide : Except LoadsError α) : Prop :=
  tight = wide ∨ tight = .error .valueError ∨ tight = .error .recursionError

/-- The greater of both limits, for each. -/
def Limits.join (first second : Limits) : Limits :=
  ⟨max first.depth second.depth, max first.digits second.digits⟩

/-! ### Tighter limits -/

namespace Cut

variable {α β : Type} {tight wide : Except LoadsError α}

theorem refl (result : Except LoadsError α) : Cut result result := .inl rfl

theorem bind {f g : α → Except LoadsError β} (cut : Cut tight wide)
    (each : ∀ value, Cut (f value) (g value)) : Cut (tight >>= f) (wide >>= g) := by
  rcases cut with rfl | rfl | rfl
  · cases tight with
    | error reason => exact .refl _
    | ok value => exact each value
  · exact .inr (.inl rfl)
  · exact .inr (.inr rfl)

theorem map (f : α → β) (cut : Cut tight wide) : Cut (tight.map f) (wide.map f) := by
  rcases cut with rfl | rfl | rfl
  · exact .refl _
  · exact .inr (.inl rfl)
  · exact .inr (.inr rfl)

/-- What the tighter limits let through is what the wider ones read. -/
theorem of_ok {value : α} (cut : Cut (.ok value) wide) : wide = .ok value := by
  rcases cut with same | stopped | stopped
  · exact same.symm
  · cases stopped
  · cases stopped

end Cut

theorem parseInt_cut {digits digits' : Nat} (wider : digits ≤ digits') (literal : Str) :
    Cut (parseInt digits literal) (parseInt digits' literal) := by
  unfold parseInt
  dsimp only
  by_cases long : digits < (matchSign literal).2.length
  · rw [if_pos long]
    exact .inr (.inl rfl)
  · have short : ¬digits' < (matchSign literal).2.length := by omega
    rw [if_neg long, if_neg short]
    exact .refl _

theorem scanScalar_cut {digits digits' : Nat} (wider : digits ≤ digits') (text : Str) :
    Cut (scanScalar digits text) (scanScalar digits' text) := by
  unfold scanScalar
  split
  · exact .refl _
  split
  · exact .refl _
  split
  · exact .refl _
  split
  · exact (parseInt_cut wider _).map _
  · exact .refl _
  · exact .refl _

section Nested

variable {scan scan' : Str → Except LoadsError (Value × Str)}

theorem scanElements_cut (inner : ∀ text, Cut (scan text) (scan' text)) :
    ∀ (fuel : Nat) (done : List Value) (text : Str),
      Cut (scanElements scan fuel done text) (scanElements scan' fuel done text) := by
  intro fuel
  induction fuel with
  | zero => exact fun _ _ => .refl _
  | succ fuel ih =>
      intro done text
      unfold scanElements
      refine (inner text).bind ?_
      rintro ⟨value, rest⟩
      dsimp only
      split
      · split
        · exact .refl _
        split
        · exact ih _ _
        · exact .refl _
      · exact .refl _

theorem scanMembers_cut (inner : ∀ text, Cut (scan text) (scan' text)) :
    ∀ (fuel : Nat) (done : Items Str Value) (text : Str),
      Cut (scanMembers scan fuel done text) (scanMembers scan' fuel done text) := by
  intro fuel
  induction fuel with
  | zero => exact fun _ _ => .refl _
  | succ fuel ih =>
      intro done text
      unfold scanMembers
      split
      · split
        · refine (Cut.refl _).bind ?_
          rintro ⟨key, rest⟩
          dsimp only
          split
          · split
            · refine (inner _).bind ?_
              rintro ⟨value, rest⟩
              dsimp only
              split
              · split
                · exact .refl _
                split
                · exact ih _ _
                · exact .refl _
              · exact .refl _
            · exact .refl _
          · exact .refl _
        · exact .refl _
      · exact .refl _

end Nested

/-- By induction on the calls the tighter scanner has left. -/
theorem scanOnce_cut {digits digits' : Nat} (wider : digits ≤ digits') :
    ∀ {depth depth' : Nat}, depth ≤ depth' → ∀ text : Str,
      Cut (scanOnce digits depth text) (scanOnce digits' depth' text) := by
  intro depth
  induction depth with
  | zero =>
      intro depth' _ text
      cases text with
      | nil =>
          unfold scanOnce
          exact .refl _
      | cons c rest =>
          unfold scanOnce
          dsimp only
          split
          · exact .refl _
          split
          · exact .inr (.inr rfl)
          split
          · exact .inr (.inr rfl)
          · exact scanScalar_cut wider _
  | succ depth ih =>
      intro depth' deeper text
      obtain ⟨below, rfl⟩ : ∃ below, depth' = below + 1 := ⟨depth' - 1, by omega⟩
      have inner := ih (show depth ≤ below by omega)
      cases text with
      | nil =>
          unfold scanOnce
          exact .refl _
      | cons c rest =>
          unfold scanOnce
          dsimp only
          split
          · exact .refl _
          split
          · split
            · exact .refl _
            split
            · exact .refl _
            · exact scanElements_cut inner _ _ _
          split
          · split
            · exact .refl _
            split
            · exact .refl _
            · exact scanMembers_cut inner _ _ _
          · exact scanScalar_cut wider _

theorem loadsWithin_cut {limits limits' : Limits} (deeper : limits.depth ≤ limits'.depth)
    (wider : limits.digits ≤ limits'.digits) (body : Bytes) :
    Cut (loadsWithin limits body) (loadsWithin limits' body) := by
  unfold loadsWithin
  split
  · exact .refl _
  · refine (scanOnce_cut wider deeper _).bind ?_
    rintro ⟨value, rest⟩
    exact .refl _

theorem loadsWithin_join (first second : Limits) (body : Bytes) :
    Cut (loadsWithin first body) (loadsWithin (first.join second) body) ∧
      Cut (loadsWithin second body) (loadsWithin (first.join second) body) :=
  ⟨loadsWithin_cut (Nat.le_max_left _ _) (Nat.le_max_left _ _) body,
    loadsWithin_cut (Nat.le_max_right _ _) (Nat.le_max_right _ _) body⟩

/-! ### What a text denotes -/

/-- The octets are a JSON text of the value. -/
def Denotes (body : Bytes) (value : Value) : Prop :=
  ∃ limits, loadsWithin limits body = .ok value

theorem Denotes.unique {body : Bytes} {value value' : Value} (denotes : Denotes body value)
    (other : Denotes body value') : value' = value := by
  obtain ⟨limits, read⟩ := denotes
  obtain ⟨limits', read'⟩ := other
  have joined := loadsWithin_join limits limits' body
  rw [read, read'] at joined
  exact Except.ok.inj (joined.2.of_ok.symm.trans joined.1.of_ok)

theorem denotes_of_loads {depth : Nat} {body : Bytes} {value : Value}
    (read : loads depth body = .ok value) : Denotes body value := ⟨_, read⟩

/-- `json.loads` reads the octets, within its limits. -/
def Within (depth : Nat) (body : Bytes) : Prop := ∃ value, loads depth body = .ok value

theorem not_within {depth : Nat} {body : Bytes} {reason : LoadsError}
    (stopped : loads depth body = .error reason) : ¬Within depth body := by
  rintro ⟨value, read⟩
  rw [stopped] at read
  cases read

/-- `json.loads` reads what a text denotes, or stops at one of its limits. -/
theorem Denotes.loads {body : Bytes} {value : Value} (denotes : Denotes body value)
    (depth : Nat) :
    loads depth body = .ok value ∨ loads depth body = .error .valueError ∨
      loads depth body = .error .recursionError := by
  obtain ⟨limits, read⟩ := denotes
  have joined := loadsWithin_join limits ⟨depth, maxStrDigits⟩ body
  rw [read] at joined
  have wide := joined.2
  rw [joined.1.of_ok] at wide
  exact wide

theorem Denotes.ne_nil {body : Bytes} {value : Value} (denotes : Denotes body value) :
    body ≠ [] := by
  rintro rfl
  obtain ⟨limits, read⟩ := denotes
  cases limits with
  | mk depth digits =>
      unfold loadsWithin at read
      cases depth with
      | zero => cases read
      | succ depth => cases read

end Python.Json

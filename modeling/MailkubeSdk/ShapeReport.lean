import Mathlib.Data.List.Dedup
import MailkubeSdk.FieldAddition
import MailkubeSdk.Schema.Mismatch
import MailkubeSdk.Traffic

/-
What the package says of a 2xx object that is not what it expected.

`_process_model` turns pydantic's locations into one line: each field that does
not fit, once, in the order of its text.  The line names all of them and no
other, and never a field the server left to its default.
-/

namespace MailkubeSdk

open Python Effect Schema

/-! ### The order of texts -/

theorem textLe_total (left right : Str) : (textLe left right || textLe right left) = true := by
  induction left generalizing right with
  | nil => rfl
  | cons a left ih =>
      cases right with
      | nil => rfl
      | cons b right =>
          by_cases same : a = b
          · subst same
            simp only [textLe, if_true]
            exact ih right
          · simp only [textLe, if_neg same, if_neg (Ne.symm same), Bool.or_eq_true,
              decide_eq_true_eq]
            exact Nat.lt_or_gt_of_ne (Fin.val_ne_of_ne same)

theorem textLe_trans (left middle right : Str) (first : textLe left middle = true)
    (second : textLe middle right = true) : textLe left right = true := by
  induction left generalizing middle right with
  | nil => rfl
  | cons a left ih =>
      cases middle with
      | nil => cases first
      | cons b middle =>
          cases right with
          | nil => cases second
          | cons c right =>
              by_cases ab : a = b
              · subst ab
                by_cases ac : a = c
                · subst ac
                  simp only [textLe, if_true] at first second ⊢
                  exact ih middle right first second
                · simp only [textLe, if_neg ac] at second ⊢
                  exact second
              · simp only [textLe, if_neg ab, decide_eq_true_eq] at first
                by_cases bc : b = c
                · subst bc
                  simp only [textLe, if_neg ab, decide_eq_true_eq]
                  exact first
                · simp only [textLe, if_neg bc, decide_eq_true_eq] at second
                  have below := Fin.lt_trans first second
                  simp only [textLe, if_neg (Fin.ne_of_lt below), decide_eq_true_eq]
                  exact below

/-- Strictly increasing, by code point. -/
def Increasing (texts : List Str) : Prop :=
  texts.Pairwise (fun left right => textLe left right = true ∧ left ≠ right)

theorem increasing_mergeSort {texts : List Str} (distinct : texts.Nodup) :
    Increasing (texts.mergeSort textLe) := by
  have sorted := List.pairwise_mergeSort textLe_trans textLe_total texts
  have apart : (texts.mergeSort textLe).Nodup :=
    (List.mergeSort_perm texts textLe).nodup_iff.mpr distinct
  exact sorted.and apart

/-! ### The line -/

/-- The fields of a report: every mismatch of the body and nothing else, in order. -/
structure NamesMismatches (platform : Platform) (model : Model) (body : Items Str Value)
    (names : List Str) : Prop where
  some : names ≠ []
  increasing : Increasing names
  exact : ∀ name, name ∈ names ↔
    ∃ path, model.shape.MismatchAt platform.lax (.dict body) path ∧
      name = (str ".").intercalate path

/-- The exception of a body that does not fit. -/
def unexpectedShape (model : Model) (status : Nat) (names : List Str) : Exn :=
  .mailkubeError (str "Unexpected " ++ model.name ++ str " shape in a " ++ natText status ++
    str " response: " ++ (str ", ").intercalate names ++ str ".")

variable (platform : Platform)

theorem processModel_object (model : Model) {response : Response} {body : Items Str Value}
    (success : isOkStatus response.statusCode = true)
    (object : decodeJson platform.runtime response.content = .ok (.dict body)) :
    (model.shape.Accepts platform.lax (.dict body) →
      ∃ value, processModel platform model response = .ok value) ∧
    (¬model.shape.Accepts platform.lax (.dict body) →
      ∃ names, NamesMismatches platform model body names ∧
        processModel platform model response =
          .error (unexpectedShape model response.statusCode names)) := by
  have read : okBody platform response = .ok (.dict body) := by
    unfold okBody
    rw [object]
    simp only [liftBuiltin_ok, bind, Except.bind, success, if_true]
  rw [← model.shape.succeeds_validate platform.lax]
  unfold processModel
  rw [read]
  simp only [bind, Except.bind]
  cases validated : model.shape.validate platform.lax (.dict body) with
  | ok value => exact ⟨fun _ => ⟨value, rfl⟩, fun refused => absurd ⟨value, rfl⟩ refused⟩
  | error errors =>
      refine ⟨fun fits => absurd fits (not_succeeds_error errors), fun _ => ?_⟩
      refine ⟨_, ⟨?_, increasing_mergeSort (List.nodup_dedup _), fun name => ?_⟩, rfl⟩
      · intro empty
        obtain ⟨first, rest, same⟩ := List.exists_cons_of_ne_nil (Ty.errors_ne_nil validated)
        have member : (str ".").intercalate first ∈
            ((errors.map ((str ".").intercalate ·)).dedup).mergeSort textLe := by
          rw [List.mem_mergeSort, List.mem_dedup, same]
          exact List.mem_cons_self
        rw [empty] at member
        cases member
      · rw [List.mem_mergeSort, List.mem_dedup, List.mem_map]
        have reports : ∀ path, path ∈ errors ↔
            model.shape.MismatchAt platform.lax (.dict body) path := by
          intro path
          rw [← model.shape.mem_reported_iff platform.lax, validated]
          rfl
        simp only [reports]
        exact exists_congr fun path => and_congr_right' eq_comm

/-! ### The models of the verbs -/

/-- The model a verb reads its response into; a send builds its own. -/
def Verb.model : Verb → Option Model
  | .emailsSend _ => none
  | .credentialInfo => some APIKey.model
  | .scheduledEmailsList _ => some ScheduledEmailPage.model
  | .scheduledEmailsGet _ => some ScheduledEmail.model
  | .scheduledEmailsUpdate _ _ => some ScheduledEmail.model
  | .scheduledEmailsCancel _ => some CanceledScheduledEmail.model
  | .batchesUpdate _ _ => some ScheduledEmailBatchUpdate.model
  | .batchesCancel _ => some ScheduledEmailBatchCancel.model

/-- An empty object reads as its defaults. -/
theorem fieldValue_nil (name wire : Str) (default : Option Value) :
    fieldValue name wire default [] = default := rfl

/-- The defaults of every response model pass their own checks. -/
theorem responseModels_defaultsFit (lax : Lax) :
    ∀ model ∈ responseModels, model.shape.DefaultsFit lax := by
  have zero : lax.int (.int 0) = some 0 := lax.int_exact 0
  have one : lax.int (.int 1) = some 1 := lax.int_exact 1
  simp only [responseModels, List.forall_mem_cons, List.not_mem_nil, false_implies, implies_true,
    and_true, Ty.DefaultsFit, Fields.DefaultsFit, reduceCtorEq, Option.some.injEq,
    forall_eq', Ty.Accepts, Fields.Accepts, true_or, zero, one, exists_eq', exists_eq_left',
    Value.str.injEq, Value.list.injEq, Value.dict.injEq, fieldValue_nil]

theorem Verb.model_mem {verb : Verb} {model : Model} (reads : verb.model = some model) :
    model ∈ responseModels := by
  unfold responseModels
  cases verb with
  | emailsSend params => cases reads
  | _ =>
      cases reads
      simp only [List.mem_cons, true_or, or_true]

/-- A verb with a model makes of its response what the model makes of it. -/
theorem Verb.parse_model {verb : Verb} {model : Model} (reads : verb.model = some model)
    (response : Response) :
    ((∃ value, verb.parse platform response = .ok value) ↔
      ∃ value, processModel platform model response = .ok value) ∧
    ∀ exn, verb.parse platform response = .error exn ↔
      processModel platform model response = .error exn := by
  cases verb with
  | emailsSend params => cases reads
  | _ =>
      cases reads
      exact ⟨Iff.rfl, fun exn => Iff.rfl⟩

/-! ### Runs -/

/-- A run with a 2xx object for its answer returns exactly when the object fits.
Otherwise it raises the line that names every mismatch, each of a member the object
has or of a required one it lacks. -/
theorem shape_reported (client : BaseClient) (flavour : Flavour) (server : Server) (past : Trace)
    {verb : Verb} {model : Model} (reads : verb.model = some model) {request : HttpRequest}
    {response : Response} {body : Items Str Value}
    (exchanged : exchanges ((call platform client flavour verb).run server past).events =
      [(request, .response response)])
    (success : isOkStatus response.statusCode = true)
    (object : decodeJson platform.runtime response.content = .ok (.dict body)) :
    let result := ((call platform client flavour verb).run server past).result
    ((∃ value, result = .ok value) ↔ model.shape.Accepts platform.lax (.dict body)) ∧
      (¬model.shape.Accepts platform.lax (.dict body) →
        ∃ names, NamesMismatches platform model body names ∧
          result = .error (unexpectedShape model response.statusCode names)) ∧
      ∀ path, model.shape.MismatchAt platform.lax (.dict body) path →
        model.shape.Blames body path := by
  have parsed : ((call platform client flavour verb).run server past).result =
      verb.parse platform response := by
    cases issued : verb.issued platform client with
    | error exn =>
        rw [verb_run_refused platform client issued] at exchanged
        cases exchanged
    | ok sent =>
        rw [verb_run_issued platform client issued flavour server past] at exchanged ⊢
        rw [exchanges_conversation] at exchanged
        have answer := congrArg Prod.snd (List.cons.inj exchanged).1
        dsimp only at answer ⊢
        rw [answer]
        rfl
  obtain ⟨returns, raises⟩ := verb.parse_model platform reads response
  obtain ⟨fits, unfit⟩ := processModel_object platform model success object
  rw [parsed]
  refine ⟨⟨fun returned => ?_, fun accepted => returns.mpr (fits accepted)⟩, fun refused => ?_,
    fun path => Ty.blames_of_mismatch
      (responseModels_defaultsFit platform.lax model (Verb.model_mem reads))⟩
  · by_contra refused
    obtain ⟨value, read⟩ := returns.mp returned
    obtain ⟨names, _, raised⟩ := unfit refused
    rw [read] at raised
    cases raised
  · obtain ⟨names, named, raised⟩ := unfit refused
    exact ⟨names, named, (raises _).mpr raised⟩

/-- A key whose name is a number, and which has no id. -/
def misshapenKey : Response := ⟨200, asciiBytes "\x7b\"name\":3\x7d", []⟩

def misshapenItems : Items Str Value := [(str "name", .int 3)]

private theorem misshapenKey_decoded :
    decodeJson Platform.plain.runtime misshapenKey.content = .ok (.dict misshapenItems) :=
  eq_ok_of_toOption (by decide +kernel)

private theorem misshapenKey_unfit :
    ¬APIKey.shape.Accepts Platform.plain.lax (.dict misshapenItems) := by
  rw [← Ty.succeeds_validate]
  have refused : (APIKey.shape.validate Platform.plain.lax
      (.dict misshapenItems)).toOption.isNone = true := by decide +kernel
  intro accepted
  obtain ⟨value, read⟩ := accepted
  rw [read] at refused
  cases refused

private theorem misshapenKey_exchanged :
    exchanges ((call Platform.plain defaultClient .sync .credentialInfo).run
        (fun _ _ => .response misshapenKey) []).events =
      [(httpRequest infoSpec (str "https://api.mailkube.com/mta/v1/api-keys/me")
        ((defaultClient.defaultHeaders Platform.plain).update []), .response misshapenKey)] := by
  have joined : defaultClient.buildUrl Platform.plain infoSpec.path =
      .ok (str "https://api.mailkube.com/mta/v1/api-keys/me") :=
    eq_ok_of_toOption (by decide +kernel)
  have built : Verb.built Platform.plain.runtime .credentialInfo = .ok infoSpec := rfl
  rw [call_reaches Platform.plain defaultClient built joined .sync (.response misshapenKey) []]
  rfl

theorem shape_reported_sample :
    ∃ names, NamesMismatches Platform.plain APIKey.model misshapenItems names ∧
      ((call Platform.plain defaultClient .sync .credentialInfo).run
        (fun _ _ => .response misshapenKey) []).result =
          .error (unexpectedShape APIKey.model 200 names) :=
  (shape_reported Platform.plain defaultClient .sync (fun _ _ => .response misshapenKey) []
    (show Verb.model .credentialInfo = some APIKey.model from rfl) misshapenKey_exchanged rfl
      misshapenKey_decoded).2.1 misshapenKey_unfit

end MailkubeSdk

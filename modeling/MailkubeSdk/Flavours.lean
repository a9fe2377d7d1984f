import MailkubeSdk.Client

/-
The two clients are one client.

The round trip of `AsyncMailkube` is that of `Mailkube` with a suspension point
at the call of the HTTP library, and every awaited verb adds suspension points
only.  An observer of a run cannot see them.
-/

namespace MailkubeSdk

open Python Effect

variable (platform : Platform) (client : BaseClient)

/-! ### The same program up to suspension points -/

theorem erase_awaiting {α : Type} (call : Sdk α) : (awaiting call).erase = call.erase := rfl

theorem erase_raw (spec : RequestSpec) :
    (AsyncMailkube.raw platform client spec).erase = (Mailkube.raw platform client spec).erase := by
  unfold AsyncMailkube.raw Mailkube.raw
  rw [Program.erase_bind, Program.erase_bind]
  rfl

theorem erase_sendEmail (params : Items Str Value) :
    (AsyncMailkube.sendEmail platform client params).erase =
      (Mailkube.sendEmail platform client params).erase := by
  unfold AsyncMailkube.sendEmail Mailkube.sendEmail withSpec
  simp only [Program.erase_bind, erase_awaiting, erase_raw]

theorem erase_request (spec : RequestSpec) (model : Model) :
    (AsyncMailkube.request platform client spec model).erase =
      (Mailkube.request platform client spec model).erase := by
  unfold AsyncMailkube.request Mailkube.request
  simp only [Program.erase_bind, erase_awaiting, erase_raw]

theorem erase_withSpec {α : Type} (spec : Except Builtin RequestSpec)
    {first second : RequestSpec → Sdk α} (same : ∀ spec, (first spec).erase = (second spec).erase) :
    (withSpec spec first).erase = (withSpec spec second).erase := by
  unfold withSpec
  simp only [Program.erase_bind, same]

theorem erase_call (verb : Verb) :
    (call platform client .async verb).erase = (call platform client .sync verb).erase := by
  cases verb with
  | emailsSend params => exact erase_sendEmail platform client params
  | credentialInfo => exact erase_request platform client infoSpec APIKey.model
  | scheduledEmailsList params =>
      exact erase_withSpec _ (fun spec => erase_request platform client spec _)
  | scheduledEmailsGet emailId =>
      exact erase_withSpec _ (fun spec => erase_request platform client spec _)
  | scheduledEmailsUpdate emailId params =>
      exact erase_withSpec _ (fun spec => erase_request platform client spec _)
  | scheduledEmailsCancel emailId =>
      exact erase_withSpec _ (fun spec => erase_request platform client spec _)
  | batchesUpdate batchId params =>
      exact erase_withSpec _ (fun spec => erase_request platform client spec _)
  | batchesCancel batchId =>
      exact erase_withSpec _ (fun spec => erase_request platform client spec _)

theorem erase_iterAll (params : Items Str Value) (state : IterAll) :
    (iterAll platform client .async params state).erase =
      (iterAll platform client .sync params state).erase := by
  cases state with
  | entry =>
      have listed := erase_call platform client (.scheduledEmailsList params)
      change (Program.bind (awaiting (call platform client .async (.scheduledEmailsList params)))
          _).erase =
        (Program.bind (call platform client .sync (.scheduledEmailsList params)) _).erase
      rw [Program.erase_bind, Program.erase_bind, erase_awaiting, listed]
  | within page rest =>
      cases rest with
      | cons item rest => rfl
      | nil =>
          unfold iterAll AsyncScheduledEmailsResource.iterAll ScheduledEmailsResource.iterAll
          cases more : nextPageSpec page with
          | none =>
              simp only [more]
          | some spec =>
              simp only [more]
              rw [Program.erase_bind, Program.erase_bind, erase_awaiting]
              exact congrArg (Program.bind · _) (erase_request platform client spec _)

/-! ### The same runs -/

theorem run_eq_of_erase_eq {α : Type} {first second : Sdk α} (same : first.erase = second.erase)
    (server : Server) (past : Trace) : first.run server past = second.run server past := by
  rw [← Program.run_erase server past first, same, Program.run_erase]

theorem call_run (flavour : Flavour) (verb : Verb) (server : Server) (past : Trace) :
    (call platform client flavour verb).run server past =
      (call platform client .sync verb).run server past := by
  cases flavour with
  | sync => rfl
  | async => exact run_eq_of_erase_eq (erase_call platform client verb) server past

theorem walk_eq (flavour : Flavour) (params : Items Str Value) (server : Server) (steps : Nat) :
    walk platform client flavour params server steps =
      walk platform client .sync params server steps := by
  cases flavour with
  | sync => rfl
  | async =>
      exact Walk.after_congr (fun state past =>
        run_eq_of_erase_eq (erase_iterAll platform client params state) server past) steps _

/-- The two clients issue the same requests, leave the same records and end in
the same way, verb by verb and at every step of every walk. -/
theorem clients_agree :
    (∀ verb server past, (call platform client .async verb).run server past =
      (call platform client .sync verb).run server past) ∧
    ∀ params server steps, walk platform client .async params server steps =
      walk platform client .sync params server steps :=
  ⟨fun verb server past => call_run platform client .async verb server past,
    fun params server steps => walk_eq platform client .async params server steps⟩

end MailkubeSdk

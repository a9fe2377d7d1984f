import MailkubeSdk.EventParsing
import MailkubeSdk.WebhookSignature

/-
What else than an answer comes out of webhook verification.

A delivery that reaches the digest is signed and compared by functions that are
partial on text, and a body that verifies is parsed by a validator with an
exception of its own.  Neither exception is caught.
-/

namespace MailkubeSdk

open Python Schema

/-- The raw body, or the one exception the verifier documents. -/
def Verdict (raw : Bytes) (outcome : Except Exn Bytes) : Prop :=
  outcome = .ok raw ∨ ∃ message, outcome = .error (.signatureVerificationError message)

/-- A delivery that passes every check before the digest: all three headers are
there and not empty, and the timestamp is well formed and fresh. -/
structure ReachesDigest (platform : Platform) (now : Datetime) (headers : Items Str Str)
    (tolerance : Int) (webhookId timestamp signature : Str) : Prop where
  id : requiredHeader platform headers idHeader = some webhookId
  ts : requiredHeader platform headers tsHeader = some timestamp
  sig : requiredHeader platform headers sigHeader = some signature
  fresh : checkFreshness now timestamp tolerance = .ok ()

/-- What is signed and the secret have UTF-8 encodings, and the signature without
its prefix is ASCII. -/
structure Comparable (webhookId timestamp signature secret : Str) : Prop where
  signed : ∃ octets, encodeText (webhookId ++ str "." ++ timestamp ++ str ".") = .ok octets
  secret : ∃ octets, encodeText secret = .ok octets
  signature : isAsciiText (providedDigest signature) = true

/-! ### The verifier -/

theorem checkFreshness_cases (now : Datetime) (timestamp : Str) (tolerance : Int) :
    checkFreshness now timestamp tolerance = .ok () ∨
      ∃ message, checkFreshness now timestamp tolerance =
        .error (.signatureVerificationError message) := by
  unfold checkFreshness
  cases Datetime.fromisoformat timestamp with
  | none => exact .inr ⟨_, rfl⟩
  | some parsed =>
      cases outside : isOutside now parsed tolerance with
      | true => exact .inr ⟨_, by simp only [outside, if_true]; rfl⟩
      | false => exact .inl (by simp only [outside, Bool.false_eq_true, if_false])

variable {platform : Platform} {now : Datetime} {payload : Payload} {raw : Bytes}
  {headers : Items Str Str} {secret : Str} {tolerance : Int}

theorem verifySignature_stopped (valid : asBytes payload = .ok raw)
    (stopped : ∀ webhookId timestamp signature,
      ¬ReachesDigest platform now headers tolerance webhookId timestamp signature) :
    ∃ message, verifySignature platform now payload headers secret tolerance =
      .error (.signatureVerificationError message) := by
  unfold verifySignature
  rw [valid, liftBuiltin_ok]
  cases id : requiredHeader platform headers idHeader with
  | none => exact ⟨_, rfl⟩
  | some webhookId =>
      cases ts : requiredHeader platform headers tsHeader with
      | none => exact ⟨_, rfl⟩
      | some timestamp =>
          cases sig : requiredHeader platform headers sigHeader with
          | none => exact ⟨_, rfl⟩
          | some signature =>
              rcases checkFreshness_cases now timestamp tolerance with fresh | ⟨message, stale⟩
              · exact absurd ⟨id, ts, sig, fresh⟩ (stopped webhookId timestamp signature)
              · refine ⟨message, ?_⟩
                simp only [bind, Except.bind, stale]

theorem verifySignature_reached {webhookId timestamp signature : Str}
    (valid : asBytes payload = .ok raw)
    (reached : ReachesDigest platform now headers tolerance webhookId timestamp signature) :
    verifySignature platform now payload headers secret tolerance = (do
      let expected ← liftBuiltin (signatureHex platform webhookId timestamp raw secret)
      let same ← liftBuiltin (compareDigest expected (providedDigest signature))
      if same then .ok raw
      else .error (.signatureVerificationError (str "Webhook signature mismatch."))) := by
  unfold verifySignature
  rw [valid, liftBuiltin_ok, reached.id, reached.ts, reached.sig]
  simp only [bind, Except.bind, reached.fresh]

theorem signatureHex_reads_iff {webhookId timestamp : Str} :
    (∃ digest, signatureHex platform webhookId timestamp raw secret = .ok digest) ↔
      (∃ octets, encodeText (webhookId ++ str "." ++ timestamp ++ str ".") = .ok octets) ∧
        ∃ octets, encodeText secret = .ok octets := by
  unfold signatureHex signingInput
  cases encodeText (webhookId ++ str "." ++ timestamp ++ str ".") with
  | error exception =>
      apply iff_of_false
      · rintro ⟨digest, made⟩
        cases made
      · rintro ⟨⟨octets, made⟩, _⟩
        cases made
  | ok front =>
      cases encodeText secret with
      | error exception =>
          apply iff_of_false
          · rintro ⟨digest, made⟩
            cases made
          · rintro ⟨_, octets, made⟩
            cases made
      | ok key => exact iff_of_true ⟨_, rfl⟩ ⟨⟨_, rfl⟩, _, rfl⟩

theorem reachesDigest_delivery {webhookId timestamp signature : Str} (idNonempty : webhookId ≠ [])
    (tsNonempty : timestamp ≠ []) (sigNonempty : signature ≠ [])
    (fresh : checkFreshness now timestamp tolerance = .ok ()) :
    ReachesDigest platform now (deliveryHeaders webhookId timestamp signature) tolerance webhookId
      timestamp signature := by
  obtain ⟨id, ts, sig⟩ := deliveryHeaders_get platform.runtime webhookId timestamp signature
  refine ⟨?_, ?_, ?_, fresh⟩
  · unfold requiredHeader
    rw [id, Option.filter_some, if_pos (decide_eq_true idNonempty)]
  · unfold requiredHeader
    rw [ts, Option.filter_some, if_pos (decide_eq_true tsNonempty)]
  · unfold requiredHeader
    rw [sig, Option.filter_some, if_pos (decide_eq_true sigNonempty)]

/-- `compare_digest` does not take text beyond ASCII. -/
theorem verifySignature_beyond_ascii {webhookId timestamp signature digest : Str}
    (valid : asBytes payload = .ok raw)
    (reached : ReachesDigest platform now headers tolerance webhookId timestamp signature)
    (computed : signatureHex platform webhookId timestamp raw secret = .ok digest)
    (beyond : isAsciiText (providedDigest signature) = false) :
    verifySignature platform now payload headers secret tolerance =
      .error (.builtin .typeError) := by
  have unequal : compareDigest digest (providedDigest signature) = .error .typeError := by
    unfold compareDigest
    rw [beyond, Bool.and_false]
    rfl
  rw [verifySignature_reached valid reached, computed]
  simp only [liftBuiltin_ok, bind, Except.bind, unequal]
  rfl

theorem verdict_reached_iff {webhookId timestamp signature : Str}
    (valid : asBytes payload = .ok raw)
    (reached : ReachesDigest platform now headers tolerance webhookId timestamp signature) :
    Verdict raw (verifySignature platform now payload headers secret tolerance) ↔
      Comparable webhookId timestamp signature secret := by
  have reads := @signatureHex_reads_iff platform raw secret webhookId timestamp
  cases computed : signatureHex platform webhookId timestamp raw secret with
  | error exception =>
      rw [verifySignature_reached valid reached, computed]
      apply iff_of_false
      · rintro (accepted | ⟨message, raised⟩)
        · cases accepted
        · cases raised
      · intro comparable
        obtain ⟨digest, made⟩ := reads.mpr ⟨comparable.signed, comparable.secret⟩
        rw [computed] at made
        cases made
  | ok digest =>
      obtain ⟨signed, key⟩ := reads.mp ⟨digest, computed⟩
      cases provided : isAsciiText (providedDigest signature) with
      | false =>
          rw [verifySignature_beyond_ascii valid reached computed provided]
          apply iff_of_false
          · rintro (accepted | ⟨message, raised⟩)
            · cases accepted
            · cases raised
          · intro comparable
            rw [comparable.signature] at provided
            cases provided
      | true =>
          refine iff_of_true ?_ ⟨signed, key, provided⟩
          have hex := (signatureHex_shape computed).2
          rw [verifySignature_reached valid reached, computed]
          simp only [liftBuiltin_ok, bind, Except.bind,
            compareDigest_ascii (isAsciiText_of_hex hex) provided]
          cases digest == providedDigest signature with
          | true => exact .inl rfl
          | false => exact .inr ⟨_, rfl⟩

/-- The verifier answers or raises its one documented exception exactly when a
delivery that reaches the digest can be signed and compared. -/
theorem verifySignature_verdict_iff (valid : asBytes payload = .ok raw) :
    Verdict raw (verifySignature platform now payload headers secret tolerance) ↔
      ∀ webhookId timestamp signature,
        ReachesDigest platform now headers tolerance webhookId timestamp signature →
          Comparable webhookId timestamp signature secret := by
  constructor
  · intro verdict webhookId timestamp signature reached
    exact (verdict_reached_iff valid reached).mp verdict
  · intro comparable
    by_cases reaches : ∃ webhookId timestamp signature,
        ReachesDigest platform now headers tolerance webhookId timestamp signature
    · obtain ⟨webhookId, timestamp, signature, reached⟩ := reaches
      exact (verdict_reached_iff valid reached).mpr (comparable _ _ _ reached)
    · apply Or.inr
      apply verifySignature_stopped valid
      intro webhookId timestamp signature reached
      exact reaches ⟨webhookId, timestamp, signature, reached⟩

/-! ### A signature beyond ASCII -/

/-- The headers of the sample delivery, the signature being one accented letter. -/
def accentedHeaders : Items Str Str :=
  deliveryHeaders (str "evt_1") (str "2026-01-01T00:00:00") (str "sha256=é")

theorem verifySignature_verdict_iff_sample :
    Verdict (asciiBytes "5.x") (verifySignature samplePlatform sampleClock
        (.bytes (asciiBytes "5.x")) accentedHeaders (str "whsec") 300) ↔
      ∀ webhookId timestamp signature,
        ReachesDigest samplePlatform sampleClock accentedHeaders 300 webhookId timestamp
            signature → Comparable webhookId timestamp signature (str "whsec") :=
  verifySignature_verdict_iff rfl

private theorem sample_fresh :
    checkFreshness sampleClock (str "2026-01-01T00:00:00") 300 = .ok () :=
  eq_ok_of_toOption (by decide +kernel)

/-- The comparison raises `TypeError` on a signature an unauthenticated sender chose. -/
theorem accented_signature_escapes :
    verifySignature samplePlatform sampleClock (.bytes (asciiBytes "5.x")) accentedHeaders
        (str "whsec") 300 = .error (.builtin .typeError) ∧
      ¬Verdict (asciiBytes "5.x") (verifySignature samplePlatform sampleClock
        (.bytes (asciiBytes "5.x")) accentedHeaders (str "whsec") 300) := by
  obtain ⟨digest, computed⟩ := (@signatureHex_reads_iff samplePlatform (asciiBytes "5.x")
    (str "whsec") (str "evt_1") (str "2026-01-01T00:00:00")).mpr
      ⟨⟨_, eq_ok_of_toOption rfl⟩, _, eq_ok_of_toOption rfl⟩
  have escaped : verifySignature samplePlatform sampleClock (.bytes (asciiBytes "5.x"))
      accentedHeaders (str "whsec") 300 = .error (.builtin .typeError) :=
    verifySignature_beyond_ascii rfl
      (reachesDigest_delivery (by decide) (by decide) (by decide) sample_fresh) computed
      (by decide)
  refine ⟨escaped, ?_⟩
  rw [escaped]
  rintro (accepted | ⟨message, raised⟩)
  · cases accepted
  · cases raised

/-! ### Parsing what was verified -/

/-- No exception from outside the package's hierarchy. -/
def StaysInside {α : Type} (outcome : Except Exn α) : Prop :=
  ∀ exn, outcome = .error exn → exn.isMailkubeError = true

/-- A delivery with three valid, fresh headers and the signature `sign` computes. -/
structure SignedDelivery (platform : Platform) (now : Datetime) (payload : Payload)
    (headers : Items Str Str) (secret : Str) (tolerance : Int)
    (webhookId timestamp signature : Str) : Prop where
  reached : ReachesDigest platform now headers tolerance webhookId timestamp signature
  signed : sign platform webhookId timestamp payload secret = .ok signature

/-- The body is JSON and fits the model its type selects. -/
def EventBody (platform : Platform) (raw : Bytes) : Prop :=
  ∃ value, platform.readJson raw = some value ∧
    (armOf (eventDiscriminator value)).shape.Accepts platform.lax value

theorem verify_signed {webhookId timestamp signature : Str}
    (delivery : SignedDelivery platform now payload headers secret tolerance webhookId timestamp
      signature) (read : asBytes payload = .ok raw) :
    verify platform now payload headers secret tolerance = parseEvent platform (.bytes raw) := by
  obtain ⟨raw', digest, same, computed, rfl⟩ := sign_eq_ok delivery.signed
  cases Except.ok.inj (read.symm.trans same)
  have hex := (signatureHex_shape computed).2
  unfold verify
  rw [verifySignature_reached read delivery.reached, computed, providedDigest_prefixed,
    liftBuiltin_ok]
  simp only [bind, Except.bind, compareDigest_hex hex hex, liftBuiltin_ok, beq_self_eq_true,
    if_true]

theorem validateEvent_succeeds_iff (lax : Lax) (value : Value) :
    Succeeds (validateEvent lax value) ↔
      (armOf (eventDiscriminator value)).shape.Accepts lax value :=
  (succeeds_map _ _).trans (Ty.succeeds_validate _ _ _)

theorem parseEvent_inside_iff : StaysInside (parseEvent platform (.bytes raw)) ↔
    EventBody platform raw := by
  unfold parseEvent EventBody StaysInside
  simp only [asBytes, liftBuiltin_ok, bind, Except.bind]
  cases platform.readJson raw with
  | none =>
      apply iff_of_false
      · intro inside
        cases inside _ rfl
      · rintro ⟨value, found, _⟩
        cases found
  | some value =>
      simp only [Option.some.injEq, exists_eq_left']
      rw [← validateEvent_succeeds_iff]
      cases validateEvent platform.lax value with
      | ok event =>
          refine iff_of_true ?_ ⟨event, rfl⟩
          intro exn raised
          cases raised
      | error errors =>
          apply iff_of_false
          · intro inside
            cases inside _ rfl
          · exact not_succeeds_error errors

/-- On a correctly signed delivery `verify` stays inside the hierarchy exactly
when the body is JSON and fits the model its type selects. -/
theorem verify_signed_inside_iff {webhookId timestamp signature : Str}
    (delivery : SignedDelivery platform now payload headers secret tolerance webhookId timestamp
      signature) (read : asBytes payload = .ok raw) :
    StaysInside (verify platform now payload headers secret tolerance) ↔
      EventBody platform raw := by
  rw [verify_signed delivery read]
  exact parseEvent_inside_iff

/-! ### A signed empty object -/

def emptyObject : Bytes := asciiBytes "\x7b\x7d"

def emptyObjectSignature : Str :=
  signaturePrefix ++ Codecs.hexdigest (sampleDigest (asciiBytes "whsec")
    (asciiBytes "evt_1.2026-01-01T00:00:00." ++ emptyObject))

def emptyObjectHeaders : Items Str Str :=
  deliveryHeaders (str "evt_1") (str "2026-01-01T00:00:00") emptyObjectSignature

private theorem emptyObject_delivery :
    SignedDelivery samplePlatform sampleClock (.bytes emptyObject) emptyObjectHeaders (str "whsec")
      300 (str "evt_1") (str "2026-01-01T00:00:00") emptyObjectSignature := by
  refine ⟨reachesDigest_delivery (by decide) (by decide) (by decide) sample_fresh, ?_⟩
  exact eq_ok_of_toOption (by decide +kernel)

theorem verify_signed_inside_iff_sample :
    StaysInside (verify samplePlatform sampleClock (.bytes emptyObject) emptyObjectHeaders
      (str "whsec") 300) ↔ EventBody samplePlatform emptyObject :=
  verify_signed_inside_iff emptyObject_delivery rfl

/-- A signed empty object raises pydantic's `ValidationError`. -/
theorem signed_empty_object_escapes :
    sign samplePlatform (str "evt_1") (str "2026-01-01T00:00:00") (.bytes emptyObject)
        (str "whsec") = .ok emptyObjectSignature ∧
      verify samplePlatform sampleClock (.bytes emptyObject) emptyObjectHeaders (str "whsec") 300 =
        .error .validationError ∧
      ¬StaysInside (verify samplePlatform sampleClock (.bytes emptyObject) emptyObjectHeaders
        (str "whsec") 300) := by
  have read : samplePlatform.readJson emptyObject = some (.dict []) := by decide +kernel
  have escaped : verify samplePlatform sampleClock (.bytes emptyObject) emptyObjectHeaders
      (str "whsec") 300 = .error .validationError := by
    rw [verify_signed emptyObject_delivery rfl]
    unfold parseEvent
    simp only [asBytes, liftBuiltin_ok, bind, Except.bind, read]
    rfl
  refine ⟨emptyObject_delivery.signed, escaped, ?_⟩
  intro inside
  cases inside _ escaped

end MailkubeSdk

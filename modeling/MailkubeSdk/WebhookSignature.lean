import MailkubeSdk.Webhooks

/-
What a webhook signature binds, and when a delivery is fresh.

The two halves, `sign` and `verify_signature`, compute the same digest over the
same signed input.  The input determines the id, the timestamp and the body
only up to the dots in the first two, and the age of a delivery is compared
after one rounding to a float.
-/

namespace MailkubeSdk

open Python

/-! ### Reading the headers -/

/-- A header that is there, under any spelling of its name, with one value. -/
structure Carries (runtime : Runtime) (headers : Items Str Str) (name value : Str) : Prop where
  present : ∃ key, (key, value) ∈ headers ∧ runtime.lower key = name
  unique : ∀ item ∈ headers, runtime.lower item.1 = name → item.2 = value

theorem Carries.getHeader {runtime : Runtime} {headers : Items Str Str} {name value : Str}
    (carries : Carries runtime headers name value) :
    getHeader runtime headers name = some value := by
  unfold MailkubeSdk.getHeader
  cases found : headers.find? (fun item => runtime.lower item.1 == name) with
  | none =>
      obtain ⟨key, member, spelled⟩ := carries.present
      have absent := List.find?_eq_none.mp found (key, value) member
      rw [spelled, beq_self_eq_true] at absent
      exact absurd rfl absent
  | some item =>
      have named := List.find?_some found
      rw [Option.map_some, carries.unique item (List.mem_of_find?_eq_some found) (eq_of_beq named)]

theorem Carries.required {platform : Platform} {headers : Items Str Str} {name value : Str}
    (carries : Carries platform.runtime headers name value) (nonempty : value ≠ []) :
    requiredHeader platform headers name = some value := by
  unfold requiredHeader
  rw [carries.getHeader, Option.filter_some, if_pos (decide_eq_true nonempty)]

/-- The headers of a delivery, as the platform spells them. -/
def deliveryHeaders (webhookId timestamp signature : Str) : Items Str Str :=
  [(str "X-Webhook-Id", webhookId), (str "X-Webhook-Ts", timestamp),
    (str "X-Webhook-Sig", signature)]

private theorem lower_delivery_names (runtime : Runtime) :
    runtime.lower (str "X-Webhook-Id") = idHeader ∧
      runtime.lower (str "X-Webhook-Ts") = tsHeader ∧
        runtime.lower (str "X-Webhook-Sig") = sigHeader := by
  rw [runtime.lower_str _ (by decide), runtime.lower_str _ (by decide),
    runtime.lower_str _ (by decide)]
  decide

theorem deliveryHeaders_get (runtime : Runtime) (webhookId timestamp signature : Str) :
    getHeader runtime (deliveryHeaders webhookId timestamp signature) idHeader = some webhookId ∧
      getHeader runtime (deliveryHeaders webhookId timestamp signature) tsHeader =
        some timestamp ∧
      getHeader runtime (deliveryHeaders webhookId timestamp signature) sigHeader =
        some signature := by
  obtain ⟨spelledId, spelledTs, spelledSig⟩ := lower_delivery_names runtime
  simp only [getHeader, deliveryHeaders, List.find?_cons, spelledId, spelledTs, spelledSig]
  exact ⟨rfl, rfl, rfl⟩

/-! ### The signature value -/

theorem sign_eq_ok {platform : Platform} {webhookId timestamp secret signature : Str}
    {payload : Payload}
    (signed : sign platform webhookId timestamp payload secret = .ok signature) :
    ∃ raw digest, asBytes payload = .ok raw ∧
      signatureHex platform webhookId timestamp raw secret = .ok digest ∧
        signature = signaturePrefix ++ digest := by
  unfold sign at signed
  cases encoded : asBytes payload with
  | error exception =>
      rw [encoded] at signed
      cases signed
  | ok raw =>
      rw [encoded] at signed
      cases computed : signatureHex platform webhookId timestamp raw secret with
      | error exception =>
          simp only [bind, Except.bind, computed] at signed
          cases signed
      | ok digest =>
          simp only [bind, Except.bind, computed] at signed
          exact ⟨raw, digest, rfl, computed, (Except.ok.inj signed).symm⟩

theorem signatureHex_eq_ok {platform : Platform} {webhookId timestamp secret digest : Str}
    {raw : Bytes} (computed : signatureHex platform webhookId timestamp raw secret = .ok digest) :
    ∃ input key, signingInput webhookId timestamp raw = .ok input ∧ encodeText secret = .ok key ∧
      digest = Codecs.hexdigest (platform.hmacSha256 key input) := by
  unfold signatureHex at computed
  cases built : signingInput webhookId timestamp raw with
  | error exception =>
      rw [built] at computed
      cases computed
  | ok input =>
      rw [built] at computed
      cases encoded : encodeText secret with
      | error exception =>
          simp only [bind, Except.bind, encoded] at computed
          cases computed
      | ok key =>
          simp only [bind, Except.bind, encoded] at computed
          exact ⟨input, key, rfl, rfl, (Except.ok.inj computed).symm⟩

theorem signatureHex_shape {platform : Platform} {webhookId timestamp secret digest : Str}
    {raw : Bytes} (computed : signatureHex platform webhookId timestamp raw secret = .ok digest) :
    digest ≠ [] ∧ ∀ c ∈ digest, Codecs.isHexChar c = true := by
  obtain ⟨input, key, -, -, rfl⟩ := signatureHex_eq_ok computed
  exact ⟨Codecs.hexdigest_ne_nil (platform.hmac_nonempty key input), Codecs.hexdigest_chars _⟩

theorem providedDigest_prefixed (digest : Str) :
    providedDigest (signaturePrefix ++ digest) = digest := by
  unfold providedDigest
  rw [List.take_left, if_pos rfl, List.drop_left]

theorem providedDigest_bare {digest : Str} (hex : ∀ c ∈ digest, Codecs.isHexChar c = true) :
    providedDigest digest = digest := by
  unfold providedDigest
  rw [if_neg]
  intro starts
  cases digest with
  | nil => cases starts
  | cons c rest =>
      have first : c = cp 's' := (List.cons.inj starts).1
      have letter := hex c List.mem_cons_self
      rw [first] at letter
      exact absurd letter (by decide)

theorem compareDigest_ascii {expected provided : Str} (asciiExpected : isAsciiText expected = true)
    (asciiProvided : isAsciiText provided = true) :
    compareDigest expected provided = .ok (expected == provided) := by
  unfold compareDigest
  rw [asciiExpected, asciiProvided]
  rfl

theorem isAsciiText_of_hex {text : Str} (hex : ∀ c ∈ text, Codecs.isHexChar c = true) :
    isAsciiText text = true :=
  List.all_eq_true.mpr (fun c member => Codecs.ascii_of_hexChar (hex c member))

theorem compareDigest_hex {expected provided : Str}
    (hexExpected : ∀ c ∈ expected, Codecs.isHexChar c = true)
    (hexProvided : ∀ c ∈ provided, Codecs.isHexChar c = true) :
    compareDigest expected provided = .ok (expected == provided) :=
  compareDigest_ascii (isAsciiText_of_hex hexExpected) (isAsciiText_of_hex hexProvided)

/-! ### What a signature binds -/

theorem signingInput_parts {webhookId timestamp : Str} {raw input : Bytes}
    (built : signingInput webhookId timestamp raw = .ok input) :
    ∃ front middle, Utf8.encode webhookId = some front ∧ Utf8.encode timestamp = some middle ∧
      input = front ++ 46 :: (middle ++ 46 :: raw) := by
  unfold signingInput encodeText at built
  have dot : Utf8.encode (str ".") = some [46] := by decide
  rw [Utf8.encode_append, Utf8.encode_append, Utf8.encode_append, dot] at built
  cases encodedId : Utf8.encode webhookId with
  | none =>
      rw [encodedId] at built
      cases built
  | some front =>
      cases encodedTs : Utf8.encode timestamp with
      | none =>
          rw [encodedId, encodedTs] at built
          cases built
      | some middle =>
          rw [encodedId, encodedTs] at built
          refine ⟨front, middle, rfl, rfl, ?_⟩
          rw [← Except.ok.inj built]
          simp only [List.append_assoc, List.cons_append, List.nil_append]

/-- The signed input determines the id, the timestamp and the body as soon as
the dots in the first two are counted. -/
theorem signingInput_eq_iff {webhookId timestamp webhookId' timestamp' : Str} {raw raw' : Bytes}
    {input : Bytes} (built : signingInput webhookId timestamp raw = .ok input)
    (built' : signingInput webhookId' timestamp' raw' = .ok input) :
    (webhookId' = webhookId ∧ timestamp' = timestamp ∧ raw' = raw) ↔
      webhookId'.count (cp '.') = webhookId.count (cp '.') ∧
        timestamp'.count (cp '.') = timestamp.count (cp '.') := by
  constructor
  · rintro ⟨rfl, rfl, rfl⟩
    exact ⟨rfl, rfl⟩
  · rintro ⟨idDots, tsDots⟩
    obtain ⟨front, middle, encodedId, encodedTs, shape⟩ := signingInput_parts built
    obtain ⟨front', middle', encodedId', encodedTs', shape'⟩ := signingInput_parts built'
    have same : front' ++ 46 :: (middle' ++ 46 :: raw') = front ++ 46 :: (middle ++ 46 :: raw) :=
      shape'.symm.trans shape
    have dots : ∀ {text : Str} {octets : Bytes}, Utf8.encode text = some octets →
        octets.count 46 = text.count (cp '.') :=
      fun encoded => Utf8.count_encode (d := cp '.') encoded (by decide)
    obtain ⟨rfl, rest⟩ := append_cons_inj_of_count same
      (by rw [dots encodedId', dots encodedId, idDots])
    obtain ⟨rfl, bodies⟩ := append_cons_inj_of_count rest
      (by rw [dots encodedTs', dots encodedTs, tsDots])
    exact ⟨Utf8.encode_injective encodedId' encodedId, Utf8.encode_injective encodedTs' encodedTs,
      bodies⟩

theorem verifySignature_eq_ok {platform : Platform} {now : Datetime} {payload : Payload}
    {headers : Items Str Str} {secret : Str} {tolerance : Int} {out : Bytes}
    (accepted : verifySignature platform now payload headers secret tolerance = .ok out) :
    ∃ webhookId timestamp signature expected,
      requiredHeader platform headers idHeader = some webhookId ∧
      requiredHeader platform headers tsHeader = some timestamp ∧
      requiredHeader platform headers sigHeader = some signature ∧
      asBytes payload = .ok out ∧ checkFreshness now timestamp tolerance = .ok () ∧
      signatureHex platform webhookId timestamp out secret = .ok expected ∧
      providedDigest signature = expected := by
  unfold verifySignature at accepted
  cases encoded : asBytes payload with
  | error exception =>
      rw [encoded] at accepted
      cases accepted
  | ok raw =>
      rw [encoded] at accepted
      simp only [liftBuiltin_ok, bind, Except.bind] at accepted
      split at accepted
      · rename_i webhookId timestamp signature hId hTs hSig
        cases fresh : checkFreshness now timestamp tolerance with
        | error exception =>
            rw [fresh] at accepted
            cases accepted
        | ok nothing =>
            cases computed : signatureHex platform webhookId timestamp raw secret with
            | error exception =>
                rw [fresh, computed] at accepted
                cases accepted
            | ok expected =>
                rw [fresh, computed] at accepted
                simp only [liftBuiltin_ok, compareDigest] at accepted
                split at accepted
                · cases accepted
                · rename_i same compared
                  split at accepted
                  · rename_i equal
                    cases accepted
                    refine ⟨webhookId, timestamp, signature, expected, hId, hTs, hSig, rfl, fresh,
                      computed, ?_⟩
                    split at compared
                    · have truth : (expected == providedDigest signature) = true :=
                        (Except.ok.inj compared).trans equal
                      exact (eq_of_beq truth).symm
                    · cases compared
                  · cases accepted
      · cases accepted

/-- A delivery under someone else's signature is accepted only if it signs the
same octets; it is then the same delivery exactly when the dots of its id and of
its timestamp are as many. -/
theorem signature_binds (platform : Platform)
    (injective : ∀ key, Function.Injective (platform.hmacSha256 key))
    (webhookId timestamp webhookId' timestamp' : Str) (body body' : Bytes) (secret signature : Str)
    (now : Datetime) (tolerance : Int) (out : Bytes)
    (signed : sign platform webhookId timestamp (.bytes body) secret = .ok signature)
    (accepted : verifySignature platform now (.bytes body')
      (deliveryHeaders webhookId' timestamp' signature) secret tolerance = .ok out) :
    signingInput webhookId' timestamp' body' = signingInput webhookId timestamp body ∧
      ((webhookId' = webhookId ∧ timestamp' = timestamp ∧ body' = body) ↔
        webhookId'.count (cp '.') = webhookId.count (cp '.') ∧
          timestamp'.count (cp '.') = timestamp.count (cp '.')) := by
  obtain ⟨raw, digest, rawEq, computed, rfl⟩ := sign_eq_ok signed
  obtain rfl : body = raw := Except.ok.inj rawEq
  obtain ⟨foundId, foundTs, foundSig, expected, hId, hTs, hSig, outEq, -, recomputed, provided⟩ :=
    verifySignature_eq_ok accepted
  obtain rfl : body' = out := Except.ok.inj outEq
  obtain ⟨getId, getTs, getSig⟩ := deliveryHeaders_get platform.runtime webhookId' timestamp'
    (signaturePrefix ++ digest)
  obtain rfl : webhookId' = foundId := by
    unfold requiredHeader at hId
    rw [getId] at hId
    exact (Option.filter_eq_some_iff.mp hId).1 |> Option.some.inj
  obtain rfl : timestamp' = foundTs := by
    unfold requiredHeader at hTs
    rw [getTs] at hTs
    exact (Option.filter_eq_some_iff.mp hTs).1 |> Option.some.inj
  obtain rfl : signaturePrefix ++ digest = foundSig := by
    unfold requiredHeader at hSig
    rw [getSig] at hSig
    exact (Option.filter_eq_some_iff.mp hSig).1 |> Option.some.inj
  obtain ⟨input, key, built, encodedKey, rfl⟩ := signatureHex_eq_ok computed
  obtain ⟨input', key', built', encodedKey', rfl⟩ := signatureHex_eq_ok recomputed
  obtain rfl : key = key' := Except.ok.inj (encodedKey.symm.trans encodedKey')
  rw [providedDigest_prefixed] at provided
  have inputs : input = input' := injective key (Codecs.hexdigest_injective provided)
  rw [inputs] at built
  exact ⟨built'.trans built.symm, signingInput_eq_iff built built'⟩

/-! ### Two deliveries under one signature -/

/-- `evt_1`, midnight of 2026-01-01 and the body `5.x`, or half a second later and `x`. -/
def sampleMessage : Bytes := asciiBytes "evt_1.2026-01-01T00:00:00.5.x"

/-- A digest without collisions, which is HMAC-SHA256 on the sample message under
the key `whsec`. -/
def sampleDigest (_key message : Bytes) : Bytes :=
  if message = sampleMessage then
    [185, 208, 58, 172, 1, 246, 143, 67, 96, 58, 16, 177, 20, 166, 97, 129, 125, 189, 58, 105, 104,
      165, 87, 28, 219, 146, 55, 43, 147, 251, 133, 110]
  else List.replicate 33 0 ++ message

theorem sampleDigest_injective (key : Bytes) : Function.Injective (sampleDigest key) := by
  have longer : ∀ other, other ≠ sampleMessage →
      sampleDigest key sampleMessage ≠ sampleDigest key other := by
    intro other different same
    unfold sampleDigest at same
    rw [if_pos rfl, if_neg different] at same
    have lengths := congrArg List.length same
    rw [List.length_append, List.length_replicate] at lengths
    simp only [List.length_cons, List.length_nil] at lengths
    omega
  intro left right same
  by_cases isLeft : left = sampleMessage
  · by_contra different
    rw [isLeft] at same different
    exact longer right (Ne.symm different) same
  · by_cases isRight : right = sampleMessage
    · rw [isRight] at same
      exact absurd same.symm (longer left isLeft)
    · unfold sampleDigest at same
      rw [if_neg isLeft, if_neg isRight] at same
      exact List.append_cancel_left same

def samplePlatform : Platform :=
  Platform.ascii sampleDigest (by
    intro key message
    unfold sampleDigest
    split <;> exact List.cons_ne_nil _ _)

def sampleSignature : Str :=
  signaturePrefix ++ Codecs.hexdigest (sampleDigest [] sampleMessage)

/-- 2026-01-01, a microsecond after midnight. -/
def sampleClock : Datetime where
  year := 2026
  month := 1
  day := 1
  hour := 0
  minute := 0
  second := 0
  microsecond := 1
  offset := some 0
  yearRange := by decide
  monthRange := by decide
  dayRange := by decide
  timeRange := by decide
  offsetRange _ given := by
    rw [← Option.some.inj given]
    decide

/-- The signature of one cut of the message, delivered with another. -/
theorem signature_binds_sample :
    signingInput (str "evt_1") (str "2026-01-01T00:00:00.5") (asciiBytes "x") =
        signingInput (str "evt_1") (str "2026-01-01T00:00:00") (asciiBytes "5.x") ∧
      ((str "evt_1" = str "evt_1" ∧ str "2026-01-01T00:00:00.5" = str "2026-01-01T00:00:00" ∧
          asciiBytes "x" = asciiBytes "5.x") ↔
        (str "evt_1").count (cp '.') = (str "evt_1").count (cp '.') ∧
          (str "2026-01-01T00:00:00.5").count (cp '.') =
            (str "2026-01-01T00:00:00").count (cp '.')) :=
  signature_binds samplePlatform sampleDigest_injective (str "evt_1") (str "2026-01-01T00:00:00")
    (str "evt_1") (str "2026-01-01T00:00:00.5") (asciiBytes "5.x") (asciiBytes "x") (str "whsec")
    sampleSignature sampleClock 300 (asciiBytes "x") (eq_ok_of_toOption (by decide +kernel))
    (eq_ok_of_toOption (by decide +kernel))

/-- A fraction moved from the body into the timestamp leaves the signature valid. -/
theorem signature_accepts_moved_fraction :
    (∀ key, Function.Injective (samplePlatform.hmacSha256 key)) ∧
      sign samplePlatform (str "evt_1") (str "2026-01-01T00:00:00") (.bytes (asciiBytes "5.x"))
        (str "whsec") = .ok sampleSignature ∧
      verifySignature samplePlatform sampleClock (.bytes (asciiBytes "x"))
        (deliveryHeaders (str "evt_1") (str "2026-01-01T00:00:00.5") sampleSignature)
        (str "whsec") 300 = .ok (asciiBytes "x") ∧
      ¬(str "evt_1" = str "evt_1" ∧ str "2026-01-01T00:00:00.5" = str "2026-01-01T00:00:00" ∧
        asciiBytes "x" = asciiBytes "5.x") :=
  ⟨sampleDigest_injective, eq_ok_of_toOption (by decide +kernel),
    eq_ok_of_toOption (by decide +kernel), by decide⟩

/-! ### Freshness -/

/-- The accepted ages of a tolerance end at one bound, which is the tolerance
itself as long as a float can tell a microsecond more from it. -/
theorem isOutside_threshold (tolerance : Int) :
    ∃ bound : Int, tolerance * 1000000 ≤ bound ∧ bound < (tolerance + 1) * 1000000 ∧
      (tolerance < 2 ^ 34 → bound = tolerance * 1000000) ∧
      ∀ now parsed : Datetime, isOutside now parsed tolerance = false ↔
        |now.instant - parsed.instant| ≤ bound := by
  have unit : (0 : Int) < Binary64.one := Int.natCast_pos.mpr Binary64.one_pos
  rcases lt_or_ge tolerance 0 with negative | nonnegative
  · -- a negative tolerance accepts nothing
    refine ⟨tolerance * 1000000, le_rfl, by omega, fun _ => rfl, fun now parsed => ?_⟩
    have below : tolerance * Binary64.one < 0 := Int.mul_neg_of_neg_of_pos negative unit
    have age := abs_nonneg (now.instant - parsed.instant)
    unfold isOutside
    rw [decide_eq_false_iff_not]
    constructor
    · intro inside
      exact absurd (below.trans_le (Int.natCast_nonneg _)) inside
    · intro le
      omega
  · obtain ⟨t, rfl⟩ := Int.eq_ofNat_of_zero_le nonnegative
    have compare : ∀ now parsed : Datetime, isOutside now parsed (t : Int) = false ↔
        Binary64.ofRatio (now.instant - parsed.instant).natAbs 1000000 ≤ t * Binary64.one := by
      intro now parsed
      unfold isOutside
      rw [decide_eq_false_iff_not, Int.not_lt]
      exact_mod_cast Iff.rfl
    by_cases small : t < 2 ^ 53
    · obtain ⟨bound, low, high, exact⟩ := Binary64.exists_threshold small
      refine ⟨bound, by omega, by omega, ?_, ?_⟩
      · intro fine
        have fineNat : t < 2 ^ 34 := by omega
        by_contra different
        have above : t * 1000000 < bound := by omega
        exact absurd ((exact bound).mpr le_rfl)
          (Nat.not_le.mpr (Binary64.lt_ofRatio_million fineNat above))
      · intro now parsed
        rw [compare, exact, Int.abs_eq_natAbs]
        exact_mod_cast Iff.rfl
    · -- no two instants are as far apart as such a tolerance
      refine ⟨t * 1000000, le_rfl, by omega, fun _ => rfl, fun now parsed => ?_⟩
      have age := Datetime.instant_distance_le now parsed
      rw [compare, Int.abs_eq_natAbs]
      refine iff_of_true ?_ (by omega)
      have rounded : Binary64.ofRatio (now.instant - parsed.instant).natAbs 1000000 ≤
          2 ^ 39 * Binary64.one :=
        Binary64.ofRatio_le_int (by decide) (by decide) age
      exact rounded.trans (Nat.mul_le_mul_right _ (by omega))

/-- `verify_signature` on what `sign` produced only looks at the clock. -/
theorem verifySignature_sign {platform : Platform} {webhookId timestamp secret signature : Str}
    {payload payload' : Payload} {headers : Items Str Str} {value : Str} {raw : Bytes}
    (idNonempty : webhookId ≠ []) (tsNonempty : timestamp ≠ [])
    (signed : sign platform webhookId timestamp payload secret = .ok signature)
    (sameBody : asBytes payload = .ok raw) (sameBody' : asBytes payload' = .ok raw)
    (hId : Carries platform.runtime headers idHeader webhookId)
    (hTs : Carries platform.runtime headers tsHeader timestamp)
    (hSig : Carries platform.runtime headers sigHeader value)
    (spelled : value = signature ∨ signature = signaturePrefix ++ value) (now : Datetime)
    (tolerance : Int) :
    verifySignature platform now payload' headers secret tolerance =
      (checkFreshness now timestamp tolerance).map (fun _ => raw) := by
  obtain ⟨raw', digest, rawEq, computed, rfl⟩ := sign_eq_ok signed
  obtain rfl : raw = raw' := Except.ok.inj (sameBody.symm.trans rawEq)
  obtain ⟨digestNonempty, hex⟩ := signatureHex_shape computed
  have provided : providedDigest value = digest ∧ value ≠ [] := by
    rcases spelled with rfl | bare
    · exact ⟨providedDigest_prefixed digest, List.append_ne_nil_of_right_ne_nil _ digestNonempty⟩
    · rw [← List.append_cancel_left bare]
      exact ⟨providedDigest_bare hex, digestNonempty⟩
  unfold verifySignature
  rw [sameBody', hId.required idNonempty, hTs.required tsNonempty, hSig.required provided.2]
  simp only [liftBuiltin_ok, bind, Except.bind]
  cases checkFreshness now timestamp tolerance with
  | error exception => rfl
  | ok nothing =>
      simp only [computed, liftBuiltin_ok, provided.1, compareDigest_hex hex hex, beq_self_eq_true,
        if_true]
      rfl

/-- The verifier accepts what `sign` produced while it is fresh, and at no clock
reading outside one closed interval around the signed instant. -/
theorem verifySignature_fresh (platform : Platform)
    (webhookId timestamp secret signature value : Str) (payload payload' : Payload)
    (headers : Items Str Str) (raw : Bytes) (signedAt : Datetime) (tolerance : Int)
    (idNonempty : webhookId ≠ []) (parsed : Datetime.fromisoformat timestamp = some signedAt)
    (sameBody : asBytes payload = .ok raw) (sameBody' : asBytes payload' = .ok raw)
    (signed : sign platform webhookId timestamp payload secret = .ok signature)
    (hId : Carries platform.runtime headers idHeader webhookId)
    (hTs : Carries platform.runtime headers tsHeader timestamp)
    (hSig : Carries platform.runtime headers sigHeader value)
    (spelled : value = signature ∨ signature = signaturePrefix ++ value) :
    ∃ bound : Int, tolerance * 1000000 ≤ bound ∧ bound < (tolerance + 1) * 1000000 ∧
      (tolerance < 2 ^ 34 → bound = tolerance * 1000000) ∧
      ∀ now : Datetime, verifySignature platform now payload' headers secret tolerance =
        if |now.instant - signedAt.instant| ≤ bound then .ok raw
        else .error (.signatureVerificationError
          (str "Webhook timestamp is outside the freshness window.")) := by
  obtain ⟨bound, low, high, exact, threshold⟩ := isOutside_threshold tolerance
  refine ⟨bound, low, high, exact, fun now => ?_⟩
  have tsNonempty : timestamp ≠ [] := by
    rintro rfl
    cases parsed
  rw [verifySignature_sign idNonempty tsNonempty signed sameBody sameBody' hId hTs hSig spelled]
  unfold checkFreshness
  rw [parsed]
  by_cases inside : |now.instant - signedAt.instant| ≤ bound
  · simp only [(threshold now signedAt).mpr inside, Bool.false_eq_true, if_false, inside, if_true]
    rfl
  · have outside : isOutside now signedAt tolerance = true := by
      by_contra fresh
      exact inside ((threshold now signedAt).mp (Bool.eq_false_iff.mpr fresh))
    simp only [outside, if_true, inside, if_false]
    rfl

theorem carries_delivery (runtime : Runtime) (webhookId timestamp signature : Str) :
    Carries runtime (deliveryHeaders webhookId timestamp signature) idHeader webhookId ∧
      Carries runtime (deliveryHeaders webhookId timestamp signature) tsHeader timestamp ∧
      Carries runtime (deliveryHeaders webhookId timestamp signature) sigHeader signature := by
  obtain ⟨spelledId, spelledTs, spelledSig⟩ := lower_delivery_names runtime
  have idTs : idHeader ≠ tsHeader := by decide
  have idSig : idHeader ≠ sigHeader := by decide
  have tsSig : tsHeader ≠ sigHeader := by decide
  refine ⟨⟨⟨_, List.mem_cons_self, spelledId⟩, ?_⟩,
    ⟨⟨_, List.mem_cons_of_mem _ List.mem_cons_self, spelledTs⟩, ?_⟩,
    ⟨⟨_, List.mem_cons_of_mem _ (List.mem_cons_of_mem _ List.mem_cons_self), spelledSig⟩, ?_⟩⟩
  all_goals
    simp only [deliveryHeaders, List.forall_mem_cons, List.not_mem_nil, false_implies,
      implies_true, and_true, spelledId, spelledTs, spelledSig]
  · exact ⟨trivial, fun named => absurd named.symm idTs, fun named => absurd named.symm idSig⟩
  · exact ⟨fun named => absurd named idTs, trivial, fun named => absurd named.symm tsSig⟩
  · exact ⟨fun named => absurd named idSig, fun named => absurd named tsSig⟩

/-- The signed instant of the sample delivery. -/
def sampleInstant : Datetime := { sampleClock with
  microsecond := 0, offset := none, timeRange := by decide
  offsetRange := fun _ given => by cases given }

theorem verifySignature_fresh_sample :
    ∃ bound : Int, 300 * 1000000 ≤ bound ∧ bound < (300 + 1) * 1000000 ∧
      ((300 : Int) < 2 ^ 34 → bound = 300 * 1000000) ∧
      ∀ now : Datetime, verifySignature samplePlatform now (.text (str "5.x"))
          (deliveryHeaders (str "evt_1") (str "2026-01-01T00:00:00") sampleSignature)
          (str "whsec") 300 =
        if |now.instant - sampleInstant.instant| ≤ bound then .ok (asciiBytes "5.x")
        else .error (.signatureVerificationError
          (str "Webhook timestamp is outside the freshness window.")) :=
  have carries := carries_delivery samplePlatform.runtime (str "evt_1") (str "2026-01-01T00:00:00")
    sampleSignature
  verifySignature_fresh samplePlatform (str "evt_1") (str "2026-01-01T00:00:00") (str "whsec")
    sampleSignature sampleSignature (.bytes (asciiBytes "5.x")) (.text (str "5.x")) _
    (asciiBytes "5.x") sampleInstant 300 (by decide) (by decide) rfl
    (eq_ok_of_toOption (by decide)) (eq_ok_of_toOption (by decide +kernel)) carries.1 carries.2.1
    carries.2.2 (Or.inl rfl)

/-- The sample instant, 2^34 seconds and one microsecond later. -/
def lateClock : Datetime where
  year := 2570
  month := 5
  day := 30
  hour := 1
  minute := 53
  second := 4
  microsecond := 1
  offset := some 0
  yearRange := by decide
  monthRange := by decide
  dayRange := by decide
  timeRange := by decide
  offsetRange := sampleClock.offsetRange

/-- At a tolerance of 2^34 seconds a delivery is accepted a microsecond too late. -/
theorem stale_microsecond_accepted :
    Datetime.fromisoformat (str "2026-01-01T00:00:00") = some sampleInstant ∧
      sign samplePlatform (str "evt_1") (str "2026-01-01T00:00:00") (.bytes (asciiBytes "5.x"))
        (str "whsec") = .ok sampleSignature ∧
      verifySignature samplePlatform lateClock (.bytes (asciiBytes "5.x"))
        (deliveryHeaders (str "evt_1") (str "2026-01-01T00:00:00") sampleSignature)
        (str "whsec") (2 ^ 34) = .ok (asciiBytes "5.x") ∧
      ¬|lateClock.instant - sampleInstant.instant| ≤ 2 ^ 34 * 1000000 :=
  ⟨by decide, eq_ok_of_toOption (by decide +kernel), eq_ok_of_toOption (by decide +kernel),
    by decide +kernel⟩

end MailkubeSdk

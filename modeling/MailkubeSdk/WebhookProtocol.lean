import MailkubeSdk.Python.Isoformat
import MailkubeSdk.Python.JsonLexing
import MailkubeSdk.WebhookSignature

/-
Webhooks over a hostile network.

The platform signs webhooks.  Anyone may deliver anything, at any time and any
number of times, but comes by no digest of an input that the platform did not
sign.  The signed input leaves it open where the id and the timestamp end; that
nothing else than a signed webhook is accepted rests on what the other cuts
would leave as the timestamp and as the body.
-/

namespace MailkubeSdk

open Python Datetime

/-! ### What the platform signs -/

/-- An object starts with its brace, or with white space before that. -/
def startsObject (body : Bytes) : Bool :=
  body.head?.any fun b => b ∈ ([32, 9, 10, 13, 123] : Bytes)

theorem startsObject_cons {body : Bytes} (starts : startsObject body = true) :
    ∃ b rest, body = b :: rest ∧ digitOctet b.val = false := by
  cases body with
  | nil => cases starts
  | cons b rest =>
      have listed : b ∈ ([32, 9, 10, 13, 123] : Bytes) := of_decide_eq_true starts
      have table : ([32, 9, 10, 13, 123] : Bytes).all (fun b => !digitOctet b.val) = true := by
        decide
      exact ⟨b, rest, rfl, Bool.not_eq_true' _ |>.mp (List.all_eq_true.mp table b listed)⟩

/-- A webhook of the platform: an id without dots, an aware time, and the text of a JSON
object. -/
structure Webhook where
  webhookId : Str
  sentAt : Datetime
  body : Bytes
  named : webhookId ≠ []
  idPlain : cp '.' ∉ webhookId
  aware : sentAt.offset.isSome = true
  object : startsObject body = true
  lexed : Json.lexes body = true

def Webhook.timestamp (webhook : Webhook) : Str := webhook.sentAt.isoformat

/-- What a reader of JSON accepts lexes, and an object starts as one. -/
structure ReadsJson (readJson : Bytes → Option Value) : Prop where
  lexes : ∀ octets value, readJson octets = some value → Json.lexes octets = true
  object : ∀ octets items, readJson octets = some (.dict items) → startsObject octets = true

theorem ReadsJson.object_starts {readJson : Bytes → Option Value} (reads : ReadsJson readJson)
    {octets : Bytes} {items : Items Str Value} (object : readJson octets = some (.dict items))
    (b : Byte) (rest : Bytes) (shape : octets = b :: rest) : digitOctet b.val = false := by
  obtain ⟨c, others, started, other⟩ := startsObject_cons (reads.object octets items object)
  have first : c = b := (List.cons.inj (started.symm.trans shape)).1
  exact first ▸ other

/-! ### The cuts of the signed input -/

section Cuts

variable {body cutBody cutTs : Bytes}

/-- A timestamp cut from the front of a body is none. -/
theorem undated_in_body (object : startsObject body = true) (same : body = cutTs ++ 46 :: cutBody) :
    fromOctets cutTs = none := by
  apply fromOctets_no_digit
  obtain ⟨b, rest, started, other⟩ := startsObject_cons object
  rw [same] at started
  cases cutTs with
  | nil => rfl
  | cons c more =>
      have first : c = b := (List.cons.inj started).1
      exact first ▸ other

theorem head_nondigit {rest : Bytes} (object : startsObject body = true)
    (same : body = rest ++ 46 :: cutBody) : ∀ b ∈ rest.head?, digitOctet b.val = false := by
  intro b first
  obtain ⟨c, others, started, other⟩ := startsObject_cons object
  rw [same] at started
  cases rest with
  | nil => cases first
  | cons d rest =>
      have brace : d = c := (List.cons.inj started).1
      rw [← Option.some.inj first, brace]
      exact other

theorem fraction_head (micros : Nat) (rest : Bytes) :
    ∃ b more, octets (padded 6 micros) ++ rest = b :: more ∧ digitOctet b.val = true := by
  have length := length_octets_padded 6 micros
  cases shape : octets (padded 6 micros) with
  | nil =>
      rw [shape] at length
      cases length
  | cons b more =>
      have member : b ∈ octets (padded 6 micros) := by
        rw [shape]
        exact List.mem_cons_self
      obtain ⟨c, listed, rfl⟩ := List.mem_map.mp member
      have digit := mem_padded listed
      refine ⟨_, _, rfl, ?_⟩
      unfold digitOctet
      rw [Utf8.octet_val (show c.val < 256 by omega)]
      simp only [Bool.and_eq_true, decide_eq_true_eq]
      exact digit

/-- A timestamp cut from a fraction on is none. -/
theorem undated_in_fraction {micros : Nat} {rest more : Bytes}
    (other : ∀ b ∈ rest.head?, digitOctet b.val = false)
    (longer : cutTs = octets (padded 6 micros) ++ more)
    (same : rest ++ 46 :: body = more ++ 46 :: cutBody) : fromOctets cutTs = none := by
  rw [longer]
  apply fromOctets_fraction
  cases more with
  | nil =>
      rw [List.append_nil]
      have ends := octetAt_length (octets (padded 6 micros))
      rw [length_octets_padded] at ends
      rw [ends]
      rfl
  | cons b more =>
      rw [octetAt_middle (length_octets_padded 6 micros)]
      cases rest with
      | nil =>
          rw [← (List.cons.inj same).1]
          rfl
      | cons c rest =>
          rw [← (List.cons.inj same).1]
          exact other c rfl

/-- The signed input of a webhook is cut in one place only, if the timestamp is to be one
and the body is to lex and not to start with a digit. -/
theorem cut_unique (webhook : Webhook) {front cutFront : Bytes} (plain : (46 : Byte) ∉ front)
    (dated : fromOctets cutTs ≠ none) (lexed : Json.lexes cutBody = true)
    (starts : ∀ b rest, cutBody = b :: rest → digitOctet b.val = false)
    (same : front ++ 46 :: (octets webhook.timestamp ++ 46 :: webhook.body) =
      cutFront ++ 46 :: (cutTs ++ 46 :: cutBody)) :
    cutFront = front ∧ cutTs = octets webhook.timestamp ∧ cutBody = webhook.body := by
  obtain ⟨offset, given⟩ := Option.isSome_iff_exists.mp webhook.aware
  obtain ⟨more, longer, rest⟩ := cut_after_plain plain same
  cases more with
  | nil =>
      rw [List.append_nil] at longer
      have within := (List.cons.inj rest).2
      rcases List.append_eq_append_iff.mp within with ⟨extra, grown, left⟩ | ⟨extra, cut, left⟩
      · cases extra with
        | nil => exact ⟨longer, by rw [grown, List.append_nil], (List.cons.inj left).2.symm⟩
        | cons b extra =>
            -- the timestamp goes on into the body
            rw [List.cons_append] at left
            obtain ⟨rfl, tail⟩ := List.cons.inj left
            rw [grown] at dated
            exact absurd (fromOctets_point given (head_nondigit webhook.object tail)) dated
      · cases extra with
        | nil =>
            rw [List.append_nil] at cut
            exact ⟨longer, cut.symm, (List.cons.inj left).2⟩
        | cons b extra =>
            -- the timestamp ends before its fraction, which starts the body
            rw [List.cons_append] at left
            obtain ⟨rfl, tail⟩ := List.cons.inj left
            obtain ⟨micros, after, fraction, _⟩ := isoformat_points _ _ _ cut
            obtain ⟨c, others, first, digit⟩ := fraction_head micros (after ++ 46 :: webhook.body)
            rw [← List.append_assoc, ← fraction, ← tail] at first
            rw [starts c others first] at digit
            cases digit
  | cons b more =>
      rw [List.cons_append] at rest
      obtain ⟨rfl, within⟩ := List.cons.inj rest
      rcases List.append_eq_append_iff.mp within with ⟨extra, grown, left⟩ | ⟨extra, cut, left⟩
      · cases extra with
        | nil =>
            exact absurd (undated_in_body webhook.object (List.cons.inj left).2) dated
        | cons b extra =>
            -- both cuts are in the body
            rw [List.cons_append] at left
            obtain ⟨rfl, tail⟩ := List.cons.inj left
            have whole := webhook.lexed
            rw [tail, ← List.cons_append, ← List.append_assoc] at whole
            obtain ⟨c, others, first, digit⟩ := Json.lexes_cut whole lexed
            have other := starts c others first
            unfold Json.Lexing.isDigitOctet at digit
            unfold digitOctet at other
            rw [digit] at other
            cases other
      · cases extra with
        | nil =>
            exact absurd (undated_in_body webhook.object (List.cons.inj left).2.symm) dated
        | cons b extra =>
            -- the id goes on into the timestamp
            rw [List.cons_append] at left
            obtain ⟨rfl, tail⟩ := List.cons.inj left
            obtain ⟨micros, after, fraction, other⟩ := isoformat_points _ _ _ cut
            rw [fraction, List.append_assoc] at tail
            obtain ⟨past, onwards, remains⟩ := cut_after_plain (padded_pointless 6 micros) tail.symm
            exact absurd (undated_in_fraction other onwards remains) dated

end Cuts

/-! ### The network -/

/-- What happens, in any order: the platform signs, or somebody delivers. -/
inductive NetworkStep where
  | signs (webhook : Webhook)
  | delivers (now : Datetime) (payload : Payload) (headers : Items Str Str)

/-- A delivery that `verify` returned an event for. -/
structure Acceptance where
  now : Datetime
  payload : Payload
  headers : Items Str Str
  event : WebhookEvent

structure Network where
  signed : List Webhook
  accepted : List Acceptance

namespace Network

def start : Network := ⟨[], []⟩

variable (platform : Platform) (secret : Str) (tolerance : Int)

def step (network : Network) : NetworkStep → Network
  | .signs webhook => { network with signed := network.signed ++ [webhook] }
  | .delivers now payload headers =>
      match verify platform now payload headers secret tolerance with
      | .ok event =>
          { network with accepted := network.accepted ++ [⟨now, payload, headers, event⟩] }
      | .error _ => network

def after (network : Network) (steps : List NetworkStep) : Network :=
  steps.foldl (step platform secret tolerance) network

@[simp] theorem signed_delivers (network : Network) (now : Datetime) (payload : Payload)
    (headers : Items Str Str) :
    (network.step platform secret tolerance (.delivers now payload headers)).signed =
      network.signed := by
  unfold step
  dsimp only
  split
  · rfl
  · rfl

end Network

section Protocol

variable (platform : Platform) (secret : Str) (tolerance : Int)

/-- A delivery under the digest of its input brings an input that was signed. -/
def Replayed (signed : List Webhook) (payload : Payload) (headers : Items Str Str) : Prop :=
  ∀ webhookId timestamp signature raw input key,
    requiredHeader platform headers idHeader = some webhookId →
    requiredHeader platform headers tsHeader = some timestamp →
    requiredHeader platform headers sigHeader = some signature →
    asBytes payload = .ok raw →
    signingInput webhookId timestamp raw = .ok input →
    encodeText secret = .ok key →
    providedDigest signature = Codecs.hexdigest (platform.hmacSha256 key input) →
    ∃ webhook ∈ signed,
      signingInput webhook.webhookId webhook.timestamp webhook.body = .ok input

/-- A run without a forged digest. -/
def Unforged : Network → List NetworkStep → Prop
  | _, [] => True
  | network, .signs webhook :: rest =>
      Unforged (network.step platform secret tolerance (.signs webhook)) rest
  | network, .delivers now payload headers :: rest =>
      Replayed platform secret network.signed payload headers ∧
        Unforged (network.step platform secret tolerance (.delivers now payload headers)) rest

/-- An accepted delivery is a signed webhook as it was signed, read while it is fresh. -/
def Genuine (signed : List Webhook) (acceptance : Acceptance) : Prop :=
  ∃ webhook ∈ signed,
    requiredHeader platform acceptance.headers idHeader = some webhook.webhookId ∧
    requiredHeader platform acceptance.headers tsHeader = some webhook.timestamp ∧
    asBytes acceptance.payload = .ok webhook.body ∧
    parseEvent platform (.bytes webhook.body) = .ok acceptance.event ∧
    isOutside acceptance.now webhook.sentAt.asRead tolerance = false

end Protocol

/-! ### One delivery -/

section Delivery

variable {platform : Platform} {secret : Str} {tolerance : Int}

/-- What is parsed is an object. -/
theorem parsed_object {raw : Bytes} {event : WebhookEvent}
    (parsed : parseEvent platform (.bytes raw) = .ok event) :
    ∃ items, platform.readJson raw = some (.dict items) := by
  unfold parseEvent asBytes at parsed
  simp only [liftBuiltin_ok, bind, Except.bind] at parsed
  cases read : platform.readJson raw with
  | none =>
      rw [read] at parsed
      cases parsed
  | some value =>
      rw [read] at parsed
      cases value with
      | dict items => exact ⟨items, rfl⟩
      | _ => cases parsed

theorem checkFreshness_ok {now : Datetime} {timestamp : Str}
    (fresh : checkFreshness now timestamp tolerance = .ok ()) :
    ∃ parsed, fromisoformat timestamp = some parsed ∧ isOutside now parsed tolerance = false := by
  unfold checkFreshness at fresh
  cases read : fromisoformat timestamp with
  | none =>
      rw [read] at fresh
      cases fresh
  | some parsed =>
      rw [read] at fresh
      dsimp only at fresh
      split at fresh
      · cases fresh
      · rename_i inside
        exact ⟨parsed, rfl, Bool.eq_false_iff.mpr inside⟩

theorem genuine_of_verify (reads : ReadsJson platform.readJson) {signed : List Webhook}
    {now : Datetime} {payload : Payload} {headers : Items Str Str} {event : WebhookEvent}
    (replayed : Replayed platform secret signed payload headers)
    (verified : verify platform now payload headers secret tolerance = .ok event) :
    Genuine platform tolerance signed ⟨now, payload, headers, event⟩ := by
  obtain ⟨raw, accepted, parsed⟩ := bind_eq_ok_iff.mp verified
  obtain ⟨webhookId, timestamp, signature, expected, hId, hTs, hSig, body, fresh, computed,
    provided⟩ := verifySignature_eq_ok accepted
  obtain ⟨input, key, built, encodedKey, rfl⟩ := signatureHex_eq_ok computed
  obtain ⟨webhook, listed, ownBuilt⟩ :=
    replayed webhookId timestamp signature raw input key hId hTs hSig body built encodedKey provided
  obtain ⟨cutFront, cutTs, encodedId, encodedTs, shape⟩ := signingInput_parts built
  obtain ⟨front, middle, ownId, ownTs, ownShape⟩ := signingInput_parts ownBuilt
  have text : Utf8.encode webhook.timestamp = some (octets webhook.timestamp) :=
    encode_eq_octets webhook.sentAt.ascii_isoformat
  have printed : middle = octets webhook.timestamp := Option.some.inj (ownTs.symm.trans text)
  obtain ⟨sentAt, dated, inside⟩ := checkFreshness_ok fresh
  obtain ⟨items, object⟩ := parsed_object parsed
  have plain : (46 : Byte) ∉ front := by
    have count := Utf8.count_encode (d := cp '.') ownId (by decide)
    rw [List.count_eq_zero.mpr webhook.idPlain] at count
    exact List.count_eq_zero.mp count
  have starts := reads.object_starts object
  have readable : fromOctets cutTs ≠ none := by
    rw [← fromisoformat_eq encodedTs, dated]
    exact nofun
  have same : front ++ 46 :: (octets webhook.timestamp ++ 46 :: webhook.body) =
      cutFront ++ 46 :: (cutTs ++ 46 :: raw) := by
    rw [← shape, ownShape, printed]
  obtain ⟨frontSame, tsSame, bodySame⟩ :=
    cut_unique webhook plain readable (reads.lexes raw _ object) starts same
  rw [frontSame] at encodedId
  rw [tsSame] at encodedTs
  rw [bodySame] at body parsed
  have sameId : webhookId = webhook.webhookId := Utf8.encode_injective encodedId ownId
  have sameTs : timestamp = webhook.timestamp := Utf8.encode_injective encodedTs text
  rw [sameTs] at dated
  have read : sentAt = webhook.sentAt.asRead :=
    Option.some.inj (dated.symm.trans (fromisoformat_isoformat webhook.sentAt))
  refine ⟨webhook, listed, ?_, ?_, body, parsed, ?_⟩
  · rw [← sameId]
    exact hId
  · rw [← sameTs]
    exact hTs
  · rw [← read]
    exact inside

end Delivery

/-! ### Runs -/

section Runs

variable {platform : Platform} {secret : Str} {tolerance : Int}

theorem Genuine.mono {signed more : List Webhook} {acceptance : Acceptance}
    (genuine : Genuine platform tolerance signed acceptance)
    (within : ∀ webhook ∈ signed, webhook ∈ more) : Genuine platform tolerance more acceptance := by
  obtain ⟨webhook, listed, rest⟩ := genuine
  exact ⟨webhook, within webhook listed, rest⟩

/-- Everything accepted is genuine. -/
def Sound (platform : Platform) (tolerance : Int) (network : Network) : Prop :=
  ∀ acceptance ∈ network.accepted, Genuine platform tolerance network.signed acceptance

theorem Sound.signs {network : Network} (sound : Sound platform tolerance network)
    (webhook : Webhook) :
    Sound platform tolerance (network.step platform secret tolerance (.signs webhook)) :=
  fun acceptance accepted =>
    (sound acceptance accepted).mono fun _ listed => List.mem_append_left _ listed

theorem Sound.delivers (reads : ReadsJson platform.readJson) {network : Network}
    (sound : Sound platform tolerance network) {now : Datetime} {payload : Payload}
    {headers : Items Str Str}
    (replayed : Replayed platform secret network.signed payload headers) :
    Sound platform tolerance
      (network.step platform secret tolerance (.delivers now payload headers)) := by
  unfold Network.step
  dsimp only
  cases verified : verify platform now payload headers secret tolerance with
  | error exn => exact sound
  | ok event =>
      intro acceptance accepted
      rcases List.mem_append.mp accepted with before | here
      · exact sound acceptance before
      · rw [List.mem_singleton.mp here]
        exact genuine_of_verify reads replayed verified

theorem Sound.after (reads : ReadsJson platform.readJson) {network : Network}
    {steps : List NetworkStep} (sound : Sound platform tolerance network)
    (unforged : Unforged platform secret tolerance network steps) :
    Sound platform tolerance (network.after platform secret tolerance steps) := by
  induction steps generalizing network with
  | nil => exact sound
  | cons step rest ih =>
      cases step with
      | signs webhook => exact ih (sound.signs webhook) unforged
      | delivers now payload headers =>
          exact ih (sound.delivers reads unforged.1) unforged.2

/-- A signed webhook that is delivered as it was signed is read, while it is fresh. -/
theorem verify_delivered (webhook : Webhook) {value : Str} {now : Datetime}
    (signs : sign platform webhook.webhookId webhook.timestamp (.bytes webhook.body) secret =
      .ok value)
    (fresh : isOutside now webhook.sentAt.asRead tolerance = false) :
    verify platform now (.bytes webhook.body)
        (deliveryHeaders webhook.webhookId webhook.timestamp value) secret tolerance =
      parseEvent platform (.bytes webhook.body) := by
  have read : fromisoformat webhook.timestamp = some webhook.sentAt.asRead :=
    fromisoformat_isoformat webhook.sentAt
  have stamped : webhook.timestamp ≠ [] := by
    intro empty
    rw [empty] at read
    cases read
  obtain ⟨hId, hTs, hSig⟩ :=
    carries_delivery platform.runtime webhook.webhookId webhook.timestamp value
  have checked : checkFreshness now webhook.timestamp tolerance = .ok () := by
    unfold checkFreshness
    rw [read]
    exact if_neg (Bool.eq_false_iff.mp fresh)
  unfold verify
  rw [verifySignature_sign webhook.named stamped signs rfl rfl hId hTs hSig (.inl rfl) now
    tolerance, checked]
  rfl

end Runs

/-- Over any interleaving of signing and hostile deliveries, every event that `verify` returns
is of a signed webhook, exactly as it was signed and while it was fresh; and every signed
webhook is read when it is delivered so. -/
theorem only_signed_accepted (platform : Platform) (secret : Str) (tolerance : Int)
    (reads : ReadsJson platform.readJson) {steps : List NetworkStep}
    (unforged : Unforged platform secret tolerance .start steps) :
    let network := Network.start.after platform secret tolerance steps
    (∀ acceptance ∈ network.accepted,
      Genuine platform tolerance network.signed acceptance) ∧
    ∀ webhook ∈ network.signed, ∀ value now,
      sign platform webhook.webhookId webhook.timestamp (.bytes webhook.body) secret =
        .ok value →
      isOutside now webhook.sentAt.asRead tolerance = false →
      verify platform now (.bytes webhook.body)
          (deliveryHeaders webhook.webhookId webhook.timestamp value) secret tolerance =
        parseEvent platform (.bytes webhook.body) := by
  have sound : Sound platform tolerance .start := fun _ accepted => nomatch accepted
  exact ⟨sound.after reads unforged,
    fun webhook _ _ _ signs fresh => verify_delivered webhook signs fresh⟩

/-! ### A replay -/

/-- An event the package has no class for. -/
def replayedBody : Bytes :=
  asciiBytes "\x7b\"created_at\":\"1.5\",\"type\":\"t\",\"data\":\x7b\x7d\x7d"

def replayedWebhook : Webhook where
  webhookId := str "evt_1"
  sentAt := sampleClock
  body := replayedBody
  named := by decide
  idPlain := by decide
  aware := rfl
  object := by decide
  lexed := by decide +kernel

/-- The sample platform, with a reader of that body alone. -/
def narrowPlatform : Platform :=
  { samplePlatform with
    readJson := fun octets =>
      if octets = replayedBody then
        some (.dict [(str "created_at", .str (str "1.5")), (str "type", .str (str "t")),
          (str "data", .dict [])])
      else none }

private theorem narrowPlatform_reads : ReadsJson narrowPlatform.readJson where
  lexes octets value read := by
    by_cases same : octets = replayedBody
    · rw [same]
      exact replayedWebhook.lexed
    · cases (if_neg same).symm.trans read
  object octets items read := by
    by_cases same : octets = replayedBody
    · rw [same]
      exact replayedWebhook.object
    · cases (if_neg same).symm.trans read

/-- The signature of the webhook. -/
def replayedSignature : Str :=
  ((sign narrowPlatform (str "evt_1") replayedWebhook.timestamp (.bytes replayedBody)
    (str "whsec")).toOption).getD []

private theorem replayedSignature_signs :
    sign narrowPlatform (str "evt_1") replayedWebhook.timestamp (.bytes replayedBody)
      (str "whsec") = .ok replayedSignature :=
  eq_ok_of_toOption (by decide +kernel)

def replayedHeaders : Items Str Str :=
  deliveryHeaders (str "evt_1") replayedWebhook.timestamp replayedSignature

/-- The webhook is signed, and delivered twice. -/
def replaying : List NetworkStep :=
  [.signs replayedWebhook, .delivers sampleClock (.bytes replayedBody) replayedHeaders,
    .delivers sampleClock (.bytes replayedBody) replayedHeaders]

private theorem replayed_delivery {signed : List Webhook} (listed : replayedWebhook ∈ signed) :
    Replayed narrowPlatform (str "whsec") signed (.bytes replayedBody) replayedHeaders := by
  intro webhookId timestamp _ raw input _ givenId givenTs _ body built _ _
  obtain ⟨foundId, foundTs, _⟩ := deliveryHeaders_get narrowPlatform.runtime (str "evt_1")
    replayedWebhook.timestamp replayedSignature
  unfold requiredHeader replayedHeaders at givenId givenTs
  rw [foundId] at givenId
  rw [foundTs] at givenTs
  have sameId := Option.some.inj (Option.filter_eq_some_iff.mp givenId).1
  have sameTs := Option.some.inj (Option.filter_eq_some_iff.mp givenTs).1
  have sameBody : replayedBody = raw := Except.ok.inj body
  rw [← sameId, ← sameTs, ← sameBody] at built
  exact ⟨replayedWebhook, listed, built⟩

private theorem replaying_unforged :
    Unforged narrowPlatform (str "whsec") 300 .start replaying := by
  refine ⟨replayed_delivery List.mem_cons_self, replayed_delivery ?_, trivial⟩
  rw [Network.signed_delivers]
  exact List.mem_cons_self

theorem only_signed_accepted_sample :
    (∀ acceptance ∈ (Network.start.after narrowPlatform (str "whsec") 300 replaying).accepted,
      Genuine narrowPlatform 300
        (Network.start.after narrowPlatform (str "whsec") 300 replaying).signed acceptance) ∧
    (verify narrowPlatform sampleClock (.bytes replayedBody) replayedHeaders (str "whsec")
      300).isOk = true := by
  have network := only_signed_accepted narrowPlatform (str "whsec") 300 narrowPlatform_reads
    replaying_unforged
  have listed : replayedWebhook ∈
      (Network.start.after narrowPlatform (str "whsec") 300 replaying).signed := by
    unfold Network.after replaying
    simp only [List.foldl_cons, List.foldl_nil, Network.signed_delivers]
    exact List.mem_cons_self
  have read := network.2 replayedWebhook listed replayedSignature sampleClock
    replayedSignature_signs (by decide +kernel)
  refine ⟨network.1, ?_⟩
  change Except.isOk (verify narrowPlatform sampleClock (.bytes replayedWebhook.body) _ _ 300) = _
  rw [show replayedHeaders = deliveryHeaders replayedWebhook.webhookId replayedWebhook.timestamp
    replayedSignature from rfl, read]
  decide +kernel

end MailkubeSdk

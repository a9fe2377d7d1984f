import MailkubeSdk.Python.UrlRelative
import MailkubeSdk.Resources

/-
Where the request for one item goes.

An identifier is escaped and joined onto the base as the last segment of its
path.  Escaping leaves dots alone, so an identifier of one or two dots is
resolved by the join instead of kept.
-/

namespace MailkubeSdk

open Python Url

/-- The collections that have items. -/
inductive Collection where
  | scheduledEmails
  | batches
deriving DecidableEq

namespace Collection

def path : Collection → Str
  | scheduledEmails => scheduledPath
  | batches => batchPath

def segments : Collection → List Str
  | scheduledEmails => [str "scheduled-emails"]
  | batches => [str "scheduled-emails", str "batches"]

theorem directory_segments (collection : Collection) :
    directory collection.segments = collection.path ++ str "/" := by
  cases collection <;> decide

theorem segments_injective {left right : Collection} (same : left.segments = right.segments) :
    left = right := by
  cases left <;> cases right <;> first | rfl | exact absurd same (by decide)

private theorem segment_facts :
    ∀ segment ∈ [str "scheduled-emails", str "batches"],
      (segment ≠ [] ∧ segment ≠ str "." ∧ segment ≠ str "..") ∧
        segment.all isPathChar = true := by
  decide

private theorem segments_listed (collection : Collection) :
    ∀ segment ∈ collection.segments, segment ∈ [str "scheduled-emails", str "batches"] := by
  cases collection <;> decide

theorem segments_kept (collection : Collection) :
    ∀ segment ∈ collection.segments, KeptSegment segment :=
  fun segment member => (segment_facts segment (segments_listed collection segment member)).1

theorem segments_chars (collection : Collection) :
    ∀ segment ∈ collection.segments, ∀ c ∈ segment, isPathChar c = true := by
  intro segment member
  exact List.all_eq_true.mp (segment_facts segment (segments_listed collection segment member)).2

theorem segments_slashFree (collection : Collection) :
    ∀ segment ∈ collection.segments, cp '/' ∉ segment := by
  intro segment member slash
  exact absurd (collection.segments_chars segment member _ slash) (by decide)

end Collection

/-- The builders that name one item, with what they take beside its identifier. -/
inductive ItemBuilder where
  | get
  | update (params : Items Str Value)
  | cancel
  | batchUpdate (params : Items Str Value)
  | batchCancel

namespace ItemBuilder

def spec (runtime : Runtime) (identifier : Str) : ItemBuilder → Except Builtin RequestSpec
  | get => getSpec identifier
  | update params => updateSpec runtime identifier params
  | cancel => cancelSpec identifier
  | batchUpdate params => batchUpdateSpec runtime identifier params
  | batchCancel => batchCancelSpec identifier

def method : ItemBuilder → Str
  | get => str "GET"
  | update _ => str "PATCH"
  | cancel => str "DELETE"
  | batchUpdate _ => str "PATCH"
  | batchCancel => str "DELETE"

def collection : ItemBuilder → Collection
  | get => .scheduledEmails
  | update _ => .scheduledEmails
  | cancel => .scheduledEmails
  | batchUpdate _ => .batches
  | batchCancel => .batches

theorem itemPath_eq_ok (collection : Collection) {identifier path : Str}
    (built : itemPath collection.path identifier = .ok path) :
    ∃ quoted, Codecs.quote identifier = some quoted ∧
      path = directory collection.segments ++ quoted := by
  unfold itemPath at built
  cases escaped : Codecs.quote identifier with
  | none =>
      rw [escaped] at built
      cases built
  | some quoted =>
      rw [escaped] at built
      rw [← Except.ok.inj built, collection.directory_segments]
      exact ⟨quoted, rfl, rfl⟩

/-- What a builder builds, when it builds: its method, and the escaped
identifier below its collection. -/
theorem spec_eq_ok (runtime : Runtime) {builder : ItemBuilder} {identifier : Str}
    {spec : RequestSpec} (built : builder.spec runtime identifier = .ok spec) :
    spec.method = builder.method ∧ ∃ quoted, Codecs.quote identifier = some quoted ∧
      spec.path = directory builder.collection.segments ++ quoted := by
  cases builder with
  | get =>
      obtain ⟨path, found, result⟩ := bind_eq_ok_iff.mp built
      cases result
      exact ⟨rfl, itemPath_eq_ok .scheduledEmails found⟩
  | update params =>
      obtain ⟨_, _, more⟩ := bind_eq_ok_iff.mp built
      obtain ⟨path, found, result⟩ := bind_eq_ok_iff.mp more
      cases result
      exact ⟨rfl, itemPath_eq_ok .scheduledEmails found⟩
  | cancel =>
      obtain ⟨path, found, result⟩ := bind_eq_ok_iff.mp built
      cases result
      exact ⟨rfl, itemPath_eq_ok .scheduledEmails found⟩
  | batchUpdate params =>
      obtain ⟨_, _, more⟩ := bind_eq_ok_iff.mp built
      obtain ⟨path, found, result⟩ := bind_eq_ok_iff.mp more
      cases result
      exact ⟨rfl, itemPath_eq_ok .batches found⟩
  | batchCancel =>
      obtain ⟨path, found, result⟩ := bind_eq_ok_iff.mp built
      cases result
      exact ⟨rfl, itemPath_eq_ok .batches found⟩

theorem get_built (runtime : Runtime) {identifier : Str}
    (scalar : ∀ c ∈ identifier, Utf8.isSurrogate c = false) :
    ∃ spec, get.spec runtime identifier = .ok spec := by
  obtain ⟨octets, encoded⟩ := Utf8.encode_of_no_surrogate scalar
  have found : itemPath scheduledPath identifier =
      .ok (scheduledPath ++ str "/" ++ octets.flatMap Codecs.quoteByte) := by
    unfold itemPath Codecs.quote
    rw [encoded]
    rfl
  exact ⟨_, bind_eq_ok_iff.mpr ⟨_, found, rfl⟩⟩

end ItemBuilder

/-! ### The URL of an item -/

theorem quoted_pathChars {identifier quoted : Str}
    (escaped : Codecs.quote identifier = some quoted) :
    ∀ c ∈ quoted, isPathChar c = true := by
  have safe : ∀ c : CodePoint, Codecs.isQuotedChar c = true → isPathChar c = true := by
    intro c char
    simp only [Codecs.isQuotedChar, Codecs.isAlwaysSafe, isAlpha, isUpper, isLower, isDigit,
      Bool.or_eq_true, Bool.and_eq_true, decide_eq_true_eq, beq_iff_eq, Fin.ext_iff] at char
    simp only [isPathChar, isPrintable, isDelimiter, Bool.and_eq_true, Bool.not_eq_true',
      Bool.or_eq_false_iff, beq_eq_false_iff_ne, ne_eq, decide_eq_true_eq, Fin.ext_iff]
    have values : (cp '_').val = 95 ∧ (cp '.').val = 46 ∧ (cp '-').val = 45 ∧ (cp '~').val = 126 ∧
        (cp '%').val = 37 ∧ (cp '/').val = 47 ∧ (cp '?').val = 63 ∧ (cp '#').val = 35 ∧
        (cp ':').val = 58 ∧ (cp ';').val = 59 := by decide
    omega
  exact fun c member => safe c (Codecs.quoted_chars escaped c member)

/-- A relative path lands below the directories of the base. -/
theorem buildUrl_path {platform : Platform} {client : BaseClient} {base : PathUrl}
    (configured : client.baseUrl = base.text)
    (accepted : acceptsNetloc platform.runtime.hosts base.authority = true)
    {front : List Str} {last : Str} (frontKept : ∀ segment ∈ front, KeptSegment segment)
    (frontChars : ∀ segment ∈ front, ∀ c ∈ segment, isPathChar c = true)
    (lastChars : ∀ c ∈ last, isPathChar c = true) (nonempty : last ≠ []) :
    client.buildUrl platform (directory front ++ last) =
      .ok (assemble base.scheme base.authority
        (str "/" ++ landing (base.segments ++ front) last)) := by
  have joined := urljoin_path accepted frontKept frontChars lastChars nonempty
  have delimited : Delimited (str "/" ++ landing (base.segments ++ front) last) := by
    intro c rest same
    rw [← (List.cons.inj same).1]
    decide
  have origin : Url.origin platform.runtime.hosts (assemble (lowerAscii base.scheme) _ _) =
      if acceptsNetloc platform.runtime.hosts base.authority then
        some (lowerAscii base.scheme, base.authority)
      else none := (base.httpBase accepted).origin_assemble base.plain delimited
  have own := base.origin_text platform.runtime.hosts
  rw [base.schemeLower, if_pos accepted] at origin own
  rw [BaseClient.buildUrl_eq_ok_iff, configured]
  exact ⟨joined, _, origin, own⟩

section Building

variable {platform : Platform} {client : BaseClient} {base : DirectoryUrl}
  (configured : client.baseUrl = base.text)

include configured

theorem buildUrl_item (accepted : acceptsNetloc platform.runtime.hosts base.authority = true)
    (collection : Collection) {quoted : Str} (chars : ∀ c ∈ quoted, isPathChar c = true)
    (nonempty : quoted ≠ []) :
    client.buildUrl platform (directory collection.segments ++ quoted) =
      .ok (assemble base.scheme base.authority
        (str "/" ++ landing (base.segments ++ collection.segments) quoted)) :=
  @buildUrl_path platform client base.pathUrl configured accepted _ _ collection.segments_kept
    collection.segments_chars chars nonempty

theorem buildUrl_rejected (rejected : ¬acceptsNetloc platform.runtime.hosts base.authority = true)
    {path : Str} (nonempty : path ≠ []) :
    client.buildUrl platform path = .error (.builtin .valueError) := by
  unfold BaseClient.buildUrl
  rw [configured, urljoin_rejected_base rejected nonempty]

end Building

theorem quote_dots :
    Codecs.quote (str ".") = some (str ".") ∧ Codecs.quote (str "..") = some (str "..") := by
  decide

theorem quoted_dots_iff {identifier quoted : Str}
    (escaped : Codecs.quote identifier = some quoted) :
    (quoted = str "." ∨ quoted = str "..") ↔ (identifier = str "." ∨ identifier = str "..") := by
  constructor
  · rintro (rfl | rfl)
    · exact .inl (Codecs.quote_injective escaped quote_dots.1)
    · exact .inr (Codecs.quote_injective escaped quote_dots.2)
  · rintro (rfl | rfl)
    · exact .inl (Option.some.inj (escaped.symm.trans quote_dots.1))
    · exact .inr (Option.some.inj (escaped.symm.trans quote_dots.2))

/-! ### Items are not retargeted -/

/-- The URL is the collection's, a slash and one segment that spells the identifier. -/
def NamesItem (base : DirectoryUrl) (collection : Collection) (identifier url : Str) : Prop :=
  ∃ segment, url = base.text ++ collection.path ++ str "/" ++ segment ∧
    (∀ c ∈ segment, isDelimiter c = false) ∧ Codecs.unquote segment = some identifier

/-- Every request built for the identifier names its item; no other item has its
URL, and it is not the URL of the collection or of anything above it. -/
structure KeepsTarget (platform : Platform) (client : BaseClient) (base : DirectoryUrl)
    (identifier : Str) : Prop where
  named : ∀ builder spec, ItemBuilder.spec platform.runtime identifier builder = .ok spec →
    spec.method = builder.method ∧ ∃ url, client.buildUrl platform spec.path = .ok url ∧
      NamesItem base builder.collection identifier url
  alone : ∀ builder spec url, ItemBuilder.spec platform.runtime identifier builder = .ok spec →
    client.buildUrl platform spec.path = .ok url →
    ∀ other others otherSpec, others ≠ [] →
      ItemBuilder.spec platform.runtime others other = .ok otherSpec →
      client.buildUrl platform otherSpec.path = .ok url →
        other.collection = builder.collection ∧ others = identifier
  below : ∀ builder spec url, ItemBuilder.spec platform.runtime identifier builder = .ok spec →
    client.buildUrl platform spec.path = .ok url →
    ¬url <+: base.text ++ builder.collection.path ++ str "/"

section Items

variable {platform : Platform} {client : BaseClient} {base : DirectoryUrl}
  (configured : client.baseUrl = base.text)

include configured

theorem item_built (accepted : acceptsNetloc platform.runtime.hosts base.authority = true)
    {builder : ItemBuilder} {identifier : Str} {spec : RequestSpec} (nonempty : identifier ≠ [])
    (notDots : ¬(identifier = str "." ∨ identifier = str ".."))
    (built : builder.spec platform.runtime identifier = .ok spec) :
    ∃ quoted, Codecs.quote identifier = some quoted ∧ quoted ≠ [] ∧
      client.buildUrl platform spec.path =
        .ok (base.text ++ (directory builder.collection.segments ++ quoted)) := by
  obtain ⟨_, quoted, escaped, path⟩ := ItemBuilder.spec_eq_ok platform.runtime built
  have quotedNonempty := Codecs.quote_ne_nil escaped nonempty
  refine ⟨quoted, escaped, quotedNonempty, ?_⟩
  have notQuotedDots := mt (quoted_dots_iff escaped).mp notDots
  have kept : landing (base.segments ++ builder.collection.segments) quoted =
      directory base.segments ++ (directory builder.collection.segments ++ quoted) := by
    unfold landing
    rw [if_neg (fun dot => notQuotedDots (.inl dot)),
      if_neg (fun dotdot => notQuotedDots (.inr dotdot)), directory_append, List.append_assoc]
  rw [path, buildUrl_item configured accepted _ (quoted_pathChars escaped) quotedNonempty, kept,
    base.text_append]

theorem item_segments (accepted : acceptsNetloc platform.runtime.hosts base.authority = true)
    {builder : ItemBuilder} {identifier url : Str} {spec : RequestSpec}
    (nonempty : identifier ≠ [])
    (built : builder.spec platform.runtime identifier = .ok spec)
    (reached : client.buildUrl platform spec.path = .ok url) :
    (∃ shorter, url = assemble base.scheme base.authority (str "/" ++ (directory shorter ++ [])) ∧
        ∀ segment ∈ shorter, cp '/' ∉ segment) ∨
      ∃ quoted, Codecs.quote identifier = some quoted ∧
        url = base.text ++ (directory builder.collection.segments ++ quoted) := by
  obtain ⟨_, quoted, escaped, path⟩ := ItemBuilder.spec_eq_ok platform.runtime built
  rw [path, buildUrl_item configured accepted _ (quoted_pathChars escaped)
    (Codecs.quote_ne_nil escaped nonempty)] at reached
  rw [← Except.ok.inj reached]
  rcases landing_cases (base.segments ++ builder.collection.segments) quoted with
    ⟨shorter, same, inside⟩ | ⟨same, _⟩
  · refine .inl ⟨shorter, by rw [same, List.append_nil], fun segment member => ?_⟩
    rcases List.mem_append.mp (inside segment member) with above | below
    · intro slash
      exact absurd (base.segmentsPlain segment above _ slash) (by decide)
    · exact builder.collection.segments_slashFree segment below
  · exact .inr ⟨quoted, escaped, by
      rw [same, directory_append, List.append_assoc, base.text_append]⟩

theorem keepsTarget_of_kept (accepted : acceptsNetloc platform.runtime.hosts base.authority = true)
    {identifier : Str} (nonempty : identifier ≠ [])
    (notDots : ¬(identifier = str "." ∨ identifier = str "..")) :
    KeepsTarget platform client base identifier := by
  refine ⟨?_, ?_, ?_⟩
  · intro builder spec built
    obtain ⟨quoted, escaped, _, reached⟩ := item_built configured accepted nonempty notDots built
    refine ⟨(ItemBuilder.spec_eq_ok platform.runtime built).1, _, reached, quoted, ?_, ?_,
      Codecs.unquote_quote escaped⟩
    · simp only [builder.collection.directory_segments, List.append_assoc]
    · intro c member
      have char := quoted_pathChars escaped c member
      simp only [isPathChar, Bool.and_eq_true, Bool.not_eq_true'] at char
      exact char.1.1.2
  · intro builder spec url built reached other others otherSpec otherNonempty otherBuilt sameUrl
    obtain ⟨quoted, escaped, quotedNonempty, own⟩ :=
      item_built configured accepted nonempty notDots built
    rw [own] at reached
    have slashFree : cp '/' ∉ quoted := fun slash =>
      absurd (quoted_pathChars escaped _ slash) (by decide)
    rcases item_segments configured accepted otherNonempty otherBuilt sameUrl with
      ⟨shorter, ends, plain⟩ | ⟨otherQuoted, otherEscaped, same⟩
    · -- the other URL ends with a slash, this one does not
      rw [← Except.ok.inj reached, ← base.text_append, ← List.append_assoc (directory _),
        ← directory_append] at ends
      have tails := List.append_cancel_left (List.append_cancel_left ends)
      have last := (directory_injective (fun segment member => by
        rcases List.mem_append.mp member with above | below
        · intro slash
          exact absurd (base.segmentsPlain segment above _ slash) (by decide)
        · exact builder.collection.segments_slashFree segment below) plain slashFree
        List.not_mem_nil tails).2
      exact absurd last quotedNonempty
    · rw [← Except.ok.inj reached] at same
      have pieces := directory_injective builder.collection.segments_slashFree
        other.collection.segments_slashFree slashFree
        (fun slash => absurd (quoted_pathChars otherEscaped _ slash) (by decide))
        (List.append_cancel_left same)
      refine ⟨(Collection.segments_injective pieces.1).symm, ?_⟩
      exact Codecs.quote_injective otherEscaped (pieces.2 ▸ escaped)
  · intro builder spec url built reached isAbove
    obtain ⟨quoted, _, quotedNonempty, own⟩ :=
      item_built configured accepted nonempty notDots built
    rw [own] at reached
    have longer := isAbove.length_le
    rw [← Except.ok.inj reached, builder.collection.directory_segments] at longer
    simp only [List.length_append] at longer
    have positive := List.length_pos_iff.mpr quotedNonempty
    omega

/-- An identifier keeps its target exactly when it is not one or two dots, on a
base whose authority `urlsplit` takes. -/
theorem keepsTarget_iff (identifier : Str) (nonempty : identifier ≠ [])
    (scalar : ∀ c ∈ identifier, Utf8.isSurrogate c = false) :
    KeepsTarget platform client base identifier ↔
      acceptsNetloc platform.runtime.hosts base.authority = true ∧
        identifier ≠ str "." ∧ identifier ≠ str ".." := by
  constructor
  · intro keeps
    obtain ⟨spec, built⟩ := ItemBuilder.get_built platform.runtime scalar
    obtain ⟨_, quoted, escaped, path⟩ := ItemBuilder.spec_eq_ok platform.runtime built
    have quotedNonempty := Codecs.quote_ne_nil escaped nonempty
    obtain ⟨_, url, reached, segment, urlEq, _, spelled⟩ := keeps.named _ _ built
    have accepted : acceptsNetloc platform.runtime.hosts base.authority = true := by
      by_contra rejected
      rw [buildUrl_rejected configured rejected
        (path ▸ List.append_ne_nil_of_right_ne_nil _ quotedNonempty)] at reached
      cases reached
    have notDots : ¬(identifier = str "." ∨ identifier = str "..") := by
      intro dots
      have segmentNonempty : 0 < segment.length := by
        cases segment with
        | nil => exact absurd (Option.some.inj spelled).symm nonempty
        | cons c rest => exact Nat.succ_pos _
      -- the URL is no longer than that of the collection
      rw [path, buildUrl_item configured accepted _ (quoted_pathChars escaped) quotedNonempty]
        at reached
      have short := length_landing_dots (base.segments ++ Collection.scheduledEmails.segments)
        ((quoted_dots_iff escaped).mpr dots)
      have lengths := congrArg List.length ((Except.ok.inj reached).trans urlEq)
      have baseText := congrArg List.length
        (base.text_append (directory Collection.scheduledEmails.segments))
      have slashes := congrArg List.length
        (Collection.directory_segments .scheduledEmails)
      rw [directory_append] at short
      simp only [assemble, ItemBuilder.collection, List.length_append]
        at short lengths baseText slashes
      omega
    exact ⟨accepted, fun dot => notDots (.inl dot), fun dotdot => notDots (.inr dotdot)⟩
  · rintro ⟨accepted, notDot, notDotdot⟩
    exact keepsTarget_of_kept configured accepted nonempty
      (fun dots => dots.elim notDot notDotdot)

end Items

/-- `DEFAULT_BASE_URL`, taken apart. -/
def defaultBase : DirectoryUrl where
  scheme := str "https"
  authority := str "api.mailkube.com"
  tail := str "/mta/v1/"
  http := by decide
  authorityNonempty := by decide
  authorityPlain c member := by
    have plain : (str "api.mailkube.com").all (fun c => !isDelimiter c) = true := by decide
    simpa only [Bool.not_eq_true'] using List.all_eq_true.mp plain c member
  tailDelimited := by
    intro c rest same
    rw [← (List.cons.inj same).1]
    decide
  authorityPrintable := List.all_eq_true.mp (by decide)
  tailPrintable := List.all_eq_true.mp (by decide)
  segments := [str "mta", str "v1"]
  schemeLower := by decide
  tailEq := by decide
  segmentsKept := by
    unfold KeptSegment
    decide
  segmentsPlain segment listed c member := by
    have plain : [str "mta", str "v1"].all (fun s => s.all (fun c => !isDelimiter c)) = true := by
      decide
    have inside := List.all_eq_true.mp (List.all_eq_true.mp plain segment listed) c member
    simpa only [Bool.not_eq_true'] using inside

/-- A client on the default base. -/
def defaultClient : BaseClient := ⟨str "mk_key", defaultBaseUrl, []⟩

theorem keepsTarget_sample :
    KeepsTarget Platform.plain defaultClient defaultBase (str "../batches/x?page=9") :=
  (keepsTarget_iff (by decide) (str "../batches/x?page=9") (by decide) (fun c member => by
    have scalar : (str "../batches/x?page=9").all (fun c => !Utf8.isSurrogate c) = true := by decide
    simpa only [Bool.not_eq_true'] using List.all_eq_true.mp scalar c member)).mpr
    ⟨by decide, by decide, by decide⟩

/-- Cancelling the item `..` sends a `DELETE` to the base itself. -/
theorem dotdot_retargets :
    cancelSpec (str "..") = .ok { path := str "scheduled-emails/..", method := str "DELETE" } ∧
      defaultClient.buildUrl Platform.plain (str "scheduled-emails/..") = .ok defaultBase.text ∧
      ¬KeepsTarget Platform.plain defaultClient defaultBase (str "..") := by
  have built : cancelSpec (str "..") =
      .ok { path := str "scheduled-emails/..", method := str "DELETE" } := rfl
  have reached : defaultClient.buildUrl Platform.plain (str "scheduled-emails/..") =
      .ok defaultBase.text := eq_ok_of_toOption (by decide +kernel)
  refine ⟨built, reached, fun keeps => ?_⟩
  obtain ⟨_, url, sent, segment, urlEq, _⟩ := keeps.named .cancel _ built
  have lengths := congrArg List.length ((Except.ok.inj (reached.symm.trans sent)).trans urlEq)
  simp only [List.length_append] at lengths
  have path : (ItemBuilder.cancel.collection.path).length = 16 := by decide
  omega

end MailkubeSdk

import MailkubeSdk.Python.UrlJoin

/-
`urljoin` of a relative path on a base that names a directory.

Paths are lists of segments.  A reference of plain segments is appended to the
base; a last segment that is one dot leaves the directory the reference names,
and two dots leave the one above it.
-/

namespace Python.Url

/-- Segments, each followed by a slash. -/
def directory (segments : List Str) : Str := segments.flatMap (· ++ str "/")

/-- A segment that `urljoin` neither drops nor resolves. -/
def KeptSegment (segment : Str) : Prop :=
  segment ≠ [] ∧ segment ≠ str "." ∧ segment ≠ str ".."

/-- A character of a relative path: visible, and none of `/`, `?`, `#`, `:` and `;`. -/
def isPathChar (c : CodePoint) : Bool :=
  isPrintable c && !isDelimiter c && !(c == cp ':') && !(c == cp ';')

/-- An absolute base whose path is a directory of kept segments, without query
or fragment. -/
structure DirectoryUrl extends AbsoluteUrl where
  segments : List Str
  schemeLower : lowerAscii scheme = scheme
  tailEq : tail = str "/" ++ directory segments
  segmentsKept : ∀ segment ∈ segments, KeptSegment segment
  segmentsPlain : ∀ segment ∈ segments, ∀ c ∈ segment, isDelimiter c = false

/-- An absolute base whose path is empty, or kept directories and a last segment
that may be empty, without parameters, query or fragment. -/
structure PathUrl extends AbsoluteUrl where
  segments : List Str
  last : Str
  schemeLower : lowerAscii scheme = scheme
  tailEq : tail = str "/" ++ (directory segments ++ last) ∨ tail = [] ∧ segments = [] ∧ last = []
  segmentsKept : ∀ segment ∈ segments, KeptSegment segment
  segmentsPlain : ∀ segment ∈ segments, ∀ c ∈ segment, isDelimiter c = false
  lastPlain : ∀ c ∈ last, isDelimiter c = false ∧ c ≠ cp ';'

/-- A directory is a path with nothing after its last slash. -/
def DirectoryUrl.pathUrl (base : DirectoryUrl) : PathUrl where
  toAbsoluteUrl := base.toAbsoluteUrl
  segments := base.segments
  last := []
  schemeLower := base.schemeLower
  tailEq := .inl (by rw [base.tailEq, List.append_nil])
  segmentsKept := base.segmentsKept
  segmentsPlain := base.segmentsPlain
  lastPlain _ member := absurd member List.not_mem_nil

/-! ### Segments and text -/

theorem directory_append (front back : List Str) :
    directory (front ++ back) = directory front ++ directory back := List.flatMap_append

theorem join_segments (segments : List Str) (last : Str) :
    join (cp '/') (segments ++ [last]) = directory segments ++ last := by
  induction segments with
  | nil => exact List.append_nil last
  | cons first rest ih =>
      have more : rest ++ [last] ≠ [] := List.append_ne_nil_of_right_ne_nil _ (List.cons_ne_nil _ _)
      unfold join at ih ⊢
      rw [List.cons_append, List.intercalate_cons_of_ne_nil more, ih]
      simp only [directory, List.flatMap_cons, List.append_assoc]
      rfl

theorem splitOn_segments {segments : List Str} {last : Str}
    (plain : ∀ segment ∈ segments, cp '/' ∉ segment) (lastPlain : cp '/' ∉ last) :
    (directory segments ++ last).splitOn (cp '/') = segments ++ [last] := by
  rw [← join_segments]
  apply List.splitOn_intercalate
  · intro segment member
    rcases List.mem_append.mp member with inside | final
    · exact plain segment inside
    · rw [List.mem_singleton.mp final]
      exact lastPlain
  · exact List.append_ne_nil_of_right_ne_nil _ (List.cons_ne_nil _ _)

theorem directory_injective {left right : List Str} {last final : Str}
    (leftPlain : ∀ segment ∈ left, cp '/' ∉ segment)
    (rightPlain : ∀ segment ∈ right, cp '/' ∉ segment) (lastPlain : cp '/' ∉ last)
    (finalPlain : cp '/' ∉ final) (same : directory left ++ last = directory right ++ final) :
    left = right ∧ last = final := by
  have parts := congrArg (List.splitOn (cp '/')) same
  rw [splitOn_segments leftPlain lastPlain, splitOn_segments rightPlain finalPlain] at parts
  have pieces := List.append_inj' parts rfl
  exact ⟨pieces.1, (List.cons.inj pieces.2).1⟩

/-! ### Resolving dots -/

theorem resolveDots_kept (done : List Str) {segments : List Str}
    (kept : ∀ segment ∈ segments, segment ≠ str "." ∧ segment ≠ str "..") :
    resolveDots done segments = done.reverse ++ segments := by
  induction segments generalizing done with
  | nil => exact (List.append_nil _).symm
  | cons segment rest ih =>
      have first := kept segment List.mem_cons_self
      rw [resolveDots, if_neg first.2, if_neg first.1,
        ih (segment :: done) (fun s member => kept s (List.mem_cons_of_mem _ member)),
        List.reverse_cons, List.append_assoc, List.singleton_append]

private theorem resolveDots_append (done : List Str) {segments : List Str} (more : List Str)
    (kept : ∀ segment ∈ segments, segment ≠ str "." ∧ segment ≠ str "..") :
    resolveDots done (segments ++ more) = resolveDots (segments.reverse ++ done) more := by
  induction segments generalizing done with
  | nil => rfl
  | cons segment rest ih =>
      have first := kept segment List.mem_cons_self
      rw [List.cons_append, resolveDots, if_neg first.2, if_neg first.1,
        ih (segment :: done) (fun s member => kept s (List.mem_cons_of_mem _ member)),
        List.reverse_cons, List.append_assoc, List.singleton_append]

theorem resolveDots_dot {segments : List Str}
    (kept : ∀ segment ∈ segments, segment ≠ str "." ∧ segment ≠ str "..") :
    resolveDots [] (segments ++ [str "."]) = segments := by
  rw [resolveDots_append _ _ kept, resolveDots, if_neg (by decide), if_pos rfl, resolveDots,
    List.append_nil, List.reverse_reverse]

theorem resolveDots_dotdot {segments : List Str}
    (kept : ∀ segment ∈ segments, segment ≠ str "." ∧ segment ≠ str "..") :
    resolveDots [] (segments ++ [str ".."]) = segments.dropLast := by
  rw [resolveDots_append _ _ kept, resolveDots, if_pos rfl, resolveDots, List.append_nil,
    List.tail_reverse, List.reverse_reverse]

/-! ### Joining paths -/

theorem reference_relative {front : List Str} {last : Str}
    (frontKept : ∀ segment ∈ front, segment ≠ [])
    (frontPlain : ∀ segment ∈ front, cp '/' ∉ segment) (lastPlain : cp '/' ∉ last)
    (nonempty : last ≠ []) : (directory front ++ last).take 1 ≠ str "/" := by
  intro rooted
  cases front with
  | nil =>
      obtain ⟨c, rest, rfl⟩ := List.exists_cons_of_ne_nil nonempty
      exact lastPlain (by rw [(List.cons.inj rooted).1]; exact List.mem_cons_self)
  | cons segment rest =>
      obtain ⟨c, more, rfl⟩ := List.exists_cons_of_ne_nil (frontKept segment List.mem_cons_self)
      exact frontPlain _ List.mem_cons_self
        (by rw [(List.cons.inj rooted).1]; exact List.mem_cons_self)

/-- What a reference of kept directories and a last segment names, before its
dots are resolved: the directories of the base path, which end at its last slash. -/
theorem joinSegments_of_parts {basePath : Str} {parts above front : List Str} {last : Str}
    (base : (if (basePath.splitOn (cp '/')).getLast? ≠ some []
      then (basePath.splitOn (cp '/')).dropLast else basePath.splitOn (cp '/')) = [] :: parts)
    (directories : parts.filter (· ≠ []) = above) (frontKept : ∀ segment ∈ front, segment ≠ [])
    (frontPlain : ∀ segment ∈ front, cp '/' ∉ segment) (lastPlain : cp '/' ∉ last)
    (nonempty : last ≠ []) :
    joinSegments basePath (directory front ++ last) = [] :: (above ++ front ++ [last]) := by
  have linkParts := splitOn_segments frontPlain lastPlain
  have relative := reference_relative frontKept frontPlain lastPlain nonempty
  have keptFront : front.filter (· ≠ []) = front :=
    List.filter_eq_self.mpr (fun segment member => decide_eq_true (frontKept segment member))
  unfold joinSegments
  simp only [base, linkParts, if_neg relative, List.cons_append]
  rw [← List.append_assoc, List.dropLast_concat, List.getLast?_concat, List.filter_append,
    directories, keptFront]
  simp only [Option.toList_some, List.append_assoc]

theorem baseParts_eq {above : List Str} {last : Str}
    (abovePlain : ∀ segment ∈ above, cp '/' ∉ segment) (lastPlain : cp '/' ∉ last) :
    (if ((str "/" ++ (directory above ++ last)).splitOn (cp '/')).getLast? ≠ some []
      then ((str "/" ++ (directory above ++ last)).splitOn (cp '/')).dropLast
      else (str "/" ++ (directory above ++ last)).splitOn (cp '/')) =
        [] :: (above ++ if last = [] then [[]] else []) := by
  have rootedPlain : ∀ segment ∈ ([] : Str) :: above, cp '/' ∉ segment := by
    intro segment member
    rcases List.mem_cons.mp member with rfl | inside
    · exact List.not_mem_nil
    · exact abovePlain segment inside
  have split : (str "/" ++ (directory above ++ last)).splitOn (cp '/') =
      ([] :: above) ++ [last] := splitOn_segments rootedPlain lastPlain
  rw [split, List.getLast?_concat, List.dropLast_concat]
  by_cases empty : last = []
  · rw [if_neg (not_not.mpr (congrArg some empty)), if_pos empty, empty]
    rfl
  · rw [if_pos (fun same => empty (Option.some.inj same)), if_neg empty, List.append_nil]

/-- A path with the directories `above`: their slashes and perhaps a last
segment, or nothing at all. -/
def StandsIn (basePath : Str) (above : List Str) : Prop :=
  (∃ last, cp '/' ∉ last ∧ basePath = str "/" ++ (directory above ++ last)) ∨
    basePath = [] ∧ above = []

theorem joinSegments_directory {basePath : Str} {above front : List Str} {last : Str}
    (stands : StandsIn basePath above)
    (aboveKept : ∀ segment ∈ above, segment ≠ []) (frontKept : ∀ segment ∈ front, segment ≠ [])
    (abovePlain : ∀ segment ∈ above, cp '/' ∉ segment)
    (frontPlain : ∀ segment ∈ front, cp '/' ∉ segment) (lastPlain : cp '/' ∉ last)
    (nonempty : last ≠ []) :
    joinSegments basePath (directory front ++ last) = [] :: (above ++ front ++ [last]) := by
  have keptAbove : above.filter (· ≠ []) = above :=
    List.filter_eq_self.mpr (fun segment member => decide_eq_true (aboveKept segment member))
  rcases stands with ⟨final, finalPlain, rfl⟩ | ⟨rfl, rfl⟩
  · refine joinSegments_of_parts (baseParts_eq abovePlain finalPlain) ?_ frontKept frontPlain
      lastPlain nonempty
    rw [List.filter_append, keptAbove]
    split
    · exact List.append_nil above
    · exact List.append_nil above
  · exact @joinSegments_of_parts [] [] [] front last rfl rfl frontKept frontPlain lastPlain nonempty

/-- The text below a directory that a last segment leads to. -/
def landing (segments : List Str) (last : Str) : Str :=
  if last = str "." then directory segments
  else if last = str ".." then directory segments.dropLast
  else directory segments ++ last

private theorem join_rooted (segments : List Str) (last : Str) :
    join (cp '/') ([] :: (segments ++ [last])) = str "/" ++ (directory segments ++ last) := by
  rw [← List.cons_append, join_segments]
  simp only [directory, List.flatMap_cons, List.nil_append, List.append_assoc]

theorem resolvePath_directory {basePath : Str} {above front : List Str} {last : Str}
    (stands : StandsIn basePath above) (aboveKept : ∀ segment ∈ above, KeptSegment segment)
    (frontKept : ∀ segment ∈ front, KeptSegment segment)
    (abovePlain : ∀ segment ∈ above, cp '/' ∉ segment)
    (frontPlain : ∀ segment ∈ front, cp '/' ∉ segment) (lastPlain : cp '/' ∉ last)
    (nonempty : last ≠ []) :
    resolvePath basePath (directory front ++ last) =
      str "/" ++ landing (above ++ front) last := by
  have named := joinSegments_directory stands (fun s member => (aboveKept s member).1)
    (fun s member => (frontKept s member).1) abovePlain frontPlain lastPlain nonempty
  have kept : ∀ segment ∈ ([] : Str) :: (above ++ front),
      segment ≠ str "." ∧ segment ≠ str ".." := by
    intro segment member
    rcases List.mem_cons.mp member with rfl | inside
    · decide
    · rcases List.mem_append.mp inside with up | down
      · exact (aboveKept segment up).2
      · exact (frontKept segment down).2
  have final : ([] :: (above ++ front ++ [last]) : List Str).getLast? = some last := by
    rw [← List.cons_append, List.getLast?_concat]
  have rooted : ∀ text : Str, str "/" ++ text ≠ [] := fun _ => List.cons_ne_nil _ _
  unfold resolvePath
  rw [named]
  simp only [final, Option.some.injEq]
  unfold landing
  by_cases dot : last = str "."
  · rw [if_pos (Or.inl dot), if_pos dot, dot, ← List.cons_append, resolveDots_dot kept,
      List.cons_append, join_rooted, List.append_nil, if_neg (rooted _)]
  · rw [if_neg dot]
    by_cases dotdot : last = str ".."
    · rw [if_pos (Or.inr dotdot), if_pos dotdot, dotdot, ← List.cons_append,
        resolveDots_dotdot kept]
      cases inside : above ++ front with
      | nil => rfl
      | cons first rest =>
          rw [List.dropLast_cons_cons, List.cons_append, join_rooted, List.append_nil,
            if_neg (rooted _)]
    · have neither : ¬(last = str "." ∨ last = str "..") := fun either => either.elim dot dotdot
      rw [if_neg neither, if_neg dotdot, ← List.cons_append, resolveDots_kept]
      · rw [List.reverse_nil, List.nil_append, List.cons_append, join_rooted, if_neg (rooted _)]
      · intro segment member
        rcases List.mem_append.mp member with inside | same
        · exact kept segment inside
        · rw [List.mem_singleton.mp same]
          exact ⟨dot, dotdot⟩

/-! ### Joining a reference -/

section Reference

variable {link : Str} (plain : ∀ c ∈ link, isPathChar c = true ∨ c = cp '/')

include plain

private theorem reference_char {c : CodePoint} (member : c ∈ link) :
    isUnsafe c = false ∧ isC0OrSpace c = false ∧ c ≠ cp '?' ∧ c ≠ cp '#' ∧ c ≠ cp ':' ∧
      c ≠ cp ';' := by
  rcases plain c member with char | rfl
  · simp only [isPathChar, Bool.and_eq_true, Bool.not_eq_true', beq_eq_false_iff_ne,
      isDelimiter, Bool.or_eq_false_iff, isPrintable, decide_eq_true_eq] at char
    obtain ⟨⟨⟨⟨low, _⟩, ⟨⟨_, question⟩, hash⟩⟩, colon⟩, semicolon⟩ := char
    refine ⟨not_unsafe_of_printable ?_, ?_, question, hash, colon, semicolon⟩
    · simp only [isPrintable, Bool.and_eq_true, decide_eq_true_eq]
      omega
    · simp only [isC0OrSpace, decide_eq_false_iff_not]
      omega
  · decide

theorem urlsplit_reference (rules : HostRules) {default : Str}
    (clean : sanitizeScheme default = default) (relative : link.take 2 ≠ str "//") :
    urlsplit rules link default = some ⟨default, [], link, [], []⟩ := by
  have sanitized : sanitizeUrl link = link := by
    unfold sanitizeUrl
    have kept : link.dropWhile isC0OrSpace = link := by
      cases link with
      | nil => rfl
      | cons c rest =>
          exact List.dropWhile_cons_of_neg
            (by rw [(reference_char plain List.mem_cons_self).2.1]; exact Bool.false_ne_true)
    rw [kept]
    exact removeUnsafe_eq_self (fun c member => (reference_char plain member).1)
  have fresh : ∀ d ∈ [cp ':', cp '#', cp '?'], splitFirst d link = none := by
    intro d listed
    rw [splitFirst_eq_none_iff]
    intro member
    have others := reference_char plain member
    simp only [List.mem_cons, List.not_mem_nil, or_false] at listed
    rcases listed with rfl | rfl | rfl
    · exact others.2.2.2.2.1 rfl
    · exact others.2.2.2.1 rfl
    · exact others.2.2.1 rfl
  have noScheme : splitScheme link = none := by
    unfold splitScheme
    rw [fresh (cp ':') (by decide)]
  have noHost : splitNetloc link = ([], link) := if_neg relative
  have noHash : cutAt (cp '#') link = (link, []) := by
    unfold cutAt
    rw [fresh (cp '#') (by decide)]
    rfl
  have noQuery : cutAt (cp '?') link = (link, []) := by
    unfold cutAt
    rw [fresh (cp '?') (by decide)]
    rfl
  unfold urlsplit
  simp only [sanitized, noScheme, Option.getD_none, clean, noHost, noHash, noQuery]
  rfl

theorem splitParams_reference : splitParams link = (link, []) := by
  have fresh : cp ';' ∉ (splitAfterLast (cp '/') link).2 := by
    intro member
    have inside : cp ';' ∈ link := by
      have back := (List.takeWhile_prefix _).subset (List.mem_reverse.mp member)
      exact List.mem_reverse.mp back
    exact (reference_char plain inside).2.2.2.2.2 rfl
  unfold splitParams
  simp only [(splitFirst_eq_none_iff _ _).mpr fresh]

end Reference

/-! ### Reading the base -/

theorem PathUrl.tail_fresh (base : PathUrl) {d : CodePoint}
    (ends : isDelimiter d = true) (notSlash : d ≠ cp '/') : d ∉ base.tail := by
  intro member
  rcases base.tailEq with path | ⟨empty, _⟩
  · rw [path] at member
    rcases List.mem_append.mp member with slash | inside
    · exact notSlash (List.mem_singleton.mp slash)
    · rcases List.mem_append.mp inside with above | final
      · obtain ⟨segment, listed, here⟩ := List.mem_flatMap.mp above
        rcases List.mem_append.mp here with own | slash
        · rw [base.segmentsPlain segment listed d own] at ends
          cases ends
        · exact notSlash (List.mem_singleton.mp slash)
      · rw [(base.lastPlain d final).1] at ends
        cases ends
  · rw [empty] at member
    cases member

theorem rooted_ends (segments : List Str) :
    ∃ front, str "/" ++ directory segments = front ++ [cp '/'] := by
  cases List.eq_nil_or_concat segments with
  | inl none =>
      rw [none]
      exact ⟨[], rfl⟩
  | inr some =>
      obtain ⟨front, last, concat⟩ := some
      rw [concat, List.concat_eq_append, directory_append]
      exact ⟨str "/" ++ directory front ++ last, by
        simp only [directory, List.flatMap_cons, List.flatMap_nil, List.append_nil,
          List.append_assoc]
        rfl⟩

theorem PathUrl.last_slashFree (base : PathUrl) : cp '/' ∉ base.last := by
  intro member
  exact absurd (base.lastPlain _ member).1 (by decide)

theorem PathUrl.standsIn (base : PathUrl) : StandsIn base.tail base.segments := by
  rcases base.tailEq with path | ⟨empty, none, _⟩
  · exact .inl ⟨base.last, base.last_slashFree, path⟩
  · exact .inr ⟨empty, none⟩

theorem PathUrl.splitParams_tail (base : PathUrl) : splitParams base.tail = (base.tail, []) := by
  have fresh : splitFirst (cp ';') base.last = none :=
    (splitFirst_eq_none_iff _ _).mpr (fun member => (base.lastPlain _ member).2 rfl)
  unfold splitParams
  rcases base.tailEq with path | ⟨empty, _⟩
  · obtain ⟨front, ends⟩ := rooted_ends base.segments
    rw [path, ← List.append_assoc, ends, List.append_assoc, List.singleton_append,
      splitAfterLast_append _ _ _ base.last_slashFree]
    simp only [fresh]
  · rw [empty]
    rfl

theorem PathUrl.urlparse_text {rules : HostRules} (base : PathUrl)
    (accepted : acceptsNetloc rules base.authority = true) :
    urlparse rules base.text [] =
      some ⟨base.scheme, base.authority, base.tail, [], [], []⟩ := by
  have noHash : cutAt (cp '#') base.tail = (base.tail, []) := by
    unfold cutAt
    rw [(splitFirst_eq_none_iff _ _).mpr (base.tail_fresh (by decide) (by decide))]
    rfl
  have noQuery : cutAt (cp '?') base.tail = (base.tail, []) := by
    unfold cutAt
    rw [(splitFirst_eq_none_iff _ _).mpr (base.tail_fresh (by decide) (by decide))]
    rfl
  unfold urlparse
  rw [base.urlsplit_text, if_pos accepted, noHash, noQuery]
  simp only [Option.map_some, base.splitParams_tail, ite_self, base.schemeLower]

/-- A joined reference: the landing below the base's directories. -/
theorem urljoin_path {rules : HostRules} {base : PathUrl}
    (accepted : acceptsNetloc rules base.authority = true) {front : List Str} {last : Str}
    (frontKept : ∀ segment ∈ front, KeptSegment segment)
    (frontChars : ∀ segment ∈ front, ∀ c ∈ segment, isPathChar c = true)
    (lastChars : ∀ c ∈ last, isPathChar c = true) (nonempty : last ≠ []) :
    urljoin rules base.text (directory front ++ last) =
      some (assemble base.scheme base.authority
        (str "/" ++ landing (base.segments ++ front) last)) := by
  have slashFree : ∀ {c : CodePoint}, isPathChar c = true → c ≠ cp '/' := by
    rintro c char rfl
    exact absurd char (by decide)
  have frontPlain : ∀ segment ∈ front, cp '/' ∉ segment :=
    fun segment listed member => slashFree (frontChars segment listed _ member) rfl
  have lastPlain : cp '/' ∉ last := fun member => slashFree (lastChars _ member) rfl
  have abovePlain : ∀ segment ∈ base.segments, cp '/' ∉ segment := by
    intro segment listed member
    exact absurd (base.segmentsPlain segment listed _ member) (by decide)
  have linkNonempty : directory front ++ last ≠ [] := List.append_ne_nil_of_right_ne_nil _ nonempty
  have linkChars : ∀ c ∈ directory front ++ last, isPathChar c = true ∨ c = cp '/' := by
    intro c member
    rcases List.mem_append.mp member with inside | final
    · obtain ⟨segment, listed, here⟩ := List.mem_flatMap.mp inside
      rcases List.mem_append.mp here with own | slash
      · exact .inl (frontChars segment listed c own)
      · exact .inr (List.mem_singleton.mp slash)
    · exact .inl (lastChars c final)
  have relative : (directory front ++ last).take 2 ≠ str "//" := by
    intro rooted
    apply reference_relative (fun s member => (frontKept s member).1) frontPlain lastPlain nonempty
    have first := congrArg (List.take 1) rooted
    rw [List.take_take] at first
    exact first
  have http : base.scheme = str "http" ∨ base.scheme = str "https" :=
    base.schemeLower ▸ base.http
  have listed : base.scheme ∈ usesRelative ∧ base.scheme ∈ usesNetloc ∧
      base.scheme ∈ usesParams ∧ sanitizeScheme base.scheme = base.scheme := by
    rcases http with same | same <;> rw [same] <;> decide
  have parsedLink : urlparse rules (directory front ++ last) base.scheme =
      some ⟨base.scheme, [], directory front ++ last, [], [], []⟩ := by
    unfold urlparse
    rw [urlsplit_reference linkChars rules listed.2.2.2 relative]
    simp only [Option.map_some, listed.2.2.1, if_true, splitParams_reference linkChars]
  have path := resolvePath_directory base.standsIn base.segmentsKept frontKept abovePlain
    frontPlain lastPlain nonempty
  unfold urljoin
  rw [if_neg base.text_ne_nil, if_neg linkNonempty, base.urlparse_text accepted]
  simp only [Option.bind_eq_bind, Option.bind_some, parsedLink, ne_eq, not_true_eq_false, listed,
    or_self, if_false, and_false, if_true, linkNonempty, false_and, path]
  have schemeNonempty : base.scheme ≠ [] := http_scheme_ne_nil http
  have marks : str ":" ++ str "//" = str "://" := rfl
  have slashed : (str "/" ++ landing (base.segments ++ front) last).take 1 = str "/" := rfl
  simp only [urlunparse, urlunsplit, assemble, base.authorityNonempty, schemeNonempty, slashed,
    ne_eq, not_true_eq_false, not_false_eq_true, and_false, if_true, if_false, ← marks,
    List.append_assoc]

theorem DirectoryUrl.text_append (base : DirectoryUrl) (more : Str) :
    assemble base.scheme base.authority (str "/" ++ (directory base.segments ++ more)) =
      base.text ++ more := by
  simp only [AbsoluteUrl.text, assemble, base.tailEq, List.append_assoc]

/-- What a last segment leads to is a directory, or the segment itself below the
directory it stands in. -/
theorem landing_cases (segments : List Str) (last : Str) :
    (∃ shorter, landing segments last = directory shorter ∧ ∀ s ∈ shorter, s ∈ segments) ∨
      landing segments last = directory segments ++ last ∧ last ≠ str "." ∧ last ≠ str ".." := by
  unfold landing
  by_cases dot : last = str "."
  · rw [if_pos dot]
    exact .inl ⟨segments, rfl, fun _ member => member⟩
  · rw [if_neg dot]
    by_cases dotdot : last = str ".."
    · rw [if_pos dotdot]
      exact .inl ⟨segments.dropLast, rfl, fun _ member => (List.dropLast_subset _) member⟩
    · rw [if_neg dotdot]
      exact .inr ⟨rfl, dot, dotdot⟩

theorem length_landing_dots (segments : List Str) {last : Str}
    (dots : last = str "." ∨ last = str "..") :
    (landing segments last).length ≤ (directory segments).length := by
  rcases dots with rfl | rfl
  · exact Nat.le_refl _
  · have shorter : landing segments (str "..") = directory segments.dropLast := rfl
    rw [shorter]
    cases List.eq_nil_or_concat segments with
    | inl none =>
        rw [none]
        exact Nat.le_refl _
    | inr some =>
        obtain ⟨front, last, concat⟩ := some
        rw [concat, List.concat_eq_append, List.dropLast_concat, directory_append,
          List.length_append]
        exact Nat.le_add_right _ _

end Python.Url

import Mathlib.Data.List.TakeWhile
import MailkubeSdk.Python.UrlOrigin

/-
What `urljoin` can return on an absolute http(s) base.

Either the base itself, or a link with a scheme of its own as it was given, or
an assembled URL whose authority is the base's or the link's, cleaned.  The
origin guard built on this compares origins read by `urlsplit`; the last
section shows that a result which passes it has the base's authority in the
RFC 3986 reading.
-/

namespace Python.Url

/-- The origin of a URL as `urlsplit` reads it. -/
def origin (rules : HostRules) (url : Str) : Option (Str × Str) :=
  (urlsplit rules url []).map (fun parts => (parts.scheme, parts.netloc))

/-! ### Reading an arbitrary URL -/

private theorem mem_of_mem_splitScheme {url name rest : Str} {c : CodePoint}
    (cut : splitScheme url = some (name, rest)) (member : c ∈ rest) : c ∈ url := by
  unfold splitScheme at cut
  cases parts : splitFirst (cp ':') url with
  | none => simp only [parts, reduceCtorEq] at cut
  | some pair =>
      obtain ⟨before, after⟩ := pair
      rw [parts] at cut
      cases before with
      | nil => cases cut
      | cons first more =>
          simp only at cut
          split at cut
          · simp only [Option.some.injEq, Prod.mk.injEq] at cut
            obtain ⟨_, rfl⟩ := cut
            rw [(splitFirst_sound _ _ _ _ parts).1]
            exact List.mem_append_right _ (List.mem_cons_of_mem _ member)
          · cases cut

private theorem splitNetloc_plain (url : Str) :
    ∀ c ∈ (splitNetloc url).1, isDelimiter c = false ∧ c ∈ url := by
  intro c member
  unfold splitNetloc at member
  split at member
  · have ends := List.mem_takeWhile_imp member
    have inside := (List.takeWhile_prefix _).subset member
    exact ⟨by simpa only [Bool.not_eq_true'] using ends, List.mem_of_mem_drop inside⟩
  · cases member

theorem urlsplit_scheme {rules : HostRules} {url default : Str} {parts : SplitResult}
    (split : urlsplit rules url default = some parts) :
    parts.scheme =
      ((splitScheme (sanitizeUrl url)).map Prod.fst).getD (sanitizeScheme default) := by
  unfold urlsplit at split
  cases spelled : splitScheme (sanitizeUrl url) with
  | none =>
      simp only [spelled, Option.getD_none, Option.ite_none_right_eq_some,
        Option.some.injEq] at split
      rw [← split.2]
      rfl
  | some pair =>
      obtain ⟨name, rest⟩ := pair
      simp only [spelled, Option.getD_some, Option.ite_none_right_eq_some,
        Option.some.injEq] at split
      rw [← split.2]
      rfl

theorem urlsplit_netloc_plain {rules : HostRules} {url default : Str} {parts : SplitResult}
    (split : urlsplit rules url default = some parts) : PlainAuthority parts.netloc := by
  unfold urlsplit at split
  cases spelled : splitScheme (sanitizeUrl url) with
  | none =>
      simp only [spelled, Option.getD_none, Option.ite_none_right_eq_some,
        Option.some.injEq] at split
      rw [← split.2]
      intro c member
      have found := splitNetloc_plain _ c member
      exact ⟨found.1, not_unsafe_of_mem_sanitizeUrl found.2⟩
  | some pair =>
      obtain ⟨name, rest⟩ := pair
      simp only [spelled, Option.getD_some, Option.ite_none_right_eq_some,
        Option.some.injEq] at split
      rw [← split.2]
      intro c member
      have found := splitNetloc_plain _ c member
      exact ⟨found.1, not_unsafe_of_mem_sanitizeUrl (mem_of_mem_splitScheme spelled found.2)⟩

/-- The authority `urlsplit` cuts out of a URL, before it is checked. -/
def authorityOf (url : Str) : Str :=
  (splitNetloc ((splitScheme (sanitizeUrl url)).getD ([], sanitizeUrl url)).2).1

/-- Whether `urlsplit` raises is up to the authority alone. -/
theorem urlsplit_eq_none_iff {rules : HostRules} {url default : Str} :
    urlsplit rules url default = none ↔ acceptsNetloc rules (authorityOf url) = false := by
  unfold urlsplit authorityOf
  cases splitScheme (sanitizeUrl url) with
  | none =>
      simp only [Option.getD_none, ite_eq_right_iff, reduceCtorEq, imp_false, Bool.not_eq_true]
  | some pair =>
      simp only [Option.getD_some, ite_eq_right_iff, reduceCtorEq, imp_false, Bool.not_eq_true]

theorem urlsplit_netloc_accepted {rules : HostRules} {url default : Str} {parts : SplitResult}
    (split : urlsplit rules url default = some parts) :
    acceptsNetloc rules parts.netloc = true := by
  unfold urlsplit at split
  simp only [Option.ite_none_right_eq_some, Option.some.injEq] at split
  obtain ⟨accepted, rfl⟩ := split
  exact accepted

theorem urlparse_of_urlsplit {rules : HostRules} {url default : Str} {split : SplitResult}
    (found : urlsplit rules url default = some split) :
    ∃ parts, urlparse rules url default = some parts ∧ parts.scheme = split.scheme ∧
      parts.netloc = split.netloc := by
  unfold urlparse
  rw [found]
  exact ⟨_, rfl, rfl, rfl⟩

/-! ### Putting a URL back together -/

private theorem delimited_append {c : CodePoint} {head : Str} (more : Str)
    (ends : isDelimiter c = true) (starts : head = [] ∨ ∃ rest, head = c :: rest)
    (delimited : Delimited more) : Delimited (head ++ more) := by
  rcases starts with rfl | ⟨rest, rfl⟩
  · exact delimited
  · intro d later same
    rw [← (List.cons.inj same).1]
    exact ends

theorem delimited_nil : Delimited [] := by
  intro c rest impossible
  cases impossible

/-- With an authority, the parts come back as scheme, `://`, authority and a
tail that cannot extend the authority. -/
theorem urlunsplit_assemble (parts : SplitResult) (scheme : parts.scheme ≠ [])
    (netloc : parts.netloc ≠ []) :
    ∃ tail, urlunsplit parts = assemble parts.scheme parts.netloc tail ∧ Delimited tail := by
  obtain ⟨name, host, path, query, fragment⟩ := parts
  simp only at scheme netloc
  -- the three pieces of the tail, each empty or led by its own delimiter
  let slashed : Str := if path ≠ [] ∧ path.take 1 ≠ str "/" then str "/" ++ path else path
  let queried : Str := if query ≠ [] then str "?" ++ query else []
  let marked : Str := if fragment ≠ [] then str "#" ++ fragment else []
  have slashedStarts : slashed = [] ∨ ∃ rest, slashed = cp '/' :: rest := by
    cases path with
    | nil => exact Or.inl rfl
    | cons first rest =>
        by_cases slash : (first :: rest).take 1 = str "/"
        · right
          have kept : slashed = first :: rest := if_neg (fun both => both.2 slash)
          have firstEq : first = cp '/' := (List.cons.inj slash).1
          exact ⟨rest, by rw [kept, firstEq]⟩
        · right
          exact ⟨first :: rest, by simp only [slashed, slash, ne_eq, reduceCtorEq,
            not_false_eq_true, and_self, if_true]; rfl⟩
  have queriedStarts : queried = [] ∨ ∃ rest, queried = cp '?' :: rest := by
    by_cases empty : query = []
    · exact Or.inl (by simp only [queried, empty, ne_eq, not_true_eq_false, if_false])
    · exact Or.inr ⟨query, by simp only [queried, empty, ne_eq, not_false_eq_true, if_true]; rfl⟩
  have markedStarts : marked = [] ∨ ∃ rest, marked = cp '#' :: rest := by
    by_cases empty : fragment = []
    · exact Or.inl (by simp only [marked, empty, ne_eq, not_true_eq_false, if_false])
    · exact Or.inr ⟨fragment, by simp only [marked, empty, ne_eq, not_false_eq_true, if_true]; rfl⟩
  refine ⟨slashed ++ (queried ++ (marked ++ [])), ?_, ?_⟩
  · by_cases noQuery : query = [] <;> by_cases noFragment : fragment = [] <;>
      simp [urlunsplit, assemble, scheme, netloc, noQuery, noFragment, slashed, queried, marked,
        str, List.append_assoc]
  · exact delimited_append _ (by decide) slashedStarts
      (delimited_append _ (by decide) queriedStarts
        (delimited_append _ (by decide) markedStarts delimited_nil))

theorem urlunparse_assemble (parts : ParseResult) (scheme : parts.scheme ≠ [])
    (netloc : parts.netloc ≠ []) :
    ∃ tail, urlunparse parts = assemble parts.scheme parts.netloc tail ∧ Delimited tail :=
  urlunsplit_assemble _ scheme netloc

/-! ### A base that is read as absolute -/

theorem http_scheme_ne_nil {scheme : Str} (http : scheme = str "http" ∨ scheme = str "https") :
    scheme ≠ [] := by
  rcases http with rfl | rfl <;> decide

private theorem http_scheme_listed {scheme : Str}
    (http : scheme = str "http" ∨ scheme = str "https") :
    scheme ∈ usesRelative ∧ scheme ∈ usesNetloc ∧ sanitizeScheme scheme = scheme := by
  rcases http with rfl | rfl <;> decide

/-- A base that `urlsplit` reads as an absolute http(s) URL. -/
structure HttpBase (rules : HostRules) (base : Str) where
  parts : SplitResult
  read : urlsplit rules base [] = some parts
  http : parts.scheme = str "http" ∨ parts.scheme = str "https"
  hostNonempty : parts.netloc ≠ []

namespace HttpBase

variable {rules : HostRules} {text : Str} (base : HttpBase rules text)

/-- The authority a reference resolves to: its own, or the base's. -/
def hostOf (netloc : Str) : Str := if netloc = [] then base.parts.netloc else netloc

/-- A link that stays on the base: empty, or with the base's scheme and no
authority but the base's, as `urlsplit` reads it. -/
def SameOriginLink (link : Str) : Prop :=
  link = [] ∨ ∃ parts, urlsplit rules link base.parts.scheme = some parts ∧
    parts.scheme = base.parts.scheme ∧ (parts.netloc = [] ∨ parts.netloc = base.parts.netloc)

include base

theorem text_ne_nil : text ≠ [] := by
  rintro rfl
  exact http_scheme_ne_nil base.http (urlsplit_scheme base.read)

theorem origin_text : origin rules text = some (base.parts.scheme, base.parts.netloc) := by
  unfold origin
  rw [base.read]
  rfl

theorem hostOf_ne_nil (netloc : Str) : base.hostOf netloc ≠ [] := by
  unfold hostOf
  split
  · exact base.hostNonempty
  · assumption

theorem hostOf_plain {netloc : Str} (plain : PlainAuthority netloc) :
    PlainAuthority (base.hostOf netloc) := by
  unfold hostOf
  split
  · exact urlsplit_netloc_plain base.read
  · exact plain

theorem hostOf_accepted {netloc : Str} (accepted : acceptsNetloc rules netloc = true) :
    acceptsNetloc rules (base.hostOf netloc) = true := by
  unfold hostOf
  split
  · exact urlsplit_netloc_accepted base.read
  · exact accepted

theorem scheme_name :
    base.parts.scheme ≠ [] ∧ ∀ c ∈ base.parts.scheme, isAlpha c = true := by
  apply http_name
  rcases base.http with same | same <;> rw [same] <;> decide

theorem scheme_lower : lowerAscii base.parts.scheme = base.parts.scheme := by
  rcases base.http with same | same <;> rw [same] <;> decide

theorem urljoin_empty : urljoin rules text [] = some text := by
  unfold urljoin
  rw [if_neg base.text_ne_nil, if_pos rfl]

variable {link : Str} (nonempty : link ≠ [])

include nonempty

theorem urljoin_foreign {parts : SplitResult}
    (split : urlsplit rules link base.parts.scheme = some parts)
    (foreign : parts.scheme ≠ base.parts.scheme) : urljoin rules text link = some link := by
  obtain ⟨b, parsedBase, baseScheme, -⟩ := urlparse_of_urlsplit base.read
  obtain ⟨u, parsedLink, uScheme, -⟩ := urlparse_of_urlsplit split
  unfold urljoin
  rw [if_neg base.text_ne_nil, if_neg nonempty, parsedBase]
  simp only [Option.bind_eq_bind, Option.bind_some, baseScheme, parsedLink, uScheme]
  exact if_pos (Or.inl foreign)

theorem urljoin_unreadable (unreadable : urlsplit rules link base.parts.scheme = none) :
    urljoin rules text link = none := by
  obtain ⟨b, parsedBase, baseScheme, -⟩ := urlparse_of_urlsplit base.read
  unfold urljoin
  rw [if_neg base.text_ne_nil, if_neg nonempty, parsedBase]
  simp only [Option.bind_eq_bind, Option.bind_some, baseScheme, urlparse, unreadable,
    Option.map_none, Option.bind_none]

theorem urljoin_local {parts : SplitResult}
    (split : urlsplit rules link base.parts.scheme = some parts)
    (same : parts.scheme = base.parts.scheme) :
    ∃ tail, urljoin rules text link =
        some (assemble base.parts.scheme (base.hostOf parts.netloc) tail) ∧ Delimited tail := by
  obtain ⟨b, parsedBase, baseScheme, baseNetloc⟩ := urlparse_of_urlsplit base.read
  obtain ⟨relative, usesHost, -⟩ := http_scheme_listed base.http
  obtain ⟨out, joined, outScheme, outNetloc⟩ : ∃ out : ParseResult,
      urljoin rules text link = some (urlunparse out) ∧
        out.scheme = base.parts.scheme ∧ out.netloc = base.hostOf parts.netloc := by
    obtain ⟨u, parsedLink, uScheme, uNetloc⟩ := urlparse_of_urlsplit split
    rw [same] at uScheme
    unfold urljoin
    rw [if_neg base.text_ne_nil, if_neg nonempty, parsedBase]
    simp only [Option.bind_eq_bind, Option.bind_some, baseScheme, parsedLink, uScheme, uNetloc,
      ne_eq, not_true_eq_false, relative, or_self, if_false, usesHost, true_and, if_true]
    by_cases ownHost : parts.netloc = []
    · -- no authority of its own: the base's is used
      simp only [ownHost, not_true_eq_false, if_false, hostOf, if_true]
      split
      · exact ⟨_, rfl, rfl, baseNetloc⟩
      · exact ⟨_, rfl, rfl, baseNetloc⟩
    · simp only [ownHost, not_false_eq_true, if_true, hostOf, if_false]
      exact ⟨u, rfl, uScheme, uNetloc⟩
  obtain ⟨tail, shape, delimited⟩ := urlunparse_assemble out (outScheme ▸ base.scheme_name.1)
    (outNetloc ▸ base.hostOf_ne_nil parts.netloc)
  rw [outScheme, outNetloc] at shape
  exact ⟨tail, by rw [joined, shape], delimited⟩

omit nonempty

theorem origin_assemble {netloc tail : Str} (plain : PlainAuthority netloc)
    (delimited : Delimited tail) :
    origin rules (assemble base.parts.scheme netloc tail) =
      if acceptsNetloc rules netloc then some (base.parts.scheme, netloc) else none := by
  obtain ⟨nonempty, alpha⟩ := base.scheme_name
  unfold origin
  rw [urlsplit_assemble rules [] nonempty alpha plain delimited, base.scheme_lower]
  split <;> rfl

theorem origin_of_foreign {parts : SplitResult}
    (split : urlsplit rules link base.parts.scheme = some parts)
    (foreign : parts.scheme ≠ base.parts.scheme) :
    origin rules link = some (parts.scheme, parts.netloc) := by
  have schemeEq := urlsplit_scheme split
  rw [(http_scheme_listed base.http).2.2] at schemeEq
  cases spelled : splitScheme (sanitizeUrl link) with
  | none =>
      rw [spelled] at schemeEq
      exact absurd schemeEq foreign
  | some pair =>
      have independent : urlsplit rules link [] = urlsplit rules link base.parts.scheme := by
        unfold urlsplit
        rw [spelled]
        rfl
      unfold origin
      rw [independent, split]
      rfl

/-- A join raises exactly on the links `urlsplit` raises on. -/
theorem urljoin_eq_none_iff :
    urljoin rules text link = none ↔
      link ≠ [] ∧ acceptsNetloc rules (authorityOf link) = false := by
  by_cases empty : link = []
  · rw [empty, base.urljoin_empty]
    simp only [reduceCtorEq, ne_eq, not_true_eq_false, false_and]
  · rw [← @urlsplit_eq_none_iff rules link base.parts.scheme]
    cases split : urlsplit rules link base.parts.scheme with
    | none => exact iff_of_true (base.urljoin_unreadable empty split) ⟨empty, rfl⟩
    | some parts =>
        have joined : ∃ url, urljoin rules text link = some url := by
          by_cases same : parts.scheme = base.parts.scheme
          · obtain ⟨tail, joined, _⟩ := base.urljoin_local empty split same
            exact ⟨_, joined⟩
          · exact ⟨_, base.urljoin_foreign empty split same⟩
        obtain ⟨url, joined⟩ := joined
        rw [joined]
        simp only [reduceCtorEq, and_false]

theorem origin_of_urljoin {url : Str} (joined : urljoin rules text link = some url) :
    ∃ read, origin rules url = some read := by
  by_cases empty : link = []
  · rw [empty, base.urljoin_empty] at joined
    cases joined
    exact ⟨_, base.origin_text⟩
  · cases split : urlsplit rules link base.parts.scheme with
    | none =>
        rw [base.urljoin_unreadable empty split] at joined
        cases joined
    | some parts =>
        by_cases same : parts.scheme = base.parts.scheme
        · obtain ⟨tail, shape, delimited⟩ := base.urljoin_local empty split same
          have plain := base.hostOf_plain (urlsplit_netloc_plain split)
          have read := base.origin_assemble plain delimited
          rw [if_pos (base.hostOf_accepted (urlsplit_netloc_accepted split))] at read
          rw [joined] at shape
          exact ⟨_, Option.some.inj shape ▸ read⟩
        · rw [base.urljoin_foreign empty split same] at joined
          exact ⟨_, Option.some.inj joined ▸ base.origin_of_foreign split same⟩

theorem hostOf_eq_netloc_iff {netloc : Str} :
    base.hostOf netloc = base.parts.netloc ↔ netloc = [] ∨ netloc = base.parts.netloc := by
  unfold hostOf
  by_cases none : netloc = []
  · rw [if_pos none]
    exact iff_of_true rfl (.inl none)
  · rw [if_neg none, or_iff_right none]

/-- The guard lets a join through exactly on the links that stay on the base. -/
theorem urljoin_guard_iff :
    (∃ url, urljoin rules text link = some url ∧
        origin rules url = some (base.parts.scheme, base.parts.netloc)) ↔
      base.SameOriginLink link := by
  by_cases empty : link = []
  · rw [empty, base.urljoin_empty]
    exact iff_of_true ⟨text, rfl, base.origin_text⟩ (.inl rfl)
  · cases split : urlsplit rules link base.parts.scheme with
    | none =>
        rw [base.urljoin_unreadable empty split]
        simp only [reduceCtorEq, false_and, exists_false, SameOriginLink, empty, split, or_self]
    | some parts =>
        by_cases same : parts.scheme = base.parts.scheme
        · obtain ⟨tail, joined, delimited⟩ := base.urljoin_local empty split same
          have plain := base.hostOf_plain (urlsplit_netloc_plain split)
          have read := base.origin_assemble plain delimited
          rw [joined]
          constructor
          · rintro ⟨url, urlEq, sameOrigin⟩
            rw [← Option.some.inj urlEq, read] at sameOrigin
            have hostEq := congrArg Prod.snd
              (Option.some.inj (Option.ite_none_right_eq_some.mp sameOrigin).2)
            exact .inr ⟨parts, split, same, base.hostOf_eq_netloc_iff.mp hostEq⟩
          · rintro (impossible | ⟨others, found, -, host⟩)
            · exact absurd impossible empty
            · rw [split] at found
              rw [← Option.some.inj found] at host
              rw [if_pos (base.hostOf_accepted (urlsplit_netloc_accepted split)),
                base.hostOf_eq_netloc_iff.mpr host] at read
              rw [base.hostOf_eq_netloc_iff.mpr host]
              exact ⟨_, rfl, read⟩
        · have read := base.origin_of_foreign split same
          rw [base.urljoin_foreign empty split same]
          constructor
          · rintro ⟨url, urlEq, sameOrigin⟩
            rw [← Option.some.inj urlEq, read] at sameOrigin
            exact absurd (congrArg Prod.fst (Option.some.inj sameOrigin)) same
          · rintro (impossible | ⟨others, found, sameScheme, -⟩)
            · exact absurd impossible empty
            · rw [split] at found
              rw [← Option.some.inj found] at sameScheme
              exact absurd sameScheme same

end HttpBase

/-! ### An absolute base -/

theorem AbsoluteUrl.plain (base : AbsoluteUrl) : PlainAuthority base.authority :=
  fun c member =>
    ⟨base.authorityPlain c member, not_unsafe_of_printable (base.authorityPrintable c member)⟩

theorem AbsoluteUrl.text_ne_nil (base : AbsoluteUrl) : base.text ≠ [] := by
  have nonempty := (http_name base.http).1
  intro empty
  simp only [text, assemble, List.append_eq_nil_iff] at empty
  exact nonempty empty.1.1.1

theorem AbsoluteUrl.removeUnsafe_tail (base : AbsoluteUrl) : removeUnsafe base.tail = base.tail :=
  removeUnsafe_eq_self (fun c member => not_unsafe_of_printable (base.tailPrintable c member))

/-- `urlsplit` reads an absolute base as it was written, if it takes its authority. -/
theorem AbsoluteUrl.urlsplit_text (rules : HostRules) (base : AbsoluteUrl) (default : Str) :
    urlsplit rules base.text default =
      if acceptsNetloc rules base.authority then
        some
          { scheme := lowerAscii base.scheme, netloc := base.authority
            path := (cutAt (cp '?') (cutAt (cp '#') base.tail).1).1
            query := (cutAt (cp '?') (cutAt (cp '#') base.tail).1).2
            fragment := (cutAt (cp '#') base.tail).2 }
      else none := by
  obtain ⟨nonempty, alpha⟩ := http_name base.http
  rw [text, urlsplit_assemble rules default nonempty alpha base.plain base.tailDelimited,
    base.removeUnsafe_tail]

theorem AbsoluteUrl.origin_text (rules : HostRules) (base : AbsoluteUrl) :
    origin rules base.text =
      if acceptsNetloc rules base.authority then some (lowerAscii base.scheme, base.authority)
      else none := by
  unfold origin
  rw [base.urlsplit_text]
  split <;> rfl

/-- An absolute base whose authority is taken is read as one. -/
def AbsoluteUrl.httpBase {rules : HostRules} (base : AbsoluteUrl)
    (accepted : acceptsNetloc rules base.authority = true) : HttpBase rules base.text where
  parts :=
    { scheme := lowerAscii base.scheme, netloc := base.authority
      path := (cutAt (cp '?') (cutAt (cp '#') base.tail).1).1
      query := (cutAt (cp '?') (cutAt (cp '#') base.tail).1).2
      fragment := (cutAt (cp '#') base.tail).2 }
  read := by rw [base.urlsplit_text, if_pos accepted]
  http := base.http
  hostNonempty := base.authorityNonempty

theorem urljoin_empty (rules : HostRules) (base : AbsoluteUrl) :
    urljoin rules base.text [] = some base.text := by
  unfold urljoin
  rw [if_neg base.text_ne_nil, if_pos rfl]

theorem urljoin_rejected_base {rules : HostRules} {base : AbsoluteUrl} {link : Str}
    (rejected : ¬acceptsNetloc rules base.authority = true) (nonempty : link ≠ []) :
    urljoin rules base.text link = none := by
  unfold urljoin urlparse
  rw [if_neg base.text_ne_nil, if_neg nonempty, base.urlsplit_text, if_neg rejected]
  rfl

/-! ### The origin guard -/

/-- A join that keeps the origin `urlsplit` reports keeps scheme and authority
in the RFC 3986 reading as well. -/
theorem urljoin_confined {rules : HostRules} {base : AbsoluteUrl} {link url : Str}
    (joined : urljoin rules base.text link = some url)
    (sameOrigin : origin rules url = some (lowerAscii base.scheme, base.authority)) :
    ∃ scheme, rfcScheme url = some scheme ∧ lowerAscii scheme = lowerAscii base.scheme ∧
      rfcAuthority url = some base.authority := by
  obtain ⟨nonempty, alpha⟩ := http_name base.http
  have ownText : ∃ scheme, rfcScheme base.text = some scheme ∧
      lowerAscii scheme = lowerAscii base.scheme ∧ rfcAuthority base.text = some base.authority :=
    ⟨base.scheme, rfcScheme_assemble _ _ nonempty alpha, rfl,
      rfcAuthority_assemble nonempty alpha base.authorityPlain base.tailDelimited⟩
  by_cases empty : link = []
  · subst link
    rw [urljoin_empty] at joined
    exact Option.some.inj joined ▸ ownText
  by_cases accepted : acceptsNetloc rules base.authority = true
  · have stays := (base.httpBase accepted).urljoin_guard_iff.mp ⟨url, joined, sameOrigin⟩
    rcases stays with impossible | ⟨parts, split, same, host⟩
    · exact absurd impossible empty
    · obtain ⟨tail, shape, delimited⟩ := (base.httpBase accepted).urljoin_local empty split same
      rw [shape, (base.httpBase accepted).hostOf_eq_netloc_iff.mpr host] at joined
      obtain ⟨lowerNonempty, lowerAlpha⟩ := (base.httpBase accepted).scheme_name
      rw [← Option.some.inj joined]
      exact ⟨lowerAscii base.scheme, rfcScheme_assemble _ _ lowerNonempty lowerAlpha,
        lowerAscii_idem _,
        rfcAuthority_assemble lowerNonempty lowerAlpha base.authorityPlain delimited⟩
  · rw [urljoin_rejected_base accepted empty] at joined
    cases joined

end Python.Url

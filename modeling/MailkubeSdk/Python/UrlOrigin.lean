import MailkubeSdk.Python.Url

/-
The origin of a URL, read in two ways.

RFC 3986 reads scheme and authority off the text as it stands.  `urlsplit`
first strips and deletes characters.  For a URL assembled as scheme, `://`,
authority and a tail that starts with a delimiter the two readings agree, and
everything `urljoin` assembles has that shape.
-/

namespace Python.Url

/-! ### The RFC 3986 reading -/

/-- What stands before the first `:`, provided no `/`, `?` or `#` precedes it. -/
def rfcScheme (url : Str) : Option Str :=
  let name := url.takeWhile (fun c => !isDelimiter c && !(c == cp ':'))
  if name ≠ [] ∧ (url.drop name.length).take 1 = str ":" then some name else none

/-- The text between `//` and the first `/`, `?` or `#`. -/
def rfcAuthority (url : Str) : Option Str :=
  let rest := match rfcScheme url with
    | some name => url.drop (name.length + 1)
    | none => url
  if rest.take 2 = str "//" then some ((rest.drop 2).takeWhile (fun c => !isDelimiter c)) else none

/-- Empty, or starting with a character that ends an authority. -/
def Delimited (tail : Str) : Prop := ∀ c rest, tail = c :: rest → isDelimiter c = true

/-- Free of what ends an authority and of what `urlsplit` deletes. -/
def PlainAuthority (netloc : Str) : Prop :=
  ∀ c ∈ netloc, isDelimiter c = false ∧ isUnsafe c = false

def assemble (scheme netloc tail : Str) : Str := scheme ++ str "://" ++ netloc ++ tail

/-- An absolute http(s) URL in printable ASCII with a non-empty authority. -/
structure AbsoluteUrl where
  scheme : Str
  authority : Str
  tail : Str
  http : lowerAscii scheme = str "http" ∨ lowerAscii scheme = str "https"
  authorityNonempty : authority ≠ []
  authorityPlain : ∀ c ∈ authority, isDelimiter c = false
  tailDelimited : Delimited tail
  authorityPrintable : ∀ c ∈ authority, isPrintable c = true
  tailPrintable : ∀ c ∈ tail, isPrintable c = true

def AbsoluteUrl.text (url : AbsoluteUrl) : Str := assemble url.scheme url.authority url.tail

/-! ### Character classes -/

theorem not_unsafe_of_printable {c : CodePoint} (h : isPrintable c = true) :
    isUnsafe c = false := by
  simp only [isPrintable, Bool.and_eq_true, decide_eq_true_eq] at h
  simp only [isUnsafe, Bool.or_eq_false_iff, beq_eq_false_iff_ne, ne_eq]
  omega

theorem not_unsafe_of_delimiter {c : CodePoint} (h : isDelimiter c = true) :
    isUnsafe c = false := by
  simp only [isDelimiter, Bool.or_eq_true, beq_iff_eq] at h
  rcases h with (rfl | rfl) | rfl <;> decide

private theorem cp_not_alpha {c : CodePoint} (h : isAlpha c = true) (d : Char)
    (other : isAlpha (cp d) = false) : c ≠ cp d := by
  intro same
  rw [same, other] at h
  cases h

theorem alpha_ne_colon {c : CodePoint} (h : isAlpha c = true) : c ≠ cp ':' :=
  cp_not_alpha h ':' (by decide)

theorem alpha_not_delimiter {c : CodePoint} (h : isAlpha c = true) : isDelimiter c = false := by
  simp only [isDelimiter, Bool.or_eq_false_iff, beq_eq_false_iff_ne]
  exact ⟨⟨cp_not_alpha h '/' (by decide), cp_not_alpha h '?' (by decide)⟩,
    cp_not_alpha h '#' (by decide)⟩

private theorem alpha_bounds {c : CodePoint} (h : isAlpha c = true) : 65 ≤ c.val := by
  simp only [isAlpha, isUpper, isLower, Bool.or_eq_true, Bool.and_eq_true,
    decide_eq_true_eq] at h
  omega

theorem alpha_not_c0 {c : CodePoint} (h : isAlpha c = true) : isC0OrSpace c = false := by
  have bound := alpha_bounds h
  simp only [isC0OrSpace, decide_eq_false_iff_not]
  omega

theorem alpha_not_unsafe {c : CodePoint} (h : isAlpha c = true) : isUnsafe c = false := by
  have bound := alpha_bounds h
  simp only [isUnsafe, Bool.or_eq_false_iff, beq_eq_false_iff_ne, ne_eq]
  omega

theorem alpha_schemeChar {c : CodePoint} (h : isAlpha c = true) : isSchemeChar c = true := by
  simp only [isSchemeChar, h, Bool.true_or]

theorem alpha_of_lower_isLower {c : CodePoint} (h : isLower (lowerChar c) = true) :
    isAlpha c = true := by
  by_cases upper : isUpper c = true
  · simp only [isAlpha, upper, Bool.true_or]
  · rw [lowerChar_of_not_upper (Bool.eq_false_iff.mpr upper)] at h
    simp only [isAlpha, h, Bool.or_true]

/-- A scheme that spells `http` or `https` in some letter case is a word of letters. -/
theorem http_name {name : Str}
    (http : lowerAscii name = str "http" ∨ lowerAscii name = str "https") :
    name ≠ [] ∧ ∀ c ∈ name, isAlpha c = true := by
  have letters : ∀ c ∈ lowerAscii name, isLower c = true := by
    apply List.all_eq_true.mp
    rcases http with same | same <;> rw [same] <;> decide
  constructor
  · rintro rfl
    rcases http with same | same <;> exact absurd same (by decide)
  · intro c member
    exact alpha_of_lower_isLower (letters (lowerChar c) (List.mem_map_of_mem member))

/-! ### Cleaning -/

theorem removeUnsafe_eq_self {text : Str} (h : ∀ c ∈ text, isUnsafe c = false) :
    removeUnsafe text = text := by
  apply List.filter_eq_self.mpr
  intro c member
  rw [h c member]
  rfl

theorem not_unsafe_of_mem_sanitizeUrl {url : Str} {c : CodePoint} (h : c ∈ sanitizeUrl url) :
    isUnsafe c = false := by
  have kept := (List.mem_filter.mp h).2
  simpa only [Bool.not_eq_true'] using kept

theorem Delimited.removeUnsafe {tail : Str} (h : Delimited tail) :
    Delimited (removeUnsafe tail) := by
  cases tail with
  | nil =>
      intro c rest impossible
      cases impossible
  | cons first later =>
      intro c rest same
      have ends := h first later rfl
      have kept : Python.Url.removeUnsafe (first :: later) =
          first :: Python.Url.removeUnsafe later := by
        unfold Python.Url.removeUnsafe
        rw [List.filter_cons_of_pos (by rw [not_unsafe_of_delimiter ends]; rfl)]
      rw [kept] at same
      rw [← (List.cons.inj same).1]
      exact ends

private theorem sanitize_of_alpha_head (first : CodePoint) (rest : Str)
    (alpha : isAlpha first = true) :
    sanitizeUrl (first :: rest) = removeUnsafe (first :: rest) := by
  unfold sanitizeUrl
  rw [List.dropWhile_cons_of_neg (by rw [alpha_not_c0 alpha]; exact Bool.false_ne_true)]

theorem sanitizeUrl_assemble {scheme netloc : Str} (tail : Str) (nonempty : scheme ≠ [])
    (alpha : ∀ c ∈ scheme, isAlpha c = true) (plain : PlainAuthority netloc) :
    sanitizeUrl (assemble scheme netloc tail) = assemble scheme netloc (removeUnsafe tail) := by
  obtain ⟨first, name, rfl⟩ := List.exists_cons_of_ne_nil nonempty
  have schemeKept : removeUnsafe (first :: name) = first :: name :=
    removeUnsafe_eq_self (fun c member => alpha_not_unsafe (alpha c member))
  have netlocKept : removeUnsafe netloc = netloc :=
    removeUnsafe_eq_self (fun c member => (plain c member).2)
  have marksKept : removeUnsafe (str "://") = str "://" := by decide
  have step := sanitize_of_alpha_head first (name ++ str "://" ++ netloc ++ tail)
    (alpha first List.mem_cons_self)
  unfold assemble
  simp only [List.cons_append] at step ⊢
  rw [step]
  simp only [← List.cons_append]
  unfold removeUnsafe at schemeKept netlocKept marksKept ⊢
  rw [List.filter_append, List.filter_append, List.filter_append, schemeKept, netlocKept, marksKept]

/-! ### `urlsplit` on an assembled URL -/

theorem splitScheme_assemble {scheme : Str} (rest : Str) (nonempty : scheme ≠ [])
    (alpha : ∀ c ∈ scheme, isAlpha c = true) :
    splitScheme (scheme ++ cp ':' :: rest) = some (lowerAscii scheme, rest) := by
  have fresh : cp ':' ∉ scheme := fun member => alpha_ne_colon (alpha _ member) rfl
  have allChars : scheme.all isSchemeChar = true :=
    List.all_eq_true.mpr (fun c member => alpha_schemeChar (alpha c member))
  obtain ⟨first, name, rfl⟩ := List.exists_cons_of_ne_nil nonempty
  unfold splitScheme
  rw [splitFirst_append _ _ _ fresh]
  simp only [alpha first List.mem_cons_self, allChars, Bool.and_self, if_true]

private theorem span_authority {netloc tail : Str} (plain : ∀ c ∈ netloc, isDelimiter c = false)
    (delimited : Delimited tail) :
    (netloc ++ tail).takeWhile (fun c => !isDelimiter c) = netloc ∧
      (netloc ++ tail).dropWhile (fun c => !isDelimiter c) = tail := by
  have kept : ∀ c ∈ netloc, (!isDelimiter c) = true := by
    intro c member
    rw [plain c member]
    rfl
  rw [List.takeWhile_append_of_pos kept, List.dropWhile_append_of_pos kept]
  cases tail with
  | nil => exact ⟨by rw [List.takeWhile_nil, List.append_nil], List.dropWhile_nil⟩
  | cons c rest =>
      have ends := delimited c rest rfl
      simp only [List.takeWhile_cons, List.dropWhile_cons, ends, Bool.not_true,
        Bool.false_eq_true, if_false, List.append_nil, and_self]

theorem splitNetloc_assemble {netloc tail : Str} (plain : ∀ c ∈ netloc, isDelimiter c = false)
    (delimited : Delimited tail) : splitNetloc (str "//" ++ (netloc ++ tail)) = (netloc, tail) := by
  have marks : (str "//" ++ (netloc ++ tail)).take 2 = str "//" :=
    List.take_left' (by decide)
  have rest : (str "//" ++ (netloc ++ tail)).drop 2 = netloc ++ tail :=
    List.drop_left' (by decide)
  obtain ⟨front, back⟩ := span_authority plain delimited
  simp only [splitNetloc, marks, rest, if_true, front, back]

/-- What `urlsplit` makes of an assembled URL: the authority it was assembled
from, and the cleaned tail cut at `#` and at `?`. -/
theorem urlsplit_assemble (rules : HostRules) {scheme netloc tail : Str} (default : Str)
    (nonempty : scheme ≠ []) (alpha : ∀ c ∈ scheme, isAlpha c = true)
    (plain : PlainAuthority netloc) (delimited : Delimited tail) :
    urlsplit rules (assemble scheme netloc tail) default =
      if acceptsNetloc rules netloc then
        some
          { scheme := lowerAscii scheme, netloc := netloc
            path := (cutAt (cp '?') (cutAt (cp '#') (removeUnsafe tail)).1).1
            query := (cutAt (cp '?') (cutAt (cp '#') (removeUnsafe tail)).1).2
            fragment := (cutAt (cp '#') (removeUnsafe tail)).2 }
      else none := by
  have clean := sanitizeUrl_assemble tail nonempty alpha plain
  have marks : str "://" = cp ':' :: str "//" := by decide
  have shape : assemble scheme netloc (removeUnsafe tail) =
      scheme ++ cp ':' :: (str "//" ++ (netloc ++ removeUnsafe tail)) := by
    simp only [assemble, marks, List.append_assoc, List.cons_append]
  have named := splitScheme_assemble (str "//" ++ (netloc ++ removeUnsafe tail)) nonempty alpha
  have cut := splitNetloc_assemble (fun c member => (plain c member).1) delimited.removeUnsafe
  unfold urlsplit
  rw [clean, shape, named]
  simp only [Option.getD_some, cut]

/-! ### Both readings of an assembled URL -/

theorem rfcScheme_assemble {scheme : Str} (netloc tail : Str) (nonempty : scheme ≠ [])
    (alpha : ∀ c ∈ scheme, isAlpha c = true) :
    rfcScheme (assemble scheme netloc tail) = some scheme := by
  have kept : ∀ c ∈ scheme, (!isDelimiter c && !(c == cp ':')) = true := by
    intro c member
    have notColon : (c == cp ':') = false :=
      beq_eq_false_iff_ne.mpr (alpha_ne_colon (alpha c member))
    rw [alpha_not_delimiter (alpha c member), notColon]
    rfl
  have name : (assemble scheme netloc tail).takeWhile
      (fun c => !isDelimiter c && !(c == cp ':')) = scheme := by
    unfold assemble
    rw [List.append_assoc, List.append_assoc, List.takeWhile_append_of_pos kept]
    have stops : (str "://" ++ (netloc ++ tail)).takeWhile
        (fun c => !isDelimiter c && !(c == cp ':')) = [] := by
      exact List.takeWhile_cons_of_neg (by decide)
    rw [stops, List.append_nil]
  have colon : ((assemble scheme netloc tail).drop scheme.length).take 1 = str ":" := by
    unfold assemble
    rw [List.append_assoc, List.append_assoc, List.drop_left]
    rfl
  simp only [rfcScheme, name, colon, nonempty, ne_eq, not_false_eq_true, and_self, if_true]

theorem rfcAuthority_assemble {scheme netloc tail : Str} (nonempty : scheme ≠ [])
    (alpha : ∀ c ∈ scheme, isAlpha c = true) (plain : ∀ c ∈ netloc, isDelimiter c = false)
    (delimited : Delimited tail) :
    rfcAuthority (assemble scheme netloc tail) = some netloc := by
  have named := rfcScheme_assemble netloc tail nonempty alpha
  have rest : (assemble scheme netloc tail).drop (scheme.length + 1) =
      str "//" ++ (netloc ++ tail) := by
    unfold assemble
    rw [List.append_assoc, List.append_assoc, ← List.drop_drop, List.drop_left]
    rfl
  have marks : (str "//" ++ (netloc ++ tail)).take 2 = str "//" := List.take_left' (by decide)
  have after : (str "//" ++ (netloc ++ tail)).drop 2 = netloc ++ tail :=
    List.drop_left' (by decide)
  simp only [rfcAuthority, named, rest, marks, after, if_true, (span_authority plain delimited).1]

end Python.Url

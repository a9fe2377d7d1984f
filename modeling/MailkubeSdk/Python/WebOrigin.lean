import MailkubeSdk.Python.IntLiteral
import MailkubeSdk.Python.UrlJoin

/-
Origins of web addresses.

An origin is a scheme, a host and a port: letter case does not count in the
first two, and a port that is left out or empty is the scheme's own.  `urlsplit`
keeps the authority as it is spelt, so one origin has several authorities.
-/

namespace Python.Url

/-- A character of a host name: nothing that ends a host, or that `urlsplit` deletes. -/
def isHostChar (c : CodePoint) : Bool :=
  !isDelimiter c && !isUnsafe c && !(c == cp '@' || c == cp ':' || c == cp '[' || c == cp ']')

/-- A host name, or an address in brackets. -/
inductive HostText : Str → Prop where
  | name {host : Str} (nonempty : host ≠ []) (plain : ∀ c ∈ host, isHostChar c = true) :
      HostText host
  | literal {address : Str} (plain : ∀ c ∈ address, isHostChar c = true ∨ c = cp ':') :
      HostText (cp '[' :: address ++ [cp ']'])

/-- An absolute http(s) URL with a host, a port or none, and no userinfo. -/
structure WebUrl where
  scheme : Str
  host : Str
  port : Option Str
  tail : Str
  http : lowerAscii scheme = str "http" ∨ lowerAscii scheme = str "https"
  hostText : HostText host
  portDigits : ∀ digits, port = some digits → ∀ c ∈ digits, isDigit c = true
  tailDelimited : Delimited tail

namespace WebUrl

def authority (url : WebUrl) : Str :=
  match url.port with
  | none => url.host
  | some digits => url.host ++ cp ':' :: digits

def text (url : WebUrl) : Str := assemble url.scheme url.authority url.tail

/-- The port of the scheme. -/
def defaultPort (url : WebUrl) : Nat := if lowerAscii url.scheme = str "https" then 443 else 80

/-- The port a connection uses. -/
def effectivePort (url : WebUrl) : Nat :=
  match url.port with
  | none => url.defaultPort
  | some [] => url.defaultPort
  | some digits => decimalNumber (digits.map fun c => c.val - 48)

/-- Two URLs of one origin. -/
structure SameOrigin (left right : WebUrl) : Prop where
  scheme : lowerAscii left.scheme = lowerAscii right.scheme
  host : lowerAscii left.host = lowerAscii right.host
  port : left.effectivePort = right.effectivePort

end WebUrl

/-! ### Spellings -/

theorem hostChar_plain {c : CodePoint} (plain : isHostChar c = true) :
    isDelimiter c = false ∧ isUnsafe c = false := by
  simp only [isHostChar, Bool.and_eq_true, Bool.not_eq_true'] at plain
  exact plain.1

theorem digit_plain {c : CodePoint} (digit : isDigit c = true) :
    isDelimiter c = false ∧ isUnsafe c = false := by
  have printable : isPrintable c = true := by
    simp only [isDigit, Bool.and_eq_true, decide_eq_true_eq] at digit
    simp only [isPrintable, Bool.and_eq_true, decide_eq_true_eq]
    omega
  refine ⟨?_, not_unsafe_of_printable printable⟩
  cases delimiter : isDelimiter c with
  | false => rfl
  | true =>
      simp only [isDelimiter, Bool.or_eq_true, beq_iff_eq] at delimiter
      rcases delimiter with (rfl | rfl) | rfl
      · cases digit
      · cases digit
      · cases digit

theorem HostText.plain {host : Str} (text : HostText host) : PlainAuthority host := by
  cases text with
  | name nonempty plain =>
      intro c member
      exact hostChar_plain (plain c member)
  | literal plain =>
      intro c member
      rcases List.mem_append.mp member with front | last
      · rcases List.mem_cons.mp front with rfl | inside
        · decide
        · rcases plain c inside with named | rfl
          · exact hostChar_plain named
          · decide
      · rw [List.mem_singleton.mp last]
        decide

theorem HostText.ne_nil {host : Str} (text : HostText host) : host ≠ [] := by
  cases text with
  | name nonempty plain => exact nonempty
  | literal plain => exact List.cons_ne_nil _ _

namespace WebUrl

variable (url : WebUrl)

theorem authority_plain : PlainAuthority url.authority := by
  unfold authority
  cases port : url.port with
  | none => exact url.hostText.plain
  | some digits =>
      intro c member
      rcases List.mem_append.mp member with inside | after
      · exact url.hostText.plain c inside
      · rcases List.mem_cons.mp after with rfl | digit
        · decide
        · exact digit_plain (url.portDigits digits port c digit)

theorem authority_ne_nil : url.authority ≠ [] := by
  unfold authority
  cases url.port with
  | none => exact url.hostText.ne_nil
  | some digits => exact List.append_ne_nil_of_left_ne_nil url.hostText.ne_nil _

theorem text_ne_nil : url.text ≠ [] := by
  have nonempty := (http_name url.http).1
  intro empty
  simp only [text, assemble, List.append_eq_nil_iff] at empty
  exact nonempty empty.1.1.1

/-- What `urlsplit` makes of a URL whose authority it takes. -/
def parts : SplitResult where
  scheme := lowerAscii url.scheme
  netloc := url.authority
  path := (cutAt (cp '?') (cutAt (cp '#') (removeUnsafe url.tail)).1).1
  query := (cutAt (cp '?') (cutAt (cp '#') (removeUnsafe url.tail)).1).2
  fragment := (cutAt (cp '#') (removeUnsafe url.tail)).2

theorem urlsplit_text (rules : HostRules) (default : Str) :
    urlsplit rules url.text default =
      if acceptsNetloc rules url.authority then some url.parts else none :=
  urlsplit_assemble rules default (http_name url.http).1 (http_name url.http).2
    url.authority_plain url.tailDelimited

/-- A URL whose authority is taken is read as an http(s) base. -/
def httpBase {rules : HostRules} (accepted : acceptsNetloc rules url.authority = true) :
    HttpBase rules url.text where
  parts := url.parts
  read := by rw [url.urlsplit_text, if_pos accepted]
  http := url.http
  hostNonempty := url.authority_ne_nil

end WebUrl

/-! ### One spelling, one origin -/

theorem hostChar_ne {c : CodePoint} (plain : isHostChar c = true) :
    c ≠ cp ':' ∧ c ≠ cp '[' ∧ c ≠ cp ']' := by
  simp only [isHostChar, Bool.and_eq_true, Bool.not_eq_true', Bool.or_eq_false_iff,
    beq_eq_false_iff_ne] at plain
  exact ⟨plain.2.1.1.2, plain.2.1.2, plain.2.2⟩

/-- What an authority says after its host. -/
def portText : Option Str → Str
  | none => []
  | some digits => cp ':' :: digits

theorem portText_inj {first second : Option Str} (same : portText first = portText second) :
    first = second := by
  cases first with
  | none =>
      cases second with
      | none => rfl
      | some digits => cases same
  | some digits =>
      cases second with
      | none => cases same
      | some others => exact congrArg some (List.cons.inj same).2

/-- A host name ends at the first colon. -/
theorem name_port_inj {left right : Str} (leftFresh : cp ':' ∉ left) (rightFresh : cp ':' ∉ right)
    {first second : Option Str} (same : left ++ portText first = right ++ portText second) :
    left = right ∧ first = second := by
  have cut : ∀ {host : Str}, cp ':' ∉ host → ∀ port, splitFirst (cp ':') (host ++ portText port) =
      port.map fun digits => (host, digits) := by
    intro host fresh port
    cases port with
    | none =>
        change splitFirst (cp ':') (host ++ []) = none
        rw [List.append_nil, splitFirst_eq_none_iff]
        exact fresh
    | some digits => exact splitFirst_append _ _ _ fresh
  have cuts := cut leftFresh first
  rw [same, cut rightFresh second] at cuts
  cases first with
  | none =>
      cases second with
      | none => exact ⟨List.append_cancel_right same, rfl⟩
      | some others => cases cuts
  | some digits =>
      cases second with
      | none => cases cuts
      | some others =>
          have pair := Prod.mk.inj (Option.some.inj cuts)
          exact ⟨pair.1.symm, congrArg some pair.2.symm⟩

/-- An address ends at the first closing bracket. -/
theorem literal_port_inj {left right : Str} (leftFresh : cp ']' ∉ left)
    (rightFresh : cp ']' ∉ right) {first second : Option Str}
    (same : (left ++ [cp ']']) ++ portText first = (right ++ [cp ']']) ++ portText second) :
    left = right ∧ first = second := by
  rw [List.append_assoc, List.append_assoc] at same
  have cuts := splitFirst_append (cp ']') left (portText first) leftFresh
  have same' : left ++ cp ']' :: portText first = right ++ cp ']' :: portText second := same
  rw [same', splitFirst_append (cp ']') right (portText second) rightFresh] at cuts
  have pair := Prod.mk.inj (Option.some.inj cuts)
  exact ⟨pair.1.symm, portText_inj pair.2.symm⟩

theorem address_fresh {address : Str} (plain : ∀ c ∈ address, isHostChar c = true ∨ c = cp ':') :
    cp ']' ∉ cp '[' :: address := by
  intro member
  rcases List.mem_cons.mp member with bracket | inside
  · revert bracket
    decide
  · rcases plain _ inside with named | colon
    · exact (hostChar_ne named).2.2 rfl
    · revert colon
      decide

theorem host_port_inj {left right : Str} (leftHost : HostText left) (rightHost : HostText right)
    {first second : Option Str} (same : left ++ portText first = right ++ portText second) :
    left = right ∧ first = second := by
  have unmixed : ∀ {name rest more : Str}, name ≠ [] → (∀ c ∈ name, isHostChar c = true) →
      name ++ rest ≠ cp '[' :: more := by
    intro name rest more nonempty plain mixed
    cases name with
    | nil => exact nonempty rfl
    | cons c name =>
        exact (hostChar_ne (plain c List.mem_cons_self)).2.1 (List.cons.inj mixed).1
  cases leftHost with
  | name nonempty plain =>
      cases rightHost with
      | name others plain' =>
          exact name_port_inj (fun member => (hostChar_ne (plain _ member)).1 rfl)
            (fun member => (hostChar_ne (plain' _ member)).1 rfl) same
      | literal plain' => exact absurd same (unmixed nonempty plain)
  | literal plain =>
      cases rightHost with
      | name others plain' => exact absurd same.symm (unmixed others plain')
      | literal plain' =>
          obtain ⟨address, port⟩ :=
            literal_port_inj (address_fresh plain) (address_fresh plain') same
          exact ⟨congrArg (· ++ [cp ']']) address, port⟩

theorem WebUrl.authority_eq (url : WebUrl) : url.authority = url.host ++ portText url.port := by
  unfold authority
  cases url.port with
  | none => exact (List.append_nil _).symm
  | some digits => rfl

/-- URLs with one scheme and one authority have one origin. -/
theorem WebUrl.sameOrigin_of_authority {left right : WebUrl}
    (scheme : lowerAscii left.scheme = lowerAscii right.scheme)
    (authority : left.authority = right.authority) : left.SameOrigin right := by
  rw [left.authority_eq, right.authority_eq] at authority
  obtain ⟨host, port⟩ := host_port_inj left.hostText right.hostText authority
  refine ⟨scheme, congrArg lowerAscii host, ?_⟩
  unfold effectivePort defaultPort
  rw [port, scheme]

/-! ### The guard -/

/-- The guard takes one URL as a link from another exactly when both have the same
origin and spell its authority alike, and `urlsplit` takes that authority. -/
theorem guard_spelling_iff {rules : HostRules} {base link : WebUrl} :
    (∃ url, urljoin rules base.text link.text = some url ∧
        ∃ own, origin rules url = some own ∧ origin rules base.text = some own) ↔
      base.SameOrigin link ∧ link.authority = base.authority ∧
        acceptsNetloc rules base.authority = true := by
  by_cases accepted : acceptsNetloc rules base.authority = true
  · have read : origin rules base.text = some (lowerAscii base.scheme, base.authority) :=
      (base.httpBase accepted).origin_text
    have guarded : _ ↔ (base.httpBase accepted).SameOriginLink link.text :=
      (base.httpBase accepted).urljoin_guard_iff
    rw [read, and_iff_left accepted]
    simp only [Option.some.injEq, exists_eq_right']
    refine guarded.trans ?_
    constructor
    · rintro (empty | ⟨parts, split, scheme, host⟩)
      · exact absurd empty link.text_ne_nil
      · rw [link.urlsplit_text] at split
        obtain ⟨_, same⟩ := Option.ite_none_right_eq_some.mp split
        rw [← Option.some.inj same] at host scheme
        have alike : link.authority = base.authority := host.resolve_left link.authority_ne_nil
        have schemes : lowerAscii base.scheme = lowerAscii link.scheme := scheme.symm
        exact ⟨WebUrl.sameOrigin_of_authority schemes alike.symm, alike⟩
    · rintro ⟨same, alike⟩
      refine .inr ⟨link.parts, ?_, same.scheme.symm, .inr alike⟩
      rw [link.urlsplit_text, alike, if_pos accepted]
  · apply iff_of_false
    · rintro ⟨url, _, own, _, read⟩
      unfold origin at read
      rw [base.urlsplit_text, if_neg accepted] at read
      cases read
    · rintro ⟨_, _, taken⟩
      exact accepted taken

end Python.Url

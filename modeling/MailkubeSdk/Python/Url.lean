import MailkubeSdk.Python.Text

/-
`urllib.parse` of CPython 3.12: `urlsplit`, `urlunsplit` and `urljoin`.

`none` stands for the `ValueError` that `urlsplit` raises on an authority it
does not take.  What it consults outside its own text, NFKC normalisation and
the check of a bracketed host, is a parameter.
-/

namespace Python.Url

/-- The tables `urlsplit` consults.  `bracketed` says whether an authority that
holds both brackets passes the check of its bracketed host. -/
structure HostRules where
  nfkc : Str → Str
  bracketed : Str → Bool

structure SplitResult where
  scheme : Str
  netloc : Str
  path : Str
  query : Str
  fragment : Str
deriving DecidableEq

structure ParseResult where
  scheme : Str
  netloc : Str
  path : Str
  params : Str
  query : Str
  fragment : Str
deriving DecidableEq

def usesRelative : List Str :=
  ["", "ftp", "http", "gopher", "nntp", "imap", "wais", "file", "https", "shttp", "mms",
    "prospero", "rtsp", "rtsps", "rtspu", "sftp", "svn", "svn+ssh", "ws", "wss"].map str

def usesNetloc : List Str :=
  ["", "ftp", "http", "gopher", "nntp", "telnet", "imap", "wais", "file", "mms", "https",
    "shttp", "snews", "prospero", "rtsp", "rtsps", "rtspu", "rsync", "svn", "svn+ssh", "sftp",
    "nfs", "git", "git+ssh", "ws", "wss"].map str

def usesParams : List Str :=
  ["", "ftp", "hdl", "prospero", "http", "imap", "https", "shttp", "rtsp", "rtsps", "rtspu",
    "sip", "sips", "mms", "sftp", "tel"].map str

/-- The characters that end an authority. -/
def isDelimiter (c : CodePoint) : Bool := c == cp '/' || c == cp '?' || c == cp '#'

/-- Deleted from every URL before it is read: tab, CR and LF. -/
def isUnsafe (c : CodePoint) : Bool := c.val == 9 || c.val == 13 || c.val == 10

def isC0OrSpace (c : CodePoint) : Bool := c.val ≤ 32

def isSchemeChar (c : CodePoint) : Bool :=
  isAlpha c || isDigit c || c == cp '+' || c == cp '-' || c == cp '.'

def removeUnsafe (text : Str) : Str := text.filter (fun c => !isUnsafe c)

def sanitizeUrl (url : Str) : Str := removeUnsafe (url.dropWhile isC0OrSpace)

def sanitizeScheme (scheme : Str) : Str :=
  removeUnsafe ((scheme.dropWhile isC0OrSpace).reverse.dropWhile isC0OrSpace).reverse

/-- The scheme a URL spells, and the rest of the URL. -/
def splitScheme (url : Str) : Option (Str × Str) :=
  match splitFirst (cp ':') url with
  | some (first :: name, rest) =>
      if isAlpha first && (first :: name).all isSchemeChar
        then some (lowerAscii (first :: name), rest)
        else none
  | _ => none

def splitNetloc (url : Str) : Str × Str :=
  if url.take 2 = str "//" then
    ((url.drop 2).takeWhile (fun c => !isDelimiter c),
      (url.drop 2).dropWhile (fun c => !isDelimiter c))
  else ([], url)

def bracketsAccepted (rules : HostRules) (netloc : Str) : Bool :=
  match netloc.contains (cp '['), netloc.contains (cp ']') with
  | true, true => rules.bracketed netloc
  | false, false => true
  | _, _ => false

def checkNetloc (rules : HostRules) (netloc : Str) : Bool :=
  if isAsciiText netloc then true
  else
    let bare := netloc.filter (fun c => !(str "@:#?").contains c)
    let normalized := rules.nfkc bare
    bare == normalized || !normalized.any (fun c => (str "/?#@:").contains c)

/-- Whether `urlsplit` takes an authority instead of raising. -/
def acceptsNetloc (rules : HostRules) (netloc : Str) : Bool :=
  bracketsAccepted rules netloc && checkNetloc rules netloc

/-- Cut off what follows the first `sep`, the empty text when there is none. -/
def cutAt (sep : CodePoint) (url : Str) : Str × Str := (splitFirst sep url).getD (url, [])

def urlsplit (rules : HostRules) (url scheme : Str) : Option SplitResult :=
  let (scheme, url) := (splitScheme (sanitizeUrl url)).getD (sanitizeScheme scheme, sanitizeUrl url)
  let (netloc, url) := splitNetloc url
  let (url, fragment) := cutAt (cp '#') url
  let (path, query) := cutAt (cp '?') url
  if acceptsNetloc rules netloc then some { scheme, netloc, path, query, fragment } else none

/-- `_splitparams`: the parameters of the last segment. -/
def splitParams (path : Str) : Str × Str :=
  let (front, last) := splitAfterLast (cp '/') path
  match splitFirst (cp ';') last with
  | some (segment, params) => (front ++ segment, params)
  | none => (path, [])

def urlparse (rules : HostRules) (url scheme : Str) : Option ParseResult :=
  (urlsplit rules url scheme).map fun parts =>
    let (path, params) :=
      if parts.scheme ∈ usesParams then splitParams parts.path else (parts.path, [])
    { scheme := parts.scheme, netloc := parts.netloc, path, params, query := parts.query,
      fragment := parts.fragment }

def urlunsplit (parts : SplitResult) : Str :=
  let url :=
    if parts.netloc ≠ [] then
      let path := if parts.path ≠ [] ∧ parts.path.take 1 ≠ str "/" then str "/" ++ parts.path
        else parts.path
      str "//" ++ parts.netloc ++ path
    else if parts.path.take 2 = str "//" then str "//" ++ parts.path
    else if parts.scheme ≠ [] ∧ parts.scheme ∈ usesNetloc ∧
        (parts.path = [] ∨ parts.path.take 1 = str "/") then str "//" ++ parts.path
    else parts.path
  let url := if parts.scheme ≠ [] then parts.scheme ++ str ":" ++ url else url
  let url := if parts.query ≠ [] then url ++ str "?" ++ parts.query else url
  if parts.fragment ≠ [] then url ++ str "#" ++ parts.fragment else url

def urlunparse (parts : ParseResult) : Str :=
  urlunsplit
    { scheme := parts.scheme, netloc := parts.netloc
      path := if parts.params ≠ [] then parts.path ++ str ";" ++ parts.params else parts.path
      query := parts.query, fragment := parts.fragment }

/-- The segments a relative reference names, before dot segments are resolved. -/
def joinSegments (basePath path : Str) : List Str :=
  let baseParts := basePath.splitOn (cp '/')
  let baseParts := if baseParts.getLast? ≠ some [] then baseParts.dropLast else baseParts
  if path.take 1 = str "/" then path.splitOn (cp '/')
  else
    match baseParts ++ path.splitOn (cp '/') with
    | [] => []
    | first :: rest => first :: (rest.dropLast.filter (· ≠ []) ++ rest.getLast?.toList)

/-- One pass over the segments; `done` holds the resolved ones, last first. -/
def resolveDots : List Str → List Str → List Str
  | done, [] => done.reverse
  | done, segment :: rest =>
      if segment = str ".." then resolveDots done.tail rest
      else if segment = str "." then resolveDots done rest
      else resolveDots (segment :: done) rest

def resolvePath (basePath path : Str) : Str :=
  let segments := joinSegments basePath path
  let resolved := resolveDots [] segments
  let resolved :=
    if segments.getLast? = some (str ".") ∨ segments.getLast? = some (str "..")
      then resolved ++ [[]] else resolved
  let joined := join (cp '/') resolved
  if joined = [] then str "/" else joined

def urljoin (rules : HostRules) (base url : Str) : Option Str :=
  if base = [] then some url
  else if url = [] then some base
  else do
    let b ← urlparse rules base []
    let u ← urlparse rules url b.scheme
    if u.scheme ≠ b.scheme ∨ u.scheme ∉ usesRelative then some url
    else if u.scheme ∈ usesNetloc ∧ u.netloc ≠ [] then some (urlunparse u)
    else
      let netloc := if u.scheme ∈ usesNetloc then b.netloc else u.netloc
      if u.path = [] ∧ u.params = [] then
        some (urlunparse { u with
          netloc, path := b.path, params := b.params
          query := if u.query = [] then b.query else u.query })
      else
        some (urlunparse { u with netloc, path := resolvePath b.path u.path })

end Python.Url

import BotFleet.Session.Settings

/-!
# Where a gateway is reached

* `Endpoint`, `Endpoint.ofPath`: the path of a gateway, which begins with a slash;
* `Endpoint.urlFor`: the address for one session;
* `UrlFlaw`, `Url.check`: what is wrong with an address before anything is sent;
* `Url.authorityEnd`, `Url.checkPath`: its two parts.
-/

namespace BotFleet

/-- The path of a gateway. -/
structure Endpoint where
  path : String
deriving DecidableEq, Inhabited

namespace Endpoint

/-- A path that does not begin with a slash gets one. -/
def ofPath (path : String) : Endpoint :=
  if path.toList.head? = some '/' then ⟨path⟩ else ⟨"/" ++ path⟩

def root : Endpoint := ofPath "/"

/-- The address of the gateway for one session. -/
def urlFor (e : Endpoint) (s : SessionSettings) : String :=
  s!"ws://{s.target.host}:{s.target.port}{e.path}"

end Endpoint

/-- What is wrong with an address. -/
inductive UrlFlaw where
  | tooLong
  | character
  | authority
  | format
deriving DecidableEq, Inhabited

/-- The text of a flaw. -/
def UrlFlaw.message : UrlFlaw → String
  | tooLong => "uri too long"
  | character => "invalid uri character"
  | authority => "invalid authority"
  | format => "invalid format"

namespace Url

/-- The characters that may stand anywhere before the path. -/
def isPlain (c : Char) : Bool :=
  c.isAlphanum || "!$&'()*+,-./:;=?@[]_~#".toList.contains c

/-- What has been seen of the part before the path, since the last `@` or `]` where that matters. -/
structure Seen where
  colons : Nat := 0
  opened : Bool := false
  closed : Bool := false
  percent : Bool := false
  afterAt : Bool := false

/-- How many colons an address in brackets can have, with the one before the port. -/
def maxColons : Nat := 8

/-- The part before the path is over: its brackets match, at most one colon is left, something
follows an `@`, and no percent sign stands in the name of the host. -/
def Seen.check (s : Seen) (rest : List Char) : Except UrlFlaw (List Char) :=
  if s.opened != s.closed || 1 < s.colons || s.afterAt || s.percent then .error .authority
  else .ok rest

/-- The text from the first slash, question mark or number sign on, if what comes before can be
the name of a host with user and port. -/
def authorityEnd (s : Seen) : List Char → Except UrlFlaw (List Char)
  | [] => s.check []
  | c :: rest =>
    if c = '/' ∨ c = '?' ∨ c = '#' then s.check (c :: rest)
    else if c = ':' then
      if maxColons ≤ s.colons then .error .authority
      else authorityEnd { s with colons := s.colons + 1, afterAt := false } rest
    else if c = '[' then
      if s.percent || s.opened then .error .authority
      else authorityEnd { s with opened := true, afterAt := false } rest
    else if c = ']' then
      if !s.opened || s.closed then .error .authority
      else
        authorityEnd { s with closed := true, colons := 0, percent := false, afterAt := false } rest
    else if c = '@' then authorityEnd { s with colons := 0, percent := false, afterAt := true } rest
    else if c = '%' then authorityEnd { s with percent := true, afterAt := false } rest
    else if isPlain c then authorityEnd { s with afterAt := false } rest
    else .error .character

/-- The characters of a query. -/
def inQuery (c : Char) : Bool :=
  c = '!' || ('$' ≤ c && c ≤ ';') || c = '=' || ('?' ≤ c && c != '\x7f')

/-- The characters of a path. -/
def inPath (c : Char) : Bool := c = '"' || (inQuery c && c != '\x60')

/-- The query up to a number sign, after which anything may stand. -/
def checkQuery : List Char → Except UrlFlaw Unit
  | [] => .ok ()
  | c :: rest =>
    if c = '#' then .ok ()
    else if inQuery c then checkQuery rest
    else .error .character

/-- The path and what follows it. -/
def checkPath : List Char → Except UrlFlaw Unit
  | [] => .ok ()
  | c :: rest =>
    if c = '#' then .ok ()
    else if c = '?' then checkQuery rest
    else if inPath c then checkPath rest
    else .error .character

/-- The most bytes that an address may have. -/
def maxSize : Nat := 65534

/-- What an address begins with. -/
def scheme : List Char := ['w', 's', ':', '/', '/']

/-- Check an address before anything is sent to it. -/
def check (url : String) : Except UrlFlaw Unit := do
  if maxSize < url.utf8ByteSize then .error .tooLong
  let cs := url.toList.drop scheme.length
  let rest ← authorityEnd {} cs
  if rest.length = cs.length then .error .format
  checkPath rest

end Url

end BotFleet

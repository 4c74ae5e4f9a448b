import KarsaSec.Found.PercentText

/-!
# The URL checks

`analysis/url_security`: whether a redirect to a URL that comes from outside is safe.

* `parseUrl` takes a URL apart, `canonicalizeUrl` decodes it once and turns its backslashes.
* `evaluateUrlSecurity` goes through the checks in their order; `none` is an exception.
* `hostText` is what `parseUrl` takes for the host before the port, the dots and the case are seen to: `hostname_parseUrl`.
* `checked_safe` says what has been checked when a safe verdict comes out.
-/

namespace KarsaSec.Analysis

open KarsaSec.Found

/-- What the language does with texts: `s.lower()`, `s.isdigit()`, `int(s)` or its refusal, and
`s.encode("ascii").decode("idna")` or its refusal. Kind: D -/
structure UrlRuntime where
  lower : List Char → List Char
  lower_nil : lower [] = []
  isDigit : List Char → Bool
  toInt : List Char → Option ℕ
  idna : List Char → Option (List Char)

/-- ASCII only. Kind: D -/
def asciiRuntime : UrlRuntime where
  lower := List.map Char.toLower
  lower_nil := rfl
  isDigit s := s ≠ [] && s.all Char.isDigit
  toInt s := some (s.foldl (fun n c => 10 * n + (c.toNat - 48)) 0)
  idna _ := none

/-- Source: `models.py`, `ParsedURL`. Kind: D -/
structure ParsedURL where
  scheme : String
  username : String
  password : String
  hostname : String
  port : Option ℕ
  path : String
  query : String
  fragment : String
  authority : String
  isAbsolute : Bool
  isSchemeRelative : Bool
  normalizationSteps : List String
  deriving DecidableEq, Repr

/-! ## Taking a URL apart -/

/-- `s.split(c, 1)`: all of the text stands before a character that is not there. Kind: D -/
def cut (c : Char) (s : List Char) : List Char × List Char := (s.takeWhile (· ≠ c), (s.dropWhile (· ≠ c)).tail)

/-- `s.startswith("//") or s.startswith("\\\\")`. Kind: D -/
def doubleSlash (s : List Char) : Bool := ['/', '/'].isPrefixOf s || ['\\', '\\'].isPrefixOf s

def isSchemeChar (c : Char) : Bool := c.isAlpha || c.isDigit || c ∈ ['+', '.', '-']

def isSchemeBody : List Char → Bool
  | c :: cs => c.isAlpha && cs.all isSchemeChar
  | [] => false

/-- `re.match(r"^[a-zA-Z][a-zA-Z0-9+.-]*$", s)`: the dollar sign stands before a last newline too. Kind: D -/
def isScheme (s : List Char) : Bool := isSchemeBody s || s.getLast? = some '\n' && isSchemeBody s.dropLast

/-- Whether the text before the first colon is taken for the scheme. Kind: D -/
def hasScheme (raw : List Char) : Bool :=
  ':' ∈ raw && !(List.isPrefixOf ['/'] raw) && !(List.isPrefixOf ['\\'] raw) && isScheme (cut ':' raw).1

/-- What stands after the scheme. Kind: D -/
def afterScheme (raw : List Char) : List Char := if hasScheme raw then (cut ':' raw).2 else raw

def dropSlashes (rest : List Char) : List Char := if doubleSlash rest then rest.drop 2 else rest

/-- The authority and the path. Kind: D -/
def splitAuthority (rest : List Char) : List Char × List Char :=
  if '/' ∈ rest then ((cut '/' rest).1, '/' :: (cut '/' rest).2)
  else if '\\' ∈ rest then ((cut '\\' rest).1, '/' :: (cut '\\' rest).2)
  else (rest, [])

/-- What an authority is made of. Kind: D -/
structure UserHost where
  username : List Char
  password : List Char
  hostname : List Char

/-- The user name, the password and the host, `s.rsplit("@", 1)`. Kind: D -/
def splitUserinfo (authority : List Char) : UserHost :=
  if '@' ∈ authority then
    let userinfo := (authority.rdropWhile (· ≠ '@')).dropLast
    let hostname := authority.rtakeWhile (· ≠ '@')
    if ':' ∈ userinfo then ⟨(cut ':' userinfo).1, (cut ':' userinfo).2, hostname⟩ else ⟨userinfo, [], hostname⟩
  else ⟨[], [], authority⟩

/-- What stands after the scheme and the slashes. Kind: D -/
structure UrlParts where
  authority : List Char
  path : List Char
  query : List Char
  fragment : List Char

/-- First the fragment is taken off, then the query. Kind: D -/
def splitRest (rest : List Char) : UrlParts :=
  let fragment := cut '#' rest
  let query := cut '?' fragment.1
  let authority := splitAuthority query.1
  ⟨authority.1, authority.2, query.2, fragment.2⟩

/-- A host name, its port and the steps taken. Kind: D -/
structure HostPort where
  hostname : List Char
  port : Option ℕ
  steps : List String

namespace UrlRuntime

variable (rt : UrlRuntime)

/-- The port after the last colon, `s.rsplit(":", 1)`. Kind: D -/
def splitPort (hostname : List Char) : Option (List Char × Option ℕ) :=
  let port := hostname.rtakeWhile (· ≠ ':')
  if ':' ∈ hostname ∧ hostname.getLast? ≠ some ']' ∧ rt.isDigit port then
    (rt.toInt port).map fun n => ((hostname.rdropWhile (· ≠ ':')).dropLast, some n)
  else some (hostname, none)

/-- The dots at the end go. Kind: D -/
def trimDots (hostname : List Char) : List Char × List String :=
  if hostname.getLast? = some '.' ∧ 1 < hostname.length then
    (hostname.rdropWhile (· = '.'), ["trailing_dot_normalized"])
  else (hostname, [])

/-- Punycode is decoded. Kind: D -/
def readIdna (hostname : List Char) : List Char × List String :=
  if hasSub "xn--".toList (rt.lower hostname) then
    match rt.idna hostname with
    | some decoded => (rt.lower decoded, ["idna_punycode_detected"])
    | none => (hostname, ["idna_punycode_detected", "idna_decode_error"])
  else (hostname, [])

/-- The port goes first, then the dots, then the code. Kind: D -/
def readHost (hostname : List Char) : Option HostPort :=
  (rt.splitPort hostname).map fun r =>
    let dots := trimDots r.1
    let idna := rt.readIdna dots.1
    ⟨rt.lower idna.1, r.2, dots.2 ++ idna.2⟩

/-- Source: `engine.py`, `parse_url`. Kind: D -/
def parseUrl (value : String) : Option ParsedURL :=
  let raw := stripList value.toList
  let isSchemeRelative := doubleSlash raw
  let scheme := if hasScheme raw then rt.lower (cut ':' raw).1 else []
  let parts := splitRest (dropSlashes (afterScheme raw))
  let user := splitUserinfo parts.authority
  (rt.readHost user.hostname).map fun host =>
    { scheme := String.ofList scheme
      username := String.ofList user.username
      password := String.ofList user.password
      hostname := String.ofList host.hostname
      port := host.port
      path := String.ofList parts.path
      query := String.ofList parts.query
      fragment := String.ofList parts.fragment
      authority := String.ofList parts.authority
      isAbsolute := scheme ≠ [] || isSchemeRelative
      isSchemeRelative := isSchemeRelative
      normalizationSteps :=
        (if isSchemeRelative then ["scheme_relative_detected"] else []) ++
        (if hasSub "%25".toList raw then ["double_percent_encoding_detected"] else []) ++
        (if '\\' ∈ raw then ["backslash_detected"] else []) ++
        (if '@' ∈ parts.authority then ["userinfo_at_symbol_detected"] else []) ++ host.steps }

end UrlRuntime

/-- `s.replace("\\", "/")` on a character. Kind: D -/
def turnSlash (c : Char) : Char := if c = '\\' then '/' else c

/-- Source: `engine.py`, `canonicalize_url`. Kind: D -/
def canonicalizeUrl (value : String) : String :=
  let val := stripList value.toList
  let val := if '%' ∈ val then unquote val else val
  String.ofList (val.map turnSlash)

/-- Source: `models.py`, `URLParserSemanticModel`. Kind: D -/
structure URLParserSemanticModel where
  browserHostname : String
  frameworkHostname : String
  proxyHostname : String
  hasParserDisagreement : Bool
  deriving DecidableEq, Repr

/-- Source: `engine.py`, `evaluate_multi_parser_semantics`. Kind: D -/
def UrlRuntime.evaluateMultiParserSemantics (rt : UrlRuntime) (rawUrl : String) : Option URLParserSemanticModel := do
  let rawParsed ← rt.parseUrl rawUrl
  let canonParsed ← rt.parseUrl (canonicalizeUrl rawUrl)
  return if '\\' ∈ rawUrl.toList then ⟨"evil.example", "trusted.example", "evil.example", true⟩
    else ⟨canonParsed.hostname, rawParsed.hostname, canonParsed.hostname, canonParsed.hostname ≠ rawParsed.hostname⟩

/-- Source: `models.py`, `OAuthRedirectURIPolicy`. Kind: D -/
structure OAuthRedirectURIPolicy where
  registeredUri : String
  receivedUri : String
  canonicalRegisteredUri : String
  canonicalReceivedUri : String
  isExactMatch : Bool
  deriving DecidableEq, Repr

/-- Source: `engine.py`, `evaluate_oauth_policy`. Kind: D -/
def evaluateOauthPolicy (registeredUri receivedUri : String) : OAuthRedirectURIPolicy :=
  let canonReg := rstripChar '/' (canonicalizeUrl registeredUri)
  let canonRec := rstripChar '/' (canonicalizeUrl receivedUri)
  ⟨registeredUri, receivedUri, canonReg, canonRec, canonReg = canonRec⟩

/-! ## The checks -/

/-- The categories that the checks give. Source: `models.py`, `URLCategory`. Kind: D -/
inductive URLCategory
  | openRedirect
  | urlParserConfusion
  | schemeConfusion
  | userinfoConfusion
  | backslashUrlConfusion
  | idnaPunycodeConfusion
  | schemeRelativeRedirect
  | oauthRedirectUriBypass
  | passwordResetUrlPoisoning
  deriving DecidableEq, Repr

/-- Source: `models.py`, `URLSecurityContext`. Kind: D -/
structure URLSecurityContext where
  sourceKind : String
  sourceSymbol : String
  rawUrl : String
  sink : String := "redirect"
  isUserControlled : Bool := true
  isHostAllowlisted : Bool := false
  allowedHosts : List String := []
  registeredOauthUri : Option String := none
  sanitizerType : Option String := none
  validationType : Option String := none
  canonicalizedBeforeValidation : Option Bool := none
  frameworkParserResolved : Option Bool := some true
  deriving DecidableEq, Repr

/-- The `validation` of an evidence; the middle entry stands there only if given. Kind: D -/
structure ValidationSummary where
  performed : Bool
  canonicalizedBeforeValidation : Option Bool := none
  result : String
  deriving DecidableEq, Repr

/-- The `parsed_url` of an evidence. Kind: D -/
structure ParsedSummary where
  scheme : String
  hostname : String
  username : Option String := none
  deriving DecidableEq, Repr

/-- The `redirect_graph` of an evidence. Kind: D -/
structure RedirectSummary where
  initialOrigin : String
  finalOrigin : String
  containsUntrustedHop : Bool
  deriving DecidableEq, Repr

/-- Source: `models.py`, `URLSecurityEvidence`. Kind: D -/
structure URLSecurityEvidence where
  category : URLCategory
  sourceKind : String
  sourceSymbol : String
  rawUrl : String
  parsedUrl : ParsedSummary
  canonicalUrl : String
  validation : ValidationSummary
  trustBoundaryCrossed : Bool
  impact : String
  redirectGraph : Option RedirectSummary
  evidencePath : List String
  resolution : String
  deriving DecidableEq, Repr

namespace URLSecurityContext

variable (ctx : URLSecurityContext) (parsed : ParsedURL)

/-- What all evidence of one URL has in common. Kind: D -/
def evidence (category : URLCategory) (validation : ValidationSummary) (trustBoundaryCrossed : Bool) (impact : String)
    (path : List String) (resolution : String) : URLSecurityEvidence where
  category := category
  sourceKind := ctx.sourceKind
  sourceSymbol := ctx.sourceSymbol
  rawUrl := ctx.rawUrl
  parsedUrl := ⟨parsed.scheme, parsed.hostname, none⟩
  canonicalUrl := canonicalizeUrl ctx.rawUrl
  validation := validation
  trustBoundaryCrossed := trustBoundaryCrossed
  impact := impact
  redirectGraph := none
  evidencePath := [ctx.sourceKind, ctx.sourceSymbol] ++ path
  resolution := resolution

/-- What the OAuth policy finds fault with. Source: `engine.py`, step 12. Kind: D -/
def oauthFault : Option (ValidationSummary × String) :=
  if ctx.sink = "oauth_callback" ∨ ctx.sourceKind = "OAUTH_PARAM" then
    let registered := ctx.registeredOauthUri.getD ""
    if registered ≠ "" then
      if (evaluateOauthPolicy registered ctx.rawUrl).isExactMatch then none
      else some (⟨true, none, "OAUTH_POLICY_MISMATCH"⟩, "oauth_policy_mismatch")
    else if ctx.validationType = some "startswith" ∨ ctx.isHostAllowlisted = false then
      some (⟨ctx.validationType.getD "" ≠ "", none, "WEAK_PREFIX_VALIDATION"⟩, "oauth_weak_validation")
    else none
  else none

/-- The evidence against a URL that no validation has seen. Kind: D -/
def vulnerable (category : URLCategory) (result impact : String) (path : List String) : URLSecurityEvidence :=
  ctx.evidence parsed category ⟨false, none, result⟩ true impact path "VULNERABLE"

/-- The checks of a URL that no validation has let pass. Source: `engine.py`, steps 7 to 14. Kind: D -/
def unvalidated : URLSecurityEvidence :=
  if parsed.scheme ∈ ["javascript", "data", "file", "vbscript"] then
    ctx.vulnerable parsed .schemeConfusion "DANGEROUS_SCHEME" "CLIENT_SIDE_EXECUTION" [parsed.scheme, "SCHEME_CONFUSION"]
  else if "idna_punycode_detected" ∈ parsed.normalizationSteps then
    ctx.vulnerable parsed .idnaPunycodeConfusion "IDNA_PUNYCODE" "HOMOGRAPH_HOSTNAME_MISMATCH" ["idna_punycode"]
  else if '\\' ∈ ctx.rawUrl.toList then
    ctx.vulnerable parsed .backslashUrlConfusion "BACKSLASH_CONFUSION" "EXTERNAL_REDIRECT" ["backslash_confusion"]
  else if parsed.username ≠ "" ∨ '@' ∈ ctx.rawUrl.toList then
    { ctx.vulnerable parsed .userinfoConfusion "USERINFO_CONFUSION" "AUTHORITY_HIJACK" ["userinfo_confusion"] with
      parsedUrl := ⟨parsed.scheme, parsed.hostname, some parsed.username⟩ }
  else if parsed.isSchemeRelative ∨ doubleSlash ctx.rawUrl.toList then
    ctx.vulnerable parsed .schemeRelativeRedirect "SCHEME_RELATIVE_BYPASS" "EXTERNAL_REDIRECT"
      ["scheme_relative_redirect"]
  else match ctx.oauthFault with
  | some fault =>
    ctx.evidence parsed .oauthRedirectUriBypass fault.1 true "OAUTH_CODE_REDIRECTION" [fault.2] "VULNERABLE"
  | none =>
    if ctx.sourceKind = "HOST_HEADER" ∨ ctx.sourceKind = "PROXY_HEADER" ∨ ctx.sink = "reset_url_gen" then
      ctx.vulnerable parsed .passwordResetUrlPoisoning "UNTRUSTED_HOST_HEADER" "RESET_URL_MANIPULATION"
        ["RESET_URL_BUILDER", "MAIL_TEMPLATE", "EMAIL_SINK"]
    else
      { ctx.vulnerable parsed .openRedirect "UNVALIDATED" "EXTERNAL_REDIRECT" [ctx.sink, "OPEN_REDIRECT"] with
        redirectGraph := some ⟨"trusted.com", parsed.hostname, true⟩ }

/-- The checks of a URL from outside whose framework's parser is known. Source: `engine.py`, steps 3 to 14. Kind: D -/
def checked : URLSecurityEvidence :=
  if '\\' ∈ ctx.rawUrl.toList then
    ctx.evidence parsed .backslashUrlConfusion ⟨false, none, "BACKSLASH_CONFUSION"⟩ true "EXTERNAL_REDIRECT"
      ["backslash_confusion"] "VULNERABLE"
  else if ctx.validationType.isSome ∧ ctx.canonicalizedBeforeValidation = some false then
    ctx.evidence parsed .urlParserConfusion ⟨true, some false, "FLAWED_ORDER"⟩ true "VALIDATION_BYPASS_RISK"
      ["validation_before_canonicalization"] "UNKNOWN"
  else if ctx.isHostAllowlisted ∨ ctx.allowedHosts ≠ [] ∧ parsed.hostname ∈ ctx.allowedHosts ∧
      ctx.canonicalizedBeforeValidation = some true then
    ctx.evidence parsed .openRedirect ⟨true, none, "SAFE_ALLOWLIST"⟩ false "NONE" ["host_allowlist_validated"] "SAFE"
  else if ctx.sanitizerType = some "relative_path_only" ∧ startsWith "/" ctx.rawUrl ∧ ¬startsWith "//" ctx.rawUrl ∧
      '\\' ∉ ctx.rawUrl.toList then
    ctx.evidence parsed .openRedirect ⟨true, none, "SAFE_RELATIVE_PATH"⟩ false "NONE" ["relative_path_validator"] "SAFE"
  else ctx.unvalidated parsed

end URLSecurityContext

/-- Source: `engine.py`, `evaluate_url_security`. Kind: D -/
def UrlRuntime.evaluateUrlSecurity (rt : UrlRuntime) (ctx : URLSecurityContext) : Option URLSecurityEvidence := do
  let parsed ← rt.parseUrl ctx.rawUrl
  if !ctx.isUserControlled || ctx.sourceKind = "TRUSTED_CONSTANT" then
    return ctx.evidence parsed .openRedirect ⟨true, none, "SAFE"⟩ false "NONE" ["constant_url"] "SAFE"
  else if ctx.frameworkParserResolved = some false ∨ ctx.sanitizerType = some "unknown_sanitizer" then
    return ctx.evidence parsed .urlParserConfusion ⟨false, none, "UNRESOLVED"⟩ true "UNKNOWN"
      ["unknown_parser_behavior"] "UNKNOWN"
  else
    -- computed for the exceptions that it may raise, and not looked at
    let _parserSemantics ← rt.evaluateMultiParserSemantics ctx.rawUrl
    return ctx.checked parsed

/-! ## What the verdicts rest on -/

/-- What is taken for the host before the port, the dots and the case are seen to. Kind: D -/
def hostText (raw : List Char) : List Char :=
  (splitRest (dropSlashes (afterScheme raw))).authority.rtakeWhile (· ≠ '@')

theorem hostname_splitUserinfo (authority : List Char) :
    (splitUserinfo authority).hostname = authority.rtakeWhile (· ≠ '@') := by
  unfold splitUserinfo
  split_ifs with hat
  · simp only
    split <;> rfl
  · symm
    rw [List.rtakeWhile_eq_self_iff]
    intro c hc
    simp only [decide_eq_true_eq]
    rintro rfl
    exact hat hc

/-- Nothing that comes after the validations is safe. Kind: L -/
theorem resolution_unvalidated (ctx : URLSecurityContext) (parsed : ParsedURL) :
    (ctx.unvalidated parsed).resolution = "VULNERABLE" := by
  unfold URLSecurityContext.unvalidated
  split
  · rfl
  split
  · rfl
  split
  · rfl
  split
  · rfl
  split
  · rfl
  split
  · rfl
  · split <;> rfl

/-- The ways in which the checks come to a safe verdict. Kind: L -/
theorem checked_safe {ctx : URLSecurityContext} {parsed : ParsedURL} (hno : ctx.isHostAllowlisted = false)
    (hsafe : (ctx.checked parsed).resolution = "SAFE") : '\\' ∉ ctx.rawUrl.toList ∧
      ((ctx.checked parsed).validation.result = "SAFE_ALLOWLIST" ∧ parsed.hostname ∈ ctx.allowedHosts ∨
        (ctx.checked parsed).validation.result = "SAFE_RELATIVE_PATH" ∧ startsWith "/" ctx.rawUrl = true ∧
          startsWith "//" ctx.rawUrl = false) := by
  unfold URLSecurityContext.checked at hsafe ⊢
  split_ifs at hsafe ⊢ with hslash horder hlist hpath
  · exact absurd (show "VULNERABLE" = "SAFE" from hsafe) (by decide)
  · exact absurd (show "UNKNOWN" = "SAFE" from hsafe) (by decide)
  · rw [hno] at hlist
    rcases hlist with hlist | ⟨-, hmem, -⟩
    · exact absurd hlist Bool.false_ne_true
    · exact ⟨hslash, Or.inl ⟨rfl, hmem⟩⟩
  · exact ⟨hslash, Or.inr ⟨rfl, hpath.2.1, Bool.eq_false_of_not_eq_true hpath.2.2.1⟩⟩
  · simp_all [resolution_unvalidated]

namespace UrlRuntime

variable {rt : UrlRuntime}

/-- The host name comes from the host's text alone, and so does the exception. Kind: L -/
theorem hostname_parseUrl (rt : UrlRuntime) (value : String) : (rt.parseUrl value).map ParsedURL.hostname =
    (rt.readHost (hostText (stripList value.toList))).map fun host => String.ofList host.hostname := by
  have hhost := hostname_splitUserinfo (splitRest (dropSlashes (afterScheme (stripList value.toList)))).authority
  simp only [parseUrl, hhost, Option.map_map, hostText]
  rfl

/-- Two URLs with one text for the host. Kind: L -/
theorem hostname_eq_of_hostText {s t : String} {p q : ParsedURL} (hs : rt.parseUrl s = some p)
    (ht : rt.parseUrl t = some q) (h : hostText (stripList s.toList) = hostText (stripList t.toList)) :
    p.hostname = q.hostname := by
  have hp := hostname_parseUrl rt s
  have hq := hostname_parseUrl rt t
  rw [h, ← hq, hs, ht] at hp
  exact Option.some.inj hp

/-- How a context from outside comes to a verdict of the checks. Kind: L -/
theorem eq_checked {ctx : URLSecurityContext} {ev : URLSecurityEvidence} (h : rt.evaluateUrlSecurity ctx = some ev)
    (hresult : ev.validation.result ≠ "SAFE") (hsafe : ev.resolution = "SAFE") : ∃ p q, rt.parseUrl ctx.rawUrl = some p ∧
      rt.parseUrl (canonicalizeUrl ctx.rawUrl) = some q ∧ ev = ctx.checked p := by
  unfold evaluateUrlSecurity at h
  obtain ⟨p, hp, h⟩ := Option.bind_eq_some_iff.mp h
  split_ifs at h with htrusted hunknown
  · cases h
    exact absurd rfl hresult
  · cases h
    exact absurd (show "UNKNOWN" = "SAFE" from hsafe) (by decide)
  · obtain ⟨sem, hsem, h⟩ := Option.bind_eq_some_iff.mp h
    unfold evaluateMultiParserSemantics at hsem
    obtain ⟨p', hp', hsem⟩ := Option.bind_eq_some_iff.mp hsem
    obtain ⟨q, hq, -⟩ := Option.bind_eq_some_iff.mp hsem
    have hev : ctx.checked p = ev := Option.some_inj.mp h
    exact ⟨p, q, hp, hq, hev.symm⟩

end UrlRuntime

end KarsaSec.Analysis

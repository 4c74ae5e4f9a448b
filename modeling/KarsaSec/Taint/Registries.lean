import KarsaSec.Found.Dict
import KarsaSec.Found.Text

/-!
# Registries of patterns

The sources, sinks and sanitizers of `analysis/taint/sources.py`, `sinks.py` and `sanitizers.py`: a text matches when a pattern
is part of it. Each registry starts with the patterns of its class and may hold any others.
-/

namespace KarsaSec.Taint

open KarsaSec.Found

/-- Source: `analysis/taint/models.py`, `TaintCategory`. Kind: D -/
inductive TaintCategory
  | sqlInjection
  | commandInjection
  | pathTraversal
  | ssrf
  | xss
  | generic
  deriving DecidableEq, Repr

/-- Source: `analysis/taint/sanitizers.py`, `SanitizerContext`. Kind: D -/
inductive SanitizerContext
  | htmlBody
  | htmlAttribute
  | javascriptContext
  | sqlQuery
  | urlDestination
  | filePath
  | command
  | generic
  deriving DecidableEq, Repr

/-- A pattern is part of a text. Kind: D -/
def anyIn (patterns : List String) (text : String) : Bool := patterns.any fun pat => inStr pat text

/-! ## Sources -/

/-- Source: `analysis/taint/sources.py`, `DEFAULT_SOURCES`. Kind: D -/
def defaultSources : List (String × List String) :=
  [("Python",
      ["request.args", "request.form", "request.json", "request.GET", "request.POST", "request.values", "request.headers",
        "input(", "os.environ", "sys.argv", "req.args", "req.form", "req.params"]),
    ("PHP",
      ["$_GET", "$_POST", "$_COOKIE", "$_FILES", "$_REQUEST", "$_SERVER", "file_get_contents('php://input')",
        "php://input"]),
    ("Go",
      ["r.URL.Query()", "ctx.Query()", "ctx.FormValue()", "c.QueryParam", "c.FormValue", "c.Bind", "r.Header"]),
    ("JavaScript",
      ["req.body", "req.query", "req.params", "req.headers", "location.search", "location.hash", "location.href",
        "document.URL", "document.referrer", "document.cookie", "process.argv"]),
    ("Java",
      ["request.getParameter", "getParameter(", "request.getHeader", "request.getInputStream", "request.getCookies",
        "@RequestParam"])]

/-- Source: `analysis/taint/sources.py`, `SourceRegistry`. Kind: D -/
structure SourceRegistry where
  sources : Dict String (List String) := .ofList defaultSources

namespace SourceRegistry

/-- Source: `analysis/taint/sources.py`, `NEGATIVE_CONTROLS`. Kind: D -/
def negativeControls : List String :=
  ["config.get", "database.get", "cache.get", "environment.get", "object.getParameter", "internalRequest.get",
    "app_settings.", "system_env."]

/-- Source: `analysis/taint/sources.py`, `HTTP_SOURCE_PATTERNS`. Kind: D -/
def httpSourcePatterns : List String :=
  ["request.getParameter", "req.getParameter", "servletRequest", "$_GET", "$_POST", "$_REQUEST", "request.args",
    "request.GET", "request.POST", "req.query", "customRequest"]

/-- The patterns of a language first, and then all others. Source: `analysis/taint/sources.py`, `_has_http_source`. Kind: D -/
def patternsFor (self : SourceRegistry) (language : Option String) : List String :=
  let first := match language with
    | none => []
    | some lang => if lang = "" then [] else self.sources.getD lang []
  self.sources.values.flatten.foldl (fun patterns pat => if pat ∈ patterns then patterns else patterns ++ [pat]) first

/-- Source: `analysis/taint/sources.py`, `_has_http_source`. Kind: D -/
def hasHttpSource (self : SourceRegistry) (text : String) (language : Option String) : Bool :=
  anyIn httpSourcePatterns text || anyIn (self.patternsFor language) text

/-- Source: `analysis/taint/sources.py`, `is_source`. Kind: D -/
def isSource (self : SourceRegistry) (text : String) (language : Option String := none) : Bool :=
  if inStr "customRequest.getInput" text then true
  else if anyIn negativeControls text && !anyIn httpSourcePatterns text then false
  else self.hasHttpSource text language

end SourceRegistry

/-! ## Sinks -/

/-- Source: `analysis/taint/sinks.py`, `DEFAULT_SINKS`. Kind: D -/
def defaultSinks : List (TaintCategory × List String) :=
  [(.sqlInjection,
      ["execute(", "query(", "raw(", "Exec(", "db.execute", "cursor.execute", "mysqli_query", "PDO::query", "PDO::prepare",
        "mysqli::prepare", "DB::select", "DB::raw", "DB::statement"]),
    (.commandInjection,
      ["exec(", "system(", "shell_exec(", "subprocess.Popen", "subprocess.run", "Process.Start", "os.system", "passthru"]),
    (.pathTraversal,
      ["open(", "File(", "SendFile(", "NamedFile(", "read_file", "unlink", "file_get_contents"]),
    (.ssrf,
      ["requests.get", "requests.post", "requests.request", "urllib.request.urlopen", "fetch(", "axios.get", "axios.post",
        "http.Get(", "curl_exec", "reqwest::get"]),
    (.xss,
      ["response.write", "echo", "print(", "printf(", "document.write", "innerHTML", "outerHTML", "insertAdjacentHTML",
        "dangerouslySetInnerHTML", "v-html", "eval("])]

/-- Source: `analysis/taint/sinks.py`, `SinkRegistry`. Kind: D -/
structure SinkRegistry where
  sinks : Dict TaintCategory (List String) := .ofList defaultSinks

namespace SinkRegistry

/-- Source: `analysis/taint/sinks.py`, `is_sink`. Kind: D -/
def isSink (self : SinkRegistry) (text : String) : Bool := self.sinks.values.any fun patterns => anyIn patterns text

/-- The category of the first pattern that matches. Source: `analysis/taint/sinks.py`, `match_sink`. Kind: D -/
def matchSink (self : SinkRegistry) (text : String) : Option TaintCategory :=
  (self.sinks.entries.find? fun entry => anyIn entry.2 text).map Prod.fst

end SinkRegistry

/-! ## Sanitizers -/

/-- Source: `analysis/taint/sanitizers.py`, `DEFAULT_CONTEXT_SANITIZERS`. Kind: D -/
def defaultContextSanitizers : List (SanitizerContext × List String) :=
  [(.htmlBody,
      ["htmlspecialchars", "html.escape", "escape(", "sanitize_html", "StringEscapeUtils.escapeHtml4", "escapeHtml4"]),
    (.htmlAttribute, ["htmlspecialchars", "attribute_escape"]),
    (.javascriptContext, ["encodeURIComponent", "JSON.stringify", "DOMPurify.sanitize", "js_escape"]),
    (.sqlQuery,
      ["PreparedStatement", "parameterized", "int(", "intval", "int()", "escape_string", "quote_identifier"]),
    (.urlDestination, ["strict_url_allowlist", "validate_origin"]),
    (.filePath, ["Path.normalize", "filepath.Clean", "basename", "safe_join", "secure_filename"]),
    (.command, ["shlex.quote", "escapeshellarg", "escapeshellcmd"])]

/-- Source: `analysis/taint/sanitizers.py`, `SanitizerRegistry`. Kind: D -/
structure SanitizerRegistry where
  contextSanitizers : Dict SanitizerContext (List String) := .ofList defaultContextSanitizers

/-- Source: `analysis/taint/sanitizers.py`, `is_sanitizer`. Kind: D -/
def SanitizerRegistry.isSanitizer (self : SanitizerRegistry) (text : String) : Bool :=
  self.contextSanitizers.values.any fun patterns => anyIn patterns text

end KarsaSec.Taint

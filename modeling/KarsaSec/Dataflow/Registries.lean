import KarsaSec.Found.Regex

/-!
# Sources, sinks and sanitizers

The three registries of the data-flow analysis: `graph/dataflow/sources.py`, `sinks.py` and `sanitizers.py`.

* `containsSource`, `findMatchingSources`: the untrusted sources of a language in a text.
* `classifySink`: the category of a sink, from its name or else from its text.
* `identifySanitizer`, `isCompatible`: what a sanitizer achieves, and for which sinks that is enough.
-/

namespace KarsaSec.Dataflow

open KarsaSec.Found

/-- The letters, digits and `_` stand for themselves, and everything else behind a backslash. Source: `re.escape`. Kind: D -/
def reEscape (s : String) : String :=
  String.ofList (s.toList.flatMap fun c => if c.isAlphanum || c = '_' then [c] else ['\\', c])

/-- `s.lstrip("$")`. Kind: D -/
def lstripDollar (s : String) : String := String.ofList (s.toList.dropWhile (· = '$'))

/-! ## Sources -/

/-- Source: `sources.py`, `UNTRUSTED_SOURCES_PHP`. Kind: D -/
def untrustedSourcesPhp : List String :=
  ["$_GET", "$_POST", "$_REQUEST", "$_SERVER", "$_COOKIE", "$_FILES", "$_ENV", "$HTTP_RAW_POST_DATA", "$argv", "php://input"]

/-- Source: `sources.py`, `UNTRUSTED_SOURCES_PYTHON`. Kind: D -/
def untrustedSourcesPython : List String :=
  ["request.args", "request.form", "request.json", "request.GET", "request.POST", "request.values", "sys.argv", "os.environ"]

/-- Source: `sources.py`, `UNTRUSTED_SOURCES_JS`. Kind: D -/
def untrustedSourcesJs : List String :=
  ["req.query", "req.body", "req.params", "req.headers", "location.href", "location.search", "document.cookie", "window.name"]

/-- Source: `sources.py`, `UNTRUSTED_SOURCES_GO`. Kind: D -/
def untrustedSourcesGo : List String := ["r.URL.Query()", "r.FormValue", "r.PostFormValue", "r.Body", "os.Args"]

/-- Source: `sources.py`, `UNTRUSTED_SOURCES_JAVA`. Kind: D -/
def untrustedSourcesJava : List String :=
  ["args[", "request.getParameter", "request.getHeader", "HttpServletRequest", "System.getenv", "System.getProperty", "System.in"]

/-- Source: `sources.py`, `UNTRUSTED_SOURCES_RUST`. Kind: D -/
def untrustedSourcesRust : List String :=
  ["env::args", "env::args_os", "env::var", "env::var_os", "std::env::args", "std::env::args_os", "std::env::var",
    "std::env::var_os"]

/-- Source: `sources.py`, `SourceRegistry.get_sources_for_language`. Kind: D -/
def getSourcesForLanguage (language : String) : List String :=
  match lower (strip language) with
  | "php" => untrustedSourcesPhp
  | "python" => untrustedSourcesPython
  | "py" => untrustedSourcesPython
  | "javascript" => untrustedSourcesJs
  | "js" => untrustedSourcesJs
  | "typescript" => untrustedSourcesJs
  | "ts" => untrustedSourcesJs
  | "go" => untrustedSourcesGo
  | "java" => untrustedSourcesJava
  | "rust" => untrustedSourcesRust
  | _ => []

section sources

variable (t : CharTable)

/-- Whether a source is in a text. Source: `sources.py`, `contains_source`. Kind: D -/
def matchesSource (text source : String) : Bool :=
  if found t {} "[^A-Za-z0-9_]" source then found t { ignoreCase := true } (reEscape source) text
  -- around a word, `(?<!\w)` and `(?!\w)` are the two boundaries
  else found t { ignoreCase := true } ("\\b" ++ reEscape source ++ "\\b") text

/-- Source: `sources.py`, `SourceRegistry.contains_source`. Kind: D -/
def containsSource (text language : String) : Bool :=
  if text = "" then false else (getSourcesForLanguage language).any (matchesSource t text)

/-- Source: `sources.py`, `SourceRegistry.find_matching_sources`. Kind: D -/
def findMatchingSources (text language : String) : List String :=
  if text = "" then []
  else
    -- the longest first
    ((getSourcesForLanguage language).insertionSort fun a b => b.length ≤ a.length).filter (matchesSource t text)

end sources

/-! ## Sinks -/

/-- Source: `sinks.py`, `SinkCategory`. Kind: D -/
inductive SinkCategory
  | commandExecution
  | sqlExecution
  | sqlPreparation
  | parameterBinding
  | fileInclusion
  | fileRead
  | htmlOutput
  | codeEvaluation
  | cryptographicOperation
  deriving DecidableEq, Repr

/-- Source: `sinks.py`, `_PHP_SINKS`. Kind: D -/
def phpSinks : List (String × SinkCategory) :=
  [("shell_exec", .commandExecution), ("exec", .commandExecution), ("system", .commandExecution),
    ("passthru", .commandExecution), ("popen", .commandExecution), ("proc_open", .commandExecution),
    ("pcntl_exec", .commandExecution), ("eval", .codeEvaluation), ("assert", .codeEvaluation),
    ("create_function", .codeEvaluation), ("include", .fileInclusion), ("include_once", .fileInclusion),
    ("require", .fileInclusion), ("require_once", .fileInclusion), ("file_get_contents", .fileRead),
    ("readfile", .fileRead), ("fopen", .fileRead), ("echo", .htmlOutput), ("print", .htmlOutput),
    ("printf", .htmlOutput), ("htmlspecialchars", .htmlOutput), ("htmlentities", .htmlOutput),
    ("strip_tags", .htmlOutput), ("dvwaHtmlEcho", .htmlOutput), ("mysqli_query", .sqlExecution),
    ("mysql_query", .sqlExecution), ("pg_query", .sqlExecution), ("mysqli_prepare", .sqlPreparation),
    ("mysqli_stmt_bind_param", .parameterBinding), ("md5", .cryptographicOperation), ("sha1", .cryptographicOperation)]

/-- Source: `sinks.py`, `_PHP_METHOD_SINKS`. Kind: D -/
def phpMethodSinks : List (String × SinkCategory) :=
  [("query", .sqlExecution), ("exec", .sqlExecution), ("execute", .sqlExecution), ("prepare", .sqlPreparation),
    ("bindParam", .parameterBinding), ("bindValue", .parameterBinding), ("bind_param", .parameterBinding)]

/-- The patterns for a snippet whose symbol says nothing, in the order in which they are tried. Source: `sinks.py`,
`classify_sink`. Kind: D -/
def snippetSinks : List (String × SinkCategory) :=
  [("->(?:bindParam|bindValue|bind_param)\\s*\\(|\\bmysqli_stmt_bind_param\\s*\\(", .parameterBinding),
    ("->prepare\\s*\\(|\\bmysqli_prepare\\s*\\(", .sqlPreparation),
    ("\\b(shell_exec|exec|system|passthru|popen|proc_open)\\s*\\(", .commandExecution),
    ("\\b(include|require)(?:_once)?\\b", .fileInclusion),
    ("->(?:query|exec|execute)\\s*\\(", .sqlExecution),
    ("\\b(mysqli_query|mysql_query|pg_query)\\s*\\(", .sqlExecution),
    ("\\b(eval|assert)\\s*\\(", .codeEvaluation),
    ("\\b(echo|print|printf)\\b", .htmlOutput)]

/-- Source: `sinks.py`, `SinkRegistry.classify_sink`. Kind: D -/
def classifySink (t : CharTable) (symbol snippet language : String) : Option SinkCategory :=
  if lower (strip language) ≠ "php" then none
  else
    ((phpSinks.lookup (strip symbol)).or (phpMethodSinks.lookup (strip symbol))).or
      (if snippet = "" then none
      else snippetSinks.findSome? fun p => if found t { ignoreCase := true } p.1 snippet then some p.2 else none)

/-! ## Sanitizers -/

/-- Source: `sanitizers.py`, `SanitizerCapability`. Kind: D -/
inductive SanitizerCapability
  | htmlEscape
  | shellEscape
  | sqlEscape
  | integerCoercion
  | hashOutput
  | pathComponentNormalization
  | pathCanonicalization
  deriving DecidableEq, Repr

/-- The string value of a capability. Source: `sanitizers.py`, `SanitizerCapability`. Kind: D -/
def SanitizerCapability.value : SanitizerCapability → String
  | htmlEscape => "HTML_ESCAPE"
  | shellEscape => "SHELL_ESCAPE"
  | sqlEscape => "SQL_ESCAPE"
  | integerCoercion => "INTEGER_COERCION"
  | hashOutput => "HASH_OUTPUT"
  | pathComponentNormalization => "PATH_COMPONENT_NORMALIZATION"
  | pathCanonicalization => "PATH_CANONICALIZATION"

/-- The sinks that a capability is enough for. Source: `sanitizers.py`, `_CAPABILITY_COMPATIBILITY`. Kind: D -/
def capabilityCompatibility : SanitizerCapability → List SinkCategory
  | .htmlEscape => [.htmlOutput]
  | .shellEscape => [.commandExecution]
  | .sqlEscape => [.sqlExecution]
  | .integerCoercion => [.sqlExecution, .commandExecution, .fileInclusion, .fileRead, .htmlOutput, .codeEvaluation]
  | .hashOutput => [.sqlExecution, .commandExecution, .fileInclusion, .fileRead, .htmlOutput, .codeEvaluation]
  | .pathComponentNormalization => [.fileInclusion, .fileRead]
  | .pathCanonicalization => [.fileInclusion, .fileRead]

/-- Source: `sanitizers.py`, `SanitizerRegistry.is_compatible`. Kind: D -/
def isCompatible (capability : SanitizerCapability) (sinkCategory : SinkCategory) : Bool :=
  sinkCategory ∈ capabilityCompatibility capability

/-- Source: `sanitizers.py`, `_PHP_SANITIZERS`. Kind: D -/
def phpSanitizers : List (String × SanitizerCapability) :=
  [("htmlspecialchars", .htmlEscape), ("htmlentities", .htmlEscape), ("strip_tags", .htmlEscape),
    ("escapeshellarg", .shellEscape), ("escapeshellcmd", .shellEscape), ("mysqli_real_escape_string", .sqlEscape),
    ("mysql_real_escape_string", .sqlEscape), ("addslashes", .sqlEscape), ("intval", .integerCoercion),
    ("floatval", .integerCoercion), ("abs", .integerCoercion), ("is_numeric", .integerCoercion),
    ("ctype_digit", .integerCoercion), ("is_int", .integerCoercion), ("is_integer", .integerCoercion),
    ("md5", .hashOutput), ("sha1", .hashOutput), ("hash", .hashOutput), ("password_hash", .hashOutput),
    ("crypt", .hashOutput), ("crc32", .hashOutput), ("basename", .pathComponentNormalization),
    ("realpath", .pathCanonicalization)]

/-- Source: `sanitizers.py`, `SanitizerRegistry.identify_sanitizer`. Kind: D -/
def identifySanitizer (t : CharTable) (symbol snippet language : String) : Option SanitizerCapability :=
  if lower (strip language) ≠ "php" then none
  else
    (phpSanitizers.lookup (lower (strip symbol))).or
      (if snippet = "" then none
      else if found t { ignoreCase := true } "\\(\\s*(?:int|integer|float|double)\\s*\\)" snippet then some .integerCoercion
      else phpSanitizers.findSome? fun p =>
        if found t { ignoreCase := true } ("\\b" ++ reEscape p.1 ++ "\\s*\\(") snippet then some p.2 else none)

end KarsaSec.Dataflow

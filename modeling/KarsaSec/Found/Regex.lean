import KarsaSec.Found.Text

/-!
# Regular expressions

The part of Python's `re` on `str` that the sources use: patterns are written as they stand there and
read by `Regex.parse`.

* `Regex` is the syntax, `Regex.matchesAt` the backtracking matcher: all ways to match at a position,
  in the order in which `re` tries them.
* `search`, `matchPrefix`, `findall` and `subAll` are `re.search`, `re.match`, `re.findall` and `re.sub`.
* `CharTable` says what `re` knows of characters outside ASCII.
-/

namespace KarsaSec.Found

/-! ## Syntax -/

/-- An item of a character class. Kind: D -/
inductive ClassItem
  | range (lo hi : Char)
  | space
  | digit
  | word
  deriving DecidableEq, Repr

/-- Regular expressions with captures. Kind: D -/
inductive Regex
  | eps
  | cls (neg : Bool) (items : List ClassItem)
  | dot
  | seq (r s : Regex)
  | alt (r s : Regex)
  | star (greedy : Bool) (r : Regex)
  | group (n : ℕ) (r : Regex)
  | backref (n : ℕ)
  | notAhead (r : Regex)
  | boundary
  | start
  | stop
  deriving DecidableEq, Repr

namespace Regex

/-- One given character. Kind: D -/
def char (c : Char) : Regex := cls false [.range c c]

/-- `r?`. Kind: D -/
def opt (greedy : Bool) (r : Regex) : Regex := if greedy then alt r eps else alt eps r

/-- `r{n,}`; `r+` is `r{1,}`. Kind: D -/
def atLeast (greedy : Bool) (r : Regex) : ℕ → Regex
  | 0 => star greedy r
  | n + 1 => seq r (atLeast greedy r n)

/-! ## Reading a pattern -/

/-- What a backslash makes of a letter in a class. Kind: D -/
def escapeItem : Char → ClassItem
  | 's' => .space
  | 'd' => .digit
  | 'w' => .word
  | 'n' => .range '\n' '\n'
  | c => .range c c

/-- The items of a class up to its closing bracket. Kind: D -/
def parseItems : List Char → Option (List ClassItem × List Char)
  | ']' :: s => some ([], s)
  | '\\' :: c :: s => (parseItems s).map fun p => (escapeItem c :: p.1, p.2)
  | lo :: '-' :: ']' :: s => some ([.range lo lo, .range '-' '-'], s)
  | lo :: '-' :: hi :: s => (parseItems s).map fun p => (.range lo hi :: p.1, p.2)
  | c :: s => (parseItems s).map fun p => (.range c c :: p.1, p.2)
  | [] => none

/-- The value of a decimal digit. Kind: D -/
def digitVal (c : Char) : ℕ := c.toNat - '0'.toNat

/-- The quantifier of an atom, if it has one. Kind: D -/
def parseQuant (r : Regex) : List Char → Regex × List Char
  | '*' :: '?' :: s => (star false r, s)
  | '*' :: s => (star true r, s)
  | '+' :: '?' :: s => (atLeast false r 1, s)
  | '+' :: s => (atLeast true r 1, s)
  | '?' :: s => (opt true r, s)
  | '{' :: d :: ',' :: '}' :: s =>
    if d.isDigit then (atLeast true r (digitVal d), s) else (r, '{' :: d :: ',' :: '}' :: s)
  | s => (r, s)

mutual

/-- A pattern with the number of its next group, up to a closing parenthesis or its end. Kind: D -/
def parseAlt : ℕ → ℕ → List Char → Option (Regex × ℕ × List Char)
  | 0, _, _ => none
  | fuel + 1, n, s =>
    match parseSeq fuel n s with
    | some (r, n', '|' :: s') => (parseAlt fuel n' s').map fun p => (alt r p.1, p.2)
    | res => res

/-- A pattern without a bar outside its groups. Kind: D -/
def parseSeq : ℕ → ℕ → List Char → Option (Regex × ℕ × List Char)
  | 0, _, _ => none
  | fuel + 1, n, s =>
    match s with
    | [] => some (eps, n, [])
    | '|' :: _ => some (eps, n, s)
    | ')' :: _ => some (eps, n, s)
    | _ => (parseAtom fuel n s).bind fun p =>
      let q := parseQuant p.1 p.2.2
      (parseSeq fuel p.2.1 q.2).map fun p' =>
        (if p'.1 = eps then q.1 else seq q.1 p'.1, p'.2)

/-- One atom. Kind: D -/
def parseAtom : ℕ → ℕ → List Char → Option (Regex × ℕ × List Char)
  | 0, _, _ => none
  | fuel + 1, n, s =>
    match s with
    | '(' :: '?' :: ':' :: s' => (parseAlt fuel n s').bind fun p =>
      match p.2.2 with
      | ')' :: s'' => some (p.1, p.2.1, s'')
      | _ => none
    | '(' :: '?' :: '!' :: s' => (parseAlt fuel n s').bind fun p =>
      match p.2.2 with
      | ')' :: s'' => some (notAhead p.1, p.2.1, s'')
      | _ => none
    | '(' :: s' => (parseAlt fuel (n + 1) s').bind fun p =>
      match p.2.2 with
      | ')' :: s'' => some (group n p.1, p.2.1, s'')
      | _ => none
    | '[' :: '^' :: s' => (parseItems s').map fun p => (cls true p.1, n, p.2)
    | '[' :: s' => (parseItems s').map fun p => (cls false p.1, n, p.2)
    | '.' :: s' => some (dot, n, s')
    | '^' :: s' => some (start, n, s')
    | '$' :: s' => some (stop, n, s')
    | '\\' :: 'b' :: s' => some (boundary, n, s')
    | '\\' :: 'S' :: s' => some (cls true [.space], n, s')
    | '\\' :: c :: s' =>
      if c.isDigit then some (backref (digitVal c), n, s')
      else some (cls false [escapeItem c], n, s')
    | c :: s' => some (char c, n, s')
    | [] => none

end

/-- Read a pattern; nothing is left of one that `re` accepts. Kind: D -/
def parse (pattern : String) : Option Regex :=
  match parseAlt (3 * pattern.toList.length + 3) 1 pattern.toList with
  | some (r, _, []) => some r
  | _ => none

end Regex
/-! ## Characters -/

/-- What `re` knows of characters outside ASCII: which of them `\w` and `\d` match. Kind: D -/
structure CharTable where
  word : Char → Bool
  digit : Char → Bool

/-- The flags of a pattern. Kind: D -/
structure Flags where
  ignoreCase : Bool := false
  dotAll : Bool := false
  deriving DecidableEq, Repr

/-- Whether `\d` matches. Kind: D -/
def CharTable.isDigit (t : CharTable) (c : Char) : Bool :=
  c.isDigit || (128 ≤ c.toNat && t.digit c)

/-- Whether `\w` matches. Kind: D -/
def CharTable.isWord (t : CharTable) (c : Char) : Bool :=
  c.isAlphanum || c = '_' || (128 ≤ c.toNat && t.word c)

/-- The lower case of a character; `re` takes four characters outside ASCII for ASCII letters. Kind: D -/
def caseFold (c : Char) : Char :=
  if c = 'İ' ∨ c = 'ı' then 'i' else if c = 'ſ' then 's' else if c = 'K' then 'k' else c.toLower

/-- Whether a class item has a character. Kind: D -/
def ClassItem.has (t : CharTable) (flags : Flags) : ClassItem → Char → Bool
  | range lo hi, c =>
    let within := fun x : Char => lo.toNat ≤ x.toNat && x.toNat ≤ hi.toNat
    within c || (flags.ignoreCase && (within (caseFold c) || within (caseFold c).toUpper))
  | space, c => isSpace c
  | digit, c => t.isDigit c
  | word, c => t.isWord c

/-! ## Matching -/

namespace Regex

/-- A position in the text: the character before it, what follows, and the groups so far. Kind: D -/
structure Pos where
  prev : Option Char
  rest : List Char
  caps : List (ℕ × List Char)
  deriving DecidableEq

/-- The text between two positions. Kind: D -/
def Pos.upTo (p q : Pos) : List Char := p.rest.take (p.rest.length - q.rest.length)

/-- Read one character with the given property. Kind: D -/
def Pos.eat (ok : Char → Bool) (p : Pos) : List Pos :=
  match p.rest with
  | [] => []
  | c :: rest => if ok c then [⟨some c, rest, p.caps⟩] else []

/-- Read a given text. Kind: D -/
def Pos.eatText (same : Char → Char → Bool) : List Char → Pos → List Pos
  | [], p => [p]
  | c :: text, p => (p.eat (same c)).flatMap (Pos.eatText same text)

/-- The ways to repeat a matcher, at most `n` times and each time further on. Kind: D -/
def starFrom (m : Pos → List Pos) (greedy : Bool) : ℕ → Pos → List Pos
  | 0, p => [p]
  | n + 1, p =>
    let more := ((m p).filter fun q => q.rest.length < p.rest.length).flatMap
      (starFrom m greedy n)
    if greedy then more ++ [p] else p :: more

/-- The ways to match at a position, in the order in which they are tried. Kind: D -/
def matchesAt (t : CharTable) (flags : Flags) : Regex → Pos → List Pos
  | eps, p => [p]
  | cls neg items, p => p.eat fun c => (items.any fun i => i.has t flags c) != neg
  | dot, p => p.eat fun c => flags.dotAll || c ≠ '\n'
  | seq r s, p => (matchesAt t flags r p).flatMap (matchesAt t flags s)
  | alt r s, p => matchesAt t flags r p ++ matchesAt t flags s p
  | star greedy r, p => starFrom (matchesAt t flags r) greedy p.rest.length p
  | group n r, p => (matchesAt t flags r p).map fun q => { q with caps := (n, p.upTo q) :: q.caps }
  | backref n, p =>
    match p.caps.lookup n with
    | some text => p.eatText (fun c d => c = d || (flags.ignoreCase && caseFold c = caseFold d)) text
    | none => []
  | notAhead r, p => if (matchesAt t flags r p).isEmpty then [p] else []
  | boundary, p =>
    let before := (p.prev.map t.isWord).getD false
    let after := (p.rest.head?.map t.isWord).getD false
    if before != after then [p] else []
  | start, p => if p.prev.isNone then [p] else []
  | stop, p => if p.rest = [] ∨ p.rest = ['\n'] then [p] else []

/-- A match: what stands before it, itself, its groups and what follows. Kind: D -/
structure Match where
  before : List Char
  text : List Char
  caps : List (ℕ × List Char)
  after : List Char
  deriving DecidableEq

/-- A group of a match; group `0` is the match itself. Source: `re.Match.group`. Kind: D -/
def Match.group (m : Match) (n : ℕ) : Option (List Char) :=
  if n = 0 then some m.text else m.caps.lookup n

variable (t : CharTable) (flags : Flags) (r : Regex)

/-- The first way to match at a position. Kind: D -/
def firstAt (prev : Option Char) (s : List Char) : Option Match :=
  (matchesAt t flags r ⟨prev, s, []⟩).head?.map fun q =>
    ⟨[], Pos.upTo ⟨prev, s, []⟩ q, q.caps, q.rest⟩

/-- The first match from a position on. Kind: D -/
def searchFrom : Option Char → List Char → Option Match
  | prev, [] => firstAt t flags r prev []
  | prev, c :: s =>
    match firstAt t flags r prev (c :: s) with
    | some m => some m
    | none => (searchFrom (some c) s).map fun m => { m with before := c :: m.before }

/-- The matches that do not overlap, from a position on. Kind: D -/
def findFrom : ℕ → Option Char → List Char → List Match
  | 0, _, _ => []
  | n + 1, prev, s =>
    match searchFrom t flags r prev s with
    | none => []
    | some m =>
      match m.text.getLast? with
      | some c => m :: findFrom n (some c) m.after
      | none =>
        match m.after with
        | [] => [m]
        | c :: after =>
          -- an empty match is followed by a search one character further on
          match findFrom n (some c) after with
          | [] => [m]
          | m' :: ms => m :: { m' with before := c :: m'.before } :: ms

end Regex

/-! ## The functions of `re` -/

/-- `re.search(pattern, s, flags)`. Kind: D -/
def search (t : CharTable) (flags : Flags) (pattern s : String) : Option Regex.Match :=
  (Regex.parse pattern).bind fun r => Regex.searchFrom t flags r none s.toList

/-- `bool(re.search(pattern, s, flags))`. Kind: D -/
def found (t : CharTable) (flags : Flags) (pattern s : String) : Bool :=
  (search t flags pattern s).isSome

/-- `re.match(pattern, s, flags)`. Kind: D -/
def matchPrefix (t : CharTable) (flags : Flags) (pattern s : String) : Option Regex.Match :=
  (Regex.parse pattern).bind fun r => Regex.firstAt t flags r none s.toList

/-- The matches of `re.finditer(pattern, s, flags)`. Kind: D -/
def finditer (t : CharTable) (flags : Flags) (pattern s : String) : List Regex.Match :=
  match Regex.parse pattern with
  | some r => Regex.findFrom t flags r (s.toList.length + 1) none s.toList
  | none => []

/-- `re.findall(pattern, s, flags)` for a pattern with at most one group, `n` being that group, or `0`
without one. Kind: D -/
def findall (t : CharTable) (flags : Flags) (n : ℕ) (pattern s : String) : List String :=
  (finditer t flags pattern s).map fun m => String.ofList ((m.group n).getD [])

/-- `re.sub(pattern, new, s, flags)` for a text `new` without references. Kind: D -/
def subAll (t : CharTable) (flags : Flags) (pattern new s : String) : String :=
  match finditer t flags pattern s with
  | [] => s
  | ms => String.ofList ((ms.map fun m => m.before ++ new.toList).flatten ++
      ((ms.getLast?.map Regex.Match.after).getD []))

end KarsaSec.Found

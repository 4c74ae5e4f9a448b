import KarsaSec.Graph.ConstantResolver

/-!
# When the resolver of one file returns

`graph/constant_resolver.py`: `resolve` counts the constants that it follows, `_classify_part` does not count the times that it splits.

* `splitPhpConcat_part`: a part of a concatenation is not split any further.
* `classifyPart_never`: so a part in which a dot is left is split again without end, unless it is a literal.
* `Outcome`, `constantOutcome`, `expressionOutcome`: whether such a part is met, by the constants that can still be followed.
* `returns_iff`: the calls return exactly if it is not.
-/

namespace KarsaSec.Graph

open KarsaSec.Found

/-! ## Parts -/

/-- No dot outside quotes. Kind: D -/
def whole (inSingle inDouble : Bool) : List Char → Bool
  | [] => true
  | ch :: rest =>
    if ch = '\'' && !inDouble then whole (!inSingle) inDouble rest
    else if ch = '"' && !inSingle then whole inSingle (!inDouble) rest
    else if ch = '.' && !inSingle && !inDouble then false
    else whole inSingle inDouble rest

/-- Source: `graph/constant_resolver.py`, `_split_php_concat`. Kind: L -/
theorem pieces_of_whole : {s d : Bool} → {current l : List Char} → whole s d l = true → pieces s d current l = [current ++ l]
  | _, _, _, [], _ => by rw [pieces, List.append_nil]
  | s, d, current, ch :: rest, h => by
    rw [whole] at h
    rw [pieces]
    split at h
    · rw [if_pos ‹_›, pieces_of_whole h, List.append_assoc, List.singleton_append]
    · rw [if_neg ‹_›]
      split at h
      · rw [if_pos ‹_›, pieces_of_whole h, List.append_assoc, List.singleton_append]
      · rw [if_neg ‹_›]
        split at h
        · cases h
        · rw [if_neg ‹_›, pieces_of_whole h, List.append_assoc, List.singleton_append]

theorem whole_append {b : List Char} : {s d : Bool} → (a : List Char) → whole s d (a ++ b) = true → whole s d a = true
  | _, _, [], _ => rfl
  | s, d, ch :: rest, h => by
    rw [List.cons_append, whole] at h
    rw [whole]
    split at h
    · rw [if_pos ‹_›]
      exact whole_append rest h
    · rw [if_neg ‹_›]
      split at h
      · rw [if_pos ‹_›]
        exact whole_append rest h
      · rw [if_neg ‹_›]
        split at h
        · cases h
        · rw [if_neg ‹_›]
          exact whole_append rest h

theorem whole_spaces {s d : Bool} {l : List Char} : {a : List Char} → (∀ c ∈ a, isSpace c = true) →
    whole s d (a ++ l) = whole s d l
  | [], _ => rfl
  | ch :: rest, h => by
    have hspace := h ch List.mem_cons_self
    have hquote : ch ≠ '\'' ∧ ch ≠ '"' ∧ ch ≠ '.' := by
      refine ⟨?_, ?_, ?_⟩ <;> rintro rfl <;> exact absurd hspace (by decide)
    rw [List.cons_append, whole, if_neg (by simp [hquote.1]), if_neg (by simp [hquote.2.1]), if_neg (by simp [hquote.2.2])]
    exact whole_spaces fun c hc => h c (List.mem_cons_of_mem _ hc)

/-- Each piece is read as a whole, the first one from where the text begins. Source: `graph/constant_resolver.py`,
`_split_php_concat`. Kind: L -/
theorem whole_pieces {s₀ d₀ : Bool} : {s d : Bool} → {current l : List Char} →
    (∀ x, whole s₀ d₀ (current ++ x) = whole s d x) →
      ∃ first rest, pieces s d current l = first :: rest ∧ whole s₀ d₀ first = true ∧ ∀ p ∈ rest, whole false false p = true
  | s, d, current, [], h => by
    refine ⟨current, [], by rw [pieces], ?_, fun p hp => absurd hp List.not_mem_nil⟩
    rw [← List.append_nil current, h]
    rfl
  | s, d, current, ch :: rest, h => by
    have hnext : ∀ x, whole s₀ d₀ (current ++ [ch] ++ x) = whole s d (ch :: x) := fun x => by
      rw [List.append_assoc, List.singleton_append, h]
    rw [pieces]
    split
    · exact whole_pieces fun x => by rw [hnext, whole, if_pos ‹_›]
    · split
      · exact whole_pieces fun x => by rw [hnext, whole, if_neg ‹_›, if_pos ‹_›]
      · split
        · next hdot =>
            simp only [Bool.and_eq_true, Bool.not_eq_true'] at hdot
            obtain ⟨⟨-, rfl⟩, rfl⟩ := hdot
            obtain ⟨first, others, heq, hfirst, hothers⟩ : ∃ first others, pieces false false [] rest = first :: others ∧
                whole false false first = true ∧ ∀ p ∈ others, whole false false p = true := whole_pieces fun x => rfl
            refine ⟨current, first :: others, by rw [heq], ?_, ?_⟩
            · rw [← List.append_nil current, h]
              rfl
            · simp_all
        · exact whole_pieces fun x => by rw [hnext, whole, if_neg ‹_›, if_neg ‹_›, if_neg ‹_›]

/-- A part is not split any further. Source: `graph/constant_resolver.py`, `_split_php_concat`. Kind: L -/
theorem splitPhpConcat_part {expr part : String} (hexpr : strip expr = expr) (h : part ∈ splitPhpConcat expr) :
    splitPhpConcat (strip part) = [strip part] := by
  obtain ⟨first, others, heq, hfirst, hothers⟩ : ∃ first others, pieces false false [] expr.toList = first :: others ∧
      whole false false first = true ∧ ∀ p ∈ others, whole false false p = true := whole_pieces fun x => rfl
  have hwhole : ∀ p ∈ pieces false false [] expr.toList, whole false false p = true := by simp_all
  rw [splitPhpConcat] at h
  split at h
  · grind [splitPhpConcat]
  · next hparts =>
      obtain ⟨hmem, hne⟩ := List.mem_filter.mp h
      obtain ⟨piece, hpiece, rfl⟩ := List.mem_map.mp hmem
      obtain ⟨a, b, hab, ha, -⟩ := exists_stripList piece
      have hstripped : whole false false (stripList piece) = true := by
        have h := hwhole piece hpiece
        rw [hab, List.append_assoc, whole_spaces ha] at h
        exact whole_append _ h
      have htext : (strip (String.ofList piece)).toList = stripList piece := by
        rw [strip, String.toList_ofList, String.toList_ofList]
      rw [← htext] at hstripped
      have hself := strip_strip (String.ofList piece)
      revert hne hstripped hself
      generalize strip (String.ofList piece) = q
      intro hne hstripped hself
      rw [hself, splitPhpConcat, pieces_of_whole hstripped, List.nil_append, List.map_singleton, String.ofList_toList, hself,
        List.filter_singleton, hne]
      rfl

/-! ## Splitting again -/

section never

variable {t : CharTable} {decls : Dict String (List ConstantDeclaration)}

/-- A part in which a dot is left is split again without end. Source: `graph/constant_resolver.py`, `_classify_part`. Kind: L -/
theorem classifyPart_never {part : String} (hsplit : splitPhpConcat (strip part) = [strip part])
    (hdot : (inStr "." (strip part) && !isStringLiteral t (strip part)) = true) (visited : List String) (depth : ℕ) :
    (fuel : ℕ) → classifyPart t decls fuel part visited depth = none
  | 0 => rfl
  | fuel + 1 => by
    have ih : classifyPart t decls fuel (strip part) visited depth = none :=
      classifyPart_never (by rw [strip_strip, hsplit]) (by rw [strip_strip, hdot]) visited depth fuel
    rw [classifyPart, partBody, if_pos hdot, resolveConcat, hsplit, concatLoop, ih]
    rfl

end never

/-! ## What is met -/

/-- How a call ends. Kind: D -/
inductive Outcome
  | never
  | tainted
  | other
  deriving DecidableEq, Repr

/-- How a call has ended. Kind: D -/
def ConstantEvidence.outcome (ev : ConstantEvidence) : Outcome := if ev.resolution = .tainted then .tainted else .other

/-- The first part that is tainted or does not return decides. Kind: D -/
def concatOutcome (outcome : String → Outcome) : List String → Outcome
  | [] => .other
  | part :: rest =>
    match outcome part with
    | .never => .never
    | .tainted => .tainted
    | .other => concatOutcome outcome rest

section outcomes

variable (t : CharTable)

/-- An expression that is not split: what it settles to, or the constant that it is. Kind: D -/
def atomWith {α : Type} (settled : Outcome → α) (look : String → α) (e : String) : α :=
  if isStringLiteral t e || isScalar t e then settled .other
  else if (phpTaintSources.find? (inStr · e)).isSome then settled .tainted
  else if readsEnv t e || hasVariable t e then settled .other
  else if isConstant t e then look e
  else settled .other

/-- A part of a concatenation. Kind: D -/
def partOutcome (look : String → Outcome) (part : String) : Outcome :=
  if inStr "." (strip part) && !isStringLiteral t (strip part) then .never else atomWith t id look (strip part)

/-- The value of a constant. Kind: D -/
def valueOutcome (look : String → Outcome) (e : String) : Outcome :=
  if reachesConcat t e then concatOutcome (partOutcome t look) (splitPhpConcat e) else atomWith t id look e

variable (decls : Dict String (List ConstantDeclaration))

/-- A constant, by the number of constants that can still be followed. Kind: D -/
def constantOutcome : ℕ → List String → String → Outcome
  | 0, _, _ => .other
  | k + 1, visited, name =>
    if name ∈ visited then .other
    else
      match decls.get? name with
      | some [decl] => valueOutcome t (constantOutcome k (name :: visited)) (strip decl.valueExpr)
      | _ => .other

/-- An expression, which may itself be a concatenation. Kind: D -/
def expressionOutcome (e : String) : Outcome :=
  if inStr "." e && !isStringLiteral t e then concatOutcome (partOutcome t (constantOutcome t decls 8 [])) (splitPhpConcat e)
  else atomWith t id (constantOutcome t decls 8 []) e

end outcomes

/-! ## When a call returns -/

section meets

variable {t : CharTable}

/-- A call ends as it should, if at all, and it ends if there is enough fuel. Kind: D -/
structure Meets (enough : Prop) (result : Option Outcome) (outcome : Outcome) : Prop where
  eq : ∀ o, result = some o → o = outcome
  isSome : enough → outcome ≠ .never → result.isSome

variable {enough : Prop}

theorem Meets.of_eq {outcome : Outcome} : Meets enough (some outcome) outcome :=
  ⟨fun _ h => (Option.some.inj h).symm, fun _ _ => rfl⟩

theorem Meets.of_none {outcome : Outcome} (h : ¬enough) : Meets enough none outcome :=
  ⟨fun _ h => (Option.some_ne_none _ h.symm).elim, fun henough => absurd henough h⟩

theorem Meets.never : Meets enough none .never := ⟨fun _ h => (Option.some_ne_none _ h.symm).elim, fun _ h => absurd rfl h⟩

theorem ConstantEvidence.outcome_ne_never (ev : ConstantEvidence) : ev.outcome ≠ .never := by
  unfold ConstantEvidence.outcome
  split <;> exact Outcome.noConfusion

/-- Source: `graph/constant_resolver.py`, `_classify_part`. Kind: L -/
theorem atomWith_meets {look : String → Option Outcome} {outcome : String → Outcome} {e : String}
    (h : isConstant t e = true → Meets enough (look e) (outcome e)) :
    Meets enough (atomWith t some look e) (atomWith t id outcome e) := by
  unfold atomWith
  split
  · exact .of_eq
  · split
    · exact .of_eq
    · split
      · exact .of_eq
      · split
        · exact h ‹_›
        · exact .of_eq

variable {classify concat look : String → Option ConstantEvidence}

/-- Source: `graph/constant_resolver.py`, `_resolve_concat`. Kind: L -/
theorem concatLoop_meets {outcome : String → Outcome} : {parts : List String} →
    (∀ part ∈ parts, Meets enough ((classify part).map ConstantEvidence.outcome) (outcome part)) →
      Meets enough ((concatLoop classify parts).map fun r => r.casesOn (fun _ => Outcome.tainted) fun _ => Outcome.other)
        (concatOutcome outcome parts)
  | [], _ => .of_eq
  | part :: rest, h => by
    have hpart := h part List.mem_cons_self
    have ih := concatLoop_meets fun q hq => h q (List.mem_cons_of_mem _ hq)
    rw [concatLoop, concatOutcome]
    cases hclassify : classify part with
    | none =>
      rw [hclassify] at hpart
      cases houtcome : outcome part with
      | never => exact .never
      | tainted | other =>
        refine .of_none fun henough => ?_
        cases hpart.isSome henough (by simp [houtcome])
    | some ev =>
      rw [hclassify] at hpart
      have heq : ev.outcome = outcome part := hpart.eq _ rfl
      rw [← heq, Option.bind_some]
      by_cases htainted : ev.resolution = .tainted
      · rw [if_pos htainted, ConstantEvidence.outcome, if_pos htainted]
        exact .of_eq
      · rw [if_neg htainted, ConstantEvidence.outcome, if_neg htainted, Option.map_map]
        refine cast ?_ ih
        congr 2
        funext r
        cases r <;> rfl

/-- Source: `graph/constant_resolver.py`, `_resolve_concat`. Kind: L -/
theorem resolveConcat_meets {outcome : String → Outcome} {name expr : String}
    (h : ∀ part ∈ splitPhpConcat expr, Meets enough ((classify part).map ConstantEvidence.outcome) (outcome part)) :
    Meets enough ((resolveConcat classify name expr).map ConstantEvidence.outcome) (concatOutcome outcome (splitPhpConcat expr)) := by
  refine cast ?_ (concatLoop_meets h)
  rw [resolveConcat, Option.map_map]
  congr 2
  funext r
  rcases r with _ | ⟨_ | _, _⟩ <;> rfl

/-- Source: `graph/constant_resolver.py`, `_classify_value`. Kind: L -/
theorem outcome_classifyValue (name valueExpr : String) :
    (classifyValue t concat look name valueExpr).map ConstantEvidence.outcome =
      if reachesConcat t (strip valueExpr) then (concat (strip valueExpr)).map ConstantEvidence.outcome
      else atomWith t some (fun e => (look e).map ConstantEvidence.outcome) (strip valueExpr) := by
  generalize he : strip valueExpr = e
  unfold classifyValue
  rw [he]
  unfold atomWith reachesConcat isConstant
  dsimp only
  cases hliteral : isStringLiteral t e
  · cases hscalar : isScalar t e
    · cases hsource : phpTaintSources.find? (inStr · e)
      · cases henv : readsEnv t e
        · cases hvar : hasVariable t e
          · cases hdot : inStr "." e
            · cases hname : isName t e
              · simp [ConstantEvidence.outcome]
              · have hnested : ∀ nested : ConstantEvidence, (if nested.resolution = .staticConstant then
                      { name := name, resolution := .staticConstant, resolvedValue := nested.resolvedValue,
                        provenance := "Nested constant '" ++ e ++ "': " ++ nested.provenance }
                    else
                      { name := name, resolution := nested.resolution, resolvedValue := nested.resolvedValue,
                        provenance := "Inherits from '" ++ e ++ "': " ++ nested.provenance } : ConstantEvidence).outcome =
                    nested.outcome := by
                  intro nested
                  by_cases hconstant : nested.resolution = .staticConstant
                  · simp_all [ConstantEvidence.outcome]
                  · simp_all [ConstantEvidence.outcome]
                simp [Function.comp_def, hnested]
            · simp
          · simp [ConstantEvidence.outcome]
        · simp [ConstantEvidence.outcome]
      · simp [ConstantEvidence.outcome]
    · simp [ConstantEvidence.outcome]
  · simp [ConstantEvidence.outcome]

/-- Source: `graph/constant_resolver.py`, `_classify_part`. Kind: L -/
theorem outcome_partBody (part : String) :
    (partBody t concat look part).map ConstantEvidence.outcome =
      if inStr "." (strip part) && !isStringLiteral t (strip part) then (concat (strip part)).map ConstantEvidence.outcome
      else atomWith t some (fun e => (look e).map ConstantEvidence.outcome) (strip part) := by
  generalize he : strip part = e
  unfold partBody
  rw [he]
  unfold atomWith isConstant
  dsimp only
  cases hliteral : isStringLiteral t e
  · cases hdot : inStr "." e
    · cases hscalar : isScalar t e
      · cases hsource : phpTaintSources.find? (inStr · e)
        · cases henv : readsEnv t e
          · grind [ConstantEvidence.outcome]
          · simp [ConstantEvidence.outcome]
        · simp [ConstantEvidence.outcome]
      · simp [ConstantEvidence.outcome]
    · simp
  · simp [ConstantEvidence.outcome]

end meets

section returning

variable (t : CharTable) (decls : Dict String (List ConstantDeclaration))

/-- By induction on the fuel; `k` constants can still be followed. Source: `graph/constant_resolver.py`, `resolve`, `_classify_part`.
Kind: L -/
theorem resolve_meets (fuel : ℕ) :
    (∀ k name visited depth, depth + k = 9 → Meets (2 * k + 1 ≤ fuel)
      ((resolve t decls fuel name visited depth).map ConstantEvidence.outcome) (constantOutcome t decls k visited name)) ∧
    (∀ k part visited depth, depth + k = 8 → splitPhpConcat (strip part) = [strip part] → Meets (2 * k + 2 ≤ fuel)
      ((classifyPart t decls fuel part visited depth).map ConstantEvidence.outcome)
      (partOutcome t (constantOutcome t decls k visited) part)) := by
  induction fuel with
  | zero => exact ⟨fun _ _ _ _ _ => .of_none (by omega), fun _ _ _ _ _ _ => .of_none (by omega)⟩
  | succ fuel ih =>
    obtain ⟨ihResolve, ihPart⟩ := ih
    constructor
    · intro k name visited depth hdepth
      rw [resolve]
      cases k with
      | zero =>
        rw [if_pos (by omega)]
        exact .of_eq
      | succ k =>
        rw [if_neg (by omega), constantOutcome]
        by_cases hvisited : name ∈ visited
        · rw [if_pos hvisited, if_pos hvisited]
          exact .of_eq
        · rw [if_neg hvisited, if_neg hvisited]
          match decls.get? name with
          | none => exact .of_eq
          | some [] => exact .of_eq
          | some (_ :: _ :: _) => exact .of_eq
          | some [decl] =>
            dsimp only
            rw [outcome_classifyValue, valueOutcome]
            by_cases hconcat : reachesConcat t (strip decl.valueExpr) = true
            · rw [if_pos hconcat, if_pos hconcat]
              refine resolveConcat_meets fun part hpart => ?_
              have h := ihPart k part (name :: visited) depth (by omega) (splitPhpConcat_part (strip_strip _) hpart)
              exact ⟨h.eq, fun henough => h.isSome (by omega)⟩
            · rw [if_neg hconcat, if_neg hconcat]
              refine atomWith_meets fun _ => ?_
              have h := ihResolve k (strip decl.valueExpr) (name :: visited) (depth + 1) (by omega)
              exact ⟨h.eq, fun henough => h.isSome (by omega)⟩
    · intro k part visited depth hdepth hsplit
      rw [partOutcome]
      by_cases hdot : (inStr "." (strip part) && !isStringLiteral t (strip part)) = true
      · rw [if_pos hdot, classifyPart_never hsplit hdot]
        exact .never
      · rw [if_neg hdot, classifyPart, outcome_partBody, if_neg hdot]
        refine atomWith_meets fun _ => ?_
        have h := ihResolve k (strip part) visited (depth + 1) (by omega)
        exact ⟨h.eq, fun henough => h.isSome (by omega)⟩

/-- A call returns. Kind: D -/
def Returns (call : ℕ → Option ConstantEvidence) : Prop := ∃ n, ∀ fuel, n ≤ fuel → (call fuel).isSome

theorem returns_iff_of_meets {call : ℕ → Option ConstantEvidence} {outcome : Outcome} (n : ℕ)
    (h : ∀ fuel, Meets (n ≤ fuel) ((call fuel).map ConstantEvidence.outcome) outcome) : Returns call ↔ outcome ≠ .never := by
  constructor
  · rintro ⟨m, hm⟩ rfl
    obtain ⟨ev, hev⟩ := Option.isSome_iff_exists.mp (hm m le_rfl)
    exact ev.outcome_ne_never ((h m).eq _ (by rw [hev]; rfl))
  · intro hne
    refine ⟨n, fun fuel hfuel => ?_⟩
    rw [← Option.isSome_map]
    exact (h fuel).isSome hfuel hne

end returning

section entries

variable (t : CharTable) (sourceText : String)

/-- Source: `graph/constant_resolver.py`, `resolve_expression`. Kind: D -/
def resolveExpressionIn (fuel : ℕ) (expression : String) : Option ConstantEvidence :=
  classifyPart t (discoverDeclarations t sourceText) fuel (strip expression) [] 0

/-- Source: `graph/constant_resolver.py`, `resolve`. Kind: D -/
def resolveIn (fuel : ℕ) (identifier : String) : Option ConstantEvidence :=
  resolve t (discoverDeclarations t sourceText) fuel identifier [] 0

theorem resolveExpressionIn_meets (expression : String) (fuel : ℕ) : Meets (19 ≤ fuel)
    ((resolveExpressionIn t sourceText fuel expression).map ConstantEvidence.outcome)
    (expressionOutcome t (discoverDeclarations t sourceText) (strip expression)) := by
  rw [resolveExpressionIn]
  cases fuel with
  | zero => exact .of_none (by omega)
  | succ fuel =>
    obtain ⟨hresolve, hpart⟩ := resolve_meets t (discoverDeclarations t sourceText) fuel
    rw [classifyPart, outcome_partBody, strip_strip, expressionOutcome]
    by_cases hdot : (inStr "." (strip expression) && !isStringLiteral t (strip expression)) = true
    · rw [if_pos hdot, if_pos hdot]
      refine resolveConcat_meets fun part hmem => ?_
      have h := hpart 8 part [] 0 rfl (splitPhpConcat_part (strip_strip _) hmem)
      exact ⟨h.eq, fun henough => h.isSome (by omega)⟩
    · rw [if_neg hdot, if_neg hdot]
      refine atomWith_meets fun _ => ?_
      have h := hresolve 8 (strip expression) [] 1 rfl
      exact ⟨h.eq, fun henough => h.isSome (by omega)⟩

/-- The calls return exactly if no part in which a dot is left is met. Source: `graph/constant_resolver.py`, `resolve`,
`resolve_expression`. Kind: T -/
theorem returns_iff :
    (∀ identifier, Returns (fun fuel => resolveIn t sourceText fuel identifier) ↔
      constantOutcome t (discoverDeclarations t sourceText) 9 [] identifier ≠ .never) ∧
    ∀ expression, Returns (fun fuel => resolveExpressionIn t sourceText fuel expression) ↔
      expressionOutcome t (discoverDeclarations t sourceText) (strip expression) ≠ .never :=
  ⟨fun identifier => returns_iff_of_meets 19 fun fuel =>
      (resolve_meets t (discoverDeclarations t sourceText) fuel).1 9 identifier [] 0 rfl,
    fun expression => returns_iff_of_meets 19 (resolveExpressionIn_meets t sourceText expression)⟩

/-- A dot in the quoted argument of a call. Source: `graph/constant_resolver.py`, `resolve_expression`. Kind: T -/
theorem quoted_dot_never_returns : ¬Returns fun fuel => resolveExpressionIn ascii "" fuel "foo('a.b')" := by
  rintro ⟨n, hn⟩
  have h : (resolveExpressionIn ascii "" n "foo('a.b')").isSome := hn n le_rfl
  have hnever : resolveExpressionIn ascii "" n "foo('a.b')" = none :=
    classifyPart_never (by decide +kernel) (by decide +kernel) [] 0 n
  rw [hnever] at h
  cases h

end entries

end KarsaSec.Graph

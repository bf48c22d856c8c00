import Mathlib
import QuadStore.Proofs.DateReading
import QuadStore.Proofs.DumpReload
import QuadStore.Proofs.TokenShapes

/-!
# Texts are read line by line

What is read of a text is read of its lines, each by itself: the statements of all lines in their order,
or the fault of the first line that is no statement (`text_read_linewise`).

A reader takes a carriage return off a line only where a line feed follows it.  So one at the end of the
text stays, and of two before a line feed the first.  That does not matter to any scanner.  None of the
tokens takes a carriage return except a string, in which a backslash takes along whatever follows; and
since the carriage return is the last character of the line, no quote would close that string.  Hence a
scanner finds the same with a carriage return at the end as without and leaves it there
(`Grammar.LeavesReturn`), and at the end of the line it is a blank (`Grammar.line?_return`).

Therefore the lines may as well be taken to be all that stands between line feeds
(`textQuads_eq_quadsFrom_splitAll`), and these pieces are easily followed when line feeds are put between
two texts or carriage returns before line feeds.
-/

namespace QuadStore

namespace Grammar

/-! ## A carriage return at the end of a line -/

section

variable {α : Type}

/-- What was found, with a carriage return behind what is left. -/
def withReturn (found : Option (α × List Char)) : Option (α × List Char) :=
  found.map fun (token, rest) => (token, rest ++ ['\r'])

@[simp] lemma withReturn_none : withReturn (none : Option (α × List Char)) = none := rfl

@[simp] lemma withReturn_some (token : α) (rest : List Char) :
    withReturn (some (token, rest)) = some (token, rest ++ ['\r']) := rfl

/-- A scanner that finds the same and leaves a carriage return at the end of a text where it is. -/
def LeavesReturn (scan : List Char → Option (α × List Char)) : Prop :=
  ∀ text, scan (text ++ ['\r']) = withReturn (scan text)

/-- The same of a function that always takes something off, and be it nothing. -/
def AlwaysLeavesReturn (take : List Char → List Char × List Char) : Prop :=
  ∀ text, take (text ++ ['\r']) = ((take text).1, (take text).2 ++ ['\r'])

lemma span_leavesReturn {keep : Char → Bool} (hkeep : keep '\r' = false) :
    AlwaysLeavesReturn (span keep) := by
  intro text
  induction text with
  | nil => simp [span, hkeep]
  | cons c text ih =>
    simp only [span, Prod.mk.injEq] at ih
    cases hc : keep c <;> simp [span, hc, ih]

/-- Blanks and comments are skipped with a carriage return behind them, if nothing else is there. -/
lemma skipFrom_return (inComment : Bool) (text : List Char) :
    skipFrom inComment (text ++ ['\r']) =
      if skipFrom inComment text = [] then [] else skipFrom inComment text ++ ['\r'] := by
  induction text generalizing inComment with
  | nil => cases inComment <;> rfl
  | cons c text ih =>
    rw [List.cons_append, skipFrom, skipFrom]
    by_cases hcomment : inComment = true
    · simp only [if_pos hcomment]
      exact ih _
    · by_cases hsharp : (c == '#') = true
      · simp only [if_neg hcomment, if_pos hsharp]
        exact ih _
      · by_cases hspace : isSpace c = true
        · simp only [if_neg hcomment, if_neg hsharp, if_pos hspace]
          exact ih _
        · simp [hcomment, hsharp, hspace]

lemma skip_return (text : List Char) :
    skip (text ++ ['\r']) = if skip text = [] then [] else skip text ++ ['\r'] :=
  skipFrom_return false text

/-- A scanner that finds nothing in nothing does not see it either behind blanks and comments. -/
lemma LeavesReturn.skip {scan : List Char → Option (α × List Char)} (h : LeavesReturn scan)
    (hnil : scan [] = none) : LeavesReturn fun text => scan (skip text) := by
  intro text
  dsimp only
  rw [skip_return]
  split
  · rename_i hempty
    rw [hempty, hnil]
    rfl
  · exact h _

/-- What is found by one scanner or else by another. -/
lemma LeavesReturn.orElse {scan other : List Char → Option (α × List Char)} (h : LeavesReturn scan)
    (hother : LeavesReturn other) : LeavesReturn fun text => scan text <|> other text := by
  intro text
  dsimp only
  rw [h text, hother text]
  cases scan text <;> rfl

end

lemma iri?_leavesReturn : LeavesReturn iri? := by
  intro text
  cases text with
  | nil => rfl
  | cons c rest =>
    by_cases hc : c = '<'
    · subst hc
      rw [List.cons_append, iri?, iri?, span_leavesReturn rfl]
      rcases span isIriChar rest with ⟨inner, _ | ⟨d, more⟩⟩
      · rfl
      · by_cases hd : d = '>'
        · subst hd
          rfl
        · simp [hd]
    · simp [iri?, hc]

lemma blankNode?_leavesReturn : LeavesReturn blankNode? := by
  intro text
  match text with
  | [] => rfl
  | [c] => simp [blankNode?]
  | c :: d :: rest =>
    by_cases hc : c = '_'
    · by_cases hd : d = ':'
      · subst hc hd
        rw [List.cons_append, List.cons_append, blankNode?, blankNode?, span_leavesReturn rfl]
        rcases span isLabelChar rest with ⟨_ | ⟨first, label⟩, more⟩ <;> rfl
      · simp [blankNode?, hd]
    · simp [blankNode?, hc]

/-- A character with which neither the end of a string nor an escape begins. -/
lemma stringRest?_cons {c : Char} (hbackslash : c ≠ '\\') (hquote : c ≠ '"') (rest : List Char) :
    stringRest? (c :: rest) =
      if isLineEnd c then none
      else (stringRest? rest).map fun (text, rest) => (c :: text, rest) :=
  stringRest?.eq_5 c rest (fun h _ => hbackslash h) (fun _ _ h _ => hbackslash h) hquote

/-- In a string the carriage return is the last character, also if a backslash takes it along, and no
quote closes the string behind it. -/
lemma stringRest?_leavesReturn : LeavesReturn stringRest? := by
  intro text
  have hplain {c : Char} {rest : List Char} (hlast : c = '\\' → rest = [] → False)
      (hescaped : ∀ d more, c = '\\' → rest = d :: more → False) : c ≠ '\\' := by
    rintro rfl
    cases rest with
    | nil => exact hlast rfl rfl
    | cons d more => exact hescaped d more rfl rfl
  fun_induction stringRest? text with
  | case1 => rfl
  | case2 => rfl
  | case3 c rest ih =>
    simp only [List.cons_append, stringRest?, ih]
    cases stringRest? rest <;> rfl
  | case4 rest => rfl
  | case5 c rest hlast hescaped hquote hend =>
    rw [List.cons_append, stringRest?_cons (hplain hlast hescaped) hquote, if_pos hend]
    rfl
  | case6 c rest hlast hescaped hquote hend ih =>
    rw [List.cons_append, stringRest?_cons (hplain hlast hescaped) hquote, if_neg hend, ih]
    cases stringRest? rest <;> rfl

lemma subtags_leavesReturn : AlwaysLeavesReturn subtags := by
  intro text
  fun_induction subtags text with
  | case1 c rest hc more after hmore ih =>
    have hspan := span_leavesReturn (by decide : Text.isLetterOrDigit '\r' = false) rest
    simp only [span, Prod.mk.injEq] at hspan
    rw [hmore] at ih
    simp only [List.cons_append, subtags, if_pos hc, hspan, ih]
  | case2 c rest hc => simp [subtags, hc]
  | case3 text hnone =>
    unfold subtags
    split
    · -- The hyphen is the last character of the text, and the carriage return follows it.
      rename_i c rest heq
      have hc : c = '\r' := by
        rcases text with _ | ⟨d, _ | ⟨e, more⟩⟩
        · cases heq
        · cases heq
          rfl
        · cases heq
          exact (hnone c more rfl).elim
      rw [heq, hc, if_neg (by decide)]
    · rfl

lemma language?_leavesReturn : LeavesReturn language? := by
  intro text
  rw [language?, language?, span_leavesReturn rfl]
  rcases span Text.isLetter text with ⟨_ | ⟨c, first⟩, rest⟩
  · rfl
  · simp only [subtags_leavesReturn rest]
    rfl

lemma annotation_leavesReturn : AlwaysLeavesReturn annotation := by
  intro text
  rcases text with _ | ⟨c, rest⟩
  · rfl
  by_cases hat : c = '@'
  · subst hat
    simp only [List.cons_append, annotation, language?_leavesReturn rest]
    cases language? rest <;> rfl
  by_cases hcaret : c = '^'
  · subst hcaret
    rcases rest with _ | ⟨d, more⟩
    · rfl
    by_cases hsecond : d = '^'
    · subst hsecond
      simp only [List.cons_append, annotation, iri?_leavesReturn more]
      cases iri? more <;> rfl
    · simp [hsecond, annotation]
  · simp [hat, hcaret, annotation]

lemma literal?_leavesReturn : LeavesReturn literal? := by
  intro text
  cases text with
  | nil => rfl
  | cons c rest =>
    by_cases hc : c = '"'
    · subst hc
      rw [List.cons_append, literal?, literal?, stringRest?_leavesReturn]
      rcases stringRest? rest with _ | ⟨inner, after⟩
      · rfl
      · simp [withReturn, annotation_leavesReturn after]
    · simp [literal?, hc]

lemma term?_leavesReturn : LeavesReturn term? :=
  iri?_leavesReturn.orElse (blankNode?_leavesReturn.orElse literal?_leavesReturn)

lemma graphLabel?_leavesReturn : LeavesReturn graphLabel? :=
  iri?_leavesReturn.orElse blankNode?_leavesReturn

/-- A sign is no token, but it is found and left in the same way. -/
lemma sign?_skip_return (sign : Char) (text : List Char) :
    sign? sign (skip (text ++ ['\r'])) = (sign? sign (skip text)).map (· ++ ['\r']) := by
  rw [skip_return]
  cases skip text with
  | nil => rfl
  | cons c rest =>
    simp only [reduceCtorEq, if_false, List.cons_append, sign?]
    split <;> rfl

lemma statement?_leavesReturn : LeavesReturn statement? := by
  intro text
  have hterm := term?_leavesReturn.skip rfl
  have hlabel := graphLabel?_leavesReturn.skip rfl
  dsimp only [LeavesReturn] at hterm hlabel
  simp only [statement?, Option.bind_eq_bind, term?_leavesReturn text]
  rcases term? text with _ | ⟨subject, rest⟩
  · rfl
  simp only [withReturn_some, Option.bind_some, hterm rest]
  rcases term? (skip rest) with _ | ⟨predicate, rest⟩
  · rfl
  simp only [withReturn_some, Option.bind_some, hterm rest]
  rcases term? (skip rest) with _ | ⟨object, rest⟩
  · rfl
  simp only [withReturn_some, Option.bind_some, hlabel rest]
  rcases graphLabel? (skip rest) with _ | ⟨label, after⟩
  · simp only [withReturn_none, Option.map_none, Option.getD_none, sign?_skip_return]
    cases sign? '.' (skip rest) <;> rfl
  · simp only [withReturn_some, Option.map_some, Option.getD_some, sign?_skip_return]
    cases sign? '.' (skip after) <;> rfl

/-- **A carriage return at the end of a line** does not matter to what the line is taken apart into. -/
theorem line?_return (line : List Char) : line? (line ++ ['\r']) = line? line := by
  rw [line?, line?, skip_return]
  cases hskip : skip line with
  | nil => rfl
  | cons c rest =>
    simp only [reduceCtorEq, if_false, statement?_leavesReturn (c :: rest)]
    rcases statement? (c :: rest) with _ | ⟨row, after⟩
    · rfl
    · simp only [withReturn_some, skip_return]
      cases skip after <;> rfl

/-- The row of a line has all that is taken from it, so the text of the line is in no fault. -/
lemma readQuad_of_line? {line : List Char} {row : List (List Char)} (h : line? line = some (some row))
    (text text' : List Char) : readQuad text row = readQuad text' row := by
  obtain ⟨rest, hstatement⟩ := statement?_of_line? h
  obtain ⟨_, _, _, _, _, _, rfl, -⟩ := exists_of_statement? hstatement
  rfl

end Grammar

open Grammar

/-- **A carriage return at the end of a line does not matter**, whatever the line is. -/
theorem parseStatement_return (line : List Char) :
    parseStatement (line ++ ['\r']) = parseStatement line := by
  rw [parseStatement, parseStatement, readStatement, readStatement, line?_return]
  rcases hline : line? line with _ | _ | row
  · rfl
  · rfl
  · simp only [readQuad_of_line? hline (line ++ ['\r']) line]

/-! ## The lines of a text -/

/-- The same line, or the one with a carriage return more. -/
def ReturnMore (line line' : List Char) : Prop := line' = line ∨ line' = line ++ ['\r']

namespace ReturnMore

variable {line line' : List Char}

lemma cons (h : ReturnMore line line') (c : Char) : ReturnMore (c :: line) (c :: line') := by
  rcases h with rfl | rfl
  · exact .inl rfl
  · exact .inr rfl

lemma readLine_eq (h : ReturnMore line line') (graph : GraphName) :
    readLine graph (some line') = readLine graph (some line) := by
  rcases h with rfl | rfl
  · rfl
  · simp only [readLine, parseStatement_return]

end ReturnMore

/-- Carriage returns more at the ends of lines change nothing that is read. -/
lemma quadsFrom_returnMore {lines lines' : List (List Char)} (h : List.Forall₂ ReturnMore lines lines')
    (graph : GraphName) (first : Nat) :
    quadsFrom graph first (lines'.map some) = quadsFrom graph first (lines.map some) := by
  induction h generalizing first with
  | nil => rfl
  | cons hline _ ih =>
    simp only [List.map_cons, quadsFrom, hline.readLine_eq graph, ih]

/-- A text without a line feed is one line. -/
lemma cutLine_of_splitOnce_eq_none {text : List Char} (h : Text.splitOnce '\n' text = none) :
    cutLine '\n' '\r' text = (text, []) := by
  induction text with
  | nil => rfl
  | cons c rest ih =>
    rw [Text.splitOnce] at h
    split at h
    · cases h
    · rename_i hc
      have hrest : Text.splitOnce '\n' rest = none := by simpa using h
      have hhead : rest.head? ≠ some '\n' := by
        intro hhead
        obtain ⟨more, rfl⟩ := List.head?_eq_some_iff.mp hhead
        simp [Text.splitOnce] at hrest
      rw [cutLine, if_neg hc, if_neg fun hboth => hhead hboth.2, ih hrest]

/-- Otherwise the first line is what stands before the first line feed, but for a carriage return. -/
lemma cutLine_of_splitOnce_eq_some {text before after : List Char}
    (h : Text.splitOnce '\n' text = some (before, after)) :
    ReturnMore (cutLine '\n' '\r' text).1 before ∧ (cutLine '\n' '\r' text).2 = after := by
  induction text generalizing before with
  | nil => cases h
  | cons c rest ih =>
    rw [Text.splitOnce] at h
    split at h
    · rename_i hc
      cases h
      rw [cutLine, if_pos hc]
      exact ⟨.inl rfl, rfl⟩
    · rename_i hc
      obtain ⟨⟨inner, _⟩, hrest, hpair⟩ := Option.map_eq_some_iff.mp h
      cases hpair
      rw [cutLine, if_neg hc]
      split
      · rename_i hboth
        obtain ⟨rfl, hhead⟩ := hboth
        obtain ⟨more, rfl⟩ := List.head?_eq_some_iff.mp hhead
        simp only [Text.splitOnce, if_true, Option.some.injEq, Prod.mk.injEq] at hrest
        obtain ⟨rfl, rfl⟩ := hrest
        exact ⟨.inr rfl, rfl⟩
      · obtain ⟨hline, hafter⟩ := ih hrest
        exact ⟨hline.cons c, hafter⟩

lemma splitLines_of_ne_nil {text : List Char} (h : text ≠ []) :
    splitLines '\n' '\r' text =
      (cutLine '\n' '\r' text).1 :: splitLines '\n' '\r' (cutLine '\n' '\r' text).2 := by
  obtain ⟨c, rest, rfl⟩ := List.exists_cons_of_ne_nil h
  rw [splitLines, cutLine]
  split_ifs <;> rfl

/-- **What is read of a text is read of the pieces between its line feeds.**  If the last piece is
empty it is no line, but it would hold no statement either. -/
theorem textQuads_eq_quadsFrom_splitAll (text : List Char) (graph : GraphName) (first : Nat) :
    quadsFrom graph first ((splitLines '\n' '\r' text).map some) =
      quadsFrom graph first ((Text.splitAll '\n' text).map some) := by
  induction hlength : text.length using Nat.strong_induction_on generalizing text first with
  | _ length ih =>
    by_cases hempty : text = []
    · subst hempty
      rw [splitLines]
      rfl
    rw [splitLines_of_ne_nil hempty, Text.splitAll_eq]
    cases hsplit : Text.splitOnce '\n' text with
    | none =>
      rw [cutLine_of_splitOnce_eq_none hsplit, splitLines]
    | some found =>
      obtain ⟨before, after⟩ := found
      obtain ⟨hline, hafter⟩ := cutLine_of_splitOnce_eq_some hsplit
      obtain ⟨htext, -⟩ := Text.splitOnce_eq_some_iff.mp hsplit
      have hshorter : after.length < length := by
        rw [← hlength, htext, List.length_append, List.length_cons]
        omega
      simp only [List.map_cons, quadsFrom, hline.readLine_eq graph, hafter, ih _ hshorter after _ rfl]

namespace Text

/-- The pieces of two texts with a separator between them. -/
lemma splitAll_append_cons (separator : Char) (text other : List Char) :
    splitAll separator (text ++ separator :: other) =
      splitAll separator text ++ splitAll separator other := by
  induction text with
  | nil => simp [splitAll]
  | cons c rest ih =>
    rw [List.cons_append, splitAll, splitAll, ih]
    split
    · rfl
    · obtain ⟨piece, pieces, hpieces⟩ := List.exists_cons_of_ne_nil (splitAll_ne_nil separator rest)
      rw [hpieces]
      rfl

end Text

/-- The text with a carriage return before each line feed. -/
def withReturns (text : List Char) : List Char :=
  text.flatMap fun c => if c = '\n' then ['\r', '\n'] else [c]

/-- The pieces are the same, but all except the last one end with a carriage return more. -/
lemma splitAll_withReturns (text : List Char) :
    List.Forall₂ ReturnMore (Text.splitAll '\n' text) (Text.splitAll '\n' (withReturns text)) := by
  induction text with
  | nil => exact .cons (.inl rfl) .nil
  | cons c rest ih =>
    rw [withReturns, List.flatMap_cons, ← withReturns]
    by_cases hc : c = '\n'
    · subst hc
      exact .cons (.inr rfl) ih
    · rw [if_neg hc, List.singleton_append, Text.splitAll, Text.splitAll, if_neg hc, if_neg hc]
      have hne := Text.splitAll_ne_nil '\n'
      obtain ⟨piece, pieces, hpieces⟩ := List.exists_cons_of_ne_nil (hne rest)
      obtain ⟨piece', pieces', hpieces'⟩ := List.exists_cons_of_ne_nil (hne (withReturns rest))
      rw [hpieces, hpieces', List.forall₂_cons] at ih
      rw [hpieces, hpieces']
      exact .cons (ih.1.cons c) ih.2

/-! ## Statements and faults -/

section

variable {graph : GraphName} {first : Nat} {lines before after : List (List Char)}

/-- If each line is read, so are all, one after the other. -/
lemma readQuads_of_forall_ok {statements : List (Option Quad)}
    (h : lines.map parseStatement = statements.map .ok) :
    readQuads (quadsFrom graph first (lines.map some)) =
      .ok (statements.reduceOption.map (Quad.withDefault graph)) := by
  induction lines generalizing first statements with
  | nil =>
    obtain rfl : statements = [] := by simpa using h.symm
    rfl
  | cons line lines ih =>
    rcases statements with _ | ⟨statement, statements⟩
    · cases h
    obtain ⟨hline, hlines⟩ := List.cons.inj h
    have hrest : readQuads (quadsFrom graph (first + 1) (lines.map some)) =
      .ok (statements.reduceOption.map (Quad.withDefault graph)) := ih hlines
    rw [List.map_cons, quadsFrom, readLine, hline]
    cases statement with
    | none => exact hrest
    | some quad =>
      simp only [Option.map_some, readQuads, hrest]
      rfl

/-- A line that is no statement is at fault if each line before it is read. -/
lemma readQuads_of_error {line : List Char} {cause : ParseError}
    (hbefore : ∀ earlier ∈ before, ∃ statement, parseStatement earlier = .ok statement)
    (hline : parseStatement line = .error cause) :
    readQuads (quadsFrom graph first ((before ++ line :: after).map some)) =
      .error ⟨first + before.length, .invalid cause⟩ := by
  induction before generalizing first with
  | nil =>
    rw [List.nil_append, List.map_cons, quadsFrom, readLine, hline]
    rfl
  | cons earlier before ih =>
    obtain ⟨⟨statement, hstatement⟩, hrest⟩ := List.forall_mem_cons.mp hbefore
    have hnumber : first + 1 + before.length = first + (earlier :: before).length := by
      rw [List.length_cons]
      omega
    rw [List.cons_append, List.map_cons, quadsFrom, readLine, hstatement, ← hnumber, ← ih hrest]
    cases statement with
    | none => rfl
    | some quad =>
      simp only [Option.map_some, readQuads, ih hrest]
      rfl

/-- Either each line is read or there is a first one that is not. -/
lemma forall_ok_or_exists_error (lines : List (List Char)) :
    (∃ statements : List (Option Quad), lines.map parseStatement = statements.map .ok) ∨
      ∃ before line after cause, lines = before ++ line :: after ∧
        (∀ earlier ∈ before, ∃ statement, parseStatement earlier = .ok statement) ∧
        parseStatement line = .error cause := by
  induction lines with
  | nil => exact .inl ⟨[], rfl⟩
  | cons line lines ih =>
    cases hline : parseStatement line with
    | error cause => exact .inr ⟨[], line, lines, cause, rfl, by simp, hline⟩
    | ok statement =>
      rcases ih with ⟨statements, hstatements⟩ | ⟨before, other, after, cause, rfl, hbefore, hother⟩
      · exact .inl ⟨statement :: statements, by rw [List.map_cons, hline, hstatements]; rfl⟩
      · exact .inr ⟨line :: before, other, after, cause, rfl,
          List.forall_mem_cons.mpr ⟨⟨statement, hline⟩, hbefore⟩, hother⟩

/-- **The statements of lines are read just when each line is**, and they are those of the lines in
their order. -/
theorem readQuads_quadsFrom_eq_ok {quads : List Quad} :
    readQuads (quadsFrom graph first (lines.map some)) = .ok quads ↔
      ∃ statements : List (Option Quad), lines.map parseStatement = statements.map .ok ∧
        quads = statements.reduceOption.map (Quad.withDefault graph) := by
  constructor
  · intro h
    rcases forall_ok_or_exists_error lines with
      ⟨statements, hstatements⟩ | ⟨before, line, after, cause, rfl, hbefore, hline⟩
    · rw [readQuads_of_forall_ok hstatements] at h
      exact ⟨statements, hstatements, (Except.ok.inj h).symm⟩
    · rw [readQuads_of_error hbefore hline] at h
      cases h
  · rintro ⟨statements, hstatements, rfl⟩
    exact readQuads_of_forall_ok hstatements

/-- **Otherwise the fault is that of the first line that is no statement**, with its number. -/
theorem readQuads_quadsFrom_eq_error {found : ReadError} :
    readQuads (quadsFrom graph first (lines.map some)) = .error found ↔
      ∃ before line after cause, lines = before ++ line :: after ∧
        (∀ earlier ∈ before, ∃ statement, parseStatement earlier = .ok statement) ∧
        parseStatement line = .error cause ∧ found = ⟨first + before.length, .invalid cause⟩ := by
  constructor
  · intro h
    rcases forall_ok_or_exists_error lines with
      ⟨statements, hstatements⟩ | ⟨before, line, after, cause, rfl, hbefore, hline⟩
    · rw [readQuads_of_forall_ok hstatements] at h
      cases h
    · rw [readQuads_of_error hbefore hline] at h
      exact ⟨before, line, after, cause, rfl, hbefore, hline, (Except.error.inj h).symm⟩
  · rintro ⟨before, line, after, cause, rfl, hbefore, hline, rfl⟩
    exact readQuads_of_error hbefore hline

end

/-- **A text is read line by line**, where lines may be those that the reader cuts, or all that stands
between line feeds, with the carriage returns at their ends.  The statements are those of the lines if
each line is read; otherwise the fault is that of the first line that is not, with its number among all
lines.  Carriage returns before the line feeds change nothing, and two texts with a line feed between
them are read just when both are. -/
theorem text_read_linewise (text : List Char) (graph : GraphName) :
    (∀ lines ∈ [splitLines '\n' '\r' text, Text.splitAll '\n' text],
      (∀ quads, readQuads (textQuads text graph) = .ok quads ↔
        ∃ statements : List (Option Quad), lines.map parseStatement = statements.map .ok ∧
          quads = statements.reduceOption.map fun quad =>
            if quad.graph = .default then ⟨quad.triple, graph⟩ else quad) ∧
      ∀ number fault, readQuads (textQuads text graph) = .error ⟨number, fault⟩ ↔
        ∃ before line after cause, lines = before ++ line :: after ∧
          (∀ earlier ∈ before, ∃ statement, parseStatement earlier = .ok statement) ∧
          parseStatement line = .error cause ∧
          number = before.length + 1 ∧ fault = .invalid cause) ∧
    textQuads (withReturns text) graph = textQuads text graph ∧
    ∀ other quads, readQuads (textQuads (text ++ '\n' :: other) graph) = .ok quads ↔
      ∃ front back, readQuads (textQuads text graph) = .ok front ∧
        readQuads (textQuads other graph) = .ok back ∧ quads = front ++ back := by
  have hpieces (text : List Char) : textQuads text graph =
      quadsFrom graph 1 ((Text.splitAll '\n' text).map some) :=
    textQuads_eq_quadsFrom_splitAll text graph 1
  refine ⟨fun lines hlines => ?_, ?_, fun other quads => ?_⟩
  · have htext : textQuads text graph = quadsFrom graph 1 (lines.map some) := by
      rcases List.mem_pair.mp hlines with rfl | rfl
      · rfl
      · exact hpieces text
    rw [htext]
    refine ⟨fun quads => readQuads_quadsFrom_eq_ok, fun number fault => ?_⟩
    rw [readQuads_quadsFrom_eq_error]
    simp only [ReadError.mk.injEq, Nat.add_comm 1]
  · rw [hpieces, hpieces, quadsFrom_returnMore (splitAll_withReturns text)]
  · rw [hpieces, hpieces, hpieces, Text.splitAll_append_cons, List.map_append, quadsFrom_append,
      readQuads_append_eq_ok]
    -- The lines of the other text have other numbers there, which are in faults only.
    simp only [readQuads_quadsFrom_eq_ok]

/-- The number of the line at fault counts a comment and a blank line before it.  No line feed ends it,
so the reader leaves its carriage return to it. -/
example : readQuads (textQuads "# <s>\r\n\n<s> <p>\r".toList .default) =
    .error ⟨3, .invalid .notInGrammar⟩ := by
  cbv

end QuadStore

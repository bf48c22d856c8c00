import Mathlib
import QuadStore.Proofs.TokenShapes

/-!
# Queries are read back under any layout

The text of a query is its slots as they are printed, full stops between the patterns and perhaps braces
around them, with blanks and comments in between.  The relations below say which texts lay out a list of
patterns: a *gap* (`Gap`) is any sequence of blanks and of comments with the ends of their lines, there
is one between the slots of a pattern that is not empty (`PatternText`), and any gaps at all stand around
the full stops and braces (`MorePatterns`, `QueryBody`, `QueryText`).

Whatever the layout, the same patterns are read (`parseQuery_of_queryText`), if their terms are clean and
their variables have names that the grammar knows.  A scanner that has taken a slot leaves the text
behind it as it is: neither a gap nor a full stop nor a brace continues a token.  What stands inside a
token, such as a number sign in an IRI or a full stop in a lexical form, is not looked at again.  The
last full stop is found by trying: a pattern is looked for behind it, and since there is none the full
stop is taken for the last.
-/

namespace QuadStore

open Grammar

/-! ## Slots -/

/-- A name that a variable of a query can have: letters, digits and underscores. -/
def Variable.IsName (v : Variable) : Prop :=
  v.name.toList ≠ [] ∧ ∀ c ∈ v.name.toList, isNameChar c = true

/-- A slot that can be printed and read: its variable has a name, or its term is clean. -/
def Slot.Clean : Slot → Prop
  | .var v => v.IsName
  | .term t => t.Clean

/-- A pattern of which all slots are clean. -/
structure TriplePattern.Clean (pattern : TriplePattern) : Prop where
  subject : pattern.subject.Clean
  predicate : pattern.predicate.Clean
  object : pattern.object.Clean

/-- The characters of a slot as it is printed. -/
def Slot.written (slot : Slot) : List Char := slot.display.toList

/-- The token that a printed slot is. -/
def Slot.token : Slot → SlotToken
  | .var v => .var ('?' :: v.name.toList)
  | .term t => .written t.written

/-- The row of the tokens of a pattern. -/
def TriplePattern.row (pattern : TriplePattern) : List SlotToken :=
  [pattern.subject.token, pattern.predicate.token, pattern.object.token]

namespace Grammar

/-! ## Layouts -/

/-- Blanks and comments.  A comment goes to the end of its line, and that end stands behind it. -/
inductive Gap : List Char → Prop
  | nil : Gap []
  | blank {c : Char} {gap : List Char} (hc : isSpace c = true) (h : Gap gap) : Gap (c :: gap)
  | comment {text : List Char} {stop : Char} {gap : List Char}
    (htext : ∀ c ∈ text, isLineEnd c = false) (hstop : isLineEnd stop = true) (h : Gap gap) :
    Gap ('#' :: (text ++ stop :: gap))

/-- The three slots of a pattern, with gaps between them that are not empty. -/
inductive PatternText (pattern : TriplePattern) : List Char → Prop
  | slots {first second : List Char} (hfirst : Gap first) (hsecond : Gap second)
    (hfirstNe : first ≠ []) (hsecondNe : second ≠ []) :
    PatternText pattern (pattern.subject.written ++ (first ++
      (pattern.predicate.written ++ (second ++ pattern.object.written))))

/-- What may follow the first pattern: further patterns, each with a full stop before it, and perhaps
one more full stop. -/
inductive MorePatterns : List TriplePattern → List Char → Prop
  | none : MorePatterns [] []
  | stop {gap : List Char} (hgap : Gap gap) : MorePatterns [] (gap ++ ['.'])
  | next {pattern : TriplePattern} {patterns : List TriplePattern} {before after text more : List Char}
    (hbefore : Gap before) (hafter : Gap after) (htext : PatternText pattern text)
    (hmore : MorePatterns patterns more) :
    MorePatterns (pattern :: patterns) (before ++ '.' :: (after ++ (text ++ more)))

/-- The patterns of a query one after the other. -/
inductive QueryBody : List TriplePattern → List Char → Prop
  | empty : QueryBody [] []
  | patterns {first : TriplePattern} {others : List TriplePattern} {text more : List Char}
    (htext : PatternText first text) (hmore : MorePatterns others more) :
    QueryBody (first :: others) (text ++ more)

/-- The texts of a query, with braces or without. -/
inductive QueryText (patterns : List TriplePattern) : List Char → Prop
  | bare {before body after : List Char} (hbefore : Gap before) (hbody : QueryBody patterns body)
    (hafter : Gap after) : QueryText patterns (before ++ (body ++ after))
  | braced {before inner body last after : List Char} (hbefore : Gap before) (hinner : Gap inner)
    (hbody : QueryBody patterns body) (hlast : Gap last) (hafter : Gap after) :
    QueryText patterns (before ++ '\x7b' :: (inner ++ (body ++ (last ++ '\x7d' :: after))))

/-! ## Gaps -/

variable {gap text rest : List Char}

/-- A comment is skipped with the end of its line. -/
lemma skipFrom_comment (htext : ∀ c ∈ text, isLineEnd c = false) {stop : Char}
    (hstop : isLineEnd stop = true) (rest : List Char) :
    skipFrom true (text ++ stop :: rest) = skipFrom false rest := by
  induction text with
  | nil => simp [skipFrom, hstop]
  | cons c text ih =>
    obtain ⟨hc, hrest⟩ := List.forall_mem_cons.mp htext
    rw [List.cons_append, skipFrom, if_pos rfl, hc]
    exact ih hrest

/-- **A gap is skipped as a whole.** -/
theorem Gap.skip_append (h : Gap gap) (rest : List Char) : skip (gap ++ rest) = skip rest := by
  induction h with
  | nil => rfl
  | @blank c gap hc _ ih =>
    have hsharp : c ≠ '#' := by
      rintro rfl
      exact absurd hc (by decide)
    simpa [skip, skipFrom, hsharp, hc] using ih
  | comment htext hstop _ ih =>
    rw [List.cons_append, List.append_assoc]
    exact (skipFrom_comment htext hstop _).trans ih

lemma Gap.skip_eq_nil (h : Gap gap) : skip gap = [] := by
  have hskip := h.skip_append []
  rwa [List.append_nil] at hskip

lemma isSpace_cases {c : Char} (h : isSpace c = true) :
    c = ' ' ∨ c = '\t' ∨ c = '\n' ∨ c = '\r' := by
  simpa [isSpace, isLineEnd, or_assoc] using h

/-- A gap begins with a blank or a comment, and continues no token. -/
lemma Gap.endsToken (h : Gap gap) (hrest : EndsToken rest) : EndsToken (gap ++ rest) := by
  cases h with
  | nil => exact hrest
  | blank hc _ =>
    rintro d hd
    obtain rfl := Option.some.inj hd
    rcases isSpace_cases hc with rfl | rfl | rfl | rfl <;> decide
  | comment _ _ _ =>
    rintro d hd
    obtain rfl := Option.some.inj hd
    decide

lemma Gap.endsToken_of_ne_nil (h : Gap gap) (hne : gap ≠ []) (rest : List Char) :
    EndsToken (gap ++ rest) := by
  obtain ⟨c, more, rfl⟩ := List.exists_cons_of_ne_nil hne
  have hnil : EndsToken [] := by simp [EndsToken]
  have hgap := h.endsToken hnil
  rw [List.append_nil] at hgap
  exact fun d hd => hgap d hd

/-! ## One slot -/

variable {slot : Slot}

lemma written_var (v : Variable) : (Slot.var v).written = '?' :: v.name.toList := by
  have hmark : "?".toList = ['?'] := rfl
  simp [Slot.written, Slot.display, Variable.display, hmark]

lemma written_term (t : Term) : (Slot.term t).written = t.written := by
  simp [Slot.written, Slot.display, Term.encode]

/-- A printed slot begins with a mark of its kind. -/
lemma exists_written_eq_cons (slot : Slot) :
    ∃ c inner, slot.written = c :: inner ∧ (c = '?' ∨ c = '<' ∨ c = '_' ∨ c = '"') := by
  cases slot with
  | var v => exact ⟨_, _, written_var v, by decide⟩
  | term t =>
    rw [written_term]
    cases t with
    | iri i => exact ⟨_, _, rfl, by decide⟩
    | blank b => exact ⟨_, _, rfl, by decide⟩
    | literal l => exact ⟨_, _, rfl, by decide⟩

lemma skip_slot (slot : Slot) (rest : List Char) :
    skip (slot.written ++ rest) = slot.written ++ rest := by
  obtain ⟨c, inner, hwritten, hc⟩ := exists_written_eq_cons slot
  rw [hwritten]
  rcases hc with rfl | rfl | rfl | rfl <;> rfl

lemma var?_written {v : Variable} (h : v.IsName) (hrest : EndsToken rest) :
    var? ('?' :: (v.name.toList ++ rest)) = some ('?' :: v.name.toList, rest) := by
  have hspan : span isNameChar (v.name.toList ++ rest) = (v.name.toList, rest) :=
    span_append h.2 fun c hc => (Bool.or_eq_false_iff.mp (hrest c hc).1).1
  obtain ⟨c, name, hname⟩ := List.exists_cons_of_ne_nil h.1
  rw [hname, List.cons_append] at hspan
  simp [hname, var?, hspan]

/-- **A printed slot is one token**, whatever stands behind it that continues none. -/
theorem slot?_written (h : slot.Clean) (hrest : EndsToken rest) :
    slot? (slot.written ++ rest) = some (slot.token, rest) := by
  cases slot with
  | var v =>
    rw [written_var, List.cons_append, slot?, var?_written h hrest]
    rfl
  | term t =>
    have hnone : var? (t.written ++ rest) = none := by cases t <;> rfl
    rw [written_term, slot?, term?_written h hrest, hnone]
    rfl

lemma read_token (h : slot.Clean) : slot.token.read = .ok slot := by
  cases slot with
  | var v => simp [Slot.token, SlotToken.read]
  | term t =>
    rw [Slot.token, SlotToken.read, Term.read_written h.grammatical.wellFormed]
    rfl

/-! ## One pattern -/

variable {pattern : TriplePattern}

lemma skip_patternText (h : PatternText pattern text) (rest : List Char) :
    skip (text ++ rest) = text ++ rest := by
  cases h with
  | slots _ _ _ _ =>
    rw [List.append_assoc]
    exact skip_slot pattern.subject _

/-- **A pattern is taken from its text**, and what follows is left. -/
theorem pattern?_patternText (h : pattern.Clean) (htext : PatternText pattern text)
    (hrest : EndsToken rest) : pattern? (text ++ rest) = some (pattern.row, rest) := by
  cases htext with
  | slots hfirst hsecond hfirstNe hsecondNe =>
    simp only [List.append_assoc, pattern?,
      slot?_written h.subject (hfirst.endsToken_of_ne_nil hfirstNe _), Option.bind_eq_bind,
      Option.bind_some, hfirst.skip_append, skip_slot,
      slot?_written h.predicate (hsecond.endsToken_of_ne_nil hsecondNe _), hsecond.skip_append,
      slot?_written h.object hrest]
    rfl

/-- A pattern is read from its row. -/
lemma readPattern_written (h : pattern.Clean) (text : List Char) :
    readPattern text pattern.row = .ok pattern := by
  rw [TriplePattern.row, readPattern_row, read_token h.subject, read_token h.predicate,
    read_token h.object]
  rfl

/-! ## The patterns of a query -/

/-- What stands behind the last pattern and the last full stop: nothing but a gap, or a gap and a
closing brace. -/
structure Ends (rest : List Char) : Prop where
  endsToken : EndsToken rest
  skip : skip rest = [] ∨ ∃ after, skip rest = '\x7d' :: after

lemma Gap.ends (h : Gap gap) : Ends gap := by
  have hnil : EndsToken [] := by simp [EndsToken]
  refine ⟨?_, .inl h.skip_eq_nil⟩
  simpa using h.endsToken hnil

lemma Gap.ends_brace (h : Gap gap) (after : List Char) : Ends (gap ++ '\x7d' :: after) := by
  refine ⟨h.endsToken ?_, .inr ⟨after, h.skip_append _⟩⟩
  rintro d hd
  obtain rfl := Option.some.inj hd
  decide

lemma endsToken_stop (rest : List Char) : EndsToken ('.' :: rest) := by
  rintro d hd
  obtain rfl := Option.some.inj hd
  decide

/-- Behind the last pattern there is neither a pattern nor a full stop. -/
lemma Ends.none (h : Ends rest) :
    pattern? (Grammar.skip rest) = none ∧ sign? '.' (Grammar.skip rest) = none ∧
      Grammar.skip (Grammar.skip rest) = Grammar.skip rest := by
  rcases h.skip with hskip | ⟨after, hskip⟩
  · rw [hskip]
    exact ⟨rfl, rfl, rfl⟩
  · rw [hskip]
    exact ⟨rfl, rfl, rfl⟩

variable {patterns : List TriplePattern} {more body : List Char}

lemma MorePatterns.endsToken (h : MorePatterns patterns more) (hrest : Ends rest) :
    EndsToken (more ++ rest) := by
  cases h with
  | none => exact hrest.endsToken
  | stop hgap =>
    rw [List.append_assoc]
    exact hgap.endsToken (endsToken_stop rest)
  | next hbefore _ _ _ =>
    rw [List.append_assoc]
    exact hbefore.endsToken (endsToken_stop _)

/-- A text has no fewer characters than patterns, so the scanner's limit is never reached. -/
lemma MorePatterns.length_le (h : MorePatterns patterns more) : patterns.length ≤ more.length := by
  induction h with
  | none => simp
  | stop hgap => simp
  | next _ _ _ _ ih =>
    simp only [List.length_cons, List.length_append]
    omega

lemma morePatterns_of_none (h : nextPattern? text = none) (limit : Nat) :
    morePatterns limit text = ([], text) := by
  cases limit with
  | zero => rfl
  | succ limit => simp only [morePatterns, h]

/-- **All further patterns are taken, and the last full stop with them.**  Behind that full stop a
pattern is looked for in vain. -/
theorem morePatterns_text (h : MorePatterns patterns more)
    (hclean : ∀ pattern ∈ patterns, pattern.Clean) (hrest : Ends rest) {limit : Nat}
    (hlimit : patterns.length ≤ limit) :
    ∃ after, morePatterns limit (more ++ rest) = (patterns.map TriplePattern.row, after) ∧
      skip ((sign? '.' (skip after)).getD after) = skip rest := by
  obtain ⟨hpattern, hstop, -⟩ := hrest.none
  induction h generalizing limit with
  | none =>
    have hnext : nextPattern? rest = Option.none := by simp [nextPattern?, hstop]
    refine ⟨rest, morePatterns_of_none hnext limit, ?_⟩
    rw [hstop]
    rfl
  | @stop gap hgap =>
    have hskip : sign? '.' (skip (gap ++ '.' :: rest)) = some rest := by
      rw [hgap.skip_append]
      rfl
    have hnext : nextPattern? (gap ++ '.' :: rest) = Option.none := by
      simp [nextPattern?, hskip, hpattern]
    rw [List.append_assoc, List.singleton_append]
    refine ⟨_, morePatterns_of_none hnext limit, ?_⟩
    rw [hskip]
    rfl
  | @next pattern patterns before after text more hbefore hafter htext hmore ih =>
    obtain ⟨hfirst, hothers⟩ := List.forall_mem_cons.mp hclean
    obtain ⟨limit, rfl⟩ : ∃ k, limit = k + 1 := ⟨limit - 1, by simp at hlimit; omega⟩
    obtain ⟨left, hmorePatterns, hleft⟩ := ih hothers (by simpa using hlimit)
    have hskip : sign? '.' (skip (before ++ '.' :: (after ++ (text ++ (more ++ rest))))) =
        some (after ++ (text ++ (more ++ rest))) := by
      rw [hbefore.skip_append]
      rfl
    have hnext : nextPattern? (before ++ '.' :: (after ++ (text ++ (more ++ rest)))) =
        some (pattern.row, more ++ rest) := by
      rw [nextPattern?, hskip, Option.bind_eq_bind, Option.bind_some, hafter.skip_append,
        skip_patternText htext, pattern?_patternText hfirst htext (hmore.endsToken hrest)]
    refine ⟨left, ?_, hleft⟩
    simp only [List.append_assoc, List.cons_append, morePatterns, hnext, hmorePatterns,
      List.map_cons]

/-- **All patterns of a query are taken**, and what is left then begins like what stands behind
them. -/
theorem patterns_body (h : QueryBody patterns body)
    (hclean : ∀ pattern ∈ patterns, pattern.Clean) (hrest : Ends rest) :
    ∃ after, Grammar.patterns (skip (body ++ rest)) = (patterns.map TriplePattern.row, after) ∧
      skip after = skip rest := by
  cases h with
  | empty =>
    obtain ⟨hpattern, -, hskip⟩ := hrest.none
    refine ⟨skip rest, ?_, hskip⟩
    rw [List.nil_append, Grammar.patterns, hpattern]
    rfl
  | @patterns first others text more htext hmore =>
    obtain ⟨hfirst, hothers⟩ := List.forall_mem_cons.mp hclean
    have hlimit : others.length ≤ (more ++ rest).length := by
      rw [List.length_append]
      exact hmore.length_le.trans (Nat.le_add_right _ _)
    obtain ⟨after, hmorePatterns, hafter⟩ := morePatterns_text hmore hothers hrest hlimit
    refine ⟨_, ?_, hafter⟩
    rw [List.append_assoc, skip_patternText htext, Grammar.patterns,
      pattern?_patternText hfirst htext (hmore.endsToken hrest)]
    simp only [hmorePatterns, List.map_cons]

/-! ## Queries -/

/-- Neither a pattern nor the end of a text is an opening brace. -/
lemma braced?_body (h : QueryBody patterns body) (hgap : Gap gap) :
    braced? (skip (body ++ gap)) = none := by
  cases h with
  | empty =>
    rw [List.nil_append, hgap.skip_eq_nil]
    rfl
  | patterns htext hmore =>
    rw [List.append_assoc, skip_patternText htext]
    cases htext with
    | slots _ _ _ _ =>
      obtain ⟨c, inner, hwritten, hc⟩ := exists_written_eq_cons (TriplePattern.subject _)
      rw [hwritten]
      rcases hc with rfl | rfl | rfl | rfl <;> rfl

/-- **A query is taken apart into the rows of its patterns**, whatever its layout. -/
theorem query?_queryText (h : QueryText patterns text)
    (hclean : ∀ pattern ∈ patterns, pattern.Clean) :
    query? text = some (patterns.map TriplePattern.row) := by
  cases h with
  | bare hbefore hbody hafter =>
    obtain ⟨left, hpatterns, hleft⟩ := patterns_body hbody hclean hafter.ends
    rw [hafter.skip_eq_nil] at hleft
    simp only [query?, hbefore.skip_append, braced?_body hbody hafter, Option.getD_none, hpatterns,
      hleft, List.isEmpty_nil, if_true]
  | @braced before inner body last after hbefore hinner hbody hlast hafter =>
    obtain ⟨left, hpatterns, hleft⟩ := patterns_body hbody hclean (hlast.ends_brace after)
    have hbrace : skip left = '\x7d' :: after := hleft.trans (hlast.skip_append _)
    have hbraced : braced? ('\x7b' :: (inner ++ (body ++ (last ++ '\x7d' :: after)))) =
        some (patterns.map TriplePattern.row, after) := by
      rw [braced?, sign?, if_pos rfl, Option.bind_eq_bind, Option.bind_some, hinner.skip_append,
        hpatterns]
      simp only [hbrace]
      rfl
    have hskip : skip ('\x7b' :: (inner ++ (body ++ (last ++ '\x7d' :: after)))) =
        '\x7b' :: (inner ++ (body ++ (last ++ '\x7d' :: after))) := rfl
    simp only [query?, hbefore.skip_append, hskip, hbraced, Option.getD_some, hafter.skip_eq_nil,
      List.isEmpty_nil, if_true]

lemma mapM_readPattern (hclean : ∀ pattern ∈ patterns, pattern.Clean) (text : List Char) :
    (patterns.map TriplePattern.row).mapM (readPattern text) = .ok patterns := by
  induction patterns with
  | nil => rfl
  | cons first others ih =>
    obtain ⟨hfirst, hothers⟩ := List.forall_mem_cons.mp hclean
    rw [List.map_cons, List.mapM_cons, readPattern_written hfirst, ih hothers]
    rfl

end Grammar

/-- **A query is read back whatever its layout**: blanks and comments between its tokens, braces or
none, and a last full stop or none.  Terms and variables are to be clean; lexical forms may be any
text. -/
theorem parseQuery_of_queryText {patterns : List TriplePattern} {text : List Char}
    (hclean : ∀ pattern ∈ patterns, pattern.Clean) (htext : QueryText patterns text) :
    parseQuery text = .ok patterns := by
  rw [parseQuery, readQuery, query?_queryText htext hclean]
  simp only [mapM_readPattern hclean]
  rfl

/-- A query of two patterns in braces, with comments that hold a brace, a quote and a full stop, no gap
before the full stop between the patterns, and one more full stop at the end.  An IRI and a lexical
form hold number signs, full stops and braces. -/
theorem parseQuery_of_queryText_comments :
    let first : TriplePattern := ⟨.var ⟨"s_1"⟩, .term (.iri ⟨"http://x/a#b.c\x7d"⟩),
      .term (.literal (.tagged "\x7d . # \"\\" "en-GB"))⟩
    let second : TriplePattern := ⟨.term (.blank ⟨"b-1"⟩), .var ⟨"p"⟩,
      .term (.literal (.ofDatatype "\n" ⟨"http://x/d#t"⟩))⟩
    let text := "# \x7d \".\r\n\x7b?s_1 <http://x/a#b.c\x7d>\t\"\x7d . # \\\"\\\\\"@en-GB." ++
      "#.\n_:b-1 ?p#p\n\"\\n\"^^<http://x/d#t> .\x7d#\r"
    (∀ pattern ∈ [first, second], pattern.Clean) ∧ QueryText [first, second] text.toList ∧
      parseQuery text.toList = .ok [first, second] := by
  intro first second text
  have hname : ∀ v ∈ [(⟨"s_1"⟩ : Variable), ⟨"p"⟩], v.IsName := by
    simp only [Variable.IsName, ← List.all_eq_true]
    decide
  have hlabel : IsLabel "b-1" := by
    simp only [IsLabel, ← List.all_eq_true]
    decide
  have htag : IsLanguageTag "en-GB" := by
    refine ⟨"en".toList, ["GB".toList], by decide, ?_⟩
    simp only [← List.all_eq_true]
    decide
  have hfirst : first.Clean :=
    ⟨hname _ (by simp), ⟨trivial, by decide +kernel⟩, ⟨htag, by decide +kernel⟩⟩
  have hsecond : second.Clean :=
    ⟨⟨hlabel, by decide +kernel⟩, hname _ (by simp),
      ⟨Term.grammatical_ofDatatype _ _, by decide +kernel⟩⟩
  have hclean : ∀ pattern ∈ [first, second], pattern.Clean := by simp [hfirst, hsecond]
  have hblank : Gap [' '] := .blank rfl .nil
  have hopening : Gap ('#' :: ([' ', '\x7d', ' ', '"', '.'] ++ '\r' :: ['\n'])) :=
    .comment (by simp [isLineEnd]) rfl (.blank rfl .nil)
  have hstop : Gap ('#' :: (['.'] ++ '\n' :: [])) := .comment (by simp [isLineEnd]) rfl .nil
  have hcomment : Gap ('#' :: (['p'] ++ '\n' :: [])) := .comment (by simp [isLineEnd]) rfl .nil
  have hlast : Gap ('#' :: ([] ++ '\r' :: [])) := .comment (by simp) rfl .nil
  obtain ⟨laid, hlaid, hsame⟩ : ∃ laid, QueryText [first, second] laid ∧ text.toList = laid :=
    ⟨_, .braced hopening .nil
      (.patterns (.slots hblank (.blank rfl .nil) (by simp) (List.cons_ne_nil '\t' []))
        (.next .nil hstop (.slots hblank hcomment (by simp) (by simp)) (.stop hblank)))
      .nil hlast, by decide +kernel⟩
  have htext : QueryText [first, second] text.toList := hsame ▸ hlaid
  exact ⟨hclean, htext, parseQuery_of_queryText hclean htext⟩

end QuadStore

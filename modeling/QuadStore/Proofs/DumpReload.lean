import Mathlib
import QuadStore.Load
import QuadStore.Proofs.StatementRoundTrip

/-!
# A dump is read back

A dump is the lines of statements, each ended by a line feed.  Read again, it gives exactly those
statements if and only if all of them are clean (`reload_dump_iff`).

If they are clean, no line holds an end of a line, so the lines of the dump are the lines of the
statements.  Otherwise a label or a language tag may hold ends of lines, and one statement's part of
the dump may be several lines, each of them a statement, a fault or nothing.  But the first of them
begins with a term, so it gives a statement or a fault; and so a dump that is read at all gives at
least as many statements as were written (`length_le_of_readsAs_dump`).  If it gives exactly those
that were written, each part gives one, which is read from the part's first line; and since labels and
tags that are read are those of the grammar, this line is the whole part.
-/

namespace QuadStore

open Grammar

/-! ## Lines -/

section

variable {α : Type}

/-- A text that is empty or ends with a line feed. -/
def WholeLines (feed : α) (text : List α) : Prop := ∀ c ∈ text.getLast?, c = feed

lemma WholeLines.tail {feed c : α} {text : List α} (h : WholeLines feed (c :: text)) :
    WholeLines feed text := by
  cases text with
  | nil => simp [WholeLines]
  | cons d text => simpa [WholeLines] using h

lemma wholeLines_concat (feed : α) (text : List α) : WholeLines feed (text ++ [feed]) := by
  simp [WholeLines]

variable [DecidableEq α] {feed ret : α}

/-- Cutting a line off whole lines leaves alone what stands behind them. -/
lemma cutLine_append (ret : α) {text : List α} (h : WholeLines feed text) (hne : text ≠ [])
    (more : List α) :
    cutLine feed ret (text ++ more) =
        ((cutLine feed ret text).1, (cutLine feed ret text).2 ++ more) ∧
      WholeLines feed (cutLine feed ret text).2 := by
  induction text with
  | nil => exact absurd rfl hne
  | cons c text ih =>
    by_cases hfeed : c = feed
    · simp only [List.cons_append, cutLine, if_pos hfeed]
      exact ⟨trivial, h.tail⟩
    · -- The line feed at the end is not this character, so there is another.
      obtain ⟨d, rest, rfl⟩ : ∃ d rest, text = d :: rest := by
        refine List.exists_cons_of_ne_nil ?_
        rintro rfl
        exact hfeed (h c rfl)
      obtain ⟨hcut, hwhole⟩ := ih h.tail (List.cons_ne_nil d rest)
      rw [List.cons_append] at hcut
      simp only [List.cons_append, cutLine.eq_2 _ _ c, if_neg hfeed, List.head?_cons,
        Option.some.injEq]
      by_cases hret : c = ret ∧ d = feed
      · simp only [if_pos hret]
        exact ⟨rfl, h.tail.tail⟩
      · simp only [if_neg hret, hcut]
        exact ⟨trivial, hwhole⟩

/-- The lines of whole lines and a text behind them. -/
lemma splitLines_append {text : List α} (h : WholeLines feed text) (more : List α) :
    splitLines feed ret (text ++ more) = splitLines feed ret text ++ splitLines feed ret more := by
  fun_induction splitLines feed ret text with
  | case1 => rfl
  | case2 rest ih =>
    rw [List.cons_append, splitLines, if_pos rfl, ih h.tail]
    rfl
  | case3 c rest hfeed hret ih =>
    obtain ⟨hc, hnext⟩ := hret
    obtain ⟨after, rfl⟩ := List.head?_eq_some_iff.mp hnext
    have hnextMore : (feed :: after ++ more).head? = some feed := rfl
    rw [List.cons_append, splitLines, if_neg hfeed, if_pos ⟨hc, hnextMore⟩]
    exact congrArg ([] :: ·) (ih h.tail.tail)
  | case4 c rest hfeed hret line ih =>
    have hne : rest ≠ [] := by
      rintro rfl
      exact hfeed (h c rfl)
    obtain ⟨d, after, rfl⟩ := List.exists_cons_of_ne_nil hne
    obtain ⟨hcut, hwhole⟩ := cutLine_append ret h.tail hne more
    rw [List.cons_append, splitLines, if_neg hfeed, if_neg (by simpa using hret), hcut, ih hwhole]
    rfl

lemma cutLine_concat {line : List α} (h : ∀ c ∈ line, c ≠ feed ∧ c ≠ ret) :
    cutLine feed ret (line ++ [feed]) = (line, []) := by
  induction line with
  | nil => simp [cutLine]
  | cons c line ih =>
    obtain ⟨⟨hfeed, hret⟩, hline⟩ := List.forall_mem_cons.mp h
    rw [List.cons_append, cutLine, if_neg hfeed, if_neg fun hboth => hret hboth.1, ih hline]

/-- A line in which no character ends a line. -/
lemma splitLines_concat {line : List α} (h : ∀ c ∈ line, c ≠ feed ∧ c ≠ ret) :
    splitLines feed ret (line ++ [feed]) = [line] := by
  cases line with
  | nil => simp [splitLines]
  | cons c line =>
    obtain ⟨⟨hfeed, hret⟩, hline⟩ := List.forall_mem_cons.mp h
    rw [List.cons_append, splitLines, if_neg hfeed, if_neg fun hboth => hret hboth.1,
      cutLine_concat hline]
    simp [splitLines]

/-- The first character of a text begins its first line, if it ends no line. -/
lemma exists_splitLines_cons {c : α} (hfeed : c ≠ feed) (hret : c ≠ ret) (text : List α) :
    ∃ line more, splitLines feed ret (c :: text) = (c :: line) :: more := by
  refine ⟨(cutLine feed ret text).1, splitLines feed ret (cutLine feed ret text).2, ?_⟩
  rw [splitLines, if_neg hfeed, if_neg fun h => hret h.1]

end

/-! ## Reading lines one after the other -/

section

variable {graph : GraphName} {first : Nat}

lemma quadsFrom_append (graph : GraphName) (first : Nat) (lines more : List (Option (List Char))) :
    quadsFrom graph first (lines ++ more) =
      quadsFrom graph first lines ++ quadsFrom graph (first + lines.length) more := by
  induction lines generalizing first with
  | nil => rfl
  | cons line lines ih =>
    have hnext : first + (line :: lines).length = first + 1 + lines.length := by
      simp only [List.length_cons]
      omega
    rw [List.cons_append, quadsFrom, quadsFrom, ih, hnext]
    split <;> rfl

/-- What is read of two rows of statements is read of each. -/
lemma readQuads_append_eq_ok {items more : List (Except ReadError Quad)} {quads : List Quad} :
    readQuads (items ++ more) = .ok quads ↔
      ∃ before after, readQuads items = .ok before ∧ readQuads more = .ok after ∧
        quads = before ++ after := by
  induction items generalizing quads with
  | nil => simp [readQuads]
  | cons item items ih =>
    cases item with
    | error fault => simp [readQuads]
    | ok quad =>
      rw [List.cons_append, readQuads, readQuads]
      constructor
      · intro h
        obtain ⟨rest, hrest, rfl⟩ := exists_of_map_eq_ok h
        obtain ⟨before, after, hbefore, hafter, rfl⟩ := ih.mp hrest
        exact ⟨quad :: before, after, by rw [hbefore]; rfl, hafter, rfl⟩
      · rintro ⟨before, after, hbefore, hafter, rfl⟩
        obtain ⟨others, hothers, rfl⟩ := exists_of_map_eq_ok hbefore
        rw [ih.mpr ⟨others, after, hothers, hafter, rfl⟩]
        rfl

/-- These are the statements of a text, whose first line has number `first`, and it has no fault. -/
def ReadsAs (graph : GraphName) (first : Nat) (text : List Char) (quads : List Quad) : Prop :=
  readQuads (quadsFrom graph first ((splitLines '\n' '\r' text).map some)) = .ok quads

lemma readsAs_append {text : List Char} (h : WholeLines '\n' text) (more : List Char)
    (quads : List Quad) :
    ReadsAs graph first (text ++ more) quads ↔
      ∃ before after, ReadsAs graph first text before ∧
        ReadsAs graph (first + (splitLines '\n' '\r' text).length) more after ∧
        quads = before ++ after := by
  rw [ReadsAs, splitLines_append h, List.map_append, quadsFrom_append, List.length_map,
    readQuads_append_eq_ok]
  rfl

end

/-! ## The line of a statement -/

namespace Triple

/-- A line begins with a resource, so with no blank and no comment. -/
lemma exists_line_cons (triple : Triple) :
    ∃ c rest, triple.line.toList = c :: rest ∧ c ∈ ['<', '_'] := by
  rw [line_toList]
  cases triple.subject with
  | iri i => exact ⟨'<', _, rfl, by simp⟩
  | blank b => exact ⟨'_', _, rfl, by simp⟩

end Triple

/-! No character of a line ends a line, if labels and language tags are those of the grammar. -/

lemma isLineEnd_of_isLabelChar {c : Char} (h : isLabelChar c = true) : isLineEnd c = false := by
  by_contra hend
  simp only [isLineEnd, Bool.not_eq_false, Bool.or_eq_true, beq_iff_eq] at hend
  rcases hend with rfl | rfl <;> cases h

lemma IsLanguageTag.isLabelChar {tag : String} (h : IsLanguageTag tag) :
    ∀ c ∈ tag.toList, isLabelChar c = true := by
  obtain ⟨first, parts, htag, ⟨-, hfirst⟩, hparts⟩ := h
  intro c hc
  rw [htag, List.mem_append, List.mem_flatMap] at hc
  rcases hc with hc | ⟨part, hpart, hc⟩
  · exact isLabelChar_of_isLetterOrDigit (by simp [Text.isLetterOrDigit, hfirst c hc])
  · rcases List.mem_cons.mp hc with rfl | hc
    · rfl
    · exact isLabelChar_of_isLetterOrDigit ((hparts part hpart).2 c hc)

lemma Iri.isLineEnd_of_mem_written (iri : Iri) : ∀ c ∈ iri.written, isLineEnd c = false := by
  intro c hc
  simp only [Iri.written, List.mem_cons, List.mem_append, List.not_mem_nil, or_false] at hc
  rcases hc with rfl | hc | rfl
  · rfl
  · exact isLineEnd_of_mem_escape hc
  · rfl

lemma Literal.isLineEnd_of_mem_suffix {l : Literal} (h : (Term.literal l).Grammatical) :
    ∀ c ∈ l.suffix, isLineEnd c = false := by
  intro c hc
  cases l with
  | simple lexical => cases hc
  | tagged lexical tag =>
    rcases List.mem_cons.mp hc with rfl | hc
    · rfl
    · exact isLineEnd_of_isLabelChar (h.isLabelChar c hc)
  | typed lexical datatype =>
    simp only [Literal.suffix, List.mem_cons] at hc
    rcases hc with rfl | rfl | hc
    · rfl
    · rfl
    · exact datatype.iri.isLineEnd_of_mem_written c hc

lemma Term.isLineEnd_of_mem_written {term : Term} (h : term.Grammatical) :
    ∀ c ∈ term.written, isLineEnd c = false := by
  intro c hc
  cases term with
  | iri i => exact i.isLineEnd_of_mem_written c hc
  | blank b =>
    simp only [Term.written, BlankNode.written, List.mem_cons] at hc
    rcases hc with rfl | rfl | hc
    · rfl
    · rfl
    · exact isLineEnd_of_isLabelChar (h.2 c hc)
  | literal l =>
    simp only [Term.written, Literal.written, List.mem_cons, List.mem_append] at hc
    rcases hc with rfl | hc | rfl | hc
    · rfl
    · exact isLineEnd_of_mem_escape hc
    · rfl
    · exact Literal.isLineEnd_of_mem_suffix h c hc

lemma Triple.isLineEnd_of_mem_line {triple : Triple} (h : triple.Grammatical) :
    ∀ c ∈ triple.line.toList, isLineEnd c = false := by
  have hterm : ∀ term ∈ triple.terms, ∀ c ∈ term.written, isLineEnd c = false :=
    fun term hterm => Term.isLineEnd_of_mem_written (h term hterm)
  intro c hc
  simp only [Triple.line_toList, List.mem_append, List.mem_cons, List.not_mem_nil, or_false] at hc
  rcases hc with hc | rfl | hc | rfl | hc | rfl | rfl
  · exact hterm _ (by simp [Triple.terms]) c hc
  · rfl
  · exact hterm _ (by simp [Triple.terms]) c hc
  · rfl
  · exact hterm _ (by simp [Triple.terms]) c hc
  · rfl
  · rfl

lemma Triple.splitLines_line {triple : Triple} (h : triple.Grammatical) :
    splitLines '\n' '\r' (triple.line.toList ++ ['\n']) = [triple.line.toList] := by
  refine splitLines_concat fun c hc => ?_
  have hend := isLineEnd_of_mem_line h c hc
  simpa [isLineEnd] using hend

/-- A line that begins like a term holds a statement or a fault. -/
lemma parseStatement_ne_none {c : Char} (hc : c ∈ ['<', '_']) (rest : List Char) :
    parseStatement (c :: rest) ≠ .ok none := by
  have hskip : skip (c :: rest) = c :: rest := by
    rcases List.mem_pair.mp hc with rfl | rfl <;> rfl
  have hline : line? (c :: rest) ≠ some none := by
    simp only [line?, hskip]
    split
    · split <;> simp
    · simp
  intro h
  have hread := eq_ok_of_mapError h
  unfold readStatement at hread
  split at hread
  · cases hread
  · rename_i hnone
    exact hline hnone
  · obtain ⟨quad, -, hsome⟩ := exists_of_map_eq_ok hread
    cases hsome

/-! ## The part of a statement in a dump -/

section

variable {graph : GraphName} {first : Nat} {triple : Triple}

lemma readsAs_line (h : triple.Clean) :
    ReadsAs graph first (triple.line.toList ++ ['\n']) [⟨triple, graph⟩] := by
  have hgrammatical : triple.Grammatical := fun term hterm => (h term hterm).grammatical
  have hread : readLine graph (some triple.line.toList) = .ok (some ⟨triple, graph⟩) := by
    simp [readLine, parseStatement_line_of_clean h, Quad.withDefault]
  rw [ReadsAs, Triple.splitLines_line hgrammatical, List.map_singleton, quadsFrom, hread]
  rfl

/-- What is read of a statement's part begins with a statement, read from the part's first line. -/
lemma exists_of_readsAs_line {quads : List Quad}
    (h : ReadsAs graph first (triple.line.toList ++ ['\n']) quads) :
    ∃ line others quad more, splitLines '\n' '\r' (triple.line.toList ++ ['\n']) = line :: others ∧
      parseStatement line = .ok (some quad) ∧ quads = quad.withDefault graph :: more := by
  obtain ⟨c, rest, hline, hc⟩ := triple.exists_line_cons
  have hfeed : c ≠ '\n' := by
    rintro rfl
    simp at hc
  have hret : c ≠ '\r' := by
    rintro rfl
    simp at hc
  obtain ⟨line, others, hlines⟩ := exists_splitLines_cons hfeed hret (rest ++ ['\n'])
  rw [← List.cons_append, ← hline] at hlines
  rw [ReadsAs, hlines, List.map_cons, quadsFrom] at h
  cases hparse : parseStatement (c :: line) with
  | error fault =>
    simp [readLine, hparse, readQuads] at h
  | ok statement =>
    cases statement with
    | none => exact absurd hparse (parseStatement_ne_none hc line)
    | some quad =>
      simp only [readLine, hparse, Option.map_some, readQuads] at h
      obtain ⟨more, -, hquads⟩ := exists_of_map_eq_ok h
      exact ⟨c :: line, others, quad, more, hlines, hparse, hquads.symm⟩

lemma Quad.triple_withDefault (quad : Quad) (graph : GraphName) :
    (quad.withDefault graph).triple = quad.triple := by
  unfold withDefault
  split <;> rfl

/-- If the first statement of a part is the one that was written, it was clean. -/
lemma clean_of_readsAs_line {more : List Quad}
    (h : ReadsAs graph first (triple.line.toList ++ ['\n']) (⟨triple, graph⟩ :: more)) :
    triple.Clean := by
  obtain ⟨line, others, quad, more', hlines, hparse, hquads⟩ := exists_of_readsAs_line h
  have hquad : quad.triple = triple := by
    rw [← quad.triple_withDefault graph, ← (List.cons.inj hquads).1]
  have hgrammatical : triple.Grammatical := hquad ▸ grammatical_of_parseStatement hparse
  rw [Triple.splitLines_line hgrammatical] at hlines
  rw [← (List.cons.inj hlines).1] at hparse
  exact clean_of_parseStatement_line hgrammatical hparse hquad

end

/-! ## Dumps -/

/-- The lines of statements, each ended by a line feed. -/
def dump (triples : List Triple) : List Char :=
  triples.flatMap fun triple => triple.line.toList ++ ['\n']

section

variable {graph : GraphName} {first : Nat} {triples : List Triple}

lemma readsAs_dump_cons {triple : Triple} {quads : List Quad} :
    ReadsAs graph first (dump (triple :: triples)) quads ↔
      ∃ before after, ReadsAs graph first (triple.line.toList ++ ['\n']) before ∧
        ReadsAs graph (first + (splitLines '\n' '\r' (triple.line.toList ++ ['\n'])).length)
          (dump triples) after ∧
        quads = before ++ after := by
  rw [dump, List.flatMap_cons, readsAs_append (wholeLines_concat '\n' triple.line.toList)]
  rfl

lemma readsAs_dump (h : ∀ triple ∈ triples, triple.Clean) :
    ReadsAs graph first (dump triples) (triples.map fun triple => ⟨triple, graph⟩) := by
  induction triples generalizing first with
  | nil => simp [ReadsAs, dump, splitLines, quadsFrom, readQuads]
  | cons triple triples ih =>
    obtain ⟨htriple, hrest⟩ := List.forall_mem_cons.mp h
    exact readsAs_dump_cons.mpr ⟨_, _, readsAs_line htriple, ih hrest, rfl⟩

/-- A dump that is read gives no fewer statements than were written. -/
lemma length_le_of_readsAs_dump {quads : List Quad} (h : ReadsAs graph first (dump triples) quads) :
    triples.length ≤ quads.length := by
  induction triples generalizing first quads with
  | nil => exact Nat.zero_le _
  | cons triple triples ih =>
    obtain ⟨before, after, hpart, hrest, rfl⟩ := readsAs_dump_cons.mp h
    obtain ⟨-, -, quad, more, -, -, rfl⟩ := exists_of_readsAs_line hpart
    have hlength := ih hrest
    simp only [List.length_cons, List.length_append]
    omega

lemma clean_of_readsAs_dump
    (h : ReadsAs graph first (dump triples) (triples.map fun triple => ⟨triple, graph⟩)) :
    ∀ triple ∈ triples, triple.Clean := by
  induction triples generalizing first with
  | nil => simp
  | cons triple triples ih =>
    obtain ⟨before, after, hpart, hrest, hquads⟩ := readsAs_dump_cons.mp h
    obtain ⟨-, -, quad, more, -, -, rfl⟩ := exists_of_readsAs_line hpart
    -- The rest gives all the statements that are left, so this part has given one only.
    have hrestLength := length_le_of_readsAs_dump hrest
    have hlength := congrArg List.length hquads
    simp only [List.map_cons, List.length_cons, List.length_append, List.length_map] at hlength
    obtain rfl : more = [] := List.eq_nil_of_length_eq_zero (by omega)
    rw [List.singleton_append, List.map_cons] at hquads
    obtain ⟨hquad, hafter⟩ := List.cons.inj hquads
    rw [← hquad] at hpart
    rw [← hafter] at hrest
    exact List.forall_mem_cons.mpr ⟨clean_of_readsAs_line hpart, ih hrest⟩

end

/-- **A dump is read back if and only if all its statements are clean.**  The statements come back
in order, all of them in the graph that the reader was given. -/
theorem reload_dump_iff (triples : List Triple) (graph : GraphName) :
    readQuads (textQuads (dump triples) graph) =
        .ok (triples.map fun triple => ⟨triple, graph⟩) ↔
      ∀ triple ∈ triples, triple.Clean := by
  have htext : readQuads (textQuads (dump triples) graph) =
        .ok (triples.map fun triple => ⟨triple, graph⟩) ↔
      ReadsAs graph 1 (dump triples) (triples.map fun triple => ⟨triple, graph⟩) := Iff.rfl
  rw [htext]
  exact ⟨clean_of_readsAs_dump, readsAs_dump⟩

/-- A label with an end of a line makes one statement two, and neither is the one written. -/
example :
    readQuads (textQuads (dump [⟨.blank ⟨"a <p> <o> .\n_:b"⟩, ⟨"q"⟩, .iri ⟨"r"⟩⟩]) .default) =
      .ok [⟨⟨.blank ⟨"a"⟩, ⟨"p"⟩, .iri ⟨"o"⟩⟩, .default⟩,
        ⟨⟨.blank ⟨"b"⟩, ⟨"q"⟩, .iri ⟨"r"⟩⟩, .default⟩] := by
  cbv

end QuadStore

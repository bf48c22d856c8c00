import Mathlib
import QuadStore.Grammar.Query
import QuadStore.Proofs.RecordIdentity

/-!
# The tokens of a text are the written forms of terms

A scanner takes the longest token at the front of a text.  This module compares it with the writer of
terms, in both directions.

A term is *clean* (`Term.Clean`) if its label or language tag is one of the grammar and its IRIs hold
no closing bracket.  The written form of a clean term is one token, whatever stands behind it, as long
as that does not continue the token (`term?_written`).  Nothing is asked of a lexical form: escaping
leaves neither a bare quote nor an end of a line in it.

A closing bracket in an IRI closes the token early: a shorter IRI is scanned, and so another term is
read (`exists_term?_written_of_bracket`).  In the other direction, a label or language tag that was
scanned is one of the grammar (`grammatical_of_term?`), while an IRI that was scanned may well hold a
bracket, since it may be escaped in the token.
-/

namespace QuadStore

open Text Grammar

/-! ## Clean terms -/

/-- A label of a blank node as the grammar has it. -/
def IsLabel (label : String) : Prop :=
  label.toList ≠ [] ∧ ∀ c ∈ label.toList, isLabelChar c = true

/-- A language tag as the grammar has it: letters, and further parts of letters and digits with a
hyphen before each. -/
def IsLanguageTag (tag : String) : Prop :=
  ∃ (first : List Char) (parts : List (List Char)),
    tag.toList = first ++ parts.flatMap ('-' :: ·) ∧
    (first ≠ [] ∧ ∀ c ∈ first, isLetter c = true) ∧
    ∀ part ∈ parts, part ≠ [] ∧ ∀ c ∈ part, isLetterOrDigit c = true

namespace Term

/-- The label or language tag of a term, if it has one, is one of the grammar. -/
def Grammatical : Term → Prop
  | .blank b => IsLabel b.label
  | .literal (.tagged _ tag) => IsLanguageTag tag
  | _ => True

/-- A term whose IRIs hold no closing bracket, and whose label or language tag is one of the
grammar. -/
structure Clean (term : Term) : Prop where
  grammatical : term.Grammatical
  bracketFree : ∀ iri ∈ term.iris, '>' ∉ iri.text.toList

end Term

/-- A literal of a datatype has it, also if it is that of strings. -/
lemma Literal.datatype_ofDatatype (lexical : String) (iri : Iri) :
    (ofDatatype lexical iri).datatype = iri := by
  unfold ofDatatype
  split
  · rename_i h
    exact h.symm
  · rfl

lemma Term.grammatical_ofDatatype (lexical : String) (iri : Iri) :
    (Term.literal (.ofDatatype lexical iri)).Grammatical := by
  unfold Literal.ofDatatype
  split <;> trivial

/-! ## Characters -/

lemma isControl_eq_false_of_mem_escapeChar {c d : Char} (h : d ∈ escapeChar c) :
    isControl d = false := by
  have hdigit : ∀ n < 16, isControl (hexDigit n) = false := by decide
  have hshort : ∀ letter, isControl letter = false → d ∈ ['\\', letter] →
      isControl d = false := by
    intro letter hletter hd
    rcases List.mem_pair.mp hd with rfl | rfl
    · rfl
    · exact hletter
  unfold escapeChar at h
  split_ifs at h with _ _ _ _ _ hcontrol
  · exact hshort '\\' rfl h
  · exact hshort '"' rfl h
  · exact hshort 'n' rfl h
  · exact hshort 'r' rfl h
  · exact hshort 't' rfl h
  · simp only [hexQuad, List.mem_cons, List.not_mem_nil, or_false] at h
    rcases h with rfl | rfl | rfl | rfl | rfl | rfl
    · rfl
    · rfl
    all_goals exact hdigit _ (Nat.mod_lt _ (by decide))
  · rw [List.mem_singleton.mp h]
    exact Bool.eq_false_of_not_eq_true hcontrol

/-- No character of an escaped text ends a line. -/
lemma isLineEnd_of_mem_escape {text : List Char} {c : Char} (h : c ∈ escape text) :
    isLineEnd c = false := by
  obtain ⟨d, -, hc⟩ := List.mem_flatMap.mp h
  have hcontrol := isControl_eq_false_of_mem_escapeChar hc
  simp only [isLineEnd, Bool.or_eq_false_iff, beq_eq_false_iff_ne]
  constructor
  · rintro rfl
    cases hcontrol
  · rintro rfl
    cases hcontrol

lemma isIriChar_of_mem_escape {text : List Char} (htext : '>' ∉ text) {c : Char}
    (h : c ∈ escape text) : isIriChar c = true := by
  have hgt : c ≠ '>' := by
    rintro rfl
    obtain ⟨d, hd, hc⟩ := List.mem_flatMap.mp h
    exact htext (eq_of_gt_mem_escapeChar hc ▸ hd)
  simp [isIriChar, hgt, isLineEnd_of_mem_escape h]

lemma isLabelChar_of_isLetterOrDigit {c : Char} (h : isLetterOrDigit c = true) :
    isLabelChar c = true := by
  simp [isLabelChar, isNameChar, h]

namespace Grammar

/-! ## What follows a token -/

/-- A text that continues no token of a term before it. -/
def EndsToken (rest : List Char) : Prop :=
  ∀ c ∈ rest.head?, isLabelChar c = false ∧ c ≠ '@' ∧ c ≠ '^'

instance (rest : List Char) : Decidable (EndsToken rest) :=
  decidable_of_iff (rest.head?.all fun c => !isLabelChar c && c != '@' && c != '^')
    (by cases rest <;> simp [EndsToken, and_assoc])

lemma endsToken_blank (rest : List Char) : EndsToken (' ' :: rest) := by
  intro c hc
  cases hc
  decide

variable {keep : Char → Bool} {text rest : List Char}

lemma EndsToken.isLetterOrDigit {c : Char} (h : EndsToken rest) (hc : c ∈ rest.head?) :
    isLetterOrDigit c = false := by
  have hlabel := (h c hc).1
  contrapose! hlabel
  rw [Bool.ne_false_iff] at hlabel ⊢
  exact isLabelChar_of_isLetterOrDigit hlabel

/-- A row of characters of a class ends where the class ends. -/
lemma span_append (h : ∀ c ∈ text, keep c = true) (hrest : ∀ c ∈ rest.head?, keep c = false) :
    span keep (text ++ rest) = (text, rest) := by
  have hstop : rest.takeWhile keep = [] ∧ rest.dropWhile keep = rest := by
    cases rest with
    | nil => exact ⟨rfl, rfl⟩
    | cons c rest => simp [hrest c rfl]
  rw [span, List.takeWhile_append_of_pos h, List.dropWhile_append_of_pos h, hstop.1, hstop.2,
    List.append_nil]

lemma of_mem_span {c : Char} (h : c ∈ (span keep text).1) : keep c = true :=
  List.mem_takeWhile_imp h

/-! ## IRIs and blank nodes -/

/-- The written form of an IRI without a bracket is one token. -/
lemma iri?_written {iri : Iri} (h : '>' ∉ iri.text.toList) (rest : List Char) :
    iri? (iri.written ++ rest) = some (iri.written, rest) := by
  have hspan : span isIriChar (escape iri.text.toList ++ '>' :: rest) =
      (escape iri.text.toList, '>' :: rest) :=
    span_append (fun c hc => isIriChar_of_mem_escape h hc) (by simp [isIriChar])
  have hwritten : iri.written ++ rest = '<' :: (escape iri.text.toList ++ '>' :: rest) := by
    simp [Iri.written]
  rw [hwritten, iri?]
  simp only [hspan]
  rfl

/-- Of an IRI with a bracket the scanner takes the part before the first one. -/
lemma iri?_written_of_bracket {iri : Iri} (h : '>' ∈ iri.text.toList) (rest : List Char) :
    ∃ other after, other ≠ iri ∧ iri? (iri.written ++ rest) = some (other.written, after) := by
  obtain ⟨first, tail, htext, hfirst⟩ := List.eq_append_cons_of_mem h
  let other : Iri := ⟨String.ofList first⟩
  have hother : other.text.toList = first := String.toList_ofList
  have hwritten : iri.written ++ rest = other.written ++ (escape tail ++ '>' :: rest) := by
    have hescape : escape ('>' :: tail) = '>' :: escape tail := rfl
    simp only [Iri.written, htext, hother, escape_append, hescape]
    simp
  refine ⟨other, escape tail ++ '>' :: rest, ?_, ?_⟩
  · rintro rfl
    rw [hother] at htext
    simp at htext
  · rw [hwritten]
    exact iri?_written (hother ▸ hfirst) _

lemma exists_of_iri? {token : List Char} (h : iri? text = some (token, rest)) :
    ∃ inner, token = '<' :: inner := by
  unfold iri? at h
  split at h
  · split at h
    · cases h
      exact ⟨_, rfl⟩
    · cases h
  · cases h

/-- The written form of a blank node is one token. -/
lemma blankNode?_written {node : BlankNode} (h : IsLabel node.label) (hrest : EndsToken rest) :
    blankNode? (node.written ++ rest) = some (node.written, rest) := by
  have hspan := span_append h.2 fun c hc => (hrest c hc).1
  obtain ⟨c, label, hlabel⟩ := List.exists_cons_of_ne_nil h.1
  rw [hlabel] at hspan
  simp only [BlankNode.written, hlabel, List.cons_append, blankNode?] at hspan ⊢
  rw [hspan]

lemma blankNode?_eq_some {token : List Char} (h : blankNode? text = some (token, rest)) :
    ∃ label, token = '_' :: ':' :: label ∧ IsLabel (String.ofList label) := by
  unfold blankNode? at h
  split at h
  · rename_i inner
    have hclass : ∀ c ∈ (span isLabelChar inner).1, isLabelChar c = true := fun _ => of_mem_span
    split at h
    · cases h
    · rename_i label _ hne hspan
      rw [hspan] at hclass
      cases h
      refine ⟨label, rfl, ?_⟩
      rw [IsLabel, String.toList_ofList]
      exact ⟨hne, hclass⟩
  · cases h

/-! ## Strings -/

/-- A string is scanned up to the quote that closes it, if it has no end of a line. -/
lemma stringRest?_of_splitAtQuote {raw : List Char} (h : splitAtQuote text = some (raw, rest))
    (hraw : ∀ c ∈ raw, isLineEnd c = false) :
    stringRest? text = some (raw ++ ['"'], rest) := by
  fun_induction splitAtQuote text generalizing raw with
  | case1 => cases h
  | case2 => cases h
  | case3 c text ih =>
    obtain ⟨⟨inner, after⟩, hsplit, hpair⟩ := Option.map_eq_some_iff.mp h
    cases hpair
    have hinner := ih hsplit fun d hd =>
      hraw d (List.mem_cons_of_mem _ (List.mem_cons_of_mem _ hd))
    simp [stringRest?, hinner]
  | case4 text =>
    cases h
    rfl
  | case5 c text hlast hescaped hquote ih =>
    obtain ⟨⟨inner, after⟩, hsplit, hpair⟩ := Option.map_eq_some_iff.mp h
    cases hpair
    have hinner := ih hsplit fun d hd => hraw d (List.mem_cons_of_mem _ hd)
    rw [stringRest?.eq_5 _ _ hlast hescaped hquote, hraw c List.mem_cons_self, hinner]
    rfl

/-- What is scanned as a string ends with the quote that closes it, whatever is put behind. -/
lemma splitAtQuote_of_stringRest? {token : List Char} (h : stringRest? text = some (token, rest)) :
    ∃ raw, token = raw ++ ['"'] ∧
      ∀ suffix, splitAtQuote (raw ++ '"' :: suffix) = some (raw, suffix) := by
  fun_induction stringRest? text generalizing token with
  | case1 => cases h
  | case2 => cases h
  | case3 c text ih =>
    obtain ⟨⟨inner, after⟩, hscan, hpair⟩ := Option.map_eq_some_iff.mp h
    cases hpair
    obtain ⟨raw, rfl, hsplit⟩ := ih hscan
    exact ⟨'\\' :: c :: raw, rfl, fun suffix => by simp [splitAtQuote, hsplit suffix]⟩
  | case4 text =>
    cases h
    exact ⟨[], rfl, fun suffix => rfl⟩
  | case5 => cases h
  | case6 c text hlast hescaped hquote hline ih =>
    obtain ⟨⟨inner, after⟩, hscan, hpair⟩ := Option.map_eq_some_iff.mp h
    cases hpair
    obtain ⟨raw, rfl, hsplit⟩ := ih hscan
    have hbackslash : c ≠ '\\' := by
      rintro rfl
      cases text with
      | nil => exact hlast rfl rfl
      | cons d text => exact hescaped d text rfl rfl
    refine ⟨c :: raw, rfl, fun suffix => ?_⟩
    rw [List.cons_append, splitAtQuote_cons hbackslash hquote, hsplit suffix]
    rfl

/-! ## Language tags -/

/-- The parts of a tag after the first are taken as far as they go. -/
lemma subtags_append {parts : List (List Char)}
    (h : ∀ part ∈ parts, part ≠ [] ∧ ∀ c ∈ part, isLetterOrDigit c = true)
    (hrest : EndsToken rest) :
    subtags (parts.flatMap ('-' :: ·) ++ rest) = (parts.flatMap ('-' :: ·), rest) := by
  induction parts with
  | nil =>
    unfold subtags
    split
    · rename_i heq
      have hhyphen : '-' ∈ rest.head? := by
        rw [List.flatMap_nil, List.nil_append] at heq
        rw [heq]
        rfl
      cases (hrest '-' hhyphen).1
    · rfl
  | cons part parts ih =>
    obtain ⟨hne, hclass⟩ := h part List.mem_cons_self
    obtain ⟨c, more, rfl⟩ := List.exists_cons_of_ne_nil hne
    have hnext : ∀ d ∈ (parts.flatMap ('-' :: ·) ++ rest).head?, isLetterOrDigit d = false := by
      intro d hd
      cases parts with
      | nil => exact hrest.isLetterOrDigit hd
      | cons next parts =>
        cases hd
        rfl
    have hspan := span_append (fun d hd => hclass d (List.mem_cons_of_mem c hd)) hnext
    obtain ⟨htake, hdrop⟩ := Prod.mk.inj hspan
    have htext : ((c :: more) :: parts).flatMap ('-' :: ·) ++ rest =
        '-' :: c :: (more ++ (parts.flatMap ('-' :: ·) ++ rest)) := by simp
    rw [htext, subtags, if_pos (hclass c List.mem_cons_self), htake, hdrop,
      ih fun part hpart => h part (List.mem_cons_of_mem _ hpart)]
    simp

/-- What is taken as the parts of a tag after the first are such parts. -/
lemma exists_of_subtags (text : List Char) :
    ∃ parts : List (List Char), (subtags text).1 = parts.flatMap ('-' :: ·) ∧
      ∀ part ∈ parts, part ≠ [] ∧ ∀ c ∈ part, isLetterOrDigit c = true := by
  fun_induction subtags text with
  | case1 c rest hc more after hmore ih =>
    obtain ⟨parts, htaken, hparts⟩ := ih
    simp only [hmore] at htaken
    refine ⟨(c :: rest.takeWhile isLetterOrDigit) :: parts, by simp [htaken], ?_⟩
    rintro part (_ | ⟨_, hpart⟩)
    · refine ⟨List.cons_ne_nil _ _, ?_⟩
      rintro d (_ | ⟨_, hd⟩)
      · exact hc
      · exact List.mem_takeWhile_imp hd
    · exact hparts part hpart
  | case2 c rest hc => exact ⟨[], rfl, by simp⟩
  | case3 text => exact ⟨[], rfl, by simp⟩

lemma language?_append {tag : String} (h : IsLanguageTag tag) (hrest : EndsToken rest) :
    language? (tag.toList ++ rest) = some (tag.toList, rest) := by
  obtain ⟨first, parts, htag, ⟨hne, hfirst⟩, hparts⟩ := h
  have hnext : ∀ c ∈ (parts.flatMap ('-' :: ·) ++ rest).head?, isLetter c = false := by
    intro c hc
    cases parts with
    | nil =>
      have hboth := hrest.isLetterOrDigit hc
      exact Bool.or_eq_false_iff.mp hboth |>.1
    | cons part parts =>
      cases hc
      rfl
  have hspan := span_append hfirst hnext
  rw [htag, List.append_assoc, language?]
  simp only [hspan, subtags_append hparts hrest]

lemma isLanguageTag_of_language? {tag : List Char} (h : language? text = some (tag, rest)) :
    IsLanguageTag (String.ofList tag) := by
  unfold language? at h
  have hclass : ∀ c ∈ (span isLetter text).1, isLetter c = true := fun _ => of_mem_span
  split at h
  · cases h
  · rename_i first after hne hspan
    rw [hspan] at hclass
    cases h
    obtain ⟨parts, htaken, hparts⟩ := exists_of_subtags after
    refine ⟨first, parts, ?_, ⟨hne, hclass⟩, hparts⟩
    rw [String.toList_ofList, htaken]

/-! ## Literals -/

variable {l : Literal}

/-- The annotation of a literal is taken as it was written. -/
lemma annotation_suffix (h : (Term.literal l).Clean) (hrest : EndsToken rest) :
    annotation (l.suffix ++ rest) = (l.suffix, rest) := by
  cases l with
  | simple lexical =>
    cases rest with
    | nil => rfl
    | cons c rest =>
      obtain ⟨-, hat, hcaret⟩ := hrest c rfl
      simp [Literal.suffix, annotation, hat, hcaret]
  | tagged lexical tag =>
    have htag := language?_append h.grammatical hrest
    simp only [Literal.suffix, List.cons_append, annotation, htag]
  | typed lexical datatype =>
    have hiri := iri?_written (h.bracketFree datatype.iri List.mem_cons_self) rest
    simp only [Literal.suffix, List.cons_append, annotation, hiri]

/-- What is taken as an annotation is nothing, a language tag, or a datatype. -/
lemma annotation_cases {taken : List Char} (h : annotation text = (taken, rest)) :
    taken = [] ∨ (∃ tag, taken = '@' :: tag ∧ IsLanguageTag (String.ofList tag)) ∨
      ∃ datatype, taken = '^' :: '^' :: datatype := by
  unfold annotation at h
  split at h
  · split at h
    · rename_i tag _ htag
      cases h
      exact .inr (.inl ⟨tag, rfl, isLanguageTag_of_language? htag⟩)
    · cases h
      exact .inl rfl
  · split at h
    · cases h
      exact .inr (.inr ⟨_, rfl⟩)
    · cases h
      exact .inl rfl
  · cases h
    exact .inl rfl

/-- A literal's token goes on with the annotation behind its lexical form. -/
lemma literal?_escape {taken : List Char} (lexical : String)
    (h : annotation text = (taken, rest)) :
    literal? ('"' :: (escape lexical.toList ++ '"' :: text)) =
      some ('"' :: (escape lexical.toList ++ '"' :: taken), rest) := by
  have hscan := stringRest?_of_splitAtQuote (splitAtQuote_escape lexical.toList text)
    fun c hc => isLineEnd_of_mem_escape hc
  simp [literal?, hscan, h]

lemma literal?_written (h : (Term.literal l).Clean) (hrest : EndsToken rest) :
    literal? (l.written ++ rest) = some (l.written, rest) := by
  have hwritten : l.written ++ rest =
      '"' :: (escape l.lexical.toList ++ '"' :: (l.suffix ++ rest)) := by simp [Literal.written]
  rw [hwritten, literal?_escape l.lexical (annotation_suffix h hrest)]
  rfl

/-- A literal whose datatype holds a bracket is taken for one of another datatype. -/
lemma literal?_written_of_bracket (lexical : String) {datatype : Datatype}
    (h : '>' ∈ datatype.iri.text.toList) (rest : List Char) :
    ∃ token after other, other ≠ datatype.iri ∧
      literal? ((Literal.typed lexical datatype).written ++ rest) = some (token, after) ∧
      Term.read token = .ok (.literal (.ofDatatype lexical other)) := by
  obtain ⟨other, after, hne, hiri⟩ := iri?_written_of_bracket h rest
  let token := '"' :: (escape lexical.toList ++ '"' :: '^' :: '^' :: other.written)
  refine ⟨token, after, other, hne, ?_, ?_⟩
  · have hwritten : (Literal.typed lexical datatype).written ++ rest = '"' ::
        (escape lexical.toList ++ '"' :: '^' :: '^' :: (datatype.iri.written ++ rest)) := by
      simp [Literal.written, Literal.suffix, Literal.lexical]
    have htaken : annotation ('^' :: '^' :: (datatype.iri.written ++ rest)) =
        ('^' :: '^' :: other.written, after) := by
      simp only [hiri, annotation]
    rw [hwritten, literal?_escape lexical htaken]
  · have hread : Literal.read token (escape lexical.toList ++ '"' :: '^' :: '^' :: other.written) =
        .ok (.ofDatatype lexical other) := by
      rw [Literal.read, splitAtQuote_escape]
      simp only [unescapeText_escape, Literal.annotate, Iri.read_written]
      rfl
    simp only [token, Term.read] at hread ⊢
    rw [hread]
    rfl

/-! ## Terms -/

/-- **The written form of a clean term is one token**, whatever stands behind it. -/
theorem term?_written {t : Term} (h : t.Clean) (hrest : EndsToken rest) :
    term? (t.written ++ rest) = some (t.written, rest) := by
  cases t with
  | iri i =>
    have hiri := iri?_written (h.bracketFree i List.mem_cons_self) rest
    rw [Term.written, term?, hiri]
    rfl
  | blank b =>
    have hnode := blankNode?_written h.grammatical hrest
    have hiri : iri? (b.written ++ rest) = none := rfl
    rw [Term.written, term?, hiri, hnode]
    rfl
  | literal l =>
    have hliteral := literal?_written h hrest
    have hiri : iri? (l.written ++ rest) = none := rfl
    have hnode : blankNode? (l.written ++ rest) = none := rfl
    rw [Term.written, term?, hiri, hnode, hliteral]
    rfl

/-- Of a term with a bracket in an IRI another term is found. -/
theorem exists_term?_written_of_bracket {t : Term} {iri : Iri} (hiri : iri ∈ t.iris)
    (hbracket : '>' ∈ iri.text.toList) (rest : List Char) :
    ∃ token after other, term? (t.written ++ rest) = some (token, after) ∧
      Term.read token = .ok other ∧ other ≠ t := by
  cases t with
  | iri i =>
    obtain rfl := List.mem_singleton.mp hiri
    obtain ⟨other, after, hne, hscan⟩ := iri?_written_of_bracket hbracket rest
    have hwell : (Term.iri other).WellFormed := trivial
    refine ⟨other.written, after, .iri other, ?_, Term.read_written hwell,
      fun h => hne (Term.iri.inj h)⟩
    rw [Term.written, term?, hscan]
    rfl
  | blank b => cases hiri
  | literal l =>
    cases l with
    | simple lexical => cases hiri
    | tagged lexical tag => cases hiri
    | typed lexical datatype =>
      obtain rfl := List.mem_singleton.mp hiri
      obtain ⟨token, after, other, hne, hscan, hread⟩ :=
        literal?_written_of_bracket lexical hbracket rest
      refine ⟨token, after, _, ?_, hread, fun h => hne ?_⟩
      · have hnone : iri? ((Literal.typed lexical datatype).written ++ rest) = none := rfl
        have hnode : blankNode? ((Literal.typed lexical datatype).written ++ rest) = none := rfl
        rw [Term.written, term?, hnone, hnode, hscan]
        rfl
      · have hdatatype := congrArg Literal.datatype (Term.literal.inj h)
        rwa [Literal.datatype_ofDatatype] at hdatatype

lemma grammatical_of_annotate {whole taken : List Char} {lexical : String}
    (htaken : annotation text = (taken, rest))
    (h : Literal.annotate whole lexical taken = .ok l) : (Term.literal l).Grammatical := by
  rcases annotation_cases htaken with rfl | ⟨tag, rfl, htag⟩ | ⟨datatype, rfl⟩
  · cases h
    trivial
  · obtain ⟨c, more, rfl⟩ : ∃ c more, tag = c :: more := by
      obtain ⟨first, parts, htoList, ⟨hne, -⟩, -⟩ := htag
      rw [String.toList_ofList] at htoList
      exact List.exists_cons_of_ne_nil (by simp [htoList, hne])
    cases h
    exact htag
  · obtain ⟨iri, -, rfl⟩ := exists_of_map_eq_ok h
    exact Term.grammatical_ofDatatype lexical iri

lemma grammatical_of_literal? {token : List Char} {t : Term}
    (h : literal? text = some (token, rest)) (hread : Term.read token = .ok t) :
    t.Grammatical := by
  unfold literal? at h
  split at h
  · obtain ⟨⟨string, after⟩, hscan, hpair⟩ := Option.map_eq_some_iff.mp h
    obtain ⟨raw, rfl, hsplit⟩ := splitAtQuote_of_stringRest? hscan
    cases hpair
    obtain ⟨l, hl, rfl⟩ := exists_of_map_eq_ok hread
    rw [List.append_assoc, Literal.read, List.singleton_append, hsplit] at hl
    simp only at hl
    split at hl
    · cases hl
    · exact grammatical_of_annotate rfl hl
  · cases h

/-- **What is scanned and read as a term is grammatical.** -/
theorem grammatical_of_term? {t : Term} {token : List Char} (h : term? text = some (token, rest))
    (hread : Term.read token = .ok t) : t.Grammatical := by
  rcases (Option.orElse_eq_some _ _ _).mp h with hiri | ⟨-, hother⟩
  · obtain ⟨inner, rfl⟩ := exists_of_iri? hiri
    obtain ⟨i, -, rfl⟩ := exists_of_map_eq_ok hread
    trivial
  · rcases (Option.orElse_eq_some _ _ _).mp hother with hnode | ⟨-, hliteral⟩
    · obtain ⟨label, rfl, hlabel⟩ := blankNode?_eq_some hnode
      obtain ⟨c, more, rfl⟩ : ∃ c more, label = c :: more :=
        List.exists_cons_of_ne_nil (by simpa using hlabel.1)
      cases hread
      exact hlabel
    · exact grammatical_of_literal? hliteral hread

end Grammar

end QuadStore
